import Mathlib.Data.List.Pairwise
import Cosmosh.Sftp.TaskClaims

/-! # What minimized claims keep apart

A claim is left out only below one that stays.
-/

namespace Sftp

open Library Library.PosixPath

variable {collation : Collation} {claims minimalClaims : List Text} {existing claim other : Text}

theorem pairwise_foldl_minimizeClaims (h : minimalClaims.Pairwise fun a b => doSftpTaskClaimsConflict a b = false) :
    (claims.foldl minimizeClaims minimalClaims).Pairwise fun a b => doSftpTaskClaimsConflict a b = false := by
  induction claims generalizing minimalClaims with
  | nil => exact h
  | cons claim claims ih =>
    apply ih
    rw [minimizeClaims]
    split
    · exact h
    · next hFree =>
      refine List.pairwise_append.mpr ⟨h, List.pairwise_singleton _ _, ?_⟩
      intro a ha b hb
      rw [List.mem_singleton.mp hb, ← Bool.not_eq_true]
      exact fun hConflict => hFree (List.any_eq_true.mpr ⟨a, ha, hConflict⟩)

def Encloses (existing claim : Text) : Prop := existing = claim ∨ existing = "/".toList ∨ existing ++ ['/'] <+: claim

theorem encloses_of_location (hExisting : Canonical existing) (hClaim : Canonical claim)
    (h : location existing <+: location claim) : Encloses existing claim := by
  by_cases hRoot : location existing = []
  · exact .inr (.inl (by rw [hExisting.eq_render, hRoot]; rfl))
  · by_cases hSame : location existing = location claim
    · exact .inl (by rw [hExisting.eq_render, hClaim.eq_render, hSame])
    · refine .inr (.inr ?_)
      rw [hExisting.eq_render, hClaim.eq_render]
      exact List.isPrefixOf_iff_prefix.mp
        ((render_isPrefixOf_iff (location_plain claim) (location_plain existing) hRoot).mpr ⟨h, hSame⟩)

theorem conflict_iff (left right : Text) : doSftpTaskClaimsConflict left right = true ↔
    left = right ∨ left = "/".toList ∨ right = "/".toList ∨ right ++ ['/'] <+: left ∨ left ++ ['/'] <+: right := by
  rw [doSftpTaskClaimsConflict]
  split
  · next hTrivial =>
    refine iff_of_true rfl ?_
    obtain h | h | h := hTrivial
    · exact .inl h
    · exact .inr (.inl h)
    · exact .inr (.inr (.inl h))
  · next hNontrivial =>
    simp only [not_or] at hNontrivial
    obtain ⟨hNe, hLeft, hRight⟩ := hNontrivial
    rw [Bool.or_eq_true, List.isPrefixOf_iff_prefix, List.isPrefixOf_iff_prefix, or_iff_right hNe, or_iff_right hLeft,
      or_iff_right hRight]

theorem Encloses.conflict (h : Encloses existing claim) (hNotRoot : claim = "/".toList → existing = "/".toList)
    (hConflict : doSftpTaskClaimsConflict claim other = true) : doSftpTaskClaimsConflict existing other = true := by
  obtain rfl | rfl | hBelow := h
  · exact hConflict
  · exact (conflict_iff _ _).mpr (.inr (.inl rfl))
  · rw [conflict_iff] at hConflict ⊢
    obtain rfl | hRoot | hRoot | hAbove | hDeeper := hConflict
    · exact .inr (.inr (.inr (.inr hBelow)))
    · exact .inr (.inl (hNotRoot hRoot))
    · exact .inr (.inr (.inl hRoot))
    · -- both go on to the claim, so one of them goes on to the other
      obtain hNested | hNested := List.prefix_or_prefix_of_prefix hAbove hBelow
      · obtain hSame | hLess := List.prefix_concat_iff.mp hNested
        · exact .inl (List.append_cancel_right hSame).symm
        · exact .inr (.inr (.inr (.inl hLess)))
      · obtain hSame | hLess := List.prefix_concat_iff.mp hNested
        · exact .inl (List.append_cancel_right hSame)
        · exact .inr (.inr (.inr (.inr hLess)))
    · exact .inr (.inr (.inr (.inr (hBelow.trans ((List.prefix_append _ _).trans hDeeper)))))

theorem mem_normalizeSftpTaskClaims (h : claim ∈ normalizeSftpTaskClaims collation claims) :
    ∃ raw ∈ claims, normalizeSftpTaskClaimPath raw = claim := by
  obtain hNone | hSorted := foldl_minimizeClaims_subset claim h
  · cases hNone
  · exact (mem_sorted_claims collation claims claim).mp hSorted

structure KeepsApart (collation : Collation) (claims : List Text) : Prop where
  apart : (normalizeSftpTaskClaims collation claims).Pairwise fun a b => doSftpTaskClaimsConflict a b = false
  antichain : ∀ a ∈ normalizeSftpTaskClaims collation claims, ∀ b ∈ normalizeSftpTaskClaims collation claims,
    location a <+: location b → a = b
  conflicts : ∀ other, (∃ claim ∈ normalizeSftpTaskClaims collation claims, doSftpTaskClaimsConflict claim other = true) ↔
    ∃ raw ∈ claims, doSftpTaskClaimsConflict (normalizeSftpTaskClaimPath raw) other = true

theorem normalized_claims_keep_apart (collation : Collation) (claims : List Text) : KeepsApart collation claims := by
  have hApart : (normalizeSftpTaskClaims collation claims).Pairwise fun a b => doSftpTaskClaimsConflict a b = false :=
    pairwise_foldl_minimizeClaims .nil
  have hCanonical := normalizeSftpTaskClaims_canonical collation claims
  refine ⟨hApart, ?_, ?_⟩
  · intro a ha b hb hAncestor
    have : Std.Symm fun a b => doSftpTaskClaimsConflict a b = false := ⟨fun x y hFree => (doSftpTaskClaimsConflict_comm y x).trans hFree⟩
    by_contra hDistinct
    have hFree := hApart.forall ha hb hDistinct
    have hConflict := (doSftpTaskClaimsConflict_iff (hCanonical a ha) (hCanonical b hb)).mpr (.inl hAncestor)
    rw [hFree] at hConflict
    cases hConflict
  · intro other
    constructor
    · rintro ⟨claim, hClaim, hConflict⟩
      obtain ⟨raw, hRaw, rfl⟩ := mem_normalizeSftpTaskClaims hClaim
      exact ⟨raw, hRaw, hConflict⟩
    · rintro ⟨raw, hRaw, hConflict⟩
      obtain ⟨existing, hExisting, hAncestor⟩ := normalizeSftpTaskClaims_covers collation claims hRaw
      have hCanonicalRaw := normalizeSftpTaskClaimPath_canonical raw
      refine ⟨existing, hExisting, (encloses_of_location (hCanonical existing hExisting) hCanonicalRaw hAncestor).conflict ?_ hConflict⟩
      intro hRoot
      rw [hRoot, show location "/".toList = [] from rfl, List.prefix_nil] at hAncestor
      rw [(hCanonical existing hExisting).eq_render, hAncestor]
      rfl

end Sftp
