import Cosmosh.Library.PosixPath

/-! # Path claims of scheduled SFTP tasks

A claim is the canonical spelling of a remote subtree.
-/

namespace Sftp

open Library Library.JsText Library.PosixPath

/-- The order `localeCompare` puts on strings; it depends on the host's locale. -/
structure Collation where
  localeCompare : Text → Text → Int
  total : ∀ a b, localeCompare a b ≤ 0 ∨ localeCompare b a ≤ 0
  trans : ∀ a b c, localeCompare a b ≤ 0 → localeCompare b c ≤ 0 → localeCompare a c ≤ 0

def normalizeSftpTaskClaimPath (input : Text) : Text :=
  let trimmed := trim input
  if trimmed = [] then "/".toList
  else
    let normalized := normalize (replaceChar '\\' '/' trimmed)
    if !isAbsolute normalized then "/".toList
    else if normalized = "/".toList then normalized
    else normalized.rdropWhile (· = '/')

def doSftpTaskClaimsConflict (left right : Text) : Bool :=
  if left = right ∨ left = "/".toList ∨ right = "/".toList then true
  else (right ++ ['/']).isPrefixOf left || (left ++ ['/']).isPrefixOf right

def claimOrder (collation : Collation) (left right : Text) : Bool :=
  utf16Length left < utf16Length right ∨
    utf16Length left = utf16Length right ∧ collation.localeCompare left right ≤ 0

def minimizeClaims (minimalClaims : List Text) (claim : Text) : List Text :=
  if minimalClaims.any (doSftpTaskClaimsConflict · claim) then minimalClaims else minimalClaims ++ [claim]

def normalizeSftpTaskClaims (collation : Collation) (claims : List Text) : List Text :=
  let normalizedClaims := ((claims.map normalizeSftpTaskClaimPath).eraseDups).mergeSort (claimOrder collation)
  normalizedClaims.foldl minimizeClaims []

def doClaimSetsConflict (left right : List Text) : Bool :=
  left.any fun leftClaim => right.any fun rightClaim => doSftpTaskClaimsConflict leftClaim rightClaim

theorem doSftpTaskClaimsConflict_comm (left right : Text) : doSftpTaskClaimsConflict left right = doSftpTaskClaimsConflict right left := by
  simp only [doSftpTaskClaimsConflict, eq_comm (a := left) (b := right), or_comm (a := left = "/".toList),
    Bool.or_comm ((right ++ ['/']).isPrefixOf left)]

theorem doClaimSetsConflict_comm (left right : List Text) : doClaimSetsConflict left right = doClaimSetsConflict right left := by
  rw [Bool.eq_iff_iff]
  simp only [doClaimSetsConflict, List.any_eq_true]
  constructor
  · rintro ⟨a, ha, b, hb, hConflict⟩
    exact ⟨b, hb, a, ha, doSftpTaskClaimsConflict_comm a b ▸ hConflict⟩
  · rintro ⟨a, ha, b, hb, hConflict⟩
    exact ⟨b, hb, a, ha, doSftpTaskClaimsConflict_comm a b ▸ hConflict⟩

def Canonical (claim : Text) : Prop := ∃ names, (∀ n ∈ names, Plain n) ∧ claim = render names false

variable {claim : Text}

theorem Canonical.eq_render (h : Canonical claim) : claim = render (location claim) false := by
  obtain ⟨names, hNames, rfl⟩ := h
  rw [location_render hNames]

theorem canonical_root : Canonical "/".toList := ⟨[], by simp, rfl⟩

theorem normalizeSftpTaskClaimPath_of_absolute {input : Text} (h : isAbsolute (replaceChar '\\' '/' (trim input)) = true) :
    normalizeSftpTaskClaimPath input = render (location (replaceChar '\\' '/' (trim input))) false := by
  have hNonempty : trim input ≠ [] := by
    intro hEmpty
    rw [hEmpty] at h
    cases h
  simp only [normalizeSftpTaskClaimPath, if_neg hNonempty, isAbsolute_normalize, h, Bool.not_true,
    Bool.false_eq_true, if_false]
  rw [normalize_of_absolute h]
  by_cases hRoot : location (replaceChar '\\' '/' (trim input)) = []
  · rw [hRoot, if_pos (by cases hasTrailingSeparator _ <;> rfl)]
    cases hasTrailingSeparator _ <;> rfl
  · have hPlain := location_plain (replaceChar '\\' '/' (trim input))
    rw [render_not_trailing hPlain hRoot]
    split
    · rename_i hEq
      have hLocation := congrArg location hEq
      rw [location_render hPlain] at hLocation
      exact absurd hLocation hRoot
    · rfl

theorem normalizeSftpTaskClaimPath_of_relative {input : Text} (h : isAbsolute (replaceChar '\\' '/' (trim input)) = false) :
    normalizeSftpTaskClaimPath input = "/".toList := by
  simp only [normalizeSftpTaskClaimPath, isAbsolute_normalize, h, Bool.not_false, if_true, ite_self]

theorem normalizeSftpTaskClaimPath_canonical (input : Text) : Canonical (normalizeSftpTaskClaimPath input) := by
  cases h : isAbsolute (replaceChar '\\' '/' (trim input)) with
  | false =>
    rw [normalizeSftpTaskClaimPath_of_relative h]
    exact canonical_root
  | true =>
    rw [normalizeSftpTaskClaimPath_of_absolute h]
    exact ⟨_, location_plain _, rfl⟩

theorem render_isPrefixOf_iff {a b : List Text} (ha : ∀ n ∈ a, Plain n) (hb : ∀ n ∈ b, Plain n) (hNonempty : b ≠ []) :
    (render b false ++ ['/']).isPrefixOf (render a false) = true ↔ b <+: a ∧ b ≠ a := by
  rw [List.isPrefixOf_iff_prefix, render_untrailed, render_untrailed]
  constructor
  · rintro ⟨tail, hTail⟩
    have hBody : joinSegments b ++ '/' :: tail = joinSegments a := by simpa using hTail
    have hNonemptyA : a ≠ [] := by
      rintro rfl
      simp [joinSegments] at hBody
    have hSplit := congrArg (List.splitOn '/') hBody
    rw [List.splitOn_append_cons_self, splitOn_joinSegments hb hNonempty,
      splitOn_joinSegments ha hNonemptyA] at hSplit
    refine ⟨⟨_, hSplit⟩, ?_⟩
    intro hEq
    rw [hEq, List.append_right_eq_self] at hSplit
    exact List.splitOn_ne_nil '/' tail hSplit
  · rintro ⟨⟨rest, rfl⟩, hNe⟩
    have hRest : rest ≠ [] := by
      rintro rfl
      exact hNe (by simp)
    rw [joinSegments_append hNonempty hRest]
    exact ⟨joinSegments rest, by simp⟩

theorem doSftpTaskClaimsConflict_iff {left right : Text} (hLeft : Canonical left) (hRight : Canonical right) :
    doSftpTaskClaimsConflict left right = true ↔ location left <+: location right ∨ location right <+: location left := by
  obtain ⟨a, ha, rfl⟩ := hLeft
  obtain ⟨b, hb, rfl⟩ := hRight
  rw [location_render ha, location_render hb, doSftpTaskClaimsConflict]
  have hRoot : ∀ names : List Text, (∀ n ∈ names, Plain n) → (render names false = "/".toList ↔ names = []) := by
    intro names hNames
    constructor
    · exact fun h => render_injective hNames (by simp) (h.trans (rfl : _ = render [] false))
    · rintro rfl
      rfl
  simp only [hRoot a ha, hRoot b hb]
  split
  · rename_i hTrivial
    simp only [true_iff]
    obtain hEq | rfl | rfl := hTrivial
    · exact .inl (render_injective ha hb hEq ▸ List.prefix_refl a)
    · exact .inl List.nil_prefix
    · exact .inr List.nil_prefix
  · rename_i hNontrivial
    simp only [not_or] at hNontrivial
    obtain ⟨hNe, hA, hB⟩ := hNontrivial
    have hNames : a ≠ b := by
      rintro rfl
      exact hNe rfl
    rw [Bool.or_eq_true, render_isPrefixOf_iff ha hb hB, render_isPrefixOf_iff hb ha hA]
    constructor
    · rintro (h | h)
      · exact .inr h.1
      · exact .inl h.1
    · rintro (h | h)
      · exact .inr ⟨h, hNames⟩
      · exact .inl ⟨h, hNames.symm⟩

theorem utf16Length_render_lt {a b : List Text} (hPrefix : a <+: b) (hNe : a ≠ b)
    (hb : ∀ n ∈ b, Plain n) : utf16Length (render a false) < utf16Length (render b false) := by
  obtain ⟨rest, rfl⟩ := hPrefix
  have hRest : rest ≠ [] := by
    rintro rfl
    exact hNe (by simp)
  have hPositive : 0 < utf16Length (joinSegments rest) := by
    apply utf16Length_pos
    rw [Ne, joinSegments_eq_nil_iff (fun n hn => hb n (List.mem_append_right _ hn))]
    exact hRest
  rw [render_untrailed, render_untrailed]
  by_cases hEmpty : a = []
  · subst hEmpty
    rw [List.nil_append, ← List.singleton_append (l := joinSegments rest), utf16Length_append]
    exact Nat.lt_add_of_pos_right hPositive
  · rw [joinSegments_append hEmpty hRest, ← List.cons_append, utf16Length_append,
      ← List.singleton_append (l := joinSegments rest), utf16Length_append]
    omega

variable (collation : Collation)

theorem claimOrder_trans (a b c : Text) (hab : claimOrder collation a b = true) (hbc : claimOrder collation b c = true) :
    claimOrder collation a c = true := by
  simp only [claimOrder, decide_eq_true_eq] at *
  obtain hab | ⟨hab, hLeft⟩ := hab
  · obtain hbc | ⟨hbc, _⟩ := hbc
    · exact .inl (by omega)
    · exact .inl (by omega)
  · obtain hbc | ⟨hbc, hRight⟩ := hbc
    · exact .inl (by omega)
    · exact .inr ⟨by omega, collation.trans a b c hLeft hRight⟩

theorem claimOrder_total (a b : Text) : (claimOrder collation a b || claimOrder collation b a) = true := by
  simp only [claimOrder, Bool.or_eq_true, decide_eq_true_eq]
  have hTotal := collation.total a b
  omega

theorem utf16Length_le_of_claimOrder {collation : Collation} {a b : Text}
    (h : claimOrder collation a b = true) : utf16Length a ≤ utf16Length b := by
  simp only [claimOrder, decide_eq_true_eq] at h
  omega

theorem location_prefix_of_conflict {existing : Text} (hExisting : Canonical existing) (hClaim : Canonical claim)
    (hLength : utf16Length existing ≤ utf16Length claim) (hConflict : doSftpTaskClaimsConflict existing claim = true) :
    location existing <+: location claim := by
  obtain h | h := (doSftpTaskClaimsConflict_iff hExisting hClaim).mp hConflict
  · exact h
  · by_cases hEq : location claim = location existing
    · exact hEq ▸ List.prefix_refl _
    · have hShorter := utf16Length_render_lt h hEq (location_plain existing)
      rw [← hExisting.eq_render, ← hClaim.eq_render] at hShorter
      omega

variable {minimalClaims : List Text}

theorem mem_minimizeClaims {c : Text} (h : c ∈ minimalClaims) : c ∈ minimizeClaims minimalClaims claim := by
  rw [minimizeClaims]
  split
  · exact h
  · exact List.mem_append_left _ h

variable {claims : List Text}

theorem mem_foldl_minimizeClaims {c : Text} (h : c ∈ minimalClaims) : c ∈ claims.foldl minimizeClaims minimalClaims := by
  induction claims generalizing minimalClaims with
  | nil => exact h
  | cons claim claims ih => exact ih (mem_minimizeClaims h)

theorem foldl_minimizeClaims_subset : ∀ c ∈ claims.foldl minimizeClaims minimalClaims, c ∈ minimalClaims ∨ c ∈ claims := by
  induction claims generalizing minimalClaims with
  | nil => exact fun c hc => .inl hc
  | cons claim claims ih =>
    intro c hc
    obtain h | h := ih c hc
    · rw [minimizeClaims] at h
      split at h
      · exact .inl h
      · obtain h | h := List.mem_append.mp h
        · exact .inl h
        · exact .inr (List.mem_cons.mpr (.inl (List.mem_singleton.mp h)))
    · exact .inr (List.mem_cons_of_mem _ h)

theorem foldl_minimizeClaims_covers (hSorted : claims.Pairwise (fun a b => utf16Length a ≤ utf16Length b))
    (hMinimal : ∀ a ∈ minimalClaims, ∀ b ∈ claims, utf16Length a ≤ utf16Length b)
    (hCanonical : ∀ a ∈ minimalClaims, Canonical a) (hClaims : ∀ a ∈ claims, Canonical a) :
    ∀ claim ∈ claims, ∃ c ∈ claims.foldl minimizeClaims minimalClaims, location c <+: location claim := by
  induction claims generalizing minimalClaims with
  | nil => exact fun _ h => absurd h List.not_mem_nil
  | cons first claims ih =>
    obtain ⟨hFirst, hSorted⟩ := List.pairwise_cons.mp hSorted
    have hCanonicalFirst := hClaims first List.mem_cons_self
    have hCovered : ∃ c ∈ minimizeClaims minimalClaims first, location c <+: location first := by
      rw [minimizeClaims]
      split
      · rename_i hConflict
        obtain ⟨c, hc, hConflict⟩ := List.any_eq_true.mp hConflict
        exact ⟨c, hc, location_prefix_of_conflict (hCanonical c hc) hCanonicalFirst
          (hMinimal c hc first List.mem_cons_self) hConflict⟩
      · exact ⟨first, by simp, List.prefix_refl _⟩
    have hMem : ∀ a ∈ minimizeClaims minimalClaims first, a ∈ minimalClaims ∨ a = first := by
      intro a ha
      obtain h | h := foldl_minimizeClaims_subset a (show a ∈ [first].foldl minimizeClaims minimalClaims from ha)
      · exact .inl h
      · exact .inr (List.mem_singleton.mp h)
    intro claim hClaim
    obtain rfl | hClaim := List.mem_cons.mp hClaim
    · obtain ⟨c, hc, hPrefix⟩ := hCovered
      rw [List.foldl_cons]
      exact ⟨c, mem_foldl_minimizeClaims hc, hPrefix⟩
    · refine ih hSorted ?_ ?_ (fun a ha => hClaims a (List.mem_cons_of_mem _ ha)) claim hClaim
      · intro a ha b hb
        obtain ha | rfl := hMem a ha
        · exact hMinimal a ha b (List.mem_cons_of_mem _ hb)
        · exact hFirst b hb
      · intro a ha
        obtain ha | rfl := hMem a ha
        · exact hCanonical a ha
        · exact hCanonicalFirst

theorem mem_sorted_claims (claims : List Text) (c : Text) :
    c ∈ ((claims.map normalizeSftpTaskClaimPath).eraseDups).mergeSort (claimOrder collation) ↔
      ∃ raw ∈ claims, normalizeSftpTaskClaimPath raw = c := by
  rw [List.mem_mergeSort, List.mem_eraseDups, List.mem_map]

theorem normalizeSftpTaskClaims_covers (claims : List Text) {raw : Text} (h : raw ∈ claims) : ∃ c ∈ normalizeSftpTaskClaims collation claims,
      location c <+: location (normalizeSftpTaskClaimPath raw) := by
  apply foldl_minimizeClaims_covers
  · exact (List.pairwise_mergeSort (claimOrder_trans collation) (claimOrder_total collation) _).imp
      utf16Length_le_of_claimOrder
  · exact fun _ ha => absurd ha List.not_mem_nil
  · exact fun _ ha => absurd ha List.not_mem_nil
  · intro a ha
    obtain ⟨source, _, rfl⟩ := (mem_sorted_claims collation claims a).mp ha
    exact normalizeSftpTaskClaimPath_canonical source
  · exact (mem_sorted_claims collation claims _).mpr ⟨raw, h, rfl⟩

theorem normalizeSftpTaskClaims_canonical (claims : List Text) : ∀ c ∈ normalizeSftpTaskClaims collation claims, Canonical c := by
  intro c hc
  obtain h | h := foldl_minimizeClaims_subset c hc
  · exact absurd h List.not_mem_nil
  · obtain ⟨raw, _, rfl⟩ := (mem_sorted_claims collation claims c).mp h
    exact normalizeSftpTaskClaimPath_canonical raw

theorem no_common_location {left right : List Text} (hLeft : ∀ c ∈ left, Canonical c)
    (hRight : ∀ c ∈ right, Canonical c) (h : doClaimSetsConflict left right = false)
    {a b : Text} (ha : a ∈ left) (hb : b ∈ right) (names : List Text) (hBelowA : location a <+: names) : ¬ location b <+: names := by
  intro hBelowB
  have hNested := List.prefix_or_prefix_of_prefix hBelowA hBelowB
  have hConflict := (doSftpTaskClaimsConflict_iff (hLeft a ha) (hRight b hb)).mpr hNested
  have hSets : doClaimSetsConflict left right = true := List.any_eq_true.mpr ⟨a, ha, List.any_eq_true.mpr ⟨b, hb, hConflict⟩⟩
  rw [h] at hSets
  cases hSets

end Sftp
