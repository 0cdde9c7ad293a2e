import Mathlib.Data.List.Infix

/-! # Markers in a text

A marker starts with a character that it does not repeat, so no two occurrences overlap.
-/

namespace Library

section

variable {α : Type}

def Separate (p t : List α) : Prop := ∀ c ∈ t.head?, c ∉ p.tail

theorem prefix_append_iff {p a t : List α} (ha : a ≠ []) (h : Separate p t) : p <+: a ++ t ↔ p <+: a := by
  refine ⟨fun hPrefix => ?_, fun hPrefix => hPrefix.trans (List.prefix_append a t)⟩
  obtain hShort | hLong := List.prefix_or_prefix_of_prefix hPrefix (List.prefix_append a t)
  · exact hShort
  · obtain ⟨rest, rfl⟩ := hLong
    obtain ⟨d, a, rfl⟩ := List.exists_cons_of_ne_nil ha
    cases rest with
    | nil => rw [List.append_nil]
    | cons c rest =>
      obtain ⟨more, hMore⟩ := (List.prefix_append_right_inj (d :: a)).mp hPrefix
      have hHead : c ∈ t.head? := by rw [← hMore]; rfl
      exact absurd (List.mem_append_right a List.mem_cons_self) (h c hHead)

theorem infix_append_iff {p t : List α} (hp : p ≠ []) (h : Separate p t) (a : List α) : p <:+: a ++ t ↔ p <:+: a ∨ p <:+: t := by
  induction a with
  | nil =>
    rw [List.nil_append, List.infix_nil]
    exact (or_iff_right hp).symm
  | cons c a ih =>
    rw [List.cons_append, List.infix_cons_iff, List.infix_cons_iff, ih, ← List.cons_append, prefix_append_iff (List.cons_ne_nil c a) h,
      or_assoc]

structure IsMarker (p : List α) : Prop where
  nonempty : p ≠ []
  head : ∀ c ∈ p.head?, c ∉ p.tail

theorem IsMarker.separate {p : List α} (h : IsMarker p) (t : List α) : Separate p (p ++ t) := by
  intro c hc
  rw [List.head?_append_of_ne_nil _ h.nonempty] at hc
  exact h.head c hc

end

section

variable {α : Type} [DecidableEq α]

def cut (p : List α) : List α → Option (List α × List α)
  | [] => none
  | c :: s =>
    if p <+: c :: s then some ([], (c :: s).drop p.length)
    else (cut p s).map fun (before, after) => (c :: before, after)

def cutLast (p : List α) : List α → Option (List α × List α)
  | [] => none
  | c :: s =>
    match cutLast p s with
    | some (before, after) => some (c :: before, after)
    | none => if p <+: c :: s then some ([], (c :: s).drop p.length) else none

variable {s : List α}

theorem cut_eq_none {p : List α} (hp : p ≠ []) : cut p s = none ↔ ¬ p <:+: s := by
  induction s with
  | nil =>
    rw [List.infix_nil]
    exact ⟨fun _ => hp, fun _ => rfl⟩
  | cons c s ih =>
    rw [cut, List.infix_cons_iff]
    split
    · next hPrefix => exact ⟨nofun, fun h => absurd (Or.inl hPrefix) h⟩
    · next hPrefix => rw [Option.map_eq_none_iff, ih, or_iff_right hPrefix]

variable {before after : List α}

theorem cut_eq_some {p : List α} (hp : p ≠ []) (h : cut p s = some (before, after)) : s = before ++ (p ++ after) ∧ ¬ p <:+: before := by
  induction s generalizing before with
  | nil => cases h
  | cons c s ih =>
    rw [cut] at h
    split at h
    · next hPrefix =>
      obtain ⟨rest, hRest⟩ := hPrefix
      cases h
      refine ⟨?_, fun hNil => hp (List.infix_nil.mp hNil)⟩
      rw [← hRest, List.drop_left, List.nil_append]
    · next hPrefix =>
      obtain ⟨⟨front, rest⟩, hCut, hSame⟩ := Option.map_eq_some_iff.mp h
      cases hSame
      obtain ⟨rfl, hFront⟩ := ih hCut
      refine ⟨rfl, fun hInfix => ?_⟩
      obtain hStart | hLater := List.infix_cons_iff.mp hInfix
      · exact hPrefix (hStart.trans ⟨p ++ after, rfl⟩)
      · exact hFront hLater

theorem cut_append {p a t : List α} (ha : ¬ p <:+: a) (h : Separate p t) :
    cut p (a ++ t) = (cut p t).map fun (before, after) => (a ++ before, after) := by
  induction a with
  | nil => simp
  | cons c a ih =>
    obtain ⟨hStart, hLater⟩ := not_or.mp (mt List.infix_cons_iff.mpr ha)
    have hPrefix : ¬ p <+: c :: (a ++ t) := mt (prefix_append_iff (List.cons_ne_nil c a) h).mp hStart
    rw [List.cons_append, cut, if_neg hPrefix, ih hLater, Option.map_map]
    rfl

theorem cut_self {p : List α} (hp : p ≠ []) (t : List α) : cut p (p ++ t) = some ([], t) := by
  obtain ⟨c, rest, rfl⟩ := List.exists_cons_of_ne_nil hp
  have hPrefix : c :: rest <+: c :: (rest ++ t) := List.prefix_append (c :: rest) t
  rw [List.cons_append, cut, if_pos hPrefix, ← List.cons_append, List.drop_left]

namespace IsMarker

variable {p : List α} (hp : IsMarker p)

include hp

theorem cut_of_not_infix {a : List α} (ha : ¬ p <:+: a) (t : List α) : cut p (a ++ (p ++ t)) = some (a, t) := by
  rw [cut_append ha (hp.separate t), cut_self hp.nonempty, Option.map_some]
  exact congrArg (fun front => some (front, t)) (List.append_nil a)

theorem cut_append_of_some (h : cut p s = some (before, after)) (t : List α) : cut p (s ++ t) = some (before, after ++ t) := by
  obtain ⟨rfl, hFront⟩ := cut_eq_some hp.nonempty h
  rw [List.append_assoc, List.append_assoc]
  exact hp.cut_of_not_infix hFront (after ++ t)

end IsMarker

theorem cutLast_eq_none {p : List α} (hp : p ≠ []) : cutLast p s = none ↔ ¬ p <:+: s := by
  induction s with
  | nil =>
    rw [List.infix_nil]
    exact ⟨fun _ => hp, fun _ => rfl⟩
  | cons c s ih =>
    rw [cutLast, List.infix_cons_iff]
    split
    · next before after hLast =>
      have hInfix : p <:+: s := by
        by_contra hNot
        rw [ih.mpr hNot] at hLast
        cases hLast
      exact ⟨nofun, fun h => absurd (Or.inr hInfix) h⟩
    · next hNone =>
      have hNot := ih.mp hNone
      split
      · next hPrefix => exact ⟨nofun, fun h => absurd (Or.inl hPrefix) h⟩
      · next hPrefix => exact ⟨fun _ => not_or.mpr ⟨hPrefix, hNot⟩, fun _ => rfl⟩

theorem cutLast_eq_some {p : List α} (h : cutLast p s = some (before, after)) : s = before ++ (p ++ after) := by
  induction s generalizing before with
  | nil => cases h
  | cons c s ih =>
    rw [cutLast] at h
    split at h
    · next front rest hLast =>
      cases h
      rw [ih hLast, List.cons_append]
    · next hNone =>
      split at h
      · next hPrefix =>
        obtain ⟨more, hMore⟩ := hPrefix
        cases h
        rw [← hMore, List.drop_left, List.nil_append]
      · cases h

theorem not_infix_of_cutLast {p : List α} (hp : p ≠ []) (h : cutLast p s = some (before, after)) : ¬ p <:+: after := by
  induction s generalizing before with
  | nil => cases h
  | cons c s ih =>
    rw [cutLast] at h
    split at h
    · next front rest hLast =>
      cases h
      exact ih hLast
    · next hNone =>
      split at h
      · cases h
        obtain ⟨d, rest, rfl⟩ := List.exists_cons_of_ne_nil hp
        have hLater : (c :: s).drop (d :: rest).length <:+: s := (List.drop_suffix rest.length s).isInfix
        exact fun hInfix => (cutLast_eq_none hp).mp hNone (hInfix.trans hLater)
      · cases h

theorem cutLast_append_of_some {p t : List α} (h : cutLast p t = some (before, after)) (front : List α) :
    cutLast p (front ++ t) = some (front ++ before, after) := by
  induction front with
  | nil => exact h
  | cons c front ih =>
    rw [List.cons_append, cutLast, ih]
    rfl

theorem IsMarker.cutLast_of_not_infix {p : List α} (hp : IsMarker p) {t : List α} (ht : ¬ p <:+: t) (a : List α) :
    cutLast p (a ++ (p ++ t)) = some (a, t) := by
  have hSelf : cutLast p (p ++ t) = some ([], t) := by
    obtain ⟨c, rest, rfl⟩ := List.exists_cons_of_ne_nil hp.nonempty
    have hInside : ∀ r : List α, c ∉ r → ¬ c :: rest <:+: r ++ t := by
      intro r hr
      induction r with
      | nil => exact ht
      | cons d r ih =>
        obtain ⟨hd, hRest⟩ := not_or.mp (mt List.mem_cons.mpr hr)
        rw [List.cons_append, List.infix_cons_iff]
        refine not_or.mpr ⟨fun hPrefix => ?_, ih hRest⟩
        exact hd (List.cons_prefix_cons.mp hPrefix).1
    have hNone : cutLast (c :: rest) (rest ++ t) = none := (cutLast_eq_none (List.cons_ne_nil c rest)).mpr (hInside rest (hp.head c rfl))
    have hPrefix : c :: rest <+: c :: (rest ++ t) := List.prefix_append (c :: rest) t
    rw [List.cons_append, cutLast, hNone]
    dsimp only
    rw [if_pos hPrefix, ← List.cons_append, List.drop_left]
  rw [cutLast_append_of_some hSelf, List.append_nil]

end

end Library
