import Mathlib.Data.List.Nodup

/-! # The order in which things were last used

`before x y` says that the last known use of `x` is older than that of `y`.
-/

namespace Library

abbrev UsageOrder (α : Type) := α → α → Prop

namespace UsageOrder

variable {α : Type}

def used (before : UsageOrder α) (c : α) : UsageOrder α := fun x y => x ≠ c ∧ (y = c ∨ before x y)

def reported (before : UsageOrder α) (report : List α) : UsageOrder α := fun x y =>
  (x ∈ report ∧ y ∈ report ∧ [x, y].Sublist report) ∨ (¬ (x ∈ report ∧ y ∈ report) ∧ before x y)

def Sorted (before : UsageOrder α) (l : List α) : Prop := l.Pairwise fun earlier later => ¬ before later earlier

variable {before : UsageOrder α}

theorem Sorted.singleton (c : α) : Sorted before [c] := List.pairwise_singleton _ c

theorem Sorted.cons_used {c x : α} {l : List α} (h : Sorted (before.used c) (c :: l)) (hx : x ∈ l) : x = c := by
  by_contra hOther
  exact List.rel_of_pairwise_cons h hx ⟨hOther, Or.inl rfl⟩

theorem reported_of_not_mem {report : List α} {x y : α} (h : ¬ (x ∈ report ∧ y ∈ report)) : before.reported report x y ↔ before x y := by
  constructor
  · rintro (⟨hx, hy, -⟩ | ⟨-, hBefore⟩)
    · exact absurd ⟨hx, hy⟩ h
    · exact hBefore
  · intro hBefore
    exact Or.inr ⟨h, hBefore⟩

theorem not_sublist_swap {l : List α} (hNodup : l.Nodup) {x y : α} (h : [x, y].Sublist l) : ¬ [y, x].Sublist l := by
  intro hSwap
  induction l with
  | nil => cases h
  | cons z l ih =>
    have hTail := (List.nodup_cons.mp hNodup).2
    have hFresh := (List.nodup_cons.mp hNodup).1
    cases h with
    | cons _ hLeft =>
      cases hSwap with
      | cons _ hRight => exact ih hTail hLeft hRight
      | cons_cons _ hRight => exact hFresh (hLeft.subset (List.mem_cons_of_mem _ List.mem_cons_self))
    | cons_cons _ hLeft =>
      cases hSwap with
      | cons _ hRight => exact hFresh (hRight.subset (List.mem_cons_of_mem _ List.mem_cons_self))
      | cons_cons _ hRight => exact hFresh (hLeft.subset List.mem_cons_self)

theorem Sorted.reported_self {report : List α} (hNodup : report.Nodup) : Sorted (before.reported report) report := by
  refine List.pairwise_iff_forall_sublist.mpr fun hPair => ?_
  rintro (⟨-, -, hSwap⟩ | ⟨hOutside, -⟩)
  · exact not_sublist_swap hNodup hPair hSwap
  · exact hOutside ⟨hPair.subset (List.mem_cons_of_mem _ List.mem_cons_self), hPair.subset List.mem_cons_self⟩

theorem sorted_reported_append_iff {report l : List α} (hNodup : report.Nodup) (hDisjoint : ∀ x ∈ l, x ∉ report) :
    Sorted (before.reported report) (report ++ l) ↔ Sorted before l ∧ ∀ x ∈ l, ∀ y ∈ report, ¬ before x y := by
  have hInside : Sorted (before.reported report) l ↔ Sorted before l := by
    apply List.Pairwise.iff_of_mem
    intro x y hx _
    exact not_congr (reported_of_not_mem fun hBoth => hDisjoint x hx hBoth.2)
  have hAcross : (∀ y ∈ report, ∀ x ∈ l, ¬ before.reported report x y) ↔ ∀ x ∈ l, ∀ y ∈ report, ¬ before x y := by
    constructor
    · intro h x hx y hy hBefore
      exact h y hy x hx ((reported_of_not_mem fun hBoth => hDisjoint x hx hBoth.1).mpr hBefore)
    · intro h y hy x hx hReported
      exact h x hx y hy ((reported_of_not_mem fun hBoth => hDisjoint x hx hBoth.1).mp hReported)
  unfold Sorted at *
  rw [List.pairwise_append, hInside, hAcross]
  constructor
  · rintro ⟨-, hSorted, hCross⟩
    exact ⟨hSorted, hCross⟩
  · rintro ⟨hSorted, hCross⟩
    exact ⟨Sorted.reported_self hNodup, hSorted, hCross⟩

end UsageOrder

end Library
