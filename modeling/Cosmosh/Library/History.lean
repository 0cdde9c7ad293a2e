import Mathlib.Data.List.Basic

/-! # Laws about what precedes an entry of a growing history

A law relates an entry to everything recorded before it.
-/

namespace Library.History

universe u v

variable {α : Type u} {β : Type v}

def Causal (law : List α → α → Prop) (history : List α) : Prop := ∀ before e after, history = before ++ e :: after → law before e

theorem causal_nil (law : List α → α → Prop) : Causal law [] := by
  intro before e after h
  exact absurd h.symm (by simp)

theorem Causal.concat {law : List α → α → Prop} {history : List α} {e : α}
    (h : Causal law history) (hNew : law history e) : Causal law (history ++ [e]) := by
  intro before x after hSplit
  rcases List.eq_nil_or_concat after with rfl | ⟨rest, last, rfl⟩
  · obtain ⟨rfl, hEq⟩ := List.append_inj' hSplit rfl
    obtain rfl : e = x := by simpa using hEq
    exact hNew
  · apply h before x rest
    have hSplit' : history ++ [e] = (before ++ x :: rest) ++ [last] := by
      rw [hSplit]
      simp
    exact (List.append_inj' hSplit' rfl).1

theorem Causal.of_filterMap {law : List β → β → Prop} {mark : α → Option β} {history : List α} (h : Causal law (history.filterMap mark)) :
    Causal (fun before e => ∀ m, mark e = some m → law (before.filterMap mark) m) history := by
  intro before e after hSplit m hMark
  apply h (before.filterMap mark) m (after.filterMap mark)
  rw [hSplit, List.filterMap_append, List.filterMap_cons_some hMark]

theorem mem_filterMap_of_mem {mark : α → Option β} {history : List α} {e : α} {m : β}
    (h : e ∈ history) (hMark : mark e = some m) : m ∈ history.filterMap mark := List.mem_filterMap.mpr ⟨e, h, hMark⟩

theorem eq_of_concat_eq_split {l before after : List α} {e : α} (h : l ++ [e] = before ++ e :: after)
    (hFresh : e ∉ l) : before = l ∧ after = [] := by
  rcases List.eq_nil_or_concat after with rfl | ⟨rest, last, rfl⟩
  · exact ⟨(List.append_inj' h rfl).1.symm, rfl⟩
  · have hSplit : l ++ [e] = (before ++ e :: rest) ++ [last] := by
      rw [h]
      simp
    have hMem : e ∈ l := by
      rw [(List.append_inj' hSplit rfl).1]
      exact List.mem_append_right _ List.mem_cons_self
    exact absurd hMem hFresh

theorem mem_of_isPrefix_range {numbers : List Nat} {bound i j : Nat} (h : numbers <+: List.range bound)
    (hj : j ∈ numbers) (hLe : i ≤ j) : i ∈ numbers := by
  rw [List.prefix_iff_eq_take, List.take_range] at h
  rw [h, List.mem_range] at hj ⊢
  omega

end Library.History
