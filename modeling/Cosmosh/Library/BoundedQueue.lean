/-! # Queues that lose their oldest entries

What waits in a queue and what arrives is lost, taken out or waits on, in this order.
-/

namespace Library.BoundedQueue

universe u

variable {α : Type u}

structure Passes (exceeds : List α → Prop) (waiting arrived lost taken left : List α) : Prop where
  ordered : waiting ++ arrived = lost ++ (taken ++ left)
  needed : ∀ n < lost.length, exceeds ((waiting ++ arrived).drop n)

variable {exceeds : List α → Prop} {waiting arrived lost taken left : List α}

theorem Passes.idle : Passes exceeds waiting [] [] [] waiting where
  ordered := by simp
  needed := by simp

theorem Passes.through : Passes exceeds [] arrived [] arrived [] where
  ordered := by simp
  needed := by simp

theorem Passes.take (h : waiting = taken ++ left) : Passes exceeds waiting [] [] taken left where
  ordered := by simp [h]
  needed := by simp

theorem Passes.sublist {before history : List α} (h : Passes exceeds waiting arrived lost taken left)
    (hHistory : (before ++ waiting).Sublist history) : (before ++ taken ++ left).Sublist (history ++ arrived) := by
  have hAll : (before ++ (lost ++ (taken ++ left))).Sublist (history ++ arrived) := by
    rw [← h.ordered, ← List.append_assoc]
    exact hHistory.append (List.Sublist.refl arrived)
  have hKept : (before ++ (taken ++ left)).Sublist (before ++ (lost ++ (taken ++ left))) :=
    (List.Sublist.refl before).append (List.sublist_append_right lost _)
  rw [List.append_assoc]
  exact hKept.trans hAll

end Library.BoundedQueue
