import Mathlib.Data.List.Infix

/-! # Joining two lists on an overlap

Among the lists with a given beginning and a given end, the shortest is the one that writes
the longest overlap of the two only once.
-/

namespace Library

variable {α : Type} {front back joined : List α} {n : Nat}

/-- The first `n` elements of one list are the last of the other. -/
def Overlaps (front back : List α) (n : Nat) : Prop := n ≤ back.length ∧ back.take n <:+ front

structure LongestOverlap (front back : List α) (n : Nat) : Prop where
  overlaps : Overlaps front back n
  longest : ∀ k, Overlaps front back k → k ≤ n

theorem overlaps_zero (front back : List α) : Overlaps front back 0 := ⟨Nat.zero_le _, List.nil_suffix⟩

theorem Overlaps.le_front (h : Overlaps front back n) : n ≤ front.length := by
  have hLength := h.2.length_le
  rw [List.length_take, Nat.min_eq_left h.1] at hLength
  exact hLength

theorem Overlaps.suffix (h : Overlaps front back n) : back <:+ front ++ back.drop n := by
  obtain ⟨before, hFront⟩ := h.2
  refine ⟨before, ?_⟩
  rw [← hFront, List.append_assoc, List.take_append_drop]

theorem overlaps_of_joined (hFront : front <+: joined) (hBack : back <:+ joined)
    (hShort : joined.length ≤ front.length + back.length) : ∃ n, Overlaps front back n ∧ joined = front ++ back.drop n := by
  obtain ⟨after, rfl⟩ := hFront
  obtain ⟨before, hJoined⟩ := hBack
  obtain ⟨common, rfl, rfl⟩ | ⟨common, rfl, rfl⟩ := List.append_eq_append_iff.mp hJoined
  · refine ⟨common.length, ⟨by simp, ?_⟩, by simp⟩
    rw [List.take_left]
    exact List.suffix_append before common
  · have hNone : common = [] := by
      simp only [List.length_append] at hShort
      exact List.length_eq_zero_iff.mp (by omega)
    subst hNone
    exact ⟨0, overlaps_zero _ _, by simp⟩

theorem LongestOverlap.shortest (h : LongestOverlap front back n) (hFront : front <+: joined) (hBack : back <:+ joined) :
    (front ++ back.drop n).length ≤ joined.length ∧ (joined.length = (front ++ back.drop n).length → joined = front ++ back.drop n) := by
  have hBound := h.overlaps.1
  by_cases hShort : joined.length ≤ front.length + back.length
  · obtain ⟨k, hOverlaps, rfl⟩ := overlaps_of_joined hFront hBack hShort
    have hLess := h.longest k hOverlaps
    have hWithin := hOverlaps.1
    simp only [List.length_append, List.length_drop]
    constructor
    · omega
    · intro hSame
      have hEqual : k = n := by omega
      rw [hEqual]
  · simp only [List.length_append, List.length_drop]
    constructor
    · omega
    · intro hSame
      omega

end Library
