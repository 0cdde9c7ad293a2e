import Mathlib.Data.List.Pairwise
import Mathlib.Logic.Relation
import Cosmosh.Library.History

/-! # Admission control over a waiting line

Tickets wait in arrival order and are admitted to a set of holders.
-/

namespace Library.Admission

universe u

structure CapacityClass (τ : Type u) where
  member : τ → Bool
  limit : Nat
  limit_pos : 0 < limit

structure Policy (τ : Type u) where
  /-- Arrival number of a ticket. -/
  arrival : τ → Nat
  conflicts : τ → τ → Prop
  conflicts_symm : ∀ {a b}, conflicts a b → conflicts b a
  exclusive : τ → Prop
  classes : List (CapacityClass τ)

inductive Mark (τ : Type u)
  | arrived (t : τ)
  | entered (t : τ)
  | left (t : τ)

structure Board (τ : Type u) where
  waiting : List τ
  holding : List τ
  history : List (Mark τ)

namespace Policy

open History

variable {τ : Type u} (p : Policy τ)

def Ordered (a b : τ) : Prop := p.conflicts a b ∨ p.exclusive a ∨ p.exclusive b

inductive Admissible (ahead holding : List τ) (t : τ) : Prop
  | alone (hExclusive : p.exclusive t) (hAhead : ahead = []) (hHolding : holding = [])
  | shared (hExclusive : ¬ p.exclusive t)
      (hAhead : ∀ u ∈ ahead, ¬ p.exclusive u ∧ ¬ p.conflicts t u)
      (hHolding : ∀ u ∈ holding, ¬ p.exclusive u ∧ ¬ p.conflicts t u)
      (hCapacity : ∀ c ∈ p.classes, c.member t = true → holding.countP c.member < c.limit)

inductive Move : Board τ → Board τ → Prop
  | arrive (waiting holding : List τ) (history : List (Mark τ)) (t : τ)
      (hNew : ∀ u, .arrived u ∈ history → p.arrival u < p.arrival t) :
      Move ⟨waiting, holding, history⟩ ⟨waiting ++ [t], holding, history ++ [.arrived t]⟩
  | withdraw (ahead behind holding : List τ) (history : List (Mark τ)) (t : τ) :
      Move ⟨ahead ++ t :: behind, holding, history⟩ ⟨ahead ++ behind, holding, history ++ [.left t]⟩
  | enter (ahead behind holding : List τ) (history : List (Mark τ)) (t : τ)
      (hAdmissible : p.Admissible ahead holding t) :
      Move ⟨ahead ++ t :: behind, holding, history⟩
        ⟨ahead ++ behind, holding ++ [t], history ++ [.entered t]⟩
  | release (before after waiting : List τ) (history : List (Mark τ)) (t : τ) :
      Move ⟨waiting, before ++ t :: after, history⟩ ⟨waiting, before ++ after, history ++ [.left t]⟩

def Moves : Board τ → Board τ → Prop := Relation.ReflTransGen p.Move

structure Safe (b : Board τ) : Prop where
  capacity : ∀ c ∈ p.classes, b.holding.countP c.member ≤ c.limit
  disjoint : b.holding.Pairwise (fun a b => ¬ p.conflicts a b)
  alone : ∀ t ∈ b.holding, p.exclusive t → b.holding = [t]

def Lawful (before : List (Mark τ)) : Mark τ → Prop
  | .entered t => ∀ u, .arrived u ∈ before → p.Ordered u t →
      (p.arrival u < p.arrival t → .left u ∈ before) ∧
        (p.arrival t < p.arrival u → .entered u ∉ before)
  | _ => True

structure Fair (b : Board τ) : Prop where
  sorted : b.waiting.Pairwise (fun a b => p.arrival a < p.arrival b)
  waiting_arrived : ∀ t ∈ b.waiting, .arrived t ∈ b.history
  entered_arrived : ∀ t, .entered t ∈ b.history → .arrived t ∈ b.history
  present : ∀ t, .arrived t ∈ b.history → t ∈ b.waiting ∨ t ∈ b.holding ∨ .left t ∈ b.history
  waiting : ∀ j, .entered j ∈ b.history → ∀ i ∈ b.waiting, p.arrival i < p.arrival j → ¬ p.Ordered i j
  lawful : Causal p.Lawful b.history

variable {p}

theorem Ordered.symm {a b : τ} (h : p.Ordered a b) : p.Ordered b a := by
  rcases h with h | h | h
  · exact .inl (p.conflicts_symm h)
  · exact .inr (.inr h)
  · exact .inr (.inl h)

variable {b b' : Board τ}

theorem Safe.congr_holding (h : p.Safe b) (hHolding : b'.holding = b.holding) : p.Safe b' := by
  obtain ⟨hCapacity, hDisjoint, hAlone⟩ := h
  exact ⟨by rwa [hHolding], by rwa [hHolding], by rwa [hHolding]⟩

variable {ahead holding : List τ} {t : τ}

theorem Safe.enter (h : p.Safe b) (hHolding : b.holding = holding) (hAdmissible : p.Admissible ahead holding t)
    (hHolding' : b'.holding = holding ++ [t]) : p.Safe b' := by
  subst hHolding
  obtain ⟨hCapacity, hDisjoint, hAlone⟩ := h
  cases hAdmissible with
  | alone hExclusive _ hEmpty =>
    have hSingle : b'.holding = [t] := by rw [hHolding', hEmpty, List.nil_append]
    refine ⟨?_, ?_, ?_⟩
    · intro c _
      rw [hSingle]
      exact Nat.le_trans List.countP_le_length c.limit_pos
    · rw [hSingle]
      exact List.pairwise_singleton _ _
    · intro u hu _
      rw [hSingle, List.mem_singleton] at hu
      rw [hSingle, hu]
  | shared hExclusive _ hFree hRoom =>
    refine ⟨?_, ?_, ?_⟩
    · intro c hc
      rw [hHolding', List.countP_append, List.countP_singleton]
      split
      · exact hRoom c hc ‹_›
      · exact hCapacity c hc
    · rw [hHolding', List.pairwise_append]
      refine ⟨hDisjoint, List.pairwise_singleton _ _, ?_⟩
      intro a ha u hu
      rw [List.mem_singleton] at hu
      subst hu
      exact fun hConflict => (hFree a ha).2 (p.conflicts_symm hConflict)
    · intro u hu hu'
      rw [hHolding', List.mem_append, List.mem_singleton] at hu
      rcases hu with hu | rfl
      · exact absurd hu' (hFree u hu).1
      · exact absurd hu' hExclusive

theorem Safe.release {before after : List τ} (h : p.Safe b) (hHolding : b.holding = before ++ t :: after)
    (hHolding' : b'.holding = before ++ after) : p.Safe b' := by
  obtain ⟨hCapacity, hDisjoint, hAlone⟩ := h
  have hSublist : (before ++ after).Sublist b.holding := by
    rw [hHolding]
    exact (List.sublist_cons_self t after).append_left before
  refine ⟨?_, ?_, ?_⟩
  · intro c hc
    rw [hHolding']
    exact Nat.le_trans hSublist.countP_le (hCapacity c hc)
  · rw [hHolding']
    exact hDisjoint.sublist hSublist
  · intro u hu hExclusive
    rw [hHolding'] at hu
    have hSingle := hAlone u (hSublist.subset hu) hExclusive
    have hLength := congrArg List.length (hHolding.symm.trans hSingle)
    simp only [List.length_append, List.length_cons, List.length_nil] at hLength
    have hNonempty : 0 < (before ++ after).length := List.length_pos_of_mem hu
    rw [List.length_append] at hNonempty
    omega

theorem Safe.move (h : p.Safe b) (hMove : p.Move b b') : p.Safe b' := by
  cases hMove with
  | arrive => exact h.congr_holding rfl
  | withdraw => exact h.congr_holding rfl
  | enter _ _ _ _ _ hAdmissible => exact h.enter rfl hAdmissible rfl
  | release => exact h.release rfl rfl

theorem Safe.moves (h : p.Safe b) (hMoves : p.Moves b b') : p.Safe b' := by
  induction hMoves with
  | refl => exact h
  | tail _ hMove ih => exact ih.move hMove

theorem Admissible.not_ordered_ahead {u : τ} (h : p.Admissible ahead holding t) (hu : u ∈ ahead) : ¬ p.Ordered u t := by
  cases h with
  | alone _ hAhead _ =>
    rw [hAhead] at hu
    cases hu
  | shared hExclusive hAhead _ _ =>
    rintro (hConflict | hOlder | hYounger)
    · exact (hAhead u hu).2 (p.conflicts_symm hConflict)
    · exact (hAhead u hu).1 hOlder
    · exact hExclusive hYounger

theorem Admissible.not_ordered_holding {u : τ} (h : p.Admissible ahead holding t) (hu : u ∈ holding) : ¬ p.Ordered u t := by
  cases h with
  | alone _ _ hHolding =>
    rw [hHolding] at hu
    cases hu
  | shared hExclusive _ hHolding _ =>
    rintro (hConflict | hOlder | hYounger)
    · exact (hHolding u hu).2 (p.conflicts_symm hConflict)
    · exact (hHolding u hu).1 hOlder
    · exact hExclusive hYounger

variable {history : List (Mark τ)}

theorem Fair.arrive {waiting : List τ} (h : p.Fair ⟨waiting, holding, history⟩) (hNew : ∀ u, .arrived u ∈ history → p.arrival u < p.arrival t) :
    p.Fair ⟨waiting ++ [t], holding, history ++ [.arrived t]⟩ := by
  obtain ⟨hSorted, hWaitingArrived, hEnteredArrived, hPresent, hWaiting, hLawful⟩ := h
  refine ⟨?_, ?_, ?_, ?_, ?_, hLawful.concat trivial⟩
  · rw [List.pairwise_append]
    refine ⟨hSorted, List.pairwise_singleton _ _, ?_⟩
    intro a ha u hu
    rw [List.mem_singleton] at hu
    exact hu ▸ hNew a (hWaitingArrived a ha)
  · intro u hu
    rcases List.mem_append.mp hu with hu | hu
    · exact List.mem_append_left _ (hWaitingArrived u hu)
    · exact List.mem_append_right _ (by simpa using hu)
  · intro u hu
    exact List.mem_append_left _ (hEnteredArrived u (by simpa using hu))
  · intro u hu
    rcases List.mem_append.mp hu with hu | hu
    · rcases hPresent u hu with h | h | h
      · exact .inl (List.mem_append_left _ h)
      · exact .inr (.inl h)
      · exact .inr (.inr (List.mem_append_left _ h))
    · exact .inl (List.mem_append_right _ (by simpa using hu))
  · intro j hj i hi hOlder
    have hEntered : Mark.entered j ∈ history := by simpa using hj
    rcases List.mem_append.mp hi with hi | hi
    · exact hWaiting j hEntered i hi hOlder
    · have hYounger := hNew j (hEnteredArrived j hEntered)
      rw [List.mem_singleton] at hi
      subst hi
      omega

theorem Fair.leave {waiting waiting' holding' : List τ} (h : p.Fair ⟨waiting, holding, history⟩)
    (hSublist : waiting'.Sublist waiting) (hWaitingLeft : ∀ u ∈ waiting, u ∈ waiting' ∨ u = t)
    (hHoldingLeft : ∀ u ∈ holding, u ∈ holding' ∨ u = t) : p.Fair ⟨waiting', holding', history ++ [.left t]⟩ := by
  obtain ⟨hSorted, hWaitingArrived, hEnteredArrived, hPresent, hWaiting, hLawful⟩ := h
  refine ⟨hSorted.sublist hSublist, ?_, ?_, ?_, ?_, hLawful.concat trivial⟩
  · exact fun u hu => List.mem_append_left _ (hWaitingArrived u (hSublist.subset hu))
  · intro u hu
    exact List.mem_append_left _ (hEnteredArrived u (by simpa using hu))
  · intro u hu
    have hLeft : Mark.left t ∈ history ++ [Mark.left t] := by simp
    rcases hPresent u (by simpa using hu) with h | h | h
    · rcases hWaitingLeft u h with h | rfl
      · exact .inl h
      · exact .inr (.inr hLeft)
    · rcases hHoldingLeft u h with h | rfl
      · exact .inr (.inl h)
      · exact .inr (.inr hLeft)
    · exact .inr (.inr (List.mem_append_left _ h))
  · intro j hj i hi
    exact hWaiting j (by simpa using hj) i (hSublist.subset hi)

theorem Fair.lawful_entered {behind : List τ} (h : p.Fair ⟨ahead ++ t :: behind, holding, history⟩)
    (hAdmissible : p.Admissible ahead holding t) : p.Lawful history (.entered t) := by
  intro u hu hOrdered
  constructor
  · intro hOlder
    rcases h.present u hu with hWaiting | hHolding | hLeft
    · rcases List.mem_append.mp hWaiting with hAhead | hBehind
      · exact absurd hOrdered (hAdmissible.not_ordered_ahead hAhead)
      · have hTail := (List.pairwise_append.mp h.sorted).2.1
        rcases List.mem_cons.mp hBehind with rfl | hBehind
        · omega
        · have hYounger := (List.pairwise_cons.mp hTail).1 u hBehind
          omega
    · exact absurd hOrdered (hAdmissible.not_ordered_holding hHolding)
    · exact hLeft
  · intro hYounger hEntered
    have hMem : t ∈ ahead ++ t :: behind := List.mem_append_right _ List.mem_cons_self
    exact h.waiting u hEntered t hMem hYounger hOrdered.symm

theorem Fair.enter {behind : List τ} (h : p.Fair ⟨ahead ++ t :: behind, holding, history⟩) (hAdmissible : p.Admissible ahead holding t) :
    p.Fair ⟨ahead ++ behind, holding ++ [t], history ++ [.entered t]⟩ := by
  have hEntered := h.lawful_entered hAdmissible
  obtain ⟨hSorted, hWaitingArrived, hEnteredArrived, hPresent, hWaiting, hLawful⟩ := h
  have hSublist : (ahead ++ behind).Sublist (ahead ++ t :: behind) := (List.sublist_cons_self t behind).append_left ahead
  have hMem : t ∈ ahead ++ t :: behind := List.mem_append_right _ List.mem_cons_self
  refine ⟨hSorted.sublist hSublist, ?_, ?_, ?_, ?_, hLawful.concat hEntered⟩
  · exact fun u hu => List.mem_append_left _ (hWaitingArrived u (hSublist.subset hu))
  · intro u hu
    rcases List.mem_append.mp hu with hu | hu
    · exact List.mem_append_left _ (hEnteredArrived u hu)
    · obtain rfl : u = t := by simpa using hu
      exact List.mem_append_left _ (hWaitingArrived u hMem)
  · intro u hu
    rcases hPresent u (by simpa using hu) with h | h | h
    · rcases List.mem_append.mp h with h | h
      · exact .inl (List.mem_append_left _ h)
      · rcases List.mem_cons.mp h with rfl | h
        · exact .inr (.inl (List.mem_append_right _ List.mem_cons_self))
        · exact .inl (List.mem_append_right _ h)
    · exact .inr (.inl (List.mem_append_left _ h))
    · exact .inr (.inr (List.mem_append_left _ h))
  · intro j hj i hi hOlder
    rcases List.mem_append.mp hj with hj | hj
    · exact hWaiting j hj i (hSublist.subset hi) hOlder
    · obtain rfl : j = t := by simpa using hj
      rcases List.mem_append.mp hi with hAhead | hBehind
      · exact hAdmissible.not_ordered_ahead hAhead
      · have hYounger := (List.pairwise_cons.mp (List.pairwise_append.mp hSorted).2.1).1 i hBehind
        omega

theorem mem_or_eq_of_mem_split {before after : List τ} {u : τ} (h : u ∈ before ++ t :: after) : u ∈ before ++ after ∨ u = t := by
  simp only [List.mem_append, List.mem_cons] at h ⊢
  rcases h with h | rfl | h
  · exact .inl (.inl h)
  · exact .inr rfl
  · exact .inl (.inr h)

theorem Fair.move (h : p.Fair b) (hMove : p.Move b b') : p.Fair b' := by
  cases hMove with
  | arrive waiting holding history t hNew => exact h.arrive hNew
  | withdraw ahead behind holding history t =>
    exact h.leave ((List.sublist_cons_self t behind).append_left ahead)
      (fun u hu => mem_or_eq_of_mem_split hu) (fun u hu => .inl hu)
  | enter ahead behind holding history t hAdmissible => exact h.enter hAdmissible
  | release before after waiting history t =>
    exact h.leave (List.Sublist.refl _) (fun u hu => .inl hu) (fun u hu => mem_or_eq_of_mem_split hu)

theorem Fair.moves (h : p.Fair b) (hMoves : p.Moves b b') : p.Fair b' := by
  induction hMoves with
  | refl => exact h
  | tail _ hMove ih => exact ih.move hMove

theorem safe_empty (waiting : List τ) (history : List (Mark τ)) : p.Safe ⟨waiting, [], history⟩ :=
  ⟨fun c _ => Nat.zero_le c.limit, List.Pairwise.nil, fun _ ht => absurd ht List.not_mem_nil⟩

theorem fair_empty : p.Fair ⟨[], [], []⟩ :=
  ⟨List.Pairwise.nil, fun _ ht => absurd ht List.not_mem_nil, fun _ ht => absurd ht List.not_mem_nil,
    fun _ ht => absurd ht List.not_mem_nil, fun _ ht => absurd ht List.not_mem_nil, causal_nil _⟩

end Policy

end Library.Admission
