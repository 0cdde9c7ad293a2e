import Mathlib.Logic.Relation

/-! # Deterministic event machines and the facts that hold over all their runs

A machine reacts to one event at a time.
-/

namespace Library.Transition

universe u v

structure Machine (σ : Type u) (ε : Type v) where
  initial : σ → Prop
  step : σ → ε → σ

namespace Machine

variable {σ : Type u} {ε : Type v} (m : Machine σ ε)

def run (s : σ) (events : List ε) : σ := events.foldl m.step s

@[simp] theorem run_nil (s : σ) : m.run s [] = s := rfl

@[simp] theorem run_cons (s : σ) (e : ε) (events : List ε) : m.run s (e :: events) = m.run (m.step s e) events := rfl

theorem run_append (s : σ) (first second : List ε) : m.run s (first ++ second) = m.run (m.run s first) second := List.foldl_append

inductive Reachable : σ → Prop
  | start {s : σ} (h : m.initial s) : Reachable s
  | step {s : σ} (h : Reachable s) (e : ε) : Reachable (m.step s e)

variable {m}

variable {s : σ}

theorem Reachable.run (h : m.Reachable s) (events : List ε) : m.Reachable (m.run s events) := by
  induction events generalizing s with
  | nil => exact h
  | cons e events ih => exact ih (h.step e)

theorem Reachable.exists_run (h : m.Reachable s) : ∃ start events, m.initial start ∧ s = m.run start events := by
  induction h with
  | @start s h => exact ⟨s, [], h, rfl⟩
  | step _ e ih =>
    obtain ⟨start, events, hStart, rfl⟩ := ih
    exact ⟨start, events ++ [e], hStart, (m.run_append start events [e]).symm⟩

variable {P : σ → Prop}

theorem Reachable.invariant (hStart : ∀ s, m.initial s → P s) (hStep : ∀ s e, m.Reachable s → P s → P (m.step s e))
    (h : m.Reachable s) : P s := by
  induction h with
  | start h => exact hStart _ h
  | step h e ih => exact hStep _ e h ih

variable (m) in
inductive ReachableWhile (guard : σ → ε → Prop) : σ → Prop
  | start {s : σ} (h : m.initial s) : ReachableWhile guard s
  | step {s : σ} {e : ε} (h : ReachableWhile guard s) (hGuard : guard s e) : ReachableWhile guard (m.step s e)

theorem ReachableWhile.invariant {guard : σ → ε → Prop} (hStart : ∀ s, m.initial s → P s)
    (hStep : ∀ s e, P s → guard s e → P (m.step s e)) (h : m.ReachableWhile guard s) : P s := by
  induction h with
  | start h => exact hStart _ h
  | step _ hGuard ih => exact hStep _ _ ih hGuard

variable (m) in
def meets (guard : σ → ε → Bool) : σ → List ε → Bool
  | _, [] => true
  | s, e :: events => guard s e && meets guard (m.step s e) events

theorem meets_append (guard : σ → ε → Bool) (s : σ) (first second : List ε) :
    m.meets guard s (first ++ second) = (m.meets guard s first && m.meets guard (m.run s first) second) := by
  induction first generalizing s with
  | nil => rfl
  | cons e first ih => rw [List.cons_append, meets, meets, ih, run_cons, Bool.and_assoc]

theorem ReachableWhile.run {guard : σ → ε → Bool} (h : m.ReachableWhile (fun s e => guard s e = true) s) {events : List ε}
    (hMeets : m.meets guard s events = true) : m.ReachableWhile (fun s e => guard s e = true) (m.run s events) := by
  induction events generalizing s with
  | nil => exact h
  | cons e events ih =>
    rw [meets, Bool.and_eq_true] at hMeets
    exact ih (h.step hMeets.1) hMeets.2

theorem Reachable.always_iff_meets {guard : σ → ε → Bool}
    (hStep : ∀ s e, m.Reachable s → P s → (P (m.step s e) ↔ guard s e = true)) (h : m.Reachable s) (hStart : P s)
    (events : List ε) : (∀ taken rest, events = taken ++ rest → P (m.run s taken)) ↔ m.meets guard s events = true := by
  induction events generalizing s with
  | nil =>
    constructor
    · intro _
      rfl
    · rintro - taken rest hSplit
      rw [(List.append_eq_nil_iff.mp hSplit.symm).1]
      exact hStart
  | cons e events ih =>
    rw [meets, Bool.and_eq_true]
    constructor
    · intro hAlways
      have hNext : P (m.step s e) := hAlways [e] events rfl
      refine ⟨(hStep s e h hStart).mp hNext, (ih (h.step e) hNext).mp ?_⟩
      rintro taken rest rfl
      exact hAlways (e :: taken) rest rfl
    · rintro ⟨hGuard, hMeets⟩ taken rest hSplit
      cases taken with
      | nil => exact hStart
      | cons first taken =>
        obtain ⟨rfl, hRest⟩ := List.cons.inj hSplit
        exact (ih (h.step e) ((hStep s e h hStart).mpr hGuard)).mpr hMeets taken rest hRest

theorem Reachable.related {R : σ → σ → Prop} (hRefl : ∀ s, R s s) (hTrans : ∀ a b c, R a b → R b c → R a c)
    (hStep : ∀ s e, m.Reachable s → R s (m.step s e)) (h : m.Reachable s) (events : List ε) : R s (m.run s events) := by
  induction events generalizing s with
  | nil => exact hRefl s
  | cons e events ih => exact hTrans _ _ _ (hStep s e h) (ih (h.step e))

end Machine

end Library.Transition
