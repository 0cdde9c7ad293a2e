import Mathlib.Data.List.Nodup
import Mathlib.Logic.Function.Basic

/-! # Writes that are resumed

Files are written in a fixed order, each from what it held before.
-/

namespace Library

abbrev Files (φ β : Type) := φ → Option β

structure Rewriting (φ β : Type) where
  order : List φ
  nodup : order.Nodup
  next : φ → Option β → β
  isCurrent : φ → Option β → Bool
  current_next : ∀ f old, isCurrent f (some (next f old)) = true

namespace Rewriting

variable {φ β : Type} [DecidableEq φ] (m : Rewriting φ β)

def write (s : Files φ β) (f : φ) : Files φ β := Function.update s f (some (m.next f (s f)))

def writeAll (files : List φ) (s : Files φ β) : Files φ β := files.foldl m.write s

def upToDate (s : Files φ β) : Bool := m.order.all fun f => m.isCurrent f (s f)

def run (limit : Nat) (s : Files φ β) : Files φ β := if m.upToDate s = true then s else m.writeAll (m.order.take limit) s

def runAll (s : Files φ β) : Files φ β := if m.upToDate s = true then s else m.writeAll m.order s

theorem writeAll_apply {files : List φ} (h : files.Nodup) (s : Files φ β) (f : φ) :
    m.writeAll files s f = if f ∈ files then some (m.next f (s f)) else s f := by
  induction files generalizing s with
  | nil => rfl
  | cons g files ih =>
    obtain ⟨hg, hFiles⟩ := List.nodup_cons.mp h
    have hStep : m.writeAll (g :: files) s f = m.writeAll files (m.write s g) f := rfl
    rw [hStep, ih hFiles, write]
    by_cases hSame : f = g
    · subst hSame
      rw [if_neg hg, if_pos List.mem_cons_self, Function.update_self]
    · simp only [List.mem_cons, hSame, false_or, Function.update_of_ne, ne_eq, not_false_eq_true]

omit [DecidableEq φ] in
theorem upToDate_iff (s : Files φ β) : m.upToDate s = true ↔ ∀ f ∈ m.order, m.isCurrent f (s f) = true := List.all_eq_true

theorem upToDate_runAll (s : Files φ β) : m.upToDate (m.runAll s) = true := by
  rw [runAll]
  split
  · assumption
  · rw [upToDate_iff]
    intro f hf
    rw [m.writeAll_apply m.nodup, if_pos hf]
    exact m.current_next f (s f)

theorem run_of_le {limit : Nat} (h : m.order.length ≤ limit) (s : Files φ β) : m.run limit s = m.runAll s := by
  rw [run, runAll, List.take_of_length_le h]

section

variable {done rest : List φ} (hOrder : m.order = done ++ rest)

include hOrder

theorem upToDate_writeAll_iff (s : Files φ β) : m.upToDate (m.writeAll done s) = true ↔ ∀ f ∈ rest, m.isCurrent f (s f) = true := by
  have hNodup := m.nodup
  rw [hOrder] at hNodup
  obtain ⟨hDone, -, hApart⟩ := List.nodup_append.mp hNodup
  have hRest : ∀ f ∈ rest, f ∉ done := fun f hf hMem => hApart f hMem f hf rfl
  rw [upToDate_iff, hOrder, List.forall_mem_append]
  constructor
  · rintro ⟨-, hLeft⟩ f hf
    have hCurrent := hLeft f hf
    rwa [m.writeAll_apply hDone, if_neg (hRest f hf)] at hCurrent
  · intro hLeft
    constructor
    · intro f hf
      rw [m.writeAll_apply hDone, if_pos hf]
      exact m.current_next f (s f)
    · intro f hf
      rw [m.writeAll_apply hDone, if_neg (hRest f hf)]
      exact hLeft f hf

theorem runAll_writeAll_iff (s : Files φ β) : m.runAll (m.writeAll done s) = m.writeAll m.order s ↔
      if ∀ f ∈ rest, m.isCurrent f (s f) = true then ∀ f ∈ rest, s f = some (m.next f (s f))
      else ∀ f ∈ done, m.next f (some (m.next f (s f))) = m.next f (s f) := by
  have hNodup := m.nodup
  rw [hOrder] at hNodup
  obtain ⟨hDone, hRestNodup, hApart⟩ := List.nodup_append.mp hNodup
  have hRest : ∀ f ∈ rest, f ∉ done := fun f hf hMem => hApart f hMem f hf rfl
  have hDate := m.upToDate_writeAll_iff hOrder s
  rw [funext_iff]
  split
  · next hCurrent =>
    rw [runAll, if_pos (hDate.mpr hCurrent)]
    constructor
    · intro hSame f hf
      have hFile := hSame f
      rwa [m.writeAll_apply hDone, m.writeAll_apply m.nodup, if_neg (hRest f hf), hOrder, if_pos (List.mem_append_right done hf)] at hFile
    · intro hFixed f
      rw [m.writeAll_apply hDone, m.writeAll_apply m.nodup, hOrder]
      by_cases hf : f ∈ done
      · rw [if_pos hf, if_pos (List.mem_append_left rest hf)]
      · by_cases hf' : f ∈ rest
        · rw [if_neg hf, if_pos (List.mem_append_right done hf'), ← hFixed f hf']
        · rw [if_neg hf, if_neg (by simp [hf, hf'])]
  · next hCurrent =>
    rw [runAll, if_neg (mt hDate.mp hCurrent)]
    constructor
    · intro hSame f hf
      have hFile := hSame f
      rw [m.writeAll_apply m.nodup, m.writeAll_apply m.nodup, m.writeAll_apply hDone, hOrder, if_pos (List.mem_append_left rest hf),
        if_pos (List.mem_append_left rest hf), if_pos hf] at hFile
      exact Option.some.inj hFile
    · intro hStable f
      rw [m.writeAll_apply m.nodup, m.writeAll_apply m.nodup, m.writeAll_apply hDone]
      by_cases hf : f ∈ done
      · have hMem : f ∈ m.order := hOrder ▸ List.mem_append_left rest hf
        rw [if_pos hf, if_pos hMem, if_pos hMem, hStable f hf]
      · rw [if_neg hf]

end

theorem resumes_iff (s : Files φ β) : (∀ limit, m.runAll (m.run limit s) = m.runAll s) ↔
      m.upToDate s = true ∨ ∀ done rest, m.order = done ++ rest →
        if ∀ f ∈ rest, m.isCurrent f (s f) = true then ∀ f ∈ rest, s f = some (m.next f (s f))
        else ∀ f ∈ done, m.next f (some (m.next f (s f))) = m.next f (s f) := by
  by_cases hDate : m.upToDate s = true
  · refine iff_of_true (fun limit => ?_) (.inl hDate)
    rw [run, if_pos hDate]
  · rw [or_iff_right hDate]
    have hAll : m.runAll s = m.writeAll m.order s := if_neg hDate
    constructor
    · intro hResumes done rest hOrder
      have hSame := hResumes done.length
      rw [run, if_neg hDate, hAll, hOrder, List.take_left, ← hOrder] at hSame
      exact (m.runAll_writeAll_iff hOrder s).mp hSame
    · intro hSplit limit
      have hOrder := (List.take_append_drop limit m.order).symm
      rw [run, if_neg hDate, hAll]
      exact (m.runAll_writeAll_iff hOrder s).mpr (hSplit _ _ hOrder)

end Rewriting

end Library
