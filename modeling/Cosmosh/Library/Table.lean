import Mathlib.Data.List.Nodup
import Mathlib.Data.List.Basic

/-! # Tables with a primary key

A table is a list of rows no two of which share their key.
-/

namespace Library

universe u v

structure Table {ρ : Type u} {κ : Type v} (key : ρ → κ) where
  rows : List ρ
  nodup : (rows.map key).Nodup

namespace Table

variable {ρ : Type u} {κ : Type v} [DecidableEq κ] {key : ρ → κ}

def empty : Table key := ⟨[], List.nodup_nil⟩

def find (t : Table key) (k : κ) : Option ρ := t.rows.find? fun r => key r = k

omit [DecidableEq κ] in
@[ext] theorem ext {t t' : Table key} (h : t.rows = t'.rows) : t = t' := by
  cases t
  cases t'
  subst h
  rfl

theorem find_eq_none_iff (t : Table key) (k : κ) : t.find k = none ↔ ∀ r ∈ t.rows, key r ≠ k := by
  simp [find]

variable {t : Table key} {k : κ} {r : ρ}

theorem key_of_find (h : t.find k = some r) : key r = k := by
  simpa using List.find?_some h

theorem mem_of_find (h : t.find k = some r) : r ∈ t.rows := List.mem_of_find?_eq_some h

omit [DecidableEq κ] in
theorem eq_of_key (t : Table key) {r r' : ρ} (h : r ∈ t.rows) (h' : r' ∈ t.rows) (hKey : key r = key r') :
    r = r' := List.inj_on_of_nodup_map t.nodup h h' hKey

theorem find_key (h : r ∈ t.rows) : t.find (key r) = some r := by
  cases hFind : t.find (key r) with
  | none => exact absurd rfl ((t.find_eq_none_iff _).mp hFind r h)
  | some r' => rw [t.eq_of_key (mem_of_find hFind) h (key_of_find hFind)]

theorem find_eq_some_iff (t : Table key) (k : κ) (r : ρ) : t.find k = some r ↔ r ∈ t.rows ∧ key r = k := by
  constructor
  · intro h
    exact ⟨mem_of_find h, key_of_find h⟩
  · rintro ⟨h, rfl⟩
    exact find_key h

theorem find_congr {t' : Table key} (h : ∀ r, key r = k → (r ∈ t.rows ↔ r ∈ t'.rows)) : t.find k = t'.find k := by
  apply Option.ext
  intro r
  rw [find_eq_some_iff, find_eq_some_iff]
  constructor
  · rintro ⟨hMem, hKey⟩
    exact ⟨(h r hKey).mp hMem, hKey⟩
  · rintro ⟨hMem, hKey⟩
    exact ⟨(h r hKey).mpr hMem, hKey⟩

def insert (t : Table key) (r : ρ) (h : t.find (key r) = none) : Table key where
  rows := t.rows ++ [r]
  nodup := by
    rw [List.map_append, List.nodup_append]
    refine ⟨t.nodup, by simp, ?_⟩
    rintro k hMem k' hNew rfl
    obtain ⟨row, hRow, rfl⟩ := List.mem_map.mp hMem
    simp only [List.map_cons, List.map_nil, List.mem_singleton] at hNew
    exact (t.find_eq_none_iff _).mp h row hRow hNew

theorem mem_insert (h : t.find (key r) = none) {row : ρ} : row ∈ (t.insert r h).rows ↔ row ∈ t.rows ∨ row = r := by
  simp [insert]

theorem insert_ne (t : Table key) (r : ρ) (h : t.find (key r) = none) : t.insert r h ≠ t := by
  intro hSame
  have hLength := congrArg (fun table => table.rows.length) hSame
  simp [insert] at hLength

theorem find_insert (t : Table key) (r : ρ) (h : t.find (key r) = none) (k : κ) :
    (t.insert r h).find k = if k = key r then some r else t.find k := by
  split
  · next hKey =>
    rw [find_eq_some_iff, mem_insert h, hKey]
    exact ⟨Or.inr rfl, rfl⟩
  · next hKey =>
    apply find_congr
    intro row hRow
    rw [mem_insert h, or_iff_left]
    rintro rfl
    exact hKey hRow.symm

def modify (t : Table key) (k : κ) (f : ρ → ρ) (hKey : ∀ r, key (f r) = key r) : Table key where
  rows := t.rows.map fun r => if key r = k then f r else r
  nodup := by
    have hKeys : (t.rows.map fun r => if key r = k then f r else r).map key = t.rows.map key := by
      rw [List.map_map]
      apply List.map_congr_left
      intro r _
      simp only [Function.comp_apply]
      split
      · exact hKey r
      · rfl
    rw [hKeys]
    exact t.nodup

section Modify

variable {f : ρ → ρ} (hKey : ∀ r, key (f r) = key r)

theorem mem_modify {row : ρ} : row ∈ (t.modify k f hKey).rows ↔ (row ∈ t.rows ∧ key row ≠ k) ∨ ∃ r ∈ t.rows, key r = k ∧ row = f r := by
  simp only [modify, List.mem_map]
  constructor
  · rintro ⟨r, hMem, rfl⟩
    split
    · next h => exact Or.inr ⟨r, hMem, h, rfl⟩
    · next h => exact Or.inl ⟨hMem, h⟩
  · rintro (⟨hMem, h⟩ | ⟨r, hMem, h, rfl⟩)
    · exact ⟨row, hMem, if_neg h⟩
    · exact ⟨r, hMem, if_pos h⟩

theorem find_modify (t : Table key) (k key' : κ) : (t.modify k f hKey).find key' = if key' = k then (t.find k).map f else t.find key' := by
  split
  · next h =>
    subst h
    apply Option.ext
    intro row
    rw [find_eq_some_iff, mem_modify hKey, Option.map_eq_some_iff]
    constructor
    · rintro ⟨⟨_, hOther⟩ | ⟨r, hMem, hRow, rfl⟩, hSame⟩
      · exact absurd hSame hOther
      · exact ⟨r, (find_eq_some_iff ..).mpr ⟨hMem, hRow⟩, rfl⟩
    · rintro ⟨r, hFind, rfl⟩
      have hRow := key_of_find hFind
      exact ⟨Or.inr ⟨r, mem_of_find hFind, hRow, rfl⟩, (hKey r).trans hRow⟩
  · next h =>
    apply find_congr
    intro row hRow
    rw [mem_modify hKey]
    constructor
    · rintro (⟨hMem, _⟩ | ⟨r, _, hSame, rfl⟩)
      · exact hMem
      · exact absurd (hRow.symm.trans ((hKey r).trans hSame)) h
    · intro hMem
      exact Or.inl ⟨hMem, fun hSame => h (hRow.symm.trans hSame)⟩

theorem modify_eq_self_iff (h : t.find k = some r) : t.modify k f hKey = t ↔ f r = r := by
  constructor
  · intro hSame
    have hFind := congrArg (fun table => table.find k) hSame
    simpa [find_modify, h] using hFind
  · intro hFixed
    apply Table.ext
    simp only [modify]
    conv_rhs => rw [← List.map_id t.rows]
    apply List.map_congr_left
    intro row hMem
    simp only [id_eq, ite_eq_right_iff]
    intro hRow
    rw [t.eq_of_key hMem (mem_of_find h) (hRow.trans (key_of_find h).symm), hFixed]

end Modify

def removeWhere (t : Table key) (p : ρ → Bool) : Table key where
  rows := t.rows.filter fun r => !p r
  nodup := t.nodup.sublist (List.filter_sublist.map key)

omit [DecidableEq κ] in
theorem mem_removeWhere {t : Table key} {p : ρ → Bool} {row : ρ} : row ∈ (t.removeWhere p).rows ↔ row ∈ t.rows ∧ p row = false := by
  simp [removeWhere]

theorem find_removeWhere_of_kept {p : ρ → Bool} (h : ∀ r, t.find k = some r → p r = false) : (t.removeWhere p).find k = t.find k := by
  apply find_congr
  rintro row rfl
  rw [mem_removeWhere, and_iff_left_iff_imp]
  intro hMem
  exact h row (find_key hMem)

end Table

end Library
