import Mathlib.Data.List.Nodup

/-! # Insertion-ordered maps

The `Map` of ECMAScript: a key occurs once, a new key goes to the end, an
existing key keeps its place.
-/

namespace Library

universe u v

structure JsMap (κ : Type u) (ν : Type v) where
  entries : List (κ × ν)
  nodup : (entries.map Prod.fst).Nodup

namespace JsMap

variable {κ : Type u} {ν : Type v} [DecidableEq κ]

def empty : JsMap κ ν := ⟨[], List.nodup_nil⟩

def values (m : JsMap κ ν) : List ν := m.entries.map Prod.snd

def size (m : JsMap κ ν) : Nat := m.entries.length

def get? (m : JsMap κ ν) (k : κ) : Option ν := m.entries.lookup k

def has (m : JsMap κ ν) (k : κ) : Bool := (m.get? k).isSome

def delete (m : JsMap κ ν) (k : κ) : JsMap κ ν where
  entries := m.entries.filter (fun e => e.1 ≠ k)
  nodup := m.nodup.sublist (List.filter_sublist.map Prod.fst)

variable (m : JsMap κ ν)

theorem mem_entries_iff (k : κ) (v : ν) : (k, v) ∈ m.entries ↔ m.get? k = some v := by
  obtain ⟨entries, hNodup⟩ := m
  simp only [get?]
  induction entries with
  | nil => simp
  | cons e entries ih =>
    obtain ⟨key, value⟩ := e
    simp only [List.map_cons, List.nodup_cons] at hNodup
    by_cases h : k = key
    · subst h
      simp only [List.mem_cons, Prod.mk.injEq, true_and, List.lookup_cons_self, Option.some.injEq]
      constructor
      · rintro (rfl | hMem)
        · rfl
        · exact absurd (List.mem_map_of_mem (f := Prod.fst) hMem) hNodup.1
      · exact fun hEq => .inl hEq.symm
    · have hBeq : (k == key) = false := by simpa using h
      rw [List.lookup_cons, hBeq]
      simp only [List.mem_cons, Prod.mk.injEq, h, false_and, false_or]
      exact ih hNodup.2

theorem get?_eq_none_iff (k : κ) : m.get? k = none ↔ k ∉ m.entries.map Prod.fst := by
  constructor
  · intro h hMem
    obtain ⟨⟨key, value⟩, hEntry, rfl⟩ := List.mem_map.mp hMem
    rw [(m.mem_entries_iff key value).mp hEntry] at h
    cases h
  · intro h
    cases hGet : m.get? k with
    | none => rfl
    | some v => exact absurd (List.mem_map_of_mem (f := Prod.fst) ((m.mem_entries_iff k v).mpr hGet)) h

theorem has_eq_false_iff (k : κ) : m.has k = false ↔ m.get? k = none := by
  simp [has]

def insertNew (m : JsMap κ ν) (k : κ) (v : ν) (h : m.has k = false) : JsMap κ ν where
  entries := m.entries ++ [(k, v)]
  nodup := by
    rw [List.map_append, List.nodup_append]
    refine ⟨m.nodup, by simp, ?_⟩
    intro a ha b hb
    simp only [List.map_cons, List.map_nil, List.mem_singleton] at hb
    subst hb
    exact fun hEq => (m.get?_eq_none_iff b).mp ((m.has_eq_false_iff b).mp h) (hEq ▸ ha)

def replace (m : JsMap κ ν) (k : κ) (v : ν) : JsMap κ ν where
  entries := m.entries.map fun e => if e.1 = k then (k, v) else e
  nodup := by
    have hKeys : (m.entries.map fun e => if e.1 = k then (k, v) else e).map Prod.fst =
        m.entries.map Prod.fst := by
      rw [List.map_map]
      apply List.map_congr_left
      intro e _
      simp only [Function.comp_apply]
      split
      · exact ‹e.1 = k›.symm
      · rfl
    rw [hKeys]
    exact m.nodup

def set (m : JsMap κ ν) (k : κ) (v : ν) : JsMap κ ν :=
  if h : m.has k = false then m.insertNew k v h else m.replace k v

theorem entries_set_of_new {k : κ} (v : ν) (h : m.get? k = none) : (m.set k v).entries = m.entries ++ [(k, v)] := by
  rw [set, dif_pos ((m.has_eq_false_iff k).mpr h)]
  rfl

theorem mem_entries_delete (k key : κ) (v : ν) : (key, v) ∈ (m.delete k).entries ↔ (key, v) ∈ m.entries ∧ key ≠ k := by
  simp [delete, List.mem_filter]

theorem delete_split {k : κ} {v : ν} (h : m.get? k = some v) :
    ∃ before after, m.entries = before ++ (k, v) :: after ∧ (m.delete k).entries = before ++ after := by
  obtain ⟨before, after, hEntries⟩ := List.append_of_mem ((m.mem_entries_iff k v).mpr h)
  have hNodup := m.nodup
  refine ⟨before, after, hEntries, ?_⟩
  rw [hEntries, List.map_append, List.map_cons, List.nodup_append] at hNodup
  obtain ⟨_, hAfter, hDisjoint⟩ := hNodup
  have hKeep : ∀ part : List (κ × ν), k ∉ part.map Prod.fst →
      part.filter (fun e => e.1 ≠ k) = part := by
    intro part hPart
    rw [List.filter_eq_self]
    intro e he
    simpa using fun hEq : e.1 = k => hPart (hEq ▸ List.mem_map_of_mem he)
  have hBefore : k ∉ before.map Prod.fst := fun hMem => hDisjoint k hMem k List.mem_cons_self rfl
  simp only [delete, hEntries, List.filter_append, List.filter_cons]
  rw [if_neg (by simp), hKeep before hBefore, hKeep after (List.nodup_cons.mp hAfter).1]

theorem get?_delete (k key : κ) : (m.delete k).get? key = if key = k then none else m.get? key := by
  apply Option.ext
  intro v
  rw [← mem_entries_iff, mem_entries_delete, mem_entries_iff]
  split <;> simp_all

theorem get?_set_of_new {k : κ} (v : ν) (h : m.get? k = none) (key : κ) : (m.set k v).get? key = if key = k then some v else m.get? key := by
  apply Option.ext
  intro value
  rw [← mem_entries_iff, entries_set_of_new m v h, List.mem_append, mem_entries_iff, List.mem_singleton, Prod.mk.injEq]
  split
  · rename_i hKey
    subst hKey
    simp [h, eq_comm]
  · rename_i hKey
    simp [hKey]

theorem get?_set (k : κ) (v : ν) (key : κ) : (m.set k v).get? key = if key = k then some v else m.get? key := by
  cases hHas : m.has k with
  | false => exact m.get?_set_of_new v ((m.has_eq_false_iff k).mp hHas) key
  | true =>
    apply Option.ext
    intro value
    rw [set, dif_neg (by simp [hHas]), ← mem_entries_iff, replace, List.mem_map]
    constructor
    · rintro ⟨⟨old, oldValue⟩, hMem, hEntry⟩
      simp only at hEntry
      split at hEntry
      · obtain ⟨rfl, rfl⟩ := Prod.mk.inj hEntry
        rw [if_pos rfl]
      · next hOld =>
        obtain ⟨rfl, rfl⟩ := Prod.mk.inj hEntry
        rw [if_neg hOld]
        exact (m.mem_entries_iff _ _).mp hMem
    · intro hValue
      split at hValue
      · next hKey =>
        obtain ⟨old, hOld⟩ := Option.isSome_iff_exists.mp hHas
        refine ⟨(k, old), (m.mem_entries_iff k old).mpr hOld, ?_⟩
        rw [if_pos rfl, hKey, Option.some.inj hValue]
      · next hKey => exact ⟨(key, value), (m.mem_entries_iff key value).mpr hValue, if_neg hKey⟩

theorem mem_entries_set (k : κ) (v : ν) (key : κ) (value : ν) :
    (key, value) ∈ (m.set k v).entries ↔ (key = k ∧ value = v) ∨ (key ≠ k ∧ (key, value) ∈ m.entries) := by
  rw [mem_entries_iff, mem_entries_iff, get?_set]
  split
  · next hKey => simp [hKey, eq_comm]
  · next hKey => simp [hKey]

theorem size_set_of_mem {k : κ} (v : ν) {old : ν} (h : m.get? k = some old) : (m.set k v).size = m.size := by
  have hHas : ¬ m.has k = false := by simp [has, h]
  rw [set, dif_neg hHas, size, replace, List.length_map, size]

theorem size_set_le (k : κ) (v : ν) : (m.set k v).size ≤ m.size + 1 := by
  cases hGet : m.get? k with
  | none =>
    rw [size, entries_set_of_new m v hGet, List.length_append, List.length_singleton]
    exact Nat.le_refl _
  | some old =>
    rw [m.size_set_of_mem v hGet]
    omega

def filter (m : JsMap κ ν) (p : κ → ν → Bool) : JsMap κ ν where
  entries := m.entries.filter fun e => p e.1 e.2
  nodup := m.nodup.sublist (List.filter_sublist.map Prod.fst)

theorem get?_filter (p : κ → ν → Bool) (k : κ) (v : ν) : (m.filter p).get? k = some v ↔ m.get? k = some v ∧ p k v = true := by
  rw [← mem_entries_iff, ← mem_entries_iff, filter, List.mem_filter]

theorem get?_of_size_eq_zero {m : JsMap κ ν} (h : m.size = 0) (k : κ) : m.get? k = none := by
  rw [get?, List.length_eq_zero_iff.mp h]
  rfl

end JsMap

end Library
