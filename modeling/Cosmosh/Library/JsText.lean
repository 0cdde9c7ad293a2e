import Mathlib.Algebra.GroupWithZero.Nat
import Mathlib.Data.List.Basic
import Mathlib.Data.List.DropRight

/-! # ECMAScript strings as lists of characters

`trim` strips the white space and line terminators of the language specification from both ends.
-/

-- A decision over the elements of a list walks the list, however many values its type has.
attribute [instance (high)] List.decidableBAll List.decidableBEx Option.decidableForallMem Option.decidableExistsMem

namespace Library

abbrev Text := List Char

instance : LawfulBEq Text := inferInstanceAs (LawfulBEq (List Char))

theorem toList_literal {s : String} {chars : Text} (h : s = String.ofList chars) : s.toList = chars := by
  rw [h, String.toList_ofList]

namespace JsText

def isWhitespace (c : Char) : Bool :=
  c ∈ ['\t', '\n', '\x0b', '\x0c', '\r', ' ', '\u00a0', '\u1680', '\u2028', '\u2029', '\u202f',
    '\u205f', '\u3000', '\ufeff'] || (0x2000 ≤ c.val && c.val ≤ 0x200a)

def trimStart (t : Text) : Text := t.dropWhile isWhitespace

def trimEnd (t : Text) : Text := t.rdropWhile isWhitespace

def trim (t : Text) : Text := trimEnd (trimStart t)

/-- `length` of the string: an astral character takes two code units. -/
def utf16Length (t : Text) : Nat := (t.map fun c => if c.val < 0x10000 then 1 else 2).sum

/-- `replace(/x/g, y)` for two single characters. -/
def replaceChar (old new : Char) (t : Text) : Text := t.map fun c => if c = old then new else c

@[simp] theorem trim_nil : trim [] = [] := rfl

theorem utf16Length_append (a b : Text) : utf16Length (a ++ b) = utf16Length a + utf16Length b := by
  simp [utf16Length]

theorem utf16Length_pos {a : Text} (h : a ≠ []) : 0 < utf16Length a := by
  obtain ⟨c, tail, rfl⟩ := List.exists_cons_of_ne_nil h
  simp only [utf16Length, List.map_cons, List.sum_cons]
  split <;> omega

theorem trimStart_suffix (t : Text) : trimStart t <:+ t := List.dropWhile_suffix _

theorem trimEnd_isPrefix (t : Text) : trimEnd t <+: t := List.rdropWhile_prefix isWhitespace t

variable {t : Text} {c : Char}

theorem trimEnd_append_of_not (h : isWhitespace c = false) : trimEnd (t ++ [c]) = t ++ [c] := by
  rw [trimEnd, List.rdropWhile_concat, if_neg (by simp [h])]

theorem trimEnd_append_of_whitespace (h : isWhitespace c = true) : trimEnd (t ++ [c]) = trimEnd t := by
  rw [trimEnd, List.rdropWhile_concat, if_pos h, trimEnd]

theorem trimStart_cons_of_not (h : isWhitespace c = false) : trimStart (c :: t) = c :: t := by
  rw [trimStart, List.dropWhile_cons_of_neg (by simp [h])]

theorem trim_cons_of_not (h : isWhitespace c = false) : trim (c :: t) = trimEnd (c :: t) := by
  rw [trim, trimStart_cons_of_not h]

/-- The text ends in something `trimEnd` would remove. -/
def EndsInWhitespace (t : Text) : Prop := ∃ c ∈ t.getLast?, isWhitespace c = true

instance (t : Text) : Decidable (EndsInWhitespace t) := inferInstanceAs (Decidable (∃ c ∈ t.getLast?, isWhitespace c = true))

theorem trimEnd_eq_self_iff (t : Text) : trimEnd t = t ↔ ¬ EndsInWhitespace t := by
  induction t using List.reverseRecOn with
  | nil => simp [trimEnd, EndsInWhitespace]
  | append_singleton t c _ =>
    simp only [EndsInWhitespace, List.getLast?_append, List.getLast?_singleton, Option.some_or,
      Option.mem_def, Option.some.injEq, exists_eq_left']
    cases h : isWhitespace c with
    | false => simp [trimEnd_append_of_not h]
    | true =>
      rw [trimEnd_append_of_whitespace h]
      have hLength := (trimEnd_isPrefix t).length_le
      simp only [not_true_eq_false, iff_false]
      intro hEq
      have hLengths := congrArg List.length hEq
      simp only [List.length_append, List.length_singleton] at hLengths
      omega

theorem length_trimEnd_lt (h : EndsInWhitespace t) : (trimEnd t).length < t.length := by
  have hPrefix := trimEnd_isPrefix t
  refine Nat.lt_of_le_of_ne hPrefix.length_le fun hLength => ?_
  exact (trimEnd_eq_self_iff t).mp (hPrefix.eq_of_length hLength) h

theorem trim_sublist (t : Text) : (trim t).Sublist t := (trimEnd_isPrefix _).sublist.trans (trimStart_suffix t).sublist

theorem trim_eq_self_iff (t : Text) : trim t = t ↔ (∀ c ∈ t.head?, isWhitespace c = false) ∧ ¬ EndsInWhitespace t := by
  constructor
  · intro h
    have hStart : trimStart t = t := by
      have hTrim : (trim t).Sublist (trimStart t) := (trimEnd_isPrefix _).sublist
      rw [h] at hTrim
      exact (trimStart_suffix t).sublist.antisymm hTrim
    rw [trim, hStart, trimEnd_eq_self_iff] at h
    refine ⟨?_, h⟩
    intro c hHead
    obtain ⟨rest, rfl⟩ := List.head?_eq_some_iff.mp hHead
    rw [Bool.eq_false_iff]
    intro hBlank
    rw [trimStart, List.dropWhile_cons_of_pos hBlank] at hStart
    have hLength := (List.dropWhile_suffix (l := rest) isWhitespace).length_le
    rw [hStart, List.length_cons] at hLength
    omega
  · rintro ⟨hHead, hLast⟩
    cases t with
    | nil => rfl
    | cons c rest => rw [trim_cons_of_not (hHead c rfl), (trimEnd_eq_self_iff _).mpr hLast]

theorem countP_trim_lt (h : trim t ≠ t) : (trim t).countP isWhitespace < t.countP isWhitespace := by
  rw [ne_eq, trim_eq_self_iff, not_and_or, not_not] at h
  obtain hHead | ⟨c, hLast, hBlank⟩ := h
  · cases t with
    | nil => exact absurd (by simp) hHead
    | cons c rest =>
      have hBlank : isWhitespace c = true := by simpa using hHead
      have hRest : (trim (c :: rest)).Sublist rest := by
        rw [trim, trimStart, List.dropWhile_cons_of_pos hBlank]
        exact (trimEnd_isPrefix _).sublist.trans (List.dropWhile_suffix _).sublist
      rw [List.countP_cons_of_pos hBlank]
      exact Nat.lt_succ_of_le hRest.countP_le
  · obtain ⟨front, rfl⟩ := List.getLast?_eq_some_iff.mp hLast
    have hFront : (trim (front ++ [c])).Sublist front := by
      rw [trim, trimStart, List.dropWhile_append]
      split
      · rw [List.dropWhile_cons_of_pos hBlank]
        exact List.nil_sublist front
      · rw [trimEnd_append_of_whitespace hBlank]
        exact (trimEnd_isPrefix _).sublist.trans (List.dropWhile_suffix _).sublist
    rw [List.countP_append, List.countP_singleton, if_pos hBlank]
    exact Nat.lt_succ_of_le hFront.countP_le

theorem trimEnd_append_cons (front : Text) (h : isWhitespace c = false) (t : Text) : trimEnd (front ++ c :: t) = front ++ c :: trimEnd t := by
  induction t using List.reverseRecOn with
  | nil => exact trimEnd_append_of_not h
  | append_singleton t d ih =>
    have hSplit : front ++ c :: (t ++ [d]) = (front ++ c :: t) ++ [d] := by simp
    rw [hSplit]
    cases hd : isWhitespace d with
    | false => rw [trimEnd_append_of_not hd, trimEnd_append_of_not hd, hSplit]
    | true => rw [trimEnd_append_of_whitespace hd, trimEnd_append_of_whitespace hd, ih]

theorem trim_of_no_whitespace (h : ∀ c ∈ t, isWhitespace c = false) : trim t = t := by
  cases t with
  | nil => rfl
  | cons c t =>
    rw [trim_cons_of_not (h c List.mem_cons_self), trimEnd_eq_self_iff]
    rintro ⟨d, hLast, hWhite⟩
    rw [h d (List.mem_of_getLast? hLast)] at hWhite
    contradiction

theorem replaceChar_of_not_mem {old new : Char} (h : old ∉ t) : replaceChar old new t = t := by
  have hSame : ∀ c ∈ t, (if c = old then new else c) = id c := by
    rintro c hc
    split
    · rename_i hOld
      exact absurd (hOld ▸ hc) h
    · rfl
  rw [replaceChar, List.map_congr_left hSame, List.map_id]

theorem not_mem_replaceChar {old new : Char} (h : old ≠ new) (t : Text) : old ∉ replaceChar old new t := by
  intro hMem
  obtain ⟨c, -, hc⟩ := List.mem_map.mp hMem
  split at hc
  · exact h hc.symm
  · contradiction

def IsGraphic (c : Char) : Prop := 0x21 ≤ c.toNat ∧ c.toNat < 0x7f

theorem isWhitespace_of_graphic (h : IsGraphic c) : isWhitespace c = false := by
  obtain ⟨hLow, hHigh⟩ := h
  have hNe : ∀ d : Char, d.toNat < 0x21 ∨ 0x7f ≤ d.toNat → c ≠ d := by
    rintro d hd rfl
    omega
  have hRange : ¬ (0x2000 ≤ c.val) := by
    rw [UInt32.le_iff_toNat_le]
    exact Nat.not_le.mpr (Nat.lt_trans hHigh (by decide))
  rw [isWhitespace, Bool.or_eq_false_iff]
  constructor
  · refine decide_eq_false fun hMem => ?_
    have hEvery : ∀ d ∈ ['\t', '\n', '\x0b', '\x0c', '\r', ' ', '\u00a0', '\u1680', '\u2028', '\u2029', '\u202f',
        '\u205f', '\u3000', '\ufeff'], d.toNat < 0x21 ∨ 0x7f ≤ d.toNat := by decide
    exact hNe c (hEvery c hMem) rfl
  · rw [decide_eq_false hRange, Bool.false_and]

theorem isAlphanum_graphic (h : c.isAlphanum = true) : IsGraphic c := by
  have hRanges : (decide ('A'.val ≤ c.val ∧ c.val ≤ 'Z'.val) || decide ('a'.val ≤ c.val) && decide (c.val ≤ 'z'.val) ||
      decide ('0'.val ≤ c.val) && decide (c.val ≤ '9'.val)) = true := h
  simp only [Bool.or_eq_true, Bool.and_eq_true, decide_eq_true_eq, UInt32.le_iff_toNat_le] at hRanges
  obtain ((⟨hLow, hHigh⟩ | ⟨hLow, hHigh⟩) | ⟨hLow, hHigh⟩) := hRanges
  · exact ⟨Nat.le_trans (by decide) hLow, Nat.lt_of_le_of_lt hHigh (by decide)⟩
  · exact ⟨Nat.le_trans (by decide) hLow, Nat.lt_of_le_of_lt hHigh (by decide)⟩
  · exact ⟨Nat.le_trans (by decide) hLow, Nat.lt_of_le_of_lt hHigh (by decide)⟩

theorem utf16Length_of_graphic (h : ∀ c ∈ t, IsGraphic c) : utf16Length t = t.length := by
  induction t with
  | nil => rfl
  | cons c t ih =>
    obtain ⟨hc, hRest⟩ := List.forall_mem_cons.mp h
    have hSmall : c.val < 0x10000 := UInt32.lt_iff_toNat_lt.mpr (Nat.lt_trans hc.2 (by decide))
    have hOne : utf16Length (c :: t) = 1 + utf16Length t := by
      simp only [utf16Length, List.map_cons, List.sum_cons, if_pos hSmall]
    rw [hOne, ih hRest, List.length_cons, Nat.add_comm]

end JsText

end Library
