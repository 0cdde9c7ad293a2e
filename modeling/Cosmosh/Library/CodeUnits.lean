import Mathlib.Algebra.GroupWithZero.Nat
import Mathlib.Data.List.DropRight

/-! # ECMAScript strings as UTF-16 code units -/

namespace Library

abbrev CodeUnits := List Nat

instance : LawfulBEq CodeUnits := inferInstanceAs (LawfulBEq (List Nat))

namespace CodeUnits

/-- WhiteSpace and LineTerminator of the ECMAScript grammar, which are also what `\s` matches. -/
def isWhitespace (u : Nat) : Bool :=
  u ∈ [0x09, 0x0a, 0x0b, 0x0c, 0x0d, 0x20, 0xa0, 0x1680, 0x2028, 0x2029, 0x202f, 0x205f, 0x3000, 0xfeff] ||
    (0x2000 ≤ u && u ≤ 0x200a)

/-- What `.` does not match. -/
def isLineTerminator (u : Nat) : Bool := u ∈ [0x0a, 0x0d, 0x2028, 0x2029]

/-- `\d` -/
def isDigit (u : Nat) : Bool := 0x30 ≤ u && u ≤ 0x39

def ofAscii (chars : List Char) : CodeUnits := chars.map Char.toNat

def trim (t : CodeUnits) : CodeUnits := (t.dropWhile isWhitespace).rdropWhile isWhitespace

/-- `toLowerCase` of the units that `i` folds together with an ASCII letter. -/
def toAsciiLower (t : CodeUnits) : CodeUnits := t.map fun u => if 0x41 ≤ u ∧ u ≤ 0x5a then u + 0x20 else u

/-- `slice(prefix.length)` of a text that starts with the prefix. -/
def stripStart (start t : CodeUnits) : Option CodeUnits :=
  if start.isPrefixOf t then some (t.drop start.length) else none

/-- `split(/\r?\n/)` -/
def splitLines : CodeUnits → CodeUnits → List CodeUnits
  | line, [] => [line]
  | line, 0x0a :: rest => line :: splitLines [] rest
  | line, 0x0d :: 0x0a :: rest => line :: splitLines [] rest
  | line, u :: rest => splitLines (line ++ [u]) rest

/-- `replace(/\\n/g, '\n')` -/
def unescapeNewlines : CodeUnits → CodeUnits
  | [] => []
  | 0x5c :: 0x6e :: rest => 0x0a :: unescapeNewlines rest
  | u :: rest => u :: unescapeNewlines rest

def isHighSurrogate (u : Nat) : Bool := 0xd800 ≤ u && u < 0xdc00

def isLowSurrogate (u : Nat) : Bool := 0xdc00 ≤ u && u < 0xe000

def unitBytes (u : Nat) : Nat := if u < 0x80 then 1 else if u < 0x800 then 2 else 3

/-- `Buffer.byteLength`: a surrogate pair takes four bytes. -/
def byteLength : CodeUnits → Nat
  | [] => 0
  | [u] => unitBytes u
  | u :: v :: rest =>
    if isHighSurrogate u = true ∧ isLowSurrogate v = true then 4 + byteLength rest
    else unitBytes u + byteLength (v :: rest)

theorem unitBytes_le (u : Nat) : unitBytes u ≤ 3 := by
  rw [unitBytes]
  split
  · decide
  · split <;> decide

theorem byteLength_le (t : CodeUnits) : byteLength t ≤ 3 * t.length := by
  fun_induction byteLength t with
  | case1 => exact Nat.zero_le 0
  | case2 u => exact unitBytes_le u
  | case3 u v rest hPair ih =>
    simp only [List.length_cons]
    omega
  | case4 u v rest hPair ih =>
    have hUnit := unitBytes_le u
    simp only [List.length_cons] at ih ⊢
    omega

theorem byteLength_of_ascii {t : CodeUnits} (h : ∀ u ∈ t, u < 0x80) : byteLength t = t.length := by
  fun_induction byteLength t with
  | case1 => rfl
  | case2 u => rw [unitBytes, if_pos (h u List.mem_cons_self), List.length_singleton]
  | case3 u v rest hPair ih =>
    have hAscii := h u List.mem_cons_self
    simp only [isHighSurrogate, Bool.and_eq_true, decide_eq_true_eq] at hPair
    omega
  | case4 u v rest hPair ih =>
    rw [unitBytes, if_pos (h u List.mem_cons_self), ih fun u hu => h u (List.mem_cons_of_mem _ hu), Nat.add_comm]
    rfl

theorem dropWhile_rdropWhile {p : Nat → Bool} {t : CodeUnits} (h : t.dropWhile p = t) : (t.rdropWhile p).dropWhile p = t.rdropWhile p := by
  obtain ⟨rest, hRest⟩ := List.rdropWhile_prefix p t
  cases hFront : t.rdropWhile p with
  | nil => rfl
  | cons u front =>
    rw [hFront] at hRest
    have hHead : p u = false := by
      cases hu : p u with
      | false => rfl
      | true =>
        rw [← hRest, List.cons_append, List.dropWhile_cons_of_pos hu] at h
        have hLength := congrArg List.length h
        have hShort := (List.dropWhile_sublist p (l := front ++ rest)).length_le
        rw [List.length_cons] at hLength
        omega
    exact List.dropWhile_cons_of_neg (by simp [hHead])

theorem trim_trim (t : CodeUnits) : trim (trim t) = trim t := by
  have hStart : (trim t).dropWhile isWhitespace = trim t := dropWhile_rdropWhile (List.dropWhile_idempotent isWhitespace t)
  rw [trim, hStart]
  exact List.rdropWhile_idempotent isWhitespace _

end CodeUnits

end Library
