import Mathlib.Tactic.ByContra
import Cosmosh.Library.FishLexer

/-! # Go string literals between the double quotes of a shell

A literal of Go escapes quotes and backslashes as a shell undoes them.
-/

namespace Library.Shell

open Library Reader

def hexDigit (n : Nat) : Char := "0123456789abcdef".toList.getD n '0'

def hexText : Nat → Nat → Text
  | 0, _ => []
  | width + 1, n => hexText width (n / 16) ++ [hexDigit (n % 16)]

def goEscape (c : Char) : Text :=
  if c.toNat = 7 then ['a']
  else if c.toNat = 8 then ['b']
  else if c.toNat = 12 then ['f']
  else if c = '\n' then ['n']
  else if c = '\r' then ['r']
  else if c = '\t' then ['t']
  else if c.toNat = 11 then ['v']
  else if c.toNat < 0x20 ∨ c.toNat = 0x7f then 'x' :: hexText 2 c.toNat
  else if c.toNat < 0x10000 then 'u' :: hexText 4 c.toNat
  else 'U' :: hexText 8 c.toNat

def isQuoted (c : Char) : Bool := c = '"' || c = '\\'

section

variable (isPrint : Char → Bool)

def goChar (c : Char) : Text := if isQuoted c then ['\\', c] else if isPrint c then [c] else '\\' :: goEscape c

/-- `%q`, the quotes left out. -/
def goBody (t : Text) : Text := t.flatMap (goChar isPrint)

/-- `strconv.Quote` -/
def goQuote (t : Text) : Text := '"' :: goBody isPrint t ++ ['"']

end

theorem cons_ite {p : Prop} [Decidable p] {first second : Text} (hFirst : ∃ d rest, first = d :: rest ∧ d.isAlphanum = true)
    (hSecond : ∃ d rest, second = d :: rest ∧ d.isAlphanum = true) :
    ∃ d rest, (if p then first else second) = d :: rest ∧ d.isAlphanum = true := by
  split
  · exact hFirst
  · exact hSecond

theorem goEscape_cons (c : Char) : ∃ d rest, goEscape c = d :: rest ∧ d.isAlphanum = true := by
  unfold goEscape
  iterate 9 apply cons_ite ⟨_, _, rfl, by decide⟩
  exact ⟨_, _, rfl, by decide⟩

/-- What two shells have in common between double quotes. -/
structure Dialect where
  read : Reader → Text → List Token × Reader
  expands : Char → Bool
  read_nil : ∀ s, read s [] = ([], s)
  read_append : ∀ s a b, read s (a ++ b) = ((read s a).1 ++ (read (read s a).2 b).1, (read (read s a).2 b).2)
  first_word : ∀ {w s text tokens}, Reading w s → (read s text).2.finish.map ((read s text).1 ++ ·) = some tokens →
    ∃ more rest, tokens = .word (w ++ more) :: rest
  read_plain : ∀ {c}, isQuoted c = false → expands c = false → ∀ w, read (doubleQuoting w) [c] = ([], doubleQuoting (w ++ [.literal true c]))
  read_escaped : ∀ {c}, isQuoted c = true → ∀ w, read (doubleQuoting w) ['\\', c] = ([], doubleQuoting (w ++ [.literal true c]))
  read_unknown : ∀ {c}, c.isAlphanum = true → ∀ w,
    read (doubleQuoting w) ['\\', c] = ([], doubleQuoting (w ++ [.literal true '\\', .literal true c]))
  read_expanding : ∀ {c}, expands c = true → ∀ w, ∃ s, read (doubleQuoting w) [c] = ([], s) ∧ Reading (w ++ [.active c]) s
  read_start : ∀ word, read { start with word := word } ['"'] = ([], doubleQuoting (word.getD []))
  read_end : ∀ w, read (doubleQuoting w) ['"'] = ([], { start with word := some w })

namespace Dialect

variable (dialect : Dialect)

def readAll (s : Reader) (text : Text) : Option (List Token) := (dialect.read s text).2.finish.map ((dialect.read s text).1 ++ ·)

def lex (text : Text) : Option (List Token) := dialect.readAll start text

variable {dialect}

theorem read_parts {s middle final : Reader} {a b : Text} {x y : List Token} (ha : dialect.read s a = (x, middle))
    (hb : dialect.read middle b = (y, final)) : dialect.read s (a ++ b) = (x ++ y, final) := by
  rw [dialect.read_append, ha, hb]

theorem readAll_parts {s middle : Reader} {a b : Text} {x : List Token} (ha : dialect.read s a = (x, middle)) :
    dialect.readAll s (a ++ b) = (dialect.readAll middle b).map (x ++ ·) := by
  rw [readAll, dialect.read_append, ha, readAll, Option.map_map]
  congr 1
  funext tokens
  simp

def safe (isPrint : Char → Bool) (c : Char) : Bool := isQuoted c || (isPrint c && !dialect.expands c)

variable {isPrint : Char → Bool}

theorem read_safe {c : Char} (h : dialect.safe isPrint c = true) (w : List Piece) :
    dialect.read (doubleQuoting w) (goChar isPrint c) = ([], doubleQuoting (w ++ [.literal true c])) := by
  rw [goChar]
  cases hQuoted : isQuoted c with
  | true => exact dialect.read_escaped hQuoted w
  | false =>
    rw [safe, hQuoted, Bool.false_or, Bool.and_eq_true, Bool.not_eq_true'] at h
    rw [if_neg (by decide), if_pos h.1]
    exact dialect.read_plain hQuoted h.2 w

theorem read_unsafe {c : Char} (h : dialect.safe isPrint c = false) (w : List Piece) :
    ∃ front back piece more s, goChar isPrint c = front ++ back ∧ piece ≠ .literal true c ∧
      dialect.read (doubleQuoting w) front = ([], s) ∧ Reading (w ++ piece :: more) s := by
  rw [safe, Bool.or_eq_false_iff, Bool.and_eq_false_iff, Bool.not_eq_false'] at h
  obtain ⟨hQuoted, hPrint⟩ := h
  rw [goChar, hQuoted, if_neg (by decide)]
  by_cases hShown : isPrint c = true
  · rw [if_pos hShown]
    have hExpands : dialect.expands c = true := hPrint.resolve_left (by simp [hShown])
    obtain ⟨s, hRead, hReading⟩ := dialect.read_expanding hExpands w
    exact ⟨[c], [], .active c, [], s, rfl, by simp, hRead, hReading⟩
  · rw [if_neg hShown]
    obtain ⟨d, rest, hEscape, hLetter⟩ := goEscape_cons c
    have hBackslash : c ≠ '\\' := by
      rintro rfl
      cases hQuoted
    refine ⟨['\\', d], rest, .literal true '\\', [.literal true d], _, by rw [hEscape]; rfl, ?_, dialect.read_unknown hLetter w,
      ⟨rfl, rfl, rfl⟩⟩
    intro hPiece
    cases hPiece
    exact hBackslash rfl

theorem goBody_cons (c : Char) (t : Text) : goBody isPrint (c :: t) = goChar isPrint c ++ goBody isPrint t := rfl

theorem read_goBody {t : Text} (h : ∀ c ∈ t, dialect.safe isPrint c = true) (w : List Piece) :
    dialect.read (doubleQuoting w) (goBody isPrint t) = ([], doubleQuoting (w ++ quotedText t)) := by
  induction t generalizing w with
  | nil => rw [goBody, List.flatMap_nil, dialect.read_nil, quotedText, List.map_nil, List.append_nil]
  | cons c t ih =>
    obtain ⟨hc, hRest⟩ := List.forall_mem_cons.mp h
    rw [goBody_cons, dialect.read_append, read_safe hc w, ih hRest]
    simp [quotedText]

theorem read_goQuote {t : Text} (h : ∀ c ∈ t, dialect.safe isPrint c = true) (word : Option (List Piece)) :
    dialect.read { start with word := word } (goQuote isPrint t) = ([], { start with word := some (word.getD [] ++ quotedText t) }) := by
  have hOpen := read_parts (dialect.read_start word) (read_goBody h _)
  exact read_parts hOpen (dialect.read_end _)

theorem safe_of_readAll {t : Text} {w after : List Piece} {rest : List Token} {tail : Text}
    (h : dialect.readAll (doubleQuoting w) (goBody isPrint t ++ tail) = some (.word (w ++ quotedText t ++ after) :: rest)) :
    ∀ c ∈ t, dialect.safe isPrint c = true := by
  induction t generalizing w with
  | nil => exact fun c hc => absurd hc List.not_mem_nil
  | cons c t ih =>
    have hWord : w ++ quotedText (c :: t) ++ after = w ++ [.literal true c] ++ quotedText t ++ after := by
      simp [quotedText]
    rw [goBody_cons, List.append_assoc, hWord] at h
    cases hSafe : dialect.safe isPrint c with
    | true =>
      rw [readAll_parts (read_safe hSafe w), Option.map_eq_some_iff] at h
      obtain ⟨tokens, hTokens, rfl⟩ := h
      exact List.forall_mem_cons.mpr ⟨hSafe, ih hTokens⟩
    | false =>
      obtain ⟨front, back, piece, more, s, hSplit, hPiece, hRead, hReading⟩ := read_unsafe hSafe w
      rw [hSplit, List.append_assoc, readAll_parts hRead, Option.map_eq_some_iff] at h
      obtain ⟨tokens, hTokens, hSame⟩ := h
      obtain ⟨further, others, rfl⟩ := dialect.first_word hReading hTokens
      rw [List.nil_append, List.cons.injEq, Token.word.injEq] at hSame
      simp only [List.append_assoc, List.cons_append, List.append_cancel_left_eq, List.cons.injEq] at hSame
      exact absurd hSame.1.1 hPiece

end Dialect

theorem mem_specialKinds {c : Char} {k : Kind} (h : kind c = k) (hSpecial : k ≠ .ordinary) : (c, k) ∈ specialKinds := by
  rw [kind] at h
  cases hLookup : specialKinds.lookup c with
  | none =>
    rw [hLookup] at h
    exact absurd h.symm hSpecial
  | some found =>
    rw [hLookup, Option.getD_some] at h
    obtain ⟨before, after, hSplit, -⟩ := List.lookup_eq_some_iff.mp hLookup
    rw [hSplit, h]
    exact List.mem_append_right _ List.mem_cons_self

theorem kind_of_isAlphanum {c : Char} (h : c.isAlphanum = true) : kind c = .ordinary := by
  by_contra hSpecial
  have hEvery : ∀ entry ∈ specialKinds, entry.1.isAlphanum = false := by decide
  have hNot := hEvery _ (mem_specialKinds rfl hSpecial)
  rw [h] at hNot
  contradiction

def expandsInPosix (c : Char) : Bool := c = '$' || c = '\x60'

def expandsInFish (c : Char) : Bool := c = '$'

theorem kind_not_mem {kinds : List Kind} (expands : Char → Bool) (hOrdinary : .ordinary ∉ kinds)
    (hEvery : ∀ entry ∈ specialKinds, entry.2 ∈ kinds → isQuoted entry.1 = true ∨ expands entry.1 = true) {c : Char}
    (hQuoted : isQuoted c = false) (hExpands : expands c = false) : kind c ∉ kinds := by
  intro hKind
  have hSpecial : kind c ≠ .ordinary := fun hIt => hOrdinary (hIt ▸ hKind)
  obtain hIt | hIt := hEvery _ (mem_specialKinds rfl hSpecial) hKind
  · rw [hQuoted] at hIt
    contradiction
  · rw [hExpands] at hIt
    contradiction

def posix : Dialect where
  read := Reader.read
  expands := expandsInPosix
  read_nil _ := rfl
  read_append := Reader.read_append
  first_word hReading hTokens := Reader.Reading.readAll hReading hTokens
  read_plain := by
    intro c hQuoted hExpands w
    have hPlain : plainInDouble c = true := decide_eq_true (kind_not_mem expandsInPosix (by decide) (by decide) hQuoted hExpands)
    exact read_doubleQuoting (by simpa using hPlain) w
  read_escaped := by
    intro c hQuoted w
    simp only [isQuoted, Bool.or_eq_true, decide_eq_true_eq] at hQuoted
    obtain rfl | rfl := hQuoted <;> rfl
  read_unknown := by
    intro c hLetter w
    have hKind := kind_of_isAlphanum hLetter
    have hStep : ({ doubleQuoting w with escaped := true } : Reader).stepDouble c =
        doubleQuoting (w ++ [.literal true '\\'] ++ [.literal true c]) := by
      rw [stepDouble, hKind]
      rfl
    have hFirst : (doubleQuoting w).read ['\\'] = ([], { doubleQuoting w with escaped := true }) := rfl
    have hSecond : ({ doubleQuoting w with escaped := true } : Reader).read [c] =
        ([], doubleQuoting (w ++ [.literal true '\\', .literal true c])) := by
      rw [List.append_assoc] at hStep
      exact congrArg (Prod.mk []) hStep
    exact Reader.read_parts hFirst hSecond
  read_expanding := by
    intro c hExpands w
    simp only [expandsInPosix, Bool.or_eq_true, decide_eq_true_eq] at hExpands
    obtain rfl | rfl := hExpands
    · exact ⟨_, rfl, ⟨rfl, rfl, rfl⟩⟩
    · exact ⟨_, rfl, ⟨rfl, rfl, rfl⟩⟩
  read_start _ := rfl
  read_end _ := rfl

def fish : Dialect where
  read := Fish.read
  expands := expandsInFish
  read_nil _ := rfl
  read_append := Fish.read_append
  first_word hReading hTokens := Fish.readAll_reading hReading hTokens
  read_plain := by
    intro c hQuoted hExpands w
    have hKind : kind c ∉ [.backslash, .doubleQuote, .dollar] := kind_not_mem expandsInFish (by decide) (by decide) hQuoted hExpands
    have hStep : Fish.stepDouble (doubleQuoting w) c = doubleQuoting (w ++ [.literal true c]) := by
      unfold Fish.stepDouble
      generalize kind c = k at hKind ⊢
      cases k <;> first | rfl | simp at hKind
    exact congrArg (Prod.mk []) hStep
  read_escaped := by
    intro c hQuoted w
    simp only [isQuoted, Bool.or_eq_true, decide_eq_true_eq] at hQuoted
    obtain rfl | rfl := hQuoted <;> rfl
  read_unknown := by
    intro c hLetter w
    have hKind := kind_of_isAlphanum hLetter
    have hStep : Fish.stepDouble { doubleQuoting w with escaped := true } c =
        doubleQuoting (w ++ [.literal true '\\'] ++ [.literal true c]) := by
      rw [Fish.stepDouble, hKind]
      rfl
    have hFirst : Fish.read (doubleQuoting w) ['\\'] = ([], { doubleQuoting w with escaped := true }) := rfl
    have hSecond : Fish.read { doubleQuoting w with escaped := true } [c] =
        ([], doubleQuoting (w ++ [.literal true '\\', .literal true c])) := by
      rw [List.append_assoc] at hStep
      exact congrArg (Prod.mk []) hStep
    exact Fish.read_parts hFirst hSecond
  read_expanding := by
    intro c hExpands w
    obtain rfl := of_decide_eq_true hExpands
    exact ⟨_, rfl, ⟨rfl, rfl, rfl⟩⟩
  read_start _ := rfl
  read_end _ := rfl

end Library.Shell
