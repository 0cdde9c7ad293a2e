import Cosmosh.Library.JsText

/-! # Token recognition of a POSIX shell

The reader goes over the script character by character with a stack of quotes and expansions.
-/

namespace Library.Shell

open Library

inductive Piece
  | literal (quoted : Bool) (c : Char)
  | active (c : Char)
  deriving DecidableEq

inductive Token
  | word (pieces : List Piece)
  | operator (text : Text)
  deriving DecidableEq

inductive Context
  | single
  | double
  | backquote
  | braces
  | parens
  deriving DecidableEq

structure Reader where
  word : Option (List Piece)
  operator : Text
  stack : List Context
  escaped : Bool
  afterDollar : Bool
  comment : Bool
  deriving DecidableEq

def start : Reader where
  word := none
  operator := []
  stack := []
  escaped := false
  afterDollar := false
  comment := false

def operators : List Text :=
  ["&", "&&", "|", "||", ";", ";;", "<", "<<", "<<-", "<&", "<>", ">", ">>", ">&", ">|", "(", ")", "\n"].map
    String.toList

/-- What a character may do to the reader. -/
inductive Kind
  | backslash
  | singleQuote
  | doubleQuote
  | backquote
  | dollar
  | braceOpen
  | braceClose
  | parenOpen
  | parenClose
  | blank
  | newline
  | hash
  | tilde
  | operatorStart
  | ordinary
  deriving DecidableEq

def specialKinds : List (Char × Kind) :=
  [('\\', .backslash), ('\'', .singleQuote), ('"', .doubleQuote), ('\x60', .backquote), ('$', .dollar),
    ('\x7b', .braceOpen), ('\x7d', .braceClose), ('(', .parenOpen), (')', .parenClose), (' ', .blank),
    ('\t', .blank), ('\n', .newline), ('#', .hash), ('~', .tilde), ('&', .operatorStart), ('|', .operatorStart),
    (';', .operatorStart), ('<', .operatorStart), ('>', .operatorStart)]

def kind (c : Char) : Kind := (specialKinds.lookup c).getD .ordinary

def Context.isExpansion : Context → Bool
  | single => false
  | double => false
  | _ => true

namespace Reader

variable (s : Reader)

def inExpansion : Bool := s.stack.any Context.isExpansion

def settled : Reader := { s with escaped := false, afterDollar := false }

def put (piece : Piece) : Reader := { s.settled with word := some (s.word.getD [] ++ [piece]) }

def emit (quoted : Bool) (c : Char) : Reader := s.put (if s.inExpansion then .active c else .literal quoted c)

def mark (c : Char) : Reader :=
  if s.inExpansion then s.put (.active c) else { s.settled with word := some (s.word.getD []) }

def enter (context : Context) (c : Char) : Reader := { s with stack := context :: s.stack }.mark c

def leave (c : Char) : Reader := { s.mark c with stack := s.stack.tail }

def expand : Reader := { s.put (.active '$') with afterDollar := true }

def escape : Reader := { s.settled with escaped := true }

def wordTokens : List Token := (s.word.map Token.word).toList

def operatorTokens : List Token := if s.operator = [] then [] else [.operator s.operator]

def startOperator (c : Char) : Reader := { s.settled with word := none, operator := [c] }

def stepUnquoted (c : Char) : List Token × Reader :=
  if s.escaped then ([], if c = '\n' then s.settled else s.put (.literal true c))
  else
    match kind c with
    | .backslash => ([], s.escape)
    | .singleQuote => ([], s.enter .single c)
    | .doubleQuote => ([], s.enter .double c)
    | .backquote => ([], s.enter .backquote c)
    | .dollar => ([], s.expand)
    | .braceOpen => ([], if s.afterDollar then s.enter .braces c else s.put (.literal false c))
    | .parenOpen => if s.afterDollar then ([], s.enter .parens c) else (s.wordTokens, s.startOperator c)
    | .blank => (s.wordTokens, { s.settled with word := none })
    | .hash => ([], if s.word = none then { s.settled with comment := true } else s.put (.literal false c))
    | .tilde => ([], s.put (.active c))
    | .parenClose => (s.wordTokens, s.startOperator c)
    | .newline => (s.wordTokens, s.startOperator c)
    | .operatorStart => (s.wordTokens, s.startOperator c)
    | .braceClose => ([], s.put (.literal false c))
    | .ordinary => ([], s.put (.literal false c))

def stepSingle (c : Char) : Reader := if c = '\'' then s.leave c else s.emit true c

def stepDouble (c : Char) : Reader :=
  if s.escaped then
    match kind c with
    | .dollar => s.emit true c
    | .backquote => s.emit true c
    | .doubleQuote => s.emit true c
    | .backslash => s.emit true c
    | .newline => s.settled
    | _ => (s.emit true '\\').emit true c
  else
    match kind c with
    | .backslash => s.escape
    | .doubleQuote => s.leave c
    | .backquote => s.enter .backquote c
    | .dollar => s.expand
    | .braceOpen => if s.afterDollar then s.enter .braces c else s.emit true c
    | .parenOpen => if s.afterDollar then s.enter .parens c else s.emit true c
    | _ => s.emit true c

def stepExpansion (context : Context) (c : Char) : Reader :=
  if s.escaped then s.put (.active c)
  else
    match kind c with
    | .backslash => { s.put (.active c) with escaped := true }
    | .singleQuote => s.enter .single c
    | .doubleQuote => s.enter .double c
    | .backquote => if context = .backquote then s.leave c else s.enter .backquote c
    | .dollar => s.expand
    | .braceOpen => if s.afterDollar then s.enter .braces c else s.put (.active c)
    | .parenOpen => if s.afterDollar ∨ context = .parens then s.enter .parens c else s.put (.active c)
    | .braceClose => if context = .braces then s.leave c else s.put (.active c)
    | .parenClose => if context = .parens then s.leave c else s.put (.active c)
    | _ => s.put (.active c)

def step (c : Char) : List Token × Reader :=
  if s.comment then ([], if c = '\n' then { s with comment := false, operator := [c] } else s)
  else
    match s.stack with
    | [] =>
      if s.operator ≠ [] ∧ s.operator ++ [c] ∈ operators then ([], { s with operator := s.operator ++ [c] })
      else
        let (tokens, next) := { s with operator := [] }.stepUnquoted c
        (s.operatorTokens ++ tokens, next)
    | .single :: _ => ([], s.stepSingle c)
    | .double :: _ => ([], s.stepDouble c)
    | context :: _ => ([], s.stepExpansion context c)

def read (s : Reader) : Text → List Token × Reader
  | [] => ([], s)
  | c :: text => ((s.step c).1 ++ (read (s.step c).2 text).1, (read (s.step c).2 text).2)

def finish : Option (List Token) :=
  if s.stack = [] ∧ s.escaped = false then some (s.operatorTokens ++ s.wordTokens) else none

def readAll (text : Text) : Option (List Token) := (s.read text).2.finish.map ((s.read text).1 ++ ·)

end Reader

def lex (text : Text) : Option (List Token) := start.readAll text

def literalText? : List Piece → Option Text
  | [] => some []
  | .literal _ c :: pieces => (literalText? pieces).map (c :: ·)
  | .active _ :: _ => none

def assignment? : List Piece → Option (Text × List Piece)
  | .literal false c :: pieces =>
    if c = '=' then some ([], pieces) else (assignment? pieces).map fun (name, value) => (c :: name, value)
  | _ => none

def quotedText (text : Text) : List Piece := text.map (Piece.literal true)

theorem literalText?_append (a b : List Piece) :
    literalText? (a ++ b) = (literalText? a).bind fun front => (literalText? b).map (front ++ ·) := by
  induction a with
  | nil => simp [literalText?]
  | cons piece a ih =>
    cases piece with
    | literal quoted c =>
      rw [List.cons_append, literalText?, literalText?, ih]
      cases literalText? a <;> cases literalText? b <;> rfl
    | active c => rfl

@[simp] theorem literalText?_quotedText (text : Text) : literalText? (quotedText text) = some text := by
  induction text with
  | nil => rfl
  | cons c text ih => rw [quotedText, List.map_cons, literalText?, ← quotedText, ih, Option.map_some]

variable {value : List Piece}

theorem literalText?_concat {out : Text} (h : literalText? value = some out) (quoted : Bool) (c : Char) :
    literalText? (value ++ [.literal quoted c]) = some (out ++ [c]) := by
  rw [literalText?_append, h]
  rfl

theorem literalText?_concat_active (value : List Piece) (c : Char) : literalText? (value ++ [.active c]) = none := by
  rw [literalText?_append]
  cases literalText? value <;> rfl

theorem literalText?_append_none (h : literalText? value = none) (more : List Piece) : literalText? (value ++ more) = none := by
  rw [literalText?_append, h]
  rfl

namespace Reader

theorem read_append (s : Reader) (a b : Text) : s.read (a ++ b) = ((s.read a).1 ++ ((s.read a).2.read b).1, ((s.read a).2.read b).2) := by
  induction a generalizing s with
  | nil => rfl
  | cons c a ih =>
    rw [List.cons_append, read, ih, read]
    simp

theorem readAll_append (s : Reader) (a b : Text) : s.readAll (a ++ b) = ((s.read a).2.readAll b).map ((s.read a).1 ++ ·) := by
  rw [readAll, read_append, readAll, Option.map_map]
  congr 1
  funext tokens
  simp

variable {s : Reader}

theorem read_parts {middle final : Reader} {a b : Text} {x y : List Token} (ha : s.read a = (x, middle))
    (hb : middle.read b = (y, final)) : s.read (a ++ b) = (x ++ y, final) := by
  rw [read_append, ha, hb]

theorem readAll_parts {middle : Reader} {a b : Text} {x : List Token} (ha : s.read a = (x, middle)) :
    s.readAll (a ++ b) = (middle.readAll b).map (x ++ ·) := by
  rw [readAll_append, ha]

def quoting (pieces : List Piece) : Reader := { start with word := some pieces, stack := [.single] }

variable {text : Text}

theorem read_quoting (h : '\'' ∉ text) (pieces : List Piece) : (quoting pieces).read text = ([], quoting (pieces ++ quotedText text)) := by
  induction text generalizing pieces with
  | nil => simp [read, quotedText]
  | cons c text ih =>
    obtain ⟨hc, hText⟩ := not_or.mp (mt List.mem_cons.mpr h)
    have hStep : (quoting pieces).step c = ([], quoting (pieces ++ [.literal true c])) := by
      simp only [step, quoting, start, stepSingle, if_neg (Ne.symm hc)]
      rfl
    rw [read, hStep, ih hText]
    simp [quotedText]

variable (pieces : List Piece)

theorem read_requoted : (quoting pieces).read "'\"'\"'".toList = ([], quoting (pieces ++ [.literal true '\''])) := by
  rfl

theorem read_closing : (quoting pieces).read "'".toList = ([], { start with word := some pieces }) := by
  rfl

def doubleQuoting (pieces : List Piece) : Reader := { start with word := some pieces, stack := [.double] }

def plainInDouble (c : Char) : Bool := kind c ∉ [.backslash, .doubleQuote, .backquote, .dollar]

theorem read_doubleQuoting (h : ∀ c ∈ text, plainInDouble c = true) (pieces : List Piece) :
    (doubleQuoting pieces).read text = ([], doubleQuoting (pieces ++ quotedText text)) := by
  induction text generalizing pieces with
  | nil => simp [read, quotedText]
  | cons c text ih =>
    obtain ⟨hc, hText⟩ := List.forall_mem_cons.mp h
    have hStep : (doubleQuoting pieces).step c = ([], doubleQuoting (pieces ++ [.literal true c])) := by
      have hDouble : (doubleQuoting pieces).stepDouble c = (doubleQuoting pieces).emit true c := by
        rw [plainInDouble, decide_eq_true_eq] at hc
        unfold stepDouble
        generalize kind c = k at hc ⊢
        cases k <;> first | rfl | simp at hc
      exact congrArg (Prod.mk []) hDouble
    rw [read, hStep, ih hText]
    simp [quotedText]

theorem read_unquoted_dollar : (doubleQuoting pieces).read "\"$".toList =
    ([], { start with word := some (pieces ++ [.active '$']), afterDollar := true }) := rfl

structure Reading (w : List Piece) (s : Reader) : Prop where
  word : s.word = some w
  operator : s.operator = []
  comment : s.comment = false

theorem Reading.put {w : List Piece} (h : Reading w s) (piece : Piece) : Reading (w ++ [piece]) (s.put piece) :=
  ⟨by simp [Reader.put, h.word], h.operator, h.comment⟩

def Continues (w : List Piece) (out : List Token × Reader) : Prop := out.1 = [] ∧ ∃ more, Reading (w ++ more) out.2

theorem Reading.continues {w : List Piece} (h : Reading w s) : Continues w ([], s) := ⟨rfl, [], by rwa [List.append_nil]⟩

variable {w : List Piece} {s : Reader}

section

variable (h : Reading w s)
include h

theorem Reading.continues_put (piece : Piece) : Continues w ([], s.put piece) := ⟨rfl, [piece], h.put piece⟩

theorem Reading.continues_mark (c : Char) : Continues w ([], s.mark c) := by
  rw [mark]
  split
  · exact h.continues_put _
  · exact Reading.continues ⟨by simp [h.word], h.operator, h.comment⟩

theorem Reading.continues_enter (context : Context) (c : Char) : Continues w ([], s.enter context c) :=
  Reading.continues_mark (s := { s with stack := context :: s.stack }) ⟨h.word, h.operator, h.comment⟩ c

theorem Reading.continues_leave (c : Char) : Continues w ([], s.leave c) := by
  obtain ⟨-, more, hMore⟩ := h.continues_mark c
  exact ⟨rfl, more, hMore.word, hMore.operator, hMore.comment⟩

theorem Reading.settled : Reading w s.settled := ⟨h.word, h.operator, h.comment⟩

theorem Reading.escape : Reading w s.escape := ⟨h.word, h.operator, h.comment⟩

theorem Reading.continues_expand : Continues w ([], s.expand) := ⟨rfl, [.active '$'], (h.put _).word, h.operator, h.comment⟩

theorem Reading.continues_single (c : Char) : Continues w ([], s.stepSingle c) := by
  rw [stepSingle]
  split
  · exact h.continues_leave c
  · exact h.continues_put _

theorem Reading.continues_escaped (c : Char) : Continues w ([], (s.emit true '\\').emit true c) := by
  obtain ⟨-, more, hMore⟩ := (h.put (if s.inExpansion then .active '\\' else .literal true '\\')).continues_put
    (if (s.emit true '\\').inExpansion then .active c else .literal true c)
  exact ⟨rfl, _, by rw [← List.append_assoc]; exact hMore⟩

end

theorem Reading.continues_ite {condition : Prop} [Decidable condition] {a b : Reader} (ha : Continues w ([], a))
    (hb : Continues w ([], b)) : Continues w ([], if condition then a else b) := by
  split
  · exact ha
  · exact hb

theorem Reading.continues_double (h : Reading w s) (c : Char) : Continues w ([], s.stepDouble c) := by
  unfold stepDouble
  refine continues_ite ?_ ?_
  · cases kind c <;> first
      | exact h.settled.continues
      | exact h.continues_put _
      | exact h.continues_escaped c
  · cases kind c <;> first
      | exact h.escape.continues
      | exact h.continues_leave c
      | exact h.continues_enter _ c
      | exact h.continues_expand
      | exact h.continues_put _
      | exact continues_ite (h.continues_enter _ c) (h.continues_put _)

theorem Reading.continues_expansion (h : Reading w s) (context : Context) (c : Char) : Continues w ([], s.stepExpansion context c) := by
  unfold stepExpansion
  refine continues_ite (h.continues_put _) ?_
  cases kind c <;> first
    | exact ⟨rfl, [.active c], (h.put _).word, h.operator, h.comment⟩
    | exact h.continues_enter _ c
    | exact h.continues_expand
    | exact h.continues_put _
    | exact continues_ite (h.continues_leave c) (h.continues_enter _ c)
    | exact continues_ite (h.continues_enter _ c) (h.continues_put _)
    | exact continues_ite (h.continues_leave c) (h.continues_put _)

theorem step_of_unquoted {c : Char} (hComment : s.comment = false) (hStack : s.stack = []) (hOperator : s.operator = []) :
    s.step c = s.stepUnquoted c := by
  obtain ⟨word, operator, stack, escaped, afterDollar, comment⟩ := s
  subst hComment hStack hOperator
  rfl

theorem Reading.wordTokens (h : Reading w s) : s.wordTokens = [.word w] := by
  rw [Reader.wordTokens, h.word]
  rfl

theorem Reading.step_unquoted (h : Reading w s) (c : Char) : Continues w (s.stepUnquoted c) ∨
    (s.stepUnquoted c).1 = [.word w] ∧ s.escaped = false := by
  rw [stepUnquoted]
  split
  · exact .inl (continues_ite h.settled.continues (h.continues_put _))
  · rename_i hEscaped
    rw [Bool.not_eq_true] at hEscaped
    cases kind c with
    | backslash => exact .inl h.escape.continues
    | singleQuote => exact .inl (h.continues_enter _ c)
    | doubleQuote => exact .inl (h.continues_enter _ c)
    | backquote => exact .inl (h.continues_enter _ c)
    | dollar => exact .inl h.continues_expand
    | braceOpen => exact .inl (continues_ite (h.continues_enter _ c) (h.continues_put _))
    | parenOpen =>
      dsimp only
      split
      · exact .inl (h.continues_enter _ c)
      · exact .inr ⟨h.wordTokens, hEscaped⟩
    | blank => exact .inr ⟨h.wordTokens, hEscaped⟩
    | hash =>
      have hWord : ¬s.word = none := by simp [h.word]
      dsimp only
      rw [if_neg hWord]
      exact .inl (h.continues_put _)
    | tilde => exact .inl (h.continues_put _)
    | parenClose => exact .inr ⟨h.wordTokens, hEscaped⟩
    | newline => exact .inr ⟨h.wordTokens, hEscaped⟩
    | operatorStart => exact .inr ⟨h.wordTokens, hEscaped⟩
    | braceClose => exact .inl (h.continues_put _)
    | ordinary => exact .inl (h.continues_put _)

theorem Reading.step (h : Reading w s) (c : Char) : Continues w (s.step c) ∨ (s.step c).1 = [.word w] ∧ s.stack = [] ∧ s.escaped = false := by
  cases hStack : s.stack with
  | nil =>
    rw [step_of_unquoted h.comment hStack h.operator]
    exact (h.step_unquoted c).imp_right fun hEnd => ⟨hEnd.1, rfl, hEnd.2⟩
  | cons context rest =>
    left
    rw [Reader.step, h.comment, if_neg (by decide), hStack]
    cases context with
    | single => exact h.continues_single c
    | double => exact h.continues_double c
    | backquote => exact h.continues_expansion .backquote c
    | braces => exact h.continues_expansion .braces c
    | parens => exact h.continues_expansion .parens c

variable {tokens : List Token}

theorem Reading.readAll (h : Reading w s) (hRead : s.readAll text = some tokens) : ∃ more rest, tokens = .word (w ++ more) :: rest := by
  induction text generalizing w s tokens with
  | nil =>
    rw [Reader.readAll, read, finish] at hRead
    split at hRead
    · rw [h.wordTokens, operatorTokens, if_pos h.operator] at hRead
      cases hRead
      exact ⟨[], [], by simp⟩
    · cases hRead
  | cons c text ih =>
    have hSplit := readAll_append s [c] text
    rw [List.singleton_append, hRead] at hSplit
    obtain ⟨later, hLater, hTokens⟩ := Option.map_eq_some_iff.mp hSplit.symm
    simp only [read, List.append_nil] at hTokens hLater
    obtain ⟨hQuiet, more, hMore⟩ | ⟨hEnd, -, -⟩ := h.step c
    · obtain ⟨further, rest, rfl⟩ := ih hMore hLater
      exact ⟨more ++ further, rest, by rw [← hTokens, hQuiet]; simp⟩
    · exact ⟨[], later, by rw [← hTokens, hEnd]; simp⟩

def Balanced (raw out : Text) : List Context → Bool → Prop
  | [], false => (out = raw ∧ '\'' ∉ raw) ∨ out.length < raw.length
  | [], true => out.length < raw.length
  | [.single], false => out.length < raw.length
  | [.double], false => out.length < raw.length
  | [.double], true => out.length + 1 < raw.length
  | _, _ => False

def Valued (raw : Text) (base : List Piece) (s : Reader) : Prop :=
  ∃ value, Reading (base ++ value) s ∧ (literalText? value = none ∨
    ∃ out, literalText? value = some out ∧ s.afterDollar = false ∧ Balanced raw out s.stack s.escaped)

def Outcome (raw : Text) (base : List Piece) (c : Char) (result : List Token × Reader) : Prop :=
  (result.1 = [] ∧ Valued (raw ++ [c]) base result.2) ∨
    ∃ value, result.1 = [.word (base ++ value)] ∧ ∀ out, literalText? value = some out → out.length ≤ raw.length

section Values

variable {raw : Text} {base value : List Piece} {out : Text} {c : Char}

theorem outcome_active (value : List Piece) (c : Char) (h : Reading (base ++ (value ++ [.active c])) s) {d : Char} :
    Outcome raw base d ([], s) := .inl ⟨rfl, _, h, .inl (literalText?_concat_active value c)⟩

section

variable (h : Reading (base ++ value) s)
include h

theorem outcome_kept (hValue : literalText? value = some out) (hDollar : s.afterDollar = false) {d : Char}
    (hBalanced : Balanced (raw ++ [d]) out s.stack s.escaped) : Outcome raw base d ([], s) :=
  .inl ⟨rfl, value, h, .inr ⟨out, hValue, hDollar, hBalanced⟩⟩

theorem outcome_put (hValue : literalText? value = some out) {quoted : Bool} (hBalanced : Balanced (raw ++ [c]) (out ++ [c]) s.stack false) :
    Outcome raw base c ([], s.put (.literal quoted c)) :=
  .inl ⟨rfl, value ++ [.literal quoted c], by rw [← List.append_assoc]; exact h.put _,
    .inr ⟨_, literalText?_concat hValue quoted c, rfl, hBalanced⟩⟩

theorem outcome_enter_quote (hValue : literalText? value = some out) {context : Context}
    (hStack : (context :: s.stack).any Context.isExpansion = false) (hBalanced : Balanced (raw ++ [c]) out (context :: s.stack) false) :
    Outcome raw base c ([], s.enter context c) := by
  have hEnter : s.enter context c = { { s with stack := context :: s.stack }.settled with word := s.word } := by
    rw [enter, mark, inExpansion, hStack, h.word]
    rfl
  rw [hEnter]
  refine outcome_kept ?_ hValue rfl hBalanced
  exact ⟨h.word, h.operator, h.comment⟩

theorem outcome_enter_expansion {context : Context} (hContext : context.isExpansion = true) : Outcome raw base c ([], s.enter context c) := by
  have hEnter : s.enter context c = { s with stack := context :: s.stack }.put (.active c) := by
    rw [enter, mark, inExpansion, if_pos (by simp [hContext])]
  rw [hEnter]
  refine outcome_active value c ?_
  rw [← List.append_assoc]
  refine Reading.put ?_ _
  exact ⟨h.word, h.operator, h.comment⟩

theorem outcome_expand : Outcome raw base c ([], s.expand) := by
  refine outcome_active value '$' ?_
  rw [← List.append_assoc]
  exact ⟨(h.put _).word, h.operator, h.comment⟩

theorem outcome_leave (hValue : literalText? value = some out) (hStack : s.inExpansion = false) (hTail : s.stack.tail = [])
    (hLength : out.length < raw.length) : Outcome raw base c ([], s.leave c) := by
  have hLeave : s.leave c = { s.settled with stack := [], word := s.word } := by
    rw [leave, mark, hStack, hTail, h.word]
    rfl
  rw [hLeave]
  refine outcome_kept ?_ hValue rfl ?_
  · exact ⟨h.word, h.operator, h.comment⟩
  · exact show _ ∨ out.length < (raw ++ [c]).length from .inr (by simp; omega)

end

theorem length_le_of_balanced (h : Balanced raw out [] false) : out.length ≤ raw.length := by
  obtain ⟨rfl, -⟩ | hLength := h
  · exact le_rfl
  · omega

theorem outcome_end (h : Reading (base ++ value) s) (hValue : literalText? value = some out)
    (hLength : out.length ≤ raw.length) (next : Reader) : Outcome raw base c (s.wordTokens, next) := by
  refine .inr ⟨value, h.wordTokens, fun other hOther => ?_⟩
  rw [hValue, Option.some.injEq] at hOther
  rw [← hOther]
  exact hLength

theorem kind_quote (h : kind c ≠ .singleQuote) : c ≠ '\'' := by
  rintro rfl
  exact h rfl

theorem outcome_kept_unquoted (h : Reading (base ++ value) s) (hValue : literalText? value = some out)
    (hStack : s.stack = []) (hBalanced : Balanced raw out [] false) (hQuote : c ≠ '\'') (quoted : Bool) :
    Outcome raw base c ([], s.put (.literal quoted c)) := by
  refine outcome_put h hValue (hStack ▸ ?_)
  obtain ⟨rfl, hNoQuote⟩ | hShort := hBalanced
  · exact .inl ⟨rfl, by simpa [hNoQuote] using Ne.symm hQuote⟩
  · exact .inr (by simp; omega)

theorem outcome_unquoted (h : Reading (base ++ value) s) (hValue : literalText? value = some out)
    (hDollar : s.afterDollar = false) (hStack : s.stack = []) (hBalanced : Balanced raw out [] s.escaped) :
    Outcome raw base c (s.stepUnquoted c) := by
  rw [stepUnquoted]
  split
  · rename_i hEscaped
    rw [hEscaped] at hBalanced
    have hLength : out.length < raw.length := hBalanced
    split
    · refine outcome_kept h.settled hValue rfl ?_
      rw [show s.settled.stack = [] from hStack]
      exact .inr (by simp; omega)
    · exact outcome_put h hValue (hStack ▸ .inr (by simp; omega))
  · rename_i hEscaped
    rw [Bool.not_eq_true] at hEscaped
    rw [hEscaped] at hBalanced
    have hLength := length_le_of_balanced hBalanced
    have hLonger : out.length < (raw ++ [c]).length := by
      simp
      omega
    have hKept := fun hQuote : c ≠ '\'' => outcome_kept_unquoted h hValue hStack hBalanced hQuote false
    rw [hDollar]
    cases hKind : kind c with
    | backslash =>
      refine outcome_kept h.escape hValue rfl ?_
      rw [show s.escape.stack = [] from hStack]
      exact hLonger
    | singleQuote =>
      refine outcome_enter_quote h hValue (by rw [hStack]; rfl) ?_
      rw [hStack]
      exact hLonger
    | doubleQuote =>
      refine outcome_enter_quote h hValue (by rw [hStack]; rfl) ?_
      rw [hStack]
      exact hLonger
    | backquote => exact outcome_enter_expansion h rfl
    | dollar => exact outcome_expand h
    | braceOpen => exact hKept (kind_quote (by rw [hKind]; decide))
    | parenOpen => exact outcome_end h hValue hLength _
    | blank => exact outcome_end h hValue hLength _
    | hash =>
      have hWord : ¬s.word = none := by simp [h.word]
      dsimp only
      rw [if_neg hWord]
      exact hKept (kind_quote (by rw [hKind]; decide))
    | tilde =>
      refine outcome_active value c ?_
      rw [← List.append_assoc]
      exact h.put _
    | parenClose => exact outcome_end h hValue hLength _
    | newline => exact outcome_end h hValue hLength _
    | operatorStart => exact outcome_end h hValue hLength _
    | braceClose => exact hKept (kind_quote (by rw [hKind]; decide))
    | ordinary => exact hKept (kind_quote (by rw [hKind]; decide))

theorem emit_of_literal (h : s.inExpansion = false) (quoted : Bool) (c : Char) : s.emit quoted c = s.put (.literal quoted c) := by
  rw [emit, h]
  rfl

theorem outcome_single (h : Reading (base ++ value) s) (hValue : literalText? value = some out)
    (hStack : s.stack = [.single]) (hLength : out.length < raw.length) : Outcome raw base c ([], s.stepSingle c) := by
  have hExpansion : s.inExpansion = false := by rw [inExpansion, hStack]; rfl
  rw [stepSingle]
  split
  · exact outcome_leave h hValue hExpansion (by rw [hStack]; rfl) hLength
  · rw [emit_of_literal hExpansion]
    refine outcome_put h hValue ?_
    rw [hStack]
    exact show (out ++ [c]).length < (raw ++ [c]).length by simp; omega

theorem outcome_double (h : Reading (base ++ value) s) (hValue : literalText? value = some out)
    (hDollar : s.afterDollar = false) (hStack : s.stack = [.double]) (hBalanced : Balanced raw out [.double] s.escaped) :
    Outcome raw base c ([], s.stepDouble c) := by
  have hExpansion : s.inExpansion = false := by rw [inExpansion, hStack]; rfl
  have hPut : ∀ quoted, out.length < raw.length → Outcome raw base c ([], s.put (.literal quoted c)) := by
    intro quoted hLength
    refine outcome_put h hValue ?_
    rw [hStack]
    exact show (out ++ [c]).length < (raw ++ [c]).length by simp; omega
  rw [stepDouble, hDollar]
  split
  · rename_i hEscaped
    rw [hEscaped] at hBalanced
    have hLength : out.length + 1 < raw.length := hBalanced
    have hTwo : Outcome raw base c ([], (s.emit true '\\').emit true c) := by
      rw [emit_of_literal hExpansion, emit_of_literal (show (s.put _).inExpansion = false from hExpansion)]
      refine outcome_put ?_ (literalText?_concat hValue true '\\') ?_
      · rw [← List.append_assoc]
        exact h.put _
      · rw [show (s.put (.literal true '\\')).stack = [.double] from hStack]
        exact show (out ++ ['\\'] ++ [c]).length < (raw ++ [c]).length by simp; omega
    have hOne : Outcome raw base c ([], s.emit true c) := emit_of_literal hExpansion true c ▸ hPut true (by omega)
    have hNone : Outcome raw base c ([], s.settled) := by
      refine outcome_kept h.settled hValue rfl ?_
      rw [show s.settled.stack = [.double] from hStack]
      exact show out.length < (raw ++ [c]).length by simp; omega
    cases kind c <;> first | exact hTwo | exact hOne | exact hNone
  · rename_i hEscaped
    rw [Bool.not_eq_true] at hEscaped
    rw [hEscaped] at hBalanced
    have hLength : out.length < raw.length := hBalanced
    have hOne : Outcome raw base c ([], s.emit true c) := emit_of_literal hExpansion true c ▸ hPut true hLength
    cases kind c with
    | backslash =>
      refine outcome_kept h.escape hValue rfl ?_
      rw [show s.escape.stack = [.double] from hStack]
      exact show out.length + 1 < (raw ++ [c]).length by simp; omega
    | doubleQuote => exact outcome_leave h hValue hExpansion (by rw [hStack]; rfl) hLength
    | backquote => exact outcome_enter_expansion h rfl
    | dollar => exact outcome_expand h
    | _ => exact hOne

theorem Valued.step (h : Valued raw base s) (c : Char) : Outcome raw base c (s.step c) := by
  obtain ⟨value, hReading, hNone | ⟨out, hValue, hDollar, hBalanced⟩⟩ := h
  · obtain ⟨hQuiet, more, hMore⟩ | ⟨hEnd, -, -⟩ := hReading.step c
    · exact .inl ⟨hQuiet, value ++ more, by rwa [← List.append_assoc], .inl (literalText?_append_none hNone more)⟩
    · exact .inr ⟨value, hEnd, fun out hOut => by rw [hNone] at hOut; cases hOut⟩
  · cases hStack : s.stack with
    | nil =>
      rw [step_of_unquoted hReading.comment hStack hReading.operator]
      exact outcome_unquoted hReading hValue hDollar hStack (hStack ▸ hBalanced)
    | cons context rest =>
      rw [hStack] at hBalanced
      rw [Reader.step, hReading.comment, if_neg (by decide), hStack]
      cases context with
      | single =>
        cases rest with
        | nil =>
          cases hEscaped : s.escaped with
          | false =>
            rw [hEscaped] at hBalanced
            exact outcome_single hReading hValue hStack hBalanced
          | true =>
            rw [hEscaped] at hBalanced
            exact hBalanced.elim
        | cons => exact hBalanced.elim
      | double =>
        cases rest with
        | nil => exact outcome_double hReading hValue hDollar hStack hBalanced
        | cons =>
          cases hEscaped : s.escaped <;> rw [hEscaped] at hBalanced <;> exact hBalanced.elim
      | backquote => exact hBalanced.elim
      | braces => exact hBalanced.elim
      | parens => exact hBalanced.elim

theorem Valued.read (h : Valued raw base s) (text : Text) : ((s.read text).1 = [] ∧ Valued (raw ++ text) base (s.read text).2) ∨
      ∃ value rest, (s.read text).1 = .word (base ++ value) :: rest ∧
        ∀ out, literalText? value = some out → out.length < raw.length + text.length := by
  induction text generalizing raw s with
  | nil => exact .inl ⟨rfl, by rwa [List.append_nil]⟩
  | cons c text ih =>
    rw [Reader.read, List.length_cons]
    obtain ⟨hQuiet, hNext⟩ | ⟨value, hEnd, hLength⟩ := h.step c
    · rw [hQuiet, List.nil_append]
      obtain ⟨hRest, hValued⟩ | ⟨value, rest, hEnd, hLength⟩ := ih hNext
      · exact .inl ⟨hRest, by rwa [List.append_assoc] at hValued⟩
      · refine .inr ⟨value, rest, hEnd, fun out hOut => ?_⟩
        have := hLength out hOut
        rw [List.length_append, List.length_singleton] at this
        omega
    · refine .inr ⟨value, _, by rw [hEnd, List.singleton_append], fun out hOut => ?_⟩
      have := hLength out hOut
      omega

end Values

theorem escaped_mark (r : Reader) (c : Char) : (r.mark c).escaped = false := by
  rw [mark]
  split <;> rfl

theorem Reading.escaped_step_quote (h : Reading w s) : (s.step '\'').2.escaped = false := by
  obtain ⟨word, operator, stack, escaped, afterDollar, comment⟩ := s
  obtain ⟨rfl, rfl, rfl⟩ := h
  cases stack with
  | nil =>
    rw [step_of_unquoted rfl rfl rfl]
    cases escaped <;> cases afterDollar
    · exact escaped_mark _ _
    · exact escaped_mark _ _
    · rfl
    · rfl
  | cons context rest =>
    cases context with
    | single => exact escaped_mark _ _
    | double => cases escaped <;> cases afterDollar <;> rfl
    | backquote => cases escaped <;> first | exact escaped_mark _ _ | rfl
    | braces => cases escaped <;> first | exact escaped_mark _ _ | rfl
    | parens => cases escaped <;> first | exact escaped_mark _ _ | rfl

structure Trailer (tail : Text) : Prop where
  separates : ∀ {w : List Piece} {s : Reader}, Reading w s → s.stack = [] → s.escaped = false →
    ∃ rest, (s.read tail).1 = .word w :: rest
  no_quote : '\'' ∉ tail
  expands : ∃ front back, tail = front ++ back ∧ ∀ w, ∃ more s,
    ({ start with word := some w, stack := [.double] } : Reader).read front = ([], s) ∧ Reading (w ++ more) s ∧
      literalText? more = none

theorem quote_stays_open {tail : Text} (hTail : Trailer tail) {base : List Piece} {y out : Text}
    (hReading : Reading (base ++ value) s) (hDollar : s.afterDollar = false) (hEscaped : s.escaped = false)
    (hBalanced : Balanced (y ++ ['\'']) out s.stack false) (hOut : literalText? value = some out) (hRead : s.readAll tail = some tokens)
    (hRest : ∀ value' rest, tokens = .word (base ++ value') :: rest → literalText? value' = some ('\'' :: y))
    (hNotActive : ∀ more rest, tokens = .word (base ++ value ++ more) :: rest → literalText? (value ++ more) ≠ none) : False := by
  have hSame : ∀ context, s.stack = [context] →
      s = { start with word := some (base ++ value), stack := [context] } := by
    intro context hStack
    obtain ⟨word, operator, stack, escaped, afterDollar, comment⟩ := s
    obtain ⟨rfl, rfl, rfl⟩ := hReading
    cases hStack
    cases hDollar
    cases hEscaped
    rfl
  cases hStack : s.stack with
  | nil =>
    rw [hStack] at hBalanced
    obtain ⟨-, hNoQuote⟩ | hShort := hBalanced
    · exact hNoQuote (by simp)
    · obtain ⟨rest, hEnd⟩ := hTail.separates hReading hStack hEscaped
      rw [readAll, Option.map_eq_some_iff] at hRead
      obtain ⟨later, -, rfl⟩ := hRead
      have hValue := hRest value (rest ++ later) (by rw [hEnd]; rfl)
      rw [hOut, Option.some.injEq] at hValue
      rw [hValue] at hShort
      simp at hShort
  | cons context others =>
    rw [hStack] at hBalanced
    cases others with
    | cons => cases context <;> exact hBalanced.elim
    | nil =>
      cases context with
      | single =>
        have hOpen : s = quoting (base ++ value) := hSame .single hStack
        rw [hOpen, readAll, read_quoting hTail.no_quote] at hRead
        cases hRead
      | double =>
        obtain ⟨front, back, rfl, hExpands⟩ := hTail.expands
        obtain ⟨more, s', hFront, hMore, hNone⟩ := hExpands (base ++ value)
        rw [hSame .double hStack, readAll_append, hFront, Option.map_eq_some_iff] at hRead
        obtain ⟨later, hLater, rfl⟩ := hRead
        obtain ⟨further, rest, rfl⟩ := hMore.readAll hLater
        refine hNotActive (more ++ further) rest (by simp) ?_
        rw [literalText?_append, literalText?_append_none hNone, Option.bind_eq_none_iff]
        exact fun _ _ => rfl
      | backquote => exact hBalanced.elim
      | braces => exact hBalanced.elim
      | parens => exact hBalanced.elim

theorem quote_changes_value {tail : Text} (hQuote : '\'' ∈ text) (hTail : Trailer tail) (base : List Piece)
    (hRead : (quoting base).readAll (text ++ '\'' :: tail) = some tokens) {rest : List Token}
    (hTokens : tokens = .word (base ++ value) :: rest) : literalText? value ≠ some text := by
  obtain ⟨x, y, rfl, hx⟩ := List.eq_append_cons_of_mem hQuote
  intro hValue
  have hFront : (quoting base).read (x ++ ['\'']) = ([], { start with word := some (base ++ quotedText x) }) := by
    rw [read_append, read_quoting hx]
    rfl
  have hSplit : x ++ '\'' :: y ++ '\'' :: tail = (x ++ ['\'']) ++ ((y ++ ['\'']) ++ tail) := by simp
  rw [hSplit, readAll_append, hFront, Option.map_eq_some_iff] at hRead
  obtain ⟨later, hLater, rfl⟩ := hRead
  rw [List.nil_append] at hTokens
  have hRest : ∀ value' rest', later = .word (base ++ quotedText x ++ value') :: rest' →
      literalText? value' = some ('\'' :: y) := by
    rintro value' rest' rfl
    rw [List.cons.injEq, Token.word.injEq, List.append_assoc, List.append_right_inj] at hTokens
    rw [← hTokens.1, literalText?_append, literalText?_quotedText, Option.bind_some, Option.map_eq_some_iff] at hValue
    obtain ⟨out, hOut, hSame⟩ := hValue
    rw [hOut, List.append_cancel_left hSame]
  have hStart : Valued [] (base ++ quotedText x) { start with word := some (base ++ quotedText x) } :=
    ⟨[], ⟨by rw [List.append_nil], rfl, rfl⟩, .inr ⟨[], rfl, rfl, .inl ⟨rfl, List.not_mem_nil⟩⟩⟩
  rw [readAll_append, Option.map_eq_some_iff] at hLater
  obtain ⟨last, hLast, rfl⟩ := hLater
  obtain ⟨hQuiet, hValued⟩ | ⟨value', rest', hEnd, hLength⟩ := hStart.read (y ++ ['\''])
  · rw [hQuiet, List.nil_append] at hRest
    rw [List.nil_append] at hValued
    have hEscaped : (Reader.read { start with word := some (base ++ quotedText x) } (y ++ ['\''])).2.escaped = false := by
      rw [read_append] at hQuiet ⊢
      obtain ⟨hFirst, -⟩ := List.append_eq_nil_iff.mp hQuiet
      obtain ⟨-, value', hReading, -⟩ | ⟨value', rest', hEnd, -⟩ := hStart.read y
      · exact hReading.escaped_step_quote
      · rw [hFirst] at hEnd
        cases hEnd
    generalize (Reader.read { start with word := some (base ++ quotedText x) } (y ++ ['\''])).2 = s at *
    obtain ⟨value', hReading, hActive⟩ := hValued
    have hNotActive : ∀ more rest', last = .word (base ++ quotedText x ++ value' ++ more) :: rest' →
        literalText? (value' ++ more) ≠ none := by
      rintro more rest' rfl hNone
      rw [hRest (value' ++ more) rest' (by simp)] at hNone
      cases hNone
    obtain hNone | ⟨out, hOut, hDollar, hBalanced⟩ := hActive
    · obtain ⟨more, rest', rfl⟩ := hReading.readAll hLast
      exact hNotActive more rest' rfl (literalText?_append_none hNone more)
    · rw [hEscaped] at hBalanced
      exact quote_stays_open hTail hReading hDollar hEscaped hBalanced hOut hLast hRest hNotActive
  · have hShort := hLength _ (hRest value' _ (by rw [hEnd]; rfl))
    simp at hShort

end Reader

end Library.Shell
