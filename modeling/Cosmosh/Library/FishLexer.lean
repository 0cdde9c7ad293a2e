import Cosmosh.Library.ShellLexer

/-! # Token recognition of fish

The reader is that of a POSIX shell with other rules for its characters.
-/

namespace Library.Fish

open Library Library.Shell Library.Shell.Reader

section

variable (s : Reader)

def emitBoth (c : Char) : Reader := (s.emit true '\\').emit true c

def stepSingle (c : Char) : Reader :=
  if s.escaped then if c = '\'' ∨ c = '\\' then s.emit true c else emitBoth s c
  else if c = '\\' then s.escape
  else if c = '\'' then s.leave c
  else s.emit true c

def stepDouble (c : Char) : Reader :=
  if s.escaped then
    match kind c with
    | .dollar => s.emit true c
    | .doubleQuote => s.emit true c
    | .backslash => s.emit true c
    | .newline => s.settled
    | _ => emitBoth s c
  else
    match kind c with
    | .backslash => s.escape
    | .doubleQuote => s.leave c
    | .dollar => s.expand
    | .parenOpen => if s.afterDollar then s.enter .parens c else s.emit true c
    | _ => s.emit true c

def stepEscaped (c : Char) : Reader :=
  if c = '\n' then s.settled
  else if c.isAlphanum then (s.put (.active '\\')).put (.active c)
  else s.put (.literal true c)

def stepUnquoted (c : Char) : List Token × Reader :=
  if s.escaped then ([], stepEscaped s c)
  else
    match kind c with
    | .backslash => ([], s.escape)
    | .singleQuote => ([], s.enter .single c)
    | .doubleQuote => ([], s.enter .double c)
    | .dollar => ([], s.expand)
    | .parenOpen => ([], s.enter .parens c)
    | .blank => (s.wordTokens, { s.settled with word := none })
    | .hash => ([], if s.word = none then { s.settled with comment := true } else s.put (.literal false c))
    | .tilde => ([], s.put (.active c))
    | .parenClose => (s.wordTokens, s.startOperator c)
    | .newline => (s.wordTokens, s.startOperator c)
    | .operatorStart => (s.wordTokens, s.startOperator c)
    | _ => ([], s.put (.literal false c))

def stepParens (c : Char) : Reader :=
  if s.escaped then s.put (.active c)
  else
    match kind c with
    | .backslash => { s.put (.active c) with escaped := true }
    | .singleQuote => s.enter .single c
    | .doubleQuote => s.enter .double c
    | .dollar => s.expand
    | .parenOpen => s.enter .parens c
    | .parenClose => s.leave c
    | _ => s.put (.active c)

def step (c : Char) : List Token × Reader :=
  if s.comment then ([], if c = '\n' then { s with comment := false, operator := [c] } else s)
  else
    match s.stack with
    | [] =>
      if s.operator ≠ [] ∧ s.operator ++ [c] ∈ operators then ([], { s with operator := s.operator ++ [c] })
      else
        let (tokens, next) := stepUnquoted { s with operator := [] } c
        (s.operatorTokens ++ tokens, next)
    | .single :: _ => ([], stepSingle s c)
    | .double :: _ => ([], stepDouble s c)
    | _ :: _ => ([], stepParens s c)

end

def read (s : Reader) : Text → List Token × Reader
  | [] => ([], s)
  | c :: text => ((step s c).1 ++ (read (step s c).2 text).1, (read (step s c).2 text).2)

def readAll (s : Reader) (text : Text) : Option (List Token) := (read s text).2.finish.map ((read s text).1 ++ ·)

def lex (text : Text) : Option (List Token) := readAll start text

theorem read_append (s : Reader) (a b : Text) : read s (a ++ b) = ((read s a).1 ++ (read (read s a).2 b).1, (read (read s a).2 b).2) := by
  induction a generalizing s with
  | nil => rfl
  | cons c a ih =>
    rw [List.cons_append, read, ih, read]
    simp

theorem read_parts {s middle final : Reader} {a b : Text} {x y : List Token} (ha : read s a = (x, middle))
    (hb : read middle b = (y, final)) : read s (a ++ b) = (x ++ y, final) := by
  rw [read_append, ha, hb]

theorem readAll_parts {s middle : Reader} {a b : Text} {x : List Token} (ha : read s a = (x, middle)) :
    readAll s (a ++ b) = (readAll middle b).map (x ++ ·) := by
  rw [readAll, read_append, ha, readAll, Option.map_map]
  congr 1
  funext tokens
  simp

variable {w : List Piece} {s : Reader}

section

variable (h : Reading w s) (c : Char)
include h

theorem continues_both : Continues w ([], emitBoth s c) := h.continues_escaped c

theorem continues_single : Continues w ([], stepSingle s c) := by
  rw [stepSingle]
  exact Reading.continues_ite (Reading.continues_ite (h.continues_put _) (continues_both h c))
    (Reading.continues_ite h.escape.continues (Reading.continues_ite (h.continues_leave c) (h.continues_put _)))

theorem continues_double : Continues w ([], stepDouble s c) := by
  unfold stepDouble
  refine Reading.continues_ite ?_ ?_
  · cases kind c <;> first
      | exact h.settled.continues
      | exact h.continues_put _
      | exact continues_both h c
  · cases kind c <;> first
      | exact h.escape.continues
      | exact h.continues_leave c
      | exact h.continues_expand
      | exact h.continues_put _
      | exact Reading.continues_ite (h.continues_enter _ c) (h.continues_put _)

theorem continues_parens : Continues w ([], stepParens s c) := by
  unfold stepParens
  refine Reading.continues_ite (h.continues_put _) ?_
  cases kind c <;> first
    | exact ⟨rfl, [.active c], (h.put _).word, h.operator, h.comment⟩
    | exact h.continues_enter _ c
    | exact h.continues_leave c
    | exact h.continues_expand

theorem continues_stepEscaped : Continues w ([], stepEscaped s c) := by
  rw [stepEscaped]
  refine Reading.continues_ite h.settled.continues (Reading.continues_ite ?_ (h.continues_put _))
  exact ⟨rfl, [.active '\\'] ++ [.active c], by rw [← List.append_assoc]; exact (h.put _).put _⟩

theorem step_unquoted : Continues w (stepUnquoted s c) ∨ (stepUnquoted s c).1 = [.word w] := by
  rw [stepUnquoted]
  split
  · exact .inl (continues_stepEscaped h c)
  · have hWord : ¬ s.word = none := by simp [h.word]
    rw [if_neg hWord]
    cases kind c <;> first
      | exact .inr h.wordTokens
      | exact .inl h.escape.continues
      | exact .inl (h.continues_enter _ c)
      | exact .inl h.continues_expand
      | exact .inl (h.continues_put _)

end

theorem step_of_unquoted {c : Char} (hComment : s.comment = false) (hStack : s.stack = []) (hOperator : s.operator = []) :
    step s c = stepUnquoted s c := by
  obtain ⟨word, operator, stack, escaped, afterDollar, comment⟩ := s
  subst hComment hStack hOperator
  rfl

theorem step_reading (h : Reading w s) (c : Char) : Continues w (step s c) ∨ (step s c).1 = [.word w] := by
  cases hStack : s.stack with
  | nil =>
    rw [step_of_unquoted h.comment hStack h.operator]
    exact step_unquoted h c
  | cons context rest =>
    rw [step, h.comment, if_neg (by decide), hStack]
    cases context with
    | single => exact .inl (continues_single h c)
    | double => exact .inl (continues_double h c)
    | backquote => exact .inl (continues_parens h c)
    | braces => exact .inl (continues_parens h c)
    | parens => exact .inl (continues_parens h c)

theorem readAll_reading (h : Reading w s) {text : Text} {tokens : List Token} (hRead : readAll s text = some tokens) :
    ∃ more rest, tokens = .word (w ++ more) :: rest := by
  induction text generalizing w s tokens with
  | nil =>
    rw [readAll, read, finish] at hRead
    split at hRead
    · rw [h.wordTokens, operatorTokens, if_pos h.operator] at hRead
      cases hRead
      exact ⟨[], [], by simp⟩
    · cases hRead
  | cons c text ih =>
    have hFirst : read s [c] = ((step s c).1, (step s c).2) := by rw [read, read, List.append_nil]
    rw [show c :: text = [c] ++ text from rfl, readAll_parts hFirst, Option.map_eq_some_iff] at hRead
    obtain ⟨later, hLater, rfl⟩ := hRead
    obtain ⟨hQuiet, more, hMore⟩ | hEnd := step_reading h c
    · obtain ⟨further, rest, rfl⟩ := ih hMore hLater
      exact ⟨more ++ further, rest, by rw [hQuiet]; simp⟩
    · exact ⟨[], later, by rw [hEnd]; simp⟩

end Library.Fish
