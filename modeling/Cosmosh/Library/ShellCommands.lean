import Cosmosh.Library.PosixPath
import Cosmosh.Library.ShellLexer

/-! # What a few commands of a shell do

A session is the search path and the files that were sourced.
-/

namespace Library.Shell

open Library

inductive Part
  | plain (text : Text)
  | quoted (text : Text)
  | parameter (name : Text)
  | active (text : Text)

abbrev Word := List Part

def plainText (text : Text) : List Piece := text.map (Piece.literal false)

def Part.pieces : Part → List Piece
  | plain text => plainText text
  | quoted text => quotedText text
  | parameter name => .active '$' :: plainText name
  | active text => text.map Piece.active

def wordToken (word : Word) : Token := .word (word.flatMap Part.pieces)

def keyword (name : Text) : Token := .word (plainText name)

def PATH : Text := ['P', 'A', 'T', 'H']

def Part.value (path : Text) : Part → Option Text
  | plain text => some text
  | quoted text => some text
  | parameter name => if name = PATH then some path else none
  | active _ => none

def expand (path : Text) : Word → Option Text
  | [] => some []
  | part :: word => do return (← part.value path) ++ (← expand path word)

inductive PatternItem
  | exact (c : Char)
  | any

def Part.pattern : Part → Option (List PatternItem)
  | plain text => some (text.map fun c => if c = '*' then .any else .exact c)
  | quoted text => some (text.map .exact)
  | _ => none

def wordPattern : Word → Option (List PatternItem)
  | [] => some []
  | part :: word => do return (← part.pattern) ++ (← wordPattern word)

def matchesPattern : List PatternItem → Text → Bool
  | [], text => text = []
  | .exact _ :: _, [] => false
  | .exact c :: items, d :: text => c = d && matchesPattern items text
  | .any :: items, text => text.tails.any (matchesPattern items)

theorem matchesPattern_exact (items : List PatternItem) (t text : Text) :
    matchesPattern (t.map .exact ++ items) text = true ↔ ∃ rest, text = t ++ rest ∧ matchesPattern items rest = true := by
  induction t generalizing text with
  | nil => exact ⟨fun h => ⟨text, rfl, h⟩, fun ⟨rest, hText, h⟩ => hText ▸ h⟩
  | cons c t ih =>
    cases text with
    | nil => simp [matchesPattern]
    | cons d text =>
      rw [List.map_cons, List.cons_append, matchesPattern, Bool.and_eq_true, decide_eq_true_eq, ih]
      constructor
      · rintro ⟨rfl, rest, rfl, h⟩
        exact ⟨rest, rfl, h⟩
      · rintro ⟨rest, hText, h⟩
        obtain ⟨rfl, rfl⟩ := List.cons.inj hText
        exact ⟨rfl, rest, rfl, h⟩

theorem matchesPattern_any (items : List PatternItem) (text : Text) :
    matchesPattern (.any :: items) text = true ↔ ∃ rest, rest <:+ text ∧ matchesPattern items rest = true := by
  rw [matchesPattern, List.any_eq_true]
  exact exists_congr fun rest => and_congr_left' (List.mem_tails rest text)

theorem matchesPattern_all (text : Text) : matchesPattern [.any] text = true := (matchesPattern_any [] text).mpr ⟨[], List.nil_suffix, rfl⟩

theorem matchesPattern_infix (t text : Text) : matchesPattern (.any :: (t.map .exact ++ [.any])) text = true ↔ t <:+: text := by
  rw [matchesPattern_any]
  constructor
  · rintro ⟨rest, ⟨before, rfl⟩, h⟩
    obtain ⟨after, rfl, -⟩ := (matchesPattern_exact [.any] t rest).mp h
    exact ⟨before, after, List.append_assoc _ _ _⟩
  · rintro ⟨before, after, rfl⟩
    refine ⟨t ++ after, ⟨before, by rw [List.append_assoc]⟩, ?_⟩
    exact (matchesPattern_exact [.any] t _).mpr ⟨after, rfl, matchesPattern_all after⟩

structure Simple where
  name : Text
  argument : Word

inductive Command
  | caseIn (subject : Word) (arms : List (Word × Option Simple))
  | ifAll (tests : List (List Word)) (body : Simple)

namespace Simple

def tokens (command : Simple) : List Token := [keyword command.name, wordToken command.argument]

end Simple

def armTokens (arm : Word × Option Simple) : List Token :=
  wordToken arm.1 :: .operator [')'] :: ((arm.2.map Simple.tokens).getD [] ++ [.operator [';', ';']])

def testTokens (test : List Word) : List Token := keyword ['['] :: (test.map wordToken ++ [keyword [']']])

namespace Command

def tokens : Command → List Token
  | caseIn subject arms =>
    keyword ['c', 'a', 's', 'e'] :: wordToken subject :: keyword ['i', 'n'] ::
      (arms.flatMap armTokens ++ [keyword ['e', 's', 'a', 'c'], .operator ['\n']])
  | ifAll tests body =>
    keyword ['i', 'f'] :: (List.intercalate [.operator ['&', '&']] (tests.map testTokens) ++
      .operator [';'] :: keyword ['t', 'h', 'e', 'n'] :: (body.tokens ++ [.operator [';'], keyword ['f', 'i'], .operator ['\n']]))

end Command

structure Session where
  path : Text
  sourced : List Text
  deriving DecidableEq

def EXPORT : Text := ['e', 'x', 'p', 'o', 'r', 't']

def Simple.run (command : Simple) (s : Session) : Option Session :=
  if command.name = EXPORT then
    match command.argument with
    | .plain name :: value => if name = PATH ++ ['='] then (expand s.path value).map fun path => { s with path } else none
    | _ => none
  else if command.name = ['.'] then (expand s.path command.argument).map fun file => { s with sourced := s.sourced ++ [file] }
  else none

def firstArm (text : Text) : List (Word × Option Simple) → Option (Option Simple)
  | [] => some none
  | (pattern, body) :: arms => do
    let items ← wordPattern pattern
    if matchesPattern items text = true then some body else firstArm text arms

theorem firstArm_cons {pattern : Word} {items : List PatternItem} (h : wordPattern pattern = some items) (text : Text)
    (body : Option Simple) (arms : List (Word × Option Simple)) :
    firstArm text ((pattern, body) :: arms) = if matchesPattern items text = true then some body else firstArm text arms := by
  rw [firstArm, h]
  rfl

section

variable (answer : List Word → Bool)

def Command.run (s : Session) : Command → Option Session
  | caseIn subject arms => do
    let text ← expand s.path subject
    match ← firstArm text arms with
    | none => some s
    | some body => body.run s
  | ifAll tests body => if tests.all answer = true then body.run s else some s

def runAll (s : Session) : List Command → Option Session
  | [] => some s
  | command :: commands => do runAll (← command.run answer s) commands

end

def elements (path : Text) : List Text := path.splitOn ':'

/-- `PATH` is a list in fish. -/
structure FishSession where
  path : List Text
  sourced : List Text
  deriving DecidableEq

inductive FishCommand
  | setPath (values : List Word)
  | source (file : Word)

def FishCommand.tokens : FishCommand → List Token
  | setPath values => [keyword ['s', 'e', 't'], keyword ['-', 'g', 'x'], keyword PATH] ++ values.map wordToken ++ [.operator ['\n']]
  | source file => [keyword ['s', 'o', 'u', 'r', 'c', 'e'], wordToken file, .operator ['\n']]

def expandFish (path : List Text) : Word → Option (List Text)
  | [.quoted text] => some [text]
  | [.parameter name] => if name = PATH then some path else none
  | _ => none

def expandAll (path : List Text) : List Word → Option (List Text)
  | [] => some []
  | word :: words => do return (← expandFish path word) ++ (← expandAll path words)

/-- Colons in a value of `PATH` separate elements. -/
def FishCommand.run (s : FishSession) : FishCommand → Option FishSession
  | setPath values => (expandAll s.path values).map fun all => { s with path := all.flatMap elements }
  | source file =>
    match expandFish s.path file with
    | some [text] => some { s with sourced := s.sourced ++ [text] }
    | _ => none

def runFish (s : FishSession) : List FishCommand → Option FishSession
  | [] => some s
  | command :: commands => do runFish (← command.run s) commands

theorem colon_not_mem_elements {path element : Text} (h : element ∈ elements path) : ':' ∉ element := PosixPath.not_mem_of_mem_splitOn h

theorem elements_cons {element : Text} (h : ':' ∉ element) (path : Text) : elements (element ++ ':' :: path) = element :: elements path :=
  List.splitOn_append_cons_self_of_not_mem h path

theorem colon_elements (path : Text) : ':' :: path = (elements path).flatMap (':' :: ·) := by
  have hJoin : ∀ all : List Text, all ≠ [] → ':' :: [':'].intercalate all = all.flatMap (':' :: ·) := by
    intro all hSome
    induction all with
    | nil => exact absurd rfl hSome
    | cons element all ih =>
      cases all with
      | nil => simp [List.intercalate_singleton]
      | cons next all =>
        rw [List.intercalate_cons_cons, List.flatMap_cons, ← ih (List.cons_ne_nil _ _)]
        simp
  rw [← hJoin (elements path) (List.splitOn_ne_nil _ _), elements, List.intercalate_splitOn]

theorem mem_elements_iff {element : Text} (h : ':' ∉ element) (path : Text) :
    element ∈ elements path ↔ ':' :: element ++ [':'] <:+: ':' :: path ++ [':'] := by
  constructor
  · intro hMem
    obtain ⟨before, after, hSplit⟩ := List.append_of_mem hMem
    have hColon : ∃ rest, after.flatMap (':' :: ·) ++ [':'] = ':' :: rest := by
      cases after with
      | nil => exact ⟨[], rfl⟩
      | cons next after => exact ⟨_, rfl⟩
    obtain ⟨rest, hRest⟩ := hColon
    rw [colon_elements path, hSplit]
    refine ⟨before.flatMap (':' :: ·), rest, ?_⟩
    simp [List.flatMap_append, List.flatMap_cons, List.append_assoc, hRest]
  · rintro ⟨before, after, hText⟩
    have hLeft : elements (before ++ ':' :: (element ++ ':' :: after)) = elements before ++ element :: elements after := by
      rw [elements, List.splitOn_append_cons_self, List.splitOn_append_cons_self_of_not_mem h]
      rfl
    have hRight : elements ([] ++ ':' :: (path ++ ':' :: [])) = [] :: (elements path ++ [[]]) := by
      rw [elements, List.splitOn_append_cons_self, List.splitOn_append_cons_self]
      rfl
    have hSame : before ++ ':' :: (element ++ ':' :: after) = [] ++ ':' :: (path ++ ':' :: []) := by
      simpa using hText
    rw [hSame, hRight] at hLeft
    -- the ends of both lists are not what stands between colons
    have hBeforeSome : elements before ≠ [] := List.splitOn_ne_nil ':' before
    have hAfterSome : elements after ≠ [] := List.splitOn_ne_nil ':' after
    obtain ⟨first, others, hBefore⟩ := List.exists_cons_of_ne_nil hBeforeSome
    obtain ⟨front, last, hAfter⟩ := (List.eq_nil_or_concat (elements after)).resolve_left hAfterSome
    rw [hBefore, hAfter, List.cons_append, List.cons.injEq] at hLeft
    have hMiddle : elements path ++ [[]] = (others ++ element :: front) ++ [last] := by
      rw [hLeft.2]
      simp
    rw [(List.append_inj' hMiddle rfl).1]
    exact List.mem_append_right _ List.mem_cons_self

end Library.Shell
