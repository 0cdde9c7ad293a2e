import Mathlib.Data.List.Forall2
import Cosmosh.Library.ShellCommands

/-! # Command lines that are put together from words

A text spells tokens if the shell reads these tokens wherever the text stands between blanks.
-/

namespace Library.Shell

open Reader

structure Spells (text : Text) (tokens : List Token) : Prop where
  blank : start.read (text ++ [' ']) = (tokens, start)
  ending : start.readAll text = some tokens

/-- `join(' ')` -/
def sentence (texts : List Text) : Text := [' '].intercalate texts

theorem Spells.lex {text : Text} {tokens : List Token} (h : Spells text tokens) : lex text = some tokens := h.ending

theorem spells_nil : Spells [] [] := ⟨rfl, rfl⟩

theorem Spells.append {a b : Text} {x y : List Token} (ha : Spells a x) (hb : Spells b y) : Spells (a ++ ' ' :: b) (x ++ y) := by
  have hSplit : a ++ ' ' :: b = (a ++ [' ']) ++ b := by simp
  constructor
  · rw [hSplit, List.append_assoc]
    exact read_parts ha.blank hb.blank
  · rw [hSplit, readAll_parts ha.blank, hb.ending]
    rfl

theorem spells_sentence {texts : List Text} {tokens : List (List Token)} (h : List.Forall₂ Spells texts tokens) :
    Spells (sentence texts) tokens.flatten := by
  induction h with
  | nil => exact spells_nil
  | @cons a x texts tokens hFirst hRest ih =>
    cases hRest with
    | nil =>
      rw [sentence, List.intercalate_singleton, List.flatten_cons, List.flatten_nil, List.append_nil]
      exact hFirst
    | cons hNext hLater =>
      rw [sentence, List.intercalate_cons_cons, List.append_assoc, List.flatten_cons]
      exact hFirst.append ih

def isPlain (c : Char) : Bool := kind c = .ordinary && c ∉ ['*', '?', '[']

variable {c : Char}

theorem kind_of_isPlain (h : isPlain c = true) : kind c = .ordinary := of_decide_eq_true (Bool.and_eq_true_iff.mp h).1

def inWord (pieces : List Piece) : Reader := { start with word := some pieces }

theorem step_plain (h : isPlain c = true) (pieces : List Piece) : (inWord pieces).step c = ([], inWord (pieces ++ [.literal false c])) := by
  have hKind := kind_of_isPlain h
  have hStep : (inWord pieces).stepUnquoted c = ([], inWord (pieces ++ [.literal false c])) := by
    rw [stepUnquoted]
    simp only [hKind]
    rfl
  exact hStep

theorem start_plain (h : isPlain c = true) : start.step c = ([], inWord [.literal false c]) := by
  have hKind := kind_of_isPlain h
  have hStep : start.stepUnquoted c = ([], inWord [.literal false c]) := by
    rw [stepUnquoted]
    simp only [hKind]
    rfl
  exact hStep

theorem read_plain {text : Text} (h : ∀ c ∈ text, isPlain c = true) (pieces : List Piece) :
    (inWord pieces).read text = ([], inWord (pieces ++ plainText text)) := by
  induction text generalizing pieces with
  | nil => simp [Reader.read, plainText]
  | cons c text ih =>
    obtain ⟨hc, hText⟩ := List.forall_mem_cons.mp h
    rw [Reader.read, step_plain hc, ih hText]
    simp [plainText]

def IsPlainWord (text : Text) : Prop := text ≠ [] ∧ ∀ c ∈ text, isPlain c = true

instance (text : Text) : Decidable (IsPlainWord text) := inferInstanceAs (Decidable (_ ∧ _))

theorem IsPlainWord.read {text : Text} (h : IsPlainWord text) : start.read text = ([], inWord (plainText text)) := by
  obtain ⟨hText, hPlain⟩ := h
  cases text with
  | nil => exact absurd rfl hText
  | cons c text =>
    obtain ⟨hc, hRest⟩ := List.forall_mem_cons.mp hPlain
    rw [Reader.read, start_plain hc, read_plain hRest]
    rfl

theorem spells_of_read {text : Text} {pieces : List Piece} (h : start.read text = ([], inWord pieces)) : Spells text [.word pieces] := by
  constructor
  · rw [read_append, h]
    rfl
  · rw [readAll, h]
    rfl

theorem IsPlainWord.spells {text : Text} (h : IsPlainWord text) : Spells text [keyword text] := spells_of_read h.read

theorem spells_and : Spells ['&', '&'] [.operator ['&', '&']] := ⟨rfl, rfl⟩

theorem spells_redirect : Spells ['>'] [.operator ['>']] := ⟨rfl, rfl⟩

def escaped (value : Text) : Text := value.flatMap fun c => if c = '\'' then ['\'', '\\', '\'', '\''] else [c]

def singleQuoted (value : Text) : Text := '\'' :: escaped value ++ ['\'']

theorem read_escaped (value : Text) (pieces : List Piece) :
    (quoting pieces).read (escaped value) = ([], quoting (pieces ++ quotedText value)) := by
  induction value generalizing pieces with
  | nil => simp [escaped, Reader.read, quotedText]
  | cons c value ih =>
    have hHead : (quoting pieces).read (if c = '\'' then ['\'', '\\', '\'', '\''] else [c]) =
        ([], quoting (pieces ++ [.literal true c])) := by
      split
      · next hQuote =>
        rw [hQuote]
        rfl
      · next hQuote =>
        exact read_quoting (fun hMem => hQuote (List.mem_singleton.mp hMem).symm) pieces
    rw [escaped, List.flatMap_cons, read_append, hHead, ← escaped, ih]
    simp [quotedText]

theorem read_singleQuoted_inside (value : Text) (pieces : List Piece) :
    (quoting pieces).read (escaped value ++ ['\'']) = ([], inWord (pieces ++ quotedText value)) := by
  rw [read_append, read_escaped]
  rfl

theorem spells_singleQuoted (value : Text) : Spells (singleQuoted value) [.word (quotedText value)] := by
  refine spells_of_read ?_
  rw [singleQuoted, List.cons_append, Reader.read, show start.step '\'' = ([], quoting []) by rfl, read_singleQuoted_inside]
  rfl

theorem spells_attached {front : Text} (h : IsPlainWord front) (value : Text) :
    Spells (front ++ singleQuoted value) [.word (plainText front ++ quotedText value)] := by
  refine spells_of_read ?_
  rw [read_append, h.read, singleQuoted, List.cons_append, Reader.read,
    show (inWord (plainText front)).step '\'' = ([], quoting (plainText front)) by rfl, read_singleQuoted_inside]
  rfl

theorem spells_singleQuoted_all (values : List Text) :
    Spells (sentence (values.map singleQuoted)) (values.map fun value => .word (quotedText value)) := by
  have hAll : List.Forall₂ Spells (values.map singleQuoted) (values.map fun value => [.word (quotedText value)]) := by
    induction values with
    | nil => exact .nil
    | cons value values ih => exact .cons (spells_singleQuoted value) ih
  have hSpells := spells_sentence hAll
  rwa [← List.flatMap_def, ← List.map_eq_flatMap] at hSpells

inductive Argument
  | fixed (text : Text)
  | value (text : Text)
  | attached (front text : Text)
  | values (texts : List Text)

namespace Argument

def text : Argument → Text
  | fixed text => text
  | value text => singleQuoted text
  | attached front text => front ++ singleQuoted text
  | values texts => sentence (texts.map singleQuoted)

def words : Argument → List (List Piece)
  | fixed text => [plainText text]
  | value text => [quotedText text]
  | attached front text => [plainText front ++ quotedText text]
  | values texts => texts.map quotedText

def IsPlain : Argument → Prop
  | fixed text => IsPlainWord text
  | attached front _ => IsPlainWord front
  | _ => True

theorem IsPlain.spells {argument : Argument} (h : argument.IsPlain) : Spells argument.text (argument.words.map Token.word) := by
  cases argument with
  | fixed text => exact IsPlainWord.spells h
  | value text => exact spells_singleQuoted text
  | attached front text => exact spells_attached h text
  | values texts =>
    rw [words, List.map_map]
    exact spells_singleQuoted_all texts

end Argument

structure Call where
  arguments : List Argument
  output : Option Text

namespace Call

def texts (call : Call) : List Text := call.arguments.map Argument.text ++ (call.output.map fun target => [['>'], singleQuoted target]).getD []

def words (call : Call) : List (List Piece) := call.arguments.flatMap Argument.words

def tokens (call : Call) : List (List Token) :=
  call.arguments.map (fun argument => argument.words.map Token.word) ++
    (call.output.map fun target => [[.operator ['>']], [.word (quotedText target)]]).getD []

def IsPlain (call : Call) : Prop := ∀ argument ∈ call.arguments, argument.IsPlain

theorem IsPlain.spells {call : Call} (h : call.IsPlain) : List.Forall₂ Spells call.texts call.tokens := by
  obtain ⟨arguments, output⟩ := call
  refine List.rel_append ?_ ?_
  · induction arguments with
    | nil => exact .nil
    | cons argument arguments ih =>
      exact .cons (h argument List.mem_cons_self).spells (ih fun other hOther => h other (List.mem_cons_of_mem argument hOther))
  · cases output with
    | none => exact .nil
    | some target => exact .cons spells_redirect (.cons (spells_singleQuoted target) .nil)

end Call

def chain (calls : List Call) : Text := sentence ([['&', '&']].intercalate (calls.map Call.texts))

structure Invocation where
  words : List (List Piece)
  redirections : List (List Piece)
  deriving DecidableEq

/-- Commands joined by `&&`, with `>` as the only redirection; `current` is the command that is being read. -/
def invocationsFrom (current : Invocation) : List Token → Option (List Invocation)
  | [] => some [current]
  | .word pieces :: tokens => invocationsFrom { current with words := current.words ++ [pieces] } tokens
  | .operator ['>'] :: .word target :: tokens =>
    invocationsFrom { current with redirections := current.redirections ++ [target] } tokens
  | .operator ['&', '&'] :: tokens => (invocationsFrom ⟨[], []⟩ tokens).map (current :: ·)
  | .operator _ :: _ => none

def invocations (line : Text) : Option (List Invocation) := (lex line).bind (invocationsFrom ⟨[], []⟩)

theorem invocationsFrom_words (current : Invocation) (words : List (List Piece)) (tokens : List Token) :
    invocationsFrom current (words.map Token.word ++ tokens) = invocationsFrom { current with words := current.words ++ words } tokens := by
  induction words generalizing current with
  | nil => rw [List.append_nil]; rfl
  | cons pieces words ih =>
    rw [List.map_cons, List.cons_append, invocationsFrom, ih, List.append_assoc]
    rfl

def Call.invocation (call : Call) : Invocation := ⟨call.words, (call.output.map quotedText).toList⟩

theorem invocationsFrom_call (call : Call) (tokens : List Token) :
    invocationsFrom ⟨[], []⟩ (call.tokens.flatten ++ tokens) = invocationsFrom call.invocation tokens := by
  have hWords : (call.arguments.map fun argument => argument.words.map Token.word).flatten = call.words.map Token.word := by
    rw [← List.flatMap_def, ← List.map_flatMap, Call.words]
  rw [Call.tokens, List.flatten_append, hWords, List.append_assoc, invocationsFrom_words, List.nil_append]
  cases hOutput : call.output with
  | none =>
    rw [Call.invocation, hOutput]
    rfl
  | some target =>
    rw [Call.invocation, hOutput]
    rfl

theorem spells_chain {calls : List Call} (h : ∀ call ∈ calls, call.IsPlain) :
    Spells (chain calls) ([[.operator ['&', '&']]].intercalate (calls.map Call.tokens)).flatten := by
  refine spells_sentence ?_
  induction calls with
  | nil => exact .nil
  | cons call calls ih =>
    obtain ⟨hCall, hRest⟩ := List.forall_mem_cons.mp h
    cases calls with
    | nil =>
      rw [List.map_singleton, List.map_singleton, List.intercalate_singleton, List.intercalate_singleton]
      exact hCall.spells
    | cons next calls =>
      simp only [List.map_cons, List.intercalate_cons_cons]
      exact List.rel_append (List.rel_append hCall.spells (.cons spells_and .nil)) (ih hRest)

theorem invocations_chain {calls : List Call} (hCalls : calls ≠ []) (h : ∀ call ∈ calls, call.IsPlain) :
    invocations (chain calls) = some (calls.map Call.invocation) := by
  rw [invocations, (spells_chain h).lex, Option.bind_some]
  clear h
  induction calls with
  | nil => exact absurd rfl hCalls
  | cons call calls ih =>
    cases calls with
    | nil =>
      rw [List.map_singleton, List.intercalate_singleton, ← List.append_nil call.tokens.flatten, invocationsFrom_call]
      rfl
    | cons next calls =>
      have hRest := ih (List.cons_ne_nil next calls)
      simp only [List.map_cons, List.intercalate_cons_cons, List.flatten_append, List.append_assoc] at hRest ⊢
      rw [invocationsFrom_call]
      exact (congrArg (Option.map (call.invocation :: ·)) hRest).trans rfl

/-- The words a tool reads as options: they begin with a dash and come before `--`, if the tool ends its options there, and they
are not the argument of the option before them. `skips` says that the next word is such an argument. -/
def optionWords (takesNext : Text → Bool) (endsOptions : Bool) : Bool → List (List Piece) → List (List Piece)
  | _, [] => []
  | true, _ :: rest => optionWords takesNext endsOptions false rest
  | false, word :: rest =>
    match literalText? word with
    | some ('-' :: c :: text) =>
      if endsOptions = true ∧ c = '-' ∧ text = [] then []
      else word :: optionWords takesNext endsOptions (takesNext ('-' :: c :: text)) rest
    | _ => optionWords takesNext endsOptions false rest

def OptionSafe (takesNext : Text → Bool) (endsOptions : Bool) (arguments : List (List Piece)) : Prop :=
  ∀ word ∈ optionWords takesNext endsOptions false arguments, word.head? = some (.literal false '-')

variable {word : List Piece}

section

variable {takesNext : Text → Bool} {endsOptions : Bool}

theorem mem_optionWords {skips : Bool} {arguments : List (List Piece)} (h : word ∈ optionWords takesNext endsOptions skips arguments) :
    word ∈ arguments ∧ ∃ text, literalText? word = some ('-' :: text) := by
  induction arguments generalizing skips with
  | nil =>
    cases skips
    · cases h
    · cases h
  | cons next arguments ih =>
    cases skips with
    | true =>
      obtain ⟨hMem, hDash⟩ := ih h
      exact ⟨List.mem_cons_of_mem next hMem, hDash⟩
    | false =>
      rw [optionWords] at h
      split at h
      · next c text hText =>
        split at h
        · cases h
        · obtain rfl | hLater := List.mem_cons.mp h
          · exact ⟨List.mem_cons_self, c :: text, hText⟩
          · obtain ⟨hMem, hDash⟩ := ih hLater
            exact ⟨List.mem_cons_of_mem next hMem, hDash⟩
      · obtain ⟨hMem, hDash⟩ := ih h
        exact ⟨List.mem_cons_of_mem next hMem, hDash⟩

theorem optionWords_option {text : Text} (hText : literalText? word = some ('-' :: c :: text)) (hc : c ≠ '-')
    (rest : List (List Piece)) : optionWords takesNext endsOptions false (word :: rest) =
      word :: optionWords takesNext endsOptions (takesNext ('-' :: c :: text)) rest := by
  rw [optionWords, hText]
  exact if_neg fun hSeparator => hc hSeparator.2.1

theorem OptionSafe.of_all {arguments : List (List Piece)}
    (h : ((optionWords takesNext endsOptions false arguments).all fun word => word.head? = some (.literal false '-')) = true) :
    OptionSafe takesNext endsOptions arguments := fun word hWord => of_decide_eq_true (List.all_eq_true.mp h word hWord)

end

theorem literalText?_plainText (text : Text) : literalText? (plainText text) = some text := by
  induction text with
  | nil => rfl
  | cons c text ih => exact congrArg (Option.map (c :: ·)) ih

section

variable {takesNext : Text → Bool} {endsOptions : Bool} {arguments : List (List Piece)}

theorem OptionSafe.fixed {text : Text} (hText : takesNext text = false) (h : OptionSafe takesNext endsOptions arguments) :
    OptionSafe takesNext endsOptions (plainText text :: arguments) := by
  intro word hWord
  rw [optionWords, literalText?_plainText] at hWord
  split at hWord
  · next c more hDash =>
    obtain rfl := Option.some.inj hDash
    split at hWord
    · cases hWord
    · obtain rfl | hLater := List.mem_cons.mp hWord
      · rfl
      · rw [hText] at hLater
        exact h word hLater
  · exact h word hWord

theorem OptionSafe.attached {more text : Text} (hText : takesNext ('-' :: c :: more ++ text) = false) (hc : c ≠ '-')
    (h : OptionSafe takesNext endsOptions arguments) :
    OptionSafe takesNext endsOptions ((plainText ('-' :: c :: more) ++ quotedText text) :: arguments) := by
  have hLiteral : literalText? (plainText ('-' :: c :: more) ++ quotedText text) = some ('-' :: c :: (more ++ text)) := by
    rw [literalText?_append, literalText?_plainText, literalText?_quotedText]
    rfl
  intro word hWord
  rw [optionWords_option hLiteral hc] at hWord
  obtain rfl | hLater := List.mem_cons.mp hWord
  · rfl
  · rw [← List.cons_append, ← List.cons_append, hText] at hLater
    exact h word hLater

end

def Argument.IsRooted : Argument → Prop
  | fixed _ => True
  | value text => text.head? ≠ some '-'
  | attached front _ => front ≠ []
  | values texts => ∀ text ∈ texts, text.head? ≠ some '-'

theorem Argument.IsRooted.dash {argument : Argument} (h : argument.IsRooted) (hWord : word ∈ argument.words) {text : Text}
    (hText : literalText? word = some ('-' :: text)) : word.head? = some (.literal false '-') := by
  have hQuoted : ∀ value : Text, value.head? ≠ some '-' → literalText? (quotedText value) ≠ some ('-' :: text) := by
    intro value hValue hDash
    rw [literalText?_quotedText] at hDash
    rw [Option.some.inj hDash] at hValue
    exact hValue rfl
  cases argument with
  | fixed front =>
    obtain rfl := List.mem_singleton.mp hWord
    rw [literalText?_plainText] at hText
    rw [Option.some.inj hText]
    rfl
  | value value =>
    obtain rfl := List.mem_singleton.mp hWord
    exact absurd hText (hQuoted value h)
  | attached front value =>
    obtain rfl := List.mem_singleton.mp hWord
    rw [literalText?_append, literalText?_plainText, literalText?_quotedText] at hText
    cases front with
    | nil => exact absurd rfl h
    | cons c front =>
      obtain ⟨rfl, -⟩ := List.cons.inj (Option.some.inj hText)
      rfl
  | values values =>
    obtain ⟨value, hValue, rfl⟩ := List.mem_map.mp hWord
    exact absurd hText (hQuoted value (h value hValue))

end Library.Shell
