import Cosmosh.Library.SpacedTokens
import Cosmosh.Library.Utf16
import Cosmosh.SshPage.CommandMarkers

/-! # Where a prompt ends

A rendered line holds the prompt and what was typed after it.
-/

namespace SshPage

open Library Library.SpacedTokens

abbrev PromptBoundaryToken := Token Nat

/-- `$`, `#`, `>`, `%`, `❯`, `➜` and `λ`. -/
def PROMPT_TERMINATOR_CHARS : List Nat := [0x24, 0x23, 0x3e, 0x25, 0x276f, 0x279c, 0x3bb]

def MAX_PROMPT_TOKENS_TO_SCAN : Nat := 12

def SHELL_OPERATOR_TOKEN_SET : List CodeUnits :=
  ["&&", "||", "|", ";", ";;", "&", ">", ">>", "<", "<<"].map fun token => CodeUnits.ofAscii token.toList

def isPromptTerminatorChar (value : Nat) : Bool := value ∈ PROMPT_TERMINATOR_CHARS

def endsWithTerminator (token : CodeUnits) : Bool := token.getLast?.any isPromptTerminatorChar

/-- `[A-Za-z0-9_]` -/
def isWordUnit (u : Nat) : Bool := (0x41 ≤ u && u ≤ 0x5a) || (0x61 ≤ u && u ≤ 0x7a) || (0x30 ≤ u && u ≤ 0x39) || u == 0x5f

def isSymbolicToken (token : CodeUnits) : Bool := !token.isEmpty && token.all fun u => !isWordUnit u

def isPromptStatusSymbolToken (token : CodeUnits) : Bool :=
  if token.length > 3 || !isSymbolicToken token then false else token.any fun u => u > 0x7f

def isLikelyPromptStartToken (token : CodeUnits) : Bool :=
  if token.isEmpty then false
  else if endsWithTerminator token then true
  else if token = CodeUnits.ofAscii "PS".toList then true
  else if 0x40 ∈ token ∨ 0x7e ∈ token then true
  else isSymbolicToken token

def codePointCount : CodeUnits → Nat
  | [] => 0
  | [_] => 1
  | u :: v :: rest =>
    if CodeUnits.isHighSurrogate u && CodeUnits.isLowSurrogate v then 1 + codePointCount rest else 1 + codePointCount (v :: rest)

/-- `/^\([^()\s]{1,64}\)$/u` -/
def isPromptDecorationToken (token : CodeUnits) : Bool :=
  match token with
  | 0x28 :: rest =>
    let inner := rest.dropLast
    rest.getLast? = some 0x29 && inner.all (fun u => u != 0x28 && u != 0x29 && !CodeUnits.isWhitespace u) &&
      (1 ≤ codePointCount inner && codePointCount inner ≤ 64)
  | _ => false

def resolvePromptContextTokenIndex (tokens : List PromptBoundaryToken) : Option Nat :=
  let scanned := tokens.take MAX_PROMPT_TOKENS_TO_SCAN
  let tokenIndex := (scanned.takeWhile fun token => isPromptDecorationToken token.value).length
  match scanned[tokenIndex]? with
  | none => none
  | some token => if isLikelyPromptStartToken token.value then some tokenIndex else none

def isPromptTerminatorToken (token : CodeUnits) : Bool :=
  if token.isEmpty then false
  else if endsWithTerminator token then true
  else decide (token.length ≤ 3) && isSymbolicToken token

def tokenizeWhitespace (linePrefix : CodeUnits) : List PromptBoundaryToken := tokens CodeUnits.isWhitespace linePrefix

/-- What `promptPrefixRegex.exec` finds: the index and the length of the match. -/
abbrev PromptPrefixRegex := CodeUnits → Option (Nat × Nat)

def resolveConfiguredPromptOffset (linePrefix : CodeUnits) (promptPrefixRegex : Option PromptPrefixRegex) : Option Nat :=
  match promptPrefixRegex.bind fun exec => exec linePrefix with
  | none => none
  | some (index, length) => if index ≠ 0 ∨ length = 0 then none else some (min linePrefix.length length)

/-- The last of the tokens for which `ends` holds, `tokens` being those from `index` on. -/
def lastIndexOf (ends : CodeUnits → Bool) (index : Nat) (last : Option Nat) : List PromptBoundaryToken → Option Nat
  | [] => last
  | token :: rest => lastIndexOf ends (index + 1) (if ends token.value then some index else last) rest

def resolveHeuristicPromptOffset (linePrefix : CodeUnits) : Nat :=
  let tokens := tokenizeWhitespace linePrefix
  match resolvePromptContextTokenIndex tokens with
  | none => 0
  | some promptContextTokenIndex =>
    let lastPromptTerminatorIndex :=
      lastIndexOf isPromptTerminatorToken promptContextTokenIndex none ((tokens.take MAX_PROMPT_TOKENS_TO_SCAN).drop promptContextTokenIndex)
    match lastPromptTerminatorIndex with
    | some index => (tokens[index + 1]?.map Token.start).getD linePrefix.length
    | none =>
      -- No terminator was found, so the token of the prompt is none: a line that is a prompt alone does not get here.
      match tokens[promptContextTokenIndex + 1]? with
      | some nextCommandToken => nextCommandToken.start
      | none => 0

def endsPrompt (token : CodeUnits) : Bool := endsWithTerminator token || isPromptStatusSymbolToken token

def beforeOperator (tokens : List PromptBoundaryToken) : List PromptBoundaryToken :=
  tokens.takeWhile fun token => decide (token.value ∉ SHELL_OPERATOR_TOKEN_SET)

def resolvePromptCommandStartOffset (line : CodeUnits) (promptPrefixRegex : Option PromptPrefixRegex) : Nat :=
  match resolveConfiguredPromptOffset line promptPrefixRegex with
  | some configuredOffset => configuredOffset
  | none =>
    let tokens := tokenizeWhitespace line
    let lastPromptTerminatorTokenIndex := (resolvePromptContextTokenIndex tokens).bind fun promptContextTokenIndex =>
      lastIndexOf endsPrompt promptContextTokenIndex none
        (beforeOperator ((tokens.take MAX_PROMPT_TOKENS_TO_SCAN).drop promptContextTokenIndex))
    match lastPromptTerminatorTokenIndex with
    | some index => (tokens[index + 1]?.map Token.start).getD line.length
    | none => resolveHeuristicPromptOffset line

def renderedCommand (rendered : CodeUnits) (promptPrefixRegex : Option PromptPrefixRegex) : CodeUnits :=
  let command := (rendered.drop (resolvePromptCommandStartOffset rendered promptPrefixRegex)).rdropWhile CodeUnits.isWhitespace
  if CodeUnits.trim command = [] then [] else command

/-- A prompt of one token, such as `user@host:~$`. -/
structure Prompt where
  units : CodeUnits
  unspaced : ∀ u ∈ units, CodeUnits.isWhitespace u = false
  identity : 0x40 ∈ units ∨ 0x7e ∈ units
  terminated : endsWithTerminator units = true

structure CommandText where
  units : CodeUnits
  unindented : ∀ u ∈ units.head?, CodeUnits.isWhitespace u = false

def echoed (prompt : Prompt) (command : CommandText) : CodeUnits := prompt.units ++ 0x20 :: command.units

structure Recovered (prompt : Prompt) (command : CommandText) : Prop where
  offset : resolvePromptCommandStartOffset (echoed prompt command) none = prompt.units.length + 1
  stored : renderedCommand (echoed prompt command) none = command.units.rdropWhile CodeUnits.isWhitespace

def scannedArguments (command : CommandText) : List PromptBoundaryToken :=
  beforeOperator ((tokenizeWhitespace command.units).take (MAX_PROMPT_TOKENS_TO_SCAN - 1))

def hasNoPromptEnd (command : CommandText) : Bool := (scannedArguments command).all fun token => !endsPrompt token.value

variable {ends : CodeUnits → Bool} {index : Nat} {last : Option Nat} {scanned : List PromptBoundaryToken}

theorem lastIndexOf_cases (ends : CodeUnits → Bool) (index : Nat) (last : Option Nat) (scanned : List PromptBoundaryToken) :
    (lastIndexOf ends index last scanned = last ∧ ∀ token ∈ scanned, ends token.value = false) ∨
      ∃ i, lastIndexOf ends index last scanned = some i ∧ index ≤ i ∧ ∃ token ∈ scanned, ends token.value = true := by
  induction scanned generalizing index last with
  | nil => exact .inl ⟨rfl, nofun⟩
  | cons token rest ih =>
    rw [lastIndexOf]
    cases hEnds : ends token.value with
    | true =>
      rw [if_pos rfl]
      obtain ⟨hLast, -⟩ | ⟨i, hLast, hLater, other, hOther, hOtherEnds⟩ := ih (index + 1) (some index)
      · exact .inr ⟨index, hLast, Nat.le_refl _, token, List.mem_cons_self, hEnds⟩
      · exact .inr ⟨i, hLast, by omega, other, List.mem_cons_of_mem token hOther, hOtherEnds⟩
    | false =>
      rw [if_neg Bool.false_ne_true]
      obtain ⟨hLast, hNone⟩ | ⟨i, hLast, hLater, other, hOther, hOtherEnds⟩ := ih (index + 1) last
      · refine .inl ⟨hLast, fun other hOther => ?_⟩
        obtain rfl | hOther := List.mem_cons.mp hOther
        · exact hEnds
        · exact hNone other hOther
      · exact .inr ⟨i, hLast, by omega, other, List.mem_cons_of_mem token hOther, hOtherEnds⟩

namespace Prompt

variable (prompt : Prompt)

theorem units_ne_nil : prompt.units ≠ [] := by
  intro hEmpty
  have hTerminated := prompt.terminated
  rw [hEmpty] at hTerminated
  cases hTerminated

theorem not_operator : prompt.units ∉ SHELL_OPERATOR_TOKEN_SET := by
  intro hOperator
  have hPlain : ∀ token ∈ SHELL_OPERATOR_TOKEN_SET, 0x40 ∉ token ∧ 0x7e ∉ token := by decide
  obtain ⟨hAt, hTilde⟩ := hPlain _ hOperator
  exact prompt.identity.elim hAt hTilde

theorem not_decoration : isPromptDecorationToken prompt.units = false := by
  have hTerminated := prompt.terminated
  unfold isPromptDecorationToken
  split
  · rename_i rest hUnits
    have hOther : rest.getLast? ≠ some 0x29 := by
      intro hLast
      rw [hUnits, endsWithTerminator, List.getLast?_cons, hLast] at hTerminated
      exact absurd hTerminated (by decide)
    simp [hOther]
  · rfl

theorem likely : isLikelyPromptStartToken prompt.units = true := by
  rw [isLikelyPromptStartToken, prompt.terminated]
  simp [prompt.units_ne_nil]

theorem context (later : List PromptBoundaryToken) : resolvePromptContextTokenIndex (⟨prompt.units, 0⟩ :: later) = some 0 := by
  have hScanned : (⟨prompt.units, 0⟩ :: later : List PromptBoundaryToken).take MAX_PROMPT_TOKENS_TO_SCAN =
      ⟨prompt.units, 0⟩ :: later.take 11 := rfl
  have hNone : (⟨prompt.units, 0⟩ :: later.take 11 : List PromptBoundaryToken).takeWhile (fun token => isPromptDecorationToken token.value) = [] := by
    rw [List.takeWhile_cons, prompt.not_decoration, if_neg Bool.false_ne_true]
  simp only [resolvePromptContextTokenIndex, hScanned, hNone, List.length_nil, List.getElem?_cons_zero, prompt.likely, if_true]

end Prompt

variable (prompt : Prompt) (command : CommandText)

def shiftedTokens : List PromptBoundaryToken := tokensAfter CodeUnits.isWhitespace (prompt.units.length + 1) [] command.units

theorem tokenize_echoed : tokenizeWhitespace (echoed prompt command) = ⟨prompt.units, 0⟩ :: shiftedTokens prompt command :=
  tokens_append_blank prompt.unspaced prompt.units_ne_nil (by decide) command.units

theorem offset_echoed : resolvePromptCommandStartOffset (echoed prompt command) none =
    match lastIndexOf endsPrompt 1 (some 0) (beforeOperator ((shiftedTokens prompt command).take 11)) with
    | some index => (((⟨prompt.units, 0⟩ :: shiftedTokens prompt command : List PromptBoundaryToken)[index + 1]?).map Token.start).getD
        (echoed prompt command).length
    | none => resolveHeuristicPromptOffset (echoed prompt command) := by
  have hScanned : ((⟨prompt.units, 0⟩ :: shiftedTokens prompt command : List PromptBoundaryToken).take MAX_PROMPT_TOKENS_TO_SCAN).drop 0 =
      ⟨prompt.units, 0⟩ :: (shiftedTokens prompt command).take 11 := rfl
  have hRun : beforeOperator (⟨prompt.units, 0⟩ :: (shiftedTokens prompt command).take 11) =
      ⟨prompt.units, 0⟩ :: beforeOperator ((shiftedTokens prompt command).take 11) := by
    rw [beforeOperator, List.takeWhile_cons, decide_eq_true prompt.not_operator, if_pos rfl, beforeOperator]
  have hEnds : endsPrompt prompt.units = true := by rw [endsPrompt, prompt.terminated, Bool.true_or]
  simp only [resolvePromptCommandStartOffset, resolveConfiguredPromptOffset, Option.bind_none, tokenize_echoed, prompt.context,
    Option.bind_some, hScanned, hRun, lastIndexOf, hEnds, if_true]

theorem values_beforeOperator (tokens : List PromptBoundaryToken) :
    (beforeOperator tokens).map Token.value = (tokens.map Token.value).takeWhile fun value => decide (value ∉ SHELL_OPERATOR_TOKEN_SET) := by
  rw [List.takeWhile_map]
  rfl

theorem hasNoPromptEnd_iff : hasNoPromptEnd command = true ↔
    ∀ token ∈ beforeOperator ((shiftedTokens prompt command).take 11), endsPrompt token.value = false := by
  have hValues : (scannedArguments command).map Token.value = (beforeOperator ((shiftedTokens prompt command).take 11)).map Token.value := by
    rw [scannedArguments, values_beforeOperator, values_beforeOperator, List.map_take, List.map_take, tokenizeWhitespace, tokens, shiftedTokens,
      values_shift 0 (prompt.units.length + 1)]
    rfl
  have hAll : hasNoPromptEnd command = ((scannedArguments command).map Token.value).all fun value => !endsPrompt value := by
    rw [List.all_map]
    rfl
  rw [hAll, hValues, List.all_eq_true]
  simp

theorem length_echoed : (echoed prompt command).length = prompt.units.length + 1 + command.units.length := by
  rw [echoed, List.length_append, List.length_cons]
  omega

theorem shiftedTokens_cases : (command.units = [] ∧ shiftedTokens prompt command = []) ∨ (command.units ≠ [] ∧
    ∃ value later, shiftedTokens prompt command = ⟨value, prompt.units.length + 1⟩ :: later ∧ ∀ token ∈ later, prompt.units.length + 1 < token.start) := by
  rw [shiftedTokens]
  cases hUnits : command.units with
  | nil => exact .inl ⟨rfl, rfl⟩
  | cons u rest => exact .inr ⟨nofun, tokensAfter_cons_of_not_blank (command.unindented u (by rw [hUnits]; rfl)) rest⟩

theorem offset_iff : resolvePromptCommandStartOffset (echoed prompt command) none = prompt.units.length + 1 ↔ hasNoPromptEnd command = true := by
  rw [offset_echoed, hasNoPromptEnd_iff prompt command]
  have hLength := length_echoed prompt command
  obtain ⟨hLast, hNone⟩ | ⟨i, hLast, hLater, token, hToken, hEnds⟩ :=
    lastIndexOf_cases endsPrompt 1 (some 0) (beforeOperator ((shiftedTokens prompt command).take 11))
  · refine iff_of_true ?_ hNone
    rw [hLast]
    obtain ⟨hEmpty, hTokens⟩ | ⟨-, value, later, hTokens, -⟩ := shiftedTokens_cases prompt command
    · rw [hTokens]
      exact hLength.trans (by rw [hEmpty]; rfl)
    · rw [hTokens]
      rfl
  · refine iff_of_false ?_ fun hNone => absurd (hEnds.symm.trans (hNone token hToken)) nofun
    rw [hLast]
    obtain ⟨-, hTokens⟩ | ⟨hNonempty, value, later, hTokens, hStarts⟩ := shiftedTokens_cases prompt command
    · rw [hTokens] at hToken
      cases hToken
    · -- The token after the last terminator is not the first one of the command.
      obtain ⟨j, rfl⟩ : ∃ j, i = j + 1 := ⟨i - 1, by omega⟩
      have hPositive := List.length_pos_of_ne_nil hNonempty
      rw [hTokens]
      dsimp only
      rw [List.getElem?_cons_succ, List.getElem?_cons_succ]
      cases hNext : later[j]? with
      | none =>
        rw [Option.map_none, Option.getD_none]
        omega
      | some next =>
        have hStart := hStarts next (List.mem_of_getElem? hNext)
        rw [Option.map_some, Option.getD_some]
        omega

theorem eq_nil_of_trim {kept : CodeUnits} (hKept : kept <+: command.units) (h : CodeUnits.trim kept = []) : kept = [] := by
  cases kept with
  | nil => rfl
  | cons u kept =>
    obtain ⟨rest, hUnits⟩ := hKept
    have hFirst := command.unindented u (by rw [← hUnits]; rfl)
    rw [CodeUnits.trim, List.dropWhile_cons_of_neg (by simp [hFirst]), List.rdropWhile_eq_nil_iff] at h
    exact absurd (h u List.mem_cons_self) (by simp [hFirst])

theorem drop_echoed : (echoed prompt command).drop (prompt.units.length + 1) = command.units := by
  rw [echoed, List.append_cons, List.drop_left' (by simp)]

/-- A command is recovered unless one of its first arguments ends like a prompt. -/
theorem recovered_iff : Recovered prompt command ↔ hasNoPromptEnd command = true := by
  refine ⟨fun h => (offset_iff prompt command).mp h.offset, fun h => ?_⟩
  have hOffset := (offset_iff prompt command).mpr h
  refine ⟨hOffset, ?_⟩
  simp only [renderedCommand, hOffset, drop_echoed]
  split
  · rename_i hBlank
    exact (eq_nil_of_trim command (List.rdropWhile_prefix _ _) hBlank).symm
  · rfl

def commandStartOffset (rendered : Text) : Nat :=
  (Utf16.toText ((Utf16.ofText rendered).take (resolvePromptCommandStartOffset (Utf16.ofText rendered) none))).length

def homePrompt : Prompt where
  units := CodeUnits.ofAscii "me@host:~$".toList
  unspaced := by decide
  identity := by decide
  terminated := by decide

def percentCommand : CommandText where
  units := CodeUnits.ofAscii "echo 100%".toList
  unindented := by decide

theorem percent_command_is_lost : resolvePromptCommandStartOffset (echoed homePrompt percentCommand) none = 20 ∧
    renderedCommand (echoed homePrompt percentCommand) none = [] ∧ ¬ Recovered homePrompt percentCommand := by
  refine ⟨by decide, by decide, fun hRecovered => ?_⟩
  have hOffset := hRecovered.offset
  revert hOffset
  decide

end SshPage
