import Mathlib.Data.List.Infix
import Cosmosh.Library.JsMap
import Cosmosh.Terminal.RecentCommands

/-! # History items of the completion engine

The line before the cursor is cut into tokens, recent commands are compared with them, and a chosen item replaces the
current token of the line.
-/

namespace Terminal

open Library Library.CodeUnits

inductive TerminalTokenizerMode
  | posix
  | powershell
  | cmd
  deriving DecidableEq

inductive TokenQuote
  | single
  | double
  deriving DecidableEq

structure ParsedCommandToken where
  value : CodeUnits
  start : Nat
  «end» : Nat
  deriving DecidableEq

structure OpenToken where
  start : Nat
  value : CodeUnits
  quote : Option TokenQuote

def OpenToken.close (token : OpenToken) (cursor : Nat) : ParsedCommandToken := ⟨token.value, token.start, cursor⟩

/-- What one round of the inner loop adds to the value, the quote after it, and whether it takes two units. -/
def consume (mode : TerminalTokenizerMode) (quote : Option TokenQuote) (char : Nat) (next : Option Nat) :
    CodeUnits × Option TokenQuote × Bool :=
  match quote with
  | some .single =>
    if mode = .powershell ∧ char = 0x27 ∧ next = some 0x27 then ([0x27], some .single, true)
    else if char = 0x27 then ([], none, false)
    else ([char], some .single, false)
  | some .double =>
    if char = 0x22 then ([], none, false)
    else
      match next with
      | none => ([char], some .double, false)
      | some escaped =>
        if mode = .posix ∧ char = 0x5c ∧ (escaped = 0x22 ∨ escaped = 0x5c ∨ escaped = 0x24 ∨ escaped = 0x60) then
          ([escaped], some .double, true)
        else if mode = .powershell ∧ char = 0x60 then ([escaped], some .double, true)
        else ([char], some .double, false)
  | none =>
    if char = 0x27 ∧ (mode = .posix ∨ mode = .powershell) then ([], some .single, false)
    else if char = 0x22 then ([], some .double, false)
    else
      match next with
      | none => ([char], none, false)
      | some escaped => if mode = .posix ∧ char = 0x5c then ([escaped], none, true) else ([char], none, false)

def parseTokens (mode : TerminalTokenizerMode) : Nat → Option OpenToken → CodeUnits → List ParsedCommandToken
  | cursor, token, [] => (token.map (·.close cursor)).toList
  | cursor, token, char :: rest =>
    if token.bind OpenToken.quote = none ∧ isWhitespace char = true then
      (token.map (·.close cursor)).toList ++ parseTokens mode (cursor + 1) none rest
    else
      let token := token.getD ⟨cursor, [], none⟩
      match consume mode token.quote char rest.head?, rest with
      | (units, quote, true), _ :: rest => parseTokens mode (cursor + 2) (some ⟨token.start, token.value ++ units, quote⟩) rest
      | (units, quote, _), rest => parseTokens mode (cursor + 1) (some ⟨token.start, token.value ++ units, quote⟩) rest

def parseCommandTokens (line : CodeUnits) (mode : TerminalTokenizerMode) : List ParsedCommandToken := parseTokens mode 0 none line

def tokenizeCommand (line : CodeUnits) (mode : TerminalTokenizerMode) : List CodeUnits :=
  ((parseCommandTokens line mode).map fun token => trim token.value).filter (· ≠ [])

/-- `/\s$/` -/
def endsInWhitespace (line : CodeUnits) : Bool := line.getLast?.any isWhitespace

structure CurrentToken where
  token : CodeUnits
  tokenIndex : Nat
  replacePrefixLength : Nat
  deriving DecidableEq

def resolveCurrentToken (linePrefix : CodeUnits) (parsedTokens : List ParsedCommandToken) : CurrentToken :=
  if trim linePrefix = [] then ⟨[], 0, 0⟩
  else
    match parsedTokens.getLast? with
    | none => ⟨[], 0, 0⟩
    | some token =>
      if endsInWhitespace linePrefix then ⟨[], parsedTokens.length, 0⟩
      else ⟨token.value, parsedTokens.length - 1, token.value.length⟩

inductive TerminalCommandSubcommand
  | mk (name : CodeUnits) (subcommands : List TerminalCommandSubcommand)

def TerminalCommandSubcommand.name : TerminalCommandSubcommand → CodeUnits
  | mk name _ => name

def TerminalCommandSubcommand.subcommands : TerminalCommandSubcommand → List TerminalCommandSubcommand
  | mk _ subcommands => subcommands

structure TerminalCommandSpec where
  command : CodeUnits
  subcommands : List TerminalCommandSubcommand

def COMMAND_PATH_SEPARATOR : CodeUnits := [0x20]

def buildCommandPath (tokens : List CodeUnits) : CodeUnits := trim (List.intercalate COMMAND_PATH_SEPARATOR tokens)

section Engine

variable (toLowerCase : CodeUnits → CodeUnits)

def normalizeToken (value : CodeUnits) : CodeUnits := toLowerCase (trim value)

def registeredPaths (spec : TerminalCommandSpec) : List CodeUnits :=
  let command := normalizeToken toLowerCase spec.command
  spec.command :: match (command.splitOn 0x20).filter (· ≠ []) with
    | [token] => if 0x2d ∈ token then [token.map fun u => if u = 0x2d then 0x20 else u] else []
    | [first, second] => [first ++ 0x2d :: second]
    | _ => []

def resolveSpecByCommandPath (specs : List TerminalCommandSpec) (commandPath : CodeUnits) : Option TerminalCommandSpec :=
  let normalizedPath := normalizeToken toLowerCase commandPath
  if normalizedPath = [] then none
  else specs.find? fun spec => (registeredPaths toLowerCase spec).any fun path => normalizeToken toLowerCase path = normalizedPath

def startsWithDash (token : CodeUnits) : Bool := token.head? = some 0x2d

def longestSpec (specs : List TerminalCommandSpec) (fixedTokens : List CodeUnits) : Nat → Option (TerminalCommandSpec × List CodeUnits)
  | 0 => none
  | length + 1 =>
    let candidateTokens := fixedTokens.take (length + 1)
    match resolveSpecByCommandPath toLowerCase specs (buildCommandPath candidateTokens) with
    | none => longestSpec specs fixedTokens length
    | some candidateSpec =>
      let nextToken := (fixedTokens[length + 1]?).getD []
      if length + 1 < fixedTokens.length ∧ nextToken ≠ [] ∧ startsWithDash nextToken = false then
        longestSpec specs fixedTokens length
      else some (candidateSpec, candidateTokens)

def descendSubcommands (specs : List TerminalCommandSpec) (firstToken : CodeUnits) :
    Nat → List TerminalCommandSubcommand → List CodeUnits → List CodeUnits → TerminalCommandSpec × List CodeUnits
  | _, cursor, matchedTokens, [] => (⟨buildCommandPath matchedTokens, cursor⟩, matchedTokens)
  | index, cursor, matchedTokens, token :: tokens =>
    if token = [] ∨ startsWithDash token = true then (⟨buildCommandPath matchedTokens, cursor⟩, matchedTokens)
    else
      match if index = 1 then resolveSpecByCommandPath toLowerCase specs (firstToken ++ 0x2d :: token) else none with
      | some spec => descendSubcommands specs firstToken (index + 1) spec.subcommands (matchedTokens ++ [token]) tokens
      | none =>
        match cursor.find? fun entry => normalizeToken toLowerCase entry.name = normalizeToken toLowerCase token with
        | none => (⟨buildCommandPath matchedTokens, cursor⟩, matchedTokens)
        | some entry => descendSubcommands specs firstToken (index + 1) entry.subcommands (matchedTokens ++ [token]) tokens

def resolveBestSpecContext (specs : List TerminalCommandSpec) (tokens : List CodeUnits) (currentTokenIndex : Nat)
    (currentTokenValue : CodeUnits) : Option (TerminalCommandSpec × List CodeUnits) :=
  let effectiveLength := if trim currentTokenValue ≠ [] then currentTokenIndex + 1 else currentTokenIndex
  match tokens.take effectiveLength with
  | [] => none
  | firstToken :: laterTokens =>
    match longestSpec toLowerCase specs (firstToken :: laterTokens) (laterTokens.length + 1) with
    | some found => some found
    | none =>
      (resolveSpecByCommandPath toLowerCase specs firstToken).map fun rootSpec =>
        descendSubcommands toLowerCase specs firstToken 1 rootSpec.subcommands [firstToken] laterTokens

def subsequenceGaps : CodeUnits → CodeUnits → Nat → Option Nat
  | [], _, gapPenalty => some gapPenalty
  | _ :: _, [], _ => none
  | q :: query, c :: candidate, gapPenalty =>
    if q = c then subsequenceGaps query candidate gapPenalty else subsequenceGaps (q :: query) candidate (gapPenalty + 1)

def computeSubsequenceScore (query candidate : CodeUnits) (fuzzyMatch : Bool) : Int :=
  let normalizedQuery := normalizeToken toLowerCase query
  let normalizedCandidate := normalizeToken toLowerCase candidate
  let surplus : Int := normalizedCandidate.length - normalizedQuery.length
  if normalizedQuery = [] ∨ normalizedCandidate = [] then 0
  else if normalizedQuery <+: normalizedCandidate then 1000 - min 80 surplus
  else if normalizedQuery <:+: normalizedCandidate then 600 - min 120 surplus
  else if fuzzyMatch = false then 0
  else
    match subsequenceGaps normalizedQuery normalizedCandidate 0 with
    | none => 0
    | some gapPenalty => max 120 (260 - gapPenalty)

def startsWithNormalizedTokens (tokens prefixTokens : List CodeUnits) : Bool :=
  prefixTokens ≠ [] && prefixTokens.length ≤ tokens.length &&
    (tokens.zip prefixTokens).all fun pair =>
      normalizeToken toLowerCase pair.1 ≠ [] && normalizeToken toLowerCase pair.1 = normalizeToken toLowerCase pair.2

inductive TerminalCompletionSource
  | history
  | inshellisense
  | runtime
  deriving DecidableEq

inductive TerminalCompletionItemKind
  | command
  | subcommand
  | option
  | history
  | path
  | secret
  deriving DecidableEq

structure TerminalCompletionItem where
  id : CodeUnits
  label : CodeUnits
  insertText : CodeUnits
  replacePrefixLength : Option Nat
  detail : Option CodeUnits
  detailI18nKey : Option CodeUnits
  source : TerminalCompletionSource
  kind : TerminalCompletionItemKind
  score : Int
  deriving DecidableEq

structure HistoryContext where
  query : CodeUnits
  normalizedLinePrefix : CodeUnits
  currentTokenIndex : Nat
  currentTokenValue : CodeUnits
  fuzzyMatch : Bool
  matchedCommandTokens : List CodeUnits

def orElse (value fallback : CodeUnits) : CodeUnits := if value = [] then fallback else value

def historyTokenScore (context : HistoryContext) (historyTokens : List CodeUnits) : Int :=
  if context.currentTokenIndex = 0 then
    computeSubsequenceScore toLowerCase (orElse context.currentTokenValue context.query) (historyTokens.headD []) context.fuzzyMatch
  else if context.currentTokenValue ≠ [] then
    computeSubsequenceScore toLowerCase context.currentTokenValue (historyTokens.getD context.currentTokenIndex []) context.fuzzyMatch
  else 32

def toHistoryItem (command : CodeUnits) (context : HistoryContext) (tokenizerMode : TerminalTokenizerMode)
    (index totalCommands : Nat) : Option TerminalCompletionItem :=
  let label := trim command
  let historyTokens := tokenizeCommand label tokenizerMode
  let historyRootCommand := historyTokens.headD []
  let tokenScore := historyTokenScore toLowerCase context historyTokens
  let prefixBonus : Int :=
    if normalizeToken toLowerCase context.normalizedLinePrefix <+: normalizeToken toLowerCase label then 22 else 0
  let rootBonus : Int :=
    if context.currentTokenIndex = 0 ∧ normalizeToken toLowerCase (orElse context.currentTokenValue context.query) <+:
        normalizeToken toLowerCase historyRootCommand then 18
    else 0
  let score := tokenScore + prefixBonus + rootBonus
  let shouldInsertWholeCommand := context.currentTokenIndex = 0
  let historySuffixInsertText :=
    if shouldInsertWholeCommand then label
    else List.intercalate COMMAND_PATH_SEPARATOR (historyTokens.drop context.currentTokenIndex)
  if label = [] ∨ historyTokens = [] then none
  else if context.currentTokenIndex > 0 ∧ context.matchedCommandTokens ≠ [] ∧
      startsWithNormalizedTokens toLowerCase historyTokens context.matchedCommandTokens = false then none
  else if tokenScore ≤ 0 ∨ score ≤ 0 then none
  else if ¬shouldInsertWholeCommand ∧ historyTokens.getD context.currentTokenIndex [] = [] then none
  else if historySuffixInsertText = [] then none
  else some {
    id := ofAscii (['h', 'i', 's', 't', 'o', 'r', 'y', ':'] ++ Nat.toDigits 10 index ++ [':']) ++ label
    label
    insertText := historySuffixInsertText
    replacePrefixLength := some (if shouldInsertWholeCommand then context.normalizedLinePrefix.length else context.currentTokenValue.length)
    detail := some (ofAscii "History".toList)
    detailI18nKey := some (ofAscii "completion.labels.history".toList)
    source := .history
    kind := .history
    score := score + 24 + recencyBonus totalCommands index }

def addItemWithBestScore (target : JsMap CodeUnits TerminalCompletionItem) (item : TerminalCompletionItem) :
    JsMap CodeUnits TerminalCompletionItem :=
  match target.get? item.label with
  | none => target.set item.label item
  | some existing => if existing.score < item.score then target.set item.label item else target

/-- `cursorIndex` is the floor of the number sent. -/
structure TerminalCompletionRequest where
  linePrefix : CodeUnits
  cursorIndex : Int
  fuzzyMatch : Option Bool
  includeHistory : Option Bool
  trigger : CompletionTrigger

def TerminalCompletionRequest.normalizedLinePrefix (request : TerminalCompletionRequest) : CodeUnits :=
  request.linePrefix.take (max 0 (min (request.linePrefix.length : Int) request.cursorIndex)).toNat

def historyContext (specs : List TerminalCommandSpec) (tokenizerMode : TerminalTokenizerMode)
    (request : TerminalCompletionRequest) : HistoryContext :=
  let normalizedLinePrefix := request.normalizedLinePrefix
  let parsedTokens := parseCommandTokens normalizedLinePrefix tokenizerMode
  let currentToken := resolveCurrentToken normalizedLinePrefix parsedTokens
  let specContext := resolveBestSpecContext toLowerCase specs (parsedTokens.map ParsedCommandToken.value) currentToken.tokenIndex
    currentToken.token
  { query := normalizedLinePrefix.dropWhile isWhitespace
    normalizedLinePrefix
    currentTokenIndex := currentToken.tokenIndex
    currentTokenValue := currentToken.token
    fuzzyMatch := request.fuzzyMatch.getD true
    matchedCommandTokens := (specContext.map Prod.snd).getD [] }

def historyItems (specs : List TerminalCommandSpec) (tokenizerMode : TerminalTokenizerMode) (recentCommands : List Command)
    (request : TerminalCompletionRequest) : JsMap CodeUnits TerminalCompletionItem :=
  let context := historyContext toLowerCase specs tokenizerMode request
  let considered := consideredCommands request.trigger recentCommands
  if context.query = [] ∨ request.includeHistory = some false then JsMap.empty
  else
    (considered.zipIdx.filterMap fun (command, index) =>
      toHistoryItem toLowerCase command context tokenizerMode index considered.length).foldl addItemWithBestScore JsMap.empty

end Engine

/-- What `dispatchCompletionRequest` sends: the cursor is at the end. -/
def dispatchCompletionRequest (linePrefix : CodeUnits) (fuzzyMatch includeHistory : Bool) (trigger : CompletionTrigger) :
    TerminalCompletionRequest := ⟨linePrefix, linePrefix.length, some fuzzyMatch, some includeHistory, trigger⟩

/-- The line after `acceptAutocompleteAtIndex`; `replacePrefixLength` stands in where the item has none. -/
def nextLinePrefix (previousLinePrefix : CodeUnits) (replacePrefixLength : Nat) (targetItem : TerminalCompletionItem) : CodeUnits :=
  let deleteCount := targetItem.replacePrefixLength.getD replacePrefixLength
  previousLinePrefix.take (previousLinePrefix.length - deleteCount) ++ targetItem.insertText

end Terminal
