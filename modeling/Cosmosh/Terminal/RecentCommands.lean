import Cosmosh.Library.CodeUnits

/-! # Recent commands of a terminal session

What is typed and what the remote history says both go into the list that the completion engine reads.
-/

namespace Terminal

open Library Library.CodeUnits

abbrev Command := CodeUnits

def TERMINAL_HISTORY_MAX_ENTRIES : Nat := 200

/-- `(.*)$` -/
def restOfLine (t : CodeUnits) : Option CodeUnits := if t.any isLineTerminator then none else some t

/-- `/^#[0-9]{9,}$/` -/
def isHistoryTimestamp : CodeUnits → Bool
  | 0x23 :: digits => 9 ≤ digits.length && digits.all isDigit
  | _ => false

/-- `\d+` and the unit after it. -/
def stripDigitsAnd (unit : Nat) (t : CodeUnits) : Option CodeUnits :=
  match t.takeWhile isDigit, t.dropWhile isDigit with
  | _ :: _, u :: rest => if u = unit then some rest else none
  | _, _ => none

/-- `/^:\s*\d+:\d+;(.*)$/` -/
def zshExtendedMatch : CodeUnits → Option CodeUnits
  | 0x3a :: rest => ((stripDigitsAnd 0x3a (rest.dropWhile isWhitespace)).bind (stripDigitsAnd 0x3b)).bind restOfLine
  | _ => none

/-- `/^\s*\d+\*?\s+(.*)$/` -/
def numberedHistoryMatch (t : CodeUnits) : Option CodeUnits :=
  let number := t.dropWhile isWhitespace
  let marked := number.dropWhile isDigit
  let gap := if marked.head? = some 0x2a then marked.tail else marked
  if (number.takeWhile isDigit).isEmpty || (gap.takeWhile isWhitespace).isEmpty then none
  else restOfLine (gap.dropWhile isWhitespace)

/-- `/^(when|paths?|exit|cwd):\s*/i` -/
def isHistoryMetadata (t : CodeUnits) : Bool :=
  [['w', 'h', 'e', 'n', ':'], ['p', 'a', 't', 'h', ':'], ['p', 'a', 't', 'h', 's', ':'], ['e', 'x', 'i', 't', ':'],
    ['c', 'w', 'd', ':']].any fun word => (ofAscii word).isPrefixOf (toAsciiLower t)

def nonEmpty (t : CodeUnits) : Option CodeUnits := if t = [] then none else some t

def parseTerminalHistoryLine (line : CodeUnits) : Option Command :=
  let trimmed := trim line
  if trimmed = [] then none
  else if isHistoryTimestamp trimmed then none
  else
    match stripStart (ofAscii ['-', ' ', 'c', 'm', 'd', ':', ' ']) trimmed with
    | some fishCommand => nonEmpty (trim (unescapeNewlines fishCommand))
    | none =>
      match zshExtendedMatch trimmed with
      | some zshCommand => nonEmpty (trim zshCommand)
      | none =>
        match numberedHistoryMatch trimmed with
        | some command => nonEmpty (trim command)
        | none => if isHistoryMetadata trimmed then none else some trimmed

def newestCommands (maxEntries : Nat) : List Command → List Command → List Command
  | deduplicated, [] => deduplicated
  | deduplicated, command :: earlier =>
    if command ∈ deduplicated then newestCommands maxEntries deduplicated earlier
    else if maxEntries ≤ (deduplicated ++ [command]).length then deduplicated ++ [command]
    else newestCommands maxEntries (deduplicated ++ [command]) earlier

def parseTerminalHistoryOutput (output : CodeUnits) (maxEntries : Nat) : List Command :=
  (newestCommands maxEntries [] ((splitLines [] output).filterMap parseTerminalHistoryLine).reverse).reverse

/-- `append` of `mergeTerminalRecentCommands`: what has been seen is what has been merged. -/
def appendCommands (maxEntries : Nat) : List Command → List Command → List Command
  | merged, [] => merged
  | merged, command :: commands =>
    let normalized := trim command
    if normalized = [] ∨ normalized ∈ merged then appendCommands maxEntries merged commands
    else if maxEntries ≤ (merged ++ [normalized]).length then merged ++ [normalized]
    else appendCommands maxEntries (merged ++ [normalized]) commands

def mergeTerminalRecentCommands (prioritized fallback : List Command) (maxEntries : Nat) : List Command :=
  let merged := appendCommands maxEntries [] prioritized
  if merged.length < maxEntries then appendCommands maxEntries merged fallback else merged

structure TerminalInteractiveCompletionState where
  lineBuffer : CodeUnits
  recentCommands : List Command
  deriving DecidableEq

def submitCommand (maxEntries : Nat) (recentCommands : List Command) (command : Command) : List Command :=
  (command :: recentCommands.filter (· ≠ command)).take maxEntries

def commitCurrentBuffer (maxEntries : Nat) (state : TerminalInteractiveCompletionState) :
    TerminalInteractiveCompletionState × Option Command :=
  let normalizedCommand := trim state.lineBuffer
  if normalizedCommand = [] then ({ state with lineBuffer := [] }, none)
  else (⟨[], submitCommand maxEntries state.recentCommands normalizedCommand⟩, some normalizedCommand)

/-- The second result is what `onCommandSubmitted` is called with, in order. -/
def updateInteractiveCompletionState (maxEntries : Nat) :
    TerminalInteractiveCompletionState → CodeUnits → TerminalInteractiveCompletionState × List Command
  | state, [] => (state, [])
  | state, char :: inputData =>
    if char = 0x1b then (state, [])
    else if char = 0x0d ∨ char = 0x0a then
      let committed := commitCurrentBuffer (max 1 maxEntries) state
      let rest := updateInteractiveCompletionState maxEntries committed.1 inputData
      (rest.1, committed.2.toList ++ rest.2)
    else if char = 0x03 then updateInteractiveCompletionState maxEntries { state with lineBuffer := [] } inputData
    else if char = 0x7f ∨ char = 0x08 then
      updateInteractiveCompletionState maxEntries { state with lineBuffer := state.lineBuffer.dropLast } inputData
    else if char = 0x09 ∨ char = 0 then updateInteractiveCompletionState maxEntries state inputData
    else if 0x20 ≤ char then
      updateInteractiveCompletionState maxEntries { state with lineBuffer := state.lineBuffer ++ [char] } inputData
    else updateInteractiveCompletionState maxEntries state inputData

/-- `recentCommands` is what the sidebar shows. -/
structure CommandSession where
  recentCommands : List Command
  completionLineBuffer : CodeUnits
  completionRecentCommands : List Command
  deriving DecidableEq

def CommandSession.opened : CommandSession := ⟨[], [], []⟩

/-- `history` is the answer that `readRemoteHistory` gets, if it gets one. -/
inductive CommandEvent
  | input (data : CodeUnits)
  | history (stdout : Option CodeUnits)

def CommandSession.input (session : CommandSession) (data : CodeUnits) : CommandSession × List Command :=
  let updated := updateInteractiveCompletionState TERMINAL_HISTORY_MAX_ENTRIES
    ⟨session.completionLineBuffer, session.completionRecentCommands⟩ data
  (⟨session.recentCommands, updated.1.lineBuffer, updated.1.recentCommands⟩, updated.2)

def CommandSession.syncRemoteHistory (session : CommandSession) (stdout : Option CodeUnits) : CommandSession :=
  match stdout with
  | none => session
  | some output =>
    let commands := parseTerminalHistoryOutput output TERMINAL_HISTORY_MAX_ENTRIES
    ⟨commands, session.completionLineBuffer,
      mergeTerminalRecentCommands commands session.completionRecentCommands TERMINAL_HISTORY_MAX_ENTRIES⟩

inductive CompletionTrigger
  | typing
  | manual
  deriving DecidableEq

def maxHistoryItems : CompletionTrigger → Nat
  | .typing => 160
  | .manual => 1200

/-- `slice(-maxHistoryItems)` -/
def consideredCommands {α : Type} (trigger : CompletionTrigger) (recentCommands : List α) : List α :=
  recentCommands.drop (recentCommands.length - maxHistoryItems trigger)

def recencyBonus (totalCommands index : Nat) : Nat :=
  let distanceFromLatest := totalCommands - 1 - index
  180 - distanceFromLatest * 8

end Terminal
