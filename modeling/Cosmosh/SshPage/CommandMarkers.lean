import Cosmosh.Library.JsText
import Cosmosh.Library.Transition

/-! # Command markers of a terminal pane

An Enter leaves a pending marker at the input row.
-/

namespace SshPage

open Library

structure BufferLine where
  isWrapped : Bool
  text : Text

structure TerminalBuffer where
  isNormal : Bool
  baseY : Nat
  cursorY : Nat
  lines : List BufferLine

structure Marker where
  id : Nat
  listens : Bool
  deriving DecidableEq

/-- The terminal as it is found at an event. `registerMarker` gives no marker, or one with a line, which is
negative when it is disposed of already. -/
structure TerminalView where
  active : TerminalBuffer
  normal : TerminalBuffer
  registerMarker : Int → Option Int
  line : Marker → Nat

structure PendingCommandMarker where
  marker : Marker
  recordedAt : Int
  deriving DecidableEq

structure TerminalCommandMarker where
  commandId : String
  command : Text
  inputMarker : Marker
  outputStartMarker : Marker
  outputEndMarker : Option Marker
  startedAt : Int
  endedAt : Option Int
  durationMs : Option Int
  exitCode : Option Int
  deriving DecidableEq

structure MarkerRuntime where
  pendingCommandMarkers : List PendingCommandMarker
  commandMarkers : List TerminalCommandMarker
  created : Nat
  live : List Marker
  removed : List TerminalCommandMarker

namespace MarkerRuntime

variable (commandStartOffset : Text → Nat) (runtime : MarkerRuntime)

def blank (entry : TerminalCommandMarker) : TerminalCommandMarker := { entry with command := [] }

def registerMarker (view : TerminalView) (offset : Int) (listens : Bool) : MarkerRuntime × Option Marker :=
  match view.registerMarker offset with
  | none => (runtime, none)
  | some line =>
    let next := { runtime with created := runtime.created + 1 }
    if line < 0 then (next, none) else ({ next with live := ⟨runtime.created, listens⟩ :: runtime.live }, some ⟨runtime.created, listens⟩)

def release (marker : Marker) : MarkerRuntime := { runtime with live := runtime.live.filter (· ≠ marker) }

def removeDisposedInputMarker (marker : Marker) : MarkerRuntime :=
  if runtime.pendingCommandMarkers.any (·.marker = marker) then
    { runtime with pendingCommandMarkers := runtime.pendingCommandMarkers.eraseP (·.marker = marker) }
  else
    match runtime.commandMarkers.find? (·.inputMarker = marker) with
    | none => runtime
    | some entry =>
      let next := { runtime with
        commandMarkers := runtime.commandMarkers.eraseP (·.inputMarker = marker)
        removed := blank entry :: runtime.removed }
      (entry.outputStartMarker :: entry.outputEndMarker.toList).foldl release next

def disposeMarker (marker : Marker) : MarkerRuntime :=
  if marker ∈ runtime.live then
    if marker.listens then (runtime.release marker).removeDisposedInputMarker marker else runtime.release marker
  else runtime

def disposeMarkers (markers : List Marker) : MarkerRuntime := markers.foldl disposeMarker runtime

def firstRow (buffer : TerminalBuffer) : Nat → Nat
  | 0 => 0
  | row + 1 => if (buffer.lines[row + 1]?.map (·.isWrapped)).getD false then firstRow buffer row else row + 1

def pushPending (view : TerminalView) (inputLine cursorLine : Nat) (recordedAt : Int) : MarkerRuntime × Option PendingCommandMarker :=
  match runtime.registerMarker view (inputLine - cursorLine) true with
  | (next, none) => (next, none)
  | (next, some marker) =>
    ({ next with pendingCommandMarkers := next.pendingCommandMarkers ++ [⟨marker, recordedAt⟩] }, some ⟨marker, recordedAt⟩)

def recordPendingCommandMarker (view : TerminalView) (recordedAt : Int) : MarkerRuntime × Bool :=
  if view.active.isNormal = false then (runtime, false)
  else
    let cursorLine := view.active.baseY + view.active.cursorY
    let (next, entry) := runtime.pushPending view (firstRow view.active cursorLine) cursorLine recordedAt
    (next, entry.isSome)

def synthesizeQueuedCommandMarker (view : TerminalView) (recordedAt : Int) : MarkerRuntime × Option PendingCommandMarker :=
  if view.active.isNormal = false then (runtime, none)
  else
    let cursorLine := view.active.baseY + view.active.cursorY
    let cursorRow := view.active.lines[cursorLine]?
    let cursorRowText := (cursorRow.map fun line => JsText.trimEnd line.text).getD []
    let inputLine :=
      if 0 < cursorLine ∧ (cursorRow.map (·.isWrapped)).getD false = false ∧ cursorRowText = [] then cursorLine - 1 else cursorLine
    runtime.pushPending view (firstRow view.active inputLine) cursorLine recordedAt

def renderedInput (buffer : TerminalBuffer) (inputLine : Nat) (rows : List Nat) : Text :=
  rows.flatMap fun row =>
    match buffer.lines[row]? with
    | none => []
    | some line => (if inputLine < row ∧ line.isWrapped = false then ['\n'] else []) ++ JsText.trimEnd line.text

def readRenderedCommand (buffer : TerminalBuffer) (inputLine outputStartLine : Nat) : Text :=
  let rows := (List.range (min outputStartLine buffer.lines.length)).drop inputLine
  if rows = [] then []
  else
    let rendered := renderedInput buffer inputLine rows
    let command := JsText.trimEnd (rendered.drop (commandStartOffset rendered))
    if JsText.trim command = [] then [] else command

def pendingCandidate (receivedAt : Int) : Option PendingCommandMarker :=
  runtime.pendingCommandMarkers.find? fun entry => entry.marker ∈ runtime.live && entry.recordedAt ≤ receivedAt

/-- The start of a command once its input marker is known. -/
def confirmCommand (view : TerminalView) (candidate : PendingCommandMarker) (commandId : String) (receivedAt : Int) : MarkerRuntime × Bool :=
  match runtime.registerMarker view 0 false with
  | (next, none) => (next, false)
  | (next, some outputStartMarker) =>
    let command := readRenderedCommand commandStartOffset view.normal (view.line candidate.marker) (view.line outputStartMarker)
    let consumed := next.pendingCommandMarkers.filter (·.recordedAt ≤ receivedAt)
    let kept := { next with pendingCommandMarkers := next.pendingCommandMarkers.filter fun entry => receivedAt < entry.recordedAt }
    let cleared := kept.disposeMarkers ((consumed.filter (· ≠ candidate)).map (·.marker))
    if command = [] then (cleared.disposeMarkers [candidate.marker, outputStartMarker], true)
    else
      ({ cleared with
        commandMarkers := cleared.commandMarkers ++ [{
          commandId := commandId
          command := command
          inputMarker := candidate.marker
          outputStartMarker := outputStartMarker
          outputEndMarker := none
          startedAt := receivedAt
          endedAt := none
          durationMs := none
          exitCode := none
        }] }, true)

def commandStart (view : TerminalView) (commandId : String) (receivedAt : Int) : MarkerRuntime × Bool :=
  if runtime.commandMarkers.any (·.commandId = commandId) then (runtime, false)
  else
    match runtime.pendingCandidate receivedAt with
    | some candidate => runtime.confirmCommand commandStartOffset view candidate commandId receivedAt
    | none =>
      match runtime.synthesizeQueuedCommandMarker view receivedAt with
      | (next, none) => (next, false)
      | (next, some candidate) => next.confirmCommand commandStartOffset view candidate commandId receivedAt

def completeEntry (marker : Marker) (receivedAt durationMs exitCode : Int) (entry : TerminalCommandMarker) : TerminalCommandMarker :=
  { entry with outputEndMarker := some marker, endedAt := some receivedAt, durationMs := some durationMs, exitCode := some exitCode }

def commandEnd (view : TerminalView) (commandId : String) (receivedAt durationMs exitCode : Int) : MarkerRuntime × Bool :=
  match runtime.commandMarkers.find? (·.commandId = commandId) with
  | none => (runtime, false)
  | some existing =>
    if existing.outputEndMarker.isSome then (runtime, false)
    else
      match runtime.registerMarker view 0 false with
      | (next, none) => (next, false)
      | (next, some outputEndMarker) =>
        ({ next with
          commandMarkers := next.commandMarkers.map fun entry =>
            if entry = existing then completeEntry outputEndMarker receivedAt durationMs exitCode entry else entry }, true)

def clearPendingCommandMarkers : MarkerRuntime × Bool :=
  if runtime.pendingCommandMarkers = [] then (runtime, false)
  else
    (disposeMarkers { runtime with pendingCommandMarkers := [] } (runtime.pendingCommandMarkers.map (·.marker)), true)

def entryMarkers (entry : TerminalCommandMarker) : List Marker := entry.inputMarker :: entry.outputStartMarker :: entry.outputEndMarker.toList

def clearTerminalCommandMarkers : MarkerRuntime × Bool :=
  if runtime.pendingCommandMarkers = [] ∧ runtime.commandMarkers = [] then (runtime, false)
  else
    let next := { runtime with
      pendingCommandMarkers := []
      commandMarkers := []
      removed := runtime.commandMarkers.map blank ++ runtime.removed }
    ((next.disposeMarkers (runtime.pendingCommandMarkers.map (·.marker))).disposeMarkers (runtime.commandMarkers.flatMap entryMarkers), true)

end MarkerRuntime

inductive MarkerEvent
  | enter (view : TerminalView) (recordedAt : Int)
  | command_start (view : TerminalView) (commandId : String) (receivedAt : Int)
  | command_end (view : TerminalView) (commandId : String) (receivedAt durationMs exitCode : Int)
  | prompt_ready
  | other
  | disposed (marker : Marker)
  | clear

def MarkerRuntime.step (commandStartOffset : Text → Nat) (runtime : MarkerRuntime) : MarkerEvent → MarkerRuntime
  | .enter view recordedAt => (runtime.recordPendingCommandMarker view recordedAt).1
  | .command_start view commandId receivedAt => (runtime.commandStart commandStartOffset view commandId receivedAt).1
  | .command_end view commandId receivedAt durationMs exitCode => (runtime.commandEnd view commandId receivedAt durationMs exitCode).1
  | .prompt_ready => runtime.clearPendingCommandMarkers.1
  | .other => runtime
  | .disposed marker => runtime.disposeMarker marker
  | .clear => runtime.clearTerminalCommandMarkers.1

def newMarkerRuntime : MarkerRuntime := ⟨[], [], 0, [], []⟩

def commandMarkers (commandStartOffset : Text → Nat) : Transition.Machine MarkerRuntime MarkerEvent where
  initial := fun runtime => runtime = newMarkerRuntime
  step := MarkerRuntime.step commandStartOffset

end SshPage
