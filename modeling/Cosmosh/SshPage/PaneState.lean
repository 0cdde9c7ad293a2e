import Mathlib.Data.List.Nodup
import Mathlib.Data.List.TakeDrop
import Mathlib.Logic.Function.Basic
import Cosmosh.Library.Transition

/-! # The state of the terminal panes

Each pane of an SSH page has a state of its own, which the reducer changes by the transport state and by the messages of
the backend.
-/

namespace SshPage

def REMOTE_ENHANCEMENTS_DEBUG_EVENT_MAX_COUNT : Nat := 200

def COMMAND_TIMELINE_MAX_COUNT : Nat := 200

inductive RemoteShellName
  | bash
  | zsh
  | fish
  | sh
  | ash
  deriving DecidableEq

inductive RemoteShellCapability
  | cwd
  | command_start
  | command_end
  | foreground_command
  | prompt_ready
  | line_state
  deriving DecidableEq

inductive RemoteShellEvent
  | integration_ready
  | prompt_ready (promptGeneration : Option Int)
  | cwd (cwd : String)
  | command_start (command : String) (commandId : String)
  | command_end (command : String) (commandId : String) (exitCode : Int) (durationMs : Int)
  | foreground_command (command : String) (commandId : String)
  | line_state (lineLength : Int) (cursorIndex : Int) (promptGeneration : Int)
  deriving DecidableEq

structure RemoteShellEventMessage where
  shell : RemoteShellName
  helperVersion : String
  protocolVersion : Int
  capabilities : List RemoteShellCapability
  timestamp : Int
  event : RemoteShellEvent
  deriving DecidableEq

inductive RemoteBootstrapPhase
  | probe
  | manifest
  | download
  | install
  | verify
  deriving DecidableEq

inductive RemoteBootstrapState
  | started
  | ok
  | skipped
  | failed
  deriving DecidableEq

structure RemoteBootstrapStatus where
  phase : RemoteBootstrapPhase
  state : RemoteBootstrapState
  version : Option String
  code : Option String
  message : Option String
  deriving DecidableEq

inductive RuntimeState
  | pending
  | active
  | disabled
  deriving DecidableEq

structure RemoteEnhancementRuntimeStatus where
  state : RuntimeState
  helperVersion : Option String
  protocolVersion : Option Int
  capabilities : Option (List RemoteShellCapability)
  code : Option String
  message : Option String
  deriving DecidableEq

structure SshTelemetryState where
  cpuUsagePercent : Option Rat
  memoryUsedBytes : Option Rat
  memoryTotalBytes : Option Rat
  networkRxBytesPerSec : Option Rat
  networkTxBytesPerSec : Option Rat
  recentCommands : List String
  deriving DecidableEq

def DEFAULT_TELEMETRY_STATE : SshTelemetryState := ⟨none, none, none, none, none, []⟩

inductive DebugPayload
  | bootstrap_status (status : RemoteBootstrapStatus)
  | remote_enhancement_runtime_status (status : RemoteEnhancementRuntimeStatus)
  | remote_shell_event (message : RemoteShellEventMessage)
  deriving DecidableEq

inductive ServerInboundMessage
  | ready
  | output (data : String)
  | error (message : String)
  | exit (reason : String)
  | pong
  | telemetry (state : SshTelemetryState)
  | history (recentCommands : List String)
  | completion_response (requestId : String)
  | debug (payload : DebugPayload)
  deriving DecidableEq

structure SshPaneLineState where
  lineLength : Int
  cursorIndex : Int
  promptGeneration : Int
  deriving DecidableEq

structure SshPaneCommandLifecycle where
  commandId : String
  command : String
  startedAt : Int
  endedAt : Option Int
  durationMs : Option Int
  exitCode : Option Int
  deriving DecidableEq

inductive ConnectionState
  | connecting
  | connected
  | failed
  deriving DecidableEq

structure DebugEvent where
  receivedAt : Int
  payload : DebugPayload
  deriving DecidableEq

structure SshPaneState where
  connectionState : ConnectionState
  connectionError : String
  telemetryState : SshTelemetryState
  remoteBootstrapStatus : Option RemoteBootstrapStatus
  remoteEnhancementRuntimeStatus : Option RemoteEnhancementRuntimeStatus
  remoteEnhancementsDebugEvents : List DebugEvent
  trustedCwd : Option String
  promptGeneration : Option Int
  lineState : Option SshPaneLineState
  commandTimeline : List SshPaneCommandLifecycle
  deriving DecidableEq

abbrev PaneId := String

abbrev SshPaneStateMap := PaneId → Option SshPaneState

inductive SshPaneStateAction
  | ensure_pane (paneId : PaneId)
  | reset_pane (paneId : PaneId)
  | remove_pane (paneId : PaneId)
  | transport_state (paneId : PaneId) (connectionState : ConnectionState) (connectionError : Option String)
  | server_message (paneId : PaneId) (payload : ServerInboundMessage) (receivedAt : Int)
  deriving DecidableEq

def SshPaneStateAction.paneId : SshPaneStateAction → PaneId
  | ensure_pane paneId => paneId
  | reset_pane paneId => paneId
  | remove_pane paneId => paneId
  | transport_state paneId _ _ => paneId
  | server_message paneId _ _ => paneId

def createSshPaneState : SshPaneState where
  connectionState := .connecting
  connectionError := ""
  telemetryState := DEFAULT_TELEMETRY_STATE
  remoteBootstrapStatus := none
  remoteEnhancementRuntimeStatus := none
  remoteEnhancementsDebugEvents := []
  trustedCwd := none
  promptGeneration := none
  lineState := none
  commandTimeline := []

/-- `[...items.slice(-(limit - 1)), item]` -/
def appendBounded {α : Type} (limit : Nat) (items : List α) (item : α) : List α := items.drop (items.length - (limit - 1)) ++ [item]

def appendDebugEvent (state : SshPaneState) (payload : DebugPayload) (receivedAt : Int) : List DebugEvent :=
  appendBounded REMOTE_ENHANCEMENTS_DEBUG_EVENT_MAX_COUNT state.remoteEnhancementsDebugEvents ⟨receivedAt, payload⟩

def hasCommand (commandId : String) (timeline : List SshPaneCommandLifecycle) : Bool := timeline.any fun entry => entry.commandId = commandId

def appendCommandStart (timeline : List SshPaneCommandLifecycle) (command commandId : String) (receivedAt : Int) :
    List SshPaneCommandLifecycle :=
  if hasCommand commandId timeline then timeline
  else
    appendBounded COMMAND_TIMELINE_MAX_COUNT timeline {
      commandId := commandId
      command := command
      startedAt := receivedAt
      endedAt := none
      durationMs := none
      exitCode := none
    }

def updateFirst (commandId : String) (change : SshPaneCommandLifecycle → SshPaneCommandLifecycle) :
    List SshPaneCommandLifecycle → List SshPaneCommandLifecycle
  | [] => []
  | entry :: timeline => if entry.commandId = commandId then change entry :: timeline else entry :: updateFirst commandId change timeline

def completeCommand (command : String) (exitCode durationMs receivedAt : Int) (entry : SshPaneCommandLifecycle) : SshPaneCommandLifecycle :=
  { entry with command := command, endedAt := some receivedAt, durationMs := some durationMs, exitCode := some exitCode }

def applyCommandEnd (timeline : List SshPaneCommandLifecycle) (command commandId : String) (exitCode durationMs receivedAt : Int) :
    List SshPaneCommandLifecycle :=
  if hasCommand commandId timeline then
    updateFirst commandId (completeCommand command exitCode durationMs receivedAt) timeline
  else
    appendBounded COMMAND_TIMELINE_MAX_COUNT timeline {
      commandId := commandId
      command := command
      startedAt := max 0 (receivedAt - durationMs)
      endedAt := some receivedAt
      durationMs := some durationMs
      exitCode := some exitCode
    }

def reduceRemoteShellEvent (nextState : SshPaneState) (event : RemoteShellEvent) (receivedAt : Int) : SshPaneState :=
  match event with
  | .cwd cwd => { nextState with trustedCwd := some cwd }
  | .prompt_ready promptGeneration =>
    { nextState with promptGeneration := promptGeneration.or nextState.promptGeneration, lineState := none }
  | .line_state lineLength cursorIndex promptGeneration =>
    if nextState.promptGeneration ≠ none ∧ some promptGeneration ≠ nextState.promptGeneration then nextState
    else { nextState with promptGeneration := some promptGeneration, lineState := some ⟨lineLength, cursorIndex, promptGeneration⟩ }
  | .command_start command commandId =>
    { nextState with
      lineState := none
      commandTimeline := appendCommandStart nextState.commandTimeline command commandId receivedAt }
  | .command_end command commandId exitCode durationMs =>
    { nextState with commandTimeline := applyCommandEnd nextState.commandTimeline command commandId exitCode durationMs receivedAt }
  | .integration_ready => nextState
  | .foreground_command _ _ => nextState

def reduceServerMessage (state : SshPaneState) (payload : ServerInboundMessage) (receivedAt : Int) : SshPaneState :=
  match payload with
  | .ready => { state with connectionState := .connected, connectionError := "" }
  | .error message => { state with connectionState := .failed, connectionError := message }
  | .exit reason => { state with connectionState := .failed, connectionError := reason }
  | .telemetry telemetryState => { state with telemetryState := telemetryState }
  | .history recentCommands => { state with telemetryState := { state.telemetryState with recentCommands := recentCommands } }
  | .debug (.bootstrap_status status) =>
    { state with
      remoteBootstrapStatus := some status
      remoteEnhancementsDebugEvents := appendDebugEvent state (.bootstrap_status status) receivedAt }
  | .debug (.remote_enhancement_runtime_status status) =>
    let nextState := { state with
      remoteEnhancementRuntimeStatus := some status
      remoteEnhancementsDebugEvents := appendDebugEvent state (.remote_enhancement_runtime_status status) receivedAt }
    if status.state = .active then nextState
    else { nextState with trustedCwd := none, promptGeneration := none, lineState := none }
  | .debug (.remote_shell_event message) =>
    reduceRemoteShellEvent
      { state with remoteEnhancementsDebugEvents := appendDebugEvent state (.remote_shell_event message) receivedAt }
      message.event receivedAt
  | .output _ => state
  | .pong => state
  | .completion_response _ => state

def reduceTransportState (paneState : SshPaneState) (connectionState : ConnectionState) (connectionError : Option String) : SshPaneState :=
  { paneState with
    connectionState := connectionState
    connectionError := connectionError.getD (if connectionState = .failed then paneState.connectionError else "") }

def reduceSshPaneState (state : SshPaneStateMap) (action : SshPaneStateAction) : SshPaneStateMap :=
  match action with
  | .remove_pane paneId => Function.update state paneId none
  | .reset_pane paneId => Function.update state paneId (some createSshPaneState)
  | .ensure_pane paneId =>
    if (state paneId).isSome then state else Function.update state paneId (some createSshPaneState)
  | .transport_state paneId connectionState connectionError =>
    let paneState := (state paneId).getD createSshPaneState
    Function.update state paneId (some (reduceTransportState paneState connectionState connectionError))
  | .server_message paneId payload receivedAt =>
    let paneState := (state paneId).getD createSshPaneState
    Function.update state paneId (some (reduceServerMessage paneState payload receivedAt))

def initialPaneStates : SshPaneStateMap := Function.update (fun _ => none) "pane-1" (some createSshPaneState)

def paneStates : Library.Transition.Machine SshPaneStateMap SshPaneStateAction where
  initial := fun state => state = initialPaneStates
  step := reduceSshPaneState

end SshPage
