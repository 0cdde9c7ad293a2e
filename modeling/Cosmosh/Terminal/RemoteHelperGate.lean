import Mathlib.Algebra.GroupWithZero.Nat
import Cosmosh.Library.Transition
import Cosmosh.Terminal.RemoteShellEvents

/-! # The gate of the remote helper

A session starts without trust in what the remote shell prints.
-/

namespace Terminal

open Library

inductive RemoteShellName
  | bash
  | zsh
  | fish
  | sh
  | ash
  deriving DecidableEq

inductive RemoteShellCapability
  | cwd
  | commandStart
  | commandEnd
  | foregroundCommand
  | promptReady
  | lineState
  deriving DecidableEq

inductive RemoteShellEvent
  | integrationReady
  | promptReady (promptGeneration : Option Nat)
  | cwd (cwd : Output)
  | commandStart (command commandId : Output)
  | commandEnd (command commandId : Output) (exitCode durationMs : Nat)
  | foregroundCommand (command commandId : Output)
  | lineState (lineLength cursorIndex promptGeneration : Nat)
  deriving DecidableEq

structure RemoteShellEventMessage where
  shell : RemoteShellName
  helperVersion : Output
  protocolVersion : Nat
  capabilities : List RemoteShellCapability
  timestamp : Nat
  event : RemoteShellEvent
  deriving DecidableEq

structure RemoteBootstrapRuntimeContract where
  shell : RemoteShellName
  helperVersion : Output
  protocolVersion : Nat
  capabilities : List RemoteShellCapability
  deriving DecidableEq

def remoteShellEventMatchesContract (event : RemoteShellEventMessage) (contract : RemoteBootstrapRuntimeContract) :
    Bool :=
  event.shell = contract.shell &&
    event.helperVersion = contract.helperVersion &&
    event.protocolVersion = contract.protocolVersion &&
    event.capabilities.length = contract.capabilities.length &&
    event.capabilities.all fun capability => capability ∈ contract.capabilities

inductive RemoteEnhancementRuntimeState
  | pending
  | active
  | disabled
  deriving DecidableEq

structure RemoteBootstrapStatus where
  phase : String
  state : String
  version : Option String
  code : Option String
  message : Option String
  deriving DecidableEq

inductive ServerMessage
  | ready
  | bootstrapStatus (status : RemoteBootstrapStatus)
  | runtimeStatus (state : RemoteEnhancementRuntimeState) (contract : Option RemoteBootstrapRuntimeContract)
      (code message : Option String)
  | output (data : Output)
  | remoteShellEvent (event : RemoteShellEventMessage)
  | exit (reason : String)
  deriving DecidableEq

inductive Observation
  | accepted (event : RemoteShellEventMessage)
  | sent (socket : Nat) (message : ServerMessage)
  deriving DecidableEq

structure Socket where
  id : Nat
  isOpen : Bool
  deriving DecidableEq

/-- `trace` is what has happened so far. -/
structure SshLiveSession where
  remoteShellEventParser : RemoteShellEventOscParser
  pendingStreamFrames : List (StreamFrame RemoteShellEventMessage)
  pendingStreamFrameBytes : Nat
  pendingStreamFrameDropCount : Nat
  remoteShellReady : Bool
  remoteShellCwd : Option Output
  remoteShellForegroundCommand : Option Output
  lastRemoteCommand : Option Output
  lastRemoteCommandId : Option Output
  lastExitCode : Option Nat
  lastCommandDurationMs : Option Nat
  commandCount : Nat
  pendingRemoteBootstrapStatuses : List RemoteBootstrapStatus
  remoteEnhancementsRuntimeState : RemoteEnhancementRuntimeState
  remoteEnhancementsRuntimeContract : Option RemoteBootstrapRuntimeContract
  remoteEnhancementsRuntimeCode : Option String
  remoteEnhancementsRuntimeMessage : Option String
  remoteEnhancementsHandshakeTimeout : Bool
  socket : Option Socket
  disposed : Bool
  trace : List Observation

def SSH_PENDING_STREAM_FRAME_MAX_COUNT : Nat := 2048

def SSH_PENDING_STREAM_FRAME_MAX_BYTES : Nat := 1024 * 1024

section

variable (stringify : RemoteShellEventMessage → Output)

def getPendingStreamFrameBytes : StreamFrame RemoteShellEventMessage → Nat
  | .output data => byteLength data
  | .event event => byteLength (stringify event)

def dropOldestFrames : List (StreamFrame RemoteShellEventMessage) → Nat → Nat →
    List (StreamFrame RemoteShellEventMessage) × Nat × Nat
  | [], bytes, dropCount => ([], bytes, dropCount)
  | frame :: frames, bytes, dropCount =>
    if SSH_PENDING_STREAM_FRAME_MAX_COUNT < (frame :: frames).length ∨ SSH_PENDING_STREAM_FRAME_MAX_BYTES < bytes then
      dropOldestFrames frames (bytes - getPendingStreamFrameBytes stringify frame) (dropCount + 1)
    else (frame :: frames, bytes, dropCount)

namespace SshLiveSession

variable (session : SshLiveSession)

def openSocket : Option Nat := session.socket.bind fun socket => if socket.isOpen then some socket.id else none

def bufferPendingStreamFrame (frame : StreamFrame RemoteShellEventMessage) : SshLiveSession :=
  let (frames, bytes, dropCount) := dropOldestFrames stringify (session.pendingStreamFrames ++ [frame])
    (session.pendingStreamFrameBytes + getPendingStreamFrameBytes stringify frame) session.pendingStreamFrameDropCount
  { session with
    pendingStreamFrames := frames, pendingStreamFrameBytes := bytes, pendingStreamFrameDropCount := dropCount }

def observe (observation : Observation) : SshLiveSession := { session with trace := session.trace ++ [observation] }

def sendServerMessage (payload : ServerMessage) : SshLiveSession :=
  if session.disposed then session
  else
    match session.openSocket, payload with
    | some socket, payload => session.observe (.sent socket payload)
    | none, .output data => session.bufferPendingStreamFrame stringify (.output data)
    | none, .remoteShellEvent event => session.bufferPendingStreamFrame stringify (.event event)
    | none, _ => session

def sendRemoteEnhancementRuntimeStatus : SshLiveSession :=
  session.sendServerMessage stringify (.runtimeStatus session.remoteEnhancementsRuntimeState
    session.remoteEnhancementsRuntimeContract session.remoteEnhancementsRuntimeCode
    session.remoteEnhancementsRuntimeMessage)

def clearRemoteEnhancementHandshakeTimeout : SshLiveSession := { session with remoteEnhancementsHandshakeTimeout := false }

def discardPendingRemoteShellEventFrames : SshLiveSession :=
  let frames := session.pendingStreamFrames.filter fun
    | .output _ => true
    | .event _ => false
  { session with
    pendingStreamFrames := frames
    pendingStreamFrameBytes := (frames.map (getPendingStreamFrameBytes stringify)).sum }

def disableRemoteEnhancementsRuntime (code message : String) : SshLiveSession :=
  let session := { session.clearRemoteEnhancementHandshakeTimeout with
    remoteEnhancementsRuntimeState := .disabled
    remoteEnhancementsRuntimeCode := some code
    remoteEnhancementsRuntimeMessage := some message }
  let session := { session.discardPendingRemoteShellEventFrames stringify with
    remoteShellReady := false
    remoteShellCwd := none
    remoteShellForegroundCommand := none
    lastRemoteCommand := none
    lastRemoteCommandId := none
    lastExitCode := none
    lastCommandDurationMs := none }
  session.sendRemoteEnhancementRuntimeStatus stringify

def applyRemoteShellEventState : RemoteShellEvent → SshLiveSession
  | .integrationReady => { session with remoteShellReady := true }
  | .promptReady _ => { session with remoteShellReady := true, remoteShellForegroundCommand := none }
  | .cwd cwd => if cwd = [] then session else { session with remoteShellCwd := some cwd }
  | .commandStart command commandId =>
    if command = [] then session
    else
      { session with
        lastRemoteCommand := some command
        lastRemoteCommandId := some commandId
        commandCount :=
          if session.lastRemoteCommandId = some commandId then session.commandCount else session.commandCount + 1 }
  | .commandEnd command _ exitCode durationMs =>
    { session with
      lastRemoteCommand := if command = [] then session.lastRemoteCommand else some command
      lastExitCode := some exitCode
      lastCommandDurationMs := some durationMs }
  | .foregroundCommand command _ => { session with remoteShellForegroundCommand := some command }
  | .lineState _ _ _ => session

/-- `accepted` marks the point behind all checks. -/
def acceptRemoteShellEvent (event : RemoteShellEventMessage) : SshLiveSession :=
  ((session.observe (.accepted event)).applyRemoteShellEventState event.event).sendServerMessage stringify
    (.remoteShellEvent event)

def handleRemoteShellEvent (event : RemoteShellEventMessage) : SshLiveSession :=
  if session.remoteEnhancementsRuntimeState = .disabled then session
  else if session.remoteEnhancementsRuntimeContract.all fun contract => !remoteShellEventMatchesContract event contract then
    session.disableRemoteEnhancementsRuntime stringify "HELPER_CONTRACT_MISMATCH" "remote helper contract mismatch"
  else if session.remoteEnhancementsRuntimeState = .pending then
    if event.event = .integrationReady then
      let session := { session.clearRemoteEnhancementHandshakeTimeout with
        remoteEnhancementsRuntimeState := .active
        remoteEnhancementsRuntimeCode := none
        remoteEnhancementsRuntimeMessage := none }
      (session.sendRemoteEnhancementRuntimeStatus stringify).acceptRemoteShellEvent stringify event
    else session
  else session.acceptRemoteShellEvent stringify event

def handleFrame (session : SshLiveSession) : StreamFrame RemoteShellEventMessage → SshLiveSession
  | .output data => session.sendServerMessage stringify (.output data)
  | .event event => session.handleRemoteShellEvent stringify event

def handleShellOutput (parseRemoteShellEventPayload : Output → Option RemoteShellEventMessage) (data : Output) :
    SshLiveSession :=
  let (frames, parser) := parse parseRemoteShellEventPayload session.remoteShellEventParser data
  frames.foldl (handleFrame stringify) { session with remoteShellEventParser := parser }

def sendQueuedFrame (session : SshLiveSession) (socket : Nat) (frame : StreamFrame RemoteShellEventMessage) :
    SshLiveSession :=
  if session.disposed then session
  else
    match frame with
    | .output data => session.observe (.sent socket (.output data))
    | .event event =>
      if session.remoteEnhancementsRuntimeState = .active then session.observe (.sent socket (.remoteShellEvent event))
      else session

def flushFrames (session : SshLiveSession) : List (StreamFrame RemoteShellEventMessage) → SshLiveSession
  | [] => { session with pendingStreamFrames := [], pendingStreamFrameDropCount := 0 }
  | frame :: frames =>
    match session.openSocket with
    | none => { session with pendingStreamFrames := frame :: frames }
    | some socket =>
      let session := { session with
        pendingStreamFrameBytes := session.pendingStreamFrameBytes - getPendingStreamFrameBytes stringify frame }
      flushFrames (session.sendQueuedFrame socket frame) frames

def sendBootstrapStatuses (session : SshLiveSession) : List RemoteBootstrapStatus → SshLiveSession
  | [] => { session with pendingRemoteBootstrapStatuses := [] }
  | status :: statuses => sendBootstrapStatuses (session.sendServerMessage stringify (.bootstrapStatus status)) statuses

def onSessionAttached : SshLiveSession :=
  let session := session.sendServerMessage stringify .ready
  let session := sendBootstrapStatuses stringify session session.pendingRemoteBootstrapStatuses
  let session := session.sendRemoteEnhancementRuntimeStatus stringify
  flushFrames stringify session session.pendingStreamFrames

def handleHandshakeTimeout : SshLiveSession :=
  let session := session.clearRemoteEnhancementHandshakeTimeout
  if session.disposed ∨ session.remoteEnhancementsRuntimeState ≠ .pending then session
  else
    session.disableRemoteEnhancementsRuntime stringify "HELPER_HANDSHAKE_TIMEOUT"
      "remote helper handshake was not received before the runtime deadline"

def disposeSession (reason : String) : SshLiveSession :=
  if session.disposed then session
  else
    let session := session.clearRemoteEnhancementHandshakeTimeout.sendServerMessage stringify (.exit reason)
    { session with disposed := true, socket := none }

end SshLiveSession

end

inductive RemoteBootstrapResult
  | ready (contract : RemoteBootstrapRuntimeContract)
  | disabled (code message : String)

def createSession (pendingRemoteBootstrapStatuses : List RemoteBootstrapStatus) (pendingOutputDropCount : Nat)
    (result : RemoteBootstrapResult) : SshLiveSession where
  remoteShellEventParser := newParser
  pendingStreamFrames := []
  pendingStreamFrameBytes := 0
  pendingStreamFrameDropCount := pendingOutputDropCount
  remoteShellReady := false
  remoteShellCwd := none
  remoteShellForegroundCommand := none
  lastRemoteCommand := none
  lastRemoteCommandId := none
  lastExitCode := none
  lastCommandDurationMs := none
  commandCount := 0
  pendingRemoteBootstrapStatuses := pendingRemoteBootstrapStatuses
  remoteEnhancementsRuntimeState :=
    match result with
    | .ready _ => .pending
    | .disabled _ _ => .disabled
  remoteEnhancementsRuntimeContract :=
    match result with
    | .ready contract => some contract
    | .disabled _ _ => none
  remoteEnhancementsRuntimeCode :=
    match result with
    | .ready _ => none
    | .disabled code _ => some code
  remoteEnhancementsRuntimeMessage :=
    match result with
    | .ready _ => none
    | .disabled _ message => some message
  remoteEnhancementsHandshakeTimeout :=
    match result with
    | .ready _ => true
    | .disabled _ _ => false
  socket := none
  disposed := false
  trace := []

/-- `socketClosing` is the attached socket leaving its open state. -/
inductive SessionEvent
  | ptyChunk (data : Output)
  | attach (socket : Nat)
  | socketClosing
  | handshakeTimeout
  | dispose (reason : String)

variable (stringify : RemoteShellEventMessage → Output)
  (parseRemoteShellEventPayload : Output → Option RemoteShellEventMessage)

def stepSession (session : SshLiveSession) : SessionEvent → SshLiveSession
  | .ptyChunk data => session.handleShellOutput stringify parseRemoteShellEventPayload data
  | .attach socket =>
    if session.disposed then session
    else { session with socket := some ⟨socket, true⟩ }.onSessionAttached stringify
  | .socketClosing =>
    { session with socket := session.socket.map fun socket => { socket with isOpen := false } }
  | .handshakeTimeout =>
    if session.remoteEnhancementsHandshakeTimeout then session.handleHandshakeTimeout stringify else session
  | .dispose reason => session.disposeSession stringify reason

def sshSession : Transition.Machine SshLiveSession SessionEvent where
  initial session := ∃ statuses dropCount result, session = createSession statuses dropCount result
  step := stepSession stringify parseRemoteShellEventPayload

end Terminal
