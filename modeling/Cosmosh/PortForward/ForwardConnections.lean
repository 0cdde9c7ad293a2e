import Cosmosh.PortForward.SessionService

/-! # The connections of a runtime

A runtime counts the sockets it forwards and accepts no more than a fixed number.
-/

namespace PortForward

open Library

def MAX_ACTIVE_CONNECTIONS_PER_RULE : Int := 64

inductive ForwardStage
  | negotiating
  | forwarding
  | settled
  deriving DecidableEq

/-- `closed` once the socket has emitted `close`; a listener is there until it has run, and
`pipeListener` is the one of the pipe to a channel. -/
structure ForwardSocket where
  type : PortForwardType
  tracked : Bool
  timeoutListener : Bool
  closeListener : Bool
  errorListener : Bool
  pipeListener : Bool
  stage : ForwardStage
  channel : Option Nat
  destroyed : Bool
  closed : Bool

structure ForwardChannel where
  socket : Nat
  closeListener : Bool
  errorListener : Bool
  destroyed : Bool

inductive ConnectionMark
  | counted (socket : Nat)
  | released (socket : Nat)
  deriving DecidableEq

inductive Disposal
  | none
  | silenced
  | cleared
  | ended
  deriving DecidableEq

/-- `trace` is what has been counted and released so far. -/
structure RuntimeConnections where
  rule : PortForwardRule
  activeConnectionCount : Int
  localSockets : List Nat
  remoteSockets : List Nat
  channels : List Nat
  lastError : Option Text
  sockets : List ForwardSocket
  sshChannels : List ForwardChannel
  disposal : Disposal
  trace : List ConnectionMark

namespace RuntimeConnections

variable (runtime : RuntimeConnections)

def modifySocket (id : Nat) (change : ForwardSocket → ForwardSocket) : RuntimeConnections :=
  { runtime with sockets := runtime.sockets.modify id change }

def modifyChannel (id : Nat) (change : ForwardChannel → ForwardChannel) : RuntimeConnections :=
  { runtime with sshChannels := runtime.sshChannels.modify id change }

def destroySocket (id : Nat) : RuntimeConnections := runtime.modifySocket id fun socket => { socket with destroyed := true }

def destroyChannel (id : Nat) : RuntimeConnections := runtime.modifyChannel id fun channel => { channel with destroyed := true }

def release (id : Nat) : RuntimeConnections :=
  { runtime with
    activeConnectionCount := max 0 (runtime.activeConnectionCount - 1), trace := runtime.trace ++ [.released id] }

def refusedSocket (type : PortForwardType) : ForwardSocket := ⟨type, false, false, false, false, false, .settled, none, true, false⟩

def trackedSocket (type : PortForwardType) (stage : ForwardStage) : ForwardSocket :=
  ⟨type, true, true, true, true, false, stage, none, false, false⟩

/-- `forwardOut` of a dynamic rule waits for the negotiation. -/
def firstStage : PortForwardType → ForwardStage
  | .dynamic => .negotiating
  | .«local» | .remote => .forwarding

def trackLocalSocket (type : PortForwardType) : RuntimeConnections :=
  let id := runtime.sockets.length
  { runtime with
    sockets := runtime.sockets ++ [trackedSocket type (firstStage type)]
    localSockets := runtime.localSockets ++ [id]
    activeConnectionCount := runtime.activeConnectionCount + 1
    trace := runtime.trace ++ [.counted id] }

/-- `handleLocalTcpConnection` and `handleDynamicTcpConnection`. -/
def handleTcpConnection (type : PortForwardType) : RuntimeConnections :=
  if MAX_ACTIVE_CONNECTIONS_PER_RULE ≤ runtime.activeConnectionCount then
    { runtime with sockets := runtime.sockets ++ [refusedSocket type] }
  else runtime.trackLocalSocket type

def pipeSocketAndChannel (id : Nat) : RuntimeConnections :=
  let channel := runtime.sshChannels.length
  let runtime : RuntimeConnections := { runtime with
    sshChannels := runtime.sshChannels ++ [⟨id, true, true, false⟩]
    channels := runtime.channels ++ [channel] }
  runtime.modifySocket id fun socket => { socket with channel := some channel, pipeListener := true, stage := .settled }

/-- The callback of `forwardOut`. -/
def forwardedOut (id : Nat) (error : Option Text) : RuntimeConnections :=
  match error with
  | some message =>
    { runtime with lastError := some message }.modifySocket id fun socket =>
      { socket with stage := .settled, destroyed := true }
  | none => runtime.pipeSocketAndChannel id

def pipeRemoteForwardConnection : RuntimeConnections :=
  if (readEndpoint runtime.rule.targetHost runtime.rule.targetPort).isNone then runtime
  else
    let id := runtime.sockets.length
    let channel := runtime.sshChannels.length
    { runtime with
      sshChannels := runtime.sshChannels ++ [⟨id, true, true, false⟩]
      channels := runtime.channels ++ [channel]
      sockets := runtime.sockets ++ [{ trackedSocket .remote .settled with channel := some channel }]
      remoteSockets := runtime.remoteSockets ++ [id]
      activeConnectionCount := runtime.activeConnectionCount + 1
      trace := runtime.trace ++ [.counted id] }

/-- The `tcp connection` listener; `accepts` unless `accept` throws. -/
def tcpConnectionListener (accepts : Bool) : RuntimeConnections :=
  if MAX_ACTIVE_CONNECTIONS_PER_RULE ≤ runtime.activeConnectionCount then runtime
  else if accepts then runtime.pipeRemoteForwardConnection
  else runtime

def cleanupLocalSocket (id : Nat) : RuntimeConnections := { runtime with localSockets := runtime.localSockets.erase id }.release id

def cleanupRemoteSocket (id : Nat) (channel : Option Nat) : RuntimeConnections :=
  { runtime with
    channels := channel.elim runtime.channels runtime.channels.erase
    remoteSockets := runtime.remoteSockets.erase id }.release id

def cleanup (id : Nat) (socket : ForwardSocket) : RuntimeConnections :=
  if socket.type = .remote then runtime.cleanupRemoteSocket id socket.channel else runtime.cleanupLocalSocket id

def socketClosed (id : Nat) (socket : ForwardSocket) : RuntimeConnections :=
  let runtime := runtime.modifySocket id fun socket =>
    { socket with closed := true, closeListener := false, pipeListener := false }
  let runtime := if socket.closeListener then runtime.cleanup id socket else runtime
  if socket.pipeListener then socket.channel.elim runtime runtime.destroyChannel else runtime

def socketFailed (id : Nat) (socket : ForwardSocket) (message : Text) : RuntimeConnections :=
  let runtime := runtime.modifySocket id fun socket => { socket with errorListener := false }
  if socket.errorListener then
    let runtime := { runtime with lastError := some message }
    match socket.type, socket.channel with
    | .remote, some channel => runtime.destroyChannel channel
    | _, _ => runtime
  else runtime

def socketTimedOut (id : Nat) (socket : ForwardSocket) : RuntimeConnections :=
  let runtime := runtime.modifySocket id fun socket => { socket with timeoutListener := false }
  if socket.timeoutListener then runtime.destroySocket id else runtime

def channelClosed (id : Nat) (channel : ForwardChannel) (type : PortForwardType) : RuntimeConnections :=
  let runtime := runtime.modifyChannel id fun channel => { channel with closeListener := false }
  if channel.closeListener then
    if type = .remote then runtime.destroySocket channel.socket
    else { runtime with channels := runtime.channels.erase id }
  else runtime

def channelFailed (id : Nat) (channel : ForwardChannel) (message : Text) : RuntimeConnections :=
  let runtime := runtime.modifyChannel id fun channel => { channel with errorListener := false }
  if channel.errorListener then { runtime with lastError := some message }.destroySocket channel.socket else runtime

def clearSockets : RuntimeConnections :=
  { runtime with
    sockets := runtime.sockets.mapIdx fun id socket =>
      if id ∈ runtime.localSockets ∨ id ∈ runtime.remoteSockets then { socket with destroyed := true } else socket
    sshChannels := runtime.sshChannels.mapIdx fun id channel =>
      if id ∈ runtime.channels then { channel with destroyed := true } else channel
    localSockets := []
    remoteSockets := []
    channels := []
    disposal := .cleared }

end RuntimeConnections

/-- `socksDone` is the end of the negotiation of a dynamic forward, with or without a request. -/
inductive ConnectionEvent
  | connection
  | tcpConnection (accepts : Bool)
  | socksDone (socket : Nat) (connects : Bool)
  | forwardedOut (socket : Nat) (error : Option Text)
  | socketError (socket : Nat) (message : Text)
  | socketTimeout (socket : Nat)
  | socketEnd (socket : Nat)
  | socketClose (socket : Nat)
  | channelError (channel : Nat) (message : Text)
  | channelEnd (channel : Nat)
  | channelClose (channel : Nat)
  | silence
  | clear
  | disposed

/-- A server that is closed, and a client without the listener, bring no connections. -/
def stepConnection (runtime : RuntimeConnections) : ConnectionEvent → RuntimeConnections
  | .connection =>
    if runtime.rule.type ≠ .remote ∧ (runtime.disposal = .none ∨ runtime.disposal = .silenced) then
      runtime.handleTcpConnection runtime.rule.type
    else runtime
  | .tcpConnection accepts =>
    if runtime.rule.type = .remote ∧ runtime.disposal = .none then runtime.tcpConnectionListener accepts else runtime
  | .socksDone id connects =>
    match runtime.sockets[id]? with
    | none => runtime
    | some socket =>
      if socket.stage = .negotiating then
        if connects then runtime.modifySocket id fun socket => { socket with stage := .forwarding }
        else runtime.destroySocket id
      else runtime
  | .forwardedOut id error =>
    match runtime.sockets[id]? with
    | none => runtime
    | some socket => if socket.stage = .forwarding then runtime.forwardedOut id error else runtime
  | .socketError id message =>
    match runtime.sockets[id]? with
    | none => runtime
    | some socket => runtime.socketFailed id socket message
  | .socketTimeout id =>
    match runtime.sockets[id]? with
    | none => runtime
    | some socket => runtime.socketTimedOut id socket
  | .socketEnd _ => runtime
  | .socketClose id =>
    match runtime.sockets[id]? with
    | none => runtime
    | some socket => runtime.socketClosed id socket
  | .channelError id message =>
    match runtime.sshChannels[id]? with
    | none => runtime
    | some channel => runtime.channelFailed id channel message
  | .channelEnd _ => runtime
  | .channelClose id =>
    match runtime.sshChannels[id]? with
    | none => runtime
    | some channel => runtime.channelClosed id channel runtime.rule.type
  | .silence => if runtime.disposal = .none then { runtime with disposal := .silenced } else runtime
  | .clear => if runtime.disposal = .silenced then runtime.clearSockets else runtime
  | .disposed =>
    if runtime.disposal = .cleared then { runtime with activeConnectionCount := 0, disposal := .ended } else runtime

def newConnections (rule : PortForwardRule) : RuntimeConnections := ⟨rule, 0, [], [], [], none, [], [], .none, []⟩

def runtimeConnections : Transition.Machine RuntimeConnections ConnectionEvent where
  initial runtime := ∃ rule, runtime = newConnections rule
  step := stepConnection

end PortForward
