import Cosmosh.Library.JsMap
import Cosmosh.Library.JsText
import Cosmosh.Library.Transition

/-! # The service that runs port forwarding rules

An asynchronous call runs from one await to the next without a break, and anything else may run in between.
-/

namespace PortForward

open Library

inductive PortForwardType
  | «local»
  | remote
  | dynamic
  deriving DecidableEq

structure PortForwardRule where
  type : PortForwardType
  localBindHost : Option Text
  localBindPort : Option Nat
  remoteBindHost : Option Text
  remoteBindPort : Option Nat
  targetHost : Option Text
  targetPort : Option Nat
  deriving DecidableEq

structure Endpoint where
  host : Text
  port : Nat
  deriving DecidableEq

def readEndpoint : Option Text → Option Nat → Option Endpoint
  | some host, some port => if host = [] ∨ port = 0 then none else some ⟨host, port⟩
  | _, _ => none

inductive LocalServer
  | listening
  | closed
  deriving DecidableEq

structure Client where
  connected : Bool
  monitored : Bool
  firstError : Option Text
  closed : Bool
  handlers : Option Text
  deriving DecidableEq

structure PortForwardRuntimeState where
  ruleId : Text
  client : Client
  localServer : Option LocalServer
  bound : Option Endpoint
  lastError : Option Text
  tcpConnectionListener : Bool
  deriving DecidableEq

namespace PortForwardRuntimeState

variable (runtime : PortForwardRuntimeState)

def isOpen : Bool := runtime.client.connected || runtime.localServer = some .listening

def closeServer : PortForwardRuntimeState := { runtime with localServer := runtime.localServer.map fun _ => .closed }

def endClient : PortForwardRuntimeState := { runtime with client := { runtime.client with connected := false } }

end PortForwardRuntimeState

inductive StartPortForwardRuleResult
  | success (rule : PortForwardRule) (runtime : Nat)
  | notFound
  | active
  | hostUntrusted (fingerprint : Text)
  | failed (message : Text)
  deriving DecidableEq

inductive StopPortForwardRuleResult
  | success (rule : PortForwardRule)
  | notFound
  deriving DecidableEq

inductive CallResult
  | start (result : StartPortForwardRuleResult)
  | stop (result : StopPortForwardRuleResult)
  | finished
  | rejected (error : Text)
  deriving DecidableEq

inductive CallKind
  | startRule
  | stopRule
  | handleUnexpectedClose (runtime : Nat)
  | shutdown
  deriving DecidableEq

inductive AfterDispose
  | startFailed (message : Text)
  | startThrows (error : Text)
  | stopRule
  | handleUnexpectedClose (message : Text)
  | shutdown
  deriving DecidableEq

inductive DisposeStage
  | unforwardIn
  | closeServer
  deriving DecidableEq

/-- What a call waits for. -/
inductive Point
  | running
  | findRule
  | trustedKeys (rule : PortForwardRule)
  | openSshClient (rule : PortForwardRule)
  | startForward (rule : PortForwardRule) (runtime : Nat) (endpoint : Endpoint)
  | persistStartFailure (message : Text)
  | updateStarted (rule : PortForwardRule) (runtime : Nat)
  | updateStopped
  | updateClosed (message : Text)
  | dispose (runtime : Nat) (stage : DisposeStage) (next : AfterDispose)
  | settled (result : CallResult)
  deriving DecidableEq

structure Call where
  kind : CallKind
  ruleId : Text
  point : Point
  deriving DecidableEq

inductive RowWrite
  | started (ruleId : Text)
  | startFailed (ruleId message : Text)
  | stopped (ruleId : Text)
  | unexpectedlyClosed (ruleId message : Text)
  deriving DecidableEq

structure PortForwardSessionService where
  activeRules : JsMap Text Nat
  startingRuleIds : List Text
  runtimes : List PortForwardRuntimeState
  calls : List Call
  writes : List RowWrite

def invalidPayload : Text := "errors.validation.invalidPayload".toList

def startFailedNoReason : Text := "errors.portForward.startFailedNoReason".toList

def sshConnectionClosed : Text := "errors.portForward.sshConnectionClosed".toList

/-- What `ssh2` throws once the transport is gone. -/
def notConnected : Text := "Not connected".toList

def resolveErrorMessage (error fallback : Text) : Text := if JsText.trim error = [] then fallback else error

def startLocalRule (rule : PortForwardRule) : Option Endpoint :=
  (readEndpoint rule.targetHost rule.targetPort).bind fun _ => readEndpoint rule.localBindHost rule.localBindPort

def startDynamicRule (rule : PortForwardRule) : Option Endpoint := readEndpoint rule.localBindHost rule.localBindPort

def startRemoteRule (rule : PortForwardRule) : Option Endpoint :=
  (readEndpoint rule.targetHost rule.targetPort).bind fun _ => readEndpoint rule.remoteBindHost rule.remoteBindPort

def forwardEndpoint (rule : PortForwardRule) : Option Endpoint :=
  match rule.type with
  | .«local» => startLocalRule rule
  | .dynamic => startDynamicRule rule
  | .remote => startRemoteRule rule

def newRuntime (ruleId : Text) : PortForwardRuntimeState where
  ruleId := ruleId
  client := ⟨true, true, none, false, none⟩
  localServer := none
  bound := none
  lastError := none
  tcpConnectionListener := false

def beginForward (type : PortForwardType) (runtime : PortForwardRuntimeState) : PortForwardRuntimeState :=
  match type with
  | .«local» => { runtime with localServer := some .listening }
  | .dynamic => { runtime with localServer := some .listening }
  | .remote => { runtime with tcpConnectionListener := true }

namespace PortForwardSessionService

variable (service : PortForwardSessionService)

def isRuleActive (ruleId : Text) : Bool := service.activeRules.has ruleId || ruleId ∈ service.startingRuleIds

def modifyRuntime (id : Nat) (change : PortForwardRuntimeState → PortForwardRuntimeState) :
    PortForwardSessionService := { service with runtimes := service.runtimes.modify id change }

def write (entry : RowWrite) : PortForwardSessionService := { service with writes := service.writes ++ [entry] }

def moveTo (i : Nat) (call : Call) (point : Point) : PortForwardSessionService :=
  { service with calls := service.calls.set i { call with point := point } }

def settle (i : Nat) (call : Call) (result : CallResult) : PortForwardSessionService :=
  { service.moveTo i call (.settled result) with
    startingRuleIds :=
      if call.kind = .startRule then service.startingRuleIds.filter (· ≠ call.ruleId) else service.startingRuleIds }

inductive DisposeProgress
  | waiting (stage : DisposeStage)
  | completed
  | rejected (error : Text)

def closeRuntimeServer (id : Nat) : PortForwardSessionService × DisposeProgress :=
  if (service.runtimes[id]?.bind PortForwardRuntimeState.localServer).isSome then
    (service.modifyRuntime id .closeServer, .waiting .closeServer)
  else (service.modifyRuntime id .endClient, .completed)

def beginDispose (id : Nat) : PortForwardSessionService × DisposeProgress :=
  let service := service.modifyRuntime id fun runtime => { runtime with tcpConnectionListener := false }
  match service.runtimes[id]? with
  | none => (service, .completed)
  | some runtime =>
    if runtime.bound.isSome ∧ runtime.localServer = none then
      if runtime.client.connected then (service, .waiting .unforwardIn) else (service, .rejected notConnected)
    else service.closeRuntimeServer id

def continueDispose (id : Nat) : DisposeStage → PortForwardSessionService × DisposeProgress
  | .unforwardIn => service.closeRuntimeServer id
  | .closeServer =>
    ((service.modifyRuntime id fun runtime => { runtime with localServer := none }).modifyRuntime id .endClient,
      .completed)

def closeHandled (i : Nat) (call : Call) (message : Text) : PortForwardSessionService :=
  service.settle i call (if call.kind = .startRule then .start (.failed message) else .finished)

def disposed (i : Nat) (call : Call) : AfterDispose → PortForwardSessionService
  | .startFailed message =>
    (service.write (.startFailed call.ruleId message)).moveTo i call (.persistStartFailure message)
  | .startThrows error => service.settle i call (.rejected error)
  | .stopRule => (service.write (.stopped call.ruleId)).moveTo i call .updateStopped
  | .handleUnexpectedClose message =>
    (service.write (.unexpectedlyClosed call.ruleId message)).moveTo i call (.updateClosed message)
  | .shutdown => service.settle i call .finished

def disposeRejected (i : Nat) (call : Call) (error : Text) : AfterDispose → PortForwardSessionService
  | .handleUnexpectedClose message => service.closeHandled i call message
  | _ => service.settle i call (.rejected error)

def afterDispose (i : Nat) (call : Call) (id : Nat) (next : AfterDispose) :
    PortForwardSessionService × DisposeProgress → PortForwardSessionService
  | (service, .waiting stage) => service.moveTo i call (.dispose id stage next)
  | (service, .completed) => service.disposed i call next
  | (service, .rejected error) => service.disposeRejected i call error next

def disposeRuntimeState (i : Nat) (call : Call) (id : Nat) (next : AfterDispose) : PortForwardSessionService :=
  afterDispose i call id next (service.beginDispose id)

def handleUnexpectedClose (i : Nat) (call : Call) (message : Text) : PortForwardSessionService :=
  match service.activeRules.get? call.ruleId with
  | none => service.closeHandled i call message
  | some id =>
    let service := service.modifyRuntime id fun runtime => { runtime with lastError := some message }
    { service with activeRules := service.activeRules.delete call.ruleId }.disposeRuntimeState i call id
      (.handleUnexpectedClose message)

inductive OpenSshClientResult
  | ready
  | hostUntrusted (fingerprint : Text)
  | failed (message : Text)

inductive Answer
  | rule (rule : Option PortForwardRule)
  | opened (result : OpenSshClientResult)
  | updated (rule : PortForwardRule)
  | done
  | failed (error : Text)

def clientReady (i : Nat) (call : Call) (rule : PortForwardRule) : PortForwardSessionService :=
  let id := service.runtimes.length
  let service := { service with runtimes := service.runtimes ++ [newRuntime call.ruleId] }
  match forwardEndpoint rule with
  | none => service.disposeRuntimeState i call id (.startFailed (resolveErrorMessage invalidPayload startFailedNoReason))
  | some endpoint =>
    (service.modifyRuntime id (beginForward rule.type)).moveTo i call (.startForward rule id endpoint)

def forwardFailed (i : Nat) (call : Call) (id : Nat) (error : Text) : PortForwardSessionService :=
  (service.modifyRuntime id .closeServer).disposeRuntimeState i call id
    (.startFailed (resolveErrorMessage error startFailedNoReason))

def registerRuntime (i : Nat) (call : Call) (rule : PortForwardRule) (id : Nat) (endpoint : Endpoint) :
    PortForwardSessionService :=
  let service := service.modifyRuntime id fun runtime => { runtime with bound := some endpoint }
  ({ service with activeRules := service.activeRules.set call.ruleId id }.write (.started call.ruleId)).moveTo i call
    (.updateStarted rule id)

def handOver (i : Nat) (call : Call) (id : Nat) (updatedRule : PortForwardRule) : PortForwardSessionService :=
  let seen := (service.runtimes[id]?).bind fun runtime =>
    (runtime.client.firstError.or (if runtime.client.closed then some sshConnectionClosed else none)).filter (· ≠ [])
  let service := service.modifyRuntime id fun runtime =>
    { runtime with client := { runtime.client with handlers := some call.ruleId, monitored := false } }
  match seen with
  | some message => service.handleUnexpectedClose i call message
  | none => service.settle i call (.start (.success updatedRule id))

def startUpdateFailed (i : Nat) (call : Call) (id : Nat) (error : Text) : PortForwardSessionService :=
  { service with activeRules := service.activeRules.delete call.ruleId }.disposeRuntimeState i call id (.startThrows error)

def resumeStart (i : Nat) (call : Call) : Point → Answer → PortForwardSessionService
  | .findRule, .rule none => service.settle i call (.start .notFound)
  | .findRule, .rule (some rule) => service.moveTo i call (.trustedKeys rule)
  | .trustedKeys rule, .done => service.moveTo i call (.openSshClient rule)
  | .openSshClient _, .opened (.hostUntrusted fingerprint) =>
    service.settle i call (.start (.hostUntrusted fingerprint))
  | .openSshClient _, .opened (.failed message) =>
    (service.write (.startFailed call.ruleId message)).moveTo i call (.persistStartFailure message)
  | .openSshClient rule, .opened .ready => service.clientReady i call rule
  | .startForward rule id endpoint, .done => service.registerRuntime i call rule id endpoint
  | .startForward _ id _, .failed error => service.forwardFailed i call id error
  | .persistStartFailure message, .done => service.settle i call (.start (.failed message))
  | .updateStarted _ id, .updated rule => service.handOver i call id rule
  | .updateStarted _ id, .failed error => service.startUpdateFailed i call id error
  | .findRule, .failed error => service.settle i call (.rejected error)
  | .trustedKeys _, .failed error => service.settle i call (.rejected error)
  | .openSshClient _, .failed error => service.settle i call (.rejected error)
  | .persistStartFailure _, .failed error => service.settle i call (.rejected error)
  | _, _ => service

def resumeStop (i : Nat) (call : Call) : Point → Answer → PortForwardSessionService
  | .findRule, .rule none => service.settle i call (.stop .notFound)
  | .findRule, .rule (some _) =>
    match service.activeRules.get? call.ruleId with
    | none => (service.write (.stopped call.ruleId)).moveTo i call .updateStopped
    | some id =>
      { service with activeRules := service.activeRules.delete call.ruleId }.disposeRuntimeState i call id .stopRule
  | .updateStopped, .updated rule => service.settle i call (.stop (.success rule))
  | .findRule, .failed error => service.settle i call (.rejected error)
  | .updateStopped, .failed error => service.settle i call (.rejected error)
  | _, _ => service

def resumeDispose (i : Nat) (call : Call) (id : Nat) (stage : DisposeStage) (next : AfterDispose) :
    Answer → PortForwardSessionService
  | .done => afterDispose i call id next (service.continueDispose id stage)
  | _ => service

def resumeUpdateClosed (i : Nat) (call : Call) (message : Text) : Answer → PortForwardSessionService
  | .updated _ => service.closeHandled i call message
  | .failed _ => service.closeHandled i call message
  | _ => service

def resume (i : Nat) (answer : Answer) : PortForwardSessionService :=
  match service.calls[i]? with
  | none => service
  | some call =>
    match call.point with
    | .dispose id stage next => service.resumeDispose i call id stage next answer
    | .updateClosed message => service.resumeUpdateClosed i call message answer
    | point =>
      match call.kind with
      | .startRule => service.resumeStart i call point answer
      | .stopRule => service.resumeStop i call point answer
      | _ => service

def begin (call : Call) : PortForwardSessionService := { service with calls := service.calls ++ [call] }

def startRule (ruleId : Text) : PortForwardSessionService :=
  if service.isRuleActive ruleId then service.begin ⟨.startRule, ruleId, .settled (.start .active)⟩
  else
    { service with startingRuleIds := service.startingRuleIds ++ [ruleId] }.begin ⟨.startRule, ruleId, .findRule⟩

def stopRule (ruleId : Text) : PortForwardSessionService := service.begin ⟨.stopRule, ruleId, .findRule⟩

def shutdownRuntime (service : PortForwardSessionService) (entry : Text × Nat) : PortForwardSessionService :=
  let call : Call := ⟨.shutdown, entry.1, .running⟩
  (service.begin call).disposeRuntimeState service.calls.length call entry.2 .shutdown

def stop : PortForwardSessionService := service.activeRules.entries.foldl shutdownRuntime { service with activeRules := .empty }

def clientEvent (id : Nat) (message : Text) (change : Client → Client) : PortForwardSessionService :=
  match service.runtimes[id]? with
  | none => service
  | some runtime =>
    let service := service.modifyRuntime id fun runtime =>
      if runtime.client.monitored then { runtime with client := change runtime.client } else runtime
    match runtime.client.handlers with
    | none => service
    | some ruleId =>
      let call : Call := ⟨.handleUnexpectedClose id, ruleId, .running⟩
      (service.begin call).handleUnexpectedClose service.calls.length call message

def clientError (id : Nat) (message : Text) : PortForwardSessionService :=
  service.clientEvent id message fun client => { client with firstError := client.firstError.or (some message) }

def clientClose (id : Nat) : PortForwardSessionService :=
  (service.modifyRuntime id .endClient).clientEvent id sshConnectionClosed fun client => { client with closed := true }

end PortForwardSessionService

open PortForwardSessionService

/-- `disconnect` is the loss of the transport, before the client says so. -/
inductive ServiceEvent
  | startRule (ruleId : Text)
  | stopRule (ruleId : Text)
  | stop
  | resume (i : Nat) (answer : Answer)
  | disconnect (runtime : Nat)
  | clientError (runtime : Nat) (message : Text)
  | clientClose (runtime : Nat)

def stepService (service : PortForwardSessionService) : ServiceEvent → PortForwardSessionService
  | .startRule ruleId => service.startRule ruleId
  | .stopRule ruleId => service.stopRule ruleId
  | .stop => service.stop
  | .resume i answer => service.resume i answer
  | .disconnect id => service.modifyRuntime id .endClient
  | .clientError id message => service.clientError id message
  | .clientClose id => service.clientClose id

def newService : PortForwardSessionService := ⟨.empty, [], [], [], []⟩

def portForwardService : Transition.Machine PortForwardSessionService ServiceEvent where
  initial service := service = newService
  step := stepService

end PortForward
