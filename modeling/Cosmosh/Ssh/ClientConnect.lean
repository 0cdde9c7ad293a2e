import Cosmosh.Library.Transition
import Cosmosh.Ssh.ServerStore

/-! # Opening an SSH client

The function waits for the proxy, then for the client.
-/

namespace SshConnect

open Ssh

inductive ProxyMode
  | off
  | system
  | custom
  deriving DecidableEq, Repr

inductive ProxyProtocol
  | unknown
  | direct
  | http
  | https
  | socks5
  deriving DecidableEq, Repr

structure SshProxyMetadata where
  mode : ProxyMode
  protocol : ProxyProtocol
  deriving DecidableEq, Repr

/-- `socket` says whether there is one. -/
structure PreparedSshProxyTransport where
  socket : Bool
  readyTimeoutMs : Nat
  metadata : SshProxyMetadata
  deriving DecidableEq, Repr

inductive ProxyFailure
  | proxy (message : String) (metadata : SshProxyMetadata)
  | error (message : String)
  | other
  deriving DecidableEq, Repr

inductive Message
  | translated (key : String)
  | text (message : String)
  deriving DecidableEq, Repr

inductive OpenSshClientResult
  | ready (completionSecretValue : Option String) (proxyMetadata : SshProxyMetadata)
  | hostUntrusted (fingerprint message : String) (proxyMetadata : SshProxyMetadata)
  | failed (message : Message) (proxyMetadata : Option SshProxyMetadata)
  deriving DecidableEq, Repr

def OpenSshClientResult.isReady : OpenSshClientResult → Bool
  | .ready _ _ => true
  | _ => false

/-- `signal` says whether the caller gave one. -/
structure Options where
  connectTimeoutSec : Nat
  enableSshCompression : Option Bool
  signal : Bool
  strictHostKey : Bool
  trustedFingerprintSet : List String

abbrev AbortReason := Option String

def readSshConnectionAbortError (reason : AbortReason) : String := reason.getD "SSH connection cancelled."

structure ConnectConfig where
  host : String
  port : Nat
  username : String
  readyTimeout : Nat
  keepaliveInterval : Nat
  keepaliveCountMax : Nat
  compress : List String
  hostHash : String
  password : Option String
  privateKey : Option String
  passphrase : Option String
  sock : Bool
  deriving DecidableEq, Repr

def buildSshCompressionAlgorithms (enableSshCompression : Bool) : List String :=
  if enableSshCompression then ["zlib@openssh.com", "zlib", "none"] else ["none"]

def hostVerifier (options : Options) (hashedKey : String) : Bool := !options.strictHostKey || options.trustedFingerprintSet.contains hashedKey

section

variable (decryptSensitiveValue : String → Option String)

def given : Option String → Option String
  | some value => if value = "" then none else some value
  | none => none

def decrypted (value : String) : Except Message String :=
  match decryptSensitiveValue value with
  | some plain => .ok plain
  | none => .error (.translated "errors.ssh.decryptCredentialsFailed")

def requiredSecret (stored : Option String) (missing : String) : Except Message String :=
  match given stored with
  | some value => decrypted decryptSensitiveValue value
  | none => .error (.translated missing)

def readPassword (config : ConnectConfig) (keychain : CredentialMaterial) : Except Message ConnectConfig :=
  if keychain.authType = .password ∨ keychain.authType = .both then do
    let password ← requiredSecret decryptSensitiveValue keychain.passwordEncrypted "errors.ssh.passwordNotConfigured"
    pure { config with password := some password }
  else pure config

def readPrivateKey (config : ConnectConfig) (keychain : CredentialMaterial) : Except Message ConnectConfig :=
  if keychain.authType = .key ∨ keychain.authType = .both then do
    let privateKey ← requiredSecret decryptSensitiveValue keychain.privateKeyEncrypted "errors.ssh.privateKeyNotConfigured"
    match given keychain.privateKeyPassphraseEncrypted with
    | none => pure { config with privateKey := some privateKey }
    | some stored => do
      let passphrase ← decrypted decryptSensitiveValue stored
      pure { config with privateKey := some privateKey, passphrase := some passphrase }
  else pure config

def readCredentials (config : ConnectConfig) (keychain : CredentialMaterial) : Except Message ConnectConfig := do
  let config ← readPassword decryptSensitiveValue config keychain
  readPrivateKey decryptSensitiveValue config keychain

def completionSecretValue (config : ConnectConfig) : Option String :=
  match given config.password with
  | some password => some password
  | none => if config.passphrase.isSome then config.passphrase else config.password

end

structure SshClientLifecycleMonitor where
  firstError : Option String
  closed : Bool
  releaseRequestedAfterClose : Bool
  released : Bool
  deriving DecidableEq, Repr

inductive ErrorListener
  | monitor
  | attempt
  deriving DecidableEq, Repr

structure Client where
  config : Option ConnectConfig
  holdsSocket : Bool
  ended : Bool
  destroyed : Bool
  errorListeners : List ErrorListener
  readyListener : Bool
  closeListener : Bool
  deriving DecidableEq, Repr

def Client.new : Client := ⟨none, false, false, false, [], false, false⟩

inductive Phase
  | preparing
  | resuming (outcome : Except ProxyFailure PreparedSshProxyTransport)
  | opening (transport : PreparedSshProxyTransport)
  | over

inductive AbortListener
  | preparation
  | opening (transport : PreparedSshProxyTransport)

/-- `waitSettled` is the flag of the wait for the proxy, `settled` that of the wait for the client. Of the events it is kept
what came of them: the keys the client has shown, and whether it has been ready, has closed, and has been released. -/
structure State where
  phase : Phase
  config : ConnectConfig
  operationPending : Bool
  waitSettled : Bool
  abortReason : Option AbortReason
  abortListener : Option AbortListener
  socketUsable : Bool
  client : Client
  monitor : Option SshClientLifecycleMonitor
  presentedFingerprint : String
  settled : Bool
  results : List OpenSshClientResult
  presented : List String
  becameReady : Bool
  hasClosed : Bool
  released : Bool

/-- How a call of `connect` ends; a throw may come before the client has taken the socket over. -/
inductive ConnectOutcome
  | returned
  | threw (message : Option String) (holdsSocket : Bool)
  deriving DecidableEq, Repr

inductive Event
  | prepared (transport : PreparedSshProxyTransport)
  | preparationFailed (failure : ProxyFailure)
  | resume (connect : ConnectOutcome)
  | abort (reason : AbortReason)
  | hostKey (hashedKey : String)
  | ready
  | error (message : String)
  | close
  | release
  | releaseAfterClose
  deriving DecidableEq, Repr

namespace State

variable (s : State)

def releaseMonitor : State :=
  match s.monitor with
  | some monitor =>
    if monitor.released then s
    else
      { s with
        monitor := some { monitor with released := true }
        client := { s.client with errorListeners := s.client.errorListeners.filter (· ≠ .monitor), closeListener := false } }
  | none => s

def releaseMonitorAfterClose : State :=
  match s.monitor with
  | some monitor =>
    let s := { s with monitor := some { monitor with releaseRequestedAfterClose := true } }
    if monitor.closed then s.releaseMonitor else s
  | none => s

def noteError (message : String) : State :=
  { s with monitor := s.monitor.map fun monitor => { monitor with firstError := some (monitor.firstError.getD message) } }

def noteClose : State :=
  match s.monitor with
  | some monitor =>
    let s := { s with monitor := some { monitor with closed := true } }
    if monitor.releaseRequestedAfterClose then s.releaseMonitor else s
  | none => s

def destroySocket : State := { s with socketUsable := false }

def loseHeldSocket : State := if s.client.holdsSocket then s.destroySocket else s

def endClient : State := { s with client := { s.client with ended := true } }.loseHeldSocket

def destroyClient : State := { s with client := { s.client with destroyed := true } }.loseHeldSocket

def offError : State := { s with client := { s.client with errorListeners := s.client.errorListeners.filter (· ≠ .attempt) } }

def settle (result : OpenSshClientResult) : State :=
  if s.settled then s else { s with settled := true, abortListener := none, results := s.results ++ [result] }

def handleAbort (transport : PreparedSshProxyTransport) (reason : AbortReason) : State :=
  if s.settled then s
  else
    let s := s.offError.releaseMonitorAfterClose
    let s := s.settle (.failed (.text (readSshConnectionAbortError reason)) (some transport.metadata))
    s.destroyClient.destroySocket

def failureOf (options : Options) (transport : PreparedSshProxyTransport) (message : String) : OpenSshClientResult :=
  if options.strictHostKey ∧ s.presentedFingerprint ≠ "" ∧ ¬ options.trustedFingerprintSet.contains s.presentedFingerprint then
    .hostUntrusted s.presentedFingerprint message transport.metadata
  else .failed (.text message) (some transport.metadata)

def handleError (options : Options) (transport : PreparedSshProxyTransport) (message : String) : State :=
  if s.settled then s
  else
    let s := s.offError.releaseMonitorAfterClose.endClient
    s.settle (s.failureOf options transport message)

def handleReady (transport : PreparedSshProxyTransport) : State :=
  if s.settled then s else s.offError.settle (.ready (completionSecretValue s.config) transport.metadata)

def listen (options : Options) (transport : PreparedSshProxyTransport) : State :=
  { s with
    phase := .opening transport
    config := { s.config with readyTimeout := transport.readyTimeoutMs, sock := transport.socket }
    monitor := some ⟨none, false, false, false⟩
    client := { s.client with errorListeners := [.monitor, .attempt], readyListener := true, closeListener := true }
    abortListener := if options.signal then some (.opening transport) else none }

def connect (options : Options) (transport : PreparedSshProxyTransport) : ConnectOutcome → State
  | .returned => { s with client := { s.client with config := some s.config, holdsSocket := transport.socket } }
  | .threw message holdsSocket =>
    { s with client := { s.client with config := some s.config, holdsSocket := transport.socket && holdsSocket } }.handleError
      options transport (message.getD "SSH connection failed.")

def openClient (options : Options) (transport : PreparedSshProxyTransport) (outcome : ConnectOutcome) : State :=
  match s.abortReason with
  | some reason => (s.listen options transport).handleAbort transport reason
  | none => (s.listen options transport).connect options transport outcome

def rejectWait (failure : ProxyFailure) : State := { s with waitSettled := true, phase := .resuming (.error failure) }

def resolveWait (transport : PreparedSshProxyTransport) : State := { s with waitSettled := true, phase := .resuming (.ok transport) }

def dropPreparationListener : State :=
  { s with abortListener := match s.abortListener with
    | some .preparation => none
    | listener => listener }

def prepared (options : Options) (transport : PreparedSshProxyTransport) : State :=
  let s := { s with operationPending := false, socketUsable := transport.socket }
  if ¬ options.signal then s.resolveWait transport
  else
    let s := s.dropPreparationListener
    match s.abortReason with
    | some reason => if s.waitSettled then s.destroySocket else s.destroySocket.rejectWait (.error (readSshConnectionAbortError reason))
    | none => if s.waitSettled then s.destroySocket else s.resolveWait transport

def preparationFailed (options : Options) (failure : ProxyFailure) : State :=
  let s := { s with operationPending := false }
  if ¬ options.signal then s.rejectWait failure
  else
    let s := s.dropPreparationListener
    if s.waitSettled then s else s.rejectWait failure

def failWith : ProxyFailure → OpenSshClientResult
  | .proxy message metadata => .failed (.text message) (some metadata)
  | .error message => .failed (.text message) none
  | .other => .failed (.text "Proxy connection failed.") none

def resume (options : Options) (outcome : ConnectOutcome) : State :=
  match s.phase with
  | .resuming (.ok transport) => s.openClient options transport outcome
  | .resuming (.error failure) => { s with phase := .over, results := s.results ++ [failWith failure] }
  | _ => s

def abort (options : Options) (reason : AbortReason) : State :=
  if ¬ options.signal ∨ s.abortReason.isSome then s
  else
    let listener := s.abortListener
    let s := { s with abortReason := some reason, abortListener := none }
    match listener with
    | none => s
    | some .preparation => if s.waitSettled then s else s.rejectWait (.error (readSshConnectionAbortError reason))
    | some (.opening transport) => s.handleAbort transport reason

def emitReady : State :=
  let s := { s with becameReady := true }
  match s.phase with
  | .opening transport =>
    if s.client.readyListener then { s with client := { s.client with readyListener := false } }.handleReady transport else s
  | _ => s

def emitError (options : Options) (message : String) : State :=
  let listeners := s.client.errorListeners
  let s := if .monitor ∈ listeners then s.noteError message else s
  match s.phase with
  | .opening transport => if .attempt ∈ listeners then s.offError.handleError options transport message else s
  | _ => s

def emitClose : State :=
  let s := { s with hasClosed := true }
  if s.client.closeListener then s.noteClose else s

def step (options : Options) : Event → State
  | .prepared transport => if s.operationPending then s.prepared options transport else s
  | .preparationFailed failure => if s.operationPending then s.preparationFailed options failure else s
  | .resume outcome => s.resume options outcome
  | .abort reason => s.abort options reason
  | .hostKey hashedKey => { s with presentedFingerprint := hashedKey, presented := s.presented ++ [hashedKey] }
  | .ready => s.emitReady
  | .error message => s.emitError options message
  | .close => s.emitClose
  | .release => { s with released := true }.releaseMonitor
  | .releaseAfterClose => s.releaseMonitorAfterClose

end State

def initialConfig (options : Options) (server : SshServer) : ConnectConfig where
  host := server.host
  port := server.port
  username := server.username
  readyTimeout := options.connectTimeoutSec * 1000
  keepaliveInterval := 10000
  keepaliveCountMax := 3
  compress := buildSshCompressionAlgorithms (options.enableSshCompression.getD server.enableSshCompression)
  hostHash := "sha256"
  password := none
  privateKey := none
  passphrase := none
  sock := false

def preparing (options : Options) (config : ConnectConfig) : State where
  phase := .preparing
  config := config
  operationPending := true
  waitSettled := false
  abortReason := none
  abortListener := if options.signal then some .preparation else none
  socketUsable := false
  client := .new
  monitor := none
  presentedFingerprint := ""
  settled := false
  results := []
  presented := []
  becameReady := false
  hasClosed := false
  released := false

def returned (options : Options) (config : ConnectConfig) (abortReason : Option AbortReason) (message : Message) : State :=
  { preparing options config with
    phase := .over
    operationPending := false
    abortReason := abortReason
    abortListener := none
    results := [.failed message none] }

/-- The state of the call after its first turn. `abortReason` is that of a signal that was aborted before. -/
def openSshClient (decryptSensitiveValue : String → Option String) (options : Options) (server : SshServer) (keychain : CredentialMaterial)
    (abortReason : Option AbortReason) : State :=
  match if options.signal then abortReason else none with
  | some reason => returned options (initialConfig options server) (some reason) (.text (readSshConnectionAbortError reason))
  | none =>
    match readCredentials decryptSensitiveValue (initialConfig options server) keychain with
    | .error message => returned options (initialConfig options server) none message
    | .ok config => preparing options config

end SshConnect
