import Cosmosh.Library.Transition
import Mathlib.Tactic.ByContra

/-! # The connection attempts of a terminal pane

Primary and secondary panes connect by attempts that supersede one another.
-/

namespace Terminal.Attempts

open Library.Transition

abbrev SessionId := String

inductive PaneOwner
  | primary
  | secondary
  deriving DecidableEq

inductive SshConnectionState
  | connecting
  | connected
  | failed
  deriving DecidableEq

inductive SessionType
  | sshServer
  | localTerminal
  deriving DecidableEq

/-- What an attempt awaits, or the session whose socket it listens to. -/
inductive Stage
  | flushingTerminal
  | replayingHistory
  | resolvingTarget
  | resolvingProxyRules
  | creatingSession (sessionType : SessionType) (isRetry : Bool)
  | confirmingFingerprint
  | trustingFingerprint
  | listening (sessionId : SessionId)
  | ended
  deriving DecidableEq

inductive ConnectMode
  | initial
  | retry
  deriving DecidableEq

structure Attempt where
  attemptId : Nat
  mode : ConnectMode
  stage : Stage
  deriving DecidableEq

structure OpenedSession where
  id : SessionId
  attemptId : Nat
  deriving DecidableEq

inductive ServerMessage
  | malformed
  | ready
  | error (message : String)
  | exit (reason : String)
  | other
  deriving DecidableEq

structure Pane where
  owner : PaneOwner
  isActive : Bool
  hasResolvedSnapshot : Bool
  resolvedTarget : Option SessionType
  disposed : Bool
  connectAttemptId : Nat
  hasCreatedPtySession : Bool
  attempts : List Attempt
  socket : Option SessionId
  sessionId : Option SessionId
  sessionType : Option SessionType
  connectionState : SshConnectionState
  connectionError : String
  opened : List OpenedSession
  closeRequests : List SessionId
  deriving DecidableEq

inductive CreateAnswer
  | created (id : SessionId)
  | hostUntrusted (message : String)
  | rejected (message : String)
  deriving DecidableEq

inductive PaneEvent
  | setActive (isActive : Bool)
  | setSnapshot (hasResolvedSnapshot : Bool)
  | setTarget (resolvedTarget : Option SessionType)
  | connect (preferredMode : ConnectMode)
  | dispose
  | terminalWritten (index : Nat)
  | targetAnswer (index : Nat) (answer : Except String SessionType)
  | proxyRules (index : Nat) (answer : Except String Unit)
  | sessionAnswer (index : Nat) (answer : CreateAnswer)
  | promptAnswer (index : Nat) (confirmed : Bool)
  | trustAnswer (index : Nat) (answer : Except String Unit)
  | socketMessage (index : Nat) (payload : ServerMessage)
  | socketOpen (index : Nat)
  | socketClose (index : Nat)
  | socketError (index : Nat)

namespace Pane

def isStaleAttempt (pane : Pane) (attempt : Attempt) : Bool := pane.disposed || attempt.attemptId ≠ pane.connectAttemptId

def setPaneTransportState (pane : Pane) (nextState : SshConnectionState) (error : String) : Pane :=
  { pane with connectionState := nextState, connectionError := error }

/-- `createSshPaneState`. -/
def resetPaneState (pane : Pane) : Pane := pane.setPaneTransportState .connecting ""

def setStage (pane : Pane) (index : Nat) (attempt : Attempt) (stage : Stage) : Pane :=
  { pane with attempts := pane.attempts.set index { attempt with stage := stage } }

/-- `closeLocalTerminalSession` or `closeSshSession`. -/
def closeSession (pane : Pane) (id : SessionId) : Pane := { pane with closeRequests := pane.closeRequests ++ [id] }

def closeRuntimeSession (pane : Pane) : Pane :=
  let released := { pane with socket := none, sessionId := none, sessionType := none }
  match pane.sessionId with
  | some previousSessionId => released.closeSession previousSessionId
  | none => released

/-- The `catch` of an attempt; only a secondary pane asks there whether the attempt is stale. -/
def fail (pane : Pane) (index : Nat) (attempt : Attempt) (message : String) : Pane :=
  let ended := pane.setStage index attempt .ended
  match pane.owner with
  | .primary => ended.setPaneTransportState .failed message
  | .secondary => if pane.isStaleAttempt attempt then ended else ended.setPaneTransportState .failed message

/-- `openTerminalSessionSocket` up to its first request. -/
def openTerminalSessionSocket (pane : Pane) (index : Nat) (attempt : Attempt) : SessionType → Pane
  | .localTerminal => pane.setStage index attempt (.creatingSession .localTerminal false)
  | .sshServer => pane.setStage index attempt .resolvingProxyRules

def resolveTarget (pane : Pane) (index : Nat) (attempt : Attempt) : Pane :=
  match pane.owner with
  | .primary =>
    if attempt.mode = .retry ∧ pane.hasResolvedSnapshot = false then
      pane.fail index attempt "Cannot retry without a resolved target snapshot."
    else pane.setStage index attempt .resolvingTarget
  | .secondary =>
    match pane.resolvedTarget with
    | some target => pane.openTerminalSessionSocket index attempt target
    | none => (pane.setStage index attempt .ended).setPaneTransportState .failed "ssh.sessionInitFailed"

def resolveConnectMode (pane : Pane) : ConnectMode → ConnectMode
  | .retry => if pane.hasResolvedSnapshot then .retry else .initial
  | .initial => .initial

/-- `connectSession` of a primary pane and `connectPaneSession` of a secondary one. -/
def connect (pane : Pane) (preferredMode : ConnectMode) : Pane :=
  if pane.disposed ∨ (pane.owner = .primary ∧ pane.isActive = false) then pane
  else
    let attempt : Attempt := ⟨pane.connectAttemptId + 1, pane.resolveConnectMode preferredMode, .flushingTerminal⟩
    let started := { pane.closeRuntimeSession with
      connectAttemptId := pane.connectAttemptId + 1
      attempts := pane.attempts ++ [attempt] }.resetPaneState
    if pane.hasCreatedPtySession then started else started.resolveTarget pane.attempts.length attempt

/-- `resetTerminalForNewPtySession`: the pane is reset between the two writes. -/
def terminalWritten (pane : Pane) (index : Nat) (attempt : Attempt) : Pane :=
  match attempt.stage with
  | .flushingTerminal =>
    if pane.isStaleAttempt attempt then pane.setStage index attempt .ended
    else (pane.setStage index attempt .replayingHistory).resetPaneState
  | .replayingHistory =>
    if pane.isStaleAttempt attempt then pane.setStage index attempt .ended else pane.resolveTarget index attempt
  | _ => pane

/-- A response after the abort is an `AbortError`, which ends the attempt silently. -/
def targetAnswer (pane : Pane) (index : Nat) (attempt : Attempt) : Except String SessionType → Pane
  | .ok target =>
    if pane.isStaleAttempt attempt then pane.setStage index attempt .ended
    else { pane with resolvedTarget := some target }.openTerminalSessionSocket index attempt target
  | .error message => pane.fail index attempt message

def proxyRules (pane : Pane) (index : Nat) (attempt : Attempt) : Except String Unit → Pane
  | .ok _ => pane.setStage index attempt (.creatingSession .sshServer false)
  | .error message => pane.fail index attempt message

def isKnown (pane : Pane) (id : SessionId) : Bool := pane.opened.any (·.id = id)

def addOpened (pane : Pane) (session : OpenedSession) : Pane := { pane with opened := pane.opened ++ [session] }

def sessionCreated (pane : Pane) (index : Nat) (attempt : Attempt) (sessionType : SessionType) (id : SessionId) : Pane :=
  let created := pane.addOpened ⟨id, attempt.attemptId⟩
  if pane.isKnown id then pane
  else if pane.isStaleAttempt attempt then (created.setStage index attempt .ended).closeSession id
  else
    { created.setStage index attempt (.listening id) with
      hasCreatedPtySession := true
      socket := some id
      sessionId := some id
      sessionType := some sessionType }

def sessionAnswer (pane : Pane) (index : Nat) (attempt : Attempt) (sessionType : SessionType) (isRetry : Bool) :
    CreateAnswer → Pane
  | .created id => pane.sessionCreated index attempt sessionType id
  | .hostUntrusted message =>
    if isRetry ∨ sessionType = .localTerminal then pane.fail index attempt message
    else pane.setStage index attempt .confirmingFingerprint
  | .rejected message => pane.fail index attempt message

def promptAnswer (pane : Pane) (index : Nat) (attempt : Attempt) (confirmed : Bool) : Pane :=
  if confirmed then pane.setStage index attempt .trustingFingerprint
  else pane.fail index attempt "ssh.hostFingerprintNotTrusted"

def trustAnswer (pane : Pane) (index : Nat) (attempt : Attempt) : Except String Unit → Pane
  | .ok _ => pane.setStage index attempt (.creatingSession .sshServer true)
  | .error message => pane.fail index attempt message

/-- `reduceServerMessage`, as far as it changes the transport state. -/
def reduceServerMessage (pane : Pane) : ServerMessage → Pane
  | .malformed => pane.setPaneTransportState .failed "ssh.websocketMalformedMessage"
  | .ready => pane.setPaneTransportState .connected ""
  | .error message => pane.setPaneTransportState .failed message
  | .exit reason => pane.setPaneTransportState .failed reason
  | .other => pane

def socketLost (pane : Pane) (message : String) : Pane := { pane with socket := none }.setPaneTransportState .failed message

def listener (pane : Pane) (attempt : Attempt) (handle : Pane → Pane) : Pane :=
  match attempt.stage with
  | .listening _ => if pane.isStaleAttempt attempt then pane else handle pane
  | _ => pane

/-- `disposeRuntime` of a primary pane and `runtime.dispose` of a secondary one. -/
def dispose (pane : Pane) : Pane :=
  if pane.disposed then pane
  else
    let disposed := { pane with disposed := true }
    match pane.owner with
    | .primary => disposed.closeRuntimeSession
    | .secondary => { disposed with connectAttemptId := pane.connectAttemptId + 1 }.closeRuntimeSession

def withAttempt (pane : Pane) (index : Nat) (handle : Attempt → Pane) : Pane :=
  match pane.attempts[index]? with
  | some attempt => handle attempt
  | none => pane

def step (pane : Pane) : PaneEvent → Pane
  | .setActive isActive => { pane with isActive := isActive }
  | .setSnapshot hasResolvedSnapshot => { pane with hasResolvedSnapshot := hasResolvedSnapshot }
  | .setTarget resolvedTarget => { pane with resolvedTarget := resolvedTarget }
  | .connect preferredMode => pane.connect preferredMode
  | .dispose => pane.dispose
  | .terminalWritten index => pane.withAttempt index fun attempt => pane.terminalWritten index attempt
  | .targetAnswer index answer =>
    pane.withAttempt index fun attempt =>
      if attempt.stage = .resolvingTarget then pane.targetAnswer index attempt answer else pane
  | .proxyRules index answer =>
    pane.withAttempt index fun attempt =>
      if attempt.stage = .resolvingProxyRules then pane.proxyRules index attempt answer else pane
  | .sessionAnswer index answer =>
    pane.withAttempt index fun attempt =>
      match attempt.stage with
      | .creatingSession sessionType isRetry => pane.sessionAnswer index attempt sessionType isRetry answer
      | _ => pane
  | .promptAnswer index confirmed =>
    pane.withAttempt index fun attempt =>
      if attempt.stage = .confirmingFingerprint then pane.promptAnswer index attempt confirmed else pane
  | .trustAnswer index answer =>
    pane.withAttempt index fun attempt =>
      if attempt.stage = .trustingFingerprint then pane.trustAnswer index attempt answer else pane
  | .socketMessage index payload =>
    pane.withAttempt index fun attempt => pane.listener attempt (·.reduceServerMessage payload)
  | .socketOpen index =>
    pane.withAttempt index fun attempt => pane.listener attempt (·.setPaneTransportState .connected "")
  | .socketClose index => pane.withAttempt index fun attempt => pane.listener attempt (·.socketLost "ssh.websocketClosed")
  | .socketError index =>
    pane.withAttempt index fun attempt => pane.listener attempt (·.socketLost "ssh.websocketTransportFailed")

def created (owner : PaneOwner) (isActive : Bool) (resolvedTarget : Option SessionType) : Pane :=
  ⟨owner, isActive, false, resolvedTarget, false, 0, false, [], none, none, none, .connecting, "", [], []⟩

end Pane

def panes : Machine Pane PaneEvent where
  initial pane := ∃ owner isActive resolvedTarget, pane = Pane.created owner isActive resolvedTarget
  step := Pane.step

def PaneEvent.index? : PaneEvent → Option Nat
  | .setActive _ | .setSnapshot _ | .setTarget _ | .connect _ | .dispose => none
  | .terminalWritten index | .targetAnswer index _ | .proxyRules index _ | .sessionAnswer index _
  | .promptAnswer index _ | .trustAnswer index _ | .socketMessage index _ | .socketOpen index | .socketClose index
  | .socketError index => some index

def PaneEvent.rejects (event : PaneEvent) (stage : Stage) : Bool :=
  match event, stage with
  | .targetAnswer _ (.error _), .resolvingTarget => true
  | .proxyRules _ (.error _), .resolvingProxyRules => true
  | .sessionAnswer _ (.rejected _), .creatingSession _ _ => true
  | .sessionAnswer _ (.hostUntrusted _), .creatingSession sessionType isRetry => isRetry || sessionType = .localTerminal
  | .promptAnswer _ confirmed, .confirmingFingerprint => !confirmed
  | .trustAnswer _ (.error _), .trustingFingerprint => true
  | _, _ => false

namespace Pane

def attempt? (pane : Pane) (event : PaneEvent) : Option Attempt := event.index?.bind (pane.attempts[·]?)

def isStale (pane : Pane) (event : PaneEvent) : Bool := (pane.attempt? event).any pane.isStaleAttempt

def rejectsNoStale (pane : Pane) (event : PaneEvent) : Bool :=
  (pane.attempt? event).all fun attempt =>
    pane.owner = .secondary || !pane.isStaleAttempt attempt || !event.rejects attempt.stage

structure SameTransport (pane pane' : Pane) : Prop where
  connectionState : pane'.connectionState = pane.connectionState
  connectionError : pane'.connectionError = pane.connectionError
  socket : pane'.socket = pane.socket
  sessionId : pane'.sessionId = pane.sessionId
  sessionType : pane'.sessionType = pane.sessionType

def OwnsSessions (pane : Pane) : Prop :=
  ∀ session ∈ pane.opened, session.id ∈ pane.closeRequests ∨
    (pane.sessionId = some session.id ∧ session.attemptId = pane.connectAttemptId ∧ pane.disposed = false)

end Pane

def StaleHasNoEffect (pane : Pane) (events : List PaneEvent) : Prop :=
  ∀ before event after, events = before ++ event :: after → (panes.run pane before).isStale event = true →
    (panes.run pane before).SameTransport (panes.run pane (before ++ [event]))

variable {pane : Pane}

theorem sameTransport_refl (pane : Pane) : pane.SameTransport pane := ⟨rfl, rfl, rfl, rfl, rfl⟩

theorem sameTransport_setStage (index : Nat) (attempt : Attempt) (stage : Stage) :
    pane.SameTransport (pane.setStage index attempt stage) := ⟨rfl, rfl, rfl, rfl, rfl⟩

variable {attempt : Attempt}

theorem sameTransport_fail (hOwner : pane.owner = .secondary) (hStale : pane.isStaleAttempt attempt = true) (index : Nat)
    (message : String) :
    pane.SameTransport (pane.fail index attempt message) := by
  rw [Pane.fail, hOwner]
  simp only [hStale, if_true]
  exact sameTransport_setStage index attempt .ended

section

variable (hStale : pane.isStaleAttempt attempt = true)
include hStale

theorem sameTransport_listener (handle : Pane → Pane) :
    pane.SameTransport (pane.listener attempt handle) := by
  rw [Pane.listener]
  split
  · rw [if_pos hStale]
    exact sameTransport_refl pane
  · exact sameTransport_refl pane

theorem sameTransport_sessionCreated (index : Nat) (sessionType : SessionType) (id : SessionId) :
    pane.SameTransport (pane.sessionCreated index attempt sessionType id) := by
  unfold Pane.sessionCreated
  simp only
  split
  · exact sameTransport_refl pane
  · exact ⟨rfl, rfl, rfl, rfl, rfl⟩

theorem sameTransport_terminalWritten (index : Nat) :
    pane.SameTransport (pane.terminalWritten index attempt) := by
  unfold Pane.terminalWritten
  split
  · rw [if_pos hStale]
    exact sameTransport_setStage index attempt .ended
  · rw [if_pos hStale]
    exact sameTransport_setStage index attempt .ended
  · exact sameTransport_refl pane

end

theorem sameTransport_step {event : PaneEvent} (hStale : pane.isStale event = true)
    (hRejects : pane.rejectsNoStale event = true) : pane.SameTransport (pane.step event) := by
  obtain ⟨attempt, hAttempt, hOld⟩ := (Option.any_eq_true _ _).mp hStale
  obtain ⟨index, hIndex, hAt⟩ := Option.bind_eq_some_iff.mp hAttempt
  have hWith : ∀ handle, pane.withAttempt index handle = handle attempt := by
    intro handle
    rw [Pane.withAttempt, hAt]
  have hFail : event.rejects attempt.stage = true → ∀ message,
      pane.SameTransport (pane.fail index attempt message) := by
    intro hRejected message
    have hOwner : pane.owner = .secondary := by
      simpa [Pane.rejectsNoStale, hAttempt, hOld, hRejected] using hRejects
    exact sameTransport_fail hOwner hOld index message
  cases event with
  | setActive | setSnapshot | setTarget | connect | dispose => cases hIndex
  | terminalWritten =>
    cases hIndex
    rw [Pane.step, hWith]
    exact sameTransport_terminalWritten hOld index
  | targetAnswer _ answer =>
    cases hIndex
    rw [Pane.step, hWith]
    split
    · next hStage =>
      cases answer with
      | ok target =>
        rw [Pane.targetAnswer, if_pos hOld]
        exact sameTransport_setStage index attempt .ended
      | error message => exact hFail (by rw [hStage]; rfl) message
    · exact sameTransport_refl pane
  | proxyRules _ answer =>
    cases hIndex
    rw [Pane.step, hWith]
    split
    · next hStage =>
      cases answer with
      | ok _ => exact sameTransport_setStage index attempt _
      | error message => exact hFail (by rw [hStage]; rfl) message
    · exact sameTransport_refl pane
  | sessionAnswer _ answer =>
    cases hIndex
    rw [Pane.step, hWith]
    split
    · next sessionType isRetry hStage =>
      cases answer with
      | created id => exact sameTransport_sessionCreated hOld index sessionType id
      | hostUntrusted message =>
        rw [Pane.sessionAnswer]
        split
        · next hRefused => exact hFail (by rw [hStage]; simpa [PaneEvent.rejects] using hRefused) message
        · exact sameTransport_setStage index attempt _
      | rejected message => exact hFail (by rw [hStage]; rfl) message
    · exact sameTransport_refl pane
  | promptAnswer _ confirmed =>
    cases hIndex
    rw [Pane.step, hWith]
    split
    · next hStage =>
      rw [Pane.promptAnswer]
      split
      · exact sameTransport_setStage index attempt _
      · next hRefused => exact hFail (by rw [hStage]; simpa [PaneEvent.rejects] using hRefused) _
    · exact sameTransport_refl pane
  | trustAnswer _ answer =>
    cases hIndex
    rw [Pane.step, hWith]
    split
    · next hStage =>
      cases answer with
      | ok _ => exact sameTransport_setStage index attempt _
      | error message => exact hFail (by rw [hStage]; rfl) message
    · exact sameTransport_refl pane
  | socketMessage | socketOpen | socketClose | socketError =>
    cases hIndex
    rw [Pane.step, hWith]
    exact sameTransport_listener hOld _

structure Owned (pane : Pane) : Prop where
  sessions : pane.OwnsSessions
  holder : ∀ id, pane.sessionId = some id → pane.disposed = false ∧
    ∃ index : Nat, index + 1 = pane.connectAttemptId ∧
      (pane.attempts[index]?).map (·.stage) = some (.listening id)
  numbered : ∀ (index : Nat) (attempt : Attempt), pane.attempts[index]? = some attempt → attempt.attemptId = index + 1
  latest : pane.disposed = false → pane.connectAttemptId = pane.attempts.length

theorem Owned.setPaneTransportState (h : Owned pane) (nextState : SshConnectionState) (error : String) :
    Owned (pane.setPaneTransportState nextState error) := ⟨h.sessions, h.holder, h.numbered, h.latest⟩

variable {index : Nat}

section

variable (h : Owned pane) (hAt : pane.attempts[index]? = some attempt) (hStage : ∀ id, attempt.stage ≠ .listening id)
include h hAt hStage

theorem Owned.setStage (stage : Stage) : Owned (pane.setStage index attempt stage) := by
  refine ⟨h.sessions, fun id hHeld => ?_, fun other attempt' hOther => ?_, fun hLive => ?_⟩
  · obtain ⟨hLive, held, hLatest, hListening⟩ := h.holder id hHeld
    refine ⟨hLive, held, hLatest, ?_⟩
    have hOther : index ≠ held := by
      rintro rfl
      rw [hAt] at hListening
      exact hStage id (Option.some.inj hListening)
    rw [Pane.setStage, List.getElem?_set_ne hOther]
    exact hListening
  · rw [Pane.setStage, List.getElem?_set] at hOther
    split at hOther
    · next hSame =>
      split at hOther
      · obtain rfl := Option.some.inj hOther
        exact hSame ▸ h.numbered index attempt hAt
      · contradiction
    · exact h.numbered other attempt' hOther
  · rw [Pane.setStage, List.length_set]
    exact h.latest hLive

theorem Owned.fail (message : String) : Owned (pane.fail index attempt message) := by
  have hEnded := h.setStage hAt hStage .ended
  rw [Pane.fail]
  split
  · exact hEnded.setPaneTransportState .failed message
  · split
    · exact hEnded
    · exact hEnded.setPaneTransportState .failed message

theorem Owned.openTerminalSessionSocket (target : SessionType) :
    Owned (pane.openTerminalSessionSocket index attempt target) := by
  cases target with
  | localTerminal => exact h.setStage hAt hStage _
  | sshServer => exact h.setStage hAt hStage _

theorem Owned.resolveTarget :
    Owned (pane.resolveTarget index attempt) := by
  rw [Pane.resolveTarget]
  split
  · split
    · exact h.fail hAt hStage _
    · exact h.setStage hAt hStage _
  · split
    · next target _ => exact h.openTerminalSessionSocket hAt hStage target
    · exact (h.setStage hAt hStage .ended).setPaneTransportState .failed _

end

theorem Owned.held (h : Owned pane) :
    ∀ session ∈ pane.opened, session.id ∈ pane.closeRequests ∨ pane.sessionId = some session.id := by
  intro session hMem
  obtain hClosed | ⟨hHeld, -⟩ := h.sessions session hMem
  · exact .inl hClosed
  · exact .inr hHeld

theorem closed_of_held
    (h : ∀ session ∈ pane.opened, session.id ∈ pane.closeRequests ∨ pane.sessionId = some session.id) :
    ∀ session ∈ pane.opened, session.id ∈ pane.closeRuntimeSession.closeRequests := by
  intro session hMem
  rw [Pane.closeRuntimeSession]
  obtain hClosed | hHeld := h session hMem
  · split
    · exact List.mem_append_left _ hClosed
    · exact hClosed
  · rw [hHeld]
    exact List.mem_append_right _ (List.mem_singleton.mpr rfl)

theorem closeRuntimeSession_rest (pane : Pane) : pane.closeRuntimeSession.sessionId = none ∧
    pane.closeRuntimeSession.opened = pane.opened ∧ pane.closeRuntimeSession.attempts = pane.attempts ∧
    pane.closeRuntimeSession.connectAttemptId = pane.connectAttemptId ∧
    pane.closeRuntimeSession.disposed = pane.disposed := by
  rw [Pane.closeRuntimeSession]
  split
  · exact ⟨rfl, rfl, rfl, rfl, rfl⟩
  · exact ⟨rfl, rfl, rfl, rfl, rfl⟩

section

variable (h : Owned pane)
include h

theorem Owned.started (hLive : pane.disposed = false) (attempt : Attempt)
    (hNumber : attempt.attemptId = pane.connectAttemptId + 1) :
    Owned { pane.closeRuntimeSession with
      connectAttemptId := pane.connectAttemptId + 1
      attempts := pane.attempts ++ [attempt] } := by
  obtain ⟨hSession, hOpened, -, -, -⟩ := closeRuntimeSession_rest pane
  have hLatest := h.latest hLive
  refine ⟨fun session hMem => .inl (closed_of_held h.held session (hOpened ▸ hMem)), fun id hHeld => ?_,
    fun index attempt' hAt => ?_, fun _ => ?_⟩
  · cases hSession.symm.trans hHeld
  · rw [List.getElem?_append] at hAt
    split at hAt
    · exact h.numbered index attempt' hAt
    · obtain ⟨hLast, rfl⟩ := List.getElem?_eq_some_iff.mp hAt
      rw [List.length_singleton] at hLast
      rw [List.getElem_singleton, hNumber]
      omega
  · rw [List.length_append, List.length_singleton, hLatest]

theorem Owned.connect (preferredMode : ConnectMode) : Owned (pane.connect preferredMode) := by
  unfold Pane.connect
  simp only
  split
  · exact h
  · next hGoes =>
    have hLive : pane.disposed = false := by simpa using (not_or.mp hGoes).1
    let attempt : Attempt := ⟨pane.connectAttemptId + 1, pane.resolveConnectMode preferredMode, .flushingTerminal⟩
    have hStarted := (h.started hLive attempt rfl).setPaneTransportState .connecting ""
    split
    · exact hStarted
    · refine hStarted.resolveTarget ?_ nofun
      exact List.getElem?_concat_length

theorem Owned.dispose : Owned pane.dispose := by
  have hDisposed : ∀ connectAttemptId, Owned
      { pane with disposed := true, connectAttemptId := connectAttemptId }.closeRuntimeSession := by
    intro connectAttemptId
    let gone : Pane := { pane with disposed := true, connectAttemptId := connectAttemptId }
    obtain ⟨hSession, hOpened, hAttempts, -, hGone⟩ := closeRuntimeSession_rest gone
    refine ⟨fun session hMem => .inl ?_, fun id hHeld => ?_, fun index attempt hAt => ?_, fun hLive => ?_⟩
    · have hHeld : ∀ session ∈ gone.opened, session.id ∈ gone.closeRequests ∨ gone.sessionId = some session.id := h.held
      exact closed_of_held hHeld session (hOpened ▸ hMem)
    · cases hSession.symm.trans hHeld
    · exact h.numbered index attempt (hAttempts ▸ hAt)
    · cases hGone.symm.trans hLive
  rw [Pane.dispose]
  split
  · exact h
  · split
    · exact hDisposed pane.connectAttemptId
    · exact hDisposed (pane.connectAttemptId + 1)

theorem Owned.latest_of_not_stale (hAt : pane.attempts[index]? = some attempt) (hFresh : pane.isStaleAttempt attempt = false) :
    pane.disposed = false ∧ index + 1 = pane.connectAttemptId := by
  have hNumber := h.numbered index attempt hAt
  simp only [Pane.isStaleAttempt, Bool.or_eq_false_iff, decide_eq_false_iff_not, ne_eq, not_not] at hFresh
  exact ⟨hFresh.1, hNumber.symm.trans hFresh.2⟩

theorem Owned.sessionCreated (hAt : pane.attempts[index]? = some attempt) (hStage : ∀ id, attempt.stage ≠ .listening id)
    (sessionType : SessionType) (id : SessionId) :
    Owned (pane.sessionCreated index attempt sessionType id) := by
  unfold Pane.sessionCreated
  simp only
  split
  · exact h
  split
  · have hEnded := h.setStage hAt hStage .ended
    refine ⟨fun session hMem => ?_, hEnded.holder, hEnded.numbered, hEnded.latest⟩
    obtain hOld | hNew := List.mem_append.mp hMem
    · obtain hClosed | hHeld := h.sessions session hOld
      · exact .inl (List.mem_append_left _ hClosed)
      · exact .inr hHeld
    · obtain rfl := List.mem_singleton.mp hNew
      exact .inl (List.mem_append_right _ (List.mem_singleton.mpr rfl))
  · next hFresh =>
    obtain ⟨hLive, hLatest⟩ := h.latest_of_not_stale hAt (by simpa using hFresh)
    have hListening := h.setStage hAt hStage (.listening id)
    have hNone : pane.sessionId = none := by
      by_contra hSome
      obtain ⟨held, hHeld⟩ := Option.ne_none_iff_exists'.mp hSome
      obtain ⟨-, other, hOther, hOtherListens⟩ := h.holder held hHeld
      obtain rfl : other = index := by omega
      rw [hAt] at hOtherListens
      exact hStage held (Option.some.inj hOtherListens)
    refine ⟨fun session hMem => ?_, fun held hHeld => ⟨hLive, index, hLatest, ?_⟩, hListening.numbered, hListening.latest⟩
    · obtain hOld | hNew := List.mem_append.mp hMem
      · obtain hClosed | ⟨hHeld, -⟩ := h.sessions session hOld
        · exact .inl hClosed
        · cases hNone.symm.trans hHeld
      · obtain rfl := List.mem_singleton.mp hNew
        exact .inr ⟨rfl, (h.numbered index attempt hAt).trans hLatest, hLive⟩
    · obtain rfl := Option.some.inj hHeld
      have hBound := (List.getElem?_eq_some_iff.mp hAt).1
      show ((pane.attempts.set index _)[index]?).map _ = _
      rw [List.getElem?_set_self hBound]
      rfl

theorem Owned.listener (attempt : Attempt) {handle : Pane → Pane} (hHandle : Owned (handle pane)) :
    Owned (pane.listener attempt handle) := by
  rw [Pane.listener]
  split
  · split
    · exact h
    · exact hHandle
  · exact h

theorem Owned.withAttempt {handle : Attempt → Pane}
    (hHandle : ∀ attempt, pane.attempts[index]? = some attempt → Owned (handle attempt)) :
    Owned (pane.withAttempt index handle) := by
  rw [Pane.withAttempt]
  split
  · next hAt => exact hHandle _ hAt
  · exact h

theorem Owned.reduceServerMessage (payload : ServerMessage) : Owned (pane.reduceServerMessage payload) := by
  cases payload with
  | other => exact h
  | _ => exact h.setPaneTransportState _ _

theorem Owned.socketLost (message : String) : Owned (pane.socketLost message) := ⟨h.sessions, h.holder, h.numbered, h.latest⟩

theorem Owned.terminalWritten (hAt : pane.attempts[index]? = some attempt) :
    Owned (pane.terminalWritten index attempt) := by
  unfold Pane.terminalWritten
  split
  · next hStage =>
    have hWaits : ∀ id, attempt.stage ≠ .listening id := by simp [hStage]
    split
    · exact h.setStage hAt hWaits _
    · exact (h.setStage hAt hWaits _).setPaneTransportState .connecting ""
  · next hStage =>
    have hWaits : ∀ id, attempt.stage ≠ .listening id := by simp [hStage]
    split
    · exact h.setStage hAt hWaits _
    · exact h.resolveTarget hAt hWaits
  · exact h

theorem Owned.step (event : PaneEvent) : Owned (pane.step event) := by
  cases event with
  | setActive | setSnapshot | setTarget => exact ⟨h.sessions, h.holder, h.numbered, h.latest⟩
  | connect preferredMode => exact h.connect preferredMode
  | dispose => exact h.dispose
  | terminalWritten => exact h.withAttempt fun attempt hAt => h.terminalWritten hAt
  | targetAnswer index answer =>
    refine h.withAttempt fun attempt hAt => ?_
    split
    · next hStage =>
      have hWaits : ∀ id, attempt.stage ≠ .listening id := by simp [hStage]
      cases answer with
      | ok target =>
        rw [Pane.targetAnswer]
        split
        · exact h.setStage hAt hWaits _
        · have hResolved : Owned { pane with resolvedTarget := some target } := ⟨h.sessions, h.holder, h.numbered, h.latest⟩
          exact hResolved.openTerminalSessionSocket hAt hWaits target
      | error message => exact h.fail hAt hWaits message
    · exact h
  | proxyRules index answer =>
    refine h.withAttempt fun attempt hAt => ?_
    split
    · next hStage =>
      have hWaits : ∀ id, attempt.stage ≠ .listening id := by simp [hStage]
      cases answer with
      | ok _ => exact h.setStage hAt hWaits _
      | error message => exact h.fail hAt hWaits message
    · exact h
  | sessionAnswer index answer =>
    refine h.withAttempt fun attempt hAt => ?_
    split
    · next sessionType isRetry hStage =>
      have hWaits : ∀ id, attempt.stage ≠ .listening id := by simp [hStage]
      cases answer with
      | created id => exact h.sessionCreated hAt hWaits sessionType id
      | hostUntrusted message =>
        rw [Pane.sessionAnswer]
        split
        · exact h.fail hAt hWaits message
        · exact h.setStage hAt hWaits _
      | rejected message => exact h.fail hAt hWaits message
    · exact h
  | promptAnswer index confirmed =>
    refine h.withAttempt fun attempt hAt => ?_
    split
    · next hStage =>
      have hWaits : ∀ id, attempt.stage ≠ .listening id := by simp [hStage]
      rw [Pane.promptAnswer]
      split
      · exact h.setStage hAt hWaits _
      · exact h.fail hAt hWaits _
    · exact h
  | trustAnswer index answer =>
    refine h.withAttempt fun attempt hAt => ?_
    split
    · next hStage =>
      have hWaits : ∀ id, attempt.stage ≠ .listening id := by simp [hStage]
      cases answer with
      | ok _ => exact h.setStage hAt hWaits _
      | error message => exact h.fail hAt hWaits message
    · exact h
  | socketMessage index payload =>
    exact h.withAttempt fun attempt _ => h.listener attempt (h.reduceServerMessage payload)
  | socketOpen => exact h.withAttempt fun attempt _ => h.listener attempt (h.setPaneTransportState _ _)
  | socketClose => exact h.withAttempt fun attempt _ => h.listener attempt (h.socketLost _)
  | socketError => exact h.withAttempt fun attempt _ => h.listener attempt (h.socketLost _)

end

theorem owned_of_reachable (h : panes.Reachable pane) : Owned pane := by
  apply h.invariant
  · rintro pane ⟨owner, isActive, resolvedTarget, rfl⟩
    exact ⟨nofun, nofun, nofun, fun _ => rfl⟩
  · exact fun pane event _ hOwned => hOwned.step event

theorem staleHasNoEffect_of_meets {events : List PaneEvent}
    (hMeets : panes.meets Pane.rejectsNoStale pane events = true) : StaleHasNoEffect pane events := by
  rintro before event after rfl hStale
  rw [Machine.meets_append, Bool.and_eq_true, Machine.meets, Bool.and_eq_true] at hMeets
  rw [Machine.run_append]
  exact sameTransport_step hStale hMeets.2.1

/-- The second half holds in any run, and already while requests are pending. -/
theorem stale_attempts_have_no_effect {start : Pane} (hStart : panes.initial start) {events : List PaneEvent}
    (hMeets : panes.meets Pane.rejectsNoStale start events = true) :
    StaleHasNoEffect start events ∧ (panes.run start events).OwnsSessions :=
  ⟨staleHasNoEffect_of_meets hMeets, (owned_of_reachable ((Machine.Reachable.start hStart).run events)).sessions⟩

def primaryPane : Pane := Pane.created .primary true none

def supersededAttempt : List PaneEvent :=
  [.connect .initial, .targetAnswer 0 (.ok .sshServer), .proxyRules 0 (.ok ()), .connect .retry,
    .targetAnswer 1 (.ok .sshServer), .proxyRules 1 (.ok ()), .sessionAnswer 1 (.created "b"), .socketOpen 1]

def failsLate : List PaneEvent := supersededAttempt ++ [.sessionAnswer 0 (.rejected "Connection refused.")]

def succeedsLate : List PaneEvent := supersededAttempt ++ [.sessionAnswer 0 (.created "a")]

theorem superseded_runs :
    (panes.run primaryPane supersededAttempt).isStale (.sessionAnswer 0 (.rejected "Connection refused.")) = true ∧
    (panes.run primaryPane supersededAttempt).connectionState = .connected ∧
    (panes.run primaryPane failsLate).connectionState = .failed ∧
    panes.meets Pane.rejectsNoStale primaryPane succeedsLate = true := by
  decide

theorem late_failure_reaches_the_pane : panes.initial primaryPane ∧ ¬StaleHasNoEffect primaryPane failsLate := by
  refine ⟨⟨.primary, true, none, rfl⟩, fun hSilent => ?_⟩
  obtain ⟨hStale, hConnected, hFailed, -⟩ := superseded_runs
  have hSame := (hSilent supersededAttempt _ [] rfl hStale).connectionState
  rw [hConnected] at hSame
  cases hFailed.symm.trans hSame

theorem late_success_has_no_effect :
    StaleHasNoEffect primaryPane succeedsLate ∧ (panes.run primaryPane succeedsLate).OwnsSessions :=
  stale_attempts_have_no_effect ⟨.primary, true, none, rfl⟩ superseded_runs.2.2.2

end Terminal.Attempts
