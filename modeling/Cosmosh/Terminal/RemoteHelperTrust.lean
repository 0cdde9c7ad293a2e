import Cosmosh.Library.History
import Cosmosh.Terminal.OscResync
import Cosmosh.Terminal.RemoteHelperGate

/-! # What the gate lets through

An event is sent only behind an accepted handshake and behind the active status on the same socket, and only if it names
the helper of the session.
-/

namespace Terminal

open Library Library.History

def MatchesContract (contract : Option RemoteBootstrapRuntimeContract) (event : RemoteShellEventMessage) : Prop :=
  ∃ known, contract = some known ∧ remoteShellEventMatchesContract event known = true

def HandshakeAccepted (trace : List Observation) : Prop :=
  ∃ ready : RemoteShellEventMessage, ready.event = .integrationReady ∧ .accepted ready ∈ trace

def Announced (socket : Nat) (trace : List Observation) : Prop :=
  ∃ contract code message, .sent socket (.runtimeStatus .active contract code message) ∈ trace

def TrustLaw (contract : Option RemoteBootstrapRuntimeContract) (before : List Observation) : Observation → Prop
  | .accepted event => MatchesContract contract event
  | .sent socket (.remoteShellEvent event) =>
    MatchesContract contract event ∧ HandshakeAccepted before ∧ Announced socket before
  | .sent _ _ => True

def Observation.SendsEvent : Observation → Prop
  | .sent _ (.remoteShellEvent _) => True
  | _ => False

theorem HandshakeAccepted.append {trace : List Observation} (h : HandshakeAccepted trace) (later : List Observation) :
    HandshakeAccepted (trace ++ later) := by
  obtain ⟨ready, hReady, hMem⟩ := h
  exact ⟨ready, hReady, List.mem_append_left later hMem⟩

theorem Announced.append {socket : Nat} {trace : List Observation} (h : Announced socket trace)
    (later : List Observation) : Announced socket (trace ++ later) := by
  obtain ⟨contract, code, message, hMem⟩ := h
  exact ⟨contract, code, message, List.mem_append_left later hMem⟩

structure Trusted (contract : Option RemoteBootstrapRuntimeContract) (session : SshLiveSession) : Prop where
  known : session.remoteEnhancementsRuntimeContract = contract
  causal : Causal (TrustLaw contract) session.trace
  queued : ∀ event, .event event ∈ session.pendingStreamFrames →
    session.remoteEnhancementsRuntimeState = .active ∧ MatchesContract contract event
  opened : session.remoteEnhancementsRuntimeState = .active → HandshakeAccepted session.trace

structure Sound (contract : Option RemoteBootstrapRuntimeContract) (session : SshLiveSession) : Prop extends
    Trusted contract session where
  announced : session.remoteEnhancementsRuntimeState = .active → session.disposed = false →
    ∀ socket, session.openSocket = some socket → Announced socket session.trace

def StaysClosed (session session' : SshLiveSession) : Prop :=
  session.remoteEnhancementsRuntimeState = .disabled →
    session'.remoteEnhancementsRuntimeState = .disabled ∧
      ∃ later, session'.trace = session.trace ++ later ∧ ∀ observation ∈ later, ¬observation.SendsEvent

structure Advances (contract : Option RemoteBootstrapRuntimeContract) (session session' : SshLiveSession) : Prop where
  sound : Sound contract session'
  closed : StaysClosed session session'

theorem StaysClosed.refl (session : SshLiveSession) : StaysClosed session session :=
  fun hDisabled => ⟨hDisabled, [], (List.append_nil _).symm, List.forall_mem_nil _⟩

theorem StaysClosed.trans {first second third : SshLiveSession} (h : StaysClosed first second)
    (h' : StaysClosed second third) : StaysClosed first third := by
  intro hDisabled
  obtain ⟨hSecond, later, hTrace, hSilent⟩ := h hDisabled
  obtain ⟨hThird, later', hTrace', hSilent'⟩ := h' hSecond
  refine ⟨hThird, later ++ later', by rw [hTrace', hTrace, List.append_assoc], ?_⟩
  intro observation hMem
  obtain hMem | hMem := List.mem_append.mp hMem
  · exact hSilent observation hMem
  · exact hSilent' observation hMem

variable {contract : Option RemoteBootstrapRuntimeContract} {session : SshLiveSession}

theorem Sound.advances (h : Sound contract session) : Advances contract session session := ⟨h, .refl session⟩

theorem Advances.trans {first second third : SshLiveSession} (h : Advances contract first second)
    (h' : Advances contract second third) : Advances contract first third := ⟨h'.sound, h.closed.trans h'.closed⟩

theorem Sound.same (h : Sound contract session) {session' : SshLiveSession}
    (hContract : session'.remoteEnhancementsRuntimeContract = session.remoteEnhancementsRuntimeContract)
    (hTrace : session'.trace = session.trace) (hState : session'.remoteEnhancementsRuntimeState = session.remoteEnhancementsRuntimeState)
    (hFrames : ∀ event, .event event ∈ session'.pendingStreamFrames → .event event ∈ session.pendingStreamFrames)
    (hSocket : session'.disposed = false → ∀ socket, session'.openSocket = some socket →
      session.disposed = false ∧ session.openSocket = some socket) : Advances contract session session' := by
  constructor
  · constructor
    · constructor
      · rw [hContract, h.known]
      · rw [hTrace]
        exact h.causal
      · intro event hMem
        rw [hState]
        exact h.queued event (hFrames event hMem)
      · rw [hState, hTrace]
        exact h.opened
    · intro hActive hLive socket hOpen
      rw [hState] at hActive
      obtain ⟨hLive', hOpen'⟩ := hSocket hLive socket hOpen
      rw [hTrace]
      exact h.announced hActive hLive' socket hOpen'
  · intro hDisabled
    exact ⟨hState.trans hDisabled, [], hTrace.trans (List.append_nil _).symm, List.forall_mem_nil _⟩

variable {observation : Observation}

theorem Sound.observe (h : Sound contract session) (hLaw : TrustLaw contract session.trace observation)
    (hClosed : session.remoteEnhancementsRuntimeState = .disabled → ¬observation.SendsEvent) :
    Advances contract session (session.observe observation) := by
  constructor
  · constructor
    · constructor
      · exact h.known
      · exact h.causal.concat hLaw
      · exact h.queued
      · exact fun hActive => (h.opened hActive).append _
    · exact fun hActive hLive socket hOpen => (h.announced hActive hLive socket hOpen).append _
  · intro hDisabled
    refine ⟨hDisabled, [observation], rfl, ?_⟩
    intro other hMem
    rw [List.mem_singleton.mp hMem]
    exact hClosed hDisabled

variable {stringify : RemoteShellEventMessage → Output}

variable {frame : StreamFrame RemoteShellEventMessage}

theorem mem_dropOldestFrames {frames : List (StreamFrame RemoteShellEventMessage)} {bytes dropCount : Nat}
    (h : frame ∈ (dropOldestFrames stringify frames bytes dropCount).1) : frame ∈ frames := by
  induction frames generalizing bytes dropCount with
  | nil => exact h
  | cons first frames ih =>
    rw [dropOldestFrames] at h
    split at h
    · exact List.mem_cons_of_mem first (ih h)
    · exact h

theorem Sound.buffer (h : Sound contract session) (hFrame : ∀ event, frame = .event event →
      session.remoteEnhancementsRuntimeState = .active ∧ MatchesContract contract event) :
    Advances contract session (session.bufferPendingStreamFrame stringify frame) := by
  constructor
  · constructor
    · constructor
      · exact h.known
      · exact h.causal
      · intro event hMem
        obtain hOld | hNew := List.mem_append.mp (mem_dropOldestFrames hMem)
        · exact h.queued event hOld
        · exact hFrame event (List.mem_singleton.mp hNew).symm
      · exact h.opened
    · exact h.announced
  · exact fun hDisabled => ⟨hDisabled, [], (List.append_nil _).symm, List.forall_mem_nil _⟩

theorem Sound.send (h : Sound contract session) {payload : ServerMessage} (hPayload : ∀ event, payload ≠ .remoteShellEvent event) :
    Advances contract session (session.sendServerMessage stringify payload) := by
  unfold SshLiveSession.sendServerMessage
  split
  · exact h.advances
  · cases hOpen : session.openSocket with
    | some socket =>
      apply h.observe
      · cases payload with
        | remoteShellEvent event => exact absurd rfl (hPayload event)
        | _ => trivial
      · intro _ hSends
        cases payload with
        | remoteShellEvent event => exact hPayload event rfl
        | _ => exact hSends
    | none =>
      cases payload with
      | output data =>
        apply h.buffer
        rintro _ ⟨⟩
      | remoteShellEvent event => exact absurd rfl (hPayload event)
      | _ => exact h.advances

variable {event : RemoteShellEventMessage}

theorem Sound.sendEvent (h : Sound contract session) (hActive : session.remoteEnhancementsRuntimeState = .active)
    (hEvent : MatchesContract contract event) : Advances contract session (session.sendServerMessage stringify (.remoteShellEvent event)) := by
  unfold SshLiveSession.sendServerMessage
  split
  · exact h.advances
  · rename_i hLive
    cases hOpen : session.openSocket with
    | some socket =>
      apply h.observe
      · exact ⟨hEvent, h.opened hActive, h.announced hActive (Bool.eq_false_iff.mpr hLive) socket hOpen⟩
      · intro hDisabled
        rw [hActive] at hDisabled
        cases hDisabled
    | none =>
      apply h.buffer
      rintro _ ⟨⟩
      exact ⟨hActive, hEvent⟩

theorem Sound.sendStatus (h : Sound contract session) :
    Advances contract session (session.sendRemoteEnhancementRuntimeStatus stringify) := h.send nofun

theorem applyRemoteShellEventState_spec (session : SshLiveSession) (event : RemoteShellEvent) :
    let session' := session.applyRemoteShellEventState event
    session'.remoteEnhancementsRuntimeContract = session.remoteEnhancementsRuntimeContract ∧
      session'.trace = session.trace ∧
      session'.remoteEnhancementsRuntimeState = session.remoteEnhancementsRuntimeState ∧
      session'.pendingStreamFrames = session.pendingStreamFrames ∧ session'.disposed = session.disposed ∧
      session'.socket = session.socket := by
  cases event with
  | integrationReady => exact ⟨rfl, rfl, rfl, rfl, rfl, rfl⟩
  | promptReady promptGeneration => exact ⟨rfl, rfl, rfl, rfl, rfl, rfl⟩
  | cwd cwd =>
    simp only [SshLiveSession.applyRemoteShellEventState]
    split <;> exact ⟨rfl, rfl, rfl, rfl, rfl, rfl⟩
  | commandStart command commandId =>
    simp only [SshLiveSession.applyRemoteShellEventState]
    split <;> exact ⟨rfl, rfl, rfl, rfl, rfl, rfl⟩
  | commandEnd command commandId exitCode durationMs => exact ⟨rfl, rfl, rfl, rfl, rfl, rfl⟩
  | foregroundCommand command commandId => exact ⟨rfl, rfl, rfl, rfl, rfl, rfl⟩
  | lineState lineLength cursorIndex promptGeneration => exact ⟨rfl, rfl, rfl, rfl, rfl, rfl⟩

theorem Sound.forward (stringify : RemoteShellEventMessage → Output) (h : Sound contract session)
    (hActive : session.remoteEnhancementsRuntimeState = .active) (hEvent : MatchesContract contract event) :
    Advances contract session ((session.applyRemoteShellEventState event.event).sendServerMessage stringify (.remoteShellEvent event)) := by
  obtain ⟨hContract, hTrace, hState, hFrames, hDisposed, hSocket⟩ := applyRemoteShellEventState_spec session event.event
  have hApplied : Advances contract session (session.applyRemoteShellEventState event.event) := by
    apply h.same hContract hTrace hState
    · intro other hMem
      rwa [hFrames] at hMem
    · intro hLive socket hOpen
      rw [hDisposed] at hLive
      rw [SshLiveSession.openSocket, hSocket] at hOpen
      exact ⟨hLive, hOpen⟩
  exact hApplied.trans (hApplied.sound.sendEvent (hState.trans hActive) hEvent)

theorem Sound.accept (h : Sound contract session) (hActive : session.remoteEnhancementsRuntimeState = .active)
    (hEvent : MatchesContract contract event) : Advances contract session (session.acceptRemoteShellEvent stringify event) := by
  have hAccepted : Advances contract session (session.observe (.accepted event)) := h.observe hEvent fun _ => id
  exact hAccepted.trans (hAccepted.sound.forward stringify hActive hEvent)

theorem Sound.disable (h : Sound contract session) (code message : String) :
    Advances contract session (session.disableRemoteEnhancementsRuntime stringify code message) := by
  let disabled := { session.clearRemoteEnhancementHandshakeTimeout with
    remoteEnhancementsRuntimeState := .disabled
    remoteEnhancementsRuntimeCode := some code
    remoteEnhancementsRuntimeMessage := some message }
  let cleared := { disabled.discardPendingRemoteShellEventFrames stringify with
    remoteShellReady := false
    remoteShellCwd := none
    remoteShellForegroundCommand := none
    lastRemoteCommand := none
    lastRemoteCommandId := none
    lastExitCode := none
    lastCommandDurationMs := none }
  have hCleared : Advances contract session cleared := by
    constructor
    · constructor
      · constructor
        · exact h.known
        · exact h.causal
        · intro event hMem
          have hOutput := (List.mem_filter.mp hMem).2
          cases hOutput
        · nofun
      · nofun
    · exact fun _ => ⟨rfl, [], (List.append_nil _).symm, List.forall_mem_nil _⟩
  exact hCleared.trans hCleared.sound.sendStatus

variable (stringify) in
theorem sendStatus_cases (session : SshLiveSession) : (session.sendRemoteEnhancementRuntimeStatus stringify = session ∧
        ∀ socket, session.disposed = false → session.openSocket ≠ some socket) ∨ ∃ socket, session.openSocket = some socket ∧
        session.sendRemoteEnhancementRuntimeStatus stringify = session.observe (.sent socket (.runtimeStatus
          session.remoteEnhancementsRuntimeState session.remoteEnhancementsRuntimeContract
          session.remoteEnhancementsRuntimeCode session.remoteEnhancementsRuntimeMessage)) := by
  unfold SshLiveSession.sendRemoteEnhancementRuntimeStatus SshLiveSession.sendServerMessage
  split
  · rename_i hDisposed
    refine .inl ⟨rfl, fun socket hLive => ?_⟩
    rw [hDisposed] at hLive
    cases hLive
  · cases hOpen : session.openSocket with
    | some socket => exact .inr ⟨socket, rfl, rfl⟩
    | none => exact .inl ⟨rfl, fun _ _ => nofun⟩

section

variable (h : Sound contract session)
include h

theorem Sound.activate (hPending : session.remoteEnhancementsRuntimeState = .pending) (hReady : event.event = .integrationReady)
    (hEvent : MatchesContract contract event) : Advances contract session (({ session.clearRemoteEnhancementHandshakeTimeout with
        remoteEnhancementsRuntimeState := .active
        remoteEnhancementsRuntimeCode := none
        remoteEnhancementsRuntimeMessage := none }.sendRemoteEnhancementRuntimeStatus stringify).acceptRemoteShellEvent
          stringify event) := by
  let active := { session.clearRemoteEnhancementHandshakeTimeout with
    remoteEnhancementsRuntimeState := .active
    remoteEnhancementsRuntimeCode := none
    remoteEnhancementsRuntimeMessage := none }
  have hNone : ∀ event, .event event ∉ session.pendingStreamFrames := by
    intro other hMem
    have hActive := (h.queued other hMem).1
    rw [hPending] at hActive
    cases hActive
  have hOpened : Sound contract ((active.sendRemoteEnhancementRuntimeStatus stringify).observe (.accepted event)) ∧
      (active.sendRemoteEnhancementRuntimeStatus stringify).remoteEnhancementsRuntimeState = .active := by
    obtain ⟨hSame, hDetached⟩ | ⟨socket, hOpen, hSent⟩ := sendStatus_cases stringify active
    · rw [hSame]
      refine ⟨?_, rfl⟩
      constructor
      · constructor
        · exact h.known
        · exact h.causal.concat hEvent
        · exact fun other hMem => absurd hMem (hNone other)
        · exact fun _ => ⟨event, hReady, List.mem_append_right _ (List.mem_singleton.mpr rfl)⟩
      · exact fun _ hLive socket hOpen => absurd hOpen (hDetached socket hLive)
    · rw [hSent]
      refine ⟨?_, rfl⟩
      constructor
      · constructor
        · exact h.known
        · have hStatus : Causal (TrustLaw contract) (session.trace ++ [.sent socket (.runtimeStatus .active
              session.remoteEnhancementsRuntimeContract none none)]) := h.causal.concat trivial
          exact hStatus.concat hEvent
        · exact fun other hMem => absurd hMem (hNone other)
        · exact fun _ => ⟨event, hReady, List.mem_append_right _ (List.mem_singleton.mpr rfl)⟩
      · intro _ _ other hOther
        obtain rfl : socket = other := Option.some.inj (hOpen.symm.trans hOther)
        refine ⟨session.remoteEnhancementsRuntimeContract, none, none, List.mem_append_left _ ?_⟩
        exact List.mem_append_right _ (List.mem_singleton.mpr rfl)
  have hForward := hOpened.1.forward stringify hOpened.2 hEvent
  refine ⟨hForward.sound, ?_⟩
  intro hDisabled
  rw [hPending] at hDisabled
  cases hDisabled

theorem Sound.handleRemoteShellEvent (event : RemoteShellEventMessage) :
    Advances contract session (session.handleRemoteShellEvent stringify event) := by
  rw [SshLiveSession.handleRemoteShellEvent]
  split
  · exact h.advances
  · rename_i hDisabled
    split
    · exact h.disable _ _
    · rename_i hMatches
      have hEvent : MatchesContract contract event := by
        rw [h.known] at hMatches
        cases contract with
        | none => exact absurd rfl hMatches
        | some known =>
          refine ⟨known, rfl, ?_⟩
          simpa using hMatches
      split
      · rename_i hPending
        split
        · rename_i hReady
          exact h.activate hPending hReady hEvent
        · exact h.advances
      · rename_i hPending
        have hActive : session.remoteEnhancementsRuntimeState = .active := by
          cases hState : session.remoteEnhancementsRuntimeState with
          | pending => exact absurd hState hPending
          | active => rfl
          | disabled => exact absurd hState hDisabled
        exact h.accept hActive hEvent

theorem Sound.handleFrames (frames : List (StreamFrame RemoteShellEventMessage)) :
    Advances contract session (frames.foldl (SshLiveSession.handleFrame stringify) session) := by
  induction frames generalizing session with
  | nil => exact h.advances
  | cons frame frames ih =>
    have hFrame : Advances contract session (session.handleFrame stringify frame) := by
      cases frame with
      | output data => exact h.send nofun
      | event event => exact h.handleRemoteShellEvent event
    exact hFrame.trans (ih hFrame.sound)

theorem Sound.sendQueuedFrame {socket : Nat} (hOpen : session.openSocket = some socket) (hFrame : ∀ event, frame = .event event →
      session.remoteEnhancementsRuntimeState = .active ∧ MatchesContract contract event) :
    Advances contract session (session.sendQueuedFrame socket frame) ∧ (session.sendQueuedFrame socket frame).remoteEnhancementsRuntimeState =
        session.remoteEnhancementsRuntimeState := by
  unfold SshLiveSession.sendQueuedFrame
  split
  · exact ⟨h.advances, rfl⟩
  · rename_i hLive
    cases frame with
    | output data => exact ⟨h.observe trivial fun _ => id, rfl⟩
    | event event =>
      obtain ⟨hActive, hEvent⟩ := hFrame event rfl
      simp only [hActive, if_true]
      constructor
      · apply h.observe
        · exact ⟨hEvent, h.opened hActive, h.announced hActive (Bool.eq_false_iff.mpr hLive) socket hOpen⟩
        · intro hDisabled
          rw [hActive] at hDisabled
          cases hDisabled
      · exact hActive

end

variable (stringify) in
theorem Sound.flushFrames (h : Sound contract session) {frames : List (StreamFrame RemoteShellEventMessage)}
    (hFrames : ∀ event, .event event ∈ frames → session.remoteEnhancementsRuntimeState = .active ∧ MatchesContract contract event) :
    Advances contract session (SshLiveSession.flushFrames stringify session frames) := by
  induction frames generalizing session with
  | nil => exact h.same rfl rfl rfl nofun fun hLive socket hOpen => ⟨hLive, hOpen⟩
  | cons frame frames ih =>
    rw [SshLiveSession.flushFrames]
    split
    · constructor
      · exact ⟨⟨h.known, h.causal, hFrames, h.opened⟩, h.announced⟩
      · exact fun hDisabled => ⟨hDisabled, [], (List.append_nil _).symm, List.forall_mem_nil _⟩
    · rename_i socket hOpen
      let taken := { session with
        pendingStreamFrameBytes := session.pendingStreamFrameBytes - getPendingStreamFrameBytes stringify frame }
      have hTaken : Advances contract session taken := h.same rfl rfl rfl (fun _ => id) fun hLive socket hOpen => ⟨hLive, hOpen⟩
      have hFrame : ∀ event, frame = .event event →
          taken.remoteEnhancementsRuntimeState = .active ∧ MatchesContract contract event := by
        rintro event rfl
        exact hFrames event List.mem_cons_self
      obtain ⟨hSent, hState⟩ := hTaken.sound.sendQueuedFrame hOpen hFrame
      refine hTaken.trans (hSent.trans (ih hSent.sound ?_))
      intro event hMem
      rw [hState]
      exact hFrames event (List.mem_cons_of_mem frame hMem)

theorem Sound.handleHandshakeTimeout (h : Sound contract session) : Advances contract session (session.handleHandshakeTimeout stringify) := by
  have hCleared : Advances contract session session.clearRemoteEnhancementHandshakeTimeout :=
    h.same rfl rfl rfl (fun _ => id) fun hLive socket hOpen => ⟨hLive, hOpen⟩
  rw [SshLiveSession.handleHandshakeTimeout]
  split
  · exact hCleared
  · exact hCleared.trans (hCleared.sound.disable _ _)

theorem Sound.disposeSession (h : Sound contract session) (reason : String) :
    Advances contract session (session.disposeSession stringify reason) := by
  rw [SshLiveSession.disposeSession]
  split
  · exact h.advances
  · have hCleared : Advances contract session session.clearRemoteEnhancementHandshakeTimeout :=
      h.same rfl rfl rfl (fun _ => id) fun hLive socket hOpen => ⟨hLive, hOpen⟩
    have hExit : Advances contract session
        (session.clearRemoteEnhancementHandshakeTimeout.sendServerMessage stringify (.exit reason)) :=
      hCleared.trans (hCleared.sound.send nofun)
    exact hExit.trans (hExit.sound.same rfl rfl rfl (fun _ => id) nofun)

def Observation.IsNotice : Observation → Prop
  | .sent _ .ready => True
  | .sent _ (.bootstrapStatus _) => True
  | _ => False

theorem Observation.IsNotice.law (h : observation.IsNotice) (before : List Observation) : TrustLaw contract before observation := by
  cases observation with
  | accepted event => exact h.elim
  | sent socket message =>
    cases message with
    | remoteShellEvent event => exact h.elim
    | _ => trivial

theorem Observation.IsNotice.silent (h : observation.IsNotice) : ¬observation.SendsEvent := by
  cases observation with
  | accepted event => exact h.elim
  | sent socket message =>
    cases message with
    | remoteShellEvent event => exact h.elim
    | _ => exact id

theorem Trusted.notices (h : Trusted contract session) {notices : List Observation} (hNotices : ∀ observation ∈ notices, observation.IsNotice) :
    Trusted contract { session with trace := session.trace ++ notices } := by
  constructor
  · exact h.known
  · induction notices using List.reverseRecOn with
    | nil =>
      rw [List.append_nil]
      exact h.causal
    | append_singleton notices notice ih =>
      rw [← List.append_assoc]
      apply (ih fun observation hMem => hNotices observation (List.mem_append_left _ hMem)).concat
      exact (hNotices notice (List.mem_append_right _ (List.mem_singleton.mpr rfl))).law _
  · exact h.queued
  · exact fun hActive => (h.opened hActive).append notices

variable (stringify) in
theorem sendNotice_spec (session : SshLiveSession) {payload : ServerMessage}
    (hPayload : ∀ socket, Observation.IsNotice (.sent socket payload)) :
    ∃ notices, session.sendServerMessage stringify payload = { session with trace := session.trace ++ notices } ∧
      ∀ observation ∈ notices, observation.IsNotice := by
  have hSilent : ∃ notices, session = { session with trace := session.trace ++ notices } ∧
      ∀ observation ∈ notices, observation.IsNotice := by
    refine ⟨[], ?_, List.forall_mem_nil _⟩
    rw [List.append_nil]
  unfold SshLiveSession.sendServerMessage
  split
  · exact hSilent
  · cases hOpen : session.openSocket with
    | some socket =>
      refine ⟨[.sent socket payload], rfl, ?_⟩
      intro observation hMem
      rw [List.mem_singleton.mp hMem]
      exact hPayload socket
    | none =>
      cases payload with
      | output data => exact (hPayload 0).elim
      | remoteShellEvent event => exact (hPayload 0).elim
      | _ => exact hSilent

variable (stringify) in
theorem sendBootstrapStatuses_spec (session : SshLiveSession) (statuses : List RemoteBootstrapStatus) :
    ∃ notices, SshLiveSession.sendBootstrapStatuses stringify session statuses =
        { session with pendingRemoteBootstrapStatuses := [], trace := session.trace ++ notices } ∧
      ∀ observation ∈ notices, observation.IsNotice := by
  induction statuses generalizing session with
  | nil =>
    refine ⟨[], ?_, List.forall_mem_nil _⟩
    rw [List.append_nil]
    rfl
  | cons status statuses ih =>
    have hStatus : ∀ socket, Observation.IsNotice (.sent socket (.bootstrapStatus status)) := fun _ => trivial
    obtain ⟨first, hFirst, hNotice⟩ := sendNotice_spec stringify session hStatus
    obtain ⟨rest, hRest, hNotices⟩ := ih (session.sendServerMessage stringify (.bootstrapStatus status))
    refine ⟨first ++ rest, ?_, ?_⟩
    · rw [SshLiveSession.sendBootstrapStatuses, hRest, hFirst, List.append_assoc]
    · intro observation hMem
      obtain hMem | hMem := List.mem_append.mp hMem
      · exact hNotice observation hMem
      · exact hNotices observation hMem

theorem Trusted.announce (h : Trusted contract session) : Advances contract session (session.sendRemoteEnhancementRuntimeStatus stringify) := by
  obtain ⟨hSame, hDetached⟩ | ⟨socket, hOpen, hSent⟩ := sendStatus_cases stringify session
  · rw [hSame]
    exact ⟨⟨h, fun _ hLive socket hOpen => absurd hOpen (hDetached socket hLive)⟩, .refl session⟩
  · rw [hSent]
    constructor
    · constructor
      · constructor
        · exact h.known
        · exact h.causal.concat trivial
        · exact h.queued
        · exact fun hActive => (h.opened hActive).append _
      · intro hActive _ other hOther
        obtain rfl : socket = other := Option.some.inj (hOpen.symm.trans hOther)
        replace hActive : session.remoteEnhancementsRuntimeState = .active := hActive
        refine ⟨session.remoteEnhancementsRuntimeContract, session.remoteEnhancementsRuntimeCode,
          session.remoteEnhancementsRuntimeMessage, List.mem_append_right _ ?_⟩
        rw [hActive]
        exact List.mem_singleton.mpr rfl
    · intro hDisabled
      refine ⟨hDisabled, _, rfl, ?_⟩
      intro observation hMem
      rw [List.mem_singleton.mp hMem]
      exact id

theorem Sound.attach (h : Sound contract session) (socket : Nat) :
    Advances contract session ({ session with socket := some ⟨socket, true⟩ }.onSessionAttached stringify) := by
  let attached := { session with socket := some ⟨socket, true⟩ }
  have hNotice : ∀ socket, Observation.IsNotice (.sent socket .ready) := fun _ => trivial
  obtain ⟨first, hFirst, hReady⟩ := sendNotice_spec stringify attached hNotice
  obtain ⟨rest, hRest, hStatuses⟩ := sendBootstrapStatuses_spec stringify (attached.sendServerMessage stringify .ready)
    (attached.sendServerMessage stringify .ready).pendingRemoteBootstrapStatuses
  have hNotices : ∀ observation ∈ first ++ rest, observation.IsNotice := by
    intro observation hMem
    obtain hMem | hMem := List.mem_append.mp hMem
    · exact hReady observation hMem
    · exact hStatuses observation hMem
  rw [SshLiveSession.onSessionAttached, hRest, hFirst, List.append_assoc]
  let introduced := { attached with
    pendingRemoteBootstrapStatuses := [], trace := attached.trace ++ (first ++ rest) }
  have hAttached : Trusted contract { attached with pendingRemoteBootstrapStatuses := [] } := ⟨h.known, h.causal, h.queued, h.opened⟩
  have hIntroduced : StaysClosed session introduced := fun hDisabled =>
    ⟨hDisabled, first ++ rest, rfl, fun observation hMem => (hNotices observation hMem).silent⟩
  have hTrusted : Trusted contract introduced := hAttached.notices hNotices
  have hAnnounced : Advances contract introduced (introduced.sendRemoteEnhancementRuntimeStatus stringify) := hTrusted.announce
  have hFlushed := hAnnounced.sound.flushFrames stringify hAnnounced.sound.queued
  exact ⟨hFlushed.sound, hIntroduced.trans (hAnnounced.closed.trans hFlushed.closed)⟩

section

variable (stringify : RemoteShellEventMessage → Output)
  (parseRemoteShellEventPayload : Output → Option RemoteShellEventMessage)

theorem Sound.step (h : Sound contract session) (event : SessionEvent) :
    Advances contract session (stepSession stringify parseRemoteShellEventPayload session event) := by
  cases event with
  | ptyChunk data =>
    let parsed := parse parseRemoteShellEventPayload session.remoteShellEventParser data
    have hParsed : Advances contract session { session with remoteShellEventParser := parsed.2 } :=
      h.same rfl rfl rfl (fun _ => id) fun hLive socket hOpen => ⟨hLive, hOpen⟩
    exact hParsed.trans (hParsed.sound.handleFrames parsed.1)
  | attach socket =>
    rw [stepSession]
    split
    · exact h.advances
    · exact h.attach socket
  | socketClosing =>
    rw [stepSession]
    apply h.same
    · rfl
    · rfl
    · rfl
    · exact fun _ => id
    · intro _ socket hOpen
      cases hSocket : session.socket with
      | none => simp [SshLiveSession.openSocket, hSocket] at hOpen
      | some attached => simp [SshLiveSession.openSocket, hSocket] at hOpen
  | handshakeTimeout =>
    rw [stepSession]
    split
    · exact h.handleHandshakeTimeout
    · exact h.advances
  | dispose reason => exact h.disposeSession reason

theorem sound_createSession (statuses : List RemoteBootstrapStatus) (dropCount : Nat) (result : RemoteBootstrapResult) :
    Sound (createSession statuses dropCount result).remoteEnhancementsRuntimeContract (createSession statuses dropCount result) := by
  constructor
  · constructor
    · rfl
    · exact causal_nil _
    · nofun
    · cases result <;> nofun
  · cases result <;> nofun

theorem Sound.run (h : Sound contract session) (events : List SessionEvent) :
    Advances contract session ((sshSession stringify parseRemoteShellEventPayload).run session events) := by
  induction events generalizing session with
  | nil => exact h.advances
  | cons event events ih =>
    have hStep : Advances contract session (stepSession stringify parseRemoteShellEventPayload session event) :=
      h.step stringify parseRemoteShellEventPayload event
    exact hStep.trans (ih hStep.sound)

end

theorem sound_of_reachable {parseRemoteShellEventPayload : Output → Option RemoteShellEventMessage}
    (h : (sshSession stringify parseRemoteShellEventPayload).Reachable session) : Sound session.remoteEnhancementsRuntimeContract session := by
  obtain ⟨_, events, ⟨statuses, dropCount, result, rfl⟩, rfl⟩ := h.exists_run
  have hStart := sound_createSession statuses dropCount result
  have hSound := (hStart.run stringify parseRemoteShellEventPayload events).sound
  rwa [hSound.known]

/-- Whatever the remote prints, and whenever sockets come and go. -/
theorem remote_helper_is_gated (stringify : RemoteShellEventMessage → Output)
    (parseRemoteShellEventPayload : Output → Option RemoteShellEventMessage) (session : SshLiveSession)
    (hReachable : (sshSession stringify parseRemoteShellEventPayload).Reachable session) :
    Causal (TrustLaw session.remoteEnhancementsRuntimeContract) session.trace ∧
      ∀ events, StaysClosed session ((sshSession stringify parseRemoteShellEventPayload).run session events) := by
  have hSound := sound_of_reachable hReachable
  exact ⟨hSound.causal, fun events => (hSound.run stringify parseRemoteShellEventPayload events).closed⟩

def bashContract : RemoteBootstrapRuntimeContract := ⟨.bash, [codeUnit '1'], 1, [.cwd]⟩

def readyMessage : RemoteShellEventMessage := ⟨.bash, [codeUnit '1'], 1, [.cwd], 0, .integrationReady⟩

def decodeHandshake (content : Output) : Option RemoteShellEventMessage :=
  if content = readyContent then some readyMessage else none

def handshakeEvents : List SessionEvent := [.attach 0, .ptyChunk readyFrame]

def greetedSession : SshLiveSession := (sshSession (fun _ => []) decodeHandshake).run (createSession [] 0 (.ready bashContract)) handshakeEvents

theorem greetedSession_trace : greetedSession.trace = [.sent 0 .ready, .sent 0 (.runtimeStatus .pending (some bashContract) none none),
      .sent 0 (.runtimeStatus .active (some bashContract) none none), .accepted readyMessage, .sent 0 (.remoteShellEvent readyMessage)] := by
  decide +kernel

theorem greeted_helper_is_gated : .sent 0 (.remoteShellEvent readyMessage) ∈ greetedSession.trace ∧
      Causal (TrustLaw greetedSession.remoteEnhancementsRuntimeContract) greetedSession.trace ∧ ∀ events, StaysClosed greetedSession
        ((sshSession (fun _ => []) decodeHandshake).run greetedSession events) := by
  constructor
  · rw [greetedSession_trace]
    simp
  · apply remote_helper_is_gated
    have hInitial : (sshSession (fun _ => []) decodeHandshake).initial (createSession [] 0 (.ready bashContract)) :=
      ⟨[], 0, .ready bashContract, rfl⟩
    exact (Transition.Machine.Reachable.start hInitial).run handshakeEvents

end Terminal
