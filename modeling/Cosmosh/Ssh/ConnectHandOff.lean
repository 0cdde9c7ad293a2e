import Cosmosh.Ssh.ClientConnect

/-! # What the caller gets, and what is left behind

A run of the call is the list of the events that came.
-/

namespace SshConnect

open Ssh Library.Transition

variable (options : Options)

def Allowed (s : State) : Event → Prop
  | .prepared _ | .preparationFailed _ => s.operationPending = true
  | .resume _ => ∃ outcome, s.phase = .resuming outcome
  | .abort _ => options.signal = true
  | .hostKey _ => s.client.config.isSome = true ∧ s.becameReady = false
  | .ready => s.client.config.isSome = true ∧ ∀ key ∈ s.presented, hostVerifier options key = true
  | .error _ | .close => s.client.config.isSome = true
  | .release | .releaseAfterClose => ∃ result ∈ s.results, result.isReady = true

def Event.Decides : Event → Prop
  | .preparationFailed _ | .abort _ | .ready | .error _ | .resume (.threw _ _) => True
  | _ => False

def call (decryptSensitiveValue : String → Option String) (server : SshServer) (keychain : CredentialMaterial) :
    Machine (List Event × State) Event where
  initial point := point.1 = [] ∧ ∃ abortReason, point.2 = openSshClient decryptSensitiveValue options server keychain abortReason
  step point event := (point.1 ++ [event], point.2.step options event)

/-- What is promised of the call at a point of a run. -/
structure HandsOff (log : List Event) (s : State) : Prop where
  once : s.results.length ≤ 1
  settles : (∃ event ∈ log, event.Decides) → s.results ≠ [] ∨ ∃ outcome, s.phase = .resuming outcome
  ready : ∀ secret metadata, .ready secret metadata ∈ s.results →
    (∃ before after, log = before ++ .ready :: after ∧ ∀ reason, .abort reason ∉ before) ∧
      (options.strictHostKey = true → ∀ key, .hostKey key ∈ log → key ∈ options.trustedFingerprintSet)
  untrusted : ∀ fingerprint message metadata, .hostUntrusted fingerprint message metadata ∈ s.results →
    options.strictHostKey = true ∧ .hostKey fingerprint ∈ log ∧ fingerprint ∉ options.trustedFingerprintSet
  stopped : ∀ result ∈ s.results, result.isReady = false →
    s.client.config = none ∨ s.client.ended = true ∨ s.client.destroyed = true
  socket : (∀ message, .resume (.threw message false) ∉ log) →
    ∀ result ∈ s.results, result.isReady = false → s.socketUsable = false
  heard : ∀ transport, s.phase = .opening transport → .close ∈ log ∨ .release ∈ log ∨ s.client.errorListeners ≠ []

def Relistens (s next : State) : Prop :=
  ∃ monitor errorListeners closeListener,
    next = { s with
      monitor := monitor
      client := { s.client with errorListeners := errorListeners, closeListener := closeListener } }

variable {s : State}

namespace Relistens

theorem refl (s : State) : Relistens s s := ⟨s.monitor, s.client.errorListeners, s.client.closeListener, rfl⟩

theorem trans {middle last : State} (h : Relistens s middle) (hRest : Relistens middle last) : Relistens s last := by
  obtain ⟨_, _, _, rfl⟩ := h
  obtain ⟨monitor, errorListeners, closeListener, rfl⟩ := hRest
  exact ⟨monitor, errorListeners, closeListener, rfl⟩

variable (s : State)

theorem monitor (monitor : Option SshClientLifecycleMonitor) : Relistens s { s with monitor := monitor } :=
  ⟨monitor, s.client.errorListeners, s.client.closeListener, rfl⟩

theorem offError : Relistens s s.offError := ⟨s.monitor, s.client.errorListeners.filter (· ≠ .attempt), s.client.closeListener, rfl⟩

theorem releaseMonitor : Relistens s s.releaseMonitor := by
  unfold State.releaseMonitor
  split
  · split
    · exact refl s
    · exact ⟨_, s.client.errorListeners.filter (· ≠ .monitor), false, rfl⟩
  · exact refl s

theorem releaseMonitorAfterClose : Relistens s s.releaseMonitorAfterClose := by
  unfold State.releaseMonitorAfterClose
  split
  · dsimp only
    split
    · exact (monitor s _).trans (releaseMonitor _)
    · exact monitor s _
  · exact refl s

theorem noteError (message : String) : Relistens s (s.noteError message) := monitor s _

theorem noteClose : Relistens s s.noteClose := by
  unfold State.noteClose
  split
  · dsimp only
    split
    · exact (monitor s _).trans (releaseMonitor _)
    · exact monitor s _
  · exact refl s

theorem detach : Relistens s s.offError.releaseMonitorAfterClose := (offError s).trans (releaseMonitorAfterClose _)

end Relistens

structure Seen where
  abortReason : Option AbortReason
  presentedFingerprint : String
  presented : List String
  becameReady : Bool
  hasClosed : Bool
  released : Bool

def Seen.note (seen : Seen) : Event → Seen
  | .abort reason => if ¬ options.signal ∨ seen.abortReason.isSome then seen else { seen with abortReason := some reason }
  | .hostKey hashedKey => { seen with presentedFingerprint := hashedKey, presented := seen.presented ++ [hashedKey] }
  | .ready => { seen with becameReady := true }
  | .close => { seen with hasClosed := true }
  | .release => { seen with released := true }
  | _ => seen

namespace State

variable (s : State)

def seen : Seen := ⟨s.abortReason, s.presentedFingerprint, s.presented, s.becameReady, s.hasClosed, s.released⟩

variable {s} in
theorem seen_of_relistens {next : State} (h : Relistens s next) : next.seen = s.seen := by
  obtain ⟨_, _, _, rfl⟩ := h
  rfl

theorem seen_loseHeldSocket : s.loseHeldSocket.seen = s.seen := by
  unfold loseHeldSocket
  split <;> rfl

theorem seen_endClient : s.endClient.seen = s.seen := seen_loseHeldSocket _

theorem seen_destroyClient : s.destroyClient.seen = s.seen := seen_loseHeldSocket _

theorem seen_destroySocket : s.destroySocket.seen = s.seen := rfl

theorem seen_settle (result : OpenSshClientResult) : (s.settle result).seen = s.seen := by
  unfold settle
  split <;> rfl

section

variable (transport : PreparedSshProxyTransport)

theorem seen_handleAbort (reason : AbortReason) : (s.handleAbort transport reason).seen = s.seen := by
  unfold handleAbort
  split
  · rfl
  · dsimp only
    rw [seen_destroySocket, seen_destroyClient, seen_settle, seen_of_relistens (.detach s)]

theorem seen_handleError (message : String) : (s.handleError options transport message).seen = s.seen := by
  unfold handleError
  split
  · rfl
  · dsimp only
    rw [seen_settle, seen_endClient, seen_of_relistens (.detach s)]

theorem seen_handleReady : (s.handleReady transport).seen = s.seen := by
  unfold handleReady
  split
  · rfl
  · exact seen_settle _ _

theorem seen_openClient (outcome : ConnectOutcome) : (s.openClient options transport outcome).seen = s.seen := by
  unfold openClient
  split
  · exact seen_handleAbort _ _ _
  · cases outcome with
    | returned => rfl
    | threw message holdsSocket => exact seen_handleError _ _ _ _

theorem seen_prepared : (s.prepared options transport).seen = s.seen := by
  unfold prepared
  dsimp only
  split
  · rfl
  · split <;> split <;> rfl

end

theorem seen_preparationFailed (failure : ProxyFailure) : (s.preparationFailed options failure).seen = s.seen := by
  unfold preparationFailed
  dsimp only
  split
  · rfl
  · split <;> rfl

theorem seen_resume (outcome : ConnectOutcome) : (s.resume options outcome).seen = s.seen := by
  unfold resume
  split
  · exact seen_openClient _ _ _ _
  · rfl
  · rfl

theorem seen_abort (reason : AbortReason) : (s.abort options reason).seen = s.seen.note options (.abort reason) := by
  unfold abort Seen.note
  dsimp only
  show State.seen (if ¬ options.signal ∨ s.abortReason.isSome then s else _) =
    if ¬ options.signal ∨ s.abortReason.isSome then s.seen else _
  split
  · rfl
  · split
    · rfl
    · split <;> rfl
    · exact seen_handleAbort _ _ _

theorem seen_emitReady : s.emitReady.seen = s.seen.note options .ready := by
  unfold emitReady
  dsimp only
  split
  · split
    · exact seen_handleReady _ _
    · rfl
  · rfl

theorem seen_emitError (message : String) : (s.emitError options message).seen = s.seen := by
  unfold emitError
  dsimp only
  split
  · split <;> split
    · exact seen_handleError _ _ _ _
    · exact seen_handleError _ _ _ _
    · rfl
    · rfl
  · split <;> rfl

theorem seen_emitClose : s.emitClose.seen = s.seen.note options .close := by
  unfold emitClose
  dsimp only
  split
  · exact seen_of_relistens (.noteClose _)
  · rfl

theorem seen_step (event : Event) : (s.step options event).seen = s.seen.note options event := by
  cases event with
  | prepared transport =>
    show (if s.operationPending then _ else s).seen = s.seen
    split
    · exact s.seen_prepared options transport
    · rfl
  | preparationFailed failure =>
    show (if s.operationPending then _ else s).seen = s.seen
    split
    · exact s.seen_preparationFailed options failure
    · rfl
  | resume outcome => exact s.seen_resume options outcome
  | abort reason => exact s.seen_abort options reason
  | hostKey hashedKey => rfl
  | ready => exact s.seen_emitReady options
  | error message => exact s.seen_emitError options message
  | close => exact s.seen_emitClose options
  | release => exact seen_of_relistens (.releaseMonitor _)
  | releaseAfterClose => exact seen_of_relistens (.releaseMonitorAfterClose s)

end State

structure Ledger (log : List Event) (seen : Seen) : Prop where
  keys : ∀ key, .hostKey key ∈ log ↔ key ∈ seen.presented
  shown : seen.presentedFingerprint ≠ "" → seen.presentedFingerprint ∈ seen.presented
  aborted : seen.abortReason = none → ∀ reason, .abort reason ∉ log
  closed : seen.hasClosed = true → .close ∈ log
  released : seen.released = true → .release ∈ log

namespace Ledger

theorem start (abortReason : Option AbortReason) : Ledger [] ⟨abortReason, "", [], false, false, false⟩ where
  keys _ := iff_of_false List.not_mem_nil List.not_mem_nil
  shown hShown := absurd rfl hShown
  aborted _ _ := List.not_mem_nil
  closed hClosed := absurd hClosed Bool.false_ne_true
  released hReleased := absurd hReleased Bool.false_ne_true

variable {log : List Event} {seen : Seen} (h : Ledger log seen) {event : Event}

include h

theorem extend (hKey : ∀ key, event ≠ .hostKey key) (hAbort : seen.abortReason = none → ∀ reason, event ≠ .abort reason) :
    Ledger (log ++ [event]) seen where
  keys key := by
    rw [← h.keys key, List.mem_append, List.mem_singleton]
    exact or_iff_left (Ne.symm (hKey key))
  shown := h.shown
  aborted hNone reason hMem := by
    obtain hOld | hNew := List.mem_append.mp hMem
    · exact h.aborted hNone reason hOld
    · exact hAbort hNone reason (List.mem_singleton.mp hNew).symm
  closed hClosed := List.mem_append_left _ (h.closed hClosed)
  released hReleased := List.mem_append_left _ (h.released hReleased)

theorem hostKey (hashedKey : String) : Ledger (log ++ [.hostKey hashedKey]) (seen.note options (.hostKey hashedKey)) where
  keys key := by
    show _ ↔ key ∈ seen.presented ++ [hashedKey]
    rw [List.mem_append, List.mem_append, List.mem_singleton, List.mem_singleton, h.keys key, Event.hostKey.injEq]
  shown _ := List.mem_append_right _ (List.mem_singleton_self hashedKey)
  aborted hNone reason hMem := by
    obtain hOld | hNew := List.mem_append.mp hMem
    · exact h.aborted hNone reason hOld
    · exact Event.noConfusion (List.mem_singleton.mp hNew)
  closed hClosed := List.mem_append_left _ (h.closed hClosed)
  released hReleased := List.mem_append_left _ (h.released hReleased)

theorem step (hSignal : ∀ reason, event = .abort reason → options.signal = true) : Ledger (log ++ [event]) (seen.note options event) := by
  have hLast : event ∈ log ++ [event] := List.mem_append_right _ (List.mem_singleton_self event)
  cases event with
  | abort reason =>
    have hListens : options.signal = true := hSignal reason rfl
    show Ledger _ (if ¬ options.signal ∨ seen.abortReason.isSome then seen else _)
    split
    · rename_i hIgnored
      refine h.extend (fun _ => Event.noConfusion) (fun hNone => ?_)
      obtain hMute | hTwice := hIgnored
      · exact absurd hListens hMute
      · exact absurd (hNone ▸ hTwice) Bool.noConfusion
    · have hAborted : Ledger log { seen with abortReason := some reason } :=
        ⟨h.keys, h.shown, fun hNone => absurd hNone (Option.some_ne_none reason), h.closed, h.released⟩
      exact hAborted.extend (fun _ => Event.noConfusion) (fun hNone => absurd hNone (Option.some_ne_none reason))
  | hostKey hashedKey => exact h.hostKey options hashedKey
  | close =>
    have hOld : Ledger (log ++ [.close]) seen := h.extend (fun _ => Event.noConfusion) (fun _ _ => Event.noConfusion)
    exact ⟨hOld.keys, hOld.shown, hOld.aborted, fun _ => hLast, hOld.released⟩
  | release =>
    have hOld : Ledger (log ++ [.release]) seen := h.extend (fun _ => Event.noConfusion) (fun _ _ => Event.noConfusion)
    exact ⟨hOld.keys, hOld.shown, hOld.aborted, hOld.closed, fun _ => hLast⟩
  | ready =>
    have hOld : Ledger (log ++ [.ready]) seen := h.extend (fun _ => Event.noConfusion) (fun _ _ => Event.noConfusion)
    exact ⟨hOld.keys, hOld.shown, hOld.aborted, hOld.closed, hOld.released⟩
  | prepared transport => exact h.extend (fun _ => Event.noConfusion) (fun _ _ => Event.noConfusion)
  | preparationFailed failure => exact h.extend (fun _ => Event.noConfusion) (fun _ _ => Event.noConfusion)
  | resume outcome => exact h.extend (fun _ => Event.noConfusion) (fun _ _ => Event.noConfusion)
  | error message => exact h.extend (fun _ => Event.noConfusion) (fun _ _ => Event.noConfusion)
  | releaseAfterClose => exact h.extend (fun _ => Event.noConfusion) (fun _ _ => Event.noConfusion)

end Ledger

structure Guarded (s : State) : Prop where
  present : ∀ transport, s.phase = .opening transport → s.monitor.isSome = true
  closed : ∀ monitor ∈ s.monitor, monitor.closed = true → s.hasClosed = true
  listens : ∀ monitor ∈ s.monitor, monitor.released = false → .monitor ∈ s.client.errorListeners
  released : ∀ monitor ∈ s.monitor, monitor.released = true → s.hasClosed = true ∨ s.released = true

variable {transport : PreparedSshProxyTransport}

namespace Guarded

theorem unmonitored (hNone : s.monitor = none) (hPhase : ∀ transport, s.phase ≠ .opening transport) : Guarded s where
  present transport hIs := absurd hIs (hPhase transport)
  closed monitor hMonitor := absurd (hNone.symm.trans hMonitor) (Option.some_ne_none monitor).symm
  listens monitor hMonitor := absurd (hNone.symm.trans hMonitor) (Option.some_ne_none monitor).symm
  released monitor hMonitor := absurd (hNone.symm.trans hMonitor) (Option.some_ne_none monitor).symm

variable {s : State} (h : Guarded s)

include h

theorem heard {log : List Event} (hLedger : Ledger log s.seen) (hPhase : s.phase = .opening transport) :
    .close ∈ log ∨ .release ∈ log ∨ s.client.errorListeners ≠ [] := by
  obtain ⟨monitor, hMonitor⟩ := Option.isSome_iff_exists.mp (h.present transport hPhase)
  cases hReleased : monitor.released with
  | false => exact .inr (.inr (List.ne_nil_of_mem (h.listens monitor hMonitor hReleased)))
  | true =>
    obtain hClosed | hCaller := h.released monitor hMonitor hReleased
    · exact .inl (hLedger.closed hClosed)
    · exact .inr (.inl (hLedger.released hCaller))

theorem observe {monitor : SshClientLifecycleMonitor} (next : SshClientLifecycleMonitor) (hMonitor : s.monitor = some monitor)
    (hClosed : next.closed = true → s.hasClosed = true) (hReleased : next.released = monitor.released) :
    Guarded { s with monitor := some next } where
  present _ _ := rfl
  closed := by
    rintro _ ⟨⟩
    exact hClosed
  listens := by
    rintro _ ⟨⟩ hListens
    exact h.listens monitor hMonitor (hReleased ▸ hListens)
  released := by
    rintro _ ⟨⟩ hOut
    exact h.released monitor hMonitor (hReleased ▸ hOut)

theorem releaseMonitor (hWhy : s.hasClosed = true ∨ s.released = true) : Guarded s.releaseMonitor := by
  unfold State.releaseMonitor
  split
  · rename_i monitor hMonitor
    split
    · exact h
    · refine ⟨fun _ _ => rfl, ?_, ?_, ?_⟩
      · rintro _ ⟨⟩
        exact h.closed monitor hMonitor
      · rintro _ ⟨⟩ hListens
        exact absurd hListens Bool.noConfusion
      · rintro _ ⟨⟩ -
        exact hWhy
  · exact h

theorem releaseMonitorAfterClose : Guarded s.releaseMonitorAfterClose := by
  unfold State.releaseMonitorAfterClose
  split
  · rename_i monitor hMonitor
    have hAsked := h.observe { monitor with releaseRequestedAfterClose := true } hMonitor (h.closed monitor hMonitor) rfl
    dsimp only
    split
    · rename_i hClosed
      exact hAsked.releaseMonitor (.inl (h.closed monitor hMonitor hClosed))
    · exact hAsked
  · exact h

theorem noteError (message : String) : Guarded (s.noteError message) where
  present transport hPhase := by
    show (s.monitor.map _).isSome = true
    rw [Option.isSome_map]
    exact h.present transport hPhase
  closed := by
    intro _ hNoted
    obtain ⟨monitor, hMonitor, rfl⟩ := Option.map_eq_some_iff.mp hNoted
    exact h.closed monitor hMonitor
  listens := by
    intro _ hNoted
    obtain ⟨monitor, hMonitor, rfl⟩ := Option.map_eq_some_iff.mp hNoted
    exact h.listens monitor hMonitor
  released := by
    intro _ hNoted
    obtain ⟨monitor, hMonitor, rfl⟩ := Option.map_eq_some_iff.mp hNoted
    exact h.released monitor hMonitor

theorem noteClose (hClosed : s.hasClosed = true) : Guarded s.noteClose := by
  unfold State.noteClose
  split
  · rename_i monitor hMonitor
    have hNoted := h.observe { monitor with closed := true } hMonitor (fun _ => hClosed) rfl
    dsimp only
    split
    · exact hNoted.releaseMonitor (.inl hClosed)
    · exact hNoted
  · exact h

theorem offError : Guarded s.offError where
  present := h.present
  closed := h.closed
  listens monitor hMonitor hListens := List.mem_filter.mpr ⟨h.listens monitor hMonitor hListens, rfl⟩
  released := h.released

theorem loseHeldSocket : Guarded s.loseHeldSocket := by
  unfold State.loseHeldSocket
  split
  · exact ⟨h.present, h.closed, h.listens, h.released⟩
  · exact h

theorem endClient : Guarded s.endClient := loseHeldSocket ⟨h.present, h.closed, h.listens, h.released⟩

theorem destroyClient : Guarded s.destroyClient := loseHeldSocket ⟨h.present, h.closed, h.listens, h.released⟩

theorem destroySocket : Guarded s.destroySocket := ⟨h.present, h.closed, h.listens, h.released⟩

theorem settle (result : OpenSshClientResult) : Guarded (s.settle result) := by
  unfold State.settle
  split
  · exact h
  · exact ⟨h.present, h.closed, h.listens, h.released⟩

section

variable (transport : PreparedSshProxyTransport)

theorem handleAbort (reason : AbortReason) : Guarded (s.handleAbort transport reason) := by
  unfold State.handleAbort
  split
  · exact h
  · exact (h.offError.releaseMonitorAfterClose.settle _).destroyClient.destroySocket

theorem handleError (message : String) : Guarded (s.handleError options transport message) := by
  unfold State.handleError
  split
  · exact h
  · exact h.offError.releaseMonitorAfterClose.endClient.settle _

theorem handleReady : Guarded (s.handleReady transport) := by
  unfold State.handleReady
  split
  · exact h
  · exact h.offError.settle _

end

omit h in
theorem listen (transport : PreparedSshProxyTransport) : Guarded (s.listen options transport) where
  present _ _ := rfl
  closed := by
    rintro _ ⟨⟩ hClosed
    exact absurd hClosed Bool.noConfusion
  listens := by
    rintro _ ⟨⟩ -
    exact List.mem_cons_self
  released := by
    rintro _ ⟨⟩ hReleased
    exact absurd hReleased Bool.noConfusion

omit h in
theorem openClient (transport : PreparedSshProxyTransport) (outcome : ConnectOutcome) : Guarded (s.openClient options transport outcome) := by
  have hListens : Guarded (s.listen options transport) := listen options transport
  unfold State.openClient
  split
  · exact hListens.handleAbort transport _
  · cases outcome with
    | returned => exact ⟨hListens.present, hListens.closed, hListens.listens, hListens.released⟩
    | threw message holdsSocket =>
      refine handleError options (s := { s.listen options transport with client := _ }) ?_ transport _
      exact ⟨hListens.present, hListens.closed, hListens.listens, hListens.released⟩

theorem rejectWait (failure : ProxyFailure) : Guarded (s.rejectWait failure) where
  present _ hPhase := Phase.noConfusion hPhase
  closed := h.closed
  listens := h.listens
  released := h.released

theorem resolveWait (transport : PreparedSshProxyTransport) : Guarded (s.resolveWait transport) where
  present _ hPhase := Phase.noConfusion hPhase
  closed := h.closed
  listens := h.listens
  released := h.released

theorem dropPreparationListener : Guarded s.dropPreparationListener := ⟨h.present, h.closed, h.listens, h.released⟩

theorem prepared (transport : PreparedSshProxyTransport) : Guarded (s.prepared options transport) := by
  have hDone : Guarded { s with operationPending := false, socketUsable := transport.socket } := ⟨h.present, h.closed, h.listens, h.released⟩
  have hGone : Guarded ({ s with operationPending := false, socketUsable := transport.socket }.dropPreparationListener).destroySocket :=
    hDone.dropPreparationListener.destroySocket
  unfold State.prepared
  dsimp only
  split
  · exact hDone.resolveWait transport
  · split
    · split
      · exact hGone
      · exact hGone.rejectWait _
    · split
      · exact hGone
      · exact hDone.dropPreparationListener.resolveWait transport

theorem preparationFailed (failure : ProxyFailure) : Guarded (s.preparationFailed options failure) := by
  have hDone : Guarded { s with operationPending := false } := ⟨h.present, h.closed, h.listens, h.released⟩
  unfold State.preparationFailed
  dsimp only
  split
  · exact hDone.rejectWait failure
  · split
    · exact hDone.dropPreparationListener
    · exact hDone.dropPreparationListener.rejectWait failure

theorem resume (outcome : ConnectOutcome) : Guarded (s.resume options outcome) := by
  unfold State.resume
  split
  · exact openClient options _ outcome
  · exact ⟨fun _ hPhase => Phase.noConfusion hPhase, h.closed, h.listens, h.released⟩
  · exact h

theorem abort (reason : AbortReason) : Guarded (s.abort options reason) := by
  have hAborted : Guarded { s with abortReason := some reason, abortListener := none } := ⟨h.present, h.closed, h.listens, h.released⟩
  unfold State.abort
  split
  · exact h
  · dsimp only
    split
    · exact hAborted
    · split
      · exact hAborted
      · exact hAborted.rejectWait _
    · exact hAborted.handleAbort _ reason

theorem emitReady : Guarded s.emitReady := by
  have hReady : Guarded { s with becameReady := true } := ⟨h.present, h.closed, h.listens, h.released⟩
  unfold State.emitReady
  dsimp only
  split
  · split
    · refine handleReady (s := { s with becameReady := true, client := _ }) ?_ _
      exact ⟨h.present, h.closed, h.listens, h.released⟩
    · exact hReady
  · exact hReady

theorem emitError (message : String) : Guarded (s.emitError options message) := by
  have hNoted : Guarded (if .monitor ∈ s.client.errorListeners then s.noteError message else s) := by
    split
    · exact h.noteError message
    · exact h
  unfold State.emitError
  dsimp only
  split
  · split
    · exact hNoted.offError.handleError options _ message
    · exact hNoted
  · exact hNoted

theorem emitClose : Guarded s.emitClose := by
  have hClosed : Guarded { s with hasClosed := true } := ⟨h.present, fun _ _ _ => rfl, h.listens, fun _ _ _ => .inl rfl⟩
  unfold State.emitClose
  dsimp only
  split
  · exact hClosed.noteClose rfl
  · exact hClosed

theorem step (event : Event) : Guarded (s.step options event) := by
  cases event with
  | prepared transport =>
    show Guarded (if s.operationPending then _ else s)
    split
    · exact h.prepared options transport
    · exact h
  | preparationFailed failure =>
    show Guarded (if s.operationPending then _ else s)
    split
    · exact h.preparationFailed options failure
    · exact h
  | resume outcome => exact h.resume options outcome
  | abort reason => exact h.abort options reason
  | hostKey hashedKey => exact ⟨h.present, h.closed, h.listens, h.released⟩
  | ready => exact h.emitReady
  | error message => exact h.emitError options message
  | close => exact h.emitClose
  | release =>
    have hReleased : Guarded { s with released := true } := ⟨h.present, h.closed, h.listens, fun _ _ _ => .inr rfl⟩
    exact hReleased.releaseMonitor (.inr rfl)
  | releaseAfterClose => exact h.releaseMonitorAfterClose

end Guarded

structure Unanswered (s : State) : Prop where
  results : s.results = []
  settled : s.settled = false

structure Preparing (log : List Event) (s : State) : Prop extends Unanswered s where
  phase : s.phase = .preparing
  pending : s.operationPending = true
  waits : s.waitSettled = false
  listener : s.abortListener = if options.signal then some .preparation else none
  abortReason : s.abortReason = none
  socket : s.socketUsable = false
  fresh : s.client.config = none
  undecided : ∀ event ∈ log, ¬ event.Decides

structure Resuming (log : List Event) (s : State) (outcome : Except ProxyFailure PreparedSshProxyTransport) : Prop
    extends Unanswered s where
  phase : s.phase = .resuming outcome
  pending : s.operationPending = true → s.waitSettled = true ∧ options.signal = true
  listener : s.abortListener = none
  fresh : s.client.config = none
  ok : ∀ transport, outcome = .ok transport → s.operationPending = false ∧ (s.socketUsable = true → transport.socket = true) ∧
    (s.abortReason = none → ∀ event ∈ log, ¬ event.Decides)
  error : ∀ failure, outcome = .error failure → s.socketUsable = false

structure Opening (log : List Event) (s : State) (transport : PreparedSshProxyTransport) : Prop extends Unanswered s where
  phase : s.phase = .opening transport
  pending : s.operationPending = false
  listener : s.abortListener = if options.signal then some (.opening transport) else none
  abortReason : s.abortReason = none
  connected : s.client.config.isSome = true
  attempt : .attempt ∈ s.client.errorListeners
  readyListener : s.client.readyListener = true
  socket : s.socketUsable = true → s.client.holdsSocket = true
  undecided : ∀ event ∈ log, ¬ event.Decides

structure Done (s : State) : Prop where
  place : s.phase = .over ∨ s.settled = true ∧ ∃ transport, s.phase = .opening transport
  pending : s.operationPending = true → s.waitSettled = true ∧ options.signal = true
  listener : s.abortListener = none

def Justified (log : List Event) (s : State) : OpenSshClientResult → Prop
  | .ready _ _ =>
    s.becameReady = true ∧ (∃ before after, log = before ++ .ready :: after ∧ ∀ reason, .abort reason ∉ before) ∧
      (options.strictHostKey = true → ∀ key, .hostKey key ∈ log → key ∈ options.trustedFingerprintSet)
  | .hostUntrusted fingerprint _ _ =>
    options.strictHostKey = true ∧ .hostKey fingerprint ∈ log ∧ fingerprint ∉ options.trustedFingerprintSet
  | .failed _ _ => True

structure Answered (log : List Event) (s : State) (result : OpenSshClientResult) : Prop extends Done options s where
  results : s.results = [result]
  stopped : result.isReady = false → s.client.config = none ∨ s.client.ended = true ∨ s.client.destroyed = true
  socket : result.isReady = false → s.socketUsable = false ∨ ∃ message, .resume (.threw message false) ∈ log
  justified : Justified options log s result

def Progress (log : List Event) (s : State) : Prop :=
  Preparing options log s ∨ (∃ outcome, Resuming options log s outcome) ∨
    (∃ transport, Opening options log s transport) ∨ ∃ result, Answered options log s result

structure Consistent (log : List Event) (s : State) : Prop where
  ledger : Ledger log s.seen
  guarded : Guarded s
  progress : Progress options log s

structure Later (s next : State) : Prop where
  results : next.results = s.results
  config : next.client.config = s.client.config
  ended : s.client.ended = true → next.client.ended = true
  destroyed : s.client.destroyed = true → next.client.destroyed = true
  socket : s.socketUsable = false → next.socketUsable = false

theorem Later.refl (s : State) : Later s s := ⟨rfl, rfl, id, id, id⟩

theorem Later.of_relistens {next : State} (h : Relistens s next) : Later s next := by
  obtain ⟨_, _, _, rfl⟩ := h
  exact ⟨rfl, rfl, id, id, id⟩

theorem prepared_of_waited (hWaits : s.waitSettled = true) (hSignal : options.signal = true)
    (transport : PreparedSshProxyTransport) : s.prepared options transport =
      { s with operationPending := false, socketUsable := transport.socket }.dropPreparationListener.destroySocket := by
  unfold State.prepared
  dsimp only
  rw [if_neg (not_not_intro hSignal)]
  split <;> exact if_pos hWaits

theorem preparationFailed_of_waited (hWaits : s.waitSettled = true) (hSignal : options.signal = true) (failure : ProxyFailure) :
    s.preparationFailed options failure = { s with operationPending := false }.dropPreparationListener := by
  unfold State.preparationFailed
  dsimp only
  rw [if_neg (not_not_intro hSignal)]
  exact if_pos hWaits

theorem listener_drop_of_none (h : s.abortListener = none) : s.dropPreparationListener.abortListener = none := by
  simp only [State.dropPreparationListener, h]

namespace Done

variable {options} {s : State} (h : Done options s)

include h

theorem of_relistens {next : State} (hNext : Relistens s next) : Done options next := by
  obtain ⟨_, _, _, rfl⟩ := hNext
  exact ⟨h.place, h.pending, h.listener⟩

theorem prepared (transport : PreparedSshProxyTransport) (hPending : s.operationPending = true) :
    Done options (s.prepared options transport) ∧ Later s (s.prepared options transport) := by
  obtain ⟨hWaits, hSignal⟩ := h.pending hPending
  rw [prepared_of_waited options hWaits hSignal]
  refine ⟨⟨h.place, ?_, ?_⟩, ⟨rfl, rfl, id, id, fun _ => rfl⟩⟩
  · exact fun hStill => absurd hStill Bool.noConfusion
  · exact listener_drop_of_none h.listener

theorem preparationFailed (failure : ProxyFailure) (hPending : s.operationPending = true) :
    Done options (s.preparationFailed options failure) ∧ Later s (s.preparationFailed options failure) := by
  obtain ⟨hWaits, hSignal⟩ := h.pending hPending
  rw [preparationFailed_of_waited options hWaits hSignal]
  refine ⟨⟨h.place, ?_, ?_⟩, ⟨rfl, rfl, id, id, id⟩⟩
  · exact fun hStill => absurd hStill Bool.noConfusion
  · exact listener_drop_of_none h.listener

theorem abort (reason : AbortReason) : Done options (s.abort options reason) ∧ Later s (s.abort options reason) := by
  unfold State.abort
  split
  · exact ⟨h, .refl s⟩
  · rw [h.listener]
    exact ⟨⟨h.place, h.pending, rfl⟩, ⟨rfl, rfl, id, id, id⟩⟩

theorem settled (hPhase : s.phase = .opening transport) : s.settled = true := by
  obtain hOver | ⟨hSettled, _⟩ := h.place
  · exact Phase.noConfusion (hPhase.symm.trans hOver)
  · exact hSettled

theorem emitReady : Done options s.emitReady ∧ Later s s.emitReady := by
  unfold State.emitReady
  dsimp only
  split
  · rename_i transport hPhase
    split
    · rw [State.handleReady, if_pos (h.settled hPhase)]
      exact ⟨⟨h.place, h.pending, h.listener⟩, ⟨rfl, rfl, id, id, id⟩⟩
    · exact ⟨⟨h.place, h.pending, h.listener⟩, ⟨rfl, rfl, id, id, id⟩⟩
  · exact ⟨⟨h.place, h.pending, h.listener⟩, ⟨rfl, rfl, id, id, id⟩⟩

theorem emitError (message : String) : Relistens s (s.emitError options message) := by
  have hNoted : Relistens s (if .monitor ∈ s.client.errorListeners then s.noteError message else s) := by
    split
    · exact .noteError s message
    · exact .refl s
  have hDone := h.of_relistens hNoted
  unfold State.emitError
  dsimp only
  split
  · rename_i transport hPhase
    split
    · rw [State.handleError, if_pos ((hDone.of_relistens (.offError _)).settled hPhase)]
      exact hNoted.trans (.offError _)
    · exact hNoted
  · exact hNoted

theorem emitClose : Done options s.emitClose ∧ Later s s.emitClose := by
  have hClosed : Done options { s with hasClosed := true } := ⟨h.place, h.pending, h.listener⟩
  unfold State.emitClose
  dsimp only
  split
  · have hLater := Later.of_relistens (.noteClose { s with hasClosed := true })
    exact ⟨hClosed.of_relistens (.noteClose _), ⟨hLater.results, hLater.config, hLater.ended, hLater.destroyed, hLater.socket⟩⟩
  · exact ⟨hClosed, ⟨rfl, rfl, id, id, id⟩⟩

theorem step (event : Event) : Done options (s.step options event) ∧ Later s (s.step options event) := by
  cases event with
  | prepared transport =>
    show Done options (if s.operationPending then _ else s) ∧ Later s (if s.operationPending then _ else s)
    split
    · rename_i hPending
      exact h.prepared transport hPending
    · exact ⟨h, .refl s⟩
  | preparationFailed failure =>
    show Done options (if s.operationPending then _ else s) ∧ Later s (if s.operationPending then _ else s)
    split
    · rename_i hPending
      exact h.preparationFailed failure hPending
    · exact ⟨h, .refl s⟩
  | resume outcome =>
    have hStays : s.resume options outcome = s := by
      obtain hPhase | ⟨_, _, hPhase⟩ := h.place <;> rw [State.resume, hPhase]
    show Done options (s.resume options outcome) ∧ Later s (s.resume options outcome)
    rw [hStays]
    exact ⟨h, .refl s⟩
  | abort reason => exact h.abort reason
  | hostKey hashedKey => exact ⟨⟨h.place, h.pending, h.listener⟩, ⟨rfl, rfl, id, id, id⟩⟩
  | ready => exact h.emitReady
  | error message => exact ⟨h.of_relistens (h.emitError message), .of_relistens (h.emitError message)⟩
  | close => exact h.emitClose
  | release =>
    have hReleased : Done options { s with released := true } := ⟨h.place, h.pending, h.listener⟩
    have hLater := Later.of_relistens (.releaseMonitor { s with released := true })
    exact ⟨hReleased.of_relistens (.releaseMonitor _), ⟨hLater.results, hLater.config, hLater.ended, hLater.destroyed, hLater.socket⟩⟩
  | releaseAfterClose => exact ⟨h.of_relistens (.releaseMonitorAfterClose s), .of_relistens (.releaseMonitorAfterClose s)⟩

end Done

variable {options} {log : List Event} {s : State} {event : Event}

theorem becameReady_step (h : s.becameReady = true) (event : Event) : (s.step options event).becameReady = true := by
  have hSeen : (s.step options event).becameReady = (s.seen.note options event).becameReady :=
    congrArg Seen.becameReady (s.seen_step options event)
  rw [hSeen]
  cases event with
  | ready => rfl
  | abort reason =>
    show (if ¬ options.signal ∨ s.abortReason.isSome then s.seen else _).becameReady = true
    split <;> exact h
  | _ => exact h

variable {result : OpenSshClientResult}

theorem Justified.step (h : Justified options log s result) (hAllowed : Allowed options s event) :
    Justified options (log ++ [event]) (s.step options event) result := by
  cases result with
  | ready secret metadata =>
    obtain ⟨hReady, ⟨before, after, rfl, hUnaborted⟩, hTrusted⟩ := h
    refine ⟨becameReady_step hReady event, ⟨before, after ++ [event], ?_, hUnaborted⟩, ?_⟩
    · rw [List.append_assoc, List.cons_append]
    · intro hStrict key hMem
      obtain hOld | hNew := List.mem_append.mp hMem
      · exact hTrusted hStrict key hOld
      · obtain rfl := List.mem_singleton.mp hNew
        exact absurd (hReady.symm.trans hAllowed.2) Bool.noConfusion
  | hostUntrusted fingerprint message metadata => exact ⟨h.1, List.mem_append_left _ h.2.1, h.2.2⟩
  | failed message metadata => trivial

theorem Answered.step (h : Answered options log s result) (hAllowed : Allowed options s event) :
    Answered options (log ++ [event]) (s.step options event) result := by
  obtain ⟨hDone, hLater⟩ := h.toDone.step event
  refine { hDone with results := hLater.results.trans h.results, stopped := ?_, socket := ?_, justified := h.justified.step hAllowed }
  · intro hFailed
    obtain hFresh | hEnded | hDestroyed := h.stopped hFailed
    · exact .inl (hLater.config.trans hFresh)
    · exact .inr (.inl (hLater.ended hEnded))
    · exact .inr (.inr (hLater.destroyed hDestroyed))
  · intro hFailed
    obtain hUnusable | ⟨message, hThrew⟩ := h.socket hFailed
    · exact .inl (hLater.socket hUnusable)
    · exact .inr ⟨message, List.mem_append_left _ hThrew⟩

structure Settles (s next : State) (result : OpenSshClientResult) : Prop where
  results : next.results = s.results ++ [result]
  settled : next.settled = true
  phase : next.phase = s.phase
  pending : next.operationPending = s.operationPending
  listener : next.abortListener = none
  stopped : result.isReady = false → next.client.ended = true ∨ next.client.destroyed = true

theorem settle_of_unsettled (h : s.settled = false) (result : OpenSshClientResult) :
    s.settle result = { s with settled := true, abortListener := none, results := s.results ++ [result] } := by
  rw [State.settle, h]
  rfl

theorem settles_handleAbort (h : s.settled = false) (transport : PreparedSshProxyTransport) (reason : AbortReason) :
    Settles s (s.handleAbort transport reason) (.failed (.text (readSshConnectionAbortError reason)) (some transport.metadata)) ∧
      (s.handleAbort transport reason).socketUsable = false := by
  have hDetach := Relistens.detach s
  unfold State.handleAbort
  rw [if_neg (Bool.eq_false_iff.mp h)]
  dsimp only
  generalize s.offError.releaseMonitorAfterClose = next at hDetach
  obtain ⟨monitor, errorListeners, closeListener, rfl⟩ := hDetach
  rw [settle_of_unsettled]
  on_goal 2 => exact h
  unfold State.destroyClient State.loseHeldSocket
  split
  · exact ⟨⟨rfl, rfl, rfl, rfl, rfl, fun _ => .inr rfl⟩, rfl⟩
  · exact ⟨⟨rfl, rfl, rfl, rfl, rfl, fun _ => .inr rfl⟩, rfl⟩

theorem settles_handleError (options : Options) (h : s.settled = false) (transport : PreparedSshProxyTransport) (message : String) :
    Settles s (s.handleError options transport message) (s.failureOf options transport message) ∧
      ((s.handleError options transport message).socketUsable = true → s.socketUsable = true ∧ s.client.holdsSocket = false) := by
  have hDetach := Relistens.detach s
  unfold State.handleError
  rw [if_neg (Bool.eq_false_iff.mp h)]
  dsimp only
  generalize s.offError.releaseMonitorAfterClose = next at hDetach
  obtain ⟨monitor, errorListeners, closeListener, rfl⟩ := hDetach
  unfold State.endClient State.loseHeldSocket
  split
  · rw [settle_of_unsettled]
    on_goal 2 => exact h
    exact ⟨⟨rfl, rfl, rfl, rfl, rfl, fun _ => .inl rfl⟩, fun hUsable => absurd hUsable Bool.noConfusion⟩
  · rename_i hFree
    rw [settle_of_unsettled]
    on_goal 2 => exact h
    exact ⟨⟨rfl, rfl, rfl, rfl, rfl, fun _ => .inl rfl⟩, fun hUsable => ⟨hUsable, Bool.eq_false_iff.mpr hFree⟩⟩

theorem settles_handleReady (h : s.settled = false) (transport : PreparedSshProxyTransport) :
    Settles s (s.handleReady transport) (.ready (completionSecretValue s.config) transport.metadata) := by
  rw [State.handleReady, if_neg (Bool.eq_false_iff.mp h), settle_of_unsettled (s := s.offError) h]
  exact ⟨rfl, rfl, rfl, rfl, rfl, fun hFailed => absurd hFailed Bool.noConfusion⟩

theorem justified_failureOf (hLedger : Ledger log s.seen) (next : State) (transport : PreparedSshProxyTransport) (message : String) :
    Justified options log next (s.failureOf options transport message) := by
  unfold State.failureOf
  split
  · rename_i hUntrusted
    obtain ⟨hStrict, hShown, hUnknown⟩ := hUntrusted
    refine ⟨hStrict, (hLedger.keys _).mpr (hLedger.shown hShown), fun hMem => ?_⟩
    exact hUnknown (List.contains_iff_mem.mpr hMem)
  · trivial

theorem Answered.of_settles {before : State} (hSettles : Settles before s result) (hResults : before.results = [])
    (hPhase : before.phase = .opening transport) (hPending : before.operationPending = false)
    (hSocket : result.isReady = false → s.socketUsable = true → ∃ message, .resume (.threw message false) ∈ log)
    (hJustified : Justified options log s result) : Answered options log s result where
  place := .inr ⟨hSettles.settled, transport, hSettles.phase.trans hPhase⟩
  pending hStill := absurd (hStill.symm.trans (hSettles.pending.trans hPending)) Bool.noConfusion
  listener := hSettles.listener
  results := by rw [hSettles.results, hResults, List.nil_append]
  stopped hFailed := .inr (hSettles.stopped hFailed)
  socket hFailed := by
    cases hUsable : s.socketUsable with
    | false => exact .inl rfl
    | true => exact .inr (hSocket hFailed hUsable)
  justified := hJustified

theorem undecided_append {events : List Event} (h : ∀ event ∈ events, ¬ event.Decides) (hNew : ¬ event.Decides) :
    ∀ other ∈ events ++ [event], ¬ other.Decides := by
  intro other hMem
  obtain hOld | hLast := List.mem_append.mp hMem
  · exact h other hOld
  · exact List.mem_singleton.mp hLast ▸ hNew

theorem not_allowed_of_fresh (hFresh : s.client.config = none) (hConnected : s.client.config.isSome = true) : False := by
  rw [hFresh] at hConnected
  exact Bool.noConfusion hConnected

theorem Unanswered.not_owned (h : Unanswered s) (hOwned : ∃ result ∈ s.results, result.isReady = true) : False := by
  obtain ⟨result, hMem, _⟩ := hOwned
  rw [h.results] at hMem
  exact List.not_mem_nil hMem

theorem Resuming.resolved (h : Unanswered s) (hListener : s.abortListener = none) (hFresh : s.client.config = none)
    (hPending : s.operationPending = false) (hSocket : s.socketUsable = true → transport.socket = true)
    (hUndecided : ∀ event ∈ log, ¬ event.Decides) : Resuming options log (s.resolveWait transport) (.ok transport) where
  results := h.results
  settled := h.settled
  phase := rfl
  pending hStill := absurd (hStill.symm.trans hPending) Bool.noConfusion
  listener := hListener
  fresh := hFresh
  ok := by
    rintro _ ⟨⟩
    exact ⟨hPending, hSocket, fun _ => hUndecided⟩
  error := by
    rintro _ ⟨⟩

theorem Resuming.rejected (h : Unanswered s) (hListener : s.abortListener = none) (hFresh : s.client.config = none)
    (hPending : s.operationPending = true → options.signal = true) (hSocket : s.socketUsable = false) (failure : ProxyFailure) :
    Resuming options log (s.rejectWait failure) (.error failure) where
  results := h.results
  settled := h.settled
  phase := rfl
  pending hStill := ⟨rfl, hPending hStill⟩
  listener := hListener
  fresh := hFresh
  ok := by
    rintro _ ⟨⟩
  error _ _ := hSocket

namespace Preparing

variable (h : Preparing options log s)

include h

theorem listener_drop (hSignal : options.signal = true) :
    ({ s with operationPending := false }.dropPreparationListener).abortListener = none := by
  simp only [State.dropPreparationListener, h.listener, if_pos hSignal]

theorem prepared (transport : PreparedSshProxyTransport) :
    Resuming options (log ++ [.prepared transport]) (s.prepared options transport) (.ok transport) := by
  have hUndecided : ∀ event ∈ log ++ [.prepared transport], ¬ event.Decides := undecided_append h.undecided id
  unfold State.prepared
  dsimp only
  split
  · rename_i hMute
    apply Resuming.resolved
    · exact ⟨h.results, h.settled⟩
    · exact h.listener.trans (if_neg hMute)
    · exact h.fresh
    · rfl
    · exact id
    · exact hUndecided
  · rename_i hSignal
    have hListener := h.listener_drop (not_not.mp hSignal)
    split
    · rename_i reason hAborted
      exact absurd (hAborted.symm.trans h.abortReason) (Option.some_ne_none reason)
    · split
      · rename_i hWaits
        exact absurd (hWaits.symm.trans h.waits) Bool.noConfusion
      · apply Resuming.resolved
        · exact ⟨h.results, h.settled⟩
        · exact hListener
        · exact h.fresh
        · rfl
        · exact id
        · exact hUndecided

theorem preparationFailed (failure : ProxyFailure) :
    Resuming options (log ++ [.preparationFailed failure]) (s.preparationFailed options failure) (.error failure) := by
  unfold State.preparationFailed
  dsimp only
  split
  · rename_i hMute
    apply Resuming.rejected
    · exact ⟨h.results, h.settled⟩
    · exact h.listener.trans (if_neg hMute)
    · exact h.fresh
    · exact fun hStill => absurd hStill Bool.false_ne_true
    · exact h.socket
  · rename_i hSignal
    split
    · rename_i hWaits
      exact absurd (hWaits.symm.trans h.waits) Bool.noConfusion
    · apply Resuming.rejected
      · exact ⟨h.results, h.settled⟩
      · exact h.listener_drop (not_not.mp hSignal)
      · exact h.fresh
      · exact fun hStill => absurd hStill Bool.false_ne_true
      · exact h.socket

theorem abort (reason : AbortReason) (hSignal : options.signal = true) :
    Resuming options (log ++ [.abort reason]) (s.abort options reason) (.error (.error (readSshConnectionAbortError reason))) := by
  have hListener : s.abortListener = some .preparation := h.listener.trans (if_pos hSignal)
  unfold State.abort
  rw [if_neg (by rw [hSignal, h.abortReason]; decide), hListener]
  dsimp only
  rw [if_neg (Bool.eq_false_iff.mp h.waits)]
  apply Resuming.rejected
  · exact ⟨h.results, h.settled⟩
  · exact rfl
  · exact h.fresh
  · exact fun _ => hSignal
  · exact h.socket

theorem step (hAllowed : Allowed options s event) : Progress options (log ++ [event]) (s.step options event) := by
  cases event with
  | prepared transport =>
    have hNext : s.step options (.prepared transport) = s.prepared options transport := if_pos h.pending
    exact hNext ▸ .inr (.inl ⟨.ok transport, h.prepared transport⟩)
  | preparationFailed failure =>
    have hNext : s.step options (.preparationFailed failure) = s.preparationFailed options failure := if_pos h.pending
    exact hNext ▸ .inr (.inl ⟨.error failure, h.preparationFailed failure⟩)
  | resume outcome =>
    obtain ⟨_, hPhase⟩ := hAllowed
    exact Phase.noConfusion (h.phase.symm.trans hPhase)
  | abort reason => exact .inr (.inl ⟨_, h.abort reason hAllowed⟩)
  | hostKey hashedKey => exact (not_allowed_of_fresh h.fresh hAllowed.1).elim
  | ready => exact (not_allowed_of_fresh h.fresh hAllowed.1).elim
  | error message => exact (not_allowed_of_fresh h.fresh hAllowed).elim
  | close => exact (not_allowed_of_fresh h.fresh hAllowed).elim
  | release => exact (h.not_owned hAllowed).elim
  | releaseAfterClose => exact (h.not_owned hAllowed).elim

end Preparing

namespace Resuming

variable {outcome : Except ProxyFailure PreparedSshProxyTransport} (h : Resuming options log s outcome)

include h

theorem error_of_pending (hPending : s.operationPending = true) (transport : PreparedSshProxyTransport) : outcome ≠ .ok transport := by
  intro hOk
  exact absurd ((h.ok transport hOk).1.symm.trans hPending) Bool.false_ne_true

theorem prepared (transport : PreparedSshProxyTransport) (hPending : s.operationPending = true) :
    Resuming options (log ++ [.prepared transport]) (s.prepared options transport) outcome := by
  obtain ⟨hWaits, hSignal⟩ := h.pending hPending
  rw [prepared_of_waited options hWaits hSignal]
  exact {
    results := h.results
    settled := h.settled
    phase := h.phase
    pending := fun hStill => absurd hStill Bool.false_ne_true
    listener := listener_drop_of_none h.listener
    fresh := h.fresh
    ok := fun other hOk => absurd hOk (h.error_of_pending hPending other)
    error := fun _ _ => rfl }

theorem preparationFailed (failure : ProxyFailure) (hPending : s.operationPending = true) :
    Resuming options (log ++ [.preparationFailed failure]) (s.preparationFailed options failure) outcome := by
  obtain ⟨hWaits, hSignal⟩ := h.pending hPending
  rw [preparationFailed_of_waited options hWaits hSignal]
  exact {
    results := h.results
    settled := h.settled
    phase := h.phase
    pending := fun hStill => absurd hStill Bool.false_ne_true
    listener := listener_drop_of_none h.listener
    fresh := h.fresh
    ok := fun other hOk => absurd hOk (h.error_of_pending hPending other)
    error := h.error }

theorem abort (reason : AbortReason) (hSignal : options.signal = true) :
    Resuming options (log ++ [.abort reason]) (s.abort options reason) outcome := by
  unfold State.abort
  split
  · rename_i hIgnored
    refine { h with ok := fun transport hOk => ⟨(h.ok transport hOk).1, (h.ok transport hOk).2.1, fun hNone => ?_⟩ }
    obtain hMute | hTwice := hIgnored
    · exact absurd hSignal hMute
    · rw [hNone] at hTwice
      exact absurd hTwice Bool.false_ne_true
  · rw [h.listener]
    exact {
      results := h.results
      settled := h.settled
      phase := h.phase
      pending := h.pending
      listener := rfl
      fresh := h.fresh
      ok := fun transport hOk => ⟨(h.ok transport hOk).1, (h.ok transport hOk).2.1, fun hNone => absurd hNone (Option.some_ne_none reason)⟩
      error := h.error }

theorem resume_error {failure : ProxyFailure} (hError : outcome = .error failure) (connect : ConnectOutcome) :
    Answered options (log ++ [.resume connect]) (s.resume options connect) (State.failWith failure) := by
  have hPhase : s.phase = .resuming (.error failure) := hError ▸ h.phase
  have hFailed : (State.failWith failure).isReady = false := by cases failure <;> rfl
  have hTrivial : ∀ next, Justified options (log ++ [.resume connect]) next (State.failWith failure) := by
    intro next
    cases failure <;> trivial
  rw [State.resume, hPhase]
  exact {
    place := .inl rfl
    pending := h.pending
    listener := h.listener
    results := by
      show s.results ++ _ = _
      rw [h.results, List.nil_append]
    stopped := fun _ => .inl h.fresh
    socket := fun _ => .inl (h.error failure hError)
    justified := hTrivial _ }

theorem resume_ok (hOk : outcome = .ok transport) (hLedger : Ledger log s.seen) (connect : ConnectOutcome) :
    Progress options (log ++ [.resume connect]) (s.resume options connect) := by
  obtain ⟨hPending, hSocket, hUndecided⟩ := h.ok transport hOk
  have hPhase : s.phase = .resuming (.ok transport) := hOk ▸ h.phase
  rw [State.resume, hPhase]
  dsimp only
  unfold State.openClient
  split
  · rename_i reason _
    obtain ⟨hSettles, hDestroyed⟩ := settles_handleAbort (s := s.listen options transport) h.settled transport reason
    refine .inr (.inr (.inr ⟨_, .of_settles hSettles h.results rfl hPending ?_ trivial⟩))
    exact fun _ hUsable => absurd (hUsable.symm.trans hDestroyed) Bool.noConfusion
  · rename_i hNone
    cases connect with
    | returned =>
      refine .inr (.inr (.inl ⟨transport, ?_⟩))
      exact {
        results := h.results
        settled := h.settled
        phase := rfl
        pending := hPending
        listener := rfl
        abortReason := hNone
        connected := rfl
        attempt := List.mem_cons_of_mem _ List.mem_cons_self
        readyListener := rfl
        socket := hSocket
        undecided := undecided_append (hUndecided hNone) id }
    | threw message holdsSocket =>
      obtain ⟨hSettles, hFree⟩ := settles_handleError (s := { s.listen options transport with client := _ }) options h.settled
        transport (message.getD "SSH connection failed.")
      refine .inr (.inr (.inr ⟨_, .of_settles hSettles h.results rfl hPending ?_ ?_⟩))
      · intro _ hUsable
        obtain ⟨hBefore, hFreed⟩ := hFree hUsable
        have hLost : (transport.socket && holdsSocket) = false := hFreed
        rw [hSocket hBefore, Bool.true_and] at hLost
        exact ⟨message, hLost ▸ List.mem_append_right _ List.mem_cons_self⟩
      · have hKept : Ledger (log ++ [.resume (.threw message holdsSocket)]) s.seen :=
          hLedger.extend (fun _ => Event.noConfusion) (fun _ _ => Event.noConfusion)
        exact justified_failureOf (s := { s.listen options transport with client := _ }) hKept _ transport _

theorem step (hLedger : Ledger log s.seen) (hAllowed : Allowed options s event) : Progress options (log ++ [event]) (s.step options event) := by
  cases event with
  | prepared transport =>
    have hNext : s.step options (.prepared transport) = s.prepared options transport := if_pos hAllowed
    exact hNext ▸ .inr (.inl ⟨outcome, h.prepared transport hAllowed⟩)
  | preparationFailed failure =>
    have hNext : s.step options (.preparationFailed failure) = s.preparationFailed options failure := if_pos hAllowed
    exact hNext ▸ .inr (.inl ⟨outcome, h.preparationFailed failure hAllowed⟩)
  | resume connect =>
    cases hOutcome : outcome with
    | error failure => exact .inr (.inr (.inr ⟨_, h.resume_error hOutcome connect⟩))
    | ok transport => exact h.resume_ok hOutcome hLedger connect
  | abort reason => exact .inr (.inl ⟨outcome, h.abort reason hAllowed⟩)
  | hostKey hashedKey => exact (not_allowed_of_fresh h.fresh hAllowed.1).elim
  | ready => exact (not_allowed_of_fresh h.fresh hAllowed.1).elim
  | error message => exact (not_allowed_of_fresh h.fresh hAllowed).elim
  | close => exact (not_allowed_of_fresh h.fresh hAllowed).elim
  | release => exact (h.not_owned hAllowed).elim
  | releaseAfterClose => exact (h.not_owned hAllowed).elim

end Resuming

theorem attempt_releaseMonitor (h : .attempt ∈ s.client.errorListeners) : .attempt ∈ s.releaseMonitor.client.errorListeners := by
  unfold State.releaseMonitor
  split
  · split
    · exact h
    · exact List.mem_filter.mpr ⟨h, rfl⟩
  · exact h

theorem attempt_noteClose (h : .attempt ∈ s.client.errorListeners) : .attempt ∈ s.noteClose.client.errorListeners := by
  unfold State.noteClose
  split
  · dsimp only
    split
    · exact attempt_releaseMonitor h
    · exact h
  · exact h

namespace Opening

variable {transport : PreparedSshProxyTransport} (h : Opening options log s transport)

include h

theorem abort (reason : AbortReason) (hSignal : options.signal = true) :
    ∃ result, Answered options (log ++ [.abort reason]) (s.abort options reason) result := by
  have hListener : s.abortListener = some (.opening transport) := h.listener.trans (if_pos hSignal)
  unfold State.abort
  rw [if_neg (by rw [hSignal, h.abortReason]; decide), hListener]
  obtain ⟨hSettles, hDestroyed⟩ := settles_handleAbort
    (s := { s with abortReason := some reason, abortListener := none }) h.settled transport reason
  refine ⟨_, .of_settles hSettles h.results h.phase h.pending ?_ trivial⟩
  exact fun _ hUsable => absurd (hUsable.symm.trans hDestroyed) Bool.noConfusion

theorem emitReady (hLedger : Ledger log s.seen) (hTrusted : ∀ key ∈ s.presented, hostVerifier options key = true) :
    ∃ result, Answered options (log ++ [.ready]) s.emitReady result := by
  have hNext : s.emitReady =
      { s with becameReady := true, client := { s.client with readyListener := false } }.handleReady transport := by
    unfold State.emitReady
    dsimp only
    rw [h.phase, h.readyListener]
    rfl
  have hSettles := settles_handleReady
    (s := { s with becameReady := true, client := { s.client with readyListener := false } }) h.settled transport
  rw [hNext]
  refine ⟨_, .of_settles hSettles h.results h.phase h.pending ?_ ⟨?_, ?_, ?_⟩⟩
  · exact fun hFailed => absurd hFailed Bool.noConfusion
  · exact congrArg Seen.becameReady
      (State.seen_handleReady { s with becameReady := true, client := { s.client with readyListener := false } } transport)
  · exact ⟨log, [], rfl, hLedger.aborted h.abortReason⟩
  · intro hStrict key hMem
    obtain hOld | hNew := List.mem_append.mp hMem
    · have hPassed : (!options.strictHostKey || options.trustedFingerprintSet.contains key) = true := hTrusted key ((hLedger.keys key).mp hOld)
      rw [hStrict] at hPassed
      exact List.contains_iff_mem.mp hPassed
    · exact Event.noConfusion (List.mem_singleton.mp hNew)

theorem emitError (hLedger : Ledger log s.seen) (message : String) :
    ∃ result, Answered options (log ++ [.error message]) (s.emitError options message) result := by
  have hNoted : Relistens s (if .monitor ∈ s.client.errorListeners then s.noteError message else s).offError := by
    split
    · exact (Relistens.noteError s message).trans (.offError _)
    · exact .offError s
  have hPhase : (if .monitor ∈ s.client.errorListeners then s.noteError message else s).phase = .opening transport := by
    split <;> exact h.phase
  have hNext : s.emitError options message =
      ((if .monitor ∈ s.client.errorListeners then s.noteError message else s).offError).handleError options transport message := by
    unfold State.emitError
    dsimp only
    rw [hPhase]
    exact if_pos h.attempt
  rw [hNext]
  generalize (if .monitor ∈ s.client.errorListeners then s.noteError message else s).offError = noted at hNoted
  have hKept : Ledger (log ++ [.error message]) noted.seen :=
    State.seen_of_relistens hNoted ▸ hLedger.extend (fun _ => Event.noConfusion) (fun _ _ => Event.noConfusion)
  obtain ⟨monitor, errorListeners, closeListener, rfl⟩ := hNoted
  obtain ⟨hSettles, hFree⟩ := settles_handleError options (s := { s with monitor := monitor, client := _ }) h.settled transport message
  refine ⟨_, .of_settles hSettles h.results h.phase h.pending ?_ (justified_failureOf hKept _ transport message)⟩
  intro _ hUsable
  obtain ⟨hBefore, hLost⟩ := hFree hUsable
  exact absurd ((h.socket hBefore).symm.trans hLost) Bool.noConfusion

theorem emitClose : Opening options (log ++ [.close]) s.emitClose transport := by
  have hClosed : Opening options (log ++ [.close]) { s with hasClosed := true } transport :=
    { h with undecided := undecided_append h.undecided id }
  unfold State.emitClose
  dsimp only
  split
  · have hAttempt := attempt_noteClose hClosed.attempt
    obtain ⟨monitor, errorListeners, closeListener, hNext⟩ := Relistens.noteClose { s with hasClosed := true }
    rw [hNext] at hAttempt ⊢
    exact { hClosed with attempt := hAttempt }
  · exact hClosed

theorem step (hLedger : Ledger log s.seen) (hAllowed : Allowed options s event) : Progress options (log ++ [event]) (s.step options event) := by
  cases event with
  | prepared _ => exact absurd (h.pending.symm.trans hAllowed) Bool.false_ne_true
  | preparationFailed _ => exact absurd (h.pending.symm.trans hAllowed) Bool.false_ne_true
  | resume connect =>
    obtain ⟨_, hPhase⟩ := hAllowed
    exact Phase.noConfusion (h.phase.symm.trans hPhase)
  | abort reason => exact .inr (.inr (.inr (h.abort reason hAllowed)))
  | hostKey hashedKey =>
    refine .inr (.inr (.inl ⟨transport, ?_⟩))
    exact { h with undecided := undecided_append h.undecided id }
  | ready => exact .inr (.inr (.inr (h.emitReady hLedger hAllowed.2)))
  | error message => exact .inr (.inr (.inr (h.emitError hLedger message)))
  | close => exact .inr (.inr (.inl ⟨transport, h.emitClose⟩))
  | release => exact (h.not_owned hAllowed).elim
  | releaseAfterClose => exact (h.not_owned hAllowed).elim

end Opening

namespace Consistent

theorem step (h : Consistent options log s) (hAllowed : Allowed options s event) :
    Consistent options (log ++ [event]) (s.step options event) where
  ledger := by
    rw [s.seen_step options event]
    refine h.ledger.step options ?_
    rintro reason rfl
    exact hAllowed
  guarded := h.guarded.step options event
  progress := by
    obtain hPreparing | ⟨outcome, hResuming⟩ | ⟨transport, hOpening⟩ | ⟨result, hAnswered⟩ := h.progress
    · exact hPreparing.step hAllowed
    · exact hResuming.step h.ledger hAllowed
    · exact hOpening.step h.ledger hAllowed
    · exact .inr (.inr (.inr ⟨result, hAnswered.step hAllowed⟩))

theorem returned (config : ConnectConfig) (abortReason : Option AbortReason) (message : Message) :
    Consistent options [] (returned options config abortReason message) where
  ledger := .start abortReason
  guarded := .unmonitored rfl (fun _ => Phase.noConfusion)
  progress := .inr (.inr (.inr ⟨.failed message none, {
    place := .inl rfl
    pending := fun hStill => absurd hStill Bool.false_ne_true
    listener := rfl
    results := rfl
    stopped := fun _ => .inl rfl
    socket := fun _ => .inl rfl
    justified := trivial }⟩))

theorem preparing (config : ConnectConfig) : Consistent options [] (preparing options config) where
  ledger := .start none
  guarded := .unmonitored rfl (fun _ => Phase.noConfusion)
  progress := .inl {
    results := rfl
    settled := rfl
    phase := rfl
    pending := rfl
    waits := rfl
    listener := rfl
    abortReason := rfl
    socket := rfl
    fresh := rfl
    undecided := fun _ hMem => absurd hMem List.not_mem_nil }

theorem start (decryptSensitiveValue : String → Option String) (server : SshServer) (keychain : CredentialMaterial)
    (abortReason : Option AbortReason) : Consistent options [] (openSshClient decryptSensitiveValue options server keychain abortReason) := by
  unfold openSshClient
  split
  · exact returned _ _ _
  · split
    · exact returned _ _ _
    · exact preparing _

theorem handsOff (h : Consistent options log s) : HandsOff options log s := by
  have hHeard : ∀ transport, s.phase = .opening transport → .close ∈ log ∨ .release ∈ log ∨ s.client.errorListeners ≠ [] :=
    fun _ hPhase => h.guarded.heard h.ledger hPhase
  have hSilent (hEmpty : s.results = [])
      (hSettles : (∃ event ∈ log, event.Decides) → ∃ outcome, s.phase = .resuming outcome) : HandsOff options log s := by
    have hNone : ∀ result, result ∉ s.results := by
      rw [hEmpty]
      exact fun _ => List.not_mem_nil
    exact {
      once := by
        rw [hEmpty]
        exact Nat.zero_le 1
      settles := fun hDecided => .inr (hSettles hDecided)
      ready := fun _ _ hMem => absurd hMem (hNone _)
      untrusted := fun _ _ _ hMem => absurd hMem (hNone _)
      stopped := fun _ hMem => absurd hMem (hNone _)
      socket := fun _ _ hMem => absurd hMem (hNone _)
      heard := hHeard }
  obtain hPreparing | ⟨outcome, hResuming⟩ | ⟨transport, hOpening⟩ | ⟨result, hAnswered⟩ := h.progress
  · refine hSilent hPreparing.results ?_
    rintro ⟨event, hMem, hDecides⟩
    exact absurd hDecides (hPreparing.undecided event hMem)
  · exact hSilent hResuming.results fun _ => ⟨outcome, hResuming.phase⟩
  · refine hSilent hOpening.results ?_
    rintro ⟨event, hMem, hDecides⟩
    exact absurd hDecides (hOpening.undecided event hMem)
  · have hOnly : ∀ other ∈ s.results, other = result := by
      rw [hAnswered.results]
      exact fun _ => List.mem_singleton.mp
    exact {
      once := by
        rw [hAnswered.results]
        exact Nat.le_refl 1
      settles := fun _ => .inl (hAnswered.results ▸ List.cons_ne_nil result [])
      ready := by
        intro secret metadata hMem
        exact (hOnly _ hMem ▸ hAnswered.justified : Justified options log s (.ready secret metadata)).2
      untrusted := by
        intro fingerprint message metadata hMem
        exact (hOnly _ hMem ▸ hAnswered.justified : Justified options log s (.hostUntrusted fingerprint message metadata))
      stopped := by
        intro other hMem
        exact hOnly other hMem ▸ hAnswered.stopped
      socket := by
        intro hTaken other hMem hFailed
        obtain hUnusable | ⟨message, hThrew⟩ := hAnswered.socket (hOnly other hMem ▸ hFailed)
        · exact hUnusable
        · exact absurd hThrew (hTaken message)
      heard := hHeard }

end Consistent

/-- There is one result at most, and it has come, or comes in the call's next turn, once the proxy has failed, or an abort, a
ready client, an error or a throw of `connect` has come. A client is ready only with no abort before, and with trusted keys
where they are checked; a host is untrusted only for a key it has shown. In any other case the client that was connected is
stopped, and the proxy's socket with it unless `connect` threw before it took the socket. Until the client closes or the caller
releases it, an error of it has a listener. -/
theorem connectHandOff (options : Options) (decryptSensitiveValue : String → Option String) (server : SshServer)
    (keychain : CredentialMaterial) {log : List Event} {s : State} (h : (call options decryptSensitiveValue server keychain).ReachableWhile
      (fun point event => Allowed options point.2 event) (log, s)) : HandsOff options log s := by
  have hConsistent : Consistent options (log, s).1 (log, s).2 := by
    refine Machine.ReachableWhile.invariant (P := fun point => Consistent options point.1 point.2) ?_ ?_ h
    · rintro ⟨_, _⟩ ⟨rfl, abortReason, rfl⟩
      exact .start decryptSensitiveValue server keychain abortReason
    · intro point event hPoint hAllowed
      exact hPoint.step hAllowed
  exact hConsistent.handsOff

theorem plainHost_named : "s1" ≠ "" := by decide

theorem plainKeychain_named : "k1" ≠ "" := by decide

def plainHost : SshServer where
  id := ⟨"s1", plainHost_named⟩
  name := "web"
  iconKey := "Server"
  colorKey := "blue"
  host := "10.0.0.5"
  port := 22
  username := "root"
  strictHostKey := true
  enableSshCompression := false
  remoteEnhancementsEnabled := true
  disableCharacterWidthCompatibilityMode := false
  terminalClipboardAccess := .off
  proxyMode := .default
  proxyUrl := none
  keychainId := ⟨"k1", plainKeychain_named⟩
  note := none
  folderId := none
  tagIds := []
  createdAt := 1
  updatedAt := 1

/-- The password `secret`, encrypted with a key and a nonce of zeros. -/
def storedPassword : String := "000000000000000000000000:bf22204fce9cc1eb393a162e7d3657b1:bdc2234f2814"

def plainKeychain : CredentialMaterial := ⟨.password, some storedPassword, none, none⟩

def openStored (input : String) : Option String := if input = storedPassword then some "secret" else none

def knownHost : Options := ⟨45, none, true, true, ["known"]⟩

def plainCall : Machine (List Event × State) Event := call knownHost openStored plainHost plainKeychain

def plainTransport : PreparedSshProxyTransport := ⟨true, 45000, ⟨.custom, .socks5⟩⟩

def plainStart : List Event × State := ([], openSshClient openStored knownHost plainHost plainKeychain none)

def openedLog : List Event := [.prepared plainTransport, .resume .returned, .hostKey "known", .ready, .error "reset"]

theorem connectHandOff_opened : HandsOff knownHost openedLog (plainCall.run plainStart openedLog).2 := by
  have hStart : plainCall.ReachableWhile (fun point event => Allowed knownHost point.2 event) plainStart := .start ⟨rfl, none, rfl⟩
  have hOpening := (hStart.step (e := Event.prepared plainTransport) rfl).step (e := Event.resume .returned) ⟨.ok plainTransport, rfl⟩
  have hReady := (hOpening.step (e := Event.hostKey "known") ⟨rfl, rfl⟩).step (e := Event.ready) ⟨rfl, by decide⟩
  exact connectHandOff knownHost openStored plainHost plainKeychain (hReady.step (e := Event.error "reset") rfl)

theorem not_stopped_of_preparationFailed :
    ¬ ∀ {log : List Event} {s : State}, plainCall.ReachableWhile (fun point event => Allowed knownHost point.2 event) (log, s) →
      ∀ result ∈ s.results, result.isReady = false → s.client.ended = true ∨ s.client.destroyed = true := by
  intro hStopped
  have hStart : plainCall.ReachableWhile (fun point event => Allowed knownHost point.2 event) plainStart := .start ⟨rfl, none, rfl⟩
  have hRun := (hStart.step (e := Event.preparationFailed (.error "refused")) rfl).step (e := Event.resume .returned)
    ⟨.error (.error "refused"), rfl⟩
  have hFails := hStopped hRun (.failed (.text "refused") none) List.mem_cons_self rfl
  exact absurd hFails (by decide)

end SshConnect
