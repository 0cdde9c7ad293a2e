import Cosmosh.Library.BoundedQueue
import Cosmosh.Terminal.RemoteHelperGate

/-! # The queue of a detached stream

While no socket is open the frames of a session wait in a queue that is bounded in frames and in bytes.
-/

namespace Terminal

open Library BoundedQueue

abbrev Frame := StreamFrame RemoteShellEventMessage

def Observation.frame? : Observation → Option Frame
  | .sent _ (.output data) => some (.output data)
  | .sent _ (.remoteShellEvent event) => some (.event event)
  | _ => none

section

variable (stringify : RemoteShellEventMessage → Output)

namespace SshLiveSession

variable (session : SshLiveSession)

def delivered : List Frame := session.trace.filterMap Observation.frame?

def passesGate (event : RemoteShellEventMessage) : Bool :=
  session.remoteEnhancementsRuntimeState ≠ .disabled &&
    !(session.remoteEnhancementsRuntimeContract.all fun contract => !remoteShellEventMatchesContract event contract) &&
      (session.remoteEnhancementsRuntimeState = .active || event.event = .integrationReady)

def arrivals : Frame → List Frame
  | .output data => if session.disposed then [] else [.output data]
  | .event event => if session.disposed || !session.passesGate event then [] else [.event event]

def socketClosing : SshLiveSession := { session with socket := session.socket.map fun socket => { socket with isOpen := false } }

def flushFramesUntil (session : SshLiveSession) : Nat → List Frame → SshLiveSession
  | _, [] => flushFrames stringify session []
  | 0, frame :: frames => flushFrames stringify session.socketClosing (frame :: frames)
  | n + 1, frame :: frames =>
    match session.openSocket with
    | none => { session with pendingStreamFrames := frame :: frames }
    | some socket =>
      let session := { session with
        pendingStreamFrameBytes := session.pendingStreamFrameBytes - getPendingStreamFrameBytes stringify frame }
      flushFramesUntil (session.sendQueuedFrame socket frame) n frames

def announce : SshLiveSession :=
  let session := session.sendServerMessage stringify .ready
  let session := sendBootstrapStatuses stringify session session.pendingRemoteBootstrapStatuses
  session.sendRemoteEnhancementRuntimeStatus stringify

/-- `onSessionAttached` with a socket that may close in the middle of the flush. -/
def attachUntil (socket : Nat) (closesAfter : Option Nat) : SshLiveSession :=
  match closesAfter with
  | none => { session with socket := some ⟨socket, true⟩ }.onSessionAttached stringify
  | some n =>
    let session := { session with socket := some ⟨socket, true⟩ }.announce stringify
    (flushFramesUntil stringify session n session.pendingStreamFrames).socketClosing

end SshLiveSession

/-- `arrived` is the stream so far. -/
structure StreamRun where
  session : SshLiveSession
  arrived : List Frame

inductive StreamEvent
  | frame (frame : Frame)
  | attach (socket : Nat) (closesAfter : Option Nat)
  | socketClosing
  | handshakeTimeout
  | dispose (reason : String)

def stepStream (run : StreamRun) : StreamEvent → StreamRun
  | .frame frame =>
    ⟨run.session.handleFrame stringify frame, run.arrived ++ run.session.arrivals frame⟩
  | .attach socket closesAfter =>
    if run.session.disposed then run else { run with session := run.session.attachUntil stringify socket closesAfter }
  | .socketClosing => { run with session := run.session.socketClosing }
  | .handshakeTimeout =>
    if run.session.remoteEnhancementsHandshakeTimeout then
      { run with session := run.session.handleHandshakeTimeout stringify }
    else run
  | .dispose reason => { run with session := run.session.disposeSession stringify reason }

def detachedStream : Transition.Machine StreamRun StreamEvent where
  initial run := ∃ statuses dropCount result, run = ⟨createSession statuses dropCount result, []⟩
  step := stepStream stringify

def bytesOf (frames : List Frame) : Nat := (frames.map (getPendingStreamFrameBytes stringify)).sum

def ExceedsBounds (frames : List Frame) : Prop :=
  SSH_PENDING_STREAM_FRAME_MAX_COUNT < frames.length ∨ SSH_PENDING_STREAM_FRAME_MAX_BYTES < bytesOf stringify frames

structure QueueInOrder (run : StreamRun) : Prop where
  ordered : (run.session.delivered ++ run.session.pendingStreamFrames).Sublist run.arrived
  counted : run.session.pendingStreamFrameBytes = bytesOf stringify run.session.pendingStreamFrames
  fewFrames : run.session.pendingStreamFrames.length ≤ SSH_PENDING_STREAM_FRAME_MAX_COUNT
  fewBytes : run.session.pendingStreamFrameBytes ≤ SSH_PENDING_STREAM_FRAME_MAX_BYTES

def LosesOldest (before after : StreamRun) : Prop :=
  ∃ arrived lost sent,
    after.arrived = before.arrived ++ arrived ∧ after.session.delivered = before.session.delivered ++ sent ∧
      Passes (ExceedsBounds stringify) before.session.pendingStreamFrames arrived lost sent
        after.session.pendingStreamFrames

def isOutput : Frame → Bool
  | .output _ => true
  | .event _ => false

structure ClosesGate (before after : StreamRun) : Prop where
  wasOpen : before.session.remoteEnhancementsRuntimeState ≠ .disabled
  closed : after.session.remoteEnhancementsRuntimeState = .disabled
  arrived : after.arrived = before.arrived
  delivered : after.session.delivered = before.session.delivered
  outputs : after.session.pendingStreamFrames = before.session.pendingStreamFrames.filter isOutput

structure StreamView where
  queue : List Frame
  bytes : Nat
  delivered : List Frame
  openSocket : Option Nat
  state : RemoteEnhancementRuntimeState
  disposed : Bool

def SshLiveSession.view (session : SshLiveSession) : StreamView where
  queue := session.pendingStreamFrames
  bytes := session.pendingStreamFrameBytes
  delivered := session.delivered
  openSocket := session.openSocket
  state := session.remoteEnhancementsRuntimeState
  disposed := session.disposed

structure Flowing (view : StreamView) : Prop where
  counted : view.bytes = bytesOf stringify view.queue
  bounded : ¬ExceedsBounds stringify view.queue
  idle : view.openSocket.isSome = true → view.queue = []
  gated : view.state ≠ .active → ∀ frame ∈ view.queue, isOutput frame = true

structure Moves (before : StreamView) (arrived : List Frame) (after : StreamView) : Prop where
  flowing : Flowing stringify after
  passes : ∃ lost sent, after.delivered = before.delivered ++ sent ∧
    Passes (ExceedsBounds stringify) before.queue arrived lost sent after.queue

end

variable {stringify : RemoteShellEventMessage → Output}

theorem Flowing.stays {view : StreamView} (h : Flowing stringify view) : Moves stringify view [] view :=
  ⟨h, [], [], (List.append_nil _).symm, .idle⟩

theorem bytesOf_append (first second : List Frame) :
    bytesOf stringify (first ++ second) = bytesOf stringify first + bytesOf stringify second := by
  simp [bytesOf]

theorem not_exceedsBounds_of_append {first second : List Frame} (h : ¬ExceedsBounds stringify (first ++ second)) :
    ¬ExceedsBounds stringify second := by
  unfold ExceedsBounds at h ⊢
  rw [bytesOf_append, List.length_append] at h
  omega

variable (stringify) in
theorem bytesOf_filter_le (p : Frame → Bool) (frames : List Frame) :
    bytesOf stringify (frames.filter p) ≤ bytesOf stringify frames := by
  induction frames with
  | nil => simp
  | cons frame frames ih =>
    simp only [bytesOf, List.filter_cons, List.map_cons, List.sum_cons] at ih ⊢
    split
    · simp only [List.map_cons, List.sum_cons]
      omega
    · omega

variable {frames : List Frame}

theorem not_exceedsBounds_filter (p : Frame → Bool) (h : ¬ExceedsBounds stringify frames) :
    ¬ExceedsBounds stringify (frames.filter p) := by
  have hBytes := bytesOf_filter_le stringify p frames
  have hLength := List.length_filter_le p frames
  unfold ExceedsBounds at h ⊢
  omega

variable (stringify) in
theorem dropOldestFrames_spec (frames : List Frame) (dropCount : Nat) :
    ∃ lost kept, frames = lost ++ kept ∧ (∀ n < lost.length, ExceedsBounds stringify (frames.drop n)) ∧
      ¬ExceedsBounds stringify kept ∧
      dropOldestFrames stringify frames (bytesOf stringify frames) dropCount =
        (kept, bytesOf stringify kept, dropCount + lost.length) := by
  induction frames generalizing dropCount with
  | nil => exact ⟨[], [], rfl, nofun, by simp [ExceedsBounds, bytesOf], rfl⟩
  | cons frame frames ih =>
    rw [dropOldestFrames]
    split
    · next hExceeds =>
      obtain ⟨lost, kept, rfl, hNeeded, hBounded, hDrop⟩ := ih (dropCount + 1)
      refine ⟨frame :: lost, kept, rfl, ?_, hBounded, ?_⟩
      · intro n hn
        cases n with
        | zero => exact hExceeds
        | succ n => exact hNeeded n (Nat.lt_of_succ_lt_succ hn)
      · have hBytes : bytesOf stringify (frame :: (lost ++ kept)) - getPendingStreamFrameBytes stringify frame =
            bytesOf stringify (lost ++ kept) := by simp [bytesOf]
        rw [hBytes, hDrop, List.length_cons, Nat.add_right_comm, Nat.add_assoc]
    · next hBounded => exact ⟨[], frame :: frames, rfl, nofun, hBounded, rfl⟩

def ServerMessage.IsControl : ServerMessage → Prop
  | .output _ => False
  | .remoteShellEvent _ => False
  | _ => True

namespace SshLiveSession

variable {session : SshLiveSession}

theorem view_observe {observation : Observation} (hSilent : observation.frame? = none) :
    (session.observe observation).view = session.view := by
  simp only [view, observe, delivered, List.filterMap_append, List.filterMap_cons, hSilent, List.filterMap_nil,
    List.append_nil]
  rfl

theorem view_sendControl {payload : ServerMessage} (hControl : payload.IsControl) :
    (session.sendServerMessage stringify payload).view = session.view := by
  unfold sendServerMessage
  split
  · rfl
  · cases hOpen : session.openSocket with
    | none => cases payload <;> first | exact hControl.elim | rfl
    | some socket =>
      apply view_observe
      cases payload <;> first | exact hControl.elim | rfl

theorem view_sendStatus : (session.sendRemoteEnhancementRuntimeStatus stringify).view = session.view := view_sendControl trivial

theorem view_sendBootstrapStatuses (statuses : List RemoteBootstrapStatus) :
    (sendBootstrapStatuses stringify session statuses).view = session.view := by
  induction statuses generalizing session with
  | nil => rfl
  | cons status statuses ih => exact ih.trans (view_sendControl trivial)

theorem view_announce : (session.announce stringify).view = session.view := by
  calc (session.announce stringify).view
      = (sendBootstrapStatuses stringify (session.sendServerMessage stringify .ready)
          (session.sendServerMessage stringify .ready).pendingRemoteBootstrapStatuses).view := view_sendStatus
    _ = (session.sendServerMessage stringify .ready).view := view_sendBootstrapStatuses _
    _ = session.view := view_sendControl trivial

theorem view_applyRemoteShellEventState (event : RemoteShellEvent) :
    (session.applyRemoteShellEventState event).view = session.view := by
  cases event with
  | cwd cwd =>
    simp only [applyRemoteShellEventState]
    split <;> rfl
  | commandStart command commandId =>
    simp only [applyRemoteShellEventState]
    split <;> rfl
  | _ => rfl

variable {frame : Frame}

theorem moves_sendFrame (h : Flowing stringify session.view) (hLive : session.disposed = false) {payload : ServerMessage}
    (hPayload : (Observation.sent 0 payload).frame? = some frame)
    (hGate : isOutput frame = true ∨ session.remoteEnhancementsRuntimeState = .active) :
    Moves stringify session.view [frame] (session.sendServerMessage stringify payload).view := by
  have hCounted : session.pendingStreamFrameBytes = bytesOf stringify session.pendingStreamFrames := h.counted
  cases hOpen : session.openSocket with
  | some socket =>
    have hEmpty : session.pendingStreamFrames = [] := h.idle (by rw [view, hOpen]; rfl)
    have hSend : session.sendServerMessage stringify payload = session.observe (.sent socket payload) := by
      simp [sendServerMessage, hLive, hOpen]
    have hFrame : (Observation.sent socket payload).frame? = some frame := by
      cases payload <;> exact hPayload
    rw [hSend]
    refine ⟨⟨h.counted, h.bounded, h.idle, h.gated⟩, [], [frame], ?_, ?_⟩
    · simp [view, delivered, observe, hFrame]
    · simp only [view, observe, hEmpty]
      exact .through
  | none =>
    have hSend : session.sendServerMessage stringify payload = session.bufferPendingStreamFrame stringify frame := by
      cases payload <;> simp_all [sendServerMessage, Observation.frame?]
    obtain ⟨lost, kept, hSplit, hNeeded, hBounded, hDrop⟩ :=
      dropOldestFrames_spec stringify (session.pendingStreamFrames ++ [frame])
        session.pendingStreamFrameDropCount
    have hBytes : session.pendingStreamFrameBytes + getPendingStreamFrameBytes stringify frame =
        bytesOf stringify (session.pendingStreamFrames ++ [frame]) := by
      rw [bytesOf_append, hCounted]
      simp [bytesOf]
    rw [hSend, bufferPendingStreamFrame, hBytes, hDrop]
    refine ⟨⟨rfl, hBounded, ?_, ?_⟩, lost, [], (List.append_nil _).symm, hSplit, hNeeded⟩
    · intro hSome
      have hNone : session.openSocket.isSome = true := hSome
      rw [hOpen] at hNone
      cases hNone
    · intro hState other hOther
      obtain hOld | hNew := List.mem_append.mp (hSplit ▸ List.mem_append_right lost hOther :
        other ∈ session.pendingStreamFrames ++ [frame])
      · exact h.gated hState other hOld
      · rw [List.mem_singleton.mp hNew]
        exact hGate.resolve_right hState

theorem moves_acceptRemoteShellEvent (h : Flowing stringify session.view) (hLive : session.disposed = false)
    (hActive : session.remoteEnhancementsRuntimeState = .active) (event : RemoteShellEventMessage) :
    Moves stringify session.view [.event event] (session.acceptRemoteShellEvent stringify event).view := by
  have hView : ((session.observe (.accepted event)).applyRemoteShellEventState event.event).view = session.view :=
    (view_applyRemoteShellEventState event.event).trans (view_observe rfl)
  have hDisposed := congrArg StreamView.disposed hView
  have hState := congrArg StreamView.state hView
  rw [← hView] at h ⊢
  exact moves_sendFrame h (hDisposed.trans hLive) rfl (.inr (hState.trans hActive))

variable (stringify) in
structure Discards (before after : StreamView) : Prop where
  flowing : Flowing stringify after
  wasOpen : before.state ≠ .disabled
  closed : after.state = .disabled
  delivered : after.delivered = before.delivered
  outputs : after.queue = before.queue.filter isOutput

theorem discards_disable (h : Flowing stringify session.view)
    (hOpen : session.remoteEnhancementsRuntimeState ≠ .disabled) (code message : String) :
    Discards stringify session.view (session.disableRemoteEnhancementsRuntime stringify code message).view := by
  let cleared := { session.clearRemoteEnhancementHandshakeTimeout with
    remoteEnhancementsRuntimeState := .disabled
    remoteEnhancementsRuntimeCode := some code
    remoteEnhancementsRuntimeMessage := some message }.discardPendingRemoteShellEventFrames stringify
  have hFilter : cleared.pendingStreamFrames = session.pendingStreamFrames.filter isOutput :=
    List.filter_congr fun frame _ => by cases frame <;> rfl
  unfold disableRemoteEnhancementsRuntime
  simp only [view_sendStatus]
  constructor
  case flowing =>
    constructor
    case counted => rfl
    case bounded =>
      show ¬ExceedsBounds stringify cleared.pendingStreamFrames
      rw [hFilter]
      exact not_exceedsBounds_filter isOutput h.bounded
    case idle =>
      intro hSome
      have hEmpty : session.pendingStreamFrames = [] := h.idle hSome
      rw [hEmpty] at hFilter
      exact hFilter
    case gated =>
      intro _ frame hFrame
      have hOutput : frame ∈ session.pendingStreamFrames.filter isOutput := hFilter ▸ hFrame
      exact (List.mem_filter.mp hOutput).2
  case wasOpen => exact hOpen
  case closed => rfl
  case delivered => rfl
  case outputs => exact hFilter

theorem arrivals_event_of_not_passesGate {event : RemoteShellEventMessage}
    (hPasses : session.passesGate event = false) : session.arrivals (.event event) = [] := by
  simp [arrivals, hPasses]

theorem arrivals_of_disposed (hDisposed : session.disposed = true) (frame : Frame) : session.arrivals frame = [] := by
  cases frame <;> simp [arrivals, hDisposed]

theorem view_accept_of_disposed (hDisposed : session.disposed = true) (event : RemoteShellEventMessage) :
    (session.acceptRemoteShellEvent stringify event).view = session.view := by
  have hView : ((session.observe (.accepted event)).applyRemoteShellEventState event.event).view = session.view :=
    (view_applyRemoteShellEventState event.event).trans (view_observe rfl)
  have hStill : ((session.observe (.accepted event)).applyRemoteShellEventState event.event).disposed = true :=
    (congrArg StreamView.disposed hView).trans hDisposed
  unfold acceptRemoteShellEvent sendServerMessage
  rw [if_pos hStill]
  exact hView

section

variable (h : Flowing stringify session.view)
include h

theorem moves_accept (hActive : session.remoteEnhancementsRuntimeState = .active) (event : RemoteShellEventMessage) :
    Moves stringify session.view (if session.disposed then [] else [.event event])
      (session.acceptRemoteShellEvent stringify event).view := by
  cases hDisposed : session.disposed with
  | true =>
    rw [view_accept_of_disposed hDisposed]
    exact h.stays
  | false => exact moves_acceptRemoteShellEvent h hDisposed hActive event

theorem moves_activate (event : RemoteShellEventMessage) :
    Moves stringify session.view (if session.disposed then [] else [.event event])
      ((({ session.clearRemoteEnhancementHandshakeTimeout with
        remoteEnhancementsRuntimeState := .active
        remoteEnhancementsRuntimeCode := none
        remoteEnhancementsRuntimeMessage := none } : SshLiveSession).sendRemoteEnhancementRuntimeStatus
          stringify).acceptRemoteShellEvent stringify event).view := by
  let opened : SshLiveSession := { session.clearRemoteEnhancementHandshakeTimeout with
    remoteEnhancementsRuntimeState := .active
    remoteEnhancementsRuntimeCode := none
    remoteEnhancementsRuntimeMessage := none }
  have hView : (opened.sendRemoteEnhancementRuntimeStatus stringify).view = opened.view := view_sendStatus
  have hFlowing : Flowing stringify (opened.sendRemoteEnhancementRuntimeStatus stringify).view := by
    rw [hView]
    exact ⟨h.counted, h.bounded, h.idle, fun hClosed => absurd rfl hClosed⟩
  have hActive : (opened.sendRemoteEnhancementRuntimeStatus stringify).remoteEnhancementsRuntimeState = .active :=
    congrArg StreamView.state hView
  have hDisposed : (opened.sendRemoteEnhancementRuntimeStatus stringify).disposed = session.disposed := congrArg StreamView.disposed hView
  have hMoves := moves_accept hFlowing hActive event
  rw [hDisposed, hView] at hMoves
  exact ⟨hMoves.flowing, hMoves.passes⟩

theorem handleRemoteShellEvent_spec (event : RemoteShellEventMessage) :
    Moves stringify session.view (session.arrivals (.event event)) (session.handleRemoteShellEvent stringify event).view ∨
      session.arrivals (.event event) = [] ∧
        Discards stringify session.view (session.handleRemoteShellEvent stringify event).view := by
  have hArrives : session.passesGate event = true →
      session.arrivals (.event event) = if session.disposed then [] else [.event event] := by
    intro hPasses
    simp [arrivals, hPasses]
  unfold handleRemoteShellEvent
  split
  · next hDisabled =>
    left
    rw [arrivals_event_of_not_passesGate (by simp [passesGate, hDisabled])]
    exact h.stays
  · next hEnabled =>
    split
    · next hMismatch =>
      right
      exact ⟨arrivals_event_of_not_passesGate (by simp [passesGate, hMismatch]), discards_disable h hEnabled _ _⟩
    · next hMatches =>
      left
      split
      · next hPending =>
        split
        · next hReady =>
          rw [hArrives (by simp [passesGate, hEnabled, hMatches, hReady])]
          exact moves_activate h event
        · next hEarly =>
          rw [arrivals_event_of_not_passesGate (by simp [passesGate, hPending, hEarly])]
          exact h.stays
      · next hNotPending =>
        have hActive : session.remoteEnhancementsRuntimeState = .active := by
          cases hState : session.remoteEnhancementsRuntimeState with
          | pending => exact absurd hState hNotPending
          | active => rfl
          | disabled => exact absurd hState hEnabled
        rw [hArrives (by simp [passesGate, hMatches, hActive])]
        exact moves_accept h hActive event

theorem handleFrame_spec (frame : Frame) :
    Moves stringify session.view (session.arrivals frame) (session.handleFrame stringify frame).view ∨
      session.arrivals frame = [] ∧ Discards stringify session.view (session.handleFrame stringify frame).view := by
  cases frame with
  | event event => exact handleRemoteShellEvent_spec h event
  | output data =>
    left
    cases hDisposed : session.disposed with
    | true =>
      have hSend : session.sendServerMessage stringify (.output data) = session := by
        simp [sendServerMessage, hDisposed]
      rw [arrivals_of_disposed hDisposed, handleFrame, hSend]
      exact h.stays
    | false =>
      have hArrives : session.arrivals (.output data) = [.output data] := by simp [arrivals, hDisposed]
      rw [hArrives]
      exact moves_sendFrame h hDisposed rfl (.inl rfl)

end

variable (stringify) in
structure Flushes (session : SshLiveSession) (frames : List Frame) (flushed : SshLiveSession) : Prop where
  sent : ∃ sent, flushed.delivered = session.delivered ++ sent ∧ frames = sent ++ flushed.pendingStreamFrames
  counted : flushed.pendingStreamFrameBytes = bytesOf stringify flushed.pendingStreamFrames
  idle : flushed.openSocket.isSome = true → flushed.pendingStreamFrames = []
  state : flushed.remoteEnhancementsRuntimeState = session.remoteEnhancementsRuntimeState

theorem flushes_stop (hBytes : session.pendingStreamFrameBytes = bytesOf stringify frames)
    (hClosed : session.openSocket = none) :
    Flushes stringify session frames { session with pendingStreamFrames := frames } where
  sent := ⟨[], (List.append_nil _).symm, rfl⟩
  counted := hBytes
  idle hSome := by
    have hNone : session.openSocket.isSome = true := hSome
    rw [hClosed] at hNone
    cases hNone
  state := rfl

theorem flushes_nil (hBytes : session.pendingStreamFrameBytes = bytesOf stringify []) :
    Flushes stringify session [] (flushFrames stringify session []) where
  sent := ⟨[], (List.append_nil _).symm, rfl⟩
  counted := hBytes
  idle _ := rfl
  state := rfl

theorem delivered_sendQueuedFrame (hLive : session.disposed = false) (socket : Nat)
    (hGate : isOutput frame = true ∨ session.remoteEnhancementsRuntimeState = .active) :
    (session.sendQueuedFrame socket frame).delivered = session.delivered ++ [frame] := by
  cases frame with
  | output data => simp [sendQueuedFrame, hLive, delivered, observe, Observation.frame?]
  | event event =>
    have hActive := hGate.resolve_left Bool.false_ne_true
    simp [sendQueuedFrame, hLive, hActive, delivered, observe, Observation.frame?]

theorem sendQueuedFrame_same (session : SshLiveSession) (socket : Nat) (frame : Frame) :
    let sent := session.sendQueuedFrame socket frame
    sent.pendingStreamFrameBytes = session.pendingStreamFrameBytes ∧ sent.disposed = session.disposed ∧
      sent.remoteEnhancementsRuntimeState = session.remoteEnhancementsRuntimeState ∧
      sent.openSocket = session.openSocket := by
  unfold sendQueuedFrame
  simp only
  split
  · exact ⟨rfl, rfl, rfl, rfl⟩
  · cases frame with
    | output data => exact ⟨rfl, rfl, rfl, rfl⟩
    | event event =>
      simp only
      split
      · exact ⟨rfl, rfl, rfl, rfl⟩
      · exact ⟨rfl, rfl, rfl, rfl⟩

variable (stringify) in
structure Flushable (session : SshLiveSession) (frames : List Frame) : Prop where
  live : session.disposed = false
  counted : session.pendingStreamFrameBytes = bytesOf stringify frames
  gated : session.remoteEnhancementsRuntimeState ≠ .active → ∀ frame ∈ frames, isOutput frame = true

variable (stringify) in
def sendNext (session : SshLiveSession) (socket : Nat) (frame : Frame) : SshLiveSession :=
  { session with
    pendingStreamFrameBytes := session.pendingStreamFrameBytes - getPendingStreamFrameBytes stringify frame
    }.sendQueuedFrame socket frame

theorem flushable_sendNext (h : Flushable stringify session (frame :: frames)) (socket : Nat) :
    Flushable stringify (session.sendNext stringify socket frame) frames := by
  obtain ⟨hBytes, hDisposed, hState, -⟩ := sendQueuedFrame_same { session with
    pendingStreamFrameBytes := session.pendingStreamFrameBytes - getPendingStreamFrameBytes stringify frame } socket frame
  constructor
  case live => exact hDisposed.trans h.live
  case counted =>
    have hCounted := h.counted
    simp only [bytesOf, List.map_cons, List.sum_cons] at hCounted
    show (sendQueuedFrame _ socket frame).pendingStreamFrameBytes = _
    rw [hBytes, bytesOf, hCounted]
    exact Nat.add_sub_cancel_left _ _
  case gated =>
    intro hClosed other hOther
    have hBefore : session.remoteEnhancementsRuntimeState ≠ .active := by
      intro hActive
      exact hClosed (hState.trans hActive)
    exact h.gated hBefore other (List.mem_cons_of_mem frame hOther)

theorem flushes_next (h : Flushable stringify session (frame :: frames)) {socket : Nat} {flushed : SshLiveSession}
    (hRest : Flushes stringify (session.sendNext stringify socket frame) frames flushed) :
    Flushes stringify session (frame :: frames) flushed := by
  obtain ⟨-, -, hState, -⟩ := sendQueuedFrame_same { session with
    pendingStreamFrameBytes := session.pendingStreamFrameBytes - getPendingStreamFrameBytes stringify frame } socket frame
  have hGate : isOutput frame = true ∨ session.remoteEnhancementsRuntimeState = .active := by
    by_cases hActive : session.remoteEnhancementsRuntimeState = .active
    · exact .inr hActive
    · exact .inl (h.gated hActive frame List.mem_cons_self)
  have hDelivered : (session.sendNext stringify socket frame).delivered = session.delivered ++ [frame] := by
    let paid : SshLiveSession := { session with
      pendingStreamFrameBytes := session.pendingStreamFrameBytes - getPendingStreamFrameBytes stringify frame }
    have hLive : paid.disposed = false := h.live
    exact delivered_sendQueuedFrame hLive socket hGate
  obtain ⟨sent, hSent, hSplit⟩ := hRest.sent
  refine ⟨⟨frame :: sent, ?_, ?_⟩, hRest.counted, hRest.idle, hRest.state.trans hState⟩
  · rw [hSent, hDelivered, List.append_assoc]
    rfl
  · rw [hSplit]
    rfl

theorem flushes_flushFrames (h : Flushable stringify session frames) :
    Flushes stringify session frames (flushFrames stringify session frames) := by
  induction frames generalizing session with
  | nil => exact flushes_nil h.counted
  | cons frame frames ih =>
    unfold flushFrames
    cases hOpen : session.openSocket with
    | none => exact flushes_stop h.counted hOpen
    | some socket => exact flushes_next h (ih (flushable_sendNext h socket))

theorem openSocket_socketClosing : session.socketClosing.openSocket = none := by
  unfold openSocket socketClosing
  cases session.socket <;> rfl

theorem flushes_flushFramesUntil (h : Flushable stringify session frames) (n : Nat) :
    Flushes stringify session frames (flushFramesUntil stringify session n frames) := by
  induction frames generalizing session n with
  | nil =>
    cases n <;> exact flushes_nil h.counted
  | cons frame frames ih =>
    cases n with
    | zero =>
      have hClosing : Flushable stringify session.socketClosing (frame :: frames) := ⟨h.live, h.counted, h.gated⟩
      have hFlushes := flushes_flushFrames hClosing
      exact ⟨hFlushes.sent, hFlushes.counted, hFlushes.idle, hFlushes.state⟩
    | succ n =>
      unfold flushFramesUntil
      cases hOpen : session.openSocket with
      | none => exact flushes_stop h.counted hOpen
      | some socket => exact flushes_next h (ih (flushable_sendNext h socket) n)

theorem moves_of_flushes (h : Flowing stringify session.view) {announced flushed : SshLiveSession}
    (hQueue : announced.pendingStreamFrames = session.pendingStreamFrames)
    (hDelivered : announced.delivered = session.delivered)
    (hState : announced.remoteEnhancementsRuntimeState = session.remoteEnhancementsRuntimeState)
    (hFlushes : Flushes stringify announced announced.pendingStreamFrames flushed) :
    Moves stringify session.view [] flushed.view := by
  obtain ⟨sent, hSent, hSplit⟩ := hFlushes.sent
  rw [hQueue] at hSplit
  refine ⟨⟨hFlushes.counted, ?_, hFlushes.idle, ?_⟩, [], sent, hSent.trans (by rw [hDelivered]; rfl), .take hSplit⟩
  · have hBounded : ¬ExceedsBounds stringify session.pendingStreamFrames := h.bounded
    rw [hSplit] at hBounded
    exact not_exceedsBounds_of_append hBounded
  · intro hClosed frame hFrame
    have hBefore : session.remoteEnhancementsRuntimeState ≠ .active := by
      intro hActive
      exact hClosed ((hFlushes.state.trans hState).trans hActive)
    have hQueued : frame ∈ session.pendingStreamFrames := by
      rw [hSplit]
      exact List.mem_append_right sent hFrame
    exact h.gated hBefore frame hQueued

theorem moves_attachUntil (h : Flowing stringify session.view) (hLive : session.disposed = false) (socket : Nat)
    (closesAfter : Option Nat) :
    Moves stringify session.view [] (session.attachUntil stringify socket closesAfter).view := by
  let attached : SshLiveSession := { session with socket := some ⟨socket, true⟩ }
  have hView : (attached.announce stringify).view = attached.view := view_announce
  have hQueue : (attached.announce stringify).pendingStreamFrames = session.pendingStreamFrames := congrArg StreamView.queue hView
  have hBytes : (attached.announce stringify).pendingStreamFrameBytes = session.pendingStreamFrameBytes := congrArg StreamView.bytes hView
  have hDelivered : (attached.announce stringify).delivered = session.delivered := congrArg StreamView.delivered hView
  have hState : (attached.announce stringify).remoteEnhancementsRuntimeState = session.remoteEnhancementsRuntimeState :=
    congrArg StreamView.state hView
  have hFlushable : Flushable stringify (attached.announce stringify)
      (attached.announce stringify).pendingStreamFrames := by
    constructor
    case live => exact (congrArg StreamView.disposed hView).trans hLive
    case counted =>
      rw [hBytes, hQueue]
      exact h.counted
    case gated =>
      rw [hState, hQueue]
      exact h.gated
  cases closesAfter with
  | none => exact moves_of_flushes h hQueue hDelivered hState (flushes_flushFrames hFlushable)
  | some n =>
    have hMoves := moves_of_flushes h hQueue hDelivered hState (flushes_flushFramesUntil hFlushable n)
    refine ⟨⟨hMoves.flowing.counted, hMoves.flowing.bounded, ?_, hMoves.flowing.gated⟩, hMoves.passes⟩
    intro hSome
    have hNone : (flushFramesUntil stringify (attached.announce stringify) n
      (attached.announce stringify).pendingStreamFrames).socketClosing.openSocket.isSome = true := hSome
    rw [openSocket_socketClosing] at hNone
    cases hNone

end SshLiveSession

variable (stringify) in
def StepsFrom (before after : StreamRun) : Prop :=
  (∃ arrived, after.arrived = before.arrived ++ arrived ∧
      Moves stringify before.session.view arrived after.session.view) ∨
    after.arrived = before.arrived ∧ SshLiveSession.Discards stringify before.session.view after.session.view

variable {before after : StreamRun}

theorem stepsFrom_same (h : Flowing stringify before.session.view) (hArrived : after.arrived = before.arrived)
    (hQueue : after.session.pendingStreamFrames = before.session.pendingStreamFrames)
    (hBytes : after.session.pendingStreamFrameBytes = before.session.pendingStreamFrameBytes)
    (hDelivered : after.session.delivered = before.session.delivered)
    (hState : after.session.remoteEnhancementsRuntimeState = before.session.remoteEnhancementsRuntimeState)
    (hSocket : after.session.openSocket.isSome = true → before.session.openSocket.isSome = true) :
    StepsFrom stringify before after := by
  refine .inl ⟨[], by rw [hArrived, List.append_nil], ⟨?_, [], [], by simp [SshLiveSession.view, hDelivered], ?_⟩⟩
  · constructor
    case counted =>
      show after.session.pendingStreamFrameBytes = bytesOf stringify after.session.pendingStreamFrames
      rw [hBytes, hQueue]
      exact h.counted
    case bounded =>
      show ¬ExceedsBounds stringify after.session.pendingStreamFrames
      rw [hQueue]
      exact h.bounded
    case idle => exact fun hSome => hQueue.trans (h.idle (hSocket hSome))
    case gated =>
      show after.session.remoteEnhancementsRuntimeState ≠ .active → ∀ frame ∈ after.session.pendingStreamFrames, _
      rw [hState, hQueue]
      exact h.gated
  · show Passes _ before.session.pendingStreamFrames [] [] [] after.session.pendingStreamFrames
    rw [hQueue]
    exact .idle

variable {run : StreamRun}

theorem stepStream_spec (h : Flowing stringify run.session.view) (event : StreamEvent) :
    StepsFrom stringify run (stepStream stringify run event) := by
  have hSame : StepsFrom stringify run run := stepsFrom_same h rfl rfl rfl rfl rfl id
  cases event with
  | frame frame =>
    obtain hMoves | ⟨hNone, hDiscards⟩ := SshLiveSession.handleFrame_spec h frame
    · exact .inl ⟨_, rfl, hMoves⟩
    · exact .inr ⟨by simp [stepStream, hNone], hDiscards⟩
  | attach socket closesAfter =>
    simp only [stepStream]
    split
    · exact hSame
    · next hLive =>
      exact .inl ⟨[], (List.append_nil _).symm,
        SshLiveSession.moves_attachUntil h (Bool.eq_false_iff.mpr hLive) socket closesAfter⟩
  | socketClosing =>
    have hClosed : (stepStream stringify run .socketClosing).session.openSocket.isSome = true →
        run.session.openSocket.isSome = true := by
      intro hSome
      simp only [stepStream, SshLiveSession.openSocket_socketClosing] at hSome
      cases hSome
    exact stepsFrom_same h rfl rfl rfl rfl rfl hClosed
  | handshakeTimeout =>
    simp only [stepStream]
    split
    · unfold SshLiveSession.handleHandshakeTimeout
      simp only
      split
      · exact stepsFrom_same h rfl rfl rfl rfl rfl id
      · next hPending =>
        have hState : run.session.remoteEnhancementsRuntimeState = .pending := by
          simp only [not_or, ne_eq, Decidable.not_not] at hPending
          exact hPending.2
        have hOpen : run.session.clearRemoteEnhancementHandshakeTimeout.remoteEnhancementsRuntimeState ≠ .disabled := by
          show run.session.remoteEnhancementsRuntimeState ≠ .disabled
          rw [hState]
          nofun
        have hFlowing : Flowing stringify run.session.clearRemoteEnhancementHandshakeTimeout.view := ⟨h.counted, h.bounded, h.idle, h.gated⟩
        have hDiscards := SshLiveSession.discards_disable hFlowing hOpen
        exact .inr ⟨rfl, hDiscards _ _⟩
    · exact hSame
  | dispose reason =>
    simp only [stepStream]
    unfold SshLiveSession.disposeSession
    split
    · exact hSame
    · let ended := run.session.clearRemoteEnhancementHandshakeTimeout.sendServerMessage stringify (.exit reason)
      have hExit : ended.view = run.session.clearRemoteEnhancementHandshakeTimeout.view := SshLiveSession.view_sendControl trivial
      have hView : ended.view = run.session.view := hExit
      exact stepsFrom_same h rfl (congrArg StreamView.queue hView) (congrArg StreamView.bytes hView)
        (congrArg StreamView.delivered hView) (congrArg StreamView.state hView) nofun

section

variable (h : StepsFrom stringify before after)
include h

theorem StepsFrom.flowing :
    Flowing stringify after.session.view := by
  obtain ⟨_, _, hMoves⟩ | ⟨_, hDiscards⟩ := h
  · exact hMoves.flowing
  · exact hDiscards.flowing

theorem StepsFrom.sublist (hBefore : (before.session.delivered ++ before.session.pendingStreamFrames).Sublist before.arrived) :
    (after.session.delivered ++ after.session.pendingStreamFrames).Sublist after.arrived := by
  obtain ⟨arrived, hArrived, -, lost, sent, hSent, hPasses⟩ | ⟨hArrived, hDiscards⟩ := h
  · have hSublist := hPasses.sublist hBefore
    have hDelivered : after.session.delivered = before.session.delivered ++ sent := hSent
    rw [hArrived, hDelivered]
    exact hSublist
  · have hDelivered : after.session.delivered = before.session.delivered := hDiscards.delivered
    have hOutputs : after.session.pendingStreamFrames = before.session.pendingStreamFrames.filter isOutput := hDiscards.outputs
    rw [hArrived, hDelivered, hOutputs]
    exact ((List.Sublist.refl _).append List.filter_sublist).trans hBefore

theorem StepsFrom.losesOldest_or_closesGate :
    LosesOldest stringify before after ∨ ClosesGate before after := by
  obtain ⟨arrived, hArrived, -, lost, sent, hSent, hPasses⟩ | ⟨hArrived, hDiscards⟩ := h
  · exact .inl ⟨arrived, lost, sent, hArrived, hSent, hPasses⟩
  · exact .inr ⟨hDiscards.wasOpen, hDiscards.closed, hArrived, hDiscards.delivered, hDiscards.outputs⟩

end

theorem flowing_of_reachable (hReachable : (detachedStream stringify).Reachable run) :
    Flowing stringify run.session.view ∧
      (run.session.delivered ++ run.session.pendingStreamFrames).Sublist run.arrived := by
  induction hReachable with
  | start hStart =>
    obtain ⟨statuses, dropCount, result, rfl⟩ := hStart
    exact ⟨⟨rfl, by simp [SshLiveSession.view, createSession, ExceedsBounds, bytesOf], nofun, nofun⟩, List.Sublist.refl _⟩
  | step _ event ih =>
    have hStep := stepStream_spec ih.1 event
    exact ⟨hStep.flowing, hStep.sublist ih.2⟩

theorem queueInOrder_of_reachable (hReachable : (detachedStream stringify).Reachable run) :
    QueueInOrder stringify run := by
  obtain ⟨hFlowing, hSublist⟩ := flowing_of_reachable hReachable
  have hCounted : run.session.pendingStreamFrameBytes = bytesOf stringify run.session.pendingStreamFrames := hFlowing.counted
  have hBounded : ¬ExceedsBounds stringify run.session.pendingStreamFrames := hFlowing.bounded
  rw [ExceedsBounds, not_or, ← hCounted] at hBounded
  exact ⟨hSublist, hCounted, Nat.not_lt.mp hBounded.1, Nat.not_lt.mp hBounded.2⟩

/-- Only a gate that closes takes other frames than the oldest. -/
theorem detached_stream_is_ordered (stringify : RemoteShellEventMessage → Output) {run : StreamRun}
    (hReachable : (detachedStream stringify).Reachable run) :
    QueueInOrder stringify run ∧ ∀ event, LosesOldest stringify run (stepStream stringify run event) ∨
      ClosesGate run (stepStream stringify run event) := by
  constructor
  · exact queueInOrder_of_reachable hReachable
  · intro event
    exact (stepStream_spec (flowing_of_reachable hReachable).1 event).losesOldest_or_closesGate

def greeting : RemoteShellEventMessage := ⟨.bash, [], 1, [], 0, .integrationReady⟩

def strangeGreeting : RemoteShellEventMessage := ⟨.zsh, [], 1, [], 0, .integrationReady⟩

def greetedStream : StreamRun :=
  (detachedStream fun _ => []).run ⟨createSession [] 0 (.ready ⟨.bash, [], 1, []⟩), []⟩
    [.frame (.output [codeUnit 'r']), .frame (.event greeting)]

theorem reachable_greetedStream : (detachedStream fun _ => []).Reachable greetedStream :=
  (Transition.Machine.Reachable.start (m := detachedStream fun _ => []) ⟨_, _, _, rfl⟩).run _

theorem greetedStream_queues : greetedStream.session.pendingStreamFrames = [.output [codeUnit 'r'], .event greeting] ∧
    (stepStream (fun _ => []) greetedStream (.frame (.event strangeGreeting))).session.pendingStreamFrames =
      [.output [codeUnit 'r']] ∧
    (stepStream (fun _ => []) greetedStream (.frame (.event strangeGreeting))).session.delivered = [] ∧
    (stepStream (fun _ => []) greetedStream (.frame (.event strangeGreeting))).arrived = greetedStream.arrived := by
  decide

theorem closing_gate_loses_queued_event :
    ¬∀ (stringify : RemoteShellEventMessage → Output) (run : StreamRun),
      (detachedStream stringify).Reachable run →
        QueueInOrder stringify run ∧ ∀ event, LosesOldest stringify run (stepStream stringify run event) := by
  intro hClaim
  obtain ⟨hBefore, hAfter, hDelivered, hArrived⟩ := greetedStream_queues
  obtain ⟨arrived, lost, sent, hNew, hSent, hPasses⟩ := (hClaim _ _ reachable_greetedStream).2 (.frame (.event strangeGreeting))
  rw [hArrived] at hNew
  rw [hDelivered] at hSent
  have hNone : arrived = [] := by simpa using hNew
  have hUnsent : sent = [] := (List.append_eq_nil_iff.mp hSent.symm).2
  have hOrdered := hPasses.ordered
  rw [hBefore, hAfter, hNone, hUnsent, List.append_nil, List.nil_append] at hOrdered
  have hLast := congrArg List.getLast? hOrdered
  simp at hLast

theorem greeted_stream_is_ordered :
    QueueInOrder (fun _ => []) greetedStream ∧
      ∀ event, LosesOldest (fun _ => []) greetedStream (stepStream (fun _ => []) greetedStream event) ∨
        ClosesGate greetedStream (stepStream (fun _ => []) greetedStream event) :=
  detached_stream_is_ordered (fun _ => []) reachable_greetedStream

end Terminal
