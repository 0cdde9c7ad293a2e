import Cosmosh.Library.JsText
import Cosmosh.Library.Transition

/-! # The socket of a terminal session

A session has one socket at a time, and a newer one replaces it.
-/

namespace Terminal

open Library

structure SessionHooks (Transport RawData : Type) where
  handleClientMessage : Option Nat → Transport → RawData → Transport × Option Text
  onSessionAttached : Nat → Transport → Transport
  disposeTransport : Text → Transport → Transport

/-- `accepted` sockets have listeners. -/
structure ClientSocket where
  accepted : Bool
  isOpen : Bool
  deriving DecidableEq

inductive Drive (RawData : Type)
  | message (socket : Nat) (payload : RawData) (attached : Option Nat)
  | disconnected (socket : Nat) (attached : Option Nat)
  | failed (socket : Nat) (attached : Option Nat)
  deriving DecidableEq

namespace Drive

variable {RawData : Type}

def socket : Drive RawData → Nat
  | .message socket _ _ => socket
  | .disconnected socket _ => socket
  | .failed socket _ => socket

def attached : Drive RawData → Option Nat
  | .message _ _ attached => attached
  | .disconnected _ attached => attached
  | .failed _ attached => attached

end Drive

/-- `trace` is what has driven the session so far. -/
structure AttachableSession (Transport RawData : Type) where
  websocketToken : Text
  socket : Option Nat
  disposed : Bool
  sockets : List ClientSocket
  transport : Transport
  trace : List (Drive RawData)

inductive SocketEvent (RawData : Type)
  | connection (token : Text)
  | message (socket : Nat) (payload : RawData)
  | close (socket : Nat)
  | error (socket : Nat)
  | dispose (reason : Text)

variable {Transport RawData : Type} (hooks : SessionHooks Transport RawData)

namespace AttachableSession

variable (session : AttachableSession Transport RawData)

def accepts (id : Nat) : Bool := session.sockets[id]?.any ClientSocket.accepted

def closeSocket (id : Nat) : AttachableSession Transport RawData :=
  { session with sockets := session.sockets.modify id fun socket => { socket with isOpen := false } }

def openSocket : Option Nat := session.socket.filter fun id => session.sockets[id]?.any ClientSocket.isOpen

def observe (drive : Drive RawData) : AttachableSession Transport RawData := { session with trace := session.trace ++ [drive] }

def disposeSession (reason : Text) : AttachableSession Transport RawData :=
  if session.disposed then session
  else
    let closed := session.openSocket.elim session session.closeSocket
    { closed with disposed := true, transport := hooks.disposeTransport reason session.transport, socket := none }

def connect (token : Text) : AttachableSession Transport RawData :=
  if session.disposed ∨ token ≠ session.websocketToken then
    { session with sockets := session.sockets ++ [⟨false, false⟩] }
  else
    let id := session.sockets.length
    let replaced := session.openSocket.elim session session.closeSocket
    { replaced with
      sockets := replaced.sockets ++ [⟨true, true⟩]
      socket := some id
      transport := hooks.onSessionAttached id session.transport }

def onMessage (id : Nat) (payload : RawData) : AttachableSession Transport RawData :=
  let (transport, reason) := hooks.handleClientMessage session.openSocket session.transport payload
  let handled := { session.observe (.message id payload session.socket) with transport := transport }
  reason.elim handled (handled.disposeSession hooks)

def onClose (id : Nat) : AttachableSession Transport RawData :=
  if session.disposed ∨ session.socket ≠ some id then session
  else (session.observe (.disconnected id session.socket)).disposeSession hooks "ws.websocketDisconnected".toList

def onError (id : Nat) : AttachableSession Transport RawData :=
  if session.disposed ∨ session.socket ≠ some id then session
  else (session.observe (.failed id session.socket)).disposeSession hooks "ws.websocketTransportError".toList

end AttachableSession

def stepSocket (session : AttachableSession Transport RawData) :
    SocketEvent RawData → AttachableSession Transport RawData
  | .connection token => session.connect hooks token
  | .message id payload => if session.accepts id then session.onMessage hooks id payload else session
  | .close id => if session.accepts id then (session.closeSocket id).onClose hooks id else session
  | .error id => if session.accepts id then session.onError hooks id else session
  | .dispose reason => session.disposeSession hooks reason

def createAttachable (websocketToken : Text) (transport : Transport) : AttachableSession Transport RawData :=
  ⟨websocketToken, none, false, [], transport, []⟩

def attachableSession : Transition.Machine (AttachableSession Transport RawData) (SocketEvent RawData) where
  initial session := ∃ websocketToken transport, session = createAttachable websocketToken transport
  step := stepSocket hooks

def AttachedDrivesAlone (session : AttachableSession Transport RawData) : Prop := ∀ drive ∈ session.trace, drive.attached = some drive.socket

instance (session : AttachableSession Transport RawData) : Decidable (AttachedDrivesAlone session) :=
  inferInstanceAs (Decidable (∀ drive ∈ session.trace, drive.attached = some drive.socket))

def AttachableSession.isCurrent (session : AttachableSession Transport RawData) (id : Nat) : Bool :=
  !session.disposed && decide (∀ other < session.sockets.length, session.accepts other = true → other ≤ id)

def messageIsCurrent (session : AttachableSession Transport RawData) : SocketEvent RawData → Bool
  | .message id _ => !session.accepts id || session.isCurrent id
  | _ => true

structure Attached (session : AttachableSession Transport RawData) : Prop where
  newest : session.disposed = false → ∀ id, session.accepts id = true →
    ∃ socket, session.socket = some socket ∧ session.accepts socket = true ∧ id ≤ socket
  disposed : session.disposed = true → session.socket = none

namespace AttachableSession

variable {hooks} {session : AttachableSession Transport RawData}

theorem accepts_closeSocket (id other : Nat) : (session.closeSocket id).accepts other = session.accepts other := by
  unfold accepts closeSocket
  simp only [List.getElem?_modify]
  cases session.sockets[other]? with
  | none => rfl
  | some socket =>
    simp only [Option.map_eq_map, Option.map_some, Option.any_some]
    split <;> rfl

theorem length_closeOpen : (session.openSocket.elim session session.closeSocket).sockets.length = session.sockets.length := by
  cases session.openSocket with
  | none => rfl
  | some id => exact List.length_modify _ _ _

theorem lt_length_of_accepts {id : Nat} (h : session.accepts id = true) : id < session.sockets.length := by
  by_contra hMore
  simp [accepts, List.getElem?_eq_none (Nat.not_lt.mp hMore)] at h

theorem trace_closeOpen : (session.openSocket.elim session session.closeSocket).trace = session.trace := by
  cases session.openSocket <;> rfl

theorem trace_disposeSession (reason : Text) : (session.disposeSession hooks reason).trace = session.trace := by
  unfold disposeSession
  split
  · rfl
  · exact trace_closeOpen

theorem attached_disposeSession (h : Attached session) (reason : Text) : Attached (session.disposeSession hooks reason) := by
  unfold disposeSession
  split
  · exact h
  · exact ⟨nofun, fun _ => rfl⟩

theorem isCurrent_iff (h : Attached session) {id : Nat} (hAccepts : session.accepts id = true) :
    session.isCurrent id = true ↔ session.socket = some id := by
  simp only [isCurrent, Bool.and_eq_true, Bool.not_eq_true', decide_eq_true_eq]
  constructor
  · rintro ⟨hLive, hNewest⟩
    obtain ⟨socket, hSocket, hAccepted, hLe⟩ := h.newest hLive id hAccepts
    have hSame := hNewest socket (lt_length_of_accepts hAccepted) hAccepted
    rw [hSocket, Nat.le_antisymm hSame hLe]
  · intro hSocket
    have hLive : session.disposed = false := by
      cases hDisposed : session.disposed with
      | false => rfl
      | true =>
        rw [h.disposed hDisposed] at hSocket
        cases hSocket
    refine ⟨hLive, ?_⟩
    intro other _ hOther
    obtain ⟨socket, hNewest, -, hLe⟩ := h.newest hLive other hOther
    rw [hSocket] at hNewest
    exact Option.some.inj hNewest ▸ hLe

variable (session) in
theorem accepts_append (last : ClientSocket) (other : Nat) : { session with sockets := session.sockets ++ [last] }.accepts other =
      (session.accepts other || (other == session.sockets.length && last.accepted)) := by
  unfold accepts
  obtain hLess | hEq | hMore := Nat.lt_trichotomy other session.sockets.length
  · simp [List.getElem?_append_left hLess, hLess.ne]
  · simp [hEq]
  · have hBeyond : [last].length ≤ other - session.sockets.length := by
      simp only [List.length_singleton]
      omega
    simp [List.getElem?_eq_none hMore.le, List.getElem?_append_right hMore.le, hMore.ne', List.getElem?_eq_none hBeyond]

section

variable (h : Attached session)
include h

theorem attached_connect (token : Text) : Attached (session.connect hooks token) := by
  unfold connect
  split
  · constructor
    · intro hLive id hAccepts
      have hOld : session.accepts id = true := by simpa [accepts_append] using hAccepts
      obtain ⟨socket, hSocket, hAccepted, hLe⟩ := h.newest hLive id hOld
      exact ⟨socket, hSocket, by simp [accepts_append, hAccepted], hLe⟩
    · exact h.disposed
  · next hValid =>
    simp only [not_or, Bool.not_eq_true] at hValid
    constructor
    · intro _ id hAccepts
      refine ⟨session.sockets.length, rfl, ?_, ?_⟩
      · have hNew := accepts_append (session.openSocket.elim session session.closeSocket) ⟨true, true⟩
          session.sockets.length
        rw [length_closeOpen] at hNew
        exact hNew.trans (by simp)
      · have hLess := lt_length_of_accepts hAccepts
        simp only [List.length_append, List.length_singleton, length_closeOpen] at hLess
        omega
    · intro hDisposed
      have hOld : (session.openSocket.elim session session.closeSocket).disposed = session.disposed := by
        cases session.openSocket <;> rfl
      have hTrue : (session.openSocket.elim session session.closeSocket).disposed = true := hDisposed
      rw [hOld, hValid.1] at hTrue
      cases hTrue

theorem attached_observe (drive : Drive RawData) : Attached (session.observe drive) := ⟨h.newest, h.disposed⟩

theorem attached_closeSocket (id : Nat) : Attached (session.closeSocket id) := by
  constructor
  · intro hLive other hOther
    rw [accepts_closeSocket] at hOther
    obtain ⟨socket, hSocket, hAccepted, hLe⟩ := h.newest hLive other hOther
    exact ⟨socket, hSocket, by rw [accepts_closeSocket, hAccepted], hLe⟩
  · exact h.disposed

theorem attached_onMessage (id : Nat) (payload : RawData) : Attached (session.onMessage hooks id payload) := by
  unfold onMessage
  simp only
  have hHandled : Attached { session.observe (.message id payload session.socket) with
      transport := (hooks.handleClientMessage session.openSocket session.transport payload).1 } := ⟨h.newest, h.disposed⟩
  cases (hooks.handleClientMessage session.openSocket session.transport payload).2 with
  | none => exact hHandled
  | some reason => exact attached_disposeSession hHandled reason

theorem attached_onClose (id : Nat) : Attached (session.onClose hooks id) := by
  unfold onClose
  split
  · exact h
  · exact attached_disposeSession (attached_observe h _) _

theorem attached_onError (id : Nat) : Attached (session.onError hooks id) := by
  unfold onError
  split
  · exact h
  · exact attached_disposeSession (attached_observe h _) _

theorem attached_stepSocket (event : SocketEvent RawData) : Attached (stepSocket hooks session event) := by
  cases event with
  | connection token => exact attached_connect h token
  | message id payload =>
    simp only [stepSocket]
    split
    · exact attached_onMessage h id payload
    · exact h
  | close id =>
    simp only [stepSocket]
    split
    · exact attached_onClose (attached_closeSocket h id) id
    · exact h
  | error id =>
    simp only [stepSocket]
    split
    · exact attached_onError h id
    · exact h
  | dispose reason => exact attached_disposeSession h reason

end

theorem trace_onMessage (id : Nat) (payload : RawData) :
    (session.onMessage hooks id payload).trace = session.trace ++ [.message id payload session.socket] := by
  unfold onMessage
  simp only
  cases (hooks.handleClientMessage session.openSocket session.transport payload).2 with
  | none => rfl
  | some reason => exact trace_disposeSession reason

variable (hooks session) in
theorem trace_onClose (id : Nat) : (session.onClose hooks id).trace = session.trace ∨
    session.socket = some id ∧ (session.onClose hooks id).trace = session.trace ++ [.disconnected id session.socket] := by
  unfold onClose
  split
  · exact .inl rfl
  · next hLive =>
    simp only [not_or, ne_eq, Decidable.not_not] at hLive
    exact .inr ⟨hLive.2, trace_disposeSession _⟩

variable (hooks session) in
theorem trace_onError (id : Nat) : (session.onError hooks id).trace = session.trace ∨
    session.socket = some id ∧ (session.onError hooks id).trace = session.trace ++ [.failed id session.socket] := by
  unfold onError
  split
  · exact .inl rfl
  · next hLive =>
    simp only [not_or, ne_eq, Decidable.not_not] at hLive
    exact .inr ⟨hLive.2, trace_disposeSession _⟩

theorem trace_connect (token : Text) : (session.connect hooks token).trace = session.trace := by
  unfold connect
  split
  · rfl
  · exact trace_closeOpen

end AttachableSession

open AttachableSession

variable {hooks} {session : AttachableSession Transport RawData}

theorem attachedDrivesAlone_of_trace {next : AttachableSession Transport RawData} (hTrace : next.trace = session.trace) :
    AttachedDrivesAlone next ↔ AttachedDrivesAlone session := by
  unfold AttachedDrivesAlone
  rw [hTrace]

theorem attachedDrivesAlone_of_append {next : AttachableSession Transport RawData} {drive : Drive RawData}
    (hTrace : next.trace = session.trace ++ [drive]) :
    AttachedDrivesAlone next ↔ AttachedDrivesAlone session ∧ drive.attached = some drive.socket := by
  unfold AttachedDrivesAlone
  rw [hTrace, List.forall_mem_append, List.forall_mem_singleton]

theorem attachedDrivesAlone_stepSocket (h : Attached session) (event : SocketEvent RawData) :
    AttachedDrivesAlone (stepSocket hooks session event) ↔ AttachedDrivesAlone session ∧ messageIsCurrent session event = true := by
  have hSame : ∀ {next : AttachableSession Transport RawData}, next.trace = session.trace →
      (AttachedDrivesAlone next ↔ AttachedDrivesAlone session ∧ messageIsCurrent session event = true) ∨
        messageIsCurrent session event = false := by
    intro next hTrace
    rw [attachedDrivesAlone_of_trace hTrace]
    cases messageIsCurrent session event <;> simp
  cases event with
  | connection token => exact (hSame (trace_connect token)).resolve_right nofun
  | message id payload =>
    simp only [stepSocket, messageIsCurrent]
    cases hAccepts : session.accepts id with
    | false => exact (and_iff_left rfl).symm
    | true =>
      rw [if_pos rfl, attachedDrivesAlone_of_append (trace_onMessage id payload), Bool.not_true, Bool.false_or,
        isCurrent_iff h hAccepts]
      rfl
  | close id =>
    simp only [stepSocket]
    split
    · obtain hTrace | ⟨hSocket, hTrace⟩ := trace_onClose hooks (session.closeSocket id) id
      · exact (hSame hTrace).resolve_right nofun
      · rw [attachedDrivesAlone_of_append hTrace]
        exact and_congr_right fun _ => iff_of_true hSocket rfl
    · exact (and_iff_left rfl).symm
  | error id =>
    simp only [stepSocket]
    split
    · obtain hTrace | ⟨hSocket, hTrace⟩ := trace_onError hooks session id
      · exact (hSame hTrace).resolve_right nofun
      · rw [attachedDrivesAlone_of_append hTrace]
        exact and_congr_right fun _ => iff_of_true hSocket rfl
    · exact (and_iff_left rfl).symm
  | dispose reason => exact (hSame (trace_disposeSession reason)).resolve_right nofun

theorem attached_createAttachable (websocketToken : Text) (transport : Transport) :
    Attached (createAttachable websocketToken transport : AttachableSession Transport RawData) where
  newest _ id hAccepts := by simp [accepts, createAttachable] at hAccepts
  disposed := nofun

theorem attachedDrivesAlone_run (h : Attached session) (events : List (SocketEvent RawData)) :
    AttachedDrivesAlone ((attachableSession hooks).run session events) ↔
      AttachedDrivesAlone session ∧ (attachableSession hooks).meets messageIsCurrent session events = true := by
  induction events generalizing session with
  | nil => exact (and_iff_left rfl).symm
  | cons event events ih =>
    rw [Transition.Machine.run_cons, Transition.Machine.meets, Bool.and_eq_true, ← and_assoc,
      ← attachedDrivesAlone_stepSocket h event]
    exact ih (attached_stepSocket h event)

/-- A session is driven by its attached socket alone in exactly the runs in which no replaced
socket receives a message, and none does once the session has ended. -/
theorem attached_socket_drives_alone (hooks : SessionHooks Transport RawData) (websocketToken : Text)
    (transport : Transport) (events : List (SocketEvent RawData)) :
    AttachedDrivesAlone ((attachableSession hooks).run (createAttachable websocketToken transport) events) ↔
      (attachableSession hooks).meets messageIsCurrent (createAttachable websocketToken transport) events = true := by
  rw [attachedDrivesAlone_run (attached_createAttachable websocketToken transport)]
  exact and_iff_right nofun

def typingHooks : SessionHooks Text Text where
  handleClientMessage _ typed input := (typed ++ input, none)
  onSessionAttached _ typed := typed
  disposeTransport _ typed := typed

theorem replaced_socket_types : ((attachableSession typingHooks).run (createAttachable ['t'] [])
        [.connection ['t'], .connection ['t'], .message 0 ['r']]).socket = some 1 ∧
      ((attachableSession typingHooks).run (createAttachable ['t'] [])
        [.connection ['t'], .connection ['t'], .message 0 ['r']]).transport = ['r'] ∧
      ¬AttachedDrivesAlone ((attachableSession typingHooks).run (createAttachable ['t'] [])
        [.connection ['t'], .connection ['t'], .message 0 ['r']]) := by
  decide

end Terminal
