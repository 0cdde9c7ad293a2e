import Cosmosh.PortForward.RuntimeOwnership

/-! # Whether the events of one runtime spare the next

The close and error handlers of a client name their rule, not their runtime, and a client may close after its runtime
has been disposed.
-/

namespace PortForward

open Library

namespace PortForwardSessionService

def causedBy (service : PortForwardSessionService) : ServiceEvent → Option Nat
  | .clientError id _ => some id
  | .clientClose id => some id
  | .resume i _ =>
    match service.calls[i]? with
    | none => none
    | some call =>
      match call.kind, call.point with
      | .handleUnexpectedClose id, _ => some id
      | .startRule, .updateStarted _ id => some id
      | .startRule, .dispose id _ (.handleUnexpectedClose _) => some id
      | _, _ => none
  | _ => none

structure Spares (id : Nat) (service service' : PortForwardSessionService) : Prop where
  runtimes : ∀ other, other ≠ id → service'.runtimes[other]? = service.runtimes[other]?
  registered : ∀ ruleId other, other ≠ id → service.activeRules.get? ruleId = some other →
    service'.activeRules.get? ruleId = some other
  rows : ∃ later, service'.writes = service.writes ++ later ∧ ∀ ruleId message,
    .unexpectedlyClosed ruleId message ∈ later → ∀ other, service'.activeRules.get? ruleId = some other → other = id

def IsolatesRuntimes (service : PortForwardSessionService) (event : ServiceEvent) : Prop :=
  ∀ id, service.causedBy event = some id → service.Spares id (stepService service event)

def noOtherRuntime (service : PortForwardSessionService) (ruleId : Text) (id : Nat) : Bool := (service.activeRules.get? ruleId).all (· = id)

def handlersOwn (service : PortForwardSessionService) (id : Nat) : Bool :=
  ((service.runtimes[id]?).bind fun runtime => runtime.client.handlers).all fun ruleId =>
    service.noOtherRuntime ruleId id

def closesOwnRuntime (service : PortForwardSessionService) : ServiceEvent → Bool
  | .clientError id _ => service.handlersOwn id
  | .clientClose id => service.handlersOwn id
  | .resume i .done =>
    match service.calls[i]? with
    | none => true
    | some call =>
      match call.kind, call.point with
      | .handleUnexpectedClose id, .dispose _ _ _ => service.noOtherRuntime call.ruleId id
      | _, _ => true
  | _ => true

variable {service : PortForwardSessionService} {id : Nat}

theorem noOtherRuntime_iff {ruleId : Text} :
    service.noOtherRuntime ruleId id = true ↔ ∀ other, service.activeRules.get? ruleId = some other → other = id := by
  rw [noOtherRuntime]
  cases service.activeRules.get? ruleId with
  | none => simp
  | some other => simp

theorem Spares.refl (id : Nat) (service : PortForwardSessionService) : Spares id service service :=
  ⟨fun _ _ => rfl, fun _ _ _ hGet => hGet, [], (List.append_nil _).symm, nofun⟩

variable {service' last : PortForwardSessionService}

section

variable (h : OnlyRuntime id service service')
include h

theorem OnlyRuntime.spares (hActive : last.activeRules = service'.activeRules) (hRuntimes : last.runtimes = service'.runtimes)
    {later : List RowWrite} (hWrites : last.writes = service'.writes ++ later)
    (hRows : ∀ ruleId message, .unexpectedlyClosed ruleId message ∈ later →
      ∀ other, service.activeRules.get? ruleId = some other → other = id) : Spares id service last := by
  constructor
  · intro other hOther
    rw [hRuntimes, h.others other hOther]
  · intro ruleId other _ hGet
    rw [hActive, h.activeRules, hGet]
  · refine ⟨later, by rw [hWrites, h.writes], ?_⟩
    intro ruleId message hMem other hGet
    rw [hActive, h.activeRules] at hGet
    exact hRows ruleId message hMem other hGet

theorem OnlyRuntime.spares_settle (i : Nat) (call : Call) (result : CallResult) : Spares id service (service'.settle i call result) :=
  h.spares rfl rfl (List.append_nil _).symm nofun

theorem OnlyRuntime.spares_write (i : Nat) (call : Call) {entry : RowWrite} (point : Point)
    (hRow : ∀ ruleId message, entry = .unexpectedlyClosed ruleId message → ∀ other, service.activeRules.get? ruleId = some other → other = id) :
    Spares id service ((service'.write entry).moveTo i call point) := by
  have hWrites : ((service'.write entry).moveTo i call point).writes = service'.writes ++ [entry] := rfl
  exact h.spares rfl rfl hWrites fun ruleId message hMem => hRow ruleId message (List.mem_singleton.mp hMem).symm

end

variable {call : Call}

theorem OnlyRuntime.spares_afterDispose {outcome : PortForwardSessionService × DisposeProgress} (h : OnlyRuntime id service outcome.1) (i : Nat)
    (hFree : ∀ other, service.activeRules.get? call.ruleId = some other → other = id) (next : AfterDispose) :
    Spares id service (afterDispose i call id next outcome) := by
  obtain ⟨disposing, progress⟩ := outcome
  have hKept : ∀ point, Spares id service (disposing.moveTo i call point) :=
    fun point => h.spares rfl rfl (List.append_nil _).symm nofun
  cases progress with
  | waiting stage => exact hKept _
  | completed =>
    cases next with
    | startFailed message => exact h.spares_write i call _ nofun
    | startThrows error => exact h.spares_settle i call _
    | stopRule => exact h.spares_write i call _ nofun
    | handleUnexpectedClose message =>
      apply h.spares_write
      rintro ruleId text hEntry
      cases hEntry
      exact hFree
    | shutdown => exact h.spares_settle i call _
  | rejected error =>
    cases next with
    | startFailed message => exact h.spares_settle i call _
    | startThrows error => exact h.spares_settle i call _
    | stopRule => exact h.spares_settle i call _
    | handleUnexpectedClose message => exact h.spares_settle i call _
    | shutdown => exact h.spares_settle i call _

theorem Spares.delete {ruleId : Text} (hOwn : ∀ other, service.activeRules.get? ruleId = some other → other = id)
    (h : Spares id { service with activeRules := service.activeRules.delete ruleId } last) : Spares id service last := by
  refine ⟨h.runtimes, ?_, h.rows⟩
  intro otherRule other hOther hGet
  apply h.registered otherRule other hOther
  rw [JsMap.get?_delete]
  split
  · rename_i hSame
    rw [hSame] at hGet
    exact absurd (hOwn other hGet) hOther
  · exact hGet

theorem OnlyRuntime.spares_trans {middle : PortForwardSessionService} (h : OnlyRuntime id service middle)
    (h' : Spares id middle last) : Spares id service last := by
  constructor
  · intro other hOther
    rw [h'.runtimes other hOther, h.others other hOther]
  · intro ruleId other hOther hGet
    apply h'.registered ruleId other hOther
    rw [h.activeRules, hGet]
  · obtain ⟨later, hWrites, hRows⟩ := h'.rows
    exact ⟨later, by rw [hWrites, h.writes], hRows⟩

section

variable (i : Nat) (hOwn : ∀ other, service.activeRules.get? call.ruleId = some other → other = id)
include hOwn

theorem spares_handleUnexpectedClose (message : Text) : Spares id service (service.handleUnexpectedClose i call message) := by
  rw [PortForwardSessionService.handleUnexpectedClose]
  split
  · exact (OnlyRuntime.refl id service).spares_settle i call _
  · rename_i other hGet
    obtain rfl := hOwn other hGet
    let failed := service.modifyRuntime other fun runtime => { runtime with lastError := some message }
    have hFailed : OnlyRuntime other service failed := onlyRuntime_modifyRuntime service other _
    have hFailedOwn : ∀ known, failed.activeRules.get? call.ruleId = some known → known = other := hOwn
    apply hFailed.spares_trans
    apply Spares.delete hFailedOwn
    apply (onlyRuntime_beginDispose _ other).spares_afterDispose
    intro known hKnown
    rw [JsMap.get?_delete, if_pos rfl] at hKnown
    cases hKnown

theorem spares_handOver (rule : PortForwardRule) : Spares id service (service.handOver i call id rule) := by
  have hHanded := onlyRuntime_modifyRuntime service id fun runtime =>
    { runtime with client := { runtime.client with handlers := some call.ruleId, monitored := false } }
  rw [PortForwardSessionService.handOver]
  split
  · apply hHanded.spares_trans
    apply spares_handleUnexpectedClose
    exact hOwn
  · exact hHanded.spares_settle i call _

theorem spares_startUpdateFailed (error : Text) : Spares id service (service.startUpdateFailed i call id error) := by
  apply Spares.delete hOwn
  apply (onlyRuntime_beginDispose _ id).spares_afterDispose
  intro known hKnown
  rw [JsMap.get?_delete, if_pos rfl] at hKnown
  cases hKnown

end

theorem Spares.of_begin (h : Spares id (service.begin call) last) : Spares id service last := ⟨h.runtimes, h.registered, h.rows⟩

theorem spares_clientEvent (message : Text) (change : Client → Client) (hOwn : service.handlersOwn id = true) :
    Spares id service (service.clientEvent id message change) := by
  rw [PortForwardSessionService.clientEvent]
  split
  · exact .refl id service
  · rename_i runtime hRuntime
    have hSeen := onlyRuntime_modifyRuntime service id fun runtime =>
      if runtime.client.monitored then { runtime with client := change runtime.client } else runtime
    split
    · exact hSeen.spares rfl rfl (List.append_nil _).symm (by rintro _ _ ⟨⟩)
    · rename_i ruleId hHandlers
      rw [handlersOwn, hRuntime, Option.bind_some, hHandlers, Option.all_some, noOtherRuntime_iff] at hOwn
      apply hSeen.spares_trans
      apply Spares.of_begin
      apply spares_handleUnexpectedClose
      exact hOwn

def Disciplined (service : PortForwardSessionService) : Prop :=
  ∀ (i : Nat) (call : Call) (id : Nat), service.calls[i]? = some call → call.kind = .handleUnexpectedClose id →
    ∀ other, call.point.Holds other → other = id

def OnlyCall (i : Nat) (call : Call) (service service' : PortForwardSessionService) : Prop :=
  service'.calls = service.calls ∨ ∃ point, service'.calls = service.calls.set i { call with point := point }

theorem onlyCall_moveTo (service : PortForwardSessionService) (i : Nat) (call : Call) (point : Point) :
    OnlyCall i call service (service.moveTo i call point) := .inr ⟨point, rfl⟩

theorem onlyCall_settle (service : PortForwardSessionService) (i : Nat) (call : Call) (result : CallResult) :
    OnlyCall i call service (service.settle i call result) := .inr ⟨.settled result, rfl⟩

theorem onlyCall_afterDispose (i : Nat) (call : Call) (id : Nat) (next : AfterDispose) (outcome : PortForwardSessionService × DisposeProgress) :
    OnlyCall i call outcome.1 (afterDispose i call id next outcome) := by
  obtain ⟨disposing, progress⟩ := outcome
  cases progress with
  | waiting stage => exact .inr ⟨_, rfl⟩
  | completed => cases next <;> exact .inr ⟨_, rfl⟩
  | rejected error => cases next <;> exact .inr ⟨_, rfl⟩

variable {i : Nat}

theorem OnlyCall.of_same {middle : PortForwardSessionService} (h : OnlyCall i call middle last)
    (hCalls : middle.calls = service.calls) : OnlyCall i call service last := by
  rw [OnlyCall, ← hCalls]
  exact h

section

variable (service : PortForwardSessionService) (i : Nat) (call : Call)

theorem onlyCall_disposeRuntimeState (id : Nat) (next : AfterDispose) : OnlyCall i call service (service.disposeRuntimeState i call id next) :=
  (onlyCall_afterDispose i call id next _).of_same (onlyRuntime_beginDispose service id).calls

theorem onlyCall_handleUnexpectedClose (message : Text) : OnlyCall i call service (service.handleUnexpectedClose i call message) := by
  rw [PortForwardSessionService.handleUnexpectedClose]
  split
  · exact onlyCall_settle service i call _
  · exact (onlyCall_disposeRuntimeState _ i call _ _).of_same rfl

theorem onlyCall_clientReady (rule : PortForwardRule) : OnlyCall i call service (service.clientReady i call rule) := by
  rw [PortForwardSessionService.clientReady]
  split
  · exact (onlyCall_disposeRuntimeState _ i call _ _).of_same rfl
  · exact (onlyCall_moveTo _ i call _).of_same rfl

theorem onlyCall_handOver (id : Nat) (rule : PortForwardRule) : OnlyCall i call service (service.handOver i call id rule) := by
  rw [PortForwardSessionService.handOver]
  split
  · exact (onlyCall_handleUnexpectedClose _ i call _).of_same rfl
  · exact (onlyCall_settle _ i call _).of_same rfl

theorem onlyCall_resumeStart (point : Point) (answer : Answer) : OnlyCall i call service (service.resumeStart i call point answer) := by
  unfold PortForwardSessionService.resumeStart
  split
  · exact onlyCall_settle _ i call _
  · exact onlyCall_moveTo _ i call _
  · exact onlyCall_moveTo _ i call _
  · exact onlyCall_settle _ i call _
  · exact (onlyCall_moveTo _ i call _).of_same rfl
  · exact onlyCall_clientReady service i call _
  · exact (onlyCall_moveTo _ i call _).of_same rfl
  · exact (onlyCall_disposeRuntimeState _ i call _ _).of_same rfl
  · exact onlyCall_settle _ i call _
  · exact onlyCall_handOver service i call _ _
  · exact (onlyCall_disposeRuntimeState _ i call _ _).of_same rfl
  · exact onlyCall_settle _ i call _
  · exact onlyCall_settle _ i call _
  · exact onlyCall_settle _ i call _
  · exact onlyCall_settle _ i call _
  · exact .inl rfl

theorem onlyCall_resumeStop (point : Point) (answer : Answer) : OnlyCall i call service (service.resumeStop i call point answer) := by
  unfold PortForwardSessionService.resumeStop
  split
  · exact onlyCall_settle _ i call _
  · split
    · exact (onlyCall_moveTo _ i call _).of_same rfl
    · exact (onlyCall_disposeRuntimeState _ i call _ _).of_same rfl
  · exact onlyCall_settle _ i call _
  · exact onlyCall_settle _ i call _
  · exact onlyCall_settle _ i call _
  · exact .inl rfl

theorem onlyCall_resumeDispose (id : Nat) (stage : DisposeStage) (next : AfterDispose) (answer : Answer) :
    OnlyCall i call service (service.resumeDispose i call id stage next answer) := by
  cases answer with
  | done => exact (onlyCall_afterDispose i call id next _).of_same (onlyRuntime_continueDispose service id stage).calls
  | _ => exact .inl rfl

theorem onlyCall_resumeUpdateClosed (message : Text) (answer : Answer) :
    OnlyCall i call service (service.resumeUpdateClosed i call message answer) := by
  cases answer with
  | updated rule => exact onlyCall_settle service i call _
  | failed error => exact onlyCall_settle service i call _
  | _ => exact .inl rfl

end

theorem Disciplined.onlyCall (h : service.Disciplined) (hCall : service.calls[i]? = some call) (hOnly : OnlyCall i call service service')
    (hNew : ∀ id, call.kind = .handleUnexpectedClose id → ∀ point, service'.calls[i]? = some { call with point := point } →
      ∀ other, point.Holds other → other = id) : service'.Disciplined := by
  intro j known id hKnown hKind
  obtain hSame | ⟨point, hSet⟩ := hOnly
  · rw [hSame] at hKnown
    exact h j known id hKnown hKind
  · have hLess : i < service.calls.length := (List.getElem?_eq_some_iff.mp hCall).1
    have hAt := hKnown
    rw [hSet, List.getElem?_set, if_pos hLess] at hAt
    split at hAt
    · rename_i hId
      subst hId
      cases hAt
      exact hNew id hKind point hKnown
    · exact h j known id hAt hKind

theorem Disciplined.same (h : service.Disciplined) (hCalls : service'.calls = service.calls) : service'.Disciplined := by
  intro i call id hCall
  rw [hCalls] at hCall
  exact h i call id hCall

theorem Disciplined.begin (h : service.Disciplined) (hIdle : call.point.Idle) : (service.begin call).Disciplined := by
  intro j known id hKnown hKind other hHolds
  rw [getElem?_begin] at hKnown
  split at hKnown
  · cases hKnown
    exact absurd hHolds (hIdle.not_holds other)
  · exact h j known id hKnown hKind other hHolds

theorem holds_afterDispose {outcome : PortForwardSessionService × DisposeProgress} (hCall : outcome.1.calls[i]? = some call)
    {next : AfterDispose} {point : Point}
    (hPoint : (afterDispose i call id next outcome).calls[i]? = some { call with point := point }) {other : Nat}
    (hHolds : point.Holds other) : other = id := by
  have hLess : i < outcome.1.calls.length := (List.getElem?_eq_some_iff.mp hCall).1
  obtain ⟨disposing, progress⟩ := outcome
  have hSelf : ∀ new, (disposing.calls.set i { call with point := new })[i]? = some { call with point := point } →
      new = point := by
    intro new hNew
    rw [List.getElem?_set_self hLess] at hNew
    cases hNew
    rfl
  cases progress with
  | waiting stage =>
    obtain rfl := hSelf _ hPoint
    exact hHolds.symm
  | completed =>
    cases next with
    | _ =>
      obtain rfl := hSelf _ hPoint
      exact hHolds.elim
  | rejected error =>
    cases next with
    | _ =>
      obtain rfl := hSelf _ hPoint
      exact hHolds.elim

theorem holds_disposeRuntimeState (hCall : service.calls[i]? = some call) {next : AfterDispose} {point : Point}
    (hPoint : (service.disposeRuntimeState i call id next).calls[i]? = some { call with point := point }) {other : Nat}
    (hHolds : point.Holds other) : other = id := by
  refine holds_afterDispose ?_ hPoint hHolds
  rw [(onlyRuntime_beginDispose service id).calls, hCall]

theorem Disciplined.resume (h : service.Disciplined) (i : Nat) (answer : Answer) : (service.resume i answer).Disciplined := by
  rw [PortForwardSessionService.resume]
  split
  · exact h
  · rename_i call hCall
    split
    · rename_i held stage next hPoint
      apply h.onlyCall hCall (onlyCall_resumeDispose service i call held stage next answer)
      intro id hKind point hNew other hHolds
      have hHeld : held = id := by
        apply h i call id hCall hKind
        rw [hPoint]
        rfl
      subst hHeld
      cases answer with
      | done =>
        have hSame := (onlyRuntime_continueDispose service held stage).calls
        exact holds_afterDispose (hSame ▸ hCall) hNew hHolds
      | _ =>
        obtain rfl := congrArg Call.point (Option.some.inj (hCall.symm.trans hNew))
        exact h i call held hCall hKind other hHolds
    · rename_i message hPoint
      apply h.onlyCall hCall (onlyCall_resumeUpdateClosed service i call message answer)
      intro id hKind point hNew other hHolds
      have hLess : i < service.calls.length := (List.getElem?_eq_some_iff.mp hCall).1
      have hSettled : ∀ result, (service.calls.set i { call with point := .settled result })[i]? =
          some { call with point := point } → other = id := by
        intro result hSet
        rw [List.getElem?_set_self hLess] at hSet
        cases hSet
        exact hHolds.elim
      cases answer with
      | updated rule => exact hSettled _ hNew
      | failed error => exact hSettled _ hNew
      | _ =>
        obtain rfl := congrArg Call.point (Option.some.inj (hCall.symm.trans hNew))
        exact h i call id hCall hKind other hHolds
    · split
      · rename_i hKind
        apply h.onlyCall hCall (onlyCall_resumeStart service i call _ answer)
        intro id hHandler
        rw [hKind] at hHandler
        cases hHandler
      · rename_i hKind
        apply h.onlyCall hCall (onlyCall_resumeStop service i call _ answer)
        intro id hHandler
        rw [hKind] at hHandler
        cases hHandler
      · exact h

theorem handlersOwn_endClient (service : PortForwardSessionService) (id : Nat) :
    (service.modifyRuntime id .endClient).handlersOwn id = service.handlersOwn id := by
  rw [handlersOwn, handlersOwn, getElem?_modifyRuntime]
  cases service.runtimes[id]? with
  | none => rfl
  | some runtime =>
    rw [Option.map_some, if_pos rfl]
    rfl

theorem Disciplined.clientEvent (h : service.Disciplined) (message : Text) (change : Client → Client)
    (hOwn : service.handlersOwn id = true) : (service.clientEvent id message change).Disciplined := by
  rw [PortForwardSessionService.clientEvent]
  split
  · exact h
  · rename_i runtime hRuntime
    let seen := service.modifyRuntime id fun runtime =>
      if runtime.client.monitored then { runtime with client := change runtime.client } else runtime
    have hSeen : seen.Disciplined := h.same (onlyRuntime_modifyRuntime service id _).calls
    split
    · exact hSeen
    · rename_i ruleId hHandlers
      rw [handlersOwn, hRuntime, Option.bind_some, hHandlers, Option.all_some, noOtherRuntime_iff] at hOwn
      let call : Call := ⟨.handleUnexpectedClose id, ruleId, .running⟩
      have hIdle : call.point.Idle := trivial
      have hBegun : (seen.begin call).Disciplined := hSeen.begin hIdle
      have hCall : (seen.begin call).calls[service.calls.length]? = some call := by
        rw [getElem?_begin]
        exact if_pos rfl
      apply hBegun.onlyCall hCall (onlyCall_handleUnexpectedClose _ _ call message)
      intro known hKind point hNew other hHolds
      obtain rfl : id = known := by
        cases hKind
        rfl
      rw [PortForwardSessionService.handleUnexpectedClose] at hNew
      split at hNew
      · have hLess : service.calls.length < (seen.begin call).calls.length := (List.getElem?_eq_some_iff.mp hCall).1
        change ((seen.begin call).calls.set service.calls.length { call with point := _ })[service.calls.length]? = _ at hNew
        rw [List.getElem?_set_self hLess] at hNew
        cases hNew
        exact hHolds.elim
      · rename_i held hGet
        obtain rfl := hOwn held hGet
        let failed := (seen.begin call).modifyRuntime held fun runtime => { runtime with lastError := some message }
        let removed := { failed with activeRules := failed.activeRules.delete ruleId }
        have hRemovedCall : removed.calls[service.calls.length]? = some call := hCall
        exact holds_disposeRuntimeState hRemovedCall hNew hHolds

theorem Disciplined.stop (h : service.Disciplined) : service.stop.Disciplined := by
  have hFold : ∀ (entries : List (Text × Nat)) (first : PortForwardSessionService), first.Disciplined →
      (entries.foldl shutdownRuntime first).Disciplined := by
    intro entries
    induction entries with
    | nil => exact fun _ => id
    | cons entry entries ih =>
      intro first hFirst
      apply ih
      let call : Call := ⟨.shutdown, entry.1, .running⟩
      have hIdle : call.point.Idle := trivial
      have hCall : (first.begin call).calls[first.calls.length]? = some call := by
        rw [getElem?_begin]
        exact if_pos rfl
      apply (hFirst.begin hIdle).onlyCall hCall (onlyCall_disposeRuntimeState _ _ call _ _)
      intro id hKind
      cases hKind
  apply hFold
  exact h.same rfl

theorem Disciplined.step (h : service.Disciplined) {event : ServiceEvent}
    (hGuard : service.closesOwnRuntime event = true) : (stepService service event).Disciplined := by
  cases event with
  | startRule ruleId =>
    rw [stepService, PortForwardSessionService.startRule]
    split
    · exact h.begin trivial
    · let starting := { service with startingRuleIds := service.startingRuleIds ++ [ruleId] }
      have hStarting : starting.Disciplined := h.same rfl
      exact hStarting.begin trivial
  | stopRule ruleId => exact h.begin trivial
  | stop => exact h.stop
  | resume i answer => exact h.resume i answer
  | disconnect id => exact h.same (onlyRuntime_modifyRuntime service id _).calls
  | clientError id message =>
    rw [stepService, clientError]
    exact h.clientEvent message _ hGuard
  | clientClose id =>
    rw [stepService, clientClose]
    have hEnded : (service.modifyRuntime id .endClient).Disciplined := h.same (onlyRuntime_modifyRuntime service id _).calls
    apply hEnded.clientEvent
    rw [handlersOwn_endClient]
    exact hGuard

theorem Consistent.ownRuntime (h : service.Consistent []) (hCall : service.calls[i]? = some call)
    (hKind : call.kind = .startRule) {rule : PortForwardRule} (hPoint : call.point = .updateStarted rule id) :
    ∀ other, service.activeRules.get? call.ruleId = some other → other = id := by
  intro other hGet
  have hFlight : call.point.InFlight := by
    rw [hPoint]
    trivial
  have hRegisters := h.current i call hCall ⟨hKind, rfl, hFlight⟩ other hGet
  rw [hPoint] at hRegisters
  exact hRegisters.symm

theorem spares_resumeDispose (i : Nat) (stage : DisposeStage) (next : AfterDispose) {answer : Answer}
    (hOwn : answer = .done → ∀ other, service.activeRules.get? call.ruleId = some other → other = id) :
    Spares id service (service.resumeDispose i call id stage next answer) := by
  cases answer with
  | done => exact (onlyRuntime_continueDispose service id stage).spares_afterDispose i (hOwn rfl) next
  | _ => exact .refl id service

theorem spares_resume (hConsistent : service.Consistent []) (hDisciplined : service.Disciplined) {answer : Answer}
    (hGuard : service.closesOwnRuntime (.resume i answer) = true) (hCause : service.causedBy (.resume i answer) = some id) :
    Spares id service (service.resume i answer) := by
  rw [PortForwardSessionService.resume]
  rw [causedBy] at hCause
  cases hCall : service.calls[i]? with
  | none =>
    rw [hCall] at hCause
    cases hCause
  | some call =>
    obtain ⟨kind, ruleId, point⟩ := call
    rw [hCall] at hCause
    cases kind with
    | handleUnexpectedClose owner =>
      obtain rfl := Option.some.inj hCause
      cases point with
      | dispose held stage next =>
        obtain rfl := hDisciplined i _ owner hCall rfl held rfl
        apply spares_resumeDispose
        rintro rfl
        rw [closesOwnRuntime, hCall] at hGuard
        exact noOtherRuntime_iff.mp hGuard
      | updateClosed message =>
        cases answer with
        | updated rule => exact (OnlyRuntime.refl _ service).spares_settle i _ _
        | failed error => exact (OnlyRuntime.refl _ service).spares_settle i _ _
        | _ => exact .refl _ service
      | _ => exact .refl _ service
    | startRule =>
      cases point with
      | updateStarted rule started =>
        obtain rfl := Option.some.inj hCause
        have hOwn := hConsistent.ownRuntime hCall rfl rfl
        cases answer with
        | updated row => exact spares_handOver i hOwn row
        | failed error => exact spares_startUpdateFailed i hOwn error
        | _ => exact .refl _ service
      | dispose held stage next =>
        cases next with
        | handleUnexpectedClose message =>
          obtain rfl := Option.some.inj hCause
          have hFree := hConsistent.free hCall trivial (fun _ => not_false) rfl
          apply spares_resumeDispose
          intro _ other hGet
          rw [hFree] at hGet
          cases hGet
        | _ => cases hCause
      | _ => cases hCause
    | stopRule => cases hCause
    | shutdown => cases hCause

end PortForwardSessionService

open PortForwardSessionService

/-- In every run whose events and their handlers find no other runtime of the rule registered. -/
theorem runtimes_are_isolated {service : PortForwardSessionService}
    (h : portForwardService.ReachableWhile (fun service event => service.closesOwnRuntime event = true) service)
    {event : ServiceEvent} (hGuard : service.closesOwnRuntime event = true) : service.IsolatesRuntimes event := by
  have hInvariant : service.Consistent [] ∧ service.Disciplined := by
    apply h.invariant
    · rintro _ rfl
      have hStart : portForwardService.Reachable newService := .start rfl
      exact ⟨consistent_of_reachable hStart, fun i call id hCall => absurd hCall nofun⟩
    · rintro service event ⟨hConsistent, hDisciplined⟩ hGuard
      exact ⟨hConsistent.step event, hDisciplined.step hGuard⟩
  obtain ⟨hConsistent, hDisciplined⟩ := hInvariant
  intro id hCause
  cases event with
  | clientError owner message =>
    obtain rfl := Option.some.inj hCause
    rw [stepService, clientError]
    exact spares_clientEvent message _ hGuard
  | clientClose owner =>
    obtain rfl := Option.some.inj hCause
    rw [stepService, clientClose]
    apply (onlyRuntime_modifyRuntime service owner _).spares_trans
    apply spares_clientEvent
    rw [handlersOwn_endClient]
    exact hGuard
  | resume i answer => exact spares_resume hConsistent hDisciplined hGuard hCause
  | _ => cases hCause

def tunnelRule : PortForwardRule := ⟨.«local», some ['l'], some 8080, none, none, some ['w'], some 80⟩

def startEventsOf (i : Nat) : List ServiceEvent :=
  [.startRule ['r'], .resume i (.rule (some tunnelRule)), .resume i .done, .resume i (.opened .ready),
    .resume i .done, .resume i (.updated tunnelRule)]

def startedAndStopped : List ServiceEvent :=
  startEventsOf 0 ++ [.stopRule ['r'], .resume 1 (.rule (some tunnelRule)), .resume 1 .done,
    .resume 1 (.updated tunnelRule)]

def restarted : PortForwardSessionService := portForwardService.run newService (startedAndStopped ++ startEventsOf 2)

def restartEvents : List ServiceEvent := startedAndStopped ++ [.clientClose 0] ++ startEventsOf 3

theorem restart_runs : restarted.activeRules.get? ['r'] = some 1 ∧ restarted.causedBy (.clientClose 0) = some 0 ∧
      (stepService restarted (.clientClose 0)).activeRules.get? ['r'] = none ∧
      portForwardService.meets closesOwnRuntime newService restartEvents = true ∧
      (portForwardService.run newService restartEvents).activeRules.get? ['r'] = some 1 ∧
      (portForwardService.run newService restartEvents).closesOwnRuntime (.clientClose 1) = true := by
  decide

theorem late_close_removes_next_runtime : portForwardService.Reachable restarted ∧ ¬restarted.IsolatesRuntimes (.clientClose 0) := by
  obtain ⟨hActive, hCause, hRemoved, -⟩ := restart_runs
  constructor
  · have hStart : portForwardService.Reachable newService := .start rfl
    exact hStart.run _
  · intro hIsolates
    have hKept := (hIsolates 0 hCause).registered ['r'] 1 Nat.one_ne_zero hActive
    rw [hRemoved] at hKept
    cases hKept

theorem closed_client_is_isolated : (portForwardService.run newService restartEvents).activeRules.get? ['r'] = some 1 ∧
      (portForwardService.run newService restartEvents).IsolatesRuntimes (.clientClose 1) := by
  obtain ⟨-, -, -, hMeets, hActive, hGuard⟩ := restart_runs
  have hStart : portForwardService.ReachableWhile (fun service event => service.closesOwnRuntime event = true)
      newService := .start rfl
  exact ⟨hActive, runtimes_are_isolated (hStart.run hMeets) hGuard⟩

end PortForward
