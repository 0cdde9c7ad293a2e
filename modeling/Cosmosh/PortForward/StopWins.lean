import Cosmosh.PortForward.RuntimeOwnership

/-! # Whether a stop wins

A stop looks at the registry once, and a start that still connects is not in it.
-/

namespace PortForward

open Library

namespace PortForwardSessionService

def Completed (service : PortForwardSessionService) (i : Nat) : Prop :=
  ∃ (call : Call) (result : CallResult), service.calls[i]? = some call ∧ call.point = .settled result

structure Stopped (service : PortForwardSessionService) (ruleId : Text) : Prop where
  unregistered : service.activeRules.get? ruleId = none
  inactive : service.isRuleActive ruleId = true → ∃ (i : Nat) (call : Call),
    service.calls[i]? = some call ∧ call.Starts ruleId
  closed : ∀ (id : Nat) (runtime : PortForwardRuntimeState), service.runtimes[id]? = some runtime →
    runtime.ruleId = ruleId → runtime.isOpen = true → ∃ (i : Nat) (call : Call),
      service.calls[i]? = some call ∧ call.point.Holds id

def StopWins (service : PortForwardSessionService) : Prop :=
  ∀ (ruleId : Text) (p q : Nat) (start stop : Call),
    service.calls[p]? = some start → start.kind = .startRule → start.ruleId = ruleId →
    service.calls[q]? = some stop → stop.kind = .stopRule → stop.ruleId = ruleId →
    p < q → service.Completed p → service.Completed q →
    (∀ (later : Nat) (other : Call), service.calls[later]? = some other → other.kind = .startRule →
      other.ruleId = ruleId → later < q) →
    service.Stopped ruleId

def laterStopLookedUp (service : PortForwardSessionService) (i : Nat) (ruleId : Text) : Bool :=
  (service.calls.drop (i + 1)).any fun call =>
    call.kind = .stopRule && call.ruleId = ruleId && call.point ≠ .findRule

def losesNoStop (service : PortForwardSessionService) : ServiceEvent → Bool
  | .resume i answer =>
    match service.calls[i]? with
    | none => true
    | some call =>
      match call.kind, call.point, answer with
      | .startRule, .startForward _ _ _, .done => !service.laterStopLookedUp i call.ruleId
      | .stopRule, .findRule, .rule none => service.activeRules.get? call.ruleId = none
      | .stopRule, .findRule, .failed _ => service.activeRules.get? call.ruleId = none
      | _, _, _ => true
  | _ => true

variable {i : Nat}

theorem mem_of_laterStopLookedUp {service : PortForwardSessionService} {q : Nat} {ruleId : Text} {stop : Call}
    (hStop : service.calls[q]? = some stop) (hKind : stop.kind = .stopRule) (hRule : stop.ruleId = ruleId)
    (hLooked : stop.point ≠ .findRule) (hLater : i < q) : service.laterStopLookedUp i ruleId = true := by
  refine List.any_eq_true.mpr ⟨stop, ?_, by simp [hKind, hRule, hLooked]⟩
  have hDropped : (service.calls.drop (i + 1))[q - (i + 1)]? = some stop := by
    rw [List.getElem?_drop, show i + 1 + (q - (i + 1)) = q by omega, hStop]
  exact List.mem_of_getElem? hDropped

def Heeds (service : PortForwardSessionService) (ruleId : Text) : Prop :=
  ∀ id, service.activeRules.get? ruleId = some id → ∀ (q : Nat) (stop : Call), service.calls[q]? = some stop →
    stop.kind = .stopRule → stop.ruleId = ruleId → stop.point ≠ .findRule →
      ∃ (p : Nat) (start : Call), service.calls[p]? = some start ∧ start.kind = .startRule ∧
        start.ruleId = ruleId ∧ q < p

structure Quiet (ruleId : Text) (service service' : PortForwardSessionService) : Prop where
  shrinks : ∀ id, service'.activeRules.get? ruleId = some id → service.activeRules.get? ruleId = some id
  starts : ∀ (p : Nat) (start : Call), service.calls[p]? = some start → start.kind = .startRule →
    ∃ start' : Call, service'.calls[p]? = some start' ∧ start'.kind = .startRule ∧ start'.ruleId = start.ruleId
  looks : ∀ (q : Nat) (stop : Call), service'.calls[q]? = some stop → stop.kind = .stopRule → stop.ruleId = ruleId →
    stop.point ≠ .findRule → ∃ stop' : Call, service.calls[q]? = some stop' ∧ stop'.kind = .stopRule ∧
      stop'.ruleId = ruleId ∧ stop'.point ≠ .findRule

variable {ruleId : Text} {service : PortForwardSessionService}

theorem Quiet.trans {first second third : PortForwardSessionService} (h : Quiet ruleId first second)
    (h' : Quiet ruleId second third) : Quiet ruleId first third := by
  constructor
  · exact fun id hGet => h.shrinks id (h'.shrinks id hGet)
  · intro p start hStart hKind
    obtain ⟨start', hStart', hKind', hRule'⟩ := h.starts p start hStart hKind
    obtain ⟨last, hLast, hLastKind, hLastRule⟩ := h'.starts p start' hStart' hKind'
    exact ⟨last, hLast, hLastKind, hLastRule.trans hRule'⟩
  · intro q stop hStop hKind hRule hLooked
    obtain ⟨stop', hStop', hKind', hRule', hLooked'⟩ := h'.looks q stop hStop hKind hRule hLooked
    exact h.looks q stop' hStop' hKind' hRule' hLooked'

variable {service' : PortForwardSessionService}

theorem quiet_of_same (hActive : service'.activeRules = service.activeRules) (hCalls : service'.calls = service.calls) :
    Quiet ruleId service service' := by
  constructor
  · rw [hActive]
    exact fun _ => id
  · intro p start hStart hKind
    exact ⟨start, by rw [hCalls, hStart], hKind, rfl⟩
  · intro q stop hStop hKind hRule hLooked
    rw [hCalls] at hStop
    exact ⟨stop, hStop, hKind, hRule, hLooked⟩

theorem Heeds.quiet (h : service.Heeds ruleId) (hQuiet : Quiet ruleId service service') : service'.Heeds ruleId := by
  intro id hGet q stop hStop hKind hRule hLooked
  obtain ⟨stop', hStop', hKind', hRule', hLooked'⟩ := hQuiet.looks q stop hStop hKind hRule hLooked
  obtain ⟨p, start, hStart, hStartKind, hStartRule, hLess⟩ := h id (hQuiet.shrinks id hGet) q stop' hStop' hKind' hRule' hLooked'
  obtain ⟨start', hStart', hStartKind', hStartRule'⟩ := hQuiet.starts p start hStart hStartKind
  exact ⟨p, start', hStart', hStartKind', hStartRule'.trans hStartRule, hLess⟩

theorem quiet_delete (service : PortForwardSessionService) (ruleId other : Text) :
    Quiet ruleId service { service with activeRules := service.activeRules.delete other } := by
  constructor
  · intro id hGet
    rw [JsMap.get?_delete] at hGet
    split at hGet
    · cases hGet
    · exact hGet
  · exact fun p start hStart hKind => ⟨start, hStart, hKind, rfl⟩
  · exact fun q stop hStop hKind hRule hLooked => ⟨stop, hStop, hKind, hRule, hLooked⟩

def Call.Quiet (call : Call) (ruleId : Text) : Prop := call.ruleId = ruleId → call.kind = .stopRule → call.point ≠ .findRule

variable {call : Call}

theorem quiet_moveTo (hCall : service.calls[i]? = some call) (hQuiet : Call.Quiet call ruleId) (point : Point) :
    Quiet ruleId service (service.moveTo i call point) := by
  constructor
  · exact fun _ => id
  · intro p start hStart hKind
    rw [getElem?_moveTo hCall]
    split
    · rename_i hId
      subst hId
      obtain rfl := Option.some.inj (hCall.symm.trans hStart)
      exact ⟨_, rfl, hKind, rfl⟩
    · exact ⟨start, hStart, hKind, rfl⟩
  · intro q stop hStop hKind hRule hLooked
    rw [getElem?_moveTo hCall] at hStop
    split at hStop
    · rename_i hId
      subst hId
      cases hStop
      exact ⟨call, hCall, hKind, hRule, hQuiet hRule hKind⟩
    · exact ⟨stop, hStop, hKind, hRule, hLooked⟩

theorem quiet_settle (hCall : service.calls[i]? = some call) (hQuiet : Call.Quiet call ruleId) (result : CallResult) :
    Quiet ruleId service (service.settle i call result) := (quiet_moveTo hCall hQuiet _).trans (quiet_of_same rfl rfl)

theorem quiet_begin (service : PortForwardSessionService) (hCall : call.kind = .stopRule → call.point = .findRule) :
    Quiet ruleId service (service.begin call) := by
  constructor
  · exact fun _ => id
  · intro p start hStart hKind
    exact ⟨start, getElem?_begin_of_some hStart, hKind, rfl⟩
  · intro q stop hStop hKind hRule hLooked
    rw [getElem?_begin] at hStop
    split at hStop
    · cases hStop
      exact absurd (hCall hKind) hLooked
    · exact ⟨stop, hStop, hKind, hRule, hLooked⟩

theorem OnlyRuntime.quiet {id : Nat} (h : OnlyRuntime id service service') : Quiet ruleId service service' :=
  quiet_of_same h.activeRules h.calls

theorem quiet_write (service : PortForwardSessionService) (entry : RowWrite) : Quiet ruleId service (service.write entry) :=
  quiet_of_same rfl rfl

theorem quiet_afterDispose {outcome : PortForwardSessionService × DisposeProgress} {id : Nat}
    (hOnly : OnlyRuntime id service outcome.1) (hCall : service.calls[i]? = some call) (hQuiet : Call.Quiet call ruleId) (next : AfterDispose) :
    Quiet ruleId service (afterDispose i call id next outcome) := by
  replace hCall : outcome.1.calls[i]? = some call := by
    rw [hOnly.calls, hCall]
  apply hOnly.quiet.trans
  obtain ⟨disposing, progress⟩ := outcome
  have hWrites : ∀ entry point, Quiet ruleId disposing ((disposing.write entry).moveTo i call point) :=
    fun entry point => (quiet_moveTo hCall hQuiet point).trans (quiet_write _ entry)
  have hSettles : ∀ result, Quiet ruleId disposing (disposing.settle i call result) := quiet_settle hCall hQuiet
  cases progress with
  | waiting stage => exact quiet_moveTo hCall hQuiet _
  | completed =>
    cases next with
    | startFailed message => exact hWrites _ _
    | startThrows error => exact hSettles _
    | stopRule => exact hWrites _ _
    | handleUnexpectedClose message => exact hWrites _ _
    | shutdown => exact hSettles _
  | rejected error =>
    cases next with
    | startFailed message => exact hSettles _
    | startThrows error => exact hSettles _
    | stopRule => exact hSettles _
    | handleUnexpectedClose message => exact hSettles _
    | shutdown => exact hSettles _

section

variable (hCall : service.calls[i]? = some call) (hQuiet : Call.Quiet call ruleId)
include hCall hQuiet

theorem quiet_disposeRuntimeState (id : Nat) (next : AfterDispose) : Quiet ruleId service (service.disposeRuntimeState i call id next) :=
  quiet_afterDispose (onlyRuntime_beginDispose service id) hCall hQuiet next

theorem quiet_handleUnexpectedClose (message : Text) : Quiet ruleId service (service.handleUnexpectedClose i call message) := by
  rw [PortForwardSessionService.handleUnexpectedClose]
  split
  · exact quiet_settle hCall hQuiet _
  · rename_i id hGet
    let failed := service.modifyRuntime id fun runtime => { runtime with lastError := some message }
    have hFailed : Quiet ruleId service failed := (onlyRuntime_modifyRuntime service id _).quiet
    have hRemoved := hFailed.trans (quiet_delete failed ruleId call.ruleId)
    have hRemovedCall : { failed with activeRules := failed.activeRules.delete call.ruleId }.calls[i]? = some call := hCall
    exact hRemoved.trans (quiet_disposeRuntimeState hRemovedCall hQuiet id _)

theorem quiet_clientReady (rule : PortForwardRule) : Quiet ruleId service (service.clientReady i call rule) := by
  let added := { service with runtimes := service.runtimes ++ [newRuntime call.ruleId] }
  have hAdded : Quiet ruleId service added := quiet_of_same rfl rfl
  have hAddedCall : added.calls[i]? = some call := hCall
  rw [PortForwardSessionService.clientReady]
  split
  · exact hAdded.trans (quiet_disposeRuntimeState hAddedCall hQuiet _ _)
  · let begun := added.modifyRuntime service.runtimes.length (beginForward rule.type)
    have hBegun : Quiet ruleId added begun := (onlyRuntime_modifyRuntime added _ _).quiet
    have hBegunCall : begun.calls[i]? = some call := hCall
    exact hAdded.trans (hBegun.trans (quiet_moveTo hBegunCall hQuiet _))

theorem quiet_handOver (id : Nat) (updatedRule : PortForwardRule) : Quiet ruleId service (service.handOver i call id updatedRule) := by
  let handed := service.modifyRuntime id fun runtime =>
    { runtime with client := { runtime.client with handlers := some call.ruleId, monitored := false } }
  have hHanded : Quiet ruleId service handed := (onlyRuntime_modifyRuntime service id _).quiet
  have hHandedCall : handed.calls[i]? = some call := hCall
  rw [PortForwardSessionService.handOver]
  split
  · exact hHanded.trans (quiet_handleUnexpectedClose hHandedCall hQuiet _)
  · exact hHanded.trans (quiet_settle hHandedCall hQuiet _)

end

variable {answer : Answer}

theorem quiet_resumeStart (hCall : service.calls[i]? = some call) (hKind : call.kind = .startRule)
    (hAnswer : ∀ rule id endpoint, call.point = .startForward rule id endpoint → answer ≠ .done) :
    Quiet ruleId service (service.resumeStart i call call.point answer) := by
  have hQuiet : Call.Quiet call ruleId := by
    intro _ hStop
    rw [hKind] at hStop
    cases hStop
  have hSame : Quiet ruleId service service := quiet_of_same rfl rfl
  obtain ⟨kind, id, point⟩ := call
  cases point with
  | findRule =>
    cases answer with
    | rule found =>
      cases found with
      | none => exact quiet_settle hCall hQuiet _
      | some rule => exact quiet_moveTo hCall hQuiet _
    | failed error => exact quiet_settle hCall hQuiet _
    | _ => exact hSame
  | trustedKeys rule =>
    cases answer with
    | done => exact quiet_moveTo hCall hQuiet _
    | failed error => exact quiet_settle hCall hQuiet _
    | _ => exact hSame
  | openSshClient rule =>
    cases answer with
    | opened result =>
      cases result with
      | ready => exact quiet_clientReady hCall hQuiet rule
      | hostUntrusted fingerprint => exact quiet_settle hCall hQuiet _
      | failed message => exact (quiet_moveTo hCall hQuiet _).trans (quiet_write _ _)
    | failed error => exact quiet_settle hCall hQuiet _
    | _ => exact hSame
  | startForward rule runtime endpoint =>
    cases answer with
    | done => exact absurd rfl (hAnswer rule runtime endpoint rfl)
    | failed error =>
      let closed := service.modifyRuntime runtime .closeServer
      have hClosed : Quiet ruleId service closed := (onlyRuntime_modifyRuntime service runtime _).quiet
      have hClosedCall : closed.calls[i]? = some ⟨kind, id, .startForward rule runtime endpoint⟩ := hCall
      exact hClosed.trans (quiet_disposeRuntimeState hClosedCall hQuiet runtime _)
    | _ => exact hSame
  | persistStartFailure message =>
    cases answer with
    | done => exact quiet_settle hCall hQuiet _
    | failed error => exact quiet_settle hCall hQuiet _
    | _ => exact hSame
  | updateStarted rule runtime =>
    cases answer with
    | updated row => exact quiet_handOver hCall hQuiet runtime row
    | failed error =>
      let removed := { service with activeRules := service.activeRules.delete id }
      have hRemovedCall : removed.calls[i]? = some ⟨kind, id, .updateStarted rule runtime⟩ := hCall
      exact (quiet_delete service ruleId id).trans (quiet_disposeRuntimeState hRemovedCall hQuiet runtime _)
    | _ => exact hSame
  | _ => exact hSame

section

variable (hCall : service.calls[i]? = some call) (hQuiet : Call.Quiet call ruleId)
include hCall hQuiet

theorem quiet_resumeStop (answer : Answer) : Quiet ruleId service (service.resumeStop i call call.point answer) := by
  have hSame : Quiet ruleId service service := quiet_of_same rfl rfl
  obtain ⟨kind, id, point⟩ := call
  cases point with
  | findRule =>
    cases answer with
    | rule found =>
      cases found with
      | none => exact quiet_settle hCall hQuiet _
      | some rule =>
        simp only [PortForwardSessionService.resumeStop]
        split
        · exact (quiet_moveTo hCall hQuiet _).trans (quiet_write _ _)
        · let removed := { service with activeRules := service.activeRules.delete id }
          have hRemovedCall : removed.calls[i]? = some ⟨kind, id, .findRule⟩ := hCall
          exact (quiet_delete service ruleId id).trans (quiet_disposeRuntimeState hRemovedCall hQuiet _ _)
    | failed error => exact quiet_settle hCall hQuiet _
    | _ => exact hSame
  | updateStopped =>
    cases answer with
    | updated rule => exact quiet_settle hCall hQuiet _
    | failed error => exact quiet_settle hCall hQuiet _
    | _ => exact hSame
  | _ => exact hSame

theorem quiet_resumeDispose (id : Nat) (stage : DisposeStage) (next : AfterDispose) (answer : Answer) :
    Quiet ruleId service (service.resumeDispose i call id stage next answer) := by
  cases answer with
  | done => exact quiet_afterDispose (onlyRuntime_continueDispose service id stage) hCall hQuiet next
  | _ => exact quiet_of_same rfl rfl

theorem quiet_resumeUpdateClosed (message : Text) (answer : Answer) :
    Quiet ruleId service (service.resumeUpdateClosed i call message answer) := by
  cases answer with
  | updated rule => exact quiet_settle hCall hQuiet _
  | failed error => exact quiet_settle hCall hQuiet _
  | _ => exact quiet_of_same rfl rfl

end

section

variable (service : PortForwardSessionService)

theorem quiet_clientEvent (id : Nat) (message : Text) (change : Client → Client) :
    Quiet ruleId service (service.clientEvent id message change) := by
  rw [PortForwardSessionService.clientEvent]
  split
  · exact quiet_of_same rfl rfl
  · rename_i runtime hRuntime
    let seen := service.modifyRuntime id fun runtime =>
      if runtime.client.monitored then { runtime with client := change runtime.client } else runtime
    have hSeen : Quiet ruleId service seen := (onlyRuntime_modifyRuntime service id _).quiet
    split
    · exact hSeen
    · rename_i handlerRule hHandlers
      let call : Call := ⟨.handleUnexpectedClose id, handlerRule, .running⟩
      have hBegun : Quiet ruleId seen (seen.begin call) := quiet_begin seen (by rintro ⟨⟩)
      have hCall : (seen.begin call).calls[service.calls.length]? = some call := by
        rw [getElem?_begin]
        exact if_pos rfl
      have hQuiet : Call.Quiet call ruleId := by
        intro _ hStop
        cases hStop
      exact hSeen.trans (hBegun.trans (quiet_handleUnexpectedClose hCall hQuiet message))

theorem quiet_shutdownRuntime (entry : Text × Nat) : Quiet ruleId service (shutdownRuntime service entry) := by
  let call : Call := ⟨.shutdown, entry.1, .running⟩
  have hBegun : Quiet ruleId service (service.begin call) := quiet_begin service nofun
  have hCall : (service.begin call).calls[service.calls.length]? = some call := by
    rw [getElem?_begin]
    exact if_pos rfl
  have hQuiet : Call.Quiet call ruleId := by
    intro _ hStop
    cases hStop
  exact hBegun.trans (quiet_disposeRuntimeState hCall hQuiet _ _)

theorem quiet_stop : Quiet ruleId service service.stop := by
  have hEmpty : Quiet ruleId service { service with activeRules := .empty } := by
    constructor
    · exact fun _ hGet => nomatch hGet
    · exact fun p start hStart hKind => ⟨start, hStart, hKind, rfl⟩
    · exact fun q stop hStop hKind hRule hLooked => ⟨stop, hStop, hKind, hRule, hLooked⟩
  have hFold : ∀ (entries : List (Text × Nat)) (first : PortForwardSessionService),
      Quiet ruleId first (entries.foldl shutdownRuntime first) := by
    intro entries
    induction entries with
    | nil => exact fun _ => quiet_of_same rfl rfl
    | cons entry entries ih => exact fun first => (quiet_shutdownRuntime first entry).trans (ih _)
  exact hEmpty.trans (hFold _ _)

end

theorem activeRules_afterDispose (i : Nat) (call : Call) (id : Nat) (next : AfterDispose)
    (outcome : PortForwardSessionService × DisposeProgress) : (afterDispose i call id next outcome).activeRules = outcome.1.activeRules := by
  obtain ⟨disposing, progress⟩ := outcome
  cases progress with
  | waiting stage => rfl
  | completed => cases next <;> rfl
  | rejected error => cases next <;> rfl

theorem heeds_of_none (h : service.activeRules.get? ruleId = none) : service.Heeds ruleId := by
  intro id hGet
  rw [h] at hGet
  cases hGet

theorem none_after_lookup (i : Nat) (rule : PortForwardRule) :
    (service.resumeStop i call .findRule (.rule (some rule))).activeRules.get? call.ruleId = none := by
  simp only [PortForwardSessionService.resumeStop]
  split
  · assumption
  · rw [PortForwardSessionService.disposeRuntimeState, activeRules_afterDispose,
      (onlyRuntime_beginDispose _ _).activeRules, JsMap.get?_delete, if_pos rfl]

theorem Heeds.resumeStop (h : service.Heeds ruleId) (hCall : service.calls[i]? = some call) (hKind : call.kind = .stopRule)
    (hGuard : service.losesNoStop (.resume i answer) = true) : (service.resumeStop i call call.point answer).Heeds ruleId := by
  by_cases hLooks : call.ruleId = ruleId ∧ call.point = .findRule
  · obtain ⟨rfl, hPoint⟩ := hLooks
    rw [losesNoStop, hCall] at hGuard
    simp only [hKind, hPoint] at hGuard
    rw [hPoint]
    cases answer with
    | rule found =>
      cases found with
      | none => exact heeds_of_none (of_decide_eq_true hGuard)
      | some rule => exact heeds_of_none (none_after_lookup i rule)
    | failed error => exact heeds_of_none (of_decide_eq_true hGuard)
    | _ => exact h
  · exact h.quiet (quiet_resumeStop hCall (fun hRule _ hPoint => hLooks ⟨hRule, hPoint⟩) answer)

section

variable (h : service.Heeds ruleId) (hConsistent : service.Consistent [])
include h hConsistent

theorem Heeds.registerRuntime (hCall : service.calls[i]? = some call) (hKind : call.kind = .startRule) {rule : PortForwardRule}
    {id : Nat} {endpoint : Endpoint} (hPoint : call.point = .startForward rule id endpoint)
    (hGuard : service.laterStopLookedUp i call.ruleId = false) : (service.registerRuntime i call rule id endpoint).Heeds ruleId := by
  have hNone : service.activeRules.get? call.ruleId = none := by
    refine hConsistent.free hCall ?_ (fun other hOther => ?_) hKind
    · rw [hPoint]
      trivial
    · rw [hPoint] at hOther
      exact hOther
  have hGet : ∀ other, (service.registerRuntime i call rule id endpoint).activeRules.get? other =
      if other = call.ruleId then some id else service.activeRules.get? other := JsMap.get?_set_of_new service.activeRules id hNone
  have hCallQuiet : ∀ other, Call.Quiet call other := by
    intro other _ hStop
    rw [hKind] at hStop
    cases hStop
  have hMoved : Quiet ruleId service (service.moveTo i call (.updateStarted rule id)) := quiet_moveTo hCall (hCallQuiet ruleId) _
  by_cases hRule : ruleId = call.ruleId
  · intro _ _ q stop hStop hStopKind hStopRule hLooked
    obtain ⟨stop', hStop', hKind', hRule', hLooked'⟩ := hMoved.looks q stop hStop hStopKind hStopRule hLooked
    obtain ⟨start, hStart, hStartKind, hStartRule⟩ := hMoved.starts i call hCall hKind
    refine ⟨i, start, hStart, hStartKind, hStartRule.trans hRule.symm, ?_⟩
    have hNotLater : ¬i < q := by
      intro hLater
      have hSeen := mem_of_laterStopLookedUp hStop' hKind' (hRule'.trans hRule) hLooked' hLater
      rw [hGuard] at hSeen
      cases hSeen
    have hOther : q ≠ i := by
      rintro rfl
      obtain rfl := Option.some.inj (hCall.symm.trans hStop')
      rw [hKind] at hKind'
      cases hKind'
    omega
  · apply h.quiet
    refine ⟨?_, hMoved.starts, hMoved.looks⟩
    intro other hOther
    rw [hGet, if_neg hRule] at hOther
    exact hOther

theorem Heeds.resume (hGuard : service.losesNoStop (.resume i answer) = true) : (service.resume i answer).Heeds ruleId := by
  rw [PortForwardSessionService.resume]
  split
  · exact h
  · rename_i call hCall
    split
    · rename_i id stage next hPoint
      refine h.quiet (quiet_resumeDispose hCall (fun _ _ hFind => ?_) id stage next answer)
      rw [hPoint] at hFind
      cases hFind
    · rename_i message hPoint
      refine h.quiet (quiet_resumeUpdateClosed hCall (fun _ _ hFind => ?_) message answer)
      rw [hPoint] at hFind
      cases hFind
    · split
      · rename_i hKind
        by_cases hRegisters : (∃ rule id endpoint, call.point = .startForward rule id endpoint) ∧ answer = .done
        · obtain ⟨⟨rule, id, endpoint, hPoint⟩, rfl⟩ := hRegisters
          rw [losesNoStop, hCall] at hGuard
          simp only [hKind, hPoint, Bool.not_eq_true'] at hGuard
          rw [hPoint]
          exact h.registerRuntime hConsistent hCall hKind hPoint hGuard
        · apply h.quiet
          apply quiet_resumeStart hCall hKind
          exact fun rule id endpoint hPoint hDone => hRegisters ⟨⟨rule, id, endpoint, hPoint⟩, hDone⟩
      · rename_i hKind
        exact h.resumeStop hCall hKind hGuard
      · exact h

theorem Heeds.step {event : ServiceEvent} (hGuard : service.losesNoStop event = true) : (stepService service event).Heeds ruleId := by
  cases event with
  | startRule id =>
    apply h.quiet
    rw [stepService, PortForwardSessionService.startRule]
    split
    · exact quiet_begin service (by rintro ⟨⟩)
    · let starting := { service with startingRuleIds := service.startingRuleIds ++ [id] }
      have hStarting : Quiet ruleId service starting := quiet_of_same rfl rfl
      exact hStarting.trans (quiet_begin starting (by rintro ⟨⟩))
  | stopRule id => exact h.quiet (quiet_begin service fun _ => rfl)
  | stop => exact h.quiet (quiet_stop service)
  | resume i answer => exact h.resume hConsistent hGuard
  | disconnect id => exact h.quiet (onlyRuntime_modifyRuntime service id _).quiet
  | clientError id message =>
    rw [stepService, clientError]
    exact h.quiet (quiet_clientEvent service id message _)
  | clientClose id =>
    have hEnded : Quiet ruleId service (service.modifyRuntime id .endClient) := (onlyRuntime_modifyRuntime service id _).quiet
    rw [stepService, clientClose]
    exact h.quiet (hEnded.trans (quiet_clientEvent _ id _ _))

end

theorem Consistent.stopWins (h : service.Consistent []) (hHeeds : ∀ ruleId, service.Heeds ruleId) : service.StopWins := by
  intro ruleId p q start stop hStart hStartKind hStartRule hStop hStopKind hStopRule hLess _ hCompleted hLast
  have hNone : service.activeRules.get? ruleId = none := by
    cases hGet : service.activeRules.get? ruleId with
    | none => rfl
    | some id =>
      have hLooked : stop.point ≠ .findRule := by
        obtain ⟨known, result, hKnown, hSettled⟩ := hCompleted
        obtain rfl := Option.some.inj (hStop.symm.trans hKnown)
        rw [hSettled]
        nofun
      obtain ⟨later, other, hOther, hKind, hRule, hBefore⟩ := hHeeds ruleId id hGet q stop hStop hStopKind hStopRule hLooked
      have hAfter := hLast later other hOther hKind hRule
      omega
  constructor
  · exact hNone
  · intro hActive
    rw [isRuleActive, Bool.or_eq_true, decide_eq_true_eq] at hActive
    obtain hActive | hStarting := hActive
    · rw [JsMap.has, hNone] at hActive
      cases hActive
    · exact h.occupied ruleId hStarting
  · intro id runtime hRuntime hRule hOpen
    obtain hOwner | hHolder | hLoose := h.owned id runtime hRuntime hOpen
    · rw [hRule, hNone] at hOwner
      cases hOwner
    · exact hHolder
    · cases hLoose

end PortForwardSessionService

open PortForwardSessionService

/-- In every run that loses no stop. -/
theorem stop_wins_without_lost_stop {service : PortForwardSessionService}
    (h : portForwardService.ReachableWhile (fun service event => service.losesNoStop event = true) service) : service.StopWins := by
  have hInvariant : service.Consistent [] ∧ ∀ ruleId, service.Heeds ruleId := by
    apply h.invariant
    · rintro _ rfl
      have hStart : portForwardService.Reachable newService := .start rfl
      exact ⟨consistent_of_reachable hStart, fun ruleId => heeds_of_none rfl⟩
    · rintro service event ⟨hConsistent, hHeeds⟩ hGuard
      exact ⟨hConsistent.step event, fun ruleId => (hHeeds ruleId).step hConsistent hGuard⟩
  exact hInvariant.1.stopWins hInvariant.2

def webRule : PortForwardRule := ⟨.«local», some ['l'], some 8080, none, none, some ['w'], some 80⟩

def startEvents : List ServiceEvent :=
  [.startRule ['r'], .resume 0 (.rule (some webRule)), .resume 0 .done, .resume 0 (.opened .ready), .resume 0 .done,
    .resume 0 (.updated webRule)]

def stopEvents : List ServiceEvent := [.stopRule ['r'], .resume 1 (.rule (some webRule)), .resume 1 .done, .resume 1 (.updated webRule)]

def lostStopEvents : List ServiceEvent :=
  [.startRule ['r'], .resume 0 (.rule (some webRule)), .resume 0 .done, .stopRule ['r'],
    .resume 1 (.rule (some webRule)), .resume 1 (.updated webRule), .resume 0 (.opened .ready), .resume 0 .done,
    .resume 0 (.updated webRule)]

def lostStop : PortForwardSessionService := portForwardService.run newService lostStopEvents

theorem stop_runs : portForwardService.meets losesNoStop newService (startEvents ++ stopEvents) = true ∧
      (portForwardService.run newService (startEvents ++ stopEvents)).runtimes.map PortForwardRuntimeState.isOpen = [false] ∧
      lostStop.calls = [⟨.startRule, ['r'], .settled (.start (.success webRule 0))⟩, ⟨.stopRule, ['r'], .settled (.stop (.success webRule))⟩] ∧
      lostStop.activeRules.get? ['r'] = some 0 ∧ lostStop.runtimes.map PortForwardRuntimeState.isOpen = [true] := by
  decide

theorem lost_stop_leaves_rule_active : portForwardService.Reachable lostStop ∧ ¬lostStop.StopWins := by
  obtain ⟨-, -, hCalls, hActive, -⟩ := stop_runs
  constructor
  · have hStart : portForwardService.Reachable newService := .start rfl
    exact hStart.run lostStopEvents
  · intro hWins
    have hStart : lostStop.calls[0]? = some ⟨.startRule, ['r'], .settled (.start (.success webRule 0))⟩ := by
      rw [hCalls]
      rfl
    have hStop : lostStop.calls[1]? = some ⟨.stopRule, ['r'], .settled (.stop (.success webRule))⟩ := by
      rw [hCalls]
      rfl
    have hLast : ∀ (later : Nat) (other : Call), lostStop.calls[later]? = some other → other.kind = .startRule →
        other.ruleId = ['r'] → later < 1 := by
      intro later other hOther hKind _
      rw [hCalls] at hOther
      match later with
      | 0 => exact Nat.zero_lt_one
      | 1 =>
        cases hOther
        cases hKind
      | later + 2 => cases hOther
    have hStopped := hWins ['r'] 0 1 _ _ hStart rfl rfl hStop rfl rfl Nat.zero_lt_one ⟨_, _, hStart, rfl⟩
      ⟨_, _, hStop, rfl⟩ hLast
    rw [hStopped.unregistered] at hActive
    cases hActive

theorem stop_wins_after_start : (portForwardService.run newService (startEvents ++ stopEvents)).runtimes.map PortForwardRuntimeState.isOpen =
        [false] ∧ (portForwardService.run newService (startEvents ++ stopEvents)).StopWins := by
  obtain ⟨hMeets, hClosed, -⟩ := stop_runs
  have hStart : portForwardService.ReachableWhile (fun service event => service.losesNoStop event = true) newService := .start rfl
  exact ⟨hClosed, stop_wins_without_lost_stop (hStart.run hMeets)⟩

end PortForward
