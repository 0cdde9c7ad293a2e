import Cosmosh.PortForward.SessionService

/-! # Who owns a runtime

An open runtime is registered under its rule, or a call still holds it.
-/

namespace PortForward

open Library

variable {point : Point} {id : Nat}

namespace Point

def Holds : Point → Nat → Prop
  | .startForward _ id _, other => id = other
  | .dispose id _ _, other => id = other
  | _, _ => False

def InFlight : Point → Prop
  | .settled _ => False
  | _ => True

def Registers : Point → Nat → Prop
  | .updateStarted _ id, other => id = other
  | _, _ => False

def Idle : Point → Prop
  | .startForward _ _ _ => False
  | .updateStarted _ _ => False
  | .dispose _ _ _ => False
  | _ => True

theorem Idle.not_holds (h : point.Idle) (id : Nat) : ¬point.Holds id := by
  cases point with
  | startForward rule runtime endpoint => exact h.elim
  | dispose runtime stage next => exact h.elim
  | _ => exact not_false

theorem Idle.not_registers (h : point.Idle) (id : Nat) : ¬point.Registers id := by
  cases point with
  | updateStarted rule runtime => exact h.elim
  | _ => exact not_false

theorem Idle.not_concerned (h : point.Idle) (id : Nat) : ¬(point.Holds id ∨ point.Registers id) :=
  fun hId => hId.elim (h.not_holds id) (h.not_registers id)

theorem Holds.inFlight (h : point.Holds id) : point.InFlight := by
  cases point with
  | settled result => exact h.elim
  | _ => trivial

theorem Registers.inFlight (h : point.Registers id) : point.InFlight := by
  cases point with
  | settled result => exact h.elim
  | _ => trivial

end Point

def Call.Starts (call : Call) (ruleId : Text) : Prop := call.kind = .startRule ∧ call.ruleId = ruleId ∧ call.point.InFlight

namespace PortForwardSessionService

def Holder (service : PortForwardSessionService) (id : Nat) : Prop :=
  ∃ (i : Nat) (call : Call), service.calls[i]? = some call ∧ call.point.Holds id

def Closed (service : PortForwardSessionService) (id : Nat) : Prop := ∀ runtime, service.runtimes[id]? = some runtime → runtime.isOpen = false

def BelongsTo (service : PortForwardSessionService) (id : Nat) (ruleId : Text) : Prop :=
  ∃ runtime, service.runtimes[id]? = some runtime ∧ runtime.ruleId = ruleId

structure Consistent (service : PortForwardSessionService) (loose : List Nat) : Prop where
  registered : ∀ ruleId id, service.activeRules.get? ruleId = some id → service.BelongsTo id ruleId
  owned : ∀ id runtime, service.runtimes[id]? = some runtime → runtime.isOpen = true →
    service.activeRules.get? runtime.ruleId = some id ∨ service.Holder id ∨ id ∈ loose
  starting : ∀ (i : Nat) (call : Call), service.calls[i]? = some call → call.Starts call.ruleId →
    call.ruleId ∈ service.startingRuleIds
  occupied : ∀ ruleId ∈ service.startingRuleIds, ∃ (i : Nat) (call : Call),
    service.calls[i]? = some call ∧ call.Starts ruleId
  exclusive : ∀ (ruleId : Text) (i : Nat) (call : Call) (j : Nat) (other : Call), service.calls[i]? = some call →
    call.Starts ruleId → service.calls[j]? = some other → other.Starts ruleId → i = j
  current : ∀ (i : Nat) (call : Call), service.calls[i]? = some call → call.Starts call.ruleId →
    ∀ id, service.activeRules.get? call.ruleId = some id → call.point.Registers id
  concerned : ∀ (i : Nat) (call : Call), service.calls[i]? = some call →
    ∀ id, call.point.Holds id ∨ call.point.Registers id → service.BelongsTo id call.ruleId

variable {service : PortForwardSessionService} {loose : List Nat}

theorem getElem?_modifyRuntime (service : PortForwardSessionService) (id other : Nat)
    (change : PortForwardRuntimeState → PortForwardRuntimeState) : (service.modifyRuntime id change).runtimes[other]? =
      (service.runtimes[other]?).map fun runtime => if id = other then change runtime else runtime :=
  List.getElem?_modify change id service.runtimes other

structure OnlyRuntime (id : Nat) (service service' : PortForwardSessionService) : Prop where
  activeRules : service'.activeRules = service.activeRules
  calls : service'.calls = service.calls
  writes : service'.writes = service.writes
  others : ∀ other, other ≠ id → service'.runtimes[other]? = service.runtimes[other]?

theorem OnlyRuntime.refl (id : Nat) (service : PortForwardSessionService) : OnlyRuntime id service service := ⟨rfl, rfl, rfl, fun _ _ => rfl⟩

theorem OnlyRuntime.trans {first second third : PortForwardSessionService} (h : OnlyRuntime id first second)
    (h' : OnlyRuntime id second third) : OnlyRuntime id first third :=
  ⟨h'.activeRules.trans h.activeRules, h'.calls.trans h.calls, h'.writes.trans h.writes,
    fun other hOther => (h'.others other hOther).trans (h.others other hOther)⟩

section

variable (service : PortForwardSessionService) (id : Nat)

theorem onlyRuntime_modifyRuntime (change : PortForwardRuntimeState → PortForwardRuntimeState) :
    OnlyRuntime id service (service.modifyRuntime id change) := by
  refine ⟨rfl, rfl, rfl, fun other hOther => ?_⟩
  rw [getElem?_modifyRuntime]
  simp only [if_neg hOther.symm, Option.map_id_fun', id_eq]

theorem onlyRuntime_closeRuntimeServer : OnlyRuntime id service (service.closeRuntimeServer id).1 := by
  rw [PortForwardSessionService.closeRuntimeServer]
  split
  · exact onlyRuntime_modifyRuntime service id _
  · exact onlyRuntime_modifyRuntime service id _

theorem onlyRuntime_beginDispose : OnlyRuntime id service (service.beginDispose id).1 := by
  have hSilent := onlyRuntime_modifyRuntime service id fun runtime => { runtime with tcpConnectionListener := false }
  rw [PortForwardSessionService.beginDispose]
  split
  · exact hSilent
  · split
    · split
      · exact hSilent
      · exact hSilent
    · exact hSilent.trans (onlyRuntime_closeRuntimeServer _ id)

theorem onlyRuntime_continueDispose (stage : DisposeStage) : OnlyRuntime id service (service.continueDispose id stage).1 := by
  cases stage with
  | unforwardIn => exact onlyRuntime_closeRuntimeServer service id
  | closeServer =>
    exact (onlyRuntime_modifyRuntime service id _).trans (onlyRuntime_modifyRuntime _ id _)

end

variable {ruleId : Text}

theorem BelongsTo.modifyRuntime (h : service.BelongsTo id ruleId) {other : Nat}
    {change : PortForwardRuntimeState → PortForwardRuntimeState} (hRule : ∀ runtime, (change runtime).ruleId = runtime.ruleId) :
    (service.modifyRuntime other change).BelongsTo id ruleId := by
  obtain ⟨runtime, hRuntime, rfl⟩ := h
  refine ⟨_, by rw [getElem?_modifyRuntime, hRuntime]; rfl, ?_⟩
  split
  · exact hRule runtime
  · rfl

theorem Consistent.modifyRuntime (h : service.Consistent loose) {change : PortForwardRuntimeState → PortForwardRuntimeState}
    (hRule : ∀ runtime, (change runtime).ruleId = runtime.ruleId)
    (hOpen : ∀ runtime, (change runtime).isOpen = true → runtime.isOpen = true ∨ id ∈ loose) :
    (service.modifyRuntime id change).Consistent loose := by
  constructor
  · exact fun ruleId other hGet => (h.registered ruleId other hGet).modifyRuntime hRule
  · intro other runtime hRuntime hRuntimeOpen
    rw [getElem?_modifyRuntime, Option.map_eq_some_iff] at hRuntime
    obtain ⟨old, hOld, rfl⟩ := hRuntime
    split at hRuntimeOpen
    · rename_i hId
      subst hId
      rw [if_pos rfl, hRule]
      obtain hWas | hLoose := hOpen old hRuntimeOpen
      · exact h.owned id old hOld hWas
      · exact .inr (.inr hLoose)
    · rename_i hId
      rw [if_neg hId]
      exact h.owned other old hOld hRuntimeOpen
  · exact h.starting
  · exact h.occupied
  · exact h.exclusive
  · exact h.current
  · exact fun i call hCall other hOther => (h.concerned i call hCall other hOther).modifyRuntime hRule

theorem Consistent.weaken (h : service.Consistent loose) {loose' : List Nat} (hLoose : loose ⊆ loose') : service.Consistent loose' := by
  refine ⟨h.registered, ?_, h.starting, h.occupied, h.exclusive, h.current, h.concerned⟩
  intro id runtime hRuntime hOpen
  obtain hOwner | hHolder | hId := h.owned id runtime hRuntime hOpen
  · exact .inl hOwner
  · exact .inr (.inl hHolder)
  · exact .inr (.inr (hLoose hId))

theorem Consistent.closed (h : service.Consistent (id :: loose)) (hClosed : service.Closed id) : service.Consistent loose := by
  refine ⟨h.registered, ?_, h.starting, h.occupied, h.exclusive, h.current, h.concerned⟩
  intro other runtime hRuntime hOpen
  obtain hOwner | hHolder | hId := h.owned other runtime hRuntime hOpen
  · exact .inl hOwner
  · exact .inr (.inl hHolder)
  · obtain rfl | hId := List.mem_cons.mp hId
    · rw [hClosed runtime hRuntime] at hOpen
      cases hOpen
    · exact .inr (.inr hId)

variable {i : Nat} {call : Call}

section

variable (hCall : service.calls[i]? = some call)
include hCall

theorem getElem?_moveTo (point : Point) (j : Nat) : (service.moveTo i call point).calls[j]? =
      if i = j then some { call with point := point } else service.calls[j]? := by
  have hLength : i < service.calls.length := (List.getElem?_eq_some_iff.mp hCall).1
  rw [PortForwardSessionService.moveTo, List.getElem?_set, if_pos hLength]

theorem Starts.before_moveTo (hFlight : call.point.InFlight) {j : Nat} {other : Call}
    (hOther : (service.moveTo i call point).calls[j]? = some other) (hStarts : other.Starts ruleId) :
    ∃ old : Call, service.calls[j]? = some old ∧ old.ruleId = other.ruleId ∧ old.Starts ruleId := by
  rw [getElem?_moveTo hCall] at hOther
  split at hOther
  · rename_i hId
    subst hId
    cases hOther
    exact ⟨call, hCall, rfl, hStarts.1, hStarts.2.1, hFlight⟩
  · exact ⟨other, hOther, rfl, hStarts⟩

theorem Holder.moveTo (h : service.Holder id) (hKept : call.point.Holds id → point.Holds id ∨ id ∈ loose) :
    (service.moveTo i call point).Holder id ∨ id ∈ loose := by
  obtain ⟨j, other, hOther, hHolds⟩ := h
  by_cases hId : i = j
  · subst hId
    obtain rfl : call = other := Option.some.inj (hCall.symm.trans hOther)
    obtain hPoint | hLoose := hKept hHolds
    · refine .inl ⟨i, { call with point := point }, ?_, hPoint⟩
      rw [getElem?_moveTo hCall, if_pos rfl]
    · exact .inr hLoose
  · refine .inl ⟨j, other, ?_, hHolds⟩
    rw [getElem?_moveTo hCall, if_neg hId]
    exact hOther

end

theorem Consistent.moveTo (h : service.Consistent loose) (hCall : service.calls[i]? = some call) (hFlight : call.point.InFlight)
    (hPoint : point.InFlight) (hCurrent : call.kind = .startRule → ∀ id, service.activeRules.get? call.ruleId = some id → point.Registers id)
    (hConcerned : ∀ id, point.Holds id ∨ point.Registers id → service.BelongsTo id call.ruleId) {loose' : List Nat}
    (hHolds : ∀ id, call.point.Holds id ∨ id ∈ loose → point.Holds id ∨ id ∈ loose') : (service.moveTo i call point).Consistent loose' := by
  have hMoved : (service.moveTo i call point).calls[i]? = some { call with point := point } := by
    rw [getElem?_moveTo hCall, if_pos rfl]
  constructor
  · exact h.registered
  · intro id runtime hRuntime hOpen
    obtain hOwner | hHolder | hId := h.owned id runtime hRuntime hOpen
    · exact .inl hOwner
    · exact .inr (hHolder.moveTo hCall fun hId => hHolds id (.inl hId))
    · obtain hPoint | hLoose := hHolds id (.inr hId)
      · exact .inr (.inl ⟨i, _, hMoved, hPoint⟩)
      · exact .inr (.inr hLoose)
  · intro j other hOther hStarts
    obtain ⟨old, hOld, hRule, hStarts'⟩ := Starts.before_moveTo hCall hFlight hOther hStarts
    have hStarting := h.starting j old hOld
    rw [hRule] at hStarting
    exact hStarting hStarts'
  · intro ruleId hMem
    obtain ⟨j, other, hOther, hStarts⟩ := h.occupied ruleId hMem
    by_cases hId : i = j
    · subst hId
      obtain rfl : call = other := Option.some.inj (hCall.symm.trans hOther)
      exact ⟨i, _, hMoved, hStarts.1, hStarts.2.1, hPoint⟩
    · refine ⟨j, other, ?_, hStarts⟩
      rw [getElem?_moveTo hCall, if_neg hId]
      exact hOther
  · intro ruleId j other k third hOther hStarts hThird hStarts'
    obtain ⟨old, hOld, -, hOldStarts⟩ := Starts.before_moveTo hCall hFlight hOther hStarts
    obtain ⟨old', hOld', -, hOldStarts'⟩ := Starts.before_moveTo hCall hFlight hThird hStarts'
    exact h.exclusive ruleId j old k old' hOld hOldStarts hOld' hOldStarts'
  · intro j other hOther hStarts
    rw [getElem?_moveTo hCall] at hOther
    split at hOther
    · cases hOther
      exact hCurrent hStarts.1
    · exact h.current j other hOther hStarts
  · intro j other hOther
    rw [getElem?_moveTo hCall] at hOther
    split at hOther
    · cases hOther
      exact hConcerned
    · exact h.concerned j other hOther

theorem Consistent.settle (h : service.Consistent loose) (hCall : service.calls[i]? = some call) (hFlight : call.point.InFlight)
    (hHolds : ∀ id, call.point.Holds id → id ∈ loose) (result : CallResult) : (service.settle i call result).Consistent loose := by
  have hOld : ∀ {j : Nat} {other : Call}, (service.settle i call result).calls[j]? = some other →
      other.point.InFlight → i ≠ j ∧ service.calls[j]? = some other := by
    intro j other hOther hOtherFlight
    change (service.moveTo i call (.settled result)).calls[j]? = some other at hOther
    rw [getElem?_moveTo hCall] at hOther
    split at hOther
    · cases hOther
      exact hOtherFlight.elim
    · rename_i hId
      exact ⟨hId, hOther⟩
  constructor
  · exact h.registered
  · intro id runtime hRuntime hOpen
    obtain hOwner | hHolder | hId := h.owned id runtime hRuntime hOpen
    · exact .inl hOwner
    · exact .inr (hHolder.moveTo hCall fun hId => .inr (hHolds id hId))
    · exact .inr (.inr hId)
  · intro j other hOther hStarts
    obtain ⟨hId, hOther⟩ := hOld hOther hStarts.2.2
    have hMem := h.starting j other hOther hStarts
    simp only [PortForwardSessionService.settle]
    split
    · rename_i hKind
      refine List.mem_filter.mpr ⟨hMem, decide_eq_true ?_⟩
      intro hSame
      exact hId (h.exclusive other.ruleId i call j other hCall ⟨hKind, hSame.symm, hFlight⟩ hOther hStarts)
    · exact hMem
  · intro ruleId hMem
    have hKept : ruleId ∈ service.startingRuleIds ∧ (call.kind = .startRule → ruleId ≠ call.ruleId) := by
      simp only [PortForwardSessionService.settle] at hMem
      split at hMem
      · obtain ⟨hMem, hOther⟩ := List.mem_filter.mp hMem
        exact ⟨hMem, fun _ => of_decide_eq_true hOther⟩
      · rename_i hKind
        exact ⟨hMem, fun hStart => absurd hStart hKind⟩
    obtain ⟨j, other, hOther, hStarts⟩ := h.occupied ruleId hKept.1
    have hId : i ≠ j := by
      rintro rfl
      obtain rfl : call = other := Option.some.inj (hCall.symm.trans hOther)
      exact hKept.2 hStarts.1 hStarts.2.1.symm
    refine ⟨j, other, ?_, hStarts⟩
    change (service.moveTo i call (.settled result)).calls[j]? = some other
    rw [getElem?_moveTo hCall, if_neg hId]
    exact hOther
  · intro ruleId j other k third hOther hStarts hThird hStarts'
    obtain ⟨-, hOther⟩ := hOld hOther hStarts.2.2
    obtain ⟨-, hThird⟩ := hOld hThird hStarts'.2.2
    exact h.exclusive ruleId j other k third hOther hStarts hThird hStarts'
  · intro j other hOther hStarts
    exact h.current j other (hOld hOther hStarts.2.2).2 hStarts
  · intro j other hOther id hId
    have hOtherFlight : other.point.InFlight := hId.elim Point.Holds.inFlight Point.Registers.inFlight
    exact h.concerned j other (hOld hOther hOtherFlight).2 id hId

theorem Consistent.write (h : service.Consistent loose) (entry : RowWrite) : (service.write entry).Consistent loose :=
  ⟨h.registered, h.owned, h.starting, h.occupied, h.exclusive, h.current, h.concerned⟩

theorem getElem?_begin (service : PortForwardSessionService) (call : Call) (j : Nat) :
    (service.begin call).calls[j]? = if j = service.calls.length then some call else service.calls[j]? := by
  rw [PortForwardSessionService.begin, List.getElem?_append]
  split
  · rename_i hLess
    rw [if_neg (Nat.ne_of_lt hLess)]
  · rename_i hLess
    split
    · rename_i hLast
      rw [hLast, Nat.sub_self]
      rfl
    · rename_i hLast
      rw [List.getElem?_eq_none (by simp; omega), List.getElem?_eq_none (by omega)]

theorem getElem?_begin_of_some {other : Call} {j : Nat} (h : service.calls[j]? = some other) : (service.begin call).calls[j]? = some other := by
  have hLess : j < service.calls.length := (List.getElem?_eq_some_iff.mp h).1
  rw [getElem?_begin, if_neg (Nat.ne_of_lt hLess), h]

theorem Holder.begin (h : service.Holder id) (call : Call) : (service.begin call).Holder id := by
  obtain ⟨j, other, hOther, hHolds⟩ := h
  exact ⟨j, other, getElem?_begin_of_some hOther, hHolds⟩

theorem Consistent.begin (h : service.Consistent loose) (hStart : ¬call.Starts call.ruleId) (hIdle : call.point.Idle) :
    (service.begin call).Consistent loose := by
  have hOld : ∀ {j : Nat} {other : Call}, (service.begin call).calls[j]? = some other →
      other.Starts other.ruleId → service.calls[j]? = some other := by
    intro j other hOther hStarts
    rw [getElem?_begin] at hOther
    split at hOther
    · cases hOther
      exact absurd hStarts hStart
    · exact hOther
  constructor
  · exact h.registered
  · intro id runtime hRuntime hOpen
    obtain hOwner | hHolder | hId := h.owned id runtime hRuntime hOpen
    · exact .inl hOwner
    · exact .inr (.inl (hHolder.begin call))
    · exact .inr (.inr hId)
  · exact fun j other hOther hStarts => h.starting j other (hOld hOther hStarts) hStarts
  · intro ruleId hMem
    obtain ⟨j, other, hOther, hStarts⟩ := h.occupied ruleId hMem
    exact ⟨j, other, getElem?_begin_of_some hOther, hStarts⟩
  · intro ruleId j other k third hOther hStarts hThird hStarts'
    have hOther' := hOld hOther ⟨hStarts.1, rfl, hStarts.2.2⟩
    have hThird' := hOld hThird ⟨hStarts'.1, rfl, hStarts'.2.2⟩
    exact h.exclusive ruleId j other k third hOther' hStarts hThird' hStarts'
  · exact fun j other hOther hStarts => h.current j other (hOld hOther hStarts) hStarts
  · intro j other hOther id hId
    rw [getElem?_begin] at hOther
    split at hOther
    · cases hOther
      exact absurd hId (hIdle.not_concerned id)
    · exact h.concerned j other hOther id hId

theorem Consistent.startRule (h : service.Consistent loose) (ruleId : Text) : (service.startRule ruleId).Consistent loose := by
  rw [PortForwardSessionService.startRule]
  split
  · exact h.begin (fun hStarts => hStarts.2.2) trivial
  · rename_i hInactive
    rw [isRuleActive, Bool.or_eq_true, not_or, Bool.not_eq_true, JsMap.has_eq_false_iff, decide_eq_true_eq] at hInactive
    obtain ⟨hNone, hFree⟩ := hInactive
    let call : Call := ⟨.startRule, ruleId, .findRule⟩
    let starting := { service with startingRuleIds := service.startingRuleIds ++ [ruleId] }
    have hLast : (starting.begin call).calls[service.calls.length]? = some call := by
      rw [getElem?_begin]
      exact if_pos rfl
    have hOld : ∀ {j : Nat} {other : Call}, (starting.begin call).calls[j]? = some other →
        j = service.calls.length ∧ other = call ∨ service.calls[j]? = some other := by
      intro j other hOther
      rw [getElem?_begin] at hOther
      split at hOther
      · rename_i hLength
        cases hOther
        exact .inl ⟨hLength, rfl⟩
      · exact .inr hOther
    have hOnly : ∀ {j : Nat} {other : Call}, service.calls[j]? = some other → ¬other.Starts ruleId := by
      intro j other hOther hStarts
      obtain ⟨hKind, rfl, hFlight⟩ := hStarts
      exact hFree (h.starting j other hOther ⟨hKind, rfl, hFlight⟩)
    constructor
    · exact h.registered
    · intro id runtime hRuntime hOpen
      obtain hOwner | hHolder | hId := h.owned id runtime hRuntime hOpen
      · exact .inl hOwner
      · have hStartingHolder : starting.Holder id := hHolder
        exact .inr (.inl (hStartingHolder.begin call))
      · exact .inr (.inr hId)
    · intro j other hOther hStarts
      obtain ⟨-, rfl⟩ | hOther := hOld hOther
      · exact List.mem_append_right _ (List.mem_singleton.mpr rfl)
      · exact List.mem_append_left _ (h.starting j other hOther hStarts)
    · intro other hMem
      obtain hMem | hMem := List.mem_append.mp hMem
      · obtain ⟨j, found, hFound, hStarts⟩ := h.occupied other hMem
        have hStarting : starting.calls[j]? = some found := hFound
        exact ⟨j, found, getElem?_begin_of_some hStarting, hStarts⟩
      · obtain rfl := List.mem_singleton.mp hMem
        exact ⟨service.calls.length, call, hLast, rfl, rfl, trivial⟩
    · intro other j first k second hFirst hStarts hSecond hStarts'
      obtain ⟨hj, rfl⟩ | hFirst := hOld hFirst
      · obtain ⟨hk, -⟩ | hSecond := hOld hSecond
        · rw [hj, hk]
        · obtain rfl : ruleId = other := hStarts.2.1
          exact absurd hStarts' (hOnly hSecond)
      · obtain ⟨-, rfl⟩ | hSecond := hOld hSecond
        · obtain rfl : ruleId = other := hStarts'.2.1
          exact absurd hStarts (hOnly hFirst)
        · exact h.exclusive other j first k second hFirst hStarts hSecond hStarts'
    · intro j other hOther hStarts
      obtain ⟨-, rfl⟩ | hOther := hOld hOther
      · exact fun id hGet => absurd (hNone.symm.trans hGet) nofun
      · exact h.current j other hOther hStarts
    · intro j other hOther id hId
      obtain ⟨-, rfl⟩ | hOther := hOld hOther
      · exact (hId.elim False.elim False.elim)
      · exact h.concerned j other hOther id hId

def DisposeProgress.Ends : DisposeProgress → Prop
  | .waiting _ => False
  | _ => True

structure Disposes (service : PortForwardSessionService) (id : Nat) (loose : List Nat)
    (outcome : PortForwardSessionService × DisposeProgress) : Prop where
  consistent : outcome.1.Consistent (id :: loose)
  only : OnlyRuntime id service outcome.1
  belongs : ∀ other ruleId, service.BelongsTo other ruleId → outcome.1.BelongsTo other ruleId
  ends : outcome.2.Ends → outcome.1.Closed id

theorem isOpen_endClient {runtime : PortForwardRuntimeState} (h : runtime.endClient.isOpen = true) : runtime.isOpen = true := by
  have hServer : runtime.localServer = some .listening := of_decide_eq_true h
  simp [PortForwardRuntimeState.isOpen, hServer]

theorem isOpen_closeServer {runtime : PortForwardRuntimeState} (h : runtime.closeServer.isOpen = true) : runtime.isOpen = true := by
  cases hServer : runtime.localServer with
  | none => simpa [PortForwardRuntimeState.isOpen, PortForwardRuntimeState.closeServer, hServer] using h
  | some state =>
    have hConnected : runtime.client.connected = true := by
      simpa [PortForwardRuntimeState.isOpen, PortForwardRuntimeState.closeServer, hServer] using h
    rw [PortForwardRuntimeState.isOpen, hConnected, Bool.true_or]

theorem Consistent.endClient (h : service.Consistent loose) (id : Nat) : (service.modifyRuntime id .endClient).Consistent loose :=
  h.modifyRuntime (fun _ => rfl) fun _ hOpen => .inl (isOpen_endClient hOpen)

theorem Consistent.closeServer (h : service.Consistent loose) (id : Nat) : (service.modifyRuntime id .closeServer).Consistent loose :=
  h.modifyRuntime (fun _ => rfl) fun _ hOpen => .inl (isOpen_closeServer hOpen)

section

variable (h : service.Consistent (id :: loose))
include h

theorem Consistent.closeRuntimeServer : service.Disposes id loose (service.closeRuntimeServer id) := by
  rw [PortForwardSessionService.closeRuntimeServer]
  split
  · exact ⟨h.closeServer id, onlyRuntime_modifyRuntime service id _,
      fun _ _ hBelongs => hBelongs.modifyRuntime fun _ => rfl, False.elim⟩
  · rename_i hServer
    refine ⟨h.endClient id, onlyRuntime_modifyRuntime service id _,
      fun _ _ hBelongs => hBelongs.modifyRuntime fun _ => rfl, fun _ => ?_⟩
    intro runtime hRuntime
    rw [getElem?_modifyRuntime, Option.map_eq_some_iff] at hRuntime
    obtain ⟨old, hOld, rfl⟩ := hRuntime
    have hNone : old.localServer = none := by
      simpa [hOld] using hServer
    simp [PortForwardRuntimeState.isOpen, PortForwardRuntimeState.endClient, hNone]

theorem Consistent.beginDispose : service.Disposes id loose (service.beginDispose id) := by
  let silent := service.modifyRuntime id fun runtime => { runtime with tcpConnectionListener := false }
  have hSilent : silent.Consistent (id :: loose) := h.modifyRuntime (fun _ => rfl) fun _ hOpen => .inl hOpen
  have hBelongs : ∀ other ruleId, service.BelongsTo other ruleId → silent.BelongsTo other ruleId :=
    fun other ruleId hBelongs => hBelongs.modifyRuntime fun _ => rfl
  have hOnly := onlyRuntime_modifyRuntime service id fun runtime => { runtime with tcpConnectionListener := false }
  rw [PortForwardSessionService.beginDispose]
  split
  · rename_i hRuntime
    refine ⟨hSilent, hOnly, hBelongs, fun _ => ?_⟩
    intro runtime hSome
    exact absurd (hRuntime.symm.trans hSome) nofun
  · rename_i runtime hRuntime
    split
    · rename_i hRemote
      split
      · exact ⟨hSilent, hOnly, hBelongs, False.elim⟩
      · rename_i hConnected
        refine ⟨hSilent, hOnly, hBelongs, fun _ => ?_⟩
        intro other hOther
        obtain rfl : runtime = other := Option.some.inj (hRuntime.symm.trans hOther)
        simp [PortForwardRuntimeState.isOpen, hConnected, hRemote.2]
    · have hServer := hSilent.closeRuntimeServer
      exact ⟨hServer.consistent, hOnly.trans hServer.only,
        fun other ruleId hOwned => hServer.belongs other ruleId (hBelongs other ruleId hOwned), hServer.ends⟩

theorem Consistent.continueDispose (stage : DisposeStage) : service.Disposes id loose (service.continueDispose id stage) := by
  cases stage with
  | unforwardIn => exact h.closeRuntimeServer
  | closeServer =>
    let unbound := service.modifyRuntime id fun runtime => { runtime with localServer := none }
    have hUnbound : unbound.Consistent (id :: loose) := h.modifyRuntime (fun _ => rfl) fun _ _ => .inr List.mem_cons_self
    have hBelongs : ∀ other ruleId, service.BelongsTo other ruleId →
        (unbound.modifyRuntime id .endClient).BelongsTo other ruleId := by
      intro other ruleId hOwned
      have hUnboundOwned : unbound.BelongsTo other ruleId := hOwned.modifyRuntime fun _ => rfl
      exact hUnboundOwned.modifyRuntime fun _ => rfl
    refine ⟨hUnbound.endClient id, onlyRuntime_continueDispose service id .closeServer, hBelongs, fun _ => ?_⟩
    intro runtime hRuntime
    rw [PortForwardSessionService.continueDispose, getElem?_modifyRuntime, getElem?_modifyRuntime, Option.map_map,
      Option.map_eq_some_iff] at hRuntime
    obtain ⟨old, -, rfl⟩ := hRuntime
    simp [PortForwardRuntimeState.isOpen, PortForwardRuntimeState.endClient]

end

theorem Consistent.afterDispose {outcome : PortForwardSessionService × DisposeProgress} (h : service.Disposes id loose outcome)
    (hCall : service.calls[i]? = some call) (hFlight : call.point.InFlight) (hHolds : ∀ other, call.point.Holds other → other = id)
    (hFree : call.kind = .startRule → service.activeRules.get? call.ruleId = none) (hBelongs : service.BelongsTo id call.ruleId)
    (next : AfterDispose) : (afterDispose i call id next outcome).Consistent loose := by
  replace hCall : outcome.1.calls[i]? = some call := by
    rw [h.only.calls, hCall]
  have hOwned := h.belongs id call.ruleId hBelongs
  have hCurrent : ∀ point : Point, call.kind = .startRule →
      ∀ other, outcome.1.activeRules.get? call.ruleId = some other → point.Registers other := by
    intro point hKind other hGet
    rw [h.only.activeRules, hFree hKind] at hGet
    cases hGet
  have hLoose : ∀ other, call.point.Holds other → other ∈ id :: loose := by
    intro other hOther
    rw [hHolds other hOther]
    exact List.mem_cons_self
  have hConsistent := h.consistent
  have hEnds := h.ends
  obtain ⟨disposing, progress⟩ := outcome
  have hMoves : ∀ point : Point, point.InFlight → point.Idle → disposing.Closed id →
      (disposing.moveTo i call point).Consistent loose := by
    intro point hPoint hIdle hClosed
    have hMoved : (disposing.moveTo i call point).Consistent (id :: loose) := by
      apply hConsistent.moveTo hCall hFlight hPoint
      · exact hCurrent point
      · exact fun other hOther => absurd hOther (hIdle.not_concerned other)
      · rintro other (hOther | hOther)
        · exact .inr (hLoose other hOther)
        · exact .inr hOther
    exact hMoved.closed hClosed
  have hSettles : ∀ result, disposing.Closed id → (disposing.settle i call result).Consistent loose := by
    intro result hClosed
    exact (hConsistent.settle hCall hFlight hLoose result).closed hClosed
  cases progress with
  | waiting stage =>
    apply hConsistent.moveTo hCall hFlight
    · trivial
    · exact hCurrent _
    · rintro other (rfl | hOther)
      · exact hOwned
      · exact hOther.elim
    · rintro other (hOther | hOther)
      · exact .inl (hHolds other hOther).symm
      · obtain rfl | hOther := List.mem_cons.mp hOther
        · exact .inl rfl
        · exact .inr hOther
  | completed =>
    have hClosed := hEnds trivial
    cases next with
    | startFailed message =>
      exact (hMoves (.persistStartFailure message) trivial trivial hClosed).write _
    | startThrows error => exact hSettles _ hClosed
    | stopRule => exact (hMoves .updateStopped trivial trivial hClosed).write _
    | handleUnexpectedClose message =>
      exact (hMoves (.updateClosed message) trivial trivial hClosed).write _
    | shutdown => exact hSettles _ hClosed
  | rejected error =>
    have hClosed := hEnds trivial
    cases next with
    | startFailed message => exact hSettles _ hClosed
    | startThrows error => exact hSettles _ hClosed
    | stopRule => exact hSettles _ hClosed
    | handleUnexpectedClose message => exact hSettles _ hClosed
    | shutdown => exact hSettles _ hClosed

theorem Consistent.disposeRuntimeState (h : service.Consistent (id :: loose)) (hCall : service.calls[i]? = some call)
    (hFlight : call.point.InFlight) (hHolds : ∀ other, call.point.Holds other → other = id)
    (hFree : call.kind = .startRule → service.activeRules.get? call.ruleId = none) (hBelongs : service.BelongsTo id call.ruleId)
    (next : AfterDispose) : (service.disposeRuntimeState i call id next).Consistent loose :=
  Consistent.afterDispose h.beginDispose hCall hFlight hHolds hFree hBelongs next

theorem Consistent.delete (h : service.Consistent loose) (hOnly : ∀ other, service.activeRules.get? ruleId = some other → other = id) :
    { service with activeRules := service.activeRules.delete ruleId }.Consistent (id :: loose) := by
  constructor
  · intro other otherId hOther
    rw [JsMap.get?_delete] at hOther
    split at hOther
    · cases hOther
    · exact h.registered other otherId hOther
  · intro otherId runtime hRuntime hOpen
    obtain hOwner | hHolder | hId := h.owned otherId runtime hRuntime hOpen
    · by_cases hRule : runtime.ruleId = ruleId
      · rw [hRule] at hOwner
        rw [hOnly otherId hOwner]
        exact .inr (.inr List.mem_cons_self)
      · left
        rw [JsMap.get?_delete, if_neg hRule]
        exact hOwner
    · exact .inr (.inl hHolder)
    · exact .inr (.inr (List.mem_cons_of_mem id hId))
  · exact h.starting
  · exact h.occupied
  · exact h.exclusive
  · intro j other hOther hStarts otherId hGet
    rw [JsMap.get?_delete] at hGet
    split at hGet
    · cases hGet
    · exact h.current j other hOther hStarts otherId hGet
  · exact h.concerned

theorem Consistent.handleUnexpectedClose (h : service.Consistent loose) (hCall : service.calls[i]? = some call)
    (hFlight : call.point.InFlight) (hHolds : ∀ id, ¬call.point.Holds id) (message : Text) :
    (service.handleUnexpectedClose i call message).Consistent loose := by
  rw [PortForwardSessionService.handleUnexpectedClose]
  split
  · exact h.settle hCall hFlight (fun id hId => absurd hId (hHolds id)) _
  · rename_i id hGet
    let failed := service.modifyRuntime id fun runtime => { runtime with lastError := some message }
    have hFailed : failed.Consistent loose := h.modifyRuntime (fun _ => rfl) fun _ hOpen => .inl hOpen
    have hRemoved := hFailed.delete fun other hOther => Option.some.inj (hOther.symm.trans hGet)
    have hBelongs : failed.BelongsTo id call.ruleId := hFailed.registered call.ruleId id hGet
    apply hRemoved.disposeRuntimeState hCall hFlight
    · exact fun other hOther => absurd hOther (hHolds other)
    · intro _
      rw [JsMap.get?_delete, if_pos rfl]
    · exact hBelongs

theorem BelongsTo.addRuntime (h : service.BelongsTo id ruleId) (runtime : PortForwardRuntimeState) :
    { service with runtimes := service.runtimes ++ [runtime] }.BelongsTo id ruleId := by
  obtain ⟨known, hKnown, hRule⟩ := h
  refine ⟨known, ?_, hRule⟩
  rw [List.getElem?_append_left (List.getElem?_eq_some_iff.mp hKnown).1]
  exact hKnown

theorem Consistent.addRuntime (h : service.Consistent loose) (runtime : PortForwardRuntimeState) :
    { service with runtimes := service.runtimes ++ [runtime] }.Consistent (service.runtimes.length :: loose) := by
  constructor
  · exact fun ruleId id hGet => (h.registered ruleId id hGet).addRuntime runtime
  · intro id known hKnown hOpen
    by_cases hNew : id < service.runtimes.length
    · rw [List.getElem?_append_left hNew] at hKnown
      obtain hOwner | hHolder | hId := h.owned id known hKnown hOpen
      · exact .inl hOwner
      · exact .inr (.inl hHolder)
      · exact .inr (.inr (List.mem_cons_of_mem _ hId))
    · have hLess := (List.getElem?_eq_some_iff.mp hKnown).1
      rw [List.length_append, List.length_singleton] at hLess
      obtain rfl : id = service.runtimes.length := by omega
      exact .inr (.inr List.mem_cons_self)
  · exact h.starting
  · exact h.occupied
  · exact h.exclusive
  · exact h.current
  · exact fun j other hOther id hId => (h.concerned j other hOther id hId).addRuntime runtime

theorem Consistent.free (h : service.Consistent loose) (hCall : service.calls[i]? = some call) (hFlight : call.point.InFlight)
    (hRegisters : ∀ id, ¬call.point.Registers id) (hKind : call.kind = .startRule) : service.activeRules.get? call.ruleId = none := by
  cases hGet : service.activeRules.get? call.ruleId with
  | none => rfl
  | some id => exact absurd (h.current i call hCall ⟨hKind, rfl, hFlight⟩ id hGet) (hRegisters id)

theorem Consistent.advance (h : service.Consistent loose) (hCall : service.calls[i]? = some call)
    (hFlight : call.point.InFlight) (hIdle : call.point.Idle) (hPoint : point.InFlight) (hPointIdle : point.Idle) :
    (service.moveTo i call point).Consistent loose := by
  apply h.moveTo hCall hFlight hPoint
  · intro hKind id hGet
    rw [h.free hCall hFlight hIdle.not_registers hKind] at hGet
    cases hGet
  · exact fun id hId => absurd hId (hPointIdle.not_concerned id)
  · rintro id (hId | hId)
    · exact absurd hId (hIdle.not_holds id)
    · exact .inr hId

variable {rule : PortForwardRule}

theorem Consistent.clientReady (h : service.Consistent loose) (hCall : service.calls[i]? = some call)
    (hPoint : call.point = .openSshClient rule) : (service.clientReady i call rule).Consistent loose := by
  have hIdle : call.point.Idle := by
    rw [hPoint]
    trivial
  have hFlight : call.point.InFlight := by
    rw [hPoint]
    trivial
  have hFree := h.free hCall hFlight hIdle.not_registers
  let added := { service with runtimes := service.runtimes ++ [newRuntime call.ruleId] }
  have hAdded : added.Consistent (service.runtimes.length :: loose) := h.addRuntime (newRuntime call.ruleId)
  have hBelongs : added.BelongsTo service.runtimes.length call.ruleId := ⟨newRuntime call.ruleId, List.getElem?_concat_length, rfl⟩
  rw [PortForwardSessionService.clientReady]
  split
  · apply hAdded.disposeRuntimeState hCall hFlight
    · exact fun other hOther => absurd hOther (hIdle.not_holds other)
    · exact hFree
    · exact hBelongs
  · have hRule : ∀ runtime, (beginForward rule.type runtime).ruleId = runtime.ruleId := by
      intro runtime
      cases hType : rule.type <;> rfl
    have hBegun := hAdded.modifyRuntime hRule fun _ _ => .inr List.mem_cons_self
    apply hBegun.moveTo hCall hFlight
    · trivial
    · intro hKind id hGet
      exact absurd ((hFree hKind).symm.trans hGet) nofun
    · rintro id (rfl | hId)
      · exact hBelongs.modifyRuntime hRule
      · exact hId.elim
    · rintro id (hId | hId)
      · exact absurd hId (hIdle.not_holds id)
      · obtain rfl | hId := List.mem_cons.mp hId
        · exact .inl rfl
        · exact .inr hId

theorem Consistent.take (h : service.Consistent loose) (id : Nat) : service.Consistent (id :: loose) :=
  h.weaken (List.subset_cons_self id loose)

section

variable (h : service.Consistent loose) (hCall : service.calls[i]? = some call)
include h hCall

theorem Consistent.forwardFailed {endpoint : Endpoint} (hPoint : call.point = .startForward rule id endpoint) (error : Text) :
    (service.forwardFailed i call id error).Consistent loose := by
  have hFlight : call.point.InFlight := by
    rw [hPoint]
    trivial
  have hBelongs : service.BelongsTo id call.ruleId := by
    apply h.concerned i call hCall id
    rw [hPoint]
    exact .inl rfl
  apply ((h.take id).closeServer id).disposeRuntimeState hCall hFlight
  · intro other hOther
    rw [hPoint] at hOther
    exact hOther.symm
  · apply h.free hCall hFlight
    intro other hOther
    rw [hPoint] at hOther
    exact hOther
  · exact hBelongs.modifyRuntime fun _ => rfl

theorem Consistent.registerRuntime (hKind : call.kind = .startRule) {endpoint : Endpoint}
    (hPoint : call.point = .startForward rule id endpoint) : (service.registerRuntime i call rule id endpoint).Consistent loose := by
  have hFlight : call.point.InFlight := by
    rw [hPoint]
    trivial
  have hNone : service.activeRules.get? call.ruleId = none := by
    refine h.free hCall hFlight (fun other hOther => ?_) hKind
    rw [hPoint] at hOther
    exact hOther
  let bound := service.modifyRuntime id fun runtime => { runtime with bound := some endpoint }
  have hBound : bound.Consistent loose := h.modifyRuntime (fun _ => rfl) fun _ hOpen => .inl hOpen
  have hBelongs : bound.BelongsTo id call.ruleId := by
    have hConcerned : service.BelongsTo id call.ruleId := by
      apply h.concerned i call hCall id
      rw [hPoint]
      exact .inl rfl
    exact hConcerned.modifyRuntime fun _ => rfl
  have hBoundCall : bound.calls[i]? = some call := hCall
  let moved := bound.moveTo i call (.updateStarted rule id)
  have hSelf : moved.calls[i]? = some { call with point := .updateStarted rule id } := by
    rw [getElem?_moveTo hBoundCall, if_pos rfl]
  have hMoved : moved.Consistent (id :: loose) := by
    apply hBound.moveTo hBoundCall hFlight
    · trivial
    · exact fun _ other hGet => absurd (hNone.symm.trans hGet) nofun
    · rintro other (hOther | rfl)
      · exact hOther.elim
      · exact hBelongs
    · rintro other (hOther | hOther)
      · rw [hPoint] at hOther
        obtain rfl : id = other := hOther
        exact .inr List.mem_cons_self
      · exact .inr (List.mem_cons_of_mem id hOther)
  have hGet : ∀ ruleId, (service.registerRuntime i call rule id endpoint).activeRules.get? ruleId =
      if ruleId = call.ruleId then some id else service.activeRules.get? ruleId := JsMap.get?_set_of_new service.activeRules id hNone
  constructor
  · intro ruleId other hOther
    rw [hGet] at hOther
    split at hOther
    · rename_i hSame
      subst hSame
      obtain rfl := Option.some.inj hOther
      exact hBelongs
    · exact hMoved.registered ruleId other hOther
  · intro other known hKnown hOpen
    rw [hGet]
    obtain hOwner | hHolder | hId := hMoved.owned other known hKnown hOpen
    · split
      · rename_i hSame
        rw [hSame] at hOwner
        exact absurd (hNone.symm.trans hOwner) nofun
      · exact .inl hOwner
    · exact .inr (.inl hHolder)
    · obtain rfl | hId := List.mem_cons.mp hId
      · obtain ⟨found, hFound, hFoundRule⟩ := hBelongs
        obtain rfl : found = known := Option.some.inj (hFound.symm.trans hKnown)
        rw [if_pos hFoundRule]
        exact .inl rfl
      · exact .inr (.inr hId)
  · exact hMoved.starting
  · exact hMoved.occupied
  · exact hMoved.exclusive
  · intro j other hOther hStarts otherId hOtherGet
    rw [hGet] at hOtherGet
    split at hOtherGet
    · rename_i hSame
      obtain rfl := Option.some.inj hOtherGet
      have hEq : i = j := hMoved.exclusive call.ruleId i _ j other hSelf ⟨hKind, rfl, trivial⟩ hOther
        ⟨hStarts.1, hSame, hStarts.2.2⟩
      subst hEq
      obtain rfl := Option.some.inj (hSelf.symm.trans hOther)
      rfl
    · exact hMoved.current j other hOther hStarts otherId hOtherGet
  · exact hMoved.concerned

theorem Consistent.handOver (hPoint : call.point = .updateStarted rule id) (updatedRule : PortForwardRule) :
    (service.handOver i call id updatedRule).Consistent loose := by
  have hHolds : ∀ other, ¬call.point.Holds other := by
    intro other hOther
    rw [hPoint] at hOther
    exact hOther
  have hFlight : call.point.InFlight := by
    rw [hPoint]
    trivial
  let handed := service.modifyRuntime id fun runtime =>
    { runtime with client := { runtime.client with handlers := some call.ruleId, monitored := false } }
  have hHanded : handed.Consistent loose := h.modifyRuntime (fun _ => rfl) fun _ hOpen => .inl hOpen
  rw [PortForwardSessionService.handOver]
  split
  · exact hHanded.handleUnexpectedClose hCall hFlight hHolds _
  · exact hHanded.settle hCall hFlight (fun other hOther => absurd hOther (hHolds other)) _

theorem Consistent.startUpdateFailed (hKind : call.kind = .startRule) (hPoint : call.point = .updateStarted rule id) (error : Text) :
    (service.startUpdateFailed i call id error).Consistent loose := by
  have hFlight : call.point.InFlight := by
    rw [hPoint]
    trivial
  have hBelongs : service.BelongsTo id call.ruleId := by
    apply h.concerned i call hCall id
    rw [hPoint]
    exact .inr rfl
  have hOnly : ∀ other, service.activeRules.get? call.ruleId = some other → other = id := by
    intro other hGet
    have hRegisters := h.current i call hCall ⟨hKind, rfl, hFlight⟩ other hGet
    rw [hPoint] at hRegisters
    exact hRegisters.symm
  apply (h.delete hOnly).disposeRuntimeState hCall hFlight
  · intro other hOther
    rw [hPoint] at hOther
    exact hOther.elim
  · intro _
    rw [JsMap.get?_delete, if_pos rfl]
  · exact hBelongs

theorem Consistent.settleIdle (hFlight : call.point.InFlight) (hIdle : call.point.Idle) (result : CallResult) :
    (service.settle i call result).Consistent loose := h.settle hCall hFlight (fun id hId => absurd hId (hIdle.not_holds id)) result

theorem Consistent.resumeStart (hKind : call.kind = .startRule) (answer : Answer) :
    (service.resumeStart i call call.point answer).Consistent loose := by
  obtain ⟨kind, ruleId, point⟩ := call
  cases point with
  | findRule =>
    cases answer with
    | rule found =>
      cases found with
      | none => exact h.settleIdle hCall trivial trivial _
      | some rule => exact h.advance hCall trivial trivial trivial trivial
    | failed error => exact h.settleIdle hCall trivial trivial _
    | _ => exact h
  | trustedKeys rule =>
    cases answer with
    | done => exact h.advance hCall trivial trivial trivial trivial
    | failed error => exact h.settleIdle hCall trivial trivial _
    | _ => exact h
  | openSshClient rule =>
    cases answer with
    | opened result =>
      cases result with
      | ready => exact h.clientReady hCall rfl
      | hostUntrusted fingerprint => exact h.settleIdle hCall trivial trivial _
      | failed message => exact (h.write _).advance hCall trivial trivial trivial trivial
    | failed error => exact h.settleIdle hCall trivial trivial _
    | _ => exact h
  | startForward rule id endpoint =>
    cases answer with
    | done => exact h.registerRuntime hCall hKind rfl
    | failed error => exact h.forwardFailed hCall rfl error
    | _ => exact h
  | persistStartFailure message =>
    cases answer with
    | done => exact h.settleIdle hCall trivial trivial _
    | failed error => exact h.settleIdle hCall trivial trivial _
    | _ => exact h
  | updateStarted rule id =>
    cases answer with
    | updated row => exact h.handOver hCall rfl row
    | failed error => exact h.startUpdateFailed hCall hKind rfl error
    | _ => exact h
  | _ => exact h

theorem Consistent.resumeStop (hKind : call.kind = .stopRule) (answer : Answer) :
    (service.resumeStop i call call.point answer).Consistent loose := by
  obtain ⟨kind, ruleId, point⟩ := call
  have hOther : kind ≠ .startRule := by
    rintro rfl
    cases hKind
  cases point with
  | findRule =>
    cases answer with
    | rule found =>
      cases found with
      | none => exact h.settleIdle hCall trivial trivial _
      | some rule =>
        simp only [PortForwardSessionService.resumeStop]
        split
        · exact (h.write _).advance hCall trivial trivial trivial trivial
        · rename_i id hGet
          have hDeleted := h.delete fun other hOther => Option.some.inj (hOther.symm.trans hGet)
          have hBelongs := h.registered ruleId id hGet
          apply hDeleted.disposeRuntimeState hCall trivial
          · exact fun _ => False.elim
          · exact fun hStart => absurd hStart hOther
          · exact hBelongs
    | failed error => exact h.settleIdle hCall trivial trivial _
    | _ => exact h
  | updateStopped =>
    cases answer with
    | updated rule => exact h.settleIdle hCall trivial trivial _
    | failed error => exact h.settleIdle hCall trivial trivial _
    | _ => exact h
  | _ => exact h

theorem Consistent.resumeDispose {stage : DisposeStage} {next : AfterDispose} (hPoint : call.point = .dispose id stage next) (answer : Answer) :
    (service.resumeDispose i call id stage next answer).Consistent loose := by
  have hFlight : call.point.InFlight := by
    rw [hPoint]
    trivial
  cases answer with
  | done =>
    apply Consistent.afterDispose ((h.take id).continueDispose stage) hCall hFlight
    · intro other hOther
      rw [hPoint] at hOther
      exact hOther.symm
    · apply h.free hCall hFlight
      intro other hOther
      rw [hPoint] at hOther
      exact hOther
    · apply h.concerned i call hCall id
      rw [hPoint]
      exact .inl rfl
  | _ => exact h

end

theorem Consistent.resume (h : service.Consistent loose) (i : Nat) (answer : Answer) : (service.resume i answer).Consistent loose := by
  rw [PortForwardSessionService.resume]
  split
  · exact h
  · rename_i call hCall
    split
    · rename_i id stage next hPoint
      exact h.resumeDispose hCall hPoint answer
    · rename_i message hPoint
      have hFlight : call.point.InFlight := by
        rw [hPoint]
        trivial
      have hIdle : call.point.Idle := by
        rw [hPoint]
        trivial
      cases answer with
      | updated rule => exact h.settleIdle hCall hFlight hIdle _
      | failed error => exact h.settleIdle hCall hFlight hIdle _
      | _ => exact h
    · split
      · rename_i hKind
        exact h.resumeStart hCall hKind answer
      · rename_i hKind
        exact h.resumeStop hCall hKind answer
      · exact h

theorem Consistent.clientEvent (h : service.Consistent loose) (id : Nat) (message : Text) (change : Client → Client)
    (hConnected : ∀ client, (change client).connected = client.connected) : (service.clientEvent id message change).Consistent loose := by
  rw [PortForwardSessionService.clientEvent]
  split
  · exact h
  · rename_i runtime hRuntime
    have hSeen : (service.modifyRuntime id fun runtime =>
        if runtime.client.monitored then { runtime with client := change runtime.client } else runtime).Consistent
          loose := by
      apply h.modifyRuntime
      · intro known
        split <;> rfl
      · intro known hOpen
        left
        split at hOpen
        · simpa only [PortForwardRuntimeState.isOpen, hConnected] using hOpen
        · exact hOpen
    split
    · exact hSeen
    · rename_i ruleId hHandlers
      let call : Call := ⟨.handleUnexpectedClose id, ruleId, .running⟩
      have hStart : ¬call.Starts call.ruleId := by
        rintro ⟨hKind, -⟩
        cases hKind
      have hIdle : call.point.Idle := trivial
      apply (hSeen.begin hStart hIdle).handleUnexpectedClose
      · rw [getElem?_begin]
        exact if_pos rfl
      · trivial
      · exact fun _ => not_false

theorem runtimes_afterDispose (i : Nat) (call : Call) (id : Nat) (next : AfterDispose) (outcome : PortForwardSessionService × DisposeProgress) :
    (afterDispose i call id next outcome).runtimes = outcome.1.runtimes := by
  obtain ⟨disposing, progress⟩ := outcome
  cases progress with
  | waiting stage => rfl
  | completed => cases next <;> rfl
  | rejected error => cases next <;> rfl

theorem Consistent.shutdown {entries : List (Text × Nat)} (h : service.Consistent (entries.map Prod.snd ++ loose))
    (hBelongs : ∀ entry ∈ entries, service.BelongsTo entry.2 entry.1) : (entries.foldl shutdownRuntime service).Consistent loose := by
  induction entries generalizing service with
  | nil => exact h
  | cons entry entries ih =>
    let call : Call := ⟨.shutdown, entry.1, .running⟩
    have hStart : ¬call.Starts call.ruleId := by
      rintro ⟨hKind, -⟩
      cases hKind
    have hBegun : (service.begin call).Consistent (entry.2 :: (entries.map Prod.snd ++ loose)) := h.begin hStart trivial
    have hCall : (service.begin call).calls[service.calls.length]? = some call := by
      rw [getElem?_begin]
      exact if_pos rfl
    apply ih
    · apply hBegun.disposeRuntimeState hCall trivial
      · exact fun _ => False.elim
      · intro hStart
        cases hStart
      · exact hBelongs entry List.mem_cons_self
    · intro other hOther
      have hKnown : (service.begin call).BelongsTo other.2 other.1 := hBelongs other (List.mem_cons_of_mem entry hOther)
      rw [BelongsTo, shutdownRuntime, PortForwardSessionService.disposeRuntimeState, runtimes_afterDispose]
      exact hBegun.beginDispose.belongs other.2 other.1 hKnown

theorem Consistent.stop (h : service.Consistent loose) : service.stop.Consistent loose := by
  let cleared := { service with activeRules := .empty }
  have hNone : ∀ ruleId, cleared.activeRules.get? ruleId = none := fun _ => rfl
  have hEmpty : cleared.Consistent (service.activeRules.entries.map Prod.snd ++ loose) := by
    constructor
    · intro ruleId id hGet
      rw [hNone] at hGet
      cases hGet
    · intro id runtime hRuntime hOpen
      obtain hOwner | hHolder | hId := h.owned id runtime hRuntime hOpen
      · have hEntry := (service.activeRules.mem_entries_iff runtime.ruleId id).mpr hOwner
        exact .inr (.inr (List.mem_append_left loose (List.mem_map_of_mem hEntry)))
      · exact .inr (.inl hHolder)
      · exact .inr (.inr (List.mem_append_right _ hId))
    · exact h.starting
    · exact h.occupied
    · exact h.exclusive
    · intro i call hCall hStarts id hGet
      rw [hNone] at hGet
      cases hGet
    · exact h.concerned
  have hBelongs : ∀ entry ∈ service.activeRules.entries, cleared.BelongsTo entry.2 entry.1 := by
    rintro ⟨ruleId, id⟩ hEntry
    exact h.registered ruleId id ((service.activeRules.mem_entries_iff ruleId id).mp hEntry)
  exact hEmpty.shutdown hBelongs

theorem Consistent.step (h : service.Consistent loose) (event : ServiceEvent) : (stepService service event).Consistent loose := by
  cases event with
  | startRule ruleId => exact h.startRule ruleId
  | stopRule ruleId => exact h.begin (fun hStarts => nomatch hStarts.1) trivial
  | stop => exact h.stop
  | resume i answer => exact h.resume i answer
  | disconnect id => exact h.endClient id
  | clientError id message =>
    rw [stepService, clientError]
    apply h.clientEvent
    exact fun _ => rfl
  | clientClose id =>
    rw [stepService, clientClose]
    apply (h.endClient id).clientEvent
    exact fun _ => rfl

end PortForwardSessionService

theorem consistent_of_reachable {service : PortForwardSessionService} (h : portForwardService.Reachable service) : service.Consistent [] := by
  apply h.invariant
  · rintro _ rfl
    have hNone : ∀ i : Nat, newService.calls[i]? = none := fun _ => List.getElem?_nil
    constructor
    · intro ruleId id hGet
      exact absurd hGet nofun
    · intro id runtime hRuntime
      exact absurd ((List.getElem?_nil).symm.trans hRuntime) nofun
    · intro i call hCall
      exact absurd ((hNone i).symm.trans hCall) nofun
    · intro ruleId hMem
      exact absurd hMem List.not_mem_nil
    · intro ruleId i call j other hCall
      exact absurd ((hNone i).symm.trans hCall) nofun
    · intro i call hCall
      exact absurd ((hNone i).symm.trans hCall) nofun
    · intro i call hCall
      exact absurd ((hNone i).symm.trans hCall) nofun
  · exact fun service event _ hConsistent => hConsistent.step event

end PortForward
