import Cosmosh.Sftp.TaskSteps

/-! # Capacity, exclusion and order over every run -/

namespace Sftp.SftpTaskScheduler

open Library

variable {ρ π ε : Type} {outcome : Option Nat}

structure Valid (s : SftpTaskScheduler ρ π ε) : Prop where
  wellFormed : s.WellFormed
  recorded : s.Recorded
  safe : (policy s.limits).Safe s.board
  fair : (policy s.limits).Fair s.board

variable {s s' : SftpTaskScheduler ρ π ε}

theorem Transition.limits (h : Transition outcome s s') : s'.limits = s.limits := by
  cases h with
  | quiet hTasks hWaiters => exact hTasks.limits
  | withdraw => rfl
  | start => rfl
  | finish => rfl
  | invoke => rfl
  | settle => rfl
  | release => rfl
  | report => rfl
  | forget => rfl

theorem Valid.transition (h : s.Valid) (hTransition : Transition outcome s s') : s'.Valid := by
  have hMoves := hTransition.moves h.wellFormed
  refine ⟨h.wellFormed.transition hTransition, h.recorded.transition h.wellFormed hTransition, ?_, ?_⟩
  · rw [hTransition.limits]
    exact h.safe.moves hMoves
  · rw [hTransition.limits]
    exact h.fair.moves hMoves

theorem Valid.steps (h : s.Valid) (hSteps : Steps outcome s s') : s'.Valid := by
  induction hSteps with
  | refl => exact h
  | tail _ hTransition ih => exact ih.transition hTransition

theorem Valid.submit (h : s.Valid) (hSubmit : Submit s s') : s'.Valid := by
  have hMoves := hSubmit.moves h.wellFormed h.recorded
  have hLimits : s'.limits = s.limits := by
    cases hSubmit
    rfl
  refine ⟨h.wellFormed.submit hSubmit, h.recorded.submit h.wellFormed hSubmit, ?_, ?_⟩
  · rw [hLimits]
    exact h.safe.moves hMoves
  · rw [hLimits]
    exact h.fair.moves hMoves

theorem Valid.event (h : s.Valid) (hEvent : EventSteps outcome s s') : s'.Valid := by
  obtain hSteps | ⟨middle, hSubmit, hSteps⟩ := hEvent
  · exact h.steps hSteps
  · exact (h.submit hSubmit).steps hSteps

structure Untouched (s : SftpTaskScheduler ρ π ε) : Prop where
  records : s.records.entries = []
  queue : s.queue = []
  active : s.active.entries = []
  idleWaiters : s.idleWaiters = []
  sequence : s.sequence = 0
  isDispatching : s.isDispatching = false
  store : ∀ n, s.store n = none
  issuedWaiters : s.issuedWaiters = 0
  resolvedWaiters : s.resolvedWaiters = []
  observed : s.observed = []

theorem construct_untouched {options : SftpTaskSchedulerOptions} (h : construct options = .ok s) : s.Untouched := by
  rw [construct] at h
  split at h
  · cases h
  · split at h
    · cases h
    · obtain rfl := Except.ok.inj h
      exact ⟨rfl, rfl, rfl, rfl, rfl, rfl, fun _ => rfl, rfl, rfl, rfl⟩

theorem Untouched.valid (h : s.Untouched) : s.Valid := by
  have hStore : ∀ n record, s.store n ≠ some record := by
    intro n record hSome
    rw [h.store n] at hSome
    cases hSome
  have hBoard : s.board = ⟨[], [], []⟩ := by
    simp only [board, JsMap.values, h.queue, h.active, h.observed, List.map_nil, List.filterMap_nil]
  refine ⟨⟨?_, ?_, ?_, ?_, ?_, ?_, ?_⟩, ⟨?_, ?_, ?_⟩, ?_, ?_⟩
  · intro n
    simp [h.store n, h.sequence]
  · exact fun n record hSome => absurd hSome (hStore n record)
  · rw [h.queue]
    exact .nil
  · intro n
    simp [h.queue, h.store n]
  · intro taskId n
    simp [h.active, h.store n]
  · exact fun n record hSome => absurd hSome (hStore n record)
  · intro taskId n hGet
    rw [← JsMap.mem_entries_iff, h.records] at hGet
    cases hGet
  · rw [h.observed, h.sequence]
    rfl
  · intro n _
    simp only [history, h.observed, List.filter_nil]
  · exact fun n record hSome => absurd hSome (hStore n record)
  · rw [hBoard]
    exact Admission.Policy.safe_empty [] []
  · rw [hBoard]
    exact Admission.Policy.fair_empty

section Reachable

variable {collation : Collation} {s : SftpTaskScheduler ρ π ε}

theorem valid_of_reachable (h : (machine ρ π ε collation).Reachable s) : s.Valid := by
  apply h.invariant
  · rintro start ⟨options, hConstruct⟩
    exact (construct_untouched hConstruct).valid
  · exact fun state event _ hValid => hValid.event (step_steps hValid.wellFormed collation event)

variable {n : Nat}

theorem Valid.mem_active (h : s.Valid) : n ∈ s.active.values ↔ ∃ record, s.store n = some record ∧ record.chain.occupied = true := by
  rw [JsMap.values, List.mem_map]
  constructor
  · rintro ⟨⟨taskId, m⟩, hEntry, rfl⟩
    obtain ⟨record, hStore, _, hOccupied⟩ := (h.wellFormed.active taskId m).mp hEntry
    exact ⟨record, hStore, hOccupied⟩
  · rintro ⟨record, hStore, hOccupied⟩
    exact ⟨(record.snapshot.taskId, n), (h.wellFormed.active _ n).mpr ⟨record, hStore, rfl, hOccupied⟩, rfl⟩

theorem Valid.history_eq (h : s.Valid) (hMem : n < s.sequence) :
    ∃ record invoked, s.store n = some record ∧ Invoked record invoked ∧ s.history n = life n record invoked := by
  obtain ⟨record, hStore⟩ := Option.isSome_iff_exists.mp ((h.wellFormed.known n).mpr hMem)
  obtain ⟨invoked, hInvoked, hHistory⟩ := h.recorded.known n record hStore
  exact ⟨record, invoked, hStore, hInvoked, hHistory⟩

theorem mem_history {e : SftpTaskObservation ρ π} (hAbout : about e = some n) : e ∈ s.history n ↔ e ∈ s.observed := by
  simp [history, hAbout]

theorem mem_life_started {record : StoredTaskRecord ρ π ε} {invoked : Bool} :
    .started n ∈ life n record invoked ↔ record.chain ≠ .unstarted := by
  cases hChain : record.chain <;> cases invoked <;> simp [life, hChain]

theorem mem_life_settled {record : StoredTaskRecord ρ π ε} {invoked : Bool} :
    .runnerSettled n ∈ life n record invoked ↔ record.chain = .settled ∨ record.chain = .finished := by
  cases hChain : record.chain <;> cases invoked <;> simp [life, hChain]

theorem Valid.unsettled_active (h : s.Valid) (hStarted : .started n ∈ s.observed) (hUnsettled : .runnerSettled n ∉ s.observed) :
    n ∈ s.active.values := by
  obtain ⟨record, invoked, hStore, _, hHistory⟩ := h.history_eq (h.recorded.about_lt h.wellFormed hStarted rfl)
  rw [← mem_history rfl, hHistory, mem_life_started] at hStarted
  rw [← mem_history rfl, hHistory, mem_life_settled, not_or] at hUnsettled
  refine h.mem_active.mpr ⟨record, hStore, ?_⟩
  cases hChain : record.chain with
  | unstarted => exact absurd hChain hStarted
  | microtaskQueued => rfl
  | awaitingRunner => rfl
  | settled => rfl
  | finished => exact absurd hChain hUnsettled.2

theorem Valid.countP_le (h : s.Valid) {c : Admission.CapacityClass Ticket} (hc : c ∈ (policy s.limits).classes) :
    s.active.values.countP (fun n => c.member (s.ticket n)) ≤ c.limit := by
  have hCapacity := h.safe.capacity c hc
  rwa [board, List.countP_map] at hCapacity

/-- In every state of every run the active tasks fit the limits and exclude each other as they must. -/
theorem active_tasks_safe (h : (machine ρ π ε collation).Reachable s) : s.active.size ≤ s.limits.total ∧
    (s.active.values.filter fun n => (s.resourcesOf n).workload = .heavy).length ≤ s.limits.heavy ∧
    (s.active.values.filter fun n => (s.resourcesOf n).impact = .mutation).length ≤ s.limits.mutation ∧
    (∀ m ∈ s.active.values, ∀ n ∈ s.active.values, m ≠ n → ∀ a ∈ s.claimsOf m, ∀ b ∈ s.claimsOf n, doSftpTaskClaimsConflict a b = false) ∧
    (∀ n ∈ s.active.values, (s.resourcesOf n).exclusive = true → s.active.values = [n]) ∧
    (∀ n, .started n ∈ s.observed → .runnerSettled n ∉ s.observed → n ∈ s.active.values) := by
  have hValid := valid_of_reachable h
  refine ⟨?_, ?_, ?_, ?_, ?_, fun n => hValid.unsettled_active⟩
  · have hTotal := hValid.countP_le (List.mem_cons_self)
    simpa [JsMap.size, JsMap.values] using hTotal
  · rw [← List.countP_eq_length_filter]
    exact hValid.countP_le (List.mem_cons_of_mem _ List.mem_cons_self)
  · rw [← List.countP_eq_length_filter]
    exact hValid.countP_le (List.mem_cons_of_mem _ (List.mem_cons_of_mem _ List.mem_cons_self))
  · have hPairwise : s.active.values.Pairwise
        fun m n => ¬ doClaimSetsConflict (s.claimsOf m) (s.claimsOf n) = true := List.pairwise_map.mp hValid.safe.disjoint
    have hSymm : ∀ m n, ¬ doClaimSetsConflict (s.claimsOf m) (s.claimsOf n) = true →
        ¬ doClaimSetsConflict (s.claimsOf n) (s.claimsOf m) = true := by
      intro m n hFree hConflict
      rw [doClaimSetsConflict_comm] at hConflict
      exact hFree hConflict
    intro m hm n hn hNe a ha b hb
    have : Std.Symm fun m n => ¬ doClaimSetsConflict (s.claimsOf m) (s.claimsOf n) = true := ⟨hSymm⟩
    have hFree := hPairwise.forall hm hn hNe
    rw [Bool.eq_false_iff]
    intro hConflict
    exact hFree (List.any_eq_true.mpr ⟨a, ha, List.any_eq_true.mpr ⟨b, hb, hConflict⟩⟩)
  · intro n hn hExclusive
    have hAlone := hValid.safe.alone (s.ticket n) (List.mem_map_of_mem hn) hExclusive
    have hSingle : s.active.values.map s.ticket = [s.ticket n] := hAlone
    obtain ⟨m, hm, hEq⟩ := List.map_eq_singleton_iff.mp hSingle
    have hSame : m = n := congrArg Ticket.sequence hEq
    rw [hm, hSame]

end Reachable

def plainCollation : Collation where
  localeCompare _ _ := 0
  total _ _ := .inl (Int.le_refl 0)
  trans _ _ _ _ _ := Int.le_refl 0

def sampleOptions : SftpTaskSchedulerOptions := ⟨"session".toList, none, none, none, 0⟩

def sampleSpec (resources : SftpTaskResources) (claims : List Text) : SftpTaskSpec Unit where
  taskId := none
  operation := "sample".toList
  resources
  claims
  absoluteTimeoutMs := .finite 1000
  cancellationSignal := none
  mapFailure := none
  onAbort := false

theorem reachable_run (collation : Collation) {options : SftpTaskSchedulerOptions} (h : construct options = .ok s)
    (events : List (SftpTaskEvent ρ π ε)) : (machine ρ π ε collation).Reachable ((machine ρ π ε collation).run s events) := by
  have hStart : (machine ρ π ε collation).Reachable s := .start ⟨options, h⟩
  exact hStart.run events

def sampleEvents : List (SftpTaskEvent Unit Unit Unit) :=
  [.schedule (sampleSpec ⟨.mutation, .light, false⟩ []) "task".toList, .startMicrotask 0, .fireDeadline 0]

def isRunnerSettled : SftpTaskObservation ρ π → Bool
  | .runnerSettled _ => true
  | _ => false

theorem timed_out_task_stays_active : ∃ s : SftpTaskScheduler Unit Unit Unit, construct sampleOptions = .ok s ∧
      0 ∈ ((machine Unit Unit Unit plainCollation).run s sampleEvents).active.values := by
  refine ⟨_, rfl, ?_⟩
  apply (active_tasks_safe (reachable_run plainCollation (rfl : construct sampleOptions = .ok _) sampleEvents)).2.2.2.2.2 0
  · exact .tail _ (.head _)
  · intro hSettled
    have hAny := List.any_eq_true.mpr ⟨_, hSettled, (rfl : isRunnerSettled _ = true)⟩
    cases hAny

end Sftp.SftpTaskScheduler
