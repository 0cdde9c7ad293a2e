import Cosmosh.Sftp.TaskHistory

/-! # Every event is a chain of transitions

Each function of the scheduler is followed once through its branches; what it
does to a well-formed scheduler is a submission followed by transitions.
-/

namespace Sftp.SftpTaskScheduler

open Library

variable {ρ π ε : Type} {outcome : Option Nat}

variable {s : SftpTaskScheduler ρ π ε} {n : Nat}

theorem hasCapacityFor_true (h : s.hasCapacityFor n = true) :
    (∀ m ∈ s.active.values, (s.resourcesOf m).exclusive = false) ∧ s.active.size < s.limits.total ∧ ((s.resourcesOf n).workload = .heavy →
        s.active.values.countP (fun m => (s.resourcesOf m).workload = .heavy) < s.limits.heavy) ∧ ((s.resourcesOf n).impact = .mutation →
        s.active.values.countP (fun m => (s.resourcesOf m).impact = .mutation) < s.limits.mutation) := by
  rw [hasCapacityFor] at h
  split at h
  · cases h
  · rename_i hExclusive
    split at h
    · cases h
    · rename_i hTotal
      dsimp only at h
      split at h
      · cases h
      · rename_i hHeavy
        refine ⟨?_, by omega, ?_, ?_⟩
        · intro m hm
          rw [Bool.eq_false_iff]
          exact fun hEq => hExclusive (List.any_eq_true.mpr ⟨m, hm, hEq⟩)
        · intro hWorkload
          rw [List.countP_eq_length_filter]
          exact Nat.lt_of_not_le fun hFull => hHeavy ⟨hWorkload, hFull⟩
        · intro hImpact
          rw [List.countP_eq_length_filter]
          simpa [hImpact] using h

theorem admits_shared {ahead : List Nat} (hExclusive : (s.resourcesOf n).exclusive = false)
    (hAhead : ∀ m ∈ ahead, (s.resourcesOf m).exclusive = false) (hCapacity : s.hasCapacityFor n = true)
    (hActive : s.conflictsWithActive n = false)
    (hOlder : ∀ m ∈ ahead, doClaimSetsConflict (s.claimsOf n) (s.claimsOf m) = false) : s.Admits ahead n := by
  obtain ⟨hAlone, hTotal, hHeavy, hMutation⟩ := hasCapacityFor_true hCapacity
  refine .shared ?_ ?_ ?_ ?_
  · change ¬ (s.resourcesOf n).exclusive = true
    rw [hExclusive]
    rintro ⟨⟩
  · intro u hu
    obtain ⟨m, hm, rfl⟩ := List.mem_map.mp hu
    exact ⟨Bool.eq_false_iff.mp (hAhead m hm), Bool.eq_false_iff.mp (hOlder m hm)⟩
  · intro u hu
    obtain ⟨m, hm, rfl⟩ := List.mem_map.mp hu
    refine ⟨Bool.eq_false_iff.mp (hAlone m hm), ?_⟩
    intro hConflict
    rw [conflictsWithActive, Bool.eq_false_iff] at hActive
    exact hActive (List.any_eq_true.mpr ⟨m, hm, hConflict⟩)
  · intro c hc hMember
    rw [List.countP_map]
    simp only [policy, List.mem_cons, List.not_mem_nil, or_false] at hc
    obtain rfl | rfl | rfl := hc
    · exact Nat.lt_of_le_of_lt List.countP_le_length (by simpa [JsMap.values, JsMap.size] using hTotal)
    · exact hHeavy (of_decide_eq_true hMember)
    · exact hMutation (of_decide_eq_true hMember)

theorem scanQueue_some {rest : List Nat} (ahead behind : List Nat) {i : Nat} (hQueue : s.queue = ahead ++ (rest ++ behind))
    (hAhead : ∀ m ∈ ahead, (s.resourcesOf m).exclusive = false) (h : s.scanQueue ahead.length rest = some i) :
    ∃ before n after, s.queue = before ++ n :: after ∧ before.length = i ∧ s.Admits before n := by
  induction rest generalizing ahead with
  | nil => cases h
  | cons n rest ih =>
    have hNext : (s.resourcesOf n).exclusive = false →
        s.scanQueue (ahead.length + 1) rest = some i →
        ∃ before n after, s.queue = before ++ n :: after ∧ before.length = i ∧ s.Admits before n := by
      intro hExclusive hScan
      apply ih (ahead ++ [n])
      · simpa using hQueue
      · intro m hm
        obtain hm | hm := List.mem_append.mp hm
        · exact hAhead m hm
        · rw [List.mem_singleton.mp hm]
          exact hExclusive
      · simpa using hScan
    rw [scanQueue] at h
    split at h
    · rename_i hExclusive
      split at h
      · rename_i hEmpty
        obtain ⟨hIndex, hActive⟩ := hEmpty
        rw [Option.some.injEq] at h
        have hNil : ahead = [] := List.length_eq_zero_iff.mp hIndex
        refine ⟨ahead, n, rest ++ behind, hQueue, h, .alone hExclusive ?_ ?_⟩
        · rw [hNil, List.map_nil]
        · have hEntries : s.active.entries = [] := List.length_eq_zero_iff.mp hActive
          rw [JsMap.values, hEntries, List.map_nil, List.map_nil]
      · cases h
    · rename_i hExclusive
      have hShared : (s.resourcesOf n).exclusive = false := Bool.eq_false_iff.mpr hExclusive
      split at h
      · exact hNext hShared h
      · rename_i hFree
        split at h
        · exact hNext hShared h
        · rename_i hOlder
          rw [Option.some.injEq] at h
          simp only [Bool.or_eq_true, Bool.not_eq_true', not_or, Bool.not_eq_true] at hFree
          refine ⟨ahead, n, rest ++ behind, hQueue, h, ?_⟩
          apply admits_shared hShared hAhead (by simpa using hFree.1) hFree.2
          intro m hm
          rw [Bool.eq_false_iff]
          intro hConflict
          apply hOlder
          rw [conflictsWithOlderQueuedClaim, hQueue, List.take_left]
          exact List.any_eq_true.mpr ⟨m, hm, hConflict⟩

theorem findNextRunnableIndex_some {i : Nat} (h : s.findNextRunnableIndex = some i) :
    ∃ before n after, s.queue = before ++ n :: after ∧ before.length = i ∧ s.Admits before n := by
  rw [findNextRunnableIndex] at h
  exact scanQueue_some [] (s.queue.drop _) (List.take_append_drop _ _).symm
    (fun _ hm => absurd hm List.not_mem_nil) h

theorem resolveIdleWaiters_steps (s : SftpTaskScheduler ρ π ε) : Steps outcome s s.resolveIdleWaiters := by
  rw [resolveIdleWaiters]
  split
  · exact .refl
  · rename_i hBusy
    simp only [not_or, Nat.not_lt, Nat.le_zero] at hBusy
    refine .single (.quiet ⟨rfl, rfl, rfl, rfl, rfl, rfl, rfl⟩ (.resolve ?_ rfl rfl rfl))
    exact ⟨List.length_eq_zero_iff.mp hBusy.1, List.length_eq_zero_iff.mp hBusy.2⟩

theorem WellFormed.startRecord (h : s.WellFormed) {before after : List Nat} (hQueue : s.queue = before ++ n :: after)
    (hAdmits : s.Admits before n) : Transition outcome s ({ s with queue := s.queue.eraseIdx before.length }.startRecord n) := by
  obtain ⟨record, hStore, _⟩ := (h.queued n).mp (by simp [hQueue])
  have hErase : s.queue.eraseIdx before.length = before ++ after := by
    rw [hQueue, List.eraseIdx_append_of_length_le (Nat.le_refl _), Nat.sub_self, List.eraseIdx_cons_zero]
  have hStart : { s with queue := s.queue.eraseIdx before.length }.startRecord n =
      s.advance n (beginRun record s.now) (before ++ after) (s.active.set record.snapshot.taskId n)
        [.started n] := by
    simp only [SftpTaskScheduler.startRecord, hStore, hErase]
    rfl
  rw [hStart]
  exact .start hStore hQueue hAdmits

theorem dispatchLoop_steps {fuel : Nat} (h : s.WellFormed) : Steps outcome s (dispatchLoop fuel s) := by
  induction fuel generalizing s with
  | zero => exact .refl
  | succ fuel ih =>
    rw [dispatchLoop]
    split
    · exact .refl
    · rename_i i hNext
      obtain ⟨before, n, after, hQueue, rfl, hAdmits⟩ := findNextRunnableIndex_some hNext
      have hGet : s.queue[before.length]? = some n := by simp [hQueue]
      rw [hGet]
      have hStart : Transition outcome s _ := h.startRecord hQueue hAdmits
      exact .head hStart (ih (h.transition hStart))

theorem dispatch_steps (h : s.WellFormed) : Steps outcome s s.dispatch := by
  rw [dispatch]
  split
  · exact .refl
  · have hBegin : Transition outcome s { s with isDispatching := true } := .quiet ⟨rfl, rfl, rfl, rfl, rfl, rfl, rfl⟩ (.same rfl rfl rfl)
    have hEnd : ∀ s' : SftpTaskScheduler ρ π ε, Transition outcome s' { s' with isDispatching := false } :=
      fun s' => .quiet ⟨rfl, rfl, rfl, rfl, rfl, rfl, rfl⟩ (.same rfl rfl rfl)
    have hLoop : Steps outcome { s with isDispatching := true }
        (dispatchLoop s.queue.length { s with isDispatching := true }) := dispatchLoop_steps (h.transition hBegin)
    exact .trans (.head hBegin (hLoop.tail (hEnd _))) (resolveIdleWaiters_steps _)

section

variable (s : SftpTaskScheduler ρ π ε) (n : Nat)

theorem advance_advance (record record' : StoredTaskRecord ρ π ε) (queue queue' : List Nat) (active active' : JsMap Text Nat)
    (entries entries' : List (SftpTaskObservation ρ π)) : (s.advance n record queue active entries).advance n record' queue' active' entries' =
      s.advance n record' queue' active' (entries ++ entries') := by
  have hStore : (fun m => if m = n then some record' else if m = n then some record else s.store m) =
      fun m => if m = n then some record' else s.store m := by
    funext m
    split <;> rfl
  simp only [advance, put, hStore, List.append_assoc]

theorem put_observe (record : StoredTaskRecord ρ π ε) (entry : SftpTaskObservation ρ π) :
    (s.put n record).observe entry = s.advance n record s.queue s.active [entry] := rfl

theorem put_eq_advance (record : StoredTaskRecord ρ π ε) : s.put n record = s.advance n record s.queue s.active [] := by
  simp only [advance, List.append_nil]
  rfl

end

variable {record : StoredTaskRecord ρ π ε}

theorem finishRecord_active (patch : TerminalPatch ρ) (hStore : s.store n = some record)
    (hOpen : isTerminalState record.snapshot.state = false) (hPending : record.completionResolved = false)
    (hActive : s.active.get? record.snapshot.taskId = some n) : s.finishRecord n patch = s.advance n (ended record patch s.now) s.queue s.active
      [.completion n (copySnapshot (patch.apply record.snapshot s.now))] := by
  have hHas : s.active.has record.snapshot.taskId = true := by
    rw [JsMap.has, hActive]
    rfl
  simp only [finishRecord, hStore, hOpen, Bool.false_eq_true, if_false, resolveCompletion, cleanupLifecycle,
    hPending, apply_taskId, put_observe, advance_active, hHas, if_true]
  rfl

theorem finishRecord_queued (patch : TerminalPatch ρ) (hStore : s.store n = some record)
    (hOpen : isTerminalState record.snapshot.state = false) (hPending : record.completionResolved = false)
    (hHeld : record.releaseResolved = false) (hActive : s.active.get? record.snapshot.taskId = none) :
    (s.removeQueuedRecord n).finishRecord n patch =
      s.advance n { ended record patch s.now with releaseResolved := true } (s.queue.erase n) s.active
        [.completion n (copySnapshot (patch.apply record.snapshot s.now)), .released n] := by
  have hHas : s.active.has record.snapshot.taskId = false := (s.active.has_eq_false_iff _).mpr hActive
  simp only [finishRecord, removeQueuedRecord, hStore, hOpen, Bool.false_eq_true, if_false, resolveCompletion,
    cleanupLifecycle, hPending, apply_taskId, put_observe, advance_active, hHas, resolveReleased,
    advance_store_self, clearExecutionReferences, hHeld, advance_queue, advance_advance]
  rfl

theorem abortRunning_eq (s : SftpTaskScheduler ρ π ε) (n : Nat) (record : StoredTaskRecord ρ π ε)
    (reason : SftpTaskAbortReason) : ∃ (hooks : List SftpTaskAbortReason) (record' : StoredTaskRecord ρ π ε),
      s.abortRunning n record reason = s.advance n record' s.queue s.active (hooks.map (.abortHook n)) ∧
      record'.sequence = record.sequence ∧ record'.spec = record.spec ∧
      record'.snapshot = record.snapshot ∧ record'.completionResolved = record.completionResolved ∧
      record'.releaseResolved = record.releaseResolved ∧ record'.chain = record.chain ∧ record'.controller.isSome = true := by
  have hSome : (record.controller <|> some reason).isSome = true := by
    cases record.controller <;> rfl
  rw [abortRunning, invokeAbortHook]
  split
  · exact ⟨[], _, put_eq_advance _ _ _, rfl, rfl, rfl, rfl, rfl, rfl, hSome⟩
  · exact ⟨[reason], _, put_observe _ _ _ _, rfl, rfl, rfl, rfl, rfl, rfl, hSome⟩

section Settling

variable {s : SftpTaskScheduler ρ π ε} {n : Nat} {record : StoredTaskRecord ρ π ε}

section

variable (h : s.WellFormed) (hStore : s.store n = some record)
include h hStore

theorem WellFormed.finish_queued (hQueued : record.snapshot.state = .queued) {patch : TerminalPatch ρ} (hKnown : ¬ patch.unknown) :
    Transition outcome s ((s.removeQueuedRecord n).finishRecord n patch) := by
  obtain ⟨_, hCoherent⟩ := h.coherent n record hStore
  have hOpen : isTerminalState record.snapshot.state = false := by rw [hQueued]; rfl
  have hFree : record.chain.occupied = false := by
    rw [hCoherent.queued hQueued]
    rfl
  rw [finishRecord_queued patch hStore hOpen (hCoherent.completion.trans hOpen)
    (hCoherent.not_released (.inl hOpen)) (h.active_none hStore (.inl hOpen) hFree)]
  exact .withdraw patch hStore hQueued hKnown

theorem WellFormed.finish_running (hRunning : record.snapshot.state = .running) (patch : TerminalPatch ρ) :
    Transition (some n) s (s.finishRecord n patch) := by
  obtain ⟨_, hCoherent⟩ := h.coherent n record hStore
  obtain ⟨hOccupied, _, _, hPending⟩ := hCoherent.running_facts hRunning
  have hOpen : isTerminalState record.snapshot.state = false := by rw [hRunning]; rfl
  rw [finishRecord_active patch hStore hOpen hPending ((h.active_get? hStore).mpr hOccupied)]
  refine .finish patch [] hStore hRunning ⟨rfl, rfl, rfl, rfl, rfl, rfl, ?_⟩ (.inr rfl)
  intro hAborted
  rw [hCoherent.not_aborted hOpen] at hAborted
  cases hAborted

theorem WellFormed.finish_aborted (hRunning : record.snapshot.state = .running) (reason : SftpTaskAbortReason)
    {patch : TerminalPatch ρ} (hUnknown : record.spec.resources.impact = .mutation → patch.unknown) :
    Transition outcome s ((s.abortRunning n record reason).finishRecord n patch) := by
  obtain ⟨_, hCoherent⟩ := h.coherent n record hStore
  obtain ⟨hOccupied, _, _, hPending⟩ := hCoherent.running_facts hRunning
  obtain ⟨hooks, record', hAbort, hSequence, hSpec, hSnapshot, hCompletion, hRelease, hChain,
    hController⟩ := abortRunning_eq s n record reason
  have hOpen : isTerminalState record'.snapshot.state = false := by rw [hSnapshot, hRunning]; rfl
  have hActive : s.active.get? record'.snapshot.taskId = some n := by
    rw [hSnapshot]
    exact (h.active_get? hStore).mpr hOccupied
  rw [hAbort, finishRecord_active patch (advance_store_self _ _ _ _ _ _) hOpen
    (hCompletion.trans hPending) hActive, advance_advance, hSnapshot]
  exact .finish patch hooks hStore hRunning
    ⟨hSequence, hSpec, hSnapshot, hCompletion, hRelease, hChain, fun _ => hUnknown⟩ (.inl hController)

end

theorem state_cases (state : SftpTaskState) (hOpen : ¬ isTerminalState state = true) (hRunning : state ≠ .running) : state = .queued := by
  cases state with
  | queued => rfl
  | running => exact absurd rfl hRunning
  | succeeded => exact absurd rfl hOpen
  | failed => exact absurd rfl hOpen
  | cancelled => exact absurd rfl hOpen

end Settling

theorem cancelRecord_steps (h : s.WellFormed) (n : Nat) : Steps outcome s (s.cancelRecord n) := by
  rw [cancelRecord]
  split
  · exact .refl
  · rename_i record hStore
    split
    · exact .refl
    · rename_i hOpen
      split
      · rename_i hRunning
        dsimp only
        split
        · exact .single (h.finish_aborted hStore hRunning .cancelled fun _ => rfl)
        · rename_i hImpact
          exact .single (h.finish_aborted hStore hRunning .cancelled fun hMutation => absurd hMutation hImpact)
      · rename_i hRunning
        exact .single (h.finish_queued hStore (state_cases _ hOpen hRunning) id)

theorem handleDeadline_steps (h : s.WellFormed) (n : Nat) : Steps outcome s (s.handleDeadline n) := by
  rw [handleDeadline]
  split
  · exact .refl
  · rename_i record hStore
    split
    · exact .refl
    · rename_i hOpen
      split
      · rename_i hRunning
        refine .head (h.finish_aborted hStore hRunning .deadline ?_) (resolveIdleWaiters_steps _)
        intro hMutation
        simp [TerminalPatch.unknown, deadlineFailure, hMutation]
      · rename_i hRunning
        have hKnown : ¬ (TerminalPatch.failed (deadlineFailure false) none : TerminalPatch ρ).unknown := by
          simp [TerminalPatch.unknown, deadlineFailure]
        have hFinish : Transition outcome s _ := h.finish_queued hStore (state_cases _ hOpen hRunning) hKnown
        exact .head hFinish (.trans (dispatch_steps (h.transition hFinish)) (resolveIdleWaiters_steps _))

theorem foldl_steps {f : SftpTaskScheduler ρ π ε → Nat → SftpTaskScheduler ρ π ε}
    (hStep : ∀ s n, WellFormed s → Steps outcome s (f s n)) (records : List Nat) (h : s.WellFormed) : Steps outcome s (records.foldl f s) := by
  induction records generalizing s with
  | nil => exact .refl
  | cons n records ih =>
    have hFirst := hStep s n h
    exact .trans hFirst (ih (h.steps hFirst))

section

variable (h : s.WellFormed)
include h

theorem dispatch_resolve_steps : Steps outcome s s.dispatch.resolveIdleWaiters := .trans (dispatch_steps h) (resolveIdleWaiters_steps _)

theorem cancelAll_steps : Steps outcome s s.cancelAll := by
  have hQueue : Steps outcome s _ := foldl_steps (fun s n hs => cancelRecord_steps hs n) s.queue h
  have hActive : Steps outcome (s.queue.foldl cancelRecord s) _ :=
    foldl_steps (fun s n hs => cancelRecord_steps hs n) (s.queue.foldl cancelRecord s).active.values
      (h.steps hQueue)
  have hBoth : Steps outcome s _ := .trans hQueue hActive
  exact .trans hBoth (dispatch_resolve_steps (h.steps hBoth))

theorem cancellationListener_steps (signal n : Nat) : Steps outcome s (s.cancellationListener signal n) := by
  rw [cancellationListener]
  split
  · exact .refl
  · split
    · have hCancel : Steps outcome s _ := cancelRecord_steps h n
      exact .trans hCancel (dispatch_resolve_steps (h.steps hCancel))
    · exact .refl

theorem abortSignal_steps (signal : Nat) : Steps outcome s (s.abortSignal signal) := by
  rw [abortSignal]
  split
  · exact .refl
  · have hMark : Transition outcome s { s with abortedSignals := signal :: s.abortedSignals } :=
      .quiet ⟨rfl, rfl, rfl, rfl, rfl, rfl, rfl⟩ (.same rfl rfl rfl)
    exact .head hMark (foldl_steps (fun s n hs => cancellationListener_steps hs signal n) _
      (h.transition hMark))

theorem forgetTask_steps (taskId : Text) : Steps outcome s (s.forgetTask taskId).2 := by
  rw [forgetTask]
  split
  · exact .refl
  · rename_i record hFound
    obtain ⟨n, hGet, hStore⟩ := Option.bind_eq_some_iff.mp hFound
    obtain ⟨found, hNamed, rfl⟩ := h.named taskId n hGet
    rw [hStore, Option.some.injEq] at hNamed
    subst hNamed
    split
    · exact .refl
    · rename_i hSettled
      simp only [Bool.or_eq_true, Bool.not_eq_true', not_or, Bool.not_eq_true, Bool.not_eq_false] at hSettled
      refine .single (.forget hStore hGet ?_)
      rintro (hOpen | hOccupied)
      · rw [hSettled.1] at hOpen
        cases hOpen
      · have hActive := (h.active_get? hStore).mpr hOccupied
        rw [(s.active.has_eq_false_iff _).mp hSettled.2] at hActive
        cases hActive

end

theorem startMicrotask_steps (h : s.WellFormed) (n : Nat) : Steps outcome s (s.startMicrotask n) := by
  rw [startMicrotask]
  split
  · exact .refl
  · rename_i record hStore
    obtain ⟨_, hCoherent⟩ := h.coherent n record hStore
    split
    · exact .refl
    · rename_i hChain
      rw [ne_eq, not_not] at hChain
      split
      · rename_i hRunning
        refine .single (.settle hStore (.inl hChain) ?_)
        cases hState : record.snapshot.state with
        | queued =>
          rw [hCoherent.queued hState] at hChain
          cases hChain
        | running => exact absurd hState hRunning
        | succeeded => rfl
        | failed => rfl
        | cancelled => rfl
      · rename_i hRunning
        rw [ne_eq, not_not] at hRunning
        exact .single (.invoke hStore hChain hRunning)

theorem markSettled_steps {s' : SftpTaskScheduler ρ π ε} (hSteps : Steps outcome s s') (hStore : s'.store n = some record)
    (hChain : record.chain = .awaitingRunner) (hTerminal : isTerminalState record.snapshot.state = true) :
    Steps outcome s (s'.markSettled n) := by
  rw [markSettled, hStore]
  exact hSteps.tail (.settle hStore (.inr hChain) hTerminal)

theorem finishRecord_store (h : s.WellFormed) (hStore : s.store n = some record) (hRunning : record.snapshot.state = .running)
    (patch : TerminalPatch ρ) : (s.finishRecord n patch).store n = some (ended record patch s.now) := by
  obtain ⟨_, hCoherent⟩ := h.coherent n record hStore
  obtain ⟨hOccupied, _, _, hPending⟩ := hCoherent.running_facts hRunning
  have hOpen : isTerminalState record.snapshot.state = false := by rw [hRunning]; rfl
  rw [finishRecord_active patch hStore hOpen hPending ((h.active_get? hStore).mpr hOccupied),
    advance_store_self]

theorem settleRunner_steps (h : s.WellFormed) (n : Nat) (result : Except ε (SftpTaskRunOutcome ρ)) :
    Steps (some n) s (s.settleRunner n result) := by
  unfold settleRunner
  split
  · exact .refl
  · rename_i record hStore
    obtain ⟨_, hCoherent⟩ := h.coherent n record hStore
    split
    · exact .refl
    · rename_i hChain
      rw [ne_eq, not_not] at hChain
      have hOver : record.snapshot.state ≠ .running → Steps (some n) s (s.markSettled n) := by
        intro hRunning
        refine markSettled_steps .refl hStore hChain ?_
        cases hState : record.snapshot.state with
        | queued =>
          rw [hCoherent.queued hState] at hChain
          cases hChain
        | running => exact absurd hState hRunning
        | succeeded => rfl
        | failed => rfl
        | cancelled => rfl
      have hFinish : record.snapshot.state = .running → ∀ patch : TerminalPatch ρ,
          Steps (some n) s ((s.finishRecord n patch).markSettled n) := fun hRunning patch =>
        markSettled_steps (.single (h.finish_running hStore hRunning patch))
          (finishRecord_store h hStore hRunning patch) hChain (isTerminalState_apply patch _ _)
      by_cases hRunning : record.snapshot.state = .running
      · cases result with
        | ok outcome =>
          cases outcome with
          | succeeded result => simpa [applyRunOutcome, hStore, hRunning] using hFinish hRunning _
          | failed failure result => simpa [applyRunOutcome, hStore, hRunning] using hFinish hRunning _
          | cancelled result => simpa [applyRunOutcome, hStore, hRunning] using hFinish hRunning _
        | error error => simpa [applyUnexpectedFailure, hStore, hRunning] using hFinish hRunning _
      · cases result with
        | ok outcome => simpa [applyRunOutcome, hStore, hRunning] using hOver hRunning
        | error error => simpa [applyUnexpectedFailure, hStore, hRunning] using hOver hRunning

theorem finishChain_steps (h : s.WellFormed) (n : Nat) : Steps outcome s (s.finishChain n) := by
  rw [finishChain]
  split
  · exact .refl
  · rename_i record hStore
    obtain ⟨_, hCoherent⟩ := h.coherent n record hStore
    split
    · exact .refl
    · rename_i hChain
      rw [ne_eq, not_not] at hChain
      have hOccupied : record.chain.occupied = true := by rw [hChain]; rfl
      have hActive := (h.active_get? hStore).mpr hOccupied
      have hHeld := hCoherent.not_released (.inr hOccupied)
      have hRelease : Transition outcome s _ := .release hStore hChain
      have hEq : (s.put n { record with chain := .finished }).releaseRecord n =
          (s.advance n { record with chain := .finished, releaseResolved := true } s.queue
            (s.active.delete record.snapshot.taskId) [.released n]).dispatch.resolveIdleWaiters := by
        have hInner : { s.put n { record with chain := .finished } with
              active := s.active.delete record.snapshot.taskId }.resolveReleased n =
            s.advance n { record with chain := .finished, releaseResolved := true } s.queue
              (s.active.delete record.snapshot.taskId) [.released n] := by
          simp only [resolveReleased, put, if_true, hHeld, Bool.false_eq_true, if_false, observe, advance]
          congr 1
          funext m
          split <;> rfl
        rw [← hInner]
        simp only [releaseRecord, put, if_true, hActive, ne_eq, not_true_eq_false, if_false]
      rw [hEq]
      exact .head hRelease (dispatch_resolve_steps (h.transition hRelease))

theorem reportPartial_steps (n : Nat) (value : π) : Steps outcome s (s.reportPartial n value) := by
  rw [reportPartial]
  split
  · exact .refl
  · rename_i record hStore
    split
    · exact .refl
    · rename_i hRunning
      simp only [not_or, ne_eq, not_not] at hRunning
      rw [put_eq_advance]
      exact .single (.report value hStore hRunning.2)

theorem waitForIdle_steps (s : SftpTaskScheduler ρ π ε) : Steps outcome s s.waitForIdle := by
  rw [waitForIdle]
  dsimp only
  split
  · rename_i hIdle
    refine .single (.quiet ⟨rfl, rfl, rfl, rfl, rfl, rfl, rfl⟩ (.pass ?_ rfl rfl rfl))
    exact ⟨List.length_eq_zero_iff.mp hIdle.1, List.length_eq_zero_iff.mp hIdle.2⟩
  · exact .single (.quiet ⟨rfl, rfl, rfl, rfl, rfl, rfl, rfl⟩ (.wait rfl rfl rfl))

theorem newRecord_fresh (s : SftpTaskScheduler ρ π ε) (collation : Collation) (spec : SftpTaskSpec ε)
    {taskId : Text} (h : s.records.has taskId = false) : Fresh s (s.newRecord collation spec taskId) :=
  ⟨rfl, rfl, rfl, rfl, rfl, rfl, rfl, rfl, (s.records.has_eq_false_iff taskId).mp h⟩

def EventSteps (outcome : Option Nat) (s s' : SftpTaskScheduler ρ π ε) : Prop :=
  Steps outcome s s' ∨ ∃ middle, Submit s middle ∧ Steps outcome middle s'

theorem schedule_steps {s' : SftpTaskScheduler ρ π ε} (h : s.WellFormed) {collation : Collation} {spec : SftpTaskSpec ε}
    {generatedId : Text} (hOk : s.schedule collation spec generatedId = .ok s') : EventSteps outcome s s' := by
  rw [schedule] at hOk
  split at hOk
  · cases hOk
  · dsimp only at hOk
    split at hOk
    · cases hOk
    · rename_i hNew
      obtain rfl := Except.ok.inj hOk
      have hSubmit : Submit s (s.enqueue (s.newRecord collation spec (spec.taskId.getD generatedId))) :=
        .mk (s.newRecord_fresh collation spec (Bool.eq_false_iff.mpr hNew))
      have hWell := h.submit hSubmit
      refine .inr ⟨_, hSubmit, ?_⟩
      split
      · have hCancel : Steps outcome _ _ := cancelRecord_steps hWell s.sequence
        exact .trans hCancel (dispatch_steps (hWell.steps hCancel))
      · exact dispatch_steps hWell

def outcomeOf : SftpTaskEvent ρ π ε → Option Nat
  | .settleRunner n _ => some n
  | _ => none

theorem step_steps (h : s.WellFormed) (collation : Collation) (event : SftpTaskEvent ρ π ε) :
    EventSteps (outcomeOf event) s (s.step collation event) := by
  cases event with
  | schedule spec generatedId =>
    rw [step]
    cases hResult : s.schedule collation spec generatedId with
    | ok s' => exact schedule_steps h hResult
    | error message => exact .inl .refl
  | cancelAll => exact .inl (cancelAll_steps h)
  | forgetTask taskId => exact .inl (forgetTask_steps h taskId)
  | waitForIdle => exact .inl (waitForIdle_steps s)
  | abortSignal signal => exact .inl (abortSignal_steps h signal)
  | fireDeadline n =>
    rw [step, fireDeadline]
    split
    · exact .inl .refl
    · split
      · exact .inl (handleDeadline_steps h n)
      · exact .inl .refl
  | startMicrotask n => exact .inl (startMicrotask_steps h n)
  | settleRunner n result => exact .inl (settleRunner_steps h n result)
  | finishChain n => exact .inl (finishChain_steps h n)
  | reportPartial n value => exact .inl (reportPartial_steps n value)
  | clock now => exact .inl (.single (.quiet ⟨rfl, rfl, rfl, rfl, rfl, rfl, rfl⟩ (.same rfl rfl rfl)))

end Sftp.SftpTaskScheduler
