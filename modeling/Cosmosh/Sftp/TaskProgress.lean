import Cosmosh.Sftp.TaskSafety

/-! # No runnable task is left waiting and no idle waiter is left asleep -/

namespace Sftp.SftpTaskScheduler

open Library

variable {ρ π ε : Type} {outcome : Option Nat}

structure Settled (s : SftpTaskScheduler ρ π ε) : Prop where
  calm : s.isDispatching = false
  blocked : s.findNextRunnableIndex = none
  awake : s.Idle → s.idleWaiters = []

variable {s s' : SftpTaskScheduler ρ π ε}

theorem scanQueue_congr (hLimits : s'.limits = s.limits) (hQueue : s'.queue = s.queue) (hActive : s'.active = s.active)
    (hClaims : s'.claimsOf = s.claimsOf) (hResources : s'.resourcesOf = s.resourcesOf) (rest : List Nat) (index : Nat) :
    s'.scanQueue index rest = s.scanQueue index rest := by
  induction rest generalizing index with
  | nil => rfl
  | cons n rest ih =>
    have hCapacity : s'.hasCapacityFor n = s.hasCapacityFor n := by
      simp only [hasCapacityFor, hLimits, hActive, hResources]
    have hConflicts : s'.conflictsWithActive n = s.conflictsWithActive n := by
      simp only [conflictsWithActive, hActive, hClaims]
    have hOlder : s'.conflictsWithOlderQueuedClaim n index = s.conflictsWithOlderQueuedClaim n index := by
      simp only [conflictsWithOlderQueuedClaim, hQueue, hClaims]
    simp only [scanQueue, hResources, hActive, hCapacity, hConflicts, hOlder, ih]

theorem findNextRunnableIndex_congr (hLimits : s'.limits = s.limits) (hQueue : s'.queue = s.queue)
    (hActive : s'.active = s.active) (hClaims : s'.claimsOf = s.claimsOf) (hResources : s'.resourcesOf = s.resourcesOf) :
    s'.findNextRunnableIndex = s.findNextRunnableIndex := by
  simp only [findNextRunnableIndex, hQueue, hResources,
    scanQueue_congr hLimits hQueue hActive hClaims hResources]

variable {n : Nat} {record record' : StoredTaskRecord ρ π ε}

theorem claimsOf_advance {queue : List Nat} {active : JsMap Text Nat} {entries : List (SftpTaskObservation ρ π)}
    (hStore : s.store n = some record) (hClaims : record'.snapshot.claims = record.snapshot.claims)
    (hResources : record'.spec.resources = record.spec.resources) : (s.advance n record' queue active entries).claimsOf = s.claimsOf ∧
      (s.advance n record' queue active entries).resourcesOf = s.resourcesOf := by
  have hTicket : ∀ m, (s.advance n record' queue active entries).ticket m = s.ticket m := congrFun (ticket_advance hStore hClaims hResources)
  exact ⟨funext fun m => congrArg Ticket.claims (hTicket m),
    funext fun m => congrArg Ticket.resources (hTicket m)⟩

theorem findNextRunnableIndex_idle (hActive : s.active.entries = []) (hQueue : s.queue ≠ []) : s.findNextRunnableIndex ≠ none := by
  obtain ⟨n, rest, hCons⟩ := List.exists_cons_of_ne_nil hQueue
  have hValues : s.active.values = [] := by rw [JsMap.values, hActive, List.map_nil]
  have hSize : s.active.size = 0 := by rw [JsMap.size, hActive, List.length_nil]
  have hScan : ∀ tail, s.scanQueue 0 (n :: tail) = some 0 := by
    intro tail
    have hTotal := s.limits.total_pos
    have hHeavy := s.limits.heavy_pos
    have hMutation := s.limits.mutation_pos
    have hCapacity : s.hasCapacityFor n = true := by
      simp [hasCapacityFor, hValues, hSize, Nat.ne_of_gt hTotal, Nat.ne_of_gt hHeavy, hMutation]
    simp [scanQueue, hSize, hCapacity, conflictsWithActive, hValues, conflictsWithOlderQueuedClaim]
  have hTake : ∀ k, s.queue.take (k + 1) = n :: rest.take k := by
    intro k
    rw [hCons, List.take_succ_cons]
  have hLength : s.queue.length = rest.length + 1 := by rw [hCons, List.length_cons]
  rw [findNextRunnableIndex]
  split
  · rw [hLength, hTake, hScan]
    rintro ⟨⟩
  · rw [hTake, hScan]
    rintro ⟨⟩

theorem Admits.free {ahead : List Nat} (h : s.Admits ahead n) (hShared : (s.resourcesOf n).exclusive = false) :
    s.hasCapacityFor n = true ∧ s.conflictsWithActive n = false ∧ ∀ m ∈ ahead, doClaimSetsConflict (s.claimsOf n) (s.claimsOf m) = false := by
  cases h with
  | alone hExclusive hAhead hHolding =>
    have hEq : (s.resourcesOf n).exclusive = true := hExclusive
    rw [hShared] at hEq
    cases hEq
  | shared hExclusive hAhead hHolding hCapacity =>
    have hRoom : ∀ c ∈ (policy s.limits).classes, c.member (s.ticket n) = true →
        s.active.values.countP (fun m => c.member (s.ticket m)) < c.limit := by
      intro c hc hMember
      have hCount := hCapacity c hc hMember
      rwa [List.countP_map] at hCount
    have hTotal := hRoom _ List.mem_cons_self rfl
    have hHeavy := hRoom _ (List.mem_cons_of_mem _ List.mem_cons_self)
    have hMutation := hRoom _ (List.mem_cons_of_mem _ (List.mem_cons_of_mem _ List.mem_cons_self))
    have hAlone : ∀ m ∈ s.active.values, (s.resourcesOf m).exclusive = false := fun m hm =>
      Bool.eq_false_iff.mpr (hHolding _ (List.mem_map_of_mem hm)).1
    refine ⟨?_, ?_, ?_⟩
    · have hSize : ¬ s.active.size ≥ s.limits.total := by
        simpa [JsMap.size, JsMap.values] using hTotal
      rw [hasCapacityFor, if_neg, if_neg hSize]
      · dsimp only
        rw [← List.countP_eq_length_filter, ← List.countP_eq_length_filter, if_neg]
        · rw [decide_eq_true_eq]
          by_cases hImpact : (s.resourcesOf n).impact = .mutation
          · exact .inr (hMutation (decide_eq_true hImpact))
          · exact .inl hImpact
        · rintro ⟨hWorkload, hFull⟩
          exact absurd (hHeavy (decide_eq_true hWorkload)) (Nat.not_lt_of_le hFull)
      · rw [List.any_eq_true]
        rintro ⟨m, hm, hEq⟩
        rw [hAlone m hm] at hEq
        cases hEq
    · rw [conflictsWithActive, Bool.eq_false_iff, Ne, List.any_eq_true]
      rintro ⟨m, hm, hConflict⟩
      exact (hHolding _ (List.mem_map_of_mem hm)).2 hConflict
    · exact fun m hm => Bool.eq_false_iff.mpr (hAhead _ (List.mem_map_of_mem hm)).2

theorem scanQueue_none {rest : List Nat} (ahead behind : List Nat) (hQueue : s.queue = ahead ++ (rest ++ behind))
    (h : s.scanQueue ahead.length rest = none) {before after : List Nat} (hRest : rest = before ++ n :: after) :
    (∃ m ∈ before, (s.resourcesOf m).exclusive = true) ∨ ¬ s.Admits (ahead ++ before) n := by
  induction rest generalizing ahead before with
  | nil => exact absurd hRest.symm (by simp)
  | cons first rest ih =>
    rw [scanQueue] at h
    cases before with
    | nil =>
      obtain ⟨rfl, rfl⟩ := List.cons.inj hRest
      refine .inr ?_
      rw [List.append_nil]
      intro hAdmits
      cases hExclusive : (s.resourcesOf first).exclusive with
      | true =>
        rw [hExclusive, if_pos rfl] at h
        cases hAdmits with
        | alone _ hAhead hHolding =>
          have hNil : ahead = [] := List.map_eq_nil_iff.mp hAhead
          have hEntries : s.active.entries = [] := List.map_eq_nil_iff.mp (List.map_eq_nil_iff.mp hHolding)
          rw [if_pos ⟨by rw [hNil, List.length_nil], by rw [JsMap.size, hEntries, List.length_nil]⟩] at h
          cases h
        | shared hShared _ _ _ => exact hShared hExclusive
      | false =>
        obtain ⟨hCapacity, hActive, hOlder⟩ := hAdmits.free hExclusive
        have hQuiet : s.conflictsWithOlderQueuedClaim first ahead.length = false := by
          rw [conflictsWithOlderQueuedClaim, hQueue, List.take_left, Bool.eq_false_iff, Ne, List.any_eq_true]
          rintro ⟨m, hm, hConflict⟩
          rw [hOlder m hm] at hConflict
          cases hConflict
        simp [hExclusive, hCapacity, hActive, hQuiet] at h
    | cons second before =>
      obtain ⟨rfl, hTail⟩ := List.cons.inj hRest
      cases hExclusive : (s.resourcesOf first).exclusive with
      | true => exact .inl ⟨first, List.mem_cons_self, hExclusive⟩
      | false =>
        have hNext : s.scanQueue (ahead ++ [first]).length rest = none := by
          rw [List.length_append, List.length_singleton]
          rw [hExclusive, if_neg (by simp)] at h
          split at h
          · exact h
          · split at h
            · exact h
            · cases h
        have hStep := ih (ahead ++ [first]) (by simpa using hQueue) hNext hTail
        rw [List.append_assoc] at hStep
        obtain ⟨m, hm, hEq⟩ | hRefused := hStep
        · exact .inl ⟨m, List.mem_cons_of_mem _ hm, hEq⟩
        · exact .inr hRefused

theorem findNextRunnableIndex_none (h : s.findNextRunnableIndex = none) {before after : List Nat} (hQueue : s.queue = before ++ n :: after) :
    (∃ m ∈ before, (s.resourcesOf m).exclusive = true) ∨ ¬ s.Admits before n := by
  by_cases hBarrier : ∃ m ∈ before, (s.resourcesOf m).exclusive = true
  · exact .inl hBarrier
  · have hScan : ∀ k, before.length < k → s.scanQueue 0 (s.queue.take k) = none →
        (∃ m ∈ before, (s.resourcesOf m).exclusive = true) ∨ ¬ s.Admits before n := by
      intro k hk hNone
      have hTake : s.queue.take k = before ++ n :: after.take (k - before.length - 1) := by
        obtain ⟨d, rfl⟩ : ∃ d, k = before.length + (d + 1) := ⟨k - before.length - 1, by omega⟩
        rw [hQueue, List.take_length_add_append, List.take_succ_cons]
        simp
      exact scanQueue_none [] (s.queue.drop k) (List.take_append_drop _ _).symm hNone hTake
    rw [findNextRunnableIndex] at h
    split at h
    · have hLength : before.length < s.queue.length := by simp [hQueue]
      exact hScan _ hLength h
    · rename_i i hIndex
      obtain ⟨hBound, hExclusive, _⟩ := List.findIdx?_eq_some_iff_getElem.mp hIndex
      have hAfter : ¬ i < before.length := by
        intro hBefore
        apply hBarrier
        refine ⟨before[i], List.getElem_mem hBefore, ?_⟩
        simpa [hQueue, List.getElem_append_left hBefore] using hExclusive
      exact hScan _ (Nat.lt_succ_of_le (Nat.le_of_not_lt hAfter)) h

theorem startRecord_queue (s : SftpTaskScheduler ρ π ε) (n : Nat) : (s.startRecord n).queue = s.queue := by
  rw [startRecord]
  split <;> rfl

theorem dispatchLoop_blocked {fuel : Nat} (h : s.queue.length ≤ fuel) : (dispatchLoop fuel s).findNextRunnableIndex = none := by
  induction fuel generalizing s with
  | zero =>
    have hNil : s.queue = [] := List.length_eq_zero_iff.mp (Nat.le_zero.mp h)
    simp [dispatchLoop, findNextRunnableIndex, hNil, scanQueue]
  | succ fuel ih =>
    rw [dispatchLoop]
    split
    · assumption
    · rename_i i hNext
      obtain ⟨before, n, after, hQueue, rfl, _⟩ := findNextRunnableIndex_some hNext
      have hGet : s.queue[before.length]? = some n := by simp [hQueue]
      rw [hGet]
      apply ih
      rw [startRecord_queue, List.length_eraseIdx_of_lt (by simp [hQueue])]
      omega

theorem dispatch_settled (h : s.isDispatching = false) : s.dispatch.Settled := by
  have hCongr : ∀ s s' : SftpTaskScheduler ρ π ε, s.findNextRunnableIndex = none → s'.limits = s.limits →
      s'.queue = s.queue → s'.active = s.active → s'.store = s.store → s'.findNextRunnableIndex = none := by
    intro s s' hBlocked hLimits hQueue hActive hStore
    rw [findNextRunnableIndex_congr hLimits hQueue hActive _ _, hBlocked]
    · funext n
      simp only [claimsOf, hStore]
    · funext n
      simp only [resourcesOf, hStore]
  rw [dispatch, if_neg (by simp [h])]
  dsimp only
  have hBlocked : (dispatchLoop s.queue.length { s with isDispatching := true }).findNextRunnableIndex = none :=
    dispatchLoop_blocked (Nat.le_refl _)
  generalize dispatchLoop s.queue.length { s with isDispatching := true } = stopped at hBlocked
  rw [resolveIdleWaiters]
  split
  · rename_i hBusy
    refine ⟨rfl, hCongr stopped _ hBlocked rfl rfl rfl rfl, ?_⟩
    rintro ⟨hQueue, hActive⟩
    rw [hQueue, JsMap.size, hActive] at hBusy
    simp at hBusy
  · exact ⟨rfl, hCongr stopped _ hBlocked rfl rfl rfl rfl, fun _ => rfl⟩

theorem Settled.resolveIdleWaiters (h : s.Settled) : s.resolveIdleWaiters = s := by
  rw [SftpTaskScheduler.resolveIdleWaiters]
  split
  · rfl
  · rename_i hBusy
    simp only [not_or, Nat.not_lt, Nat.le_zero] at hBusy
    have hWaiters := h.awake ⟨List.length_eq_zero_iff.mp hBusy.1, List.length_eq_zero_iff.mp hBusy.2⟩
    rw [hWaiters, List.append_nil]
    cases s
    simp_all

theorem dispatch_resolve_settled (h : s.isDispatching = false) : s.dispatch.resolveIdleWaiters.Settled := by
  have hSettled := dispatch_settled h
  rw [hSettled.resolveIdleWaiters]
  exact hSettled

structure Still (s s' : SftpTaskScheduler ρ π ε) : Prop where
  limits : s'.limits = s.limits
  queue : s'.queue = s.queue
  active : s'.active = s.active
  claimsOf : s'.claimsOf = s.claimsOf
  resourcesOf : s'.resourcesOf = s.resourcesOf
  isDispatching : s'.isDispatching = s.isDispatching
  idleWaiters : s'.idleWaiters = s.idleWaiters

theorem Still.refl (s : SftpTaskScheduler ρ π ε) : Still s s := ⟨rfl, rfl, rfl, rfl, rfl, rfl, rfl⟩

theorem Still.trans {a b c : SftpTaskScheduler ρ π ε} (hab : Still a b) (hbc : Still b c) : Still a c :=
  ⟨hbc.limits.trans hab.limits, hbc.queue.trans hab.queue, hbc.active.trans hab.active,
    hbc.claimsOf.trans hab.claimsOf, hbc.resourcesOf.trans hab.resourcesOf,
    hbc.isDispatching.trans hab.isDispatching, hbc.idleWaiters.trans hab.idleWaiters⟩

theorem Settled.still (h : s.Settled) (hStill : Still s s') : s'.Settled := by
  refine ⟨hStill.isDispatching.trans h.calm, ?_, ?_⟩
  · rw [findNextRunnableIndex_congr hStill.limits hStill.queue hStill.active hStill.claimsOf hStill.resourcesOf]
    exact h.blocked
  · rintro ⟨hQueue, hActive⟩
    rw [hStill.queue] at hQueue
    rw [hStill.active] at hActive
    exact hStill.idleWaiters.trans (h.awake ⟨hQueue, hActive⟩)

theorem still_put (hStore : s.store n = some record) (hClaims : record'.snapshot.claims = record.snapshot.claims)
    (hResources : record'.spec.resources = record.spec.resources) : Still s (s.put n record') := by
  rw [put_eq_advance]
  obtain ⟨hClaimsOf, hResourcesOf⟩ := claimsOf_advance hStore hClaims hResources
  exact ⟨rfl, rfl, rfl, hClaimsOf, hResourcesOf, rfl, rfl⟩

theorem still_observe (s : SftpTaskScheduler ρ π ε) (entry : SftpTaskObservation ρ π) : Still s (s.observe entry) :=
  ⟨rfl, rfl, rfl, rfl, rfl, rfl, rfl⟩

theorem still_put_observe (hStore : s.store n = some record) (hClaims : record'.snapshot.claims = record.snapshot.claims)
    (hResources : record'.spec.resources = record.spec.resources) {entry : SftpTaskObservation ρ π} :
    Still s ((s.put n record').observe entry) := (still_put hStore hClaims hResources).trans (still_observe _ entry)

theorem still_resolveReleased (s : SftpTaskScheduler ρ π ε) (n : Nat) : Still s (s.resolveReleased n) := by
  rw [resolveReleased]
  split
  · exact .refl s
  · rename_i record hStore
    split
    · exact .refl s
    · refine still_put_observe hStore ?_ ?_ <;> rfl

theorem still_finishRecord (s : SftpTaskScheduler ρ π ε) (n : Nat) (patch : TerminalPatch ρ) : Still s (s.finishRecord n patch) := by
  rw [finishRecord]
  split
  · exact .refl s
  · rename_i record hStore
    split
    · exact .refl s
    · have hCompletion : ∀ record' : StoredTaskRecord ρ π ε, record'.snapshot.claims = record.snapshot.claims →
          record'.spec.resources = record.spec.resources → Still s (s.resolveCompletion n record') := by
        intro record' hClaims hResources
        rw [resolveCompletion]
        split
        · exact still_put hStore hClaims hResources
        · refine still_put_observe hStore ?_ ?_ <;> assumption
      have hFirst := hCompletion
        { cleanupLifecycle record with snapshot := patch.apply (cleanupLifecycle record).snapshot s.now }
        (apply_claims patch _ _) rfl
      dsimp only
      split
      · exact hFirst
      · exact hFirst.trans (still_resolveReleased _ n)

theorem still_abortRunning (hStore : s.store n = some record) (reason : SftpTaskAbortReason) : Still s (s.abortRunning n record reason) := by
  rw [abortRunning, invokeAbortHook]
  split
  · exact still_put hStore rfl rfl
  · refine still_put_observe hStore ?_ ?_ <;> rfl

section

variable (s : SftpTaskScheduler ρ π ε) (n : Nat)

theorem still_markSettled : Still s (s.markSettled n) := by
  rw [markSettled]
  split
  · exact .refl s
  · rename_i record hStore
    refine still_put_observe hStore ?_ ?_ <;> rfl

theorem still_applyRunOutcome (outcome : SftpTaskRunOutcome ρ) : Still s (s.applyRunOutcome n outcome) := by
  unfold applyRunOutcome
  split
  · exact .refl s
  · split
    · exact .refl s
    · cases outcome with
      | succeeded result => exact still_finishRecord s n _
      | failed failure result => exact still_finishRecord s n _
      | cancelled result => exact still_finishRecord s n _

theorem still_applyUnexpectedFailure (error : ε) : Still s (s.applyUnexpectedFailure n error) := by
  rw [applyUnexpectedFailure]
  split
  · exact .refl s
  · split
    · exact .refl s
    · exact still_finishRecord s n _

theorem still_settleRunner (result : Except ε (SftpTaskRunOutcome ρ)) : Still s (s.settleRunner n result) := by
  unfold settleRunner
  split
  · exact .refl s
  · split
    · exact .refl s
    · cases result with
      | ok outcome => exact (still_applyRunOutcome s n outcome).trans (still_markSettled _ n)
      | error error => exact (still_applyUnexpectedFailure s n error).trans (still_markSettled _ n)

theorem still_startMicrotask : Still s (s.startMicrotask n) := by
  rw [startMicrotask]
  split
  · exact .refl s
  · rename_i record hStore
    split
    · exact .refl s
    · split
      · refine still_put_observe hStore ?_ ?_ <;> rfl
      · refine still_put_observe hStore ?_ ?_ <;> rfl

theorem still_reportPartial (value : π) : Still s (s.reportPartial n value) := by
  rw [reportPartial]
  split
  · exact .refl s
  · rename_i record hStore
    split
    · exact .refl s
    · exact still_put hStore rfl rfl

end

theorem cancelRecord_isDispatching (s : SftpTaskScheduler ρ π ε) (n : Nat) : (s.cancelRecord n).isDispatching = s.isDispatching := by
  rw [cancelRecord]
  split
  · rfl
  · rename_i record hStore
    split
    · rfl
    · split
      · dsimp only
        split
        · exact ((still_abortRunning hStore .cancelled).trans (still_finishRecord _ n _)).isDispatching
        · exact ((still_abortRunning hStore .cancelled).trans (still_finishRecord _ n _)).isDispatching
      · exact (still_finishRecord (s.removeQueuedRecord n) n _).isDispatching

theorem foldl_cancelRecord_isDispatching (records : List Nat) (s : SftpTaskScheduler ρ π ε) :
    (records.foldl cancelRecord s).isDispatching = s.isDispatching := by
  induction records generalizing s with
  | nil => rfl
  | cons n records ih => exact (ih (s.cancelRecord n)).trans (cancelRecord_isDispatching s n)

section

variable (h : s.Settled)
include h

theorem Settled.handleDeadline (n : Nat) : (s.handleDeadline n).Settled := by
  rw [SftpTaskScheduler.handleDeadline]
  split
  · exact h
  · rename_i record hStore
    split
    · exact h
    · split
      · have hSettled := h.still ((still_abortRunning hStore .deadline).trans (still_finishRecord _ n
          (.failed (deadlineFailure (decide (record.spec.resources.impact = .mutation))) none)))
        dsimp only
        rw [hSettled.resolveIdleWaiters]
        exact hSettled
      · apply dispatch_resolve_settled
        exact (still_finishRecord (s.removeQueuedRecord n) n _).isDispatching.trans h.calm

theorem Settled.cancellationListener (signal n : Nat) : (s.cancellationListener signal n).Settled := by
  rw [SftpTaskScheduler.cancellationListener]
  split
  · exact h
  · split
    · exact dispatch_resolve_settled ((cancelRecord_isDispatching s n).trans h.calm)
    · exact h

theorem Settled.abortSignal (signal : Nat) : (s.abortSignal signal).Settled := by
  have hFold : ∀ (records : List Nat) (s : SftpTaskScheduler ρ π ε), s.Settled →
      (records.foldl (fun s n => s.cancellationListener signal n) s).Settled := by
    intro records
    induction records with
    | nil => exact fun _ hSettled => hSettled
    | cons n records ih => exact fun s hSettled => ih _ (hSettled.cancellationListener signal n)
  rw [SftpTaskScheduler.abortSignal]
  split
  · exact h
  · exact hFold _ _ (h.still ⟨rfl, rfl, rfl, rfl, rfl, rfl, rfl⟩)

theorem Settled.waitForIdle : s.waitForIdle.Settled := by
  rw [SftpTaskScheduler.waitForIdle]
  dsimp only
  split
  · exact h.still ⟨rfl, rfl, rfl, rfl, rfl, rfl, rfl⟩
  · rename_i hBusy
    refine ⟨h.calm, ?_, ?_⟩
    · rw [← h.blocked]
      exact findNextRunnableIndex_congr rfl rfl rfl rfl rfl
    · rintro ⟨hQueue, hActive⟩
      exact absurd ⟨List.length_eq_zero_iff.mpr hQueue, List.length_eq_zero_iff.mpr hActive⟩ hBusy

theorem Settled.finishChain (n : Nat) : (s.finishChain n).Settled := by
  rw [SftpTaskScheduler.finishChain]
  split
  · exact h
  · rename_i record hStore
    split
    · exact h
    · have hStill : Still s (s.put n { record with chain := .finished }) := still_put hStore rfl rfl
      rw [releaseRecord]
      split
      · exact h.still hStill
      · split
        · exact h.still hStill
        · apply dispatch_resolve_settled
          exact (still_resolveReleased _ n).isDispatching.trans (hStill.isDispatching.trans h.calm)

theorem Settled.schedule {collation : Collation} {spec : SftpTaskSpec ε} {generatedId : Text}
    (hOk : s.schedule collation spec generatedId = .ok s') : s'.Settled := by
  rw [SftpTaskScheduler.schedule] at hOk
  split at hOk
  · cases hOk
  · dsimp only at hOk
    split at hOk
    · cases hOk
    · obtain rfl := Except.ok.inj hOk
      apply dispatch_settled
      split
      · exact (cancelRecord_isDispatching _ _).trans h.calm
      · exact h.calm

theorem Settled.step (collation : Collation) (event : SftpTaskEvent ρ π ε) : (s.step collation event).Settled := by
  cases event with
  | schedule spec generatedId =>
    rw [SftpTaskScheduler.step]
    cases hResult : s.schedule collation spec generatedId with
    | ok s' => exact h.schedule hResult
    | error message => exact h
  | cancelAll =>
    apply dispatch_resolve_settled
    rw [foldl_cancelRecord_isDispatching, foldl_cancelRecord_isDispatching]
    exact h.calm
  | forgetTask taskId =>
    rw [SftpTaskScheduler.step, forgetTask]
    split
    · exact h
    · split
      · exact h
      · exact h.still ⟨rfl, rfl, rfl, rfl, rfl, rfl, rfl⟩
  | waitForIdle => exact h.waitForIdle
  | abortSignal signal => exact h.abortSignal signal
  | fireDeadline n =>
    rw [SftpTaskScheduler.step, fireDeadline]
    split
    · exact h
    · split
      · exact h.handleDeadline n
      · exact h
  | startMicrotask n => exact h.still (still_startMicrotask s n)
  | settleRunner n result => exact h.still (still_settleRunner s n result)
  | finishChain n => exact h.finishChain n
  | reportPartial n value => exact h.still (still_reportPartial s n value)
  | clock now => exact h.still ⟨rfl, rfl, rfl, rfl, rfl, rfl, rfl⟩

end

theorem Transition.waiters (h : Transition outcome s s') : WaitersStep s s' := by
  cases h with
  | quiet hTasks hWaiters => exact hWaiters
  | withdraw => exact .same rfl rfl rfl
  | start => exact .same rfl rfl rfl
  | finish => exact .same rfl rfl rfl
  | invoke => exact .same rfl rfl rfl
  | settle => exact .same rfl rfl rfl
  | release => exact .same rfl rfl rfl
  | report => exact .same rfl rfl rfl
  | forget => exact .same rfl rfl rfl

def Accounted (s : SftpTaskScheduler ρ π ε) : Prop := (s.resolvedWaiters ++ s.idleWaiters).Perm (List.range s.issuedWaiters)

theorem Accounted.step (h : s.Accounted) (hWaiters : WaitersStep s s') : s'.Accounted := by
  rw [Accounted] at *
  cases hWaiters with
  | same hPending hIssued hResolved => rwa [hPending, hIssued, hResolved]
  | resolve hIdle hPending hIssued hResolved => rwa [hPending, hIssued, hResolved, List.append_nil]
  | wait hPending hIssued hResolved =>
    rw [hPending, hIssued, hResolved, List.range_succ, ← List.append_assoc]
    exact h.append_right _
  | pass hIdle hPending hIssued hResolved =>
    rw [hPending, hIssued, hResolved, List.range_succ, List.append_assoc]
    refine List.Perm.trans ?_ (h.append_right [s.issuedWaiters])
    rw [List.append_assoc]
    exact List.perm_append_comm.append_left _

theorem Accounted.steps (h : s.Accounted) (hSteps : Steps outcome s s') : s'.Accounted := by
  induction hSteps with
  | refl => exact h
  | tail _ hTransition ih => exact ih.step hTransition.waiters

theorem Accounted.event (h : s.Accounted) (hEvent : EventSteps outcome s s') : s'.Accounted := by
  obtain hSteps | ⟨middle, ⟨_⟩, hSteps⟩ := hEvent
  · exact h.steps hSteps
  · exact Accounted.steps (s := s.enqueue _) h hSteps

structure Rests (s s' : SftpTaskScheduler ρ π ε) : Prop where
  idle : s.Idle → s'.Idle
  grows : s.resolvedWaiters <+: s'.resolvedWaiters
  resolved : s'.resolvedWaiters ≠ s.resolvedWaiters → s'.Idle

theorem Rests.refl (s : SftpTaskScheduler ρ π ε) : Rests s s := ⟨id, List.prefix_refl _, fun h => absurd rfl h⟩

theorem Rests.trans {a b c : SftpTaskScheduler ρ π ε} (hab : Rests a b) (hbc : Rests b c) : Rests a c := by
  refine ⟨hbc.idle ∘ hab.idle, hab.grows.trans hbc.grows, ?_⟩
  intro hNe
  by_cases hLater : c.resolvedWaiters = b.resolvedWaiters
  · exact hbc.idle (hab.resolved (hLater ▸ hNe))
  · exact hbc.resolved hLater

theorem Transition.idle (h : Transition outcome s s') (hIdle : s.Idle) : s'.Idle := by
  obtain ⟨hQueue, hActive⟩ := hIdle
  cases h with
  | withdraw => exact ⟨by rw [advance_queue, hQueue, List.erase_nil], hActive⟩
  | start hStore hSplit hAdmits =>
    rw [hQueue] at hSplit
    exact absurd hSplit.symm (by simp)
  | finish => exact ⟨hQueue, hActive⟩
  | invoke => exact ⟨hQueue, hActive⟩
  | settle => exact ⟨hQueue, hActive⟩
  | release =>
    refine ⟨hQueue, ?_⟩
    simp only [advance_active, JsMap.delete, hActive, List.filter_nil]
  | report => exact ⟨hQueue, hActive⟩
  | forget => exact ⟨hQueue, hActive⟩
  | quiet hTasks hWaiters =>
    rw [Idle, hTasks.queue, hTasks.active]
    exact ⟨hQueue, hActive⟩

theorem Transition.rests (h : Transition outcome s s') : Rests s s' := by
  refine ⟨h.idle, ?_, ?_⟩
  · cases h.waiters with
    | same _ _ hResolved => rw [hResolved]
    | resolve _ _ _ hResolved => exact ⟨_, hResolved.symm⟩
    | wait _ _ hResolved => rw [hResolved]
    | pass _ _ _ hResolved => exact ⟨_, hResolved.symm⟩
  · intro hNe
    cases h.waiters with
    | same _ _ hResolved => exact absurd hResolved hNe
    | resolve hIdle => exact h.idle hIdle
    | wait _ _ hResolved => exact absurd hResolved hNe
    | pass hIdle => exact h.idle hIdle

theorem steps_rests (h : Steps outcome s s') : Rests s s' := by
  induction h with
  | refl => exact .refl s
  | tail _ hTransition ih => exact ih.trans hTransition.rests

theorem EventSteps.resolved (h : EventSteps outcome s s') :
    s.resolvedWaiters <+: s'.resolvedWaiters ∧ (s'.resolvedWaiters ≠ s.resolvedWaiters → s'.Idle) := by
  obtain hSteps | ⟨middle, ⟨_⟩, hSteps⟩ := h
  · exact ⟨(steps_rests hSteps).grows, (steps_rests hSteps).resolved⟩
  · exact ⟨(steps_rests hSteps).grows, (steps_rests hSteps).resolved⟩

theorem Untouched.settled (h : s.Untouched) : s.Settled ∧ s.Accounted := by
  refine ⟨⟨h.isDispatching, ?_, fun _ => h.idleWaiters⟩, ?_⟩
  · simp [findNextRunnableIndex, h.queue, scanQueue]
  · rw [Accounted, h.resolvedWaiters, h.idleWaiters, h.issuedWaiters]
    exact .refl _

section Reachable

variable {collation : Collation} {s : SftpTaskScheduler ρ π ε}

theorem settled_of_reachable (h : (machine ρ π ε collation).Reachable s) : s.Settled ∧ s.Accounted := by
  apply h.invariant
  · rintro start ⟨options, hConstruct⟩
    exact (construct_untouched hConstruct).settled
  · intro state event hReachable hSettled
    have hValid := valid_of_reachable hReachable
    exact ⟨hSettled.1.step collation event, hSettled.2.event (step_steps hValid.wellFormed collation event)⟩

/-- After every event the queue holds nothing runnable, and waiters are resolved exactly on an idle scheduler. -/
theorem work_conserving (h : (machine ρ π ε collation).Reachable s) : s.findNextRunnableIndex = none ∧ (s.active.size = 0 → s.queue = []) ∧
    (s.queue = [] ∧ s.active.size = 0 → s.idleWaiters = []) ∧ (s.resolvedWaiters ++ s.idleWaiters).Perm (List.range s.issuedWaiters) ∧
    ∀ event : SftpTaskEvent ρ π ε, s.resolvedWaiters <+: (s.step collation event).resolvedWaiters ∧
      ∀ waiter ∈ (s.step collation event).resolvedWaiters, waiter ∉ s.resolvedWaiters →
        (s.step collation event).queue = [] ∧ (s.step collation event).active.size = 0 := by
  obtain ⟨hSettled, hAccounted⟩ := settled_of_reachable h
  refine ⟨hSettled.blocked, ?_, ?_, hAccounted, ?_⟩
  · intro hActive
    by_contra hQueue
    exact findNextRunnableIndex_idle (List.length_eq_zero_iff.mp hActive) hQueue hSettled.blocked
  · exact fun hIdle => hSettled.awake ⟨hIdle.1, List.length_eq_zero_iff.mp hIdle.2⟩
  · intro event
    have hEvent := (step_steps (valid_of_reachable h).wellFormed collation event).resolved
    refine ⟨hEvent.1, ?_⟩
    intro waiter hWaiter hNew
    have hNe : (s.step collation event).resolvedWaiters ≠ s.resolvedWaiters := by
      intro hEq
      exact hNew (hEq ▸ hWaiter)
    exact ⟨(hEvent.2 hNe).1, List.length_eq_zero_iff.mpr (hEvent.2 hNe).2⟩

end Reachable

theorem work_conserving_after_deadline : ∃ s : SftpTaskScheduler Unit Unit Unit, construct sampleOptions = .ok s ∧
      ((machine Unit Unit Unit plainCollation).run s sampleEvents).findNextRunnableIndex = none :=
  ⟨_, rfl, (work_conserving (reachable_run plainCollation (rfl : construct sampleOptions = .ok _) sampleEvents)).1⟩

end Sftp.SftpTaskScheduler
