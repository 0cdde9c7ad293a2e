import Cosmosh.Sftp.TaskProgress

/-! # The order and the end of tasks -/

variable {n : Nat}

namespace Sftp.SftpTaskScheduler

open Library Library.History

variable {ρ π ε : Type} {s : SftpTaskScheduler ρ π ε}

def ownLife (n : Nat) (record : StoredTaskRecord ρ π ε) (invoked : Bool) : List (SftpTaskObservation ρ π) :=
  life n { record with releaseResolved := false } invoked

theorem life_released {record : StoredTaskRecord ρ π ε} {invoked : Bool} (h : .released n ∈ life n record invoked) :
    record.releaseResolved = true ∧ life n record invoked = ownLife n record invoked ++ [.released n] ∧
      .released n ∉ ownLife n record invoked := by
  have hReleased : record.releaseResolved = true := by
    cases hFlag : record.releaseResolved with
    | true => rfl
    | false => cases hChain : record.chain <;> cases invoked <;> simp [life, hChain, hFlag] at h
  refine ⟨hReleased, ?_, ?_⟩
  · simp [ownLife, life, hReleased]
  · cases hChain : record.chain <;> cases invoked <;> simp [ownLife, life, hChain]

variable {before : List (SftpTaskObservation ρ π)}

theorem Valid.complete_of_released (h : s.Valid) {rest : List (SftpTaskObservation ρ π)} (hSplit : s.observed = before ++ rest)
    (hReleased : .released n ∈ before) (hStarted : .started n ∈ s.observed) : .started n ∈ before ∧ .runnerSettled n ∈ before := by
  obtain ⟨record, invoked, hStore, _, hHistory⟩ := h.history_eq (h.recorded.about_lt h.wellFormed hStarted rfl)
  obtain ⟨_, hCoherent⟩ := h.wellFormed.coherent n record hStore
  have hMem : .released n ∈ s.observed := hSplit ▸ List.mem_append_left _ hReleased
  rw [← mem_history rfl, hHistory] at hMem
  obtain ⟨hFlag, hLife, hFresh⟩ := life_released hMem
  obtain ⟨first, second, rfl⟩ := List.append_of_mem hReleased
  have hParts : ownLife n record invoked ++ [.released n] =
      (first.filter fun e => about e = some n) ++ .released n ::
        ((second ++ rest).filter fun e => about e = some n) := by
    rw [← hLife, ← hHistory, history, hSplit]
    simp [List.filter_append, about]
  have hFirst := (eq_of_concat_eq_split hParts hFresh).1
  have hPast : ∀ e, e ∈ ownLife n record invoked → e ∈ first ++ .released n :: second := by
    intro e he
    rw [← hFirst] at he
    exact List.mem_append_left _ (List.mem_of_mem_filter he)
  rw [← mem_history rfl, hHistory, mem_life_started] at hStarted
  have hFinished : record.chain = .finished := by
    have hFree := (hCoherent.release.mp hFlag).2
    cases hChain : record.chain with
    | unstarted => exact absurd hChain hStarted
    | finished => rfl
    | microtaskQueued => rw [hChain] at hFree; cases hFree
    | awaitingRunner => rw [hChain] at hFree; cases hFree
    | settled => rw [hChain] at hFree; cases hFree
  exact ⟨hPast _ (mem_life_started.mpr hStarted), hPast _ (mem_life_settled.mpr (.inr hFinished))⟩

theorem Valid.submitted_before (h : s.Valid) {i j : Nat} (hLe : i ≤ j) {after : List (SftpTaskObservation ρ π)}
    (hSplit : s.observed = before ++ .started j :: after) : .submitted i ∈ before := by
  have hStarted : .started j ∈ s.observed := hSplit ▸ List.mem_append_right _ List.mem_cons_self
  obtain ⟨record, invoked, _, _, hHistory⟩ := h.history_eq (h.recorded.about_lt h.wellFormed hStarted rfl)
  have hParts : life j record invoked = (before.filter fun e => about e = some j) ++ .started j ::
      (after.filter fun e => about e = some j) := by
    rw [← hHistory, history, hSplit]
    simp [List.filter_append, about]
  have hSubmitted : SftpTaskObservation.submitted j ∈ before := by
    cases hFilter : before.filter (fun e => about e = some j) with
    | nil =>
      rw [hFilter, life] at hParts
      simp at hParts
    | cons e tail =>
      rw [hFilter, life, List.cons_append, List.cons.injEq] at hParts
      have hMem : e ∈ before.filter fun e => about e = some j := hFilter ▸ List.mem_cons_self
      rw [← hParts.1] at hMem
      exact List.mem_of_mem_filter hMem
  have hPrefix : before.filterMap submission <+: List.range s.sequence := by
    rw [← h.recorded.submissions, hSplit, List.filterMap_append]
    exact List.prefix_append _ _
  have hNumber : j ∈ before.filterMap submission := mem_filterMap_of_mem hSubmitted rfl
  obtain ⟨e, he, hSubmission⟩ := List.mem_filterMap.mp (mem_of_isPrefix_range hPrefix hNumber hLe)
  cases e <;> simp only [submission, reduceCtorEq, Option.some.injEq] at hSubmission
  exact hSubmission ▸ he

theorem Valid.released_before (h : s.Valid) {i j : Nat} {after : List (SftpTaskObservation ρ π)} (hOlder : i < j)
    (hOrdered : (policy s.limits).Ordered (s.ticket i) (s.ticket j)) (hSplit : s.observed = before ++ .started j :: after) :
    .released i ∈ before := by
  have hLawful := h.fair.lawful.of_filterMap before (.started j) after hSplit _ rfl
  have hArrived : .arrived (s.ticket i) ∈ before.filterMap (mark s.ticket) :=
    mem_filterMap_of_mem (h.submitted_before (Nat.le_of_lt hOlder) hSplit) rfl
  have hLeft := (hLawful (s.ticket i) hArrived hOrdered).1 hOlder
  obtain ⟨e, he, hMark⟩ := List.mem_filterMap.mp hLeft
  cases e <;> simp only [mark, reduceCtorEq, Option.some.injEq, Admission.Mark.left.injEq] at hMark
  rename_i n
  obtain rfl : n = i := congrArg Ticket.sequence hMark
  exact he

theorem Valid.withdrawn (h : s.Valid) {i : Nat} {record : StoredTaskRecord ρ π ε}
    (hStore : s.store i = some record) (hTerminal : isTerminalState record.snapshot.state = true)
    (hNever : record.snapshot.startedAt = none) : i ∉ s.queue ∧ i ∉ s.active.values := by
  obtain ⟨_, hCoherent⟩ := h.wellFormed.coherent i record hStore
  constructor
  · intro hMem
    obtain ⟨found, hFound, hQueued⟩ := (h.wellFormed.queued i).mp hMem
    rw [hStore, Option.some.injEq] at hFound
    rw [hFound, hQueued] at hTerminal
    cases hTerminal
  · intro hMem
    obtain ⟨found, hFound, hOccupied⟩ := h.mem_active.mp hMem
    rw [hStore, Option.some.injEq] at hFound
    rw [← hFound, hCoherent.started.mpr hNever] at hOccupied
    cases hOccupied

/-- Conflicting or exclusive work starts in submission order, each after the release of the older one;
what keeps a task queued is always another queued or active task. -/
theorem no_overtaking {collation : Collation} (h : (machine ρ π ε collation).Reachable s) :
    (∀ i j before after, i < j → s.observed = before ++ .started j :: after →
      doClaimSetsConflict (s.claimsOf i) (s.claimsOf j) = true ∨ (s.resourcesOf i).exclusive = true ∨ (s.resourcesOf j).exclusive = true →
      .released i ∈ before ∧ (.started i ∈ s.observed → .started i ∈ before ∧ .runnerSettled i ∈ before)) ∧
    (∀ i record, s.store i = some record → isTerminalState record.snapshot.state = true →
      record.snapshot.startedAt = none → i ∉ s.queue ∧ i ∉ s.active.values) ∧ (∀ j before after, s.queue = before ++ j :: after →
      (∃ i ∈ before, (s.resourcesOf i).exclusive = true) ∨ ¬ s.Admits before j) := by
  have hValid := valid_of_reachable h
  refine ⟨?_, ?_, ?_⟩
  · intro i j before after hOlder hSplit hOrdered
    have hReleased := hValid.released_before hOlder hOrdered hSplit
    exact ⟨hReleased, hValid.complete_of_released hSplit hReleased⟩
  · exact fun i record hStore hTerminal hNever => hValid.withdrawn hStore hTerminal hNever
  · intro j before after hQueue
    exact findNextRunnableIndex_none (settled_of_reachable h).1.blocked hQueue

def exclusiveEvents : List (SftpTaskEvent Unit Unit Unit) :=
  [.schedule (sampleSpec ⟨.lifecycle, .light, true⟩ []) "first".toList,
    .schedule (sampleSpec ⟨.read, .light, false⟩ []) "second".toList,
    .startMicrotask 0, .fireDeadline 0, .settleRunner 0 (.ok (.cancelled none)), .finishChain 0]

theorem no_overtaking_of_exclusive : ∃ (s : SftpTaskScheduler Unit Unit Unit) (before after : List (SftpTaskObservation Unit Unit)),
      construct sampleOptions = .ok s ∧ ((machine Unit Unit Unit plainCollation).run s exclusiveEvents).observed =
        before ++ .started 1 :: after ∧ .released 0 ∈ before := by
  refine ⟨_, [_, _, _, _, _, _, _], _, rfl, rfl, ?_⟩
  have hReachable := reachable_run plainCollation (rfl : construct sampleOptions = .ok _) exclusiveEvents
  exact ((no_overtaking hReachable).1 0 1 _ _ Nat.zero_lt_one rfl (.inr (.inl rfl))).1

end Sftp.SftpTaskScheduler

namespace Sftp.SftpTaskScheduler

open Library

variable {ρ π ε : Type} {outcome : Option Nat} {s s' : SftpTaskScheduler ρ π ε}

inductive Advances : SftpTaskState → SftpTaskState → Prop
  | same (state : SftpTaskState) : Advances state state
  | start : Advances .queued .running
  | finish {state : SftpTaskState} (last : SftpTaskState) (hOpen : isTerminalState state = false)
      (hTerminal : isTerminalState last = true) : Advances state last

theorem Advances.trans {a b c : SftpTaskState} (hab : Advances a b) (hbc : Advances b c) : Advances a c := by
  cases hab with
  | same => exact hbc
  | start =>
    cases hbc with
    | same => exact .start
    | finish last _ hTerminal => exact .finish _ rfl hTerminal
  | finish last hOpen hTerminal =>
    cases hbc with
    | same => exact .finish _ hOpen hTerminal
    | start => cases hTerminal
    | finish _ hStillOpen _ =>
      rw [hTerminal] at hStillOpen
      cases hStillOpen

structure Forward (record record' : StoredTaskRecord ρ π ε) : Prop where
  state : Advances record.snapshot.state record'.snapshot.state
  resources : record'.spec.resources = record.spec.resources
  frozen : isTerminalState record.snapshot.state = true →
    record'.snapshot = record.snapshot ∧ record'.controller = record.controller

theorem Forward.refl (record : StoredTaskRecord ρ π ε) : Forward record record := ⟨.same _, rfl, fun _ => ⟨rfl, rfl⟩⟩

theorem Forward.trans {a b c : StoredTaskRecord ρ π ε} (hab : Forward a b) (hbc : Forward b c) : Forward a c := by
  refine ⟨hab.state.trans hbc.state, hbc.resources.trans hab.resources, ?_⟩
  intro hTerminal
  obtain ⟨hSnapshot, hController⟩ := hab.frozen hTerminal
  obtain ⟨hSnapshot', hController'⟩ := hbc.frozen (by rw [hSnapshot, hTerminal])
  exact ⟨hSnapshot'.trans hSnapshot, hController'.trans hController⟩

theorem Forward.of_open {record record' : StoredTaskRecord ρ π ε} (hOpen : isTerminalState record.snapshot.state = false)
    (hState : Advances record.snapshot.state record'.snapshot.state)
    (hResources : record'.spec.resources = record.spec.resources) : Forward record record' := by
  refine ⟨hState, hResources, ?_⟩
  intro hTerminal
  rw [hOpen] at hTerminal
  cases hTerminal

theorem forward_advance {record record' : StoredTaskRecord ρ π ε} {queue : List Nat} {active : JsMap Text Nat}
    {entries : List (SftpTaskObservation ρ π)} (hStore : s.store n = some record) (hForward : Forward record record') (m : Nat)
    (found : StoredTaskRecord ρ π ε) (hFound : s.store m = some found) :
    ∃ found', (s.advance n record' queue active entries).store m = some found' ∧ Forward found found' := by
  by_cases hEq : m = n
  · subst hEq
    rw [hStore, Option.some.injEq] at hFound
    subst hFound
    exact ⟨record', advance_store_self _ _ _ _ _ _, hForward⟩
  · exact ⟨found, (advance_store_of_ne _ _ _ _ _ _ hEq).trans hFound, .refl found⟩

theorem Transition.forward (hWell : s.WellFormed) (h : Transition outcome s s') (m : Nat)
    (found : StoredTaskRecord ρ π ε) (hFound : s.store m = some found) : ∃ found', s'.store m = some found' ∧ Forward found found' := by
  cases h with
  | @withdraw n record patch hStore hQueued hKnown =>
    have hOpen : isTerminalState record.snapshot.state = false := by rw [hQueued]; rfl
    refine forward_advance hStore ?_ m found hFound
    exact .of_open hOpen (.finish _ hOpen (isTerminalState_apply patch _ _)) rfl
  | @start n record ahead behind hStore hQueue hAdmits =>
    have hQueued := hWell.queued_of_split hQueue hStore
    have hBegins : Advances record.snapshot.state .running := by
      rw [hQueued]
      exact .start
    refine forward_advance hStore ?_ m found hFound
    exact .of_open (by rw [hQueued]; rfl) hBegins rfl
  | @finish n record record' patch hooks hStore hRunning hSignalled hCause =>
    have hOpen : isTerminalState record.snapshot.state = false := by rw [hRunning]; rfl
    have hResources : record'.spec.resources = record.spec.resources := by rw [hSignalled.spec]
    refine forward_advance hStore ?_ m found hFound
    exact .of_open hOpen (.finish _ hOpen (isTerminalState_apply patch _ _)) hResources
  | invoke hStore hChain hRunning =>
    refine forward_advance hStore ?_ m found hFound
    exact ⟨.same _, rfl, fun _ => ⟨rfl, rfl⟩⟩
  | settle hStore hChain hTerminal =>
    refine forward_advance hStore ?_ m found hFound
    exact ⟨.same _, rfl, fun _ => ⟨rfl, rfl⟩⟩
  | release hStore hChain =>
    refine forward_advance hStore ?_ m found hFound
    exact ⟨.same _, rfl, fun _ => ⟨rfl, rfl⟩⟩
  | @report n record value hStore hRunning =>
    refine forward_advance hStore ?_ m found hFound
    exact .of_open (by rw [hRunning]; rfl) (.same _) rfl
  | forget hStore hRegistered hLive => exact ⟨found, hFound, .refl found⟩
  | quiet hTasks hWaiters =>
    rw [hTasks.store]
    exact ⟨found, hFound, .refl found⟩

variable {m : Nat} {found' : StoredTaskRecord ρ π ε}

theorem Transition.aborted (hWell : s.WellFormed) (h : Transition outcome s s') (hOther : outcome ≠ some m)
    (hFound' : s'.store m = some found') (hTerminal' : isTerminalState found'.snapshot.state = true)
    (hStarted : found'.snapshot.startedAt ≠ none) : (∃ found, s.store m = some found ∧ isTerminalState found.snapshot.state = true) ∨
      found'.controller.isSome = true := by
  have hAdvance : ∀ {n : Nat} {record record' : StoredTaskRecord ρ π ε} {queue : List Nat}
      {active : JsMap Text Nat} {entries : List (SftpTaskObservation ρ π)},
      (s.advance n record' queue active entries).store m = some found' → s.store n = some record →
      (m = n → found' = record' → isTerminalState record.snapshot.state = true ∨
        found'.controller.isSome = true) →
      (∃ found, s.store m = some found ∧ isTerminalState found.snapshot.state = true) ∨
        found'.controller.isSome = true := by
    intro n record record' queue active entries hFound' hStore hSelf
    by_cases hEq : m = n
    · subst hEq
      rw [advance_store_self, Option.some.injEq] at hFound'
      obtain hEnded | hAborted := hSelf rfl hFound'.symm
      · exact .inl ⟨record, hStore, hEnded⟩
      · exact .inr hAborted
    · rw [advance_store_of_ne _ _ _ _ _ _ hEq] at hFound'
      exact .inl ⟨found', hFound', hTerminal'⟩
  cases h with
  | @withdraw n record patch hStore hQueued hKnown =>
    apply hAdvance hFound' hStore
    rintro rfl rfl
    obtain ⟨_, hCoherent⟩ := hWell.coherent m record hStore
    exact absurd ((apply_startedAt patch _ _).trans (hCoherent.queued_facts hQueued).2.1) hStarted
  | start hStore hQueue hAdmits =>
    apply hAdvance hFound' hStore
    rintro rfl rfl
    cases hTerminal'
  | @finish n record record' patch hooks hStore hRunning hSignalled hCause =>
    apply hAdvance hFound' hStore
    rintro rfl rfl
    obtain hController | hOutcome := hCause
    · exact .inr hController
    · exact absurd hOutcome hOther
  | invoke hStore hChain hRunning =>
    apply hAdvance hFound' hStore
    rintro rfl rfl
    exact .inl hTerminal'
  | settle hStore hChain hTerminal =>
    apply hAdvance hFound' hStore
    exact fun _ _ => .inl hTerminal
  | @release n record hStore hChain =>
    apply hAdvance hFound' hStore
    obtain ⟨_, hCoherent⟩ := hWell.coherent n record hStore
    exact fun _ _ => .inl (hCoherent.freed hChain).1
  | report value hStore hRunning =>
    apply hAdvance hFound' hStore
    rintro rfl rfl
    exact .inl hTerminal'
  | forget hStore hRegistered hLive => exact .inl ⟨found', hFound', hTerminal'⟩
  | quiet hTasks hWaiters =>
    rw [hTasks.store] at hFound'
    exact .inl ⟨found', hFound', hTerminal'⟩

section

variable (hWell : s.WellFormed)
include hWell

theorem steps_forward (h : Steps outcome s s') (m : Nat) (found : StoredTaskRecord ρ π ε) (hFound : s.store m = some found) :
    ∃ found', s'.store m = some found' ∧ Forward found found' := by
  induction h with
  | refl => exact ⟨found, hFound, .refl found⟩
  | tail hSteps hTransition ih =>
    obtain ⟨middle, hMiddle, hForward⟩ := ih
    obtain ⟨found', hFound', hForward'⟩ := hTransition.forward (hWell.steps hSteps) m middle hMiddle
    exact ⟨found', hFound', hForward.trans hForward'⟩

theorem steps_aborted (h : Steps outcome s s') (hOther : outcome ≠ some m) {record : StoredTaskRecord ρ π ε}
    (hStore : s.store m = some record) (hOpen : isTerminalState record.snapshot.state = false)
    (hFound' : s'.store m = some found') (hTerminal' : isTerminalState found'.snapshot.state = true)
    (hStarted : found'.snapshot.startedAt ≠ none) : found'.controller.isSome = true := by
  induction h generalizing found' with
  | refl =>
    rw [hStore, Option.some.injEq] at hFound'
    rw [hFound', hTerminal'] at hOpen
    cases hOpen
  | tail hSteps hTransition ih =>
    have hMiddleWell := hWell.steps hSteps
    obtain ⟨middle, hMiddle, hTerminal⟩ | hAborted := hTransition.aborted hMiddleWell hOther hFound' hTerminal' hStarted
    · obtain ⟨next, hNext, hForward⟩ := hTransition.forward hMiddleWell m middle hMiddle
      rw [hFound', Option.some.injEq] at hNext
      subst hNext
      obtain ⟨hSnapshot, hController⟩ := hForward.frozen hTerminal
      rw [hController]
      exact ih hMiddle hTerminal (hSnapshot ▸ hStarted)
    · exact hAborted

theorem submit_store (h : Submit s s') {found : StoredTaskRecord ρ π ε} (hFound : s.store m = some found) : s'.store m = some found := by
  obtain ⟨_⟩ := h
  exact (enqueue_store_of_ne s _ (Nat.ne_of_lt (hWell.lt_of_store hFound))).trans hFound

theorem EventSteps.forward (h : EventSteps outcome s s') (m : Nat) (found : StoredTaskRecord ρ π ε) (hFound : s.store m = some found) :
    ∃ found', s'.store m = some found' ∧ Forward found found' := by
  obtain hSteps | ⟨middle, hSubmit, hSteps⟩ := h
  · exact steps_forward hWell hSteps m found hFound
  · exact steps_forward (hWell.submit hSubmit) hSteps m found (submit_store hWell hSubmit hFound)

theorem EventSteps.aborted (h : EventSteps outcome s s') (hOther : outcome ≠ some m) {record : StoredTaskRecord ρ π ε}
    (hStore : s.store m = some record) (hOpen : isTerminalState record.snapshot.state = false)
    (hFound' : s'.store m = some found') (hTerminal' : isTerminalState found'.snapshot.state = true)
    (hStarted : found'.snapshot.startedAt ≠ none) : found'.controller.isSome = true := by
  obtain hSteps | ⟨middle, hSubmit, hSteps⟩ := h
  · exact steps_aborted hWell hSteps hOther hStore hOpen hFound' hTerminal' hStarted
  · exact steps_aborted (hWell.submit hSubmit) hSteps hOther (submit_store hWell hSubmit hStore) hOpen
      hFound' hTerminal' hStarted

end

def completionOf (n : Nat) : SftpTaskObservation ρ π → Option (SftpTaskSnapshot ρ π)
  | .completion m snapshot => if m = n then some snapshot else none
  | _ => none

def isReleased (n : Nat) : SftpTaskObservation ρ π → Bool
  | .released m => m = n
  | _ => false

def isRunnerInvoked (n : Nat) : SftpTaskObservation ρ π → Bool
  | .runnerInvoked m => m = n
  | _ => false

theorem completions_history (n : Nat) : s.observed.filterMap (completionOf n) = (s.history n).filterMap (completionOf n) := by
  rw [history, List.filterMap_filter]
  apply List.filterMap_congr
  intro e _
  cases e with
  | completion m snapshot =>
    by_cases hEq : m = n
    · simp [about, hEq]
    · simp [about, completionOf, hEq]
  | submitted m => simp [completionOf]
  | started m => simp [completionOf]
  | runnerInvoked m => simp [completionOf]
  | runnerSettled m => simp [completionOf]
  | abortHook m reason => simp [completionOf]
  | released m => simp [completionOf]

theorem countP_history {p : SftpTaskObservation ρ π → Bool} (h : ∀ e, p e = true → about e = some n) :
    s.observed.countP p = (s.history n).countP p := by
  rw [history, List.countP_filter]
  apply List.countP_congr
  intro e _
  constructor
  · intro hp
    simp [hp, h e hp]
  · intro hp
    simp only [Bool.and_eq_true] at hp
    exact hp.1

theorem about_of_isReleased (e : SftpTaskObservation ρ π) (h : isReleased n e = true) : about e = some n := by
  cases e <;> simp_all [isReleased, about]

theorem about_of_isRunnerInvoked (e : SftpTaskObservation ρ π) (h : isRunnerInvoked n e = true) : about e = some n := by
  cases e <;> simp_all [isRunnerInvoked, about]

section Life

variable (n : Nat) (record : StoredTaskRecord ρ π ε) (invoked : Bool)

theorem completions_ite (p : Prop) [Decidable p] {first second : List (SftpTaskObservation ρ π)}
    (hFirst : first.filterMap (completionOf n) = []) (hSecond : second.filterMap (completionOf n) = []) :
    (if p then first else second).filterMap (completionOf n) = [] := by
  split
  · exact hFirst
  · exact hSecond

theorem life_completions : (life n record invoked).filterMap (completionOf n) =
    if isTerminalState record.snapshot.state then [copySnapshot record.snapshot] else [] := by
  have hCompletion : (if isTerminalState record.snapshot.state then
      [SftpTaskObservation.completion n (copySnapshot record.snapshot)] else []).filterMap (completionOf n) =
      if isTerminalState record.snapshot.state then [copySnapshot record.snapshot] else [] := by
    split
    · simp [completionOf]
    · rfl
  rw [life, List.filterMap_cons_none rfl]
  simp only [List.filterMap_append]
  rw [completions_ite n _ rfl rfl, completions_ite n _ rfl rfl, hCompletion, completions_ite n _ rfl rfl, completions_ite n _ rfl rfl]
  simp only [List.nil_append, List.append_nil]

theorem life_released_count : (life n record invoked).countP (isReleased n) = if record.releaseResolved then 1 else 0 := by
  cases hTerminal : isTerminalState record.snapshot.state <;> cases hChain : record.chain <;> cases invoked <;>
    cases hReleased : record.releaseResolved <;> simp [life, isReleased, hTerminal, hChain, hReleased]

theorem life_invoked_count : (life n record invoked).countP (isRunnerInvoked n) ≤ 1 := by
  cases hTerminal : isTerminalState record.snapshot.state <;> cases hChain : record.chain <;> cases invoked <;>
    cases hReleased : record.releaseResolved <;> simp [life, isRunnerInvoked, hTerminal, hChain, hReleased]

theorem life_pairwise : (life n record invoked).Pairwise fun a b => ¬ ((completionOf n a).isSome = true ∧ isRunnerInvoked n b = true) := by
  cases hTerminal : isTerminalState record.snapshot.state <;> cases hChain : record.chain <;> cases invoked <;>
    cases hReleased : record.releaseResolved <;>
    simp [life, isRunnerInvoked, completionOf, hTerminal, hChain, hReleased]

end Life

section Reachable

variable {collation : Collation}

theorem run_forward (h : (machine ρ π ε collation).Reachable s) (events : List (SftpTaskEvent ρ π ε))
    {record : StoredTaskRecord ρ π ε} (hStore : s.store n = some record) :
    ∃ record', ((machine ρ π ε collation).run s events).store n = some record' ∧ Forward record record' := by
  refine h.related (R := fun a b => ∀ record, a.store n = some record →
    ∃ record', b.store n = some record' ∧ Forward record record') ?_ ?_ ?_ events record hStore
  · exact fun _ record hFound => ⟨record, hFound, .refl record⟩
  · intro a b c hab hbc record hFound
    obtain ⟨record', hFound', hForward⟩ := hab record hFound
    obtain ⟨record'', hFound'', hForward'⟩ := hbc record' hFound'
    exact ⟨record'', hFound'', hForward.trans hForward'⟩
  · intro state event hReachable record hFound
    have hWell := (valid_of_reachable hReachable).wellFormed
    exact (step_steps hWell collation event).forward hWell n record hFound

theorem Valid.released_count (h : s.Valid) {record : StoredTaskRecord ρ π ε} (hStore : s.store n = some record) :
    s.observed.countP (isReleased n) = if isTerminalState record.snapshot.state = true ∧ n ∉ s.active.values then 1 else 0 := by
  obtain ⟨invoked, _, hHistory⟩ := h.recorded.known n record hStore
  obtain ⟨_, hCoherent⟩ := h.wellFormed.coherent n record hStore
  have hActive : n ∈ s.active.values ↔ record.chain.occupied = true := by
    rw [h.mem_active, hStore]
    simp
  rw [countP_history about_of_isReleased, hHistory, life_released_count]
  simp only [hActive, Bool.not_eq_true, hCoherent.release]

theorem outcomeOf_ne {event : SftpTaskEvent ρ π ε} (h : ∀ result, event ≠ .settleRunner n result) : outcomeOf event ≠ some n := by
  cases event with
  | settleRunner m result =>
    intro hEq
    exact h result (Option.some.inj hEq ▸ rfl)
  | schedule => rintro ⟨⟩
  | cancelAll => rintro ⟨⟩
  | forgetTask => rintro ⟨⟩
  | waitForIdle => rintro ⟨⟩
  | abortSignal => rintro ⟨⟩
  | fireDeadline => rintro ⟨⟩
  | startMicrotask => rintro ⟨⟩
  | finishChain => rintro ⟨⟩
  | reportPartial => rintro ⟨⟩
  | clock => rintro ⟨⟩

/-- The life of one task: its states only advance, its end is final and is told once, its runner is called
at most once and never after the end, and only an aborted running mutation has an unknown outcome. -/
theorem task_lifecycle (h : (machine ρ π ε collation).Reachable s) {n : Nat}
    {record : StoredTaskRecord ρ π ε} (hStore : s.store n = some record) :
    (∀ events, ∃ record', ((machine ρ π ε collation).run s events).store n = some record' ∧
      Advances record.snapshot.state record'.snapshot.state ∧
      (isTerminalState record.snapshot.state = true → record'.snapshot = record.snapshot)) ∧ s.observed.filterMap (completionOf n) =
      (if isTerminalState record.snapshot.state then [copySnapshot record.snapshot] else []) ∧ s.observed.countP (isReleased n) =
      (if isTerminalState record.snapshot.state = true ∧ n ∉ s.active.values then 1 else 0) ∧ s.observed.countP (isRunnerInvoked n) ≤ 1 ∧
    (∀ before after snapshot, s.observed = before ++ .runnerInvoked n :: after → .completion n snapshot ∉ before) ∧
    (∀ event, (∀ result, event ≠ .settleRunner n result) → ∀ record',
      (s.step collation event).store n = some record' → isTerminalState record.snapshot.state = false →
      isTerminalState record'.snapshot.state = true → record'.snapshot.startedAt ≠ none →
      record.spec.resources.impact = .mutation → ReportsUnknown record'.snapshot) ∧
    (record.snapshot.startedAt = none → ¬ ReportsUnknown record.snapshot) := by
  have hValid := valid_of_reachable h
  obtain ⟨_, hCoherent⟩ := hValid.wellFormed.coherent n record hStore
  obtain ⟨invoked, _, hHistory⟩ := hValid.recorded.known n record hStore
  refine ⟨?_, ?_, hValid.released_count hStore, ?_, ?_, ?_, hCoherent.never_started⟩
  · intro events
    obtain ⟨record', hStore', hForward⟩ := run_forward h events hStore
    exact ⟨record', hStore', hForward.state, fun hTerminal => (hForward.frozen hTerminal).1⟩
  · rw [completions_history, hHistory, life_completions]
  · rw [countP_history about_of_isRunnerInvoked, hHistory]
    exact life_invoked_count n record invoked
  · intro before after snapshot hSplit hEarly
    have hPairwise := life_pairwise n record invoked
    rw [← hHistory, history, hSplit, List.filter_append, List.pairwise_append] at hPairwise
    refine hPairwise.2.2 (.completion n snapshot) ?_ (.runnerInvoked n) ?_ ⟨?_, ?_⟩
    · simp [List.mem_filter, hEarly, about]
    · simp [about]
    · simp [completionOf]
    · simp [isRunnerInvoked]
  · intro event hOther record' hStore' hOpen hTerminal' hStarted hMutation
    have hEvent := step_steps hValid.wellFormed collation event
    have hAborted := hEvent.aborted hValid.wellFormed (outcomeOf_ne hOther) hStore hOpen hStore' hTerminal'
      hStarted
    obtain ⟨next, hNext, hForward⟩ := hEvent.forward hValid.wellFormed n record hStore
    rw [hStore', Option.some.injEq] at hNext
    subst hNext
    obtain ⟨_, hCoherent'⟩ := (hValid.event hEvent).wellFormed.coherent n record' hStore'
    exact (hCoherent'.aborted hAborted).2 (hForward.resources ▸ hMutation)

end Reachable

theorem timed_out_mutation_completes_once : ∃ s : SftpTaskScheduler Unit Unit Unit, construct sampleOptions = .ok s ∧
      (((machine Unit Unit Unit plainCollation).run s sampleEvents).observed.filterMap (completionOf 0)).length = 1 := by
  refine ⟨_, rfl, ?_⟩
  have hReachable := reachable_run plainCollation (rfl : construct sampleOptions = .ok _) sampleEvents
  rw [(task_lifecycle hReachable rfl).2.1]
  rfl

end Sftp.SftpTaskScheduler
