import Cosmosh.Sftp.TaskTransitions

/-! # What the log says about one task

The entries about a task always spell out the life of its record: submitted, started, runner invoked, completion, runner
settled, released, each at most once and in this order.
-/

namespace Sftp.SftpTaskScheduler

open Library

variable {ρ π ε : Type}

def about : SftpTaskObservation ρ π → Option Nat
  | .submitted n | .started n | .runnerInvoked n | .runnerSettled n | .released n => some n
  | .completion n _ => some n
  | .abortHook _ _ => none

def history (s : SftpTaskScheduler ρ π ε) (n : Nat) : List (SftpTaskObservation ρ π) := s.observed.filter fun e => about e = some n

def life (n : Nat) (record : StoredTaskRecord ρ π ε) (invoked : Bool) : List (SftpTaskObservation ρ π) :=
  .submitted n ::
    ((if record.chain = .unstarted then [] else [.started n]) ++
    (if invoked then [.runnerInvoked n] else []) ++
    (if isTerminalState record.snapshot.state then [.completion n (copySnapshot record.snapshot)] else []) ++
    (if record.chain = .settled ∨ record.chain = .finished then [.runnerSettled n] else []) ++
    (if record.releaseResolved then [.released n] else []))

structure Invoked (record : StoredTaskRecord ρ π ε) (invoked : Bool) : Prop where
  started : invoked = true → record.chain ≠ .unstarted ∧ record.chain ≠ .microtaskQueued
  awaited : record.chain = .awaitingRunner → invoked = true

def submission : SftpTaskObservation ρ π → Option Nat
  | .submitted n => some n
  | _ => none

structure Recorded (s : SftpTaskScheduler ρ π ε) : Prop where
  submissions : s.observed.filterMap submission = List.range s.sequence
  unknown : ∀ n, s.store n = none → s.history n = []
  known : ∀ n record, s.store n = some record →
    ∃ invoked, Invoked record invoked ∧ s.history n = life n record invoked

variable {s : SftpTaskScheduler ρ π ε} {n : Nat} {queue : List Nat} {active : JsMap Text Nat}
    {entries : List (SftpTaskObservation ρ π)}

theorem history_advance {record : StoredTaskRecord ρ π ε} (m : Nat) : (s.advance n record queue active entries).history m =
      s.history m ++ entries.filter fun e => about e = some m := by
  simp only [history, advance_observed, List.filter_append]

variable {record' : StoredTaskRecord ρ π ε}

section

variable {record : StoredTaskRecord ρ π ε}

theorem Recorded.advance (h : s.Recorded) (hStore : s.store n = some record) (hOld : entries.filterMap submission = [])
    (hEntries : ∀ m, m ≠ n → (entries.filter fun e => about e = some m) = [])
    (hLife : ∀ invoked, Invoked record invoked → ∃ invoked', Invoked record' invoked' ∧
      life n record invoked ++ (entries.filter fun e => about e = some n) = life n record' invoked') :
    (s.advance n record' queue active entries).Recorded := by
  refine ⟨?_, ?_, ?_⟩
  · rw [advance_observed, advance_sequence, List.filterMap_append, hOld, List.append_nil, h.submissions]
  · intro m hNone
    have hNe : m ≠ n := by
      rintro rfl
      rw [advance_store_self] at hNone
      cases hNone
    rw [advance_store_of_ne _ _ _ _ _ _ hNe] at hNone
    rw [history_advance, h.unknown m hNone, hEntries m hNe, List.append_nil]
  · intro m found hFound
    by_cases hEq : m = n
    · subst hEq
      rw [advance_store_self, Option.some.injEq] at hFound
      subst hFound
      obtain ⟨invoked, hInvoked, hHistory⟩ := h.known m record hStore
      obtain ⟨invoked', hInvoked', hLife⟩ := hLife invoked hInvoked
      exact ⟨invoked', hInvoked', by rw [history_advance, hHistory, hLife]⟩
    · rw [advance_store_of_ne _ _ _ _ _ _ hEq] at hFound
      obtain ⟨invoked, hInvoked, hHistory⟩ := h.known m found hFound
      exact ⟨invoked, hInvoked, by rw [history_advance, hHistory, hEntries m hEq, List.append_nil]⟩

theorem Invoked.eq_false {invoked : Bool} (h : Invoked record invoked)
    (hChain : record.chain = .unstarted ∨ record.chain = .microtaskQueued) : invoked = false := by
  rw [Bool.eq_false_iff]
  intro hInvoked
  obtain ⟨hUnstarted, hMicrotask⟩ := h.started hInvoked
  obtain hChain | hChain := hChain
  · exact hUnstarted hChain
  · exact hMicrotask hChain

theorem Invoked.congr {invoked : Bool} (h : Invoked record invoked) (hChain : record'.chain = record.chain) : Invoked record' invoked :=
  ⟨fun hInvoked => hChain ▸ h.started hInvoked, fun hAwaiting => h.awaited (hChain ▸ hAwaiting)⟩

theorem Coherent.not_released (h : Coherent record) (hOpen : isTerminalState record.snapshot.state = false ∨ record.chain.occupied = true) :
    record.releaseResolved = false := by
  rw [Bool.eq_false_iff]
  intro hReleased
  obtain ⟨hTerminal, hFree⟩ := h.release.mp hReleased
  rw [hTerminal, hFree] at hOpen
  obtain h | h := hOpen <;> cases h

end

variable {s' : SftpTaskScheduler ρ π ε}

theorem Recorded.transition (h : s.Recorded) (hWell : s.WellFormed) {outcome : Option Nat}
    (hTransition : Transition outcome s s') : s'.Recorded := by
  cases hTransition with
  | @withdraw n record patch hStore hQueued hKnown =>
    obtain ⟨_, hCoherent⟩ := hWell.coherent n record hStore
    have hChain := hCoherent.queued hQueued
    have hOpen : isTerminalState record.snapshot.state = false := by rw [hQueued]; rfl
    have hReleased := hCoherent.not_released (.inl hOpen)
    refine h.advance hStore rfl (fun m hNe => by simp [about, hNe.symm]) ?_
    intro invoked hInvoked
    refine ⟨invoked, hInvoked.congr rfl, ?_⟩
    rw [hInvoked.eq_false (.inl hChain)]
    simp [life, ended, clearExecutionReferences, cleanupLifecycle, hChain, hOpen, hReleased, about]
  | @start n record ahead behind hStore hQueue hAdmits =>
    obtain ⟨_, hCoherent⟩ := hWell.coherent n record hStore
    have hQueued := hWell.queued_of_split hQueue hStore
    have hChain := hCoherent.queued hQueued
    have hOpen : isTerminalState record.snapshot.state = false := by rw [hQueued]; rfl
    have hReleased := hCoherent.not_released (.inl hOpen)
    refine h.advance hStore rfl (fun m hNe => by simp [about, hNe.symm]) ?_
    intro invoked hInvoked
    refine ⟨false, ⟨by rintro ⟨⟩, by rintro ⟨⟩⟩, ?_⟩
    rw [hInvoked.eq_false (.inl hChain)]
    simp [life, beginRun, hChain, hOpen, hReleased, about]
    rfl
  | @finish n record record' patch hooks hStore hRunning hSignalled _ =>
    obtain ⟨_, hCoherent⟩ := hWell.coherent n record hStore
    have hOpen : isTerminalState record.snapshot.state = false := by rw [hRunning]; rfl
    have hReleased := hCoherent.not_released (.inl hOpen)
    have hHooks : ∀ m : Nat, ((hooks.map (fun reason => (.abortHook n reason : SftpTaskObservation ρ π))).filter
        fun e => about e = some m) = [] := by
      intro m
      rw [List.filter_eq_nil_iff]
      intro e he
      obtain ⟨reason, _, rfl⟩ := List.mem_map.mp he
      simp [about]
    refine h.advance hStore (by simp [List.filterMap_append, List.filterMap_eq_nil_iff, submission])
      (fun m hNe => by simp [List.filter_append, about, hNe.symm]) ?_
    intro invoked hInvoked
    refine ⟨invoked, hInvoked.congr hSignalled.chain, ?_⟩
    rw [List.filter_append, hHooks]
    have hChain := hCoherent.running hRunning
    obtain hChain | hChain := hChain <;>
      simp [life, ended, clearExecutionReferences, cleanupLifecycle, hSignalled.chain,
        hSignalled.snapshot, hSignalled.releaseResolved, hChain, hOpen, hReleased, about]
  | @invoke n record hStore hChain hRunning =>
    obtain ⟨_, hCoherent⟩ := hWell.coherent n record hStore
    have hOpen : isTerminalState record.snapshot.state = false := by rw [hRunning]; rfl
    have hReleased := hCoherent.not_released (.inl hOpen)
    refine h.advance hStore rfl (fun m hNe => by simp [about, hNe.symm]) ?_
    intro invoked hInvoked
    refine ⟨true, ⟨fun _ => ⟨by rintro ⟨⟩, by rintro ⟨⟩⟩, fun _ => rfl⟩, ?_⟩
    rw [hInvoked.eq_false (.inr hChain)]
    simp [life, hChain, hOpen, hReleased, about]
  | @settle n record hStore hChain hTerminal =>
    obtain ⟨_, hCoherent⟩ := hWell.coherent n record hStore
    have hOccupied : record.chain.occupied = true := by
      obtain hChain | hChain := hChain <;> rw [hChain] <;> rfl
    have hReleased := hCoherent.not_released (.inr hOccupied)
    refine h.advance hStore rfl (fun m hNe => by simp [about, hNe.symm]) ?_
    intro invoked hInvoked
    refine ⟨invoked, ⟨fun _ => ⟨by rintro ⟨⟩, by rintro ⟨⟩⟩, by rintro ⟨⟩⟩, ?_⟩
    obtain hChain | hChain := hChain <;> simp [life, hChain, hTerminal, hReleased, about]
  | @release n record hStore hChain =>
    obtain ⟨_, hCoherent⟩ := hWell.coherent n record hStore
    obtain ⟨hTerminal, _⟩ := hCoherent.freed hChain
    have hReleased := hCoherent.not_released (.inr (by rw [hChain]; rfl))
    refine h.advance hStore rfl (fun m hNe => by simp [about, hNe.symm]) ?_
    intro invoked hInvoked
    refine ⟨invoked, ⟨fun _ => ⟨by rintro ⟨⟩, by rintro ⟨⟩⟩, by rintro ⟨⟩⟩, ?_⟩
    simp [life, hChain, hTerminal, hReleased, about]
  | @report n record value hStore hRunning =>
    refine h.advance hStore rfl (fun m hNe => rfl) ?_
    intro invoked hInvoked
    refine ⟨invoked, hInvoked.congr rfl, ?_⟩
    simp [life, hRunning, isTerminalState]
  | forget hStore hRegistered hLive => exact ⟨h.submissions, h.unknown, h.known⟩
  | quiet hTasks hWaiters =>
    obtain ⟨_, _, _, _, hSequence, hStore, hObserved⟩ := hTasks
    have hHistory : s'.history = s.history := by
      funext n
      simp only [history, hObserved]
    refine ⟨?_, ?_, ?_⟩
    · rw [hObserved, hSequence]
      exact h.submissions
    · rw [hStore, hHistory]
      exact h.unknown
    · rw [hStore, hHistory]
      exact h.known

inductive Submit : SftpTaskScheduler ρ π ε → SftpTaskScheduler ρ π ε → Prop
  | mk {s record} (hFresh : Fresh s record) : Submit s (s.enqueue record)

theorem enqueue_store_self (s : SftpTaskScheduler ρ π ε) (record : StoredTaskRecord ρ π ε) :
    (s.enqueue record).store s.sequence = some (observeCancellation (armDeadline record s.now)) := if_pos rfl

theorem enqueue_store_of_ne (s : SftpTaskScheduler ρ π ε) (record : StoredTaskRecord ρ π ε) (h : n ≠ s.sequence) :
    (s.enqueue record).store n = s.store n := if_neg h

theorem WellFormed.lt_of_store (h : s.WellFormed) {record : StoredTaskRecord ρ π ε} (hStore : s.store n = some record) : n < s.sequence :=
  (h.known n).mp (by rw [hStore]; rfl)

theorem WellFormed.store_sequence (h : s.WellFormed) : s.store s.sequence = none := by
  cases hStore : s.store s.sequence with
  | none => rfl
  | some record => exact absurd (h.lt_of_store hStore) (Nat.lt_irrefl _)

theorem WellFormed.queue_lt (h : s.WellFormed) (hn : n ∈ s.queue) : n < s.sequence := by
  obtain ⟨record, hStore, _⟩ := (h.queued n).mp hn
  exact h.lt_of_store hStore

theorem WellFormed.active_lt (h : s.WellFormed) {taskId : Text} (hn : (taskId, n) ∈ s.active.entries) : n < s.sequence := by
  obtain ⟨record, hStore, _⟩ := (h.active taskId n).mp hn
  exact h.lt_of_store hStore

theorem Fresh.coherent {record : StoredTaskRecord ρ π ε} (h : Fresh s record) : Coherent (observeCancellation (armDeadline record s.now)) := by
  have hOpen : isTerminalState record.snapshot.state = false := by rw [h.state]; rfl
  refine ⟨h.completionResolved.trans hOpen.symm, ?_, fun _ => h.chain, ?_, ?_, ?_, ?_⟩
  · refine iff_of_false ?_ ?_
    · change ¬ record.releaseResolved = true
      rw [h.releaseResolved]
      rintro ⟨⟩
    · rintro ⟨hEnded, _⟩
      change isTerminalState record.snapshot.state = true at hEnded
      rw [hOpen] at hEnded
      cases hEnded
  · intro hRunning
    change record.snapshot.state = .running at hRunning
    rw [h.state] at hRunning
    cases hRunning
  · exact iff_of_true h.chain h.startedAt
  · rintro _ ⟨failure, hFailure, _⟩
    change failure ∈ record.snapshot.failure at hFailure
    rw [h.failure] at hFailure
    cases hFailure
  · intro hAborted
    change record.controller.isSome = true at hAborted
    rw [h.controller] at hAborted
    cases hAborted

theorem WellFormed.submit (h : s.WellFormed) (hSubmit : Submit s s') : s'.WellFormed := by
  obtain ⟨hFresh⟩ := hSubmit
  rename_i record
  have hTaskId : ∀ n other, s.store n = some other → Live other →
      other.snapshot.taskId ≠ record.snapshot.taskId := by
    intro n other hOther hLive hEq
    have hGet := h.registered n other hOther hLive
    rw [hEq, hFresh.unregistered] at hGet
    cases hGet
  refine ⟨?_, ?_, ?_, ?_, ?_, ?_, ?_⟩
  · intro n
    change _ ↔ n < s.sequence + 1
    by_cases hEq : n = s.sequence
    · subst hEq
      simp [enqueue_store_self]
    · rw [enqueue_store_of_ne s record hEq, h.known n]
      omega
  · intro n found hFound
    by_cases hEq : n = s.sequence
    · subst hEq
      rw [enqueue_store_self, Option.some.injEq] at hFound
      subst hFound
      exact ⟨hFresh.sequence, hFresh.coherent⟩
    · rw [enqueue_store_of_ne s record hEq] at hFound
      exact h.coherent n found hFound
  · change (s.queue ++ [s.sequence]).Pairwise (· < ·)
    rw [List.pairwise_append]
    refine ⟨h.sorted, List.pairwise_singleton _ _, ?_⟩
    intro n hn m hm
    rw [List.mem_singleton] at hm
    exact hm ▸ h.queue_lt hn
  · intro n
    change n ∈ s.queue ++ [s.sequence] ↔ _
    rw [List.mem_append, List.mem_singleton]
    by_cases hEq : n = s.sequence
    · subst hEq
      refine iff_of_true (.inr rfl) ⟨_, enqueue_store_self s record, hFresh.state⟩
    · rw [enqueue_store_of_ne s record hEq, ← h.queued n]
      simp [hEq]
  · intro taskId n
    change (taskId, n) ∈ s.active.entries ↔ _
    by_cases hEq : n = s.sequence
    · subst hEq
      refine iff_of_false (fun hMem => Nat.lt_irrefl _ (h.active_lt hMem)) ?_
      rintro ⟨found, hFound, _, hOccupied⟩
      rw [enqueue_store_self, Option.some.injEq] at hFound
      subst hFound
      change record.chain.occupied = true at hOccupied
      rw [hFresh.chain] at hOccupied
      cases hOccupied
    · rw [enqueue_store_of_ne s record hEq]
      exact h.active taskId n
  · intro n found hFound hLive
    change (s.records.set record.snapshot.taskId s.sequence).get? found.snapshot.taskId = some n
    rw [← JsMap.mem_entries_iff, JsMap.entries_set_of_new _ _ hFresh.unregistered, List.mem_append,
      List.mem_singleton, Prod.mk.injEq]
    by_cases hEq : n = s.sequence
    · subst hEq
      rw [enqueue_store_self, Option.some.injEq] at hFound
      subst hFound
      exact .inr ⟨rfl, rfl⟩
    · rw [enqueue_store_of_ne s record hEq] at hFound
      exact .inl ((JsMap.mem_entries_iff _ _ _).mpr (h.registered n found hFound hLive))
  · intro taskId n hGet
    change (s.records.set record.snapshot.taskId s.sequence).get? taskId = some n at hGet
    rw [← JsMap.mem_entries_iff, JsMap.entries_set_of_new _ _ hFresh.unregistered, List.mem_append,
      List.mem_singleton, Prod.mk.injEq, JsMap.mem_entries_iff] at hGet
    obtain hGet | ⟨rfl, rfl⟩ := hGet
    · obtain ⟨found, hFound, hName⟩ := h.named taskId n hGet
      have hNe : n ≠ s.sequence := Nat.ne_of_lt (h.lt_of_store hFound)
      exact ⟨found, (enqueue_store_of_ne s record hNe).trans hFound, hName⟩
    · exact ⟨_, enqueue_store_self s record, rfl⟩

theorem history_enqueue (s : SftpTaskScheduler ρ π ε) (record : StoredTaskRecord ρ π ε) (n : Nat) :
    (s.enqueue record).history n = s.history n ++ if n = s.sequence then [.submitted n] else [] := by
  change (s.observed ++ [_]).filter _ = _
  rw [List.filter_append, history]
  by_cases hEq : n = s.sequence
  · simp [about, hEq]
  · simp [about, hEq, Ne.symm hEq]

theorem Recorded.submit (h : s.Recorded) (hWell : s.WellFormed) (hSubmit : Submit s s') : s'.Recorded := by
  obtain ⟨hFresh⟩ := hSubmit
  rename_i record
  refine ⟨?_, ?_, ?_⟩
  · change (s.observed ++ [_]).filterMap submission = List.range (s.sequence + 1)
    rw [List.filterMap_append, h.submissions, List.range_succ]
    rfl
  · intro n hNone
    have hNe : n ≠ s.sequence := by
      rintro rfl
      rw [enqueue_store_self] at hNone
      cases hNone
    rw [enqueue_store_of_ne s record hNe] at hNone
    rw [history_enqueue, h.unknown n hNone, if_neg hNe]
    rfl
  · intro n found hFound
    rw [history_enqueue]
    by_cases hEq : n = s.sequence
    · subst hEq
      rw [enqueue_store_self, Option.some.injEq] at hFound
      subst hFound
      refine ⟨false, ⟨by rintro ⟨⟩, ?_⟩, ?_⟩
      · intro hAwaiting
        change record.chain = .awaitingRunner at hAwaiting
        rw [hFresh.chain] at hAwaiting
        cases hAwaiting
      · rw [h.unknown _ hWell.store_sequence, if_pos rfl]
        simp [life, observeCancellation, armDeadline, hFresh.chain, hFresh.state, hFresh.releaseResolved,
          isTerminalState]
    · rw [enqueue_store_of_ne s record hEq] at hFound
      rw [if_neg hEq, List.append_nil]
      exact h.known n found hFound

def mark (ticket : Nat → Ticket) : SftpTaskObservation ρ π → Option (Admission.Mark Ticket)
  | .submitted n => some (.arrived (ticket n))
  | .started n => some (.entered (ticket n))
  | .released n => some (.left (ticket n))
  | _ => none

def board (s : SftpTaskScheduler ρ π ε) : Admission.Board Ticket where
  waiting := s.queue.map s.ticket
  holding := s.active.values.map s.ticket
  history := s.observed.filterMap (mark s.ticket)

theorem moves_advance {record : StoredTaskRecord ρ π ε} (hStore : s.store n = some record)
    (hClaims : record'.snapshot.claims = record.snapshot.claims) (hResources : record'.spec.resources = record.spec.resources)
    (hMoves : (policy s.limits).Moves s.board ⟨queue.map s.ticket, active.values.map s.ticket,
      s.board.history ++ entries.filterMap (mark s.ticket)⟩) :
    (policy s.limits).Moves s.board (s.advance n record' queue active entries).board := by
  have hBoard : (s.advance n record' queue active entries).board = ⟨queue.map s.ticket,
      active.values.map s.ticket, s.board.history ++ entries.filterMap (mark s.ticket)⟩ := by
    simp only [board, ticket_advance hStore hClaims hResources, advance_queue, advance_active,
      advance_observed, List.filterMap_append]
  rw [hBoard]
  exact hMoves

theorem moves_advance_still {record : StoredTaskRecord ρ π ε} (hStore : s.store n = some record)
    (hClaims : record'.snapshot.claims = record.snapshot.claims) (hResources : record'.spec.resources = record.spec.resources)
    (hEntries : entries.filterMap (mark s.ticket) = []) :
    (policy s.limits).Moves s.board (s.advance n record' s.queue s.active entries).board := by
  apply moves_advance hStore hClaims hResources
  rw [hEntries, List.append_nil]
  exact .refl

theorem WellFormed.mem_queue (h : s.WellFormed) {record : StoredTaskRecord ρ π ε} (hStore : s.store n = some record)
    (hQueued : record.snapshot.state = .queued) : ∃ ahead behind, s.queue = ahead ++ n :: behind ∧ s.queue.erase n = ahead ++ behind := by
  obtain ⟨ahead, behind, hQueue⟩ := List.append_of_mem ((h.queued n).mpr ⟨record, hStore, hQueued⟩)
  exact ⟨ahead, behind, hQueue, (h.split_queue hQueue).symm⟩

theorem Transition.moves (hWell : s.WellFormed) {outcome : Option Nat} (hTransition : Transition outcome s s') :
    (policy s.limits).Moves s.board s'.board := by
  cases hTransition with
  | @withdraw n record patch hStore hQueued hKnown =>
    obtain ⟨ahead, behind, hQueue, hErase⟩ := hWell.mem_queue hStore hQueued
    refine moves_advance hStore (apply_claims patch _ _) rfl ?_
    rw [hErase, board, hQueue]
    simp only [List.map_append, List.map_cons]
    exact .single (.withdraw _ _ _ _ _)
  | @start n record ahead behind hStore hQueue hAdmits =>
    obtain ⟨_, hCoherent⟩ := hWell.coherent n record hStore
    have hQueued := hWell.queued_of_split hQueue hStore
    have hFree : record.chain.occupied = false := by
      rw [hCoherent.queued hQueued]
      rfl
    have hNone := hWell.active_none hStore (.inl (by rw [hQueued]; rfl)) hFree
    refine moves_advance hStore rfl rfl ?_
    rw [board, hQueue]
    simp only [JsMap.values, JsMap.entries_set_of_new _ _ hNone, List.map_append, List.map_cons, List.map_nil]
    exact .single (.enter _ _ _ _ _ hAdmits)
  | @finish n record record' patch hooks hStore hRunning hSignalled _ =>
    refine moves_advance_still hStore ?_ ?_ ?_
    · rw [← hSignalled.snapshot]
      exact apply_claims patch _ _
    · rw [← hSignalled.spec]
      rfl
    · simp [List.filterMap_append, List.filterMap_eq_nil_iff, mark]
  | invoke hStore hChain hRunning => exact moves_advance_still hStore rfl rfl rfl
  | settle hStore hChain hTerminal => exact moves_advance_still hStore rfl rfl rfl
  | @release n record hStore hChain =>
    have hOccupied : record.chain.occupied = true := by rw [hChain]; rfl
    obtain ⟨before, after, hEntries, hDelete⟩ := s.active.delete_split ((hWell.active_get? hStore).mpr hOccupied)
    refine moves_advance hStore rfl rfl ?_
    rw [board, JsMap.values, JsMap.values, hEntries, hDelete]
    simp only [List.map_append, List.map_cons]
    exact .single (.release _ _ _ _ _)
  | report value hStore hRunning => exact moves_advance_still hStore rfl rfl rfl
  | forget hStore hRegistered hLive => exact .refl
  | quiet hTasks hWaiters =>
    obtain ⟨_, _, hQueue, hActive, _, hStore, hObserved⟩ := hTasks
    have hTicket : s'.ticket = s.ticket := by
      funext n
      simp only [ticket, claimsOf, resourcesOf, hStore]
    have hBoard : s'.board = s.board := by
      simp only [board, hQueue, hActive, hObserved, hTicket]
    rw [hBoard]
    exact .refl

theorem ticket_enqueue (record : StoredTaskRecord ρ π ε) (h : n < s.sequence) : (s.enqueue record).ticket n = s.ticket n := by
  simp only [ticket, claimsOf, resourcesOf, enqueue_store_of_ne s record (Nat.ne_of_lt h)]

theorem Recorded.about_lt (h : s.Recorded) (hWell : s.WellFormed) {e : SftpTaskObservation ρ π} (he : e ∈ s.observed)
    (hAbout : about e = some n) : n < s.sequence := by
  cases hStore : s.store n with
  | some record => exact hWell.lt_of_store hStore
  | none =>
    have hMem : e ∈ s.history n := List.mem_filter.mpr ⟨he, by simp [hAbout]⟩
    rw [h.unknown n hStore] at hMem
    cases hMem

theorem Submit.moves (hWell : s.WellFormed) (hRecorded : s.Recorded) (hSubmit : Submit s s') : (policy s.limits).Moves s.board s'.board := by
  obtain ⟨hFresh⟩ := hSubmit
  rename_i record
  have hQueue : s.queue.map (s.enqueue record).ticket = s.queue.map s.ticket :=
    List.map_congr_left fun n hn => ticket_enqueue record (hWell.queue_lt hn)
  have hActive : s.active.values.map (s.enqueue record).ticket = s.active.values.map s.ticket := by
    apply List.map_congr_left
    intro n hn
    obtain ⟨⟨taskId, m⟩, hEntry, rfl⟩ := List.mem_map.mp hn
    exact ticket_enqueue record (hWell.active_lt hEntry)
  have hHistory : s.observed.filterMap (mark (s.enqueue record).ticket) =
      s.observed.filterMap (mark s.ticket) := by
    apply List.filterMap_congr
    intro e he
    cases e with
    | submitted n => simp only [mark, ticket_enqueue record (hRecorded.about_lt hWell he rfl)]
    | started n => simp only [mark, ticket_enqueue record (hRecorded.about_lt hWell he rfl)]
    | released n => simp only [mark, ticket_enqueue record (hRecorded.about_lt hWell he rfl)]
    | runnerInvoked n => rfl
    | runnerSettled n => rfl
    | abortHook n reason => rfl
    | completion n snapshot => rfl
  have hBoard : (s.enqueue record).board = ⟨s.board.waiting ++ [(s.enqueue record).ticket s.sequence],
      s.board.holding, s.board.history ++ [.arrived ((s.enqueue record).ticket s.sequence)]⟩ := by
    change Admission.Board.mk ((s.queue ++ [s.sequence]).map (s.enqueue record).ticket)
      (s.active.values.map (s.enqueue record).ticket)
      ((s.observed ++ [SftpTaskObservation.submitted s.sequence]).filterMap (mark (s.enqueue record).ticket)) = _
    rw [List.map_append, List.filterMap_append, hQueue, hActive, hHistory]
    rfl
  rw [hBoard]
  refine .single (.arrive _ _ _ _ ?_)
  intro u hu
  obtain ⟨e, he, hMark⟩ := List.mem_filterMap.mp hu
  cases e with
  | submitted n =>
    obtain rfl : s.ticket n = u := by simpa [mark] using hMark
    exact hRecorded.about_lt hWell he rfl
  | started n => simp [mark] at hMark
  | released n => simp [mark] at hMark
  | runnerInvoked n => simp [mark] at hMark
  | runnerSettled n => simp [mark] at hMark
  | abortHook n reason => simp [mark] at hMark
  | completion n snapshot => simp [mark] at hMark

end Sftp.SftpTaskScheduler
