import Cosmosh.Library.Admission
import Cosmosh.Sftp.TaskScheduler

/-! # What one action of the scheduler can do

Every event of the scheduler is a chain of the transitions below.
-/

namespace Sftp

def RunChain.occupied : RunChain → Bool
  | .microtaskQueued | .awaitingRunner | .settled => true
  | .unstarted | .finished => false

namespace SftpTaskScheduler

open Library

variable {ρ π ε : Type}

structure Ticket where
  sequence : Nat
  claims : List Text
  resources : SftpTaskResources

def policy (limits : SftpTaskSchedulerLimits) : Admission.Policy Ticket where
  arrival := Ticket.sequence
  conflicts a b := doClaimSetsConflict a.claims b.claims = true
  conflicts_symm h := doClaimSetsConflict_comm _ _ ▸ h
  exclusive t := t.resources.exclusive = true
  classes := [
    ⟨fun _ => true, limits.total, limits.total_pos⟩,
    ⟨fun t => t.resources.workload = .heavy, limits.heavy, limits.heavy_pos⟩,
    ⟨fun t => t.resources.impact = .mutation, limits.mutation, limits.mutation_pos⟩]

def ticket (s : SftpTaskScheduler ρ π ε) (n : Nat) : Ticket := ⟨n, s.claimsOf n, s.resourcesOf n⟩

/-- The queue may give up the record behind `ahead`. -/
def Admits (s : SftpTaskScheduler ρ π ε) (ahead : List Nat) (n : Nat) : Prop :=
  (policy s.limits).Admissible (ahead.map s.ticket) (s.active.values.map s.ticket) (s.ticket n)

def Idle (s : SftpTaskScheduler ρ π ε) : Prop := s.queue = [] ∧ s.active.entries = []

def Live (record : StoredTaskRecord ρ π ε) : Prop := isTerminalState record.snapshot.state = false ∨ record.chain.occupied = true

def ReportsUnknown (snapshot : SftpTaskSnapshot ρ π) : Prop := ∃ failure ∈ snapshot.failure, failure.outcomeUnknown = some true

structure Coherent (record : StoredTaskRecord ρ π ε) : Prop where
  completion : record.completionResolved = isTerminalState record.snapshot.state
  release : record.releaseResolved = true ↔
    isTerminalState record.snapshot.state = true ∧ record.chain.occupied = false
  queued : record.snapshot.state = .queued → record.chain = .unstarted
  running : record.snapshot.state = .running →
    record.chain = .microtaskQueued ∨ record.chain = .awaitingRunner
  started : record.chain = .unstarted ↔ record.snapshot.startedAt = none
  never_started : record.snapshot.startedAt = none → ¬ ReportsUnknown record.snapshot
  aborted : record.controller.isSome = true → isTerminalState record.snapshot.state = true ∧
    (record.spec.resources.impact = .mutation → ReportsUnknown record.snapshot)

def beginRun (record : StoredTaskRecord ρ π ε) (now : Rat) : StoredTaskRecord ρ π ε :=
  { record with
    snapshot := { record.snapshot with state := .running, startedAt := some now }
    chain := .microtaskQueued }

def ended (record : StoredTaskRecord ρ π ε) (patch : TerminalPatch ρ) (now : Rat) :
    StoredTaskRecord ρ π ε :=
  clearExecutionReferences { cleanupLifecycle record with
    snapshot := patch.apply record.snapshot now
    completionResolved := true }

def TerminalPatch.unknown : TerminalPatch ρ → Prop
  | .failed failure _ => failure.outcomeUnknown = some true
  | _ => False

structure Signalled (record record' : StoredTaskRecord ρ π ε) (patch : TerminalPatch ρ) : Prop where
  sequence : record'.sequence = record.sequence
  spec : record'.spec = record.spec
  snapshot : record'.snapshot = record.snapshot
  completionResolved : record'.completionResolved = record.completionResolved
  releaseResolved : record'.releaseResolved = record.releaseResolved
  chain : record'.chain = record.chain
  aborted : record'.controller.isSome = true → record.spec.resources.impact = .mutation → patch.unknown

structure Fresh (s : SftpTaskScheduler ρ π ε) (record : StoredTaskRecord ρ π ε) : Prop where
  sequence : record.sequence = s.sequence
  state : record.snapshot.state = .queued
  startedAt : record.snapshot.startedAt = none
  failure : record.snapshot.failure = none
  controller : record.controller = none
  completionResolved : record.completionResolved = false
  releaseResolved : record.releaseResolved = false
  chain : record.chain = .unstarted
  unregistered : s.records.get? record.snapshot.taskId = none

def advance (s : SftpTaskScheduler ρ π ε) (n : Nat) (record : StoredTaskRecord ρ π ε) (queue : List Nat)
    (active : JsMap Text Nat) (entries : List (SftpTaskObservation ρ π)) : SftpTaskScheduler ρ π ε :=
  { s.put n record with queue, active, observed := s.observed ++ entries }

structure SameTasks (s s' : SftpTaskScheduler ρ π ε) : Prop where
  records : s'.records = s.records
  limits : s'.limits = s.limits
  queue : s'.queue = s.queue
  active : s'.active = s.active
  sequence : s'.sequence = s.sequence
  store : s'.store = s.store
  observed : s'.observed = s.observed

inductive WaitersStep (s s' : SftpTaskScheduler ρ π ε) : Prop
  | same (hPending : s'.idleWaiters = s.idleWaiters) (hIssued : s'.issuedWaiters = s.issuedWaiters)
      (hResolved : s'.resolvedWaiters = s.resolvedWaiters)
  | resolve (hIdle : s.Idle) (hPending : s'.idleWaiters = []) (hIssued : s'.issuedWaiters = s.issuedWaiters)
      (hResolved : s'.resolvedWaiters = s.resolvedWaiters ++ s.idleWaiters)
  | wait (hPending : s'.idleWaiters = s.idleWaiters ++ [s.issuedWaiters])
      (hIssued : s'.issuedWaiters = s.issuedWaiters + 1) (hResolved : s'.resolvedWaiters = s.resolvedWaiters)
  | pass (hIdle : s.Idle) (hPending : s'.idleWaiters = s.idleWaiters)
      (hIssued : s'.issuedWaiters = s.issuedWaiters + 1)
      (hResolved : s'.resolvedWaiters = s.resolvedWaiters ++ [s.issuedWaiters])

inductive Transition (outcome : Option Nat) : SftpTaskScheduler ρ π ε → SftpTaskScheduler ρ π ε → Prop
  | withdraw {s n record} (patch : TerminalPatch ρ) (hStore : s.store n = some record)
      (hQueued : record.snapshot.state = .queued) (hKnown : ¬ patch.unknown) :
      Transition outcome s (s.advance n { ended record patch s.now with releaseResolved := true }
        (s.queue.erase n) s.active
        [.completion n (copySnapshot (patch.apply record.snapshot s.now)), .released n])
  | start {s n record ahead behind} (hStore : s.store n = some record)
      (hQueue : s.queue = ahead ++ n :: behind) (hAdmits : s.Admits ahead n) :
      Transition outcome s (s.advance n (beginRun record s.now) (ahead ++ behind)
        (s.active.set record.snapshot.taskId n) [.started n])
  | finish {s n record record'} (patch : TerminalPatch ρ) (hooks : List SftpTaskAbortReason)
      (hStore : s.store n = some record) (hRunning : record.snapshot.state = .running)
      (hSignalled : Signalled record record' patch)
      (hCause : record'.controller.isSome = true ∨ outcome = some n) :
      Transition outcome s (s.advance n (ended record' patch s.now) s.queue s.active
        (hooks.map (.abortHook n) ++ [.completion n (copySnapshot (patch.apply record.snapshot s.now))]))
  | invoke {s n record} (hStore : s.store n = some record) (hChain : record.chain = .microtaskQueued)
      (hRunning : record.snapshot.state = .running) :
      Transition outcome s (s.advance n { record with chain := .awaitingRunner } s.queue s.active
        [.runnerInvoked n])
  | settle {s n record} (hStore : s.store n = some record)
      (hChain : record.chain = .microtaskQueued ∨ record.chain = .awaitingRunner)
      (hTerminal : isTerminalState record.snapshot.state = true) :
      Transition outcome s (s.advance n { record with chain := .settled } s.queue s.active [.runnerSettled n])
  | release {s n record} (hStore : s.store n = some record) (hChain : record.chain = .settled) :
      Transition outcome s (s.advance n { record with chain := .finished, releaseResolved := true } s.queue
        (s.active.delete record.snapshot.taskId) [.released n])
  | report {s n record} (value : π) (hStore : s.store n = some record)
      (hRunning : record.snapshot.state = .running) :
      Transition outcome s (s.advance n
        { record with snapshot := { record.snapshot with partialResult := some value } }
        s.queue s.active [])
  | forget {s n record} (hStore : s.store n = some record)
      (hRegistered : s.records.get? record.snapshot.taskId = some n) (hLive : ¬ Live record) :
      Transition outcome s { s with records := s.records.delete record.snapshot.taskId }
  | quiet {s s'} (hTasks : SameTasks s s') (hWaiters : WaitersStep s s') : Transition outcome s s'

def Steps (outcome : Option Nat) : SftpTaskScheduler ρ π ε → SftpTaskScheduler ρ π ε → Prop := Relation.ReflTransGen (Transition outcome)

structure WellFormed (s : SftpTaskScheduler ρ π ε) : Prop where
  known : ∀ n, (s.store n).isSome = true ↔ n < s.sequence
  coherent : ∀ n record, s.store n = some record → record.sequence = n ∧ Coherent record
  sorted : s.queue.Pairwise (· < ·)
  queued : ∀ n, n ∈ s.queue ↔ ∃ record, s.store n = some record ∧ record.snapshot.state = .queued
  active : ∀ taskId n, (taskId, n) ∈ s.active.entries ↔ ∃ record, s.store n = some record ∧
    record.snapshot.taskId = taskId ∧ record.chain.occupied = true
  registered : ∀ n record, s.store n = some record → Live record →
    s.records.get? record.snapshot.taskId = some n
  named : ∀ taskId n, s.records.get? taskId = some n →
    ∃ record, s.store n = some record ∧ record.snapshot.taskId = taskId

section Fields

variable (s : SftpTaskScheduler ρ π ε) (n : Nat) (record : StoredTaskRecord ρ π ε) (queue : List Nat)
  (active : JsMap Text Nat) (entries : List (SftpTaskObservation ρ π))

@[simp] theorem advance_queue : (s.advance n record queue active entries).queue = queue := rfl

@[simp] theorem advance_active : (s.advance n record queue active entries).active = active := rfl

@[simp] theorem advance_limits : (s.advance n record queue active entries).limits = s.limits := rfl

@[simp] theorem advance_records : (s.advance n record queue active entries).records = s.records := rfl

@[simp] theorem advance_sequence : (s.advance n record queue active entries).sequence = s.sequence := rfl

@[simp] theorem advance_observed : (s.advance n record queue active entries).observed = s.observed ++ entries := rfl

@[simp] theorem advance_idleWaiters : (s.advance n record queue active entries).idleWaiters = s.idleWaiters := rfl

@[simp] theorem advance_issuedWaiters : (s.advance n record queue active entries).issuedWaiters = s.issuedWaiters := rfl

@[simp] theorem advance_resolvedWaiters : (s.advance n record queue active entries).resolvedWaiters = s.resolvedWaiters := rfl

@[simp] theorem advance_store_self : (s.advance n record queue active entries).store n = some record := if_pos rfl

theorem advance_store_of_ne {m : Nat} (h : m ≠ n) : (s.advance n record queue active entries).store m = s.store m := if_neg h

end Fields

variable {s : SftpTaskScheduler ρ π ε} {n : Nat} {record record' : StoredTaskRecord ρ π ε}

theorem ticket_advance {queue : List Nat} {active : JsMap Text Nat} {entries : List (SftpTaskObservation ρ π)}
    (hStore : s.store n = some record) (hClaims : record'.snapshot.claims = record.snapshot.claims)
    (hResources : record'.spec.resources = record.spec.resources) : (s.advance n record' queue active entries).ticket = s.ticket := by
  funext m
  by_cases hEq : m = n
  · subst hEq
    simp only [ticket, claimsOf, resourcesOf, advance_store_self, hStore, hClaims, hResources]
  · simp only [ticket, claimsOf, resourcesOf, advance_store_of_ne _ _ _ _ _ _ hEq]

theorem WellFormed.advance {queue : List Nat} {active : JsMap Text Nat} {entries : List (SftpTaskObservation ρ π)}
    (h : s.WellFormed) (hStore : s.store n = some record) (hSequence : record'.sequence = record.sequence)
    (hTaskId : record'.snapshot.taskId = record.snapshot.taskId) (hCoherent : Coherent record')
    (hLive : Live record' → Live record) (hSublist : queue.Sublist s.queue)
    (hQueue : ∀ m, m ∈ queue ↔ if m = n then record'.snapshot.state = .queued else m ∈ s.queue)
    (hActive : ∀ taskId m, (taskId, m) ∈ active.entries ↔ if m = n then record'.snapshot.taskId = taskId ∧ record'.chain.occupied = true
      else (taskId, m) ∈ s.active.entries) : (s.advance n record' queue active entries).WellFormed := by
  refine ⟨?_, ?_, h.sorted.sublist hSublist, ?_, ?_, ?_, ?_⟩
  · intro m
    by_cases hEq : m = n
    · subst hEq
      have hKnown := h.known m
      rw [hStore] at hKnown
      simpa using hKnown
    · rw [advance_store_of_ne _ _ _ _ _ _ hEq]
      exact h.known m
  · intro m found hFound
    by_cases hEq : m = n
    · subst hEq
      rw [advance_store_self, Option.some.injEq] at hFound
      subst hFound
      exact ⟨hSequence.trans (h.coherent m record hStore).1, hCoherent⟩
    · rw [advance_store_of_ne _ _ _ _ _ _ hEq] at hFound
      exact h.coherent m found hFound
  · intro m
    rw [advance_queue, hQueue m]
    by_cases hEq : m = n
    · subst hEq
      simp
    · rw [if_neg hEq, advance_store_of_ne _ _ _ _ _ _ hEq]
      exact h.queued m
  · intro taskId m
    rw [advance_active, hActive taskId m]
    by_cases hEq : m = n
    · subst hEq
      simp
    · rw [if_neg hEq, advance_store_of_ne _ _ _ _ _ _ hEq]
      exact h.active taskId m
  · intro m found hFound hFoundLive
    rw [advance_records]
    by_cases hEq : m = n
    · subst hEq
      rw [advance_store_self, Option.some.injEq] at hFound
      subst hFound
      rw [hTaskId]
      exact h.registered m record hStore (hLive hFoundLive)
    · rw [advance_store_of_ne _ _ _ _ _ _ hEq] at hFound
      exact h.registered m found hFound hFoundLive
  · intro taskId m hGet
    obtain ⟨found, hFound, hName⟩ := h.named taskId m hGet
    by_cases hEq : m = n
    · subst hEq
      rw [hStore, Option.some.injEq] at hFound
      exact ⟨record', advance_store_self _ _ _ _ _ _, by rw [hTaskId, hFound, hName]⟩
    · exact ⟨found, (advance_store_of_ne _ _ _ _ _ _ hEq).trans hFound, hName⟩

theorem WellFormed.taskId_ne (h : s.WellFormed) {m : Nat} {other : StoredTaskRecord ρ π ε} (hStore : s.store n = some record)
    (hOther : s.store m = some other) (hLive : Live record) (hLiveOther : Live other) (hNe : m ≠ n) :
    other.snapshot.taskId ≠ record.snapshot.taskId := by
  intro hEq
  have hRegistered := h.registered m other hOther hLiveOther
  rw [hEq, h.registered n record hStore hLive, Option.some.injEq] at hRegistered
  exact hNe hRegistered.symm

theorem WellFormed.active_same (h : s.WellFormed) (hStore : s.store n = some record)
    (hTaskId : record'.snapshot.taskId = record.snapshot.taskId) (hOccupied : record'.chain.occupied = record.chain.occupied)
    (taskId : Text) (m : Nat) : (taskId, m) ∈ s.active.entries ↔ if m = n then record'.snapshot.taskId = taskId ∧ record'.chain.occupied = true
      else (taskId, m) ∈ s.active.entries := by
  by_cases hEq : m = n
  · subst hEq
    rw [if_pos rfl, h.active taskId m, hTaskId, hOccupied, hStore]
    simp
  · rw [if_neg hEq]

theorem WellFormed.queue_same (h : s.WellFormed) (hStore : s.store n = some record)
    (hState : record'.snapshot.state = .queued ↔ record.snapshot.state = .queued) (m : Nat) :
    m ∈ s.queue ↔ if m = n then record'.snapshot.state = .queued else m ∈ s.queue := by
  by_cases hEq : m = n
  · subst hEq
    rw [if_pos rfl, h.queued m, hStore, hState]
    simp
  · rw [if_neg hEq]

theorem WellFormed.queue_erase (h : s.WellFormed) (n m : Nat) (hState : record'.snapshot.state ≠ .queued) :
    m ∈ s.queue.erase n ↔ if m = n then record'.snapshot.state = .queued else m ∈ s.queue := by
  have hNodup : s.queue.Nodup := h.sorted.imp Nat.ne_of_lt
  rw [hNodup.mem_erase_iff]
  by_cases hEq : m = n
  · simp [hEq, hState]
  · simp [hEq]

variable (patch : TerminalPatch ρ)

section

variable (snapshot : SftpTaskSnapshot ρ π) (now : Rat)

@[simp] theorem isTerminalState_apply : isTerminalState (patch.apply snapshot now).state = true := by
  cases patch <;> rfl

theorem apply_state_ne {state : SftpTaskState} (h : isTerminalState state = false) : (patch.apply snapshot now).state ≠ state := by
  intro hEq
  have hTerminal := isTerminalState_apply patch snapshot now
  rw [hEq, h] at hTerminal
  cases hTerminal

@[simp] theorem apply_taskId : (patch.apply snapshot now).taskId = snapshot.taskId := by
  cases patch <;> rfl

@[simp] theorem apply_claims : (patch.apply snapshot now).claims = snapshot.claims := by
  cases patch <;> rfl

@[simp] theorem apply_startedAt : (patch.apply snapshot now).startedAt = snapshot.startedAt := by
  cases patch <;> rfl

end

theorem apply_reportsUnknown {patch : TerminalPatch ρ} (snapshot : SftpTaskSnapshot ρ π) (now : Rat)
    (h : patch.unknown) : ReportsUnknown (patch.apply snapshot now) := by
  cases patch with
  | failed failure result => exact ⟨failure, rfl, h⟩
  | succeeded result => exact absurd h id
  | cancelled result => exact absurd h id

theorem reportsUnknown_of_apply {patch : TerminalPatch ρ} {snapshot : SftpTaskSnapshot ρ π} {now : Rat}
    (h : ReportsUnknown (patch.apply snapshot now)) : patch.unknown ∨ ReportsUnknown snapshot := by
  cases patch with
  | failed failure result =>
    obtain ⟨found, hFound, hUnknown⟩ := h
    obtain rfl : failure = found := Option.some.inj hFound
    exact .inl hUnknown
  | succeeded result => exact .inr h
  | cancelled result => exact .inr h

section

variable (h : Coherent record)
include h

theorem Coherent.queued_facts (hQueued : record.snapshot.state = .queued) :
    record.chain = .unstarted ∧ record.snapshot.startedAt = none ∧ record.controller = none := by
  have hChain := h.queued hQueued
  refine ⟨hChain, h.started.mp hChain, ?_⟩
  cases hController : record.controller with
  | none => rfl
  | some reason =>
    have hTerminal := (h.aborted (by rw [hController]; rfl)).1
    rw [hQueued] at hTerminal
    cases hTerminal

theorem Coherent.running_facts (hRunning : record.snapshot.state = .running) : record.chain.occupied = true ∧ record.snapshot.startedAt ≠ none ∧
      record.releaseResolved = false ∧ record.completionResolved = false := by
  have hChain := h.running hRunning
  have hTerminal : isTerminalState record.snapshot.state = false := by rw [hRunning]; rfl
  refine ⟨?_, ?_, ?_, h.completion.trans hTerminal⟩
  · obtain h | h := hChain <;> rw [h] <;> rfl
  · intro hNone
    have hUnstarted := h.started.mpr hNone
    obtain h | h := hChain <;> rw [h] at hUnstarted <;> cases hUnstarted
  · rw [Bool.eq_false_iff]
    intro hReleased
    have hEnded := (h.release.mp hReleased).1
    rw [hTerminal] at hEnded
    cases hEnded

theorem Coherent.withdrawn (hQueued : record.snapshot.state = .queued) {patch : TerminalPatch ρ} (hKnown : ¬ patch.unknown)
    (now : Rat) : Coherent { ended record patch now with releaseResolved := true } := by
  obtain ⟨hChain, hStartedAt, hController⟩ := h.queued_facts hQueued
  have hTerminal := isTerminalState_apply patch record.snapshot now
  refine ⟨hTerminal.symm, ?_, ?_, ?_, ?_, ?_, ?_⟩
  · refine iff_of_true rfl ⟨hTerminal, ?_⟩
    change record.chain.occupied = false
    rw [hChain]
    rfl
  · exact fun hState => absurd hState (apply_state_ne patch record.snapshot now rfl)
  · exact fun hState => absurd hState (apply_state_ne patch record.snapshot now rfl)
  · change record.chain = .unstarted ↔ (patch.apply record.snapshot now).startedAt = none
    rw [apply_startedAt]
    exact h.started
  · intro _ hUnknown
    obtain hPatch | hOld := reportsUnknown_of_apply hUnknown
    · exact hKnown hPatch
    · exact h.never_started hStartedAt hOld
  · intro hAborted
    change record.controller.isSome = true at hAborted
    rw [hController] at hAborted
    cases hAborted

theorem Coherent.finished (hRunning : record.snapshot.state = .running) {patch : TerminalPatch ρ}
    (hSignalled : Signalled record record' patch) (now : Rat) : Coherent (ended record' patch now) := by
  obtain ⟨hOccupied, hStartedAt, hReleased, _⟩ := h.running_facts hRunning
  have hTerminal := isTerminalState_apply patch record'.snapshot now
  refine ⟨hTerminal.symm, ?_, ?_, ?_, ?_, ?_, ?_⟩
  · change record'.releaseResolved = true ↔ _ ∧ record'.chain.occupied = false
    rw [hSignalled.releaseResolved, hSignalled.chain, hReleased, hOccupied]
    simp
  · exact fun hState => absurd hState (apply_state_ne patch record'.snapshot now rfl)
  · exact fun hState => absurd hState (apply_state_ne patch record'.snapshot now rfl)
  · change record'.chain = .unstarted ↔ (patch.apply record'.snapshot now).startedAt = none
    rw [apply_startedAt, hSignalled.snapshot, hSignalled.chain]
    exact h.started
  · intro hNever
    change (patch.apply record'.snapshot now).startedAt = none at hNever
    rw [apply_startedAt, hSignalled.snapshot] at hNever
    exact absurd hNever hStartedAt
  · intro hAborted
    refine ⟨hTerminal, ?_⟩
    intro hMutation
    change record'.spec.resources.impact = .mutation at hMutation
    rw [hSignalled.spec] at hMutation
    exact apply_reportsUnknown record'.snapshot now (hSignalled.aborted hAborted hMutation)

theorem Coherent.not_aborted (hTerminal : isTerminalState record.snapshot.state = false) : record.controller.isSome = false := by
  rw [Bool.eq_false_iff]
  intro hAborted
  rw [(h.aborted hAborted).1] at hTerminal
  cases hTerminal

theorem Coherent.begun (hQueued : record.snapshot.state = .queued) (now : Rat) : Coherent (beginRun record now) := by
  have hOpen : isTerminalState record.snapshot.state = false := by rw [hQueued]; rfl
  refine ⟨h.completion.trans hOpen, ?_, ?_, fun _ => .inl rfl, ?_, ?_, ?_⟩
  · refine iff_of_false ?_ (by rintro ⟨hEnded, _⟩; cases hEnded)
    intro hReleased
    have hEnded := (h.release.mp hReleased).1
    rw [hOpen] at hEnded
    cases hEnded
  · intro hState
    cases hState
  · exact iff_of_false (by rintro ⟨⟩) (by rintro ⟨⟩)
  · intro hNever
    cases hNever
  · intro hAborted
    change record.controller.isSome = true at hAborted
    rw [h.not_aborted hOpen] at hAborted
    cases hAborted

theorem Coherent.with_chain {chain : RunChain} (hOccupied : chain.occupied = record.chain.occupied)
    (hStarted : record.chain ≠ .unstarted) (hNext : chain ≠ .unstarted)
    (hRunning : record.snapshot.state = .running → chain = .microtaskQueued ∨ chain = .awaitingRunner) :
    Coherent { record with chain := chain } := by
  refine ⟨h.completion, ?_, ?_, hRunning, ?_, h.never_started, h.aborted⟩
  · rw [hOccupied]
    exact h.release
  · exact fun hQueued => absurd (h.queued hQueued) hStarted
  · exact iff_of_false hNext (fun hNever => hStarted (h.started.mpr hNever))

theorem Coherent.freed (hChain : record.chain = .settled) : isTerminalState record.snapshot.state = true ∧
      Coherent { record with chain := .finished, releaseResolved := true } := by
  have hNotQueued : record.snapshot.state ≠ .queued := by
    intro hQueued
    rw [h.queued hQueued] at hChain
    cases hChain
  have hNotRunning : record.snapshot.state ≠ .running := by
    intro hRunning
    obtain hOther | hOther := h.running hRunning <;> rw [hChain] at hOther <;> cases hOther
  have hTerminal : isTerminalState record.snapshot.state = true := by
    cases hState : record.snapshot.state with
    | queued => exact absurd hState hNotQueued
    | running => exact absurd hState hNotRunning
    | succeeded => rfl
    | failed => rfl
    | cancelled => rfl
  refine ⟨hTerminal, h.completion, iff_of_true rfl ⟨hTerminal, rfl⟩, ?_, ?_, ?_, h.never_started, h.aborted⟩
  · exact fun hQueued => absurd hQueued hNotQueued
  · exact fun hRunning => absurd hRunning hNotRunning
  · refine iff_of_false (by rintro ⟨⟩) ?_
    intro hNever
    rw [h.started.mpr hNever] at hChain
    cases hChain

theorem Coherent.reported (value : π) : Coherent { record with snapshot := { record.snapshot with partialResult := some value } } :=
  ⟨h.completion, h.release, h.queued, h.running, h.started, h.never_started, h.aborted⟩

end

section

variable (h : s.WellFormed)
include h

theorem WellFormed.split_queue {ahead behind : List Nat} (hQueue : s.queue = ahead ++ n :: behind) : ahead ++ behind = s.queue.erase n := by
  have hNodup : s.queue.Nodup := h.sorted.imp Nat.ne_of_lt
  rw [hQueue, List.nodup_append] at hNodup
  have hAhead : n ∉ ahead := fun hMem => hNodup.2.2 n hMem n List.mem_cons_self rfl
  rw [hQueue, List.erase_append_right _ hAhead, List.erase_cons_head]

theorem WellFormed.active_get? (hStore : s.store n = some record) :
    s.active.get? record.snapshot.taskId = some n ↔ record.chain.occupied = true := by
  rw [← s.active.mem_entries_iff, h.active]
  constructor
  · rintro ⟨found, hFound, _, hOccupied⟩
    rw [hStore, Option.some.injEq] at hFound
    exact hFound ▸ hOccupied
  · exact fun hOccupied => ⟨record, hStore, rfl, hOccupied⟩

theorem WellFormed.active_none (hStore : s.store n = some record) (hLive : Live record) (hFree : record.chain.occupied = false) :
    s.active.get? record.snapshot.taskId = none := by
  cases hGet : s.active.get? record.snapshot.taskId with
  | none => rfl
  | some m =>
    obtain ⟨other, hOther, hTaskId, hOccupied⟩ := (h.active _ m).mp ((s.active.mem_entries_iff _ m).mpr hGet)
    have hEq : m = n := by
      by_contra hNe
      exact h.taskId_ne hStore hOther hLive (.inr hOccupied) hNe hTaskId
    subst hEq
    rw [hStore, Option.some.injEq] at hOther
    rw [← hOther, hFree] at hOccupied
    cases hOccupied

theorem WellFormed.queued_of_split {ahead behind : List Nat} (hQueue : s.queue = ahead ++ n :: behind)
    (hStore : s.store n = some record) : record.snapshot.state = .queued := by
  obtain ⟨found, hFound, hQueued⟩ := (h.queued n).mp (by simp [hQueue])
  rw [hStore, Option.some.injEq] at hFound
  rw [hFound]
  exact hQueued

theorem WellFormed.active_begun (hStore : s.store n = some record) (hLive : Live record) (hFree : record.chain.occupied = false)
    (taskId : Text) (m : Nat) : (taskId, m) ∈ (s.active.set record.snapshot.taskId n).entries ↔
      if m = n then record.snapshot.taskId = taskId ∧ (beginRun record s.now).chain.occupied = true else (taskId, m) ∈ s.active.entries := by
  have hNone := h.active_none hStore hLive hFree
  rw [JsMap.entries_set_of_new _ _ hNone, List.mem_append, List.mem_singleton, Prod.mk.injEq]
  by_cases hEq : m = n
  · subst hEq
    rw [if_pos rfl, h.active taskId m, hStore]
    simp only [Option.some.injEq, exists_eq_left', hFree, Bool.false_eq_true, and_false, false_or]
    constructor
    · rintro ⟨rfl, _⟩
      exact ⟨rfl, rfl⟩
    · rintro ⟨rfl, _⟩
      exact ⟨rfl, trivial⟩
  · simp [hEq]

theorem WellFormed.active_released (hStore : s.store n = some record) (hOccupied : record.chain.occupied = true)
    (hFreed : record'.chain.occupied = false) (taskId : Text) (m : Nat) : (taskId, m) ∈ (s.active.delete record.snapshot.taskId).entries ↔
      if m = n then record'.snapshot.taskId = taskId ∧ record'.chain.occupied = true else (taskId, m) ∈ s.active.entries := by
  rw [JsMap.mem_entries_delete]
  by_cases hEq : m = n
  · subst hEq
    rw [if_pos rfl, h.active taskId m, hStore]
    simp only [Option.some.injEq, exists_eq_left', hFreed, Bool.false_eq_true, and_false, iff_false, not_and, ne_eq,
      not_not]
    exact fun hPair => hPair.1.symm
  · rw [if_neg hEq]
    refine and_iff_left_of_imp ?_
    intro hMem
    obtain ⟨other, hOther, rfl, hOtherOccupied⟩ := (h.active taskId m).mp hMem
    exact h.taskId_ne hStore hOther (.inr hOccupied) (.inr hOtherOccupied) hEq

theorem WellFormed.forgotten (hStore : s.store n = some record) (hRegistered : s.records.get? record.snapshot.taskId = some n)
    (hLive : ¬Live record) : ({ s with records := s.records.delete record.snapshot.taskId } : SftpTaskScheduler ρ π ε).WellFormed := by
  refine ⟨h.known, h.coherent, h.sorted, h.queued, h.active, ?_, ?_⟩
  · intro m other hOther hOtherLive
    have hGet := h.registered m other hOther hOtherLive
    have hNe : other.snapshot.taskId ≠ record.snapshot.taskId := by
      intro hEq
      rw [hEq, hRegistered, Option.some.injEq] at hGet
      subst hGet
      rw [hStore, Option.some.injEq] at hOther
      exact hLive (hOther ▸ hOtherLive)
    rw [← JsMap.mem_entries_iff] at hGet ⊢
    exact (JsMap.mem_entries_delete _ _ _ _).mpr ⟨hGet, hNe⟩
  · intro taskId m hGet
    rw [← JsMap.mem_entries_iff, JsMap.mem_entries_delete, JsMap.mem_entries_iff] at hGet
    exact h.named taskId m hGet.1

end

theorem WellFormed.transition {s' : SftpTaskScheduler ρ π ε} (h : s.WellFormed) {outcome : Option Nat}
    (hTransition : Transition outcome s s') : s'.WellFormed := by
  cases hTransition with
  | @withdraw n record patch hStore hQueued hKnown =>
    obtain ⟨_, hCoherent⟩ := h.coherent n record hStore
    have hState : (patch.apply record.snapshot s.now).state ≠ .queued := apply_state_ne patch _ _ rfl
    refine h.advance hStore rfl (apply_taskId patch _ _) (hCoherent.withdrawn hQueued hKnown s.now) ?_
      List.erase_sublist (fun m => h.queue_erase n m hState) ?_
    · exact fun _ => .inl (by rw [hQueued]; rfl)
    · exact h.active_same hStore (apply_taskId patch _ _) rfl
  | @start n record ahead behind hStore hQueue hAdmits =>
    obtain ⟨_, hCoherent⟩ := h.coherent n record hStore
    have hQueued := h.queued_of_split hQueue hStore
    have hLive : Live record := .inl (by rw [hQueued]; rfl)
    have hFree : record.chain.occupied = false := by
      rw [hCoherent.queued hQueued]
      rfl
    rw [h.split_queue hQueue]
    exact h.advance hStore rfl rfl (hCoherent.begun hQueued s.now) (fun _ => hLive)
      List.erase_sublist (fun m => h.queue_erase n m (by rintro ⟨⟩)) (h.active_begun hStore hLive hFree)
  | @finish n record record' patch hooks hStore hRunning hSignalled _ =>
    obtain ⟨_, hCoherent⟩ := h.coherent n record hStore
    have hTaskId : (ended record' patch s.now).snapshot.taskId = record.snapshot.taskId := by
      rw [← hSignalled.snapshot]
      exact apply_taskId patch _ _
    refine h.advance hStore hSignalled.sequence hTaskId (hCoherent.finished hRunning hSignalled s.now) ?_
      (List.Sublist.refl _) ?_ ?_
    · exact fun _ => .inl (by rw [hRunning]; rfl)
    · refine h.queue_same hStore (iff_of_false (apply_state_ne patch _ _ rfl) ?_)
      rw [hRunning]
      rintro ⟨⟩
    · refine h.active_same hStore hTaskId ?_
      rw [← hSignalled.chain]
      rfl
  | @invoke n record hStore hChain hRunning =>
    obtain ⟨_, hCoherent⟩ := h.coherent n record hStore
    have hOccupied : RunChain.occupied .awaitingRunner = record.chain.occupied := by rw [hChain]; rfl
    refine h.advance hStore rfl rfl (hCoherent.with_chain hOccupied ?_ (by rintro ⟨⟩) fun _ => .inr rfl) ?_
      (List.Sublist.refl _) (h.queue_same hStore Iff.rfl) (h.active_same hStore rfl hOccupied)
    · rw [hChain]
      rintro ⟨⟩
    · exact fun _ => .inl (by rw [hRunning]; rfl)
  | @settle n record hStore hChain hTerminal =>
    obtain ⟨_, hCoherent⟩ := h.coherent n record hStore
    have hOccupied : RunChain.occupied .settled = record.chain.occupied := by
      obtain hChain | hChain := hChain <;> rw [hChain] <;> rfl
    refine h.advance hStore rfl rfl (hCoherent.with_chain hOccupied ?_ (by rintro ⟨⟩) ?_) ?_
      (List.Sublist.refl _) (h.queue_same hStore Iff.rfl) (h.active_same hStore rfl hOccupied)
    · obtain hChain | hChain := hChain <;> rw [hChain] <;> rintro ⟨⟩
    · intro hRunning
      rw [hRunning] at hTerminal
      cases hTerminal
    · exact fun _ => .inr hOccupied.symm
  | @release n record hStore hChain =>
    obtain ⟨_, hCoherent⟩ := h.coherent n record hStore
    obtain ⟨hTerminal, hFreed⟩ := hCoherent.freed hChain
    have hOccupied : record.chain.occupied = true := by rw [hChain]; rfl
    exact h.advance hStore rfl rfl hFreed (fun _ => .inr hOccupied) (List.Sublist.refl _)
      (h.queue_same hStore Iff.rfl) (h.active_released hStore hOccupied rfl)
  | @report n record value hStore hRunning =>
    obtain ⟨_, hCoherent⟩ := h.coherent n record hStore
    exact h.advance hStore rfl rfl (hCoherent.reported value) id (List.Sublist.refl _)
      (h.queue_same hStore Iff.rfl) (h.active_same hStore rfl rfl)
  | forget hStore hRegistered hLive => exact h.forgotten hStore hRegistered hLive
  | quiet hTasks hWaiters =>
    obtain ⟨hRecords, _, hQueue, hActive, hSequence, hStore, _⟩ := hTasks
    refine ⟨?_, ?_, ?_, ?_, ?_, ?_, ?_⟩
    · rw [hStore, hSequence]
      exact h.known
    · rw [hStore]
      exact h.coherent
    · rw [hQueue]
      exact h.sorted
    · rw [hQueue, hStore]
      exact h.queued
    · rw [hActive, hStore]
      exact h.active
    · rw [hStore, hRecords]
      exact h.registered
    · rw [hStore, hRecords]
      exact h.named

theorem WellFormed.steps {s' : SftpTaskScheduler ρ π ε} (h : s.WellFormed) {outcome : Option Nat} (hSteps : Steps outcome s s') :
    s'.WellFormed := by
  induction hSteps with
  | refl => exact h
  | tail _ hTransition ih => exact ih.transition hTransition

end SftpTaskScheduler

end Sftp
