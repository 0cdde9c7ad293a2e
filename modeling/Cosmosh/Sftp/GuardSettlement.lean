import Cosmosh.Sftp.OperationGuard

/-! # The guard settles once

Until something completes the operation, both deadlines are armed and the listener is there.
-/

namespace Sftp

open Library.Transition

namespace OperationGuard

variable {α ε : Type}

def completion (guard : OperationGuard α ε) : Event α ε → Option (Except (GuardError ε) α)
  | .fulfilled value => some (.ok value)
  | .rejected error => some (.error (.operation error))
  | .thrown error => some (.error (.operation error))
  | .progress => none
  | .timer id =>
    (guard.armed.find? fun entry => entry.id = id).map fun entry => .error (.failure (guard.timeoutFailure entry.timeoutKind))
  | .transportAbort => if guard.transportAborted then none else some (.error (.failure guard.transportFailure))

def completions (guard : OperationGuard α ε) : List (Event α ε) → List (Except (GuardError ε) α)
  | [] => []
  | event :: events => (guard.completion event).toList ++ completions (guard.step event) events

def failure? : Except (GuardError ε) α → Option (GuardError ε)
  | .ok _ => none
  | .error error => some error

def timeout? : Except (GuardError ε) α → Option SftpOperationFailure
  | .error (.failure failure) => if failure.code = .timeout then some failure else none
  | _ => none

structure Pending (guard : OperationGuard α ε) : Prop where
  settled : guard.settled = false
  settlements : guard.settlements = []
  timeoutCalls : guard.timeoutCalls = []
  operationAborted : guard.operationAborted = none
  transportAborted : guard.transportAborted = false
  listening : guard.listening = true
  timers : ∃ idle absolute, guard.idleTimer = some idle ∧ guard.absoluteTimer = some absolute ∧ idle ≠ absolute ∧
    absolute < guard.nextTimer ∧ guard.armed.Perm [⟨idle, .idle⟩, ⟨absolute, .absolute⟩]

structure Settled (guard : OperationGuard α ε) (outcome : Except (GuardError ε) α) : Prop where
  settled : guard.settled = true
  settlements : guard.settlements = [outcome]
  timeoutCalls : guard.timeoutCalls = if guard.options.hasOnTimeout then (timeout? outcome).toList else []
  operationAborted : guard.operationAborted = failure? outcome
  timers : guard.armed = []
  listening : guard.listening = false

variable {guard : OperationGuard α ε}

variable {outcome : Except (GuardError ε) α}

theorem Settled.step (h : guard.Settled outcome) (event : Event α ε) : (guard.step event).Settled outcome := by
  have hIgnored : ∀ error, guard.settleFailure error = (false, guard) := fun error => if_pos h.settled
  cases event with
  | fulfilled value =>
    rw [OperationGuard.step, settleSuccess, if_pos h.settled]
    exact h
  | rejected error =>
    rw [OperationGuard.step, hIgnored]
    exact h
  | thrown error =>
    rw [OperationGuard.step, hIgnored]
    exact h
  | progress =>
    rw [OperationGuard.step, markProgress, if_pos h.settled]
    exact h
  | timer id =>
    rw [OperationGuard.step, h.timers]
    exact h
  | transportAbort =>
    rw [OperationGuard.step, h.listening]
    split
    · exact h
    · rw [if_neg Bool.false_ne_true]
      exact ⟨h.settled, h.settlements, h.timeoutCalls, h.operationAborted, h.timers, rfl⟩

theorem armed_cleanup (h : ∀ entry ∈ guard.armed, some entry.id = guard.idleTimer ∨ some entry.id = guard.absoluteTimer) :
    guard.cleanup.armed = [] := by
  show (guard.armed.filter fun entry => some entry.id ≠ guard.idleTimer).filter
    (fun entry => some entry.id ≠ guard.absoluteTimer) = []
  rw [List.filter_filter, List.filter_eq_nil_iff]
  intro entry hEntry
  rw [Bool.and_eq_true, decide_eq_true_eq, decide_eq_true_eq, not_and_or, not_not, not_not]
  exact (h entry hEntry).symm

theorem Pending.known (h : guard.Pending) : ∀ entry ∈ guard.armed, some entry.id = guard.idleTimer ∨ some entry.id = guard.absoluteTimer := by
  obtain ⟨idle, absolute, hIdle, hAbsolute, -, -, hArmed⟩ := h.timers
  intro entry hEntry
  rw [hArmed.mem_iff, List.mem_cons, List.mem_singleton] at hEntry
  obtain rfl | rfl := hEntry
  · exact .inl hIdle.symm
  · exact .inr hAbsolute.symm

structure Open (guard : OperationGuard α ε) : Prop where
  settled : guard.settled = false
  settlements : guard.settlements = []
  timeoutCalls : guard.timeoutCalls = []
  operationAborted : guard.operationAborted = none
  known : ∀ entry ∈ guard.armed, some entry.id = guard.idleTimer ∨ some entry.id = guard.absoluteTimer

theorem Pending.toOpen (h : guard.Pending) : guard.Open := ⟨h.settled, h.settlements, h.timeoutCalls, h.operationAborted, h.known⟩

namespace Open

theorem settleSuccess (h : guard.Open) (value : α) : (guard.settleSuccess value).Settled (.ok value) := by
  have hTimers : (({ guard with settled := true } : OperationGuard α ε).cleanup).armed = [] := armed_cleanup h.known
  rw [OperationGuard.settleSuccess, if_neg (Bool.eq_false_iff.mp h.settled)]
  constructor
  · rfl
  · show guard.settlements ++ [.ok value] = [.ok value]
    rw [h.settlements, List.nil_append]
  · show guard.timeoutCalls = _
    rw [h.timeoutCalls]
    exact (ite_self []).symm
  · exact h.operationAborted
  · exact hTimers
  · rfl

theorem settleFailure (h : guard.Open) {error : GuardError ε} (hError : timeout? (.error error : Except (GuardError ε) α) = none) :
    ((guard.settleFailure error).2).Settled (.error error) := by
  have hTimers : (({ guard with settled := true } : OperationGuard α ε).cleanup).armed = [] := armed_cleanup h.known
  rw [OperationGuard.settleFailure, if_neg (Bool.eq_false_iff.mp h.settled)]
  constructor
  · rfl
  · show guard.settlements ++ [.error error] = [.error error]
    rw [h.settlements, List.nil_append]
  · show guard.timeoutCalls = _
    rw [h.timeoutCalls, hError]
    exact (ite_self []).symm
  · rfl
  · exact hTimers
  · rfl

theorem handleTimeout (h : guard.Open) (timeoutKind : SftpOperationTimeoutKind) :
    (guard.handleTimeout timeoutKind).Settled (.error (.failure (guard.timeoutFailure timeoutKind))) := by
  have hTimers : (({ guard with settled := true } : OperationGuard α ε).cleanup).armed = [] := armed_cleanup h.known
  have hTimeout : timeout? (.error (.failure (guard.timeoutFailure timeoutKind)) : Except (GuardError ε) α) =
      some (guard.timeoutFailure timeoutKind) := by
    rw [timeout?]
    exact if_pos rfl
  have hSettlements : guard.settlements ++ [.error (.failure (guard.timeoutFailure timeoutKind))] =
      [.error (.failure (guard.timeoutFailure timeoutKind))] := by rw [h.settlements, List.nil_append]
  rw [OperationGuard.handleTimeout, OperationGuard.settleFailure, if_neg (Bool.eq_false_iff.mp h.settled)]
  dsimp only
  rw [if_neg (not_not_intro rfl)]
  split
  · rename_i hGiven
    replace hGiven : guard.options.hasOnTimeout = true := hGiven
    constructor
    · rfl
    · exact hSettlements
    · show guard.timeoutCalls ++ [guard.timeoutFailure timeoutKind] = if guard.options.hasOnTimeout then _ else []
      rw [h.timeoutCalls, if_pos hGiven, hTimeout]
      rfl
    · rfl
    · exact hTimers
    · rfl
  · rename_i hMissing
    replace hMissing : ¬guard.options.hasOnTimeout = true := hMissing
    constructor
    · rfl
    · exact hSettlements
    · show guard.timeoutCalls = if guard.options.hasOnTimeout then _ else []
      rw [h.timeoutCalls, if_neg hMissing]
    · rfl
    · exact hTimers
    · rfl

end Open

theorem Pending.markProgress (h : guard.Pending) : guard.markProgress.Pending := by
  obtain ⟨idle, absolute, hIdle, hAbsolute, hOther, hLess, hArmed⟩ := h.timers
  rw [OperationGuard.markProgress, if_neg (Bool.eq_false_iff.mp h.settled)]
  refine ⟨h.settled, h.settlements, h.timeoutCalls, h.operationAborted, h.transportAborted, h.listening, guard.nextTimer, absolute,
    rfl, hAbsolute, hLess.ne', Nat.lt_succ_of_lt hLess, ?_⟩
  have hKept : (guard.armed.filter fun entry : ArmedTimer => some entry.id ≠ guard.idleTimer).Perm [⟨absolute, .absolute⟩] := by
    rw [hIdle]
    have hFiltered := hArmed.filter fun entry : ArmedTimer => some entry.id ≠ some idle
    rw [List.filter_cons_of_neg (by simp), List.filter_cons_of_pos (by simpa using hOther.symm), List.filter_nil] at hFiltered
    exact hFiltered
  exact (hKept.append_right [⟨guard.nextTimer, .idle⟩]).trans (List.Perm.swap _ _ _)

theorem Pending.step_of_none (h : guard.Pending) {event : Event α ε} (hNone : guard.completion event = none) : (guard.step event).Pending := by
  cases event with
  | fulfilled value => cases hNone
  | rejected error => cases hNone
  | thrown error => cases hNone
  | progress => exact h.markProgress
  | timer id =>
    have hMissing := Option.map_eq_none_iff.mp hNone
    rw [step, hMissing]
    exact h
  | transportAbort =>
    rw [completion, h.transportAborted] at hNone
    cases hNone

theorem Pending.step_of_some (h : guard.Pending) {event : Event α ε} (hSome : guard.completion event = some outcome) :
    (guard.step event).Settled outcome := by
  cases event with
  | fulfilled value =>
    cases hSome
    exact h.toOpen.settleSuccess value
  | rejected error =>
    cases hSome
    exact h.toOpen.settleFailure rfl
  | thrown error =>
    cases hSome
    exact h.toOpen.settleFailure rfl
  | progress => cases hSome
  | timer id =>
    obtain ⟨entry, hEntry, rfl⟩ := Option.map_eq_some_iff.mp hSome
    have hFired : ({ guard with armed := guard.armed.filter (· ≠ entry) } : OperationGuard α ε).Open :=
      ⟨h.settled, h.settlements, h.timeoutCalls, h.operationAborted, fun other hOther => h.known other (List.mem_filter.mp hOther).1⟩
    rw [step, hEntry]
    exact hFired.handleTimeout entry.timeoutKind
  | transportAbort =>
    have hNotified : ({ guard with transportAborted := true, listening := false } : OperationGuard α ε).Open :=
      ⟨h.settled, h.settlements, h.timeoutCalls, h.operationAborted, h.known⟩
    rw [completion, h.transportAborted] at hSome
    cases hSome
    rw [step, h.transportAborted, h.listening]
    exact hNotified.settleFailure rfl

theorem Settled.run (h : guard.Settled outcome) (events : List (Event α ε)) : ((guardedOperations α ε).run guard events).Settled outcome := by
  induction events generalizing guard with
  | nil => exact h
  | cons event events ih => exact ih (h.step event)

theorem Pending.run (h : guard.Pending) (events : List (Event α ε)) :
    (guard.completions events = [] → ((guardedOperations α ε).run guard events).Pending) ∧
      ∀ outcome, (guard.completions events).head? = some outcome → ((guardedOperations α ε).run guard events).Settled outcome := by
  induction events generalizing guard with
  | nil =>
    refine ⟨fun _ => h, fun outcome hOutcome => ?_⟩
    cases hOutcome
  | cons event events ih =>
    rw [completions, Machine.run_cons]
    cases hCompletion : guard.completion event with
    | none => exact ih (h.step_of_none hCompletion)
    | some first =>
      have hSettled : ((guardedOperations α ε).run (guard.step event) events).Settled first := (h.step_of_some hCompletion).run events
      constructor
      · intro hNone
        cases hNone
      · intro outcome hOutcome
        cases hOutcome
        exact hSettled

end OperationGuard

open OperationGuard

variable {α ε : Type}

def firstCompletions (guard : OperationGuard α ε) (transportAborted : Bool) (events : List (Event α ε)) :
    List (Except (GuardError ε) α) := (if transportAborted then [.error (.failure guard.transportFailure)] else []) ++ guard.completions events

theorem pending_install (options : SftpOperationGuardOptions) : (install (α := α) (ε := ε) options false).Pending := by
  refine ⟨rfl, rfl, rfl, rfl, rfl, rfl, 0, 1, rfl, rfl, Nat.zero_ne_one, Nat.lt_succ_self 1, ?_⟩
  exact List.Perm.refl _

theorem settled_install (options : SftpOperationGuardOptions) :
    (install (α := α) (ε := ε) options true).Settled (.error (.failure (newGuard (α := α) (ε := ε) options true).transportFailure)) := by
  have hOpen : ({ newGuard options true with listening := true } : OperationGuard α ε).Open :=
    ⟨rfl, rfl, rfl, rfl, fun entry hEntry => absurd hEntry List.not_mem_nil⟩
  exact hOpen.settleFailure rfl

/-- Whatever reaches the guard in whatever order, it is pending until the first completion and settled with it from then on. -/
theorem guarded_operation_settles_once {options : SftpOperationGuardOptions} {transportAborted : Bool} {guard : OperationGuard α ε}
    (h : runGuardedSftpOperation options transportAborted = .ok guard) (events : List (Event α ε)) :
    (firstCompletions guard transportAborted events = [] → ((guardedOperations α ε).run guard events).Pending) ∧
      ∀ outcome, (firstCompletions guard transportAborted events).head? = some outcome →
        ((guardedOperations α ε).run guard events).Settled outcome := by
  rw [runGuardedSftpOperation] at h
  split at h
  · cases h
  · split at h
    · cases h
    · cases h
      cases transportAborted with
      | false => exact (pending_install options).run events
      | true =>
        have hSettled := (settled_install (α := α) (ε := ε) options).run events
        constructor
        · intro hNone
          cases hNone
        · intro outcome hOutcome
          cases hOutcome
          exact hSettled

def writeOptions : SftpOperationGuardOptions := ⟨"write", .mutation, some 1000, some 5000, true⟩

def openedWrite : OperationGuard Unit String := install writeOptions false

def lateWrite : List (Event Unit String) := [.progress, .timer 0, .timer 1, .fulfilled (), .progress, .transportAbort]

theorem lateWrite_settles_once : ((guardedOperations Unit String).run openedWrite lateWrite).Settled
      (.error (.failure ⟨.timeout, "write", true, some (.absolute, some 5000)⟩)) := by
  have hIdle : isPositive writeOptions.idleTimeoutMs = true := by decide
  have hAbsolute : isPositive writeOptions.absoluteTimeoutMs = true := by decide
  have hInstalled : runGuardedSftpOperation writeOptions false = .ok openedWrite := by
    rw [runGuardedSftpOperation, if_neg (not_not_intro hIdle), if_neg (not_not_intro hAbsolute)]
    rfl
  exact (guarded_operation_settles_once hInstalled lateWrite).2 _ rfl

end Sftp
