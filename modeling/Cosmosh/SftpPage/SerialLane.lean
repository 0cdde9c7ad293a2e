import Cosmosh.SftpPage.TaskQueue

/-! # One serial task at a time

What holds at every point of a run of the task queue.
-/

namespace SftpPage

open Library.Transition

def Execution.inLane (taskQueueGeneration : Nat) (execution : Execution) : Bool :=
  decide (execution.task.executionLane = .serial) && decide (execution.activeGeneration = taskQueueGeneration)

variable {execution : Execution}

theorem Execution.inLane_iff {taskQueueGeneration : Nat} :
    execution.inLane taskQueueGeneration = true ↔
      execution.task.executionLane = .serial ∧ execution.activeGeneration = taskQueueGeneration := by
  rw [inLane, Bool.and_eq_true, decide_eq_true_iff, decide_eq_true_iff]

namespace TaskQueue

variable (q : TaskQueue)

def laneExecutions : List Execution := q.executions.filter (Execution.inLane q.taskQueueGeneration)

structure QueueInvariant (q : TaskQueue) : Prop where
  queued : ∀ task ∈ q.serialTaskQueue, task.executionLane = .serial ∧ q.firstId ≤ task.id ∧ task.id < q.nextId
  order : q.enqueued = q.started ++ q.serialTaskQueue.map (·.id)
  settled : ∀ execution ∈ q.executions, execution.settled = true → execution.task.executionLane = .serial
  bounded : ∀ execution ∈ q.executions, execution.task.id < q.nextId ∧ execution.activeGeneration ≤ q.taskQueueGeneration
  current : ∀ execution ∈ q.executions, q.firstId ≤ execution.task.id ↔ execution.activeGeneration = q.taskQueueGeneration
  first : q.firstId ≤ q.nextId
  listed : ∀ task ∈ q.sftpTasks, q.firstId ≤ task.id

structure LaneInvariant (q : TaskQueue) : Prop extends QueueInvariant q where
  busy : q.isSerialTaskQueueRunning = true → ∃ execution, q.laneExecutions = [execution]
  idle : q.isSerialTaskQueueRunning = false → q.laneExecutions = [] ∧ q.serialTaskQueue = []

variable {q}

theorem mem_laneExecutions :
    execution ∈ q.laneExecutions ↔
      execution ∈ q.executions ∧ execution.task.executionLane = .serial ∧ execution.activeGeneration = q.taskQueueGeneration := by
  rw [laneExecutions, List.mem_filter, Execution.inLane_iff]

def KeepsLane (q next : TaskQueue) : Prop :=
  (∃ tasks sftpTasksRef isTaskMenuOpen timers reconnects notices, next =
    { q with
      sftpTasks := tasks
      sftpTasksRef := sftpTasksRef
      isTaskMenuOpen := isTaskMenuOpen
      taskRetentionTimers := timers
      reconnects := reconnects
      notices := notices }) ∧
  ∀ task ∈ next.sftpTasks, ∃ old ∈ q.sftpTasks, old.id = task.id

namespace KeepsLane

theorem refl (q : TaskQueue) : KeepsLane q q := ⟨⟨_, _, _, _, _, _, rfl⟩, fun task hTask => ⟨task, hTask, rfl⟩⟩

theorem trans {a b c : TaskQueue} (hFirst : KeepsLane a b) (hSecond : KeepsLane b c) : KeepsLane a c := by
  obtain ⟨⟨_, _, _, _, _, _, rfl⟩, hOld⟩ := hFirst
  obtain ⟨⟨tasks, sftpTasksRef, isTaskMenuOpen, timers, reconnects, notices, rfl⟩, hNew⟩ := hSecond
  refine ⟨⟨tasks, sftpTasksRef, isTaskMenuOpen, timers, reconnects, notices, rfl⟩, ?_⟩
  intro task hTask
  obtain ⟨middle, hMiddle, hSame⟩ := hNew task hTask
  obtain ⟨old, hMem, hOldId⟩ := hOld middle hMiddle
  exact ⟨old, hMem, hOldId.trans hSame⟩

theorem queueInvariant {next : TaskQueue} (hKeeps : KeepsLane q next) (h : QueueInvariant q) : QueueInvariant next := by
  obtain ⟨⟨_, _, _, _, _, _, rfl⟩, hOld⟩ := hKeeps
  refine ⟨h.queued, h.order, h.settled, h.bounded, h.current, h.first, ?_⟩
  intro task hTask
  obtain ⟨old, hMem, hSame⟩ := hOld task hTask
  exact hSame ▸ h.listed old hMem

theorem laneInvariant {next : TaskQueue} (hKeeps : KeepsLane q next) (h : LaneInvariant q) : LaneInvariant next := by
  have hQueue := hKeeps.queueInvariant h.toQueueInvariant
  obtain ⟨⟨_, _, _, _, _, _, rfl⟩, _⟩ := hKeeps
  exact ⟨hQueue, h.busy, h.idle⟩

end KeepsLane

variable (taskId : TaskId)

theorem keepsLane_updateTask (change : SftpTaskState → SftpTaskState) (hId : ∀ task, (change task).id = task.id) :
    KeepsLane q (q.updateTask taskId change) := by
  refine ⟨⟨_, _, _, _, _, _, rfl⟩, ?_⟩
  intro task hTask
  obtain ⟨old, hMem, rfl⟩ := List.mem_map.mp hTask
  refine ⟨old, hMem, ?_⟩
  split
  · exact (hId old).symm
  · rfl

theorem keepsLane_scheduleTaskRetentionCleanup : KeepsLane q (q.scheduleTaskRetentionCleanup taskId) :=
  ⟨⟨_, _, _, _, _, _, rfl⟩, fun task hTask => ⟨task, hTask, rfl⟩⟩

theorem keepsLane_finishSftpTask (execution : Execution) (outcome : TaskOutcome) (now : Int) (focusExposed : Bool) :
    KeepsLane q (q.finishSftpTask execution outcome now focusExposed) := by
  unfold finishSftpTask
  split
  · exact KeepsLane.refl q
  · cases outcome with
    | success => exact (keepsLane_updateTask _ (succeedTask now) fun _ => rfl).trans (keepsLane_scheduleTaskRetentionCleanup _)
    | cancelled =>
      exact (keepsLane_updateTask _ (failTask now .cancelled none none) fun _ => rfl).trans (keepsLane_scheduleTaskRetentionCleanup _)
    | failed message =>
      have hNoticed (other : TaskQueue) (notices : List (String × String)) : KeepsLane other { other with notices := notices } :=
        ⟨⟨_, _, _, _, _, _, rfl⟩, fun task hTask => ⟨task, hTask, rfl⟩⟩
      have hFailed := (keepsLane_updateTask (q := q) execution.task.id
        (failTask now .failed (some (q.resolveFailureAttention focusExposed)) (some message)) fun _ => rfl).trans
        (hNoticed _ (q.notices ++ [(execution.task.label, message)]))
      dsimp only
      split
      · exact hFailed.trans (keepsLane_scheduleTaskRetentionCleanup _)
      · exact hFailed

theorem keepsLane_expire : KeepsLane q (q.expire taskId) := by
  rw [expire]
  split
  · exact ⟨⟨_, _, _, _, _, _, rfl⟩, fun task hTask => ⟨task, List.mem_of_mem_filter hTask, rfl⟩⟩
  · exact KeepsLane.refl q

theorem keepsLane_schedules (taskIds : List TaskId) : KeepsLane q (taskIds.foldl scheduleTaskRetentionCleanup q) := by
  induction taskIds generalizing q with
  | nil => exact KeepsLane.refl q
  | cons taskId taskIds ih => exact (keepsLane_scheduleTaskRetentionCleanup taskId).trans ih

theorem keepsLane_exposeUnseenFailures (attention : SftpTaskAttention) : KeepsLane q (q.exposeUnseenFailures attention) := by
  refine KeepsLane.trans ⟨⟨_, _, _, _, _, _, rfl⟩, ?_⟩ (keepsLane_schedules _)
  intro task hTask
  obtain ⟨old, hMem, rfl⟩ := List.mem_map.mp hTask
  refine ⟨old, hMem, ?_⟩
  split <;> rfl

theorem keepsLane_onTaskMenuOpenChange (isOpen : Bool) : KeepsLane q (q.onTaskMenuOpenChange isOpen) := by
  have hNext : KeepsLane q { q with isTaskMenuOpen := isOpen } := ⟨⟨_, _, _, _, _, _, rfl⟩, fun task hTask => ⟨task, hTask, rfl⟩⟩
  rw [onTaskMenuOpenChange]
  split
  · exact hNext.trans (keepsLane_exposeUnseenFailures _)
  · exact hNext

theorem forall_mem_append_singleton {α : Type} {P : α → Prop} {items : List α} {item : α} (hItems : ∀ other ∈ items, P other)
    (hItem : P item) : ∀ other ∈ items ++ [item], P other := by
  intro other hMem
  obtain hOld | hNew := List.mem_append.mp hMem
  · exact hItems other hOld
  · exact List.mem_singleton.mp hNew ▸ hItem

variable (task : SftpQueuedTask)

namespace QueueInvariant

variable (h : QueueInvariant q)

include h

theorem addExecution (hFirst : q.firstId ≤ task.id) (hNext : task.id < q.nextId) :
    QueueInvariant { q with executions := q.executions ++ [⟨task, q.taskQueueGeneration, false⟩] } where
  queued := h.queued
  order := h.order
  settled := forall_mem_append_singleton h.settled nofun
  bounded := forall_mem_append_singleton h.bounded ⟨hNext, Nat.le_refl _⟩
  current := forall_mem_append_singleton h.current ⟨fun _ => rfl, fun _ => hFirst⟩
  first := h.first
  listed := h.listed

theorem takeNext {nextTask : SftpQueuedTask} {rest : List SftpQueuedTask} (hQueue : q.serialTaskQueue = nextTask :: rest) :
    QueueInvariant { q with serialTaskQueue := rest, started := q.started ++ [nextTask.id] } where
  queued := fun task hTask => h.queued task (hQueue ▸ List.mem_cons_of_mem nextTask hTask)
  order := by rw [h.order, hQueue, List.map_cons, List.append_assoc, List.singleton_append]
  settled := h.settled
  bounded := h.bounded
  current := h.current
  first := h.first
  listed := h.listed

theorem addTask {task : SftpTaskState} (hId : task.id = q.nextId) : QueueInvariant (q.addTask task) where
  queued := fun queuedTask hTask => ⟨(h.queued queuedTask hTask).1, (h.queued queuedTask hTask).2.1,
    Nat.lt_succ_of_lt (h.queued queuedTask hTask).2.2⟩
  order := h.order
  settled := h.settled
  bounded := fun execution hMem => ⟨Nat.lt_succ_of_lt (h.bounded execution hMem).1, (h.bounded execution hMem).2⟩
  current := h.current
  first := Nat.le_succ_of_le h.first
  listed := forall_mem_append_singleton h.listed (hId ▸ h.first)

theorem addQueued (hSerial : task.executionLane = .serial) (hFirst : q.firstId ≤ task.id) (hNext : task.id < q.nextId) :
    QueueInvariant { q with serialTaskQueue := q.serialTaskQueue ++ [task], enqueued := q.enqueued ++ [task.id] } where
  queued := forall_mem_append_singleton h.queued ⟨hSerial, hFirst, hNext⟩
  order := by rw [h.order, List.map_append, List.append_assoc, List.map_singleton]
  settled := h.settled
  bounded := h.bounded
  current := h.current
  first := h.first
  listed := h.listed

theorem removeExecutions (kept : Execution → Bool) : QueueInvariant { q with executions := q.executions.filter kept } where
  queued := h.queued
  order := h.order
  settled := fun execution hMem => h.settled execution (List.mem_of_mem_filter hMem)
  bounded := fun execution hMem => h.bounded execution (List.mem_of_mem_filter hMem)
  current := fun execution hMem => h.current execution (List.mem_of_mem_filter hMem)
  first := h.first
  listed := h.listed

end QueueInvariant

theorem laneExecutions_append (hSerial : task.executionLane = .serial) (hFree : q.laneExecutions = []) :
    laneExecutions { q with executions := q.executions ++ [⟨task, q.taskQueueGeneration, false⟩] } =
      [⟨task, q.taskQueueGeneration, false⟩] := by
  have hLane : Execution.inLane q.taskQueueGeneration ⟨task, q.taskQueueGeneration, false⟩ = true := Execution.inLane_iff.mpr ⟨hSerial, rfl⟩
  calc laneExecutions { q with executions := q.executions ++ [⟨task, q.taskQueueGeneration, false⟩] }
    _ = q.laneExecutions ++ [⟨task, q.taskQueueGeneration, false⟩].filter (Execution.inLane q.taskQueueGeneration) := List.filter_append ..
    _ = [⟨task, q.taskQueueGeneration, false⟩] := by rw [hFree, List.filter_cons_of_pos hLane, List.filter_nil, List.nil_append]

theorem QueueInvariant.runQueue (h : QueueInvariant q) (now : Int) (hFree : q.laneExecutions = [])
    (hRunning : q.isSerialTaskQueueRunning = true) : LaneInvariant (q.runQueue q.taskQueueGeneration now) := by
  unfold TaskQueue.runQueue
  rw [if_pos rfl]
  split
  · next hEmpty =>
    exact {
      queued := h.queued
      order := h.order
      settled := h.settled
      bounded := h.bounded
      current := h.current
      first := h.first
      listed := h.listed
      busy := nofun
      idle := fun _ => ⟨hFree, hEmpty⟩ }
  · next nextTask rest hQueue =>
    obtain ⟨hSerial, hFirst, hNext⟩ := h.queued nextTask (hQueue ▸ List.mem_cons_self)
    have hTaken := (h.takeNext hQueue).addExecution nextTask hFirst hNext
    have hStarted := (keepsLane_updateTask nextTask.id (startTask now) fun _ => rfl).queueInvariant hTaken
    refine ⟨hStarted, fun _ => ⟨⟨nextTask, q.taskQueueGeneration, false⟩, laneExecutions_append nextTask hSerial hFree⟩, ?_⟩
    intro hIdle
    exact absurd (hRunning.symm.trans hIdle) Bool.noConfusion

theorem QueueInvariant.flushSerialSftpTaskQueue (h : QueueInvariant q) (now : Int)
    (hBusy : q.isSerialTaskQueueRunning = true → ∃ execution, q.laneExecutions = [execution])
    (hFree : q.isSerialTaskQueueRunning = false → q.laneExecutions = []) : LaneInvariant (q.flushSerialSftpTaskQueue now) := by
  unfold TaskQueue.flushSerialSftpTaskQueue
  split
  · next hNothing =>
    refine ⟨h, hBusy, fun hIdle => ⟨hFree hIdle, ?_⟩⟩
    obtain hRunning | hEmpty := hNothing
    · exact absurd (hRunning.symm.trans hIdle) Bool.noConfusion
    · exact hEmpty
  · next hWaiting =>
    have hIdle : q.isSerialTaskQueueRunning = false := Bool.eq_false_iff.mpr (not_or.mp hWaiting).1
    have hTaken : QueueInvariant { q with isSerialTaskQueueRunning := true } :=
      ⟨h.queued, h.order, h.settled, h.bounded, h.current, h.first, h.listed⟩
    exact hTaken.runQueue now (hFree hIdle) rfl

theorem laneExecutions_filter (execution : Execution) :
    laneExecutions { q with executions := q.executions.filter (· ≠ execution) } = q.laneExecutions.filter (· ≠ execution) := by
  show (q.executions.filter _).filter _ = (q.executions.filter _).filter _
  rw [List.filter_filter, List.filter_filter]
  exact List.filter_congr fun _ _ => Bool.and_comm ..

namespace LaneInvariant

variable (h : LaneInvariant q)

include h

theorem addConcurrent (hConcurrent : task.executionLane ≠ .serial) (hFirst : q.firstId ≤ task.id) (hNext : task.id < q.nextId) :
    LaneInvariant { q with executions := q.executions ++ [⟨task, q.taskQueueGeneration, false⟩] } := by
  have hLane : laneExecutions { q with executions := q.executions ++ [⟨task, q.taskQueueGeneration, false⟩] } = q.laneExecutions := by
    have hOther : ¬ Execution.inLane q.taskQueueGeneration ⟨task, q.taskQueueGeneration, false⟩ = true :=
      fun hIn => hConcurrent (Execution.inLane_iff.mp hIn).1
    calc laneExecutions { q with executions := q.executions ++ [⟨task, q.taskQueueGeneration, false⟩] }
      _ = q.laneExecutions ++ [⟨task, q.taskQueueGeneration, false⟩].filter (Execution.inLane q.taskQueueGeneration) := List.filter_append ..
      _ = q.laneExecutions := by rw [List.filter_cons_of_neg hOther, List.filter_nil, List.append_nil]
  exact ⟨h.toQueueInvariant.addExecution task hFirst hNext, fun hBusy => hLane ▸ h.busy hBusy, fun hIdle => hLane ▸ h.idle hIdle⟩

theorem addTask {task : SftpTaskState} (hId : task.id = q.nextId) : LaneInvariant (q.addTask task) :=
  ⟨h.toQueueInvariant.addTask hId, h.busy, h.idle⟩

theorem enqueueSftpTask (options : SftpTaskOptions) (now : Int) : LaneInvariant (q.enqueueSftpTask options now) := by
  have hAdded : LaneInvariant (q.addTask (newTask q.nextId options now)) := h.addTask rfl
  have hNew : q.nextId < q.nextId + 1 := Nat.lt_succ_self _
  unfold TaskQueue.enqueueSftpTask
  dsimp only
  split
  · next hSerial =>
    have hQueued := hAdded.toQueueInvariant.addQueued ⟨q.nextId, options.label, options.executionLane⟩ hSerial h.first hNew
    exact hQueued.flushSerialSftpTaskQueue now h.busy fun hIdle => (h.idle hIdle).1
  · next hConcurrent =>
    have hRun := hAdded.addConcurrent ⟨q.nextId, options.label, options.executionLane⟩ hConcurrent h.first hNew
    exact (keepsLane_updateTask q.nextId (startTask now) fun _ => rfl).laneInvariant hRun

theorem markSettled (hSerial : execution.task.executionLane = .serial) : LaneInvariant { q with
    executions := q.executions.map fun other => if other = execution then { other with settled := true } else other } := by
  have hSame (other : Execution) : (if other = execution then { other with settled := true } else other).task = other.task ∧
      (if other = execution then { other with settled := true } else other).activeGeneration = other.activeGeneration := by
    split
    · exact ⟨rfl, rfl⟩
    · exact ⟨rfl, rfl⟩
  have hLane : laneExecutions { q with
      executions := q.executions.map fun other => if other = execution then { other with settled := true } else other } =
      q.laneExecutions.map fun other => if other = execution then { other with settled := true } else other := by
    show (q.executions.map _).filter _ = (q.executions.filter _).map _
    rw [List.filter_map]
    refine congrArg _ (List.filter_congr ?_)
    intro other _
    rw [Function.comp_apply, Execution.inLane, (hSame other).1, (hSame other).2, Execution.inLane]
  refine ⟨⟨h.queued, h.order, ?_, ?_, ?_, h.first, h.listed⟩, ?_, ?_⟩
  · intro marked hMarked hSettled
    obtain ⟨other, hMem, rfl⟩ := List.mem_map.mp hMarked
    rw [(hSame other).1]
    obtain rfl | hOther := eq_or_ne other execution
    · exact hSerial
    · rw [if_neg hOther] at hSettled
      exact h.settled other hMem hSettled
  · intro marked hMarked
    obtain ⟨other, hMem, rfl⟩ := List.mem_map.mp hMarked
    rw [(hSame other).1, (hSame other).2]
    exact h.bounded other hMem
  · intro marked hMarked
    obtain ⟨other, hMem, rfl⟩ := List.mem_map.mp hMarked
    rw [(hSame other).1, (hSame other).2]
    exact h.current other hMem
  · intro hBusy
    obtain ⟨other, hOther⟩ := h.busy hBusy
    rw [hLane, hOther]
    exact ⟨_, rfl⟩
  · intro hIdle
    rw [hLane, (h.idle hIdle).1]
    exact ⟨rfl, (h.idle hIdle).2⟩

theorem removeOther (hOther : execution ∉ q.laneExecutions) :
    LaneInvariant { q with executions := q.executions.filter (· ≠ execution) } := by
  have hLane : laneExecutions { q with executions := q.executions.filter (· ≠ execution) } = q.laneExecutions := by
    rw [laneExecutions_filter, List.filter_eq_self]
    intro other hMem
    exact decide_eq_true fun hSame => hOther (hSame ▸ hMem)
  exact ⟨h.removeExecutions _, fun hBusy => hLane ▸ h.busy hBusy, fun hIdle => hLane ▸ h.idle hIdle⟩

theorem settle (execution : Execution) (outcome : TaskOutcome) (now : Int) (focusExposed : Bool) :
    LaneInvariant (q.settle execution outcome now focusExposed) := by
  have hFinished := (keepsLane_finishSftpTask execution outcome now focusExposed).laneInvariant h
  unfold TaskQueue.settle
  split
  · dsimp only
    split
    · next hSerial => exact hFinished.markSettled hSerial
    · next hConcurrent => exact hFinished.removeOther fun hMem => hConcurrent (mem_laneExecutions.mp hMem).2.1
  · exact h

theorem resume (execution : Execution) (now : Int) : LaneInvariant (q.resume execution now) := by
  unfold TaskQueue.resume
  split
  · next hEnded =>
    obtain ⟨hMem, hSettled⟩ := hEnded
    have hSerial := h.settled execution hMem hSettled
    obtain hGeneration | hOlder := eq_or_ne q.taskQueueGeneration execution.activeGeneration
    · have hIn : execution ∈ q.laneExecutions := mem_laneExecutions.mpr ⟨hMem, hSerial, hGeneration.symm⟩
      have hRunning : q.isSerialTaskQueueRunning = true := by
        rw [← Bool.not_eq_false]
        intro hIdle
        rw [(h.idle hIdle).1] at hIn
        exact List.not_mem_nil hIn
      have hFree : laneExecutions { q with executions := q.executions.filter (· ≠ execution) } = [] := by
        obtain ⟨only, hOnly⟩ := h.busy hRunning
        rw [hOnly, List.mem_singleton] at hIn
        rw [laneExecutions_filter, hOnly, hIn, List.filter_cons_of_neg (by simp), List.filter_nil]
      rw [← hGeneration]
      exact (h.removeExecutions fun other => decide (other ≠ execution)).runQueue now hFree hRunning
    · unfold TaskQueue.runQueue
      rw [if_neg hOlder]
      exact h.removeOther fun hIn => hOlder (mem_laneExecutions.mp hIn).2.2.symm
  · exact h

theorem nextGeneration (isTaskMenuOpen : Bool) : LaneInvariant { q with
    taskQueueGeneration := q.taskQueueGeneration + 1
    serialTaskQueue := []
    isSerialTaskQueueRunning := false
    isTaskMenuOpen := isTaskMenuOpen
    taskRetentionTimers := []
    sftpTasks := []
    firstId := q.nextId
    enqueued := []
    started := [] } where
  queued := fun _ hTask => absurd hTask List.not_mem_nil
  order := rfl
  settled := h.settled
  bounded := fun execution hMem => ⟨(h.bounded execution hMem).1, Nat.le_succ_of_le (h.bounded execution hMem).2⟩
  current := by
    intro execution hMem
    obtain ⟨hId, hGeneration⟩ := h.bounded execution hMem
    constructor
    · intro hFirst
      exact absurd hFirst (Nat.not_le.mpr hId)
    · intro hNext
      exact absurd hGeneration (Nat.not_le.mpr (hNext ▸ Nat.lt_succ_self _))
  first := Nat.le_refl _
  listed := fun _ hTask => absurd hTask List.not_mem_nil
  busy := nofun
  idle := by
    intro _
    refine ⟨List.filter_eq_nil_iff.mpr ?_, rfl⟩
    intro execution hMem hIn
    have hGeneration : execution.activeGeneration = q.taskQueueGeneration + 1 := (Execution.inLane_iff.mp hIn).2
    exact Nat.not_succ_le_self _ (hGeneration ▸ (h.bounded execution hMem).2)

end LaneInvariant

theorem keepsLane_settleReconnect (taskGeneration : Nat) (outcome : Except String String) (now : Int) (focusExposed : Bool) :
    KeepsLane q (q.settleReconnect taskId taskGeneration outcome now focusExposed) := by
  unfold settleReconnect
  split
  · have hDone : KeepsLane q { q with reconnects := q.reconnects.filter (· ≠ (taskId, taskGeneration)) } :=
      ⟨⟨_, _, _, _, _, _, rfl⟩, fun task hTask => ⟨task, hTask, rfl⟩⟩
    dsimp only
    split
    · cases outcome with
      | ok detail =>
        exact (hDone.trans (keepsLane_updateTask taskId (completeReconnect now detail) fun _ => rfl)).trans
          (keepsLane_scheduleTaskRetentionCleanup taskId)
      | error message =>
        have hFailed := hDone.trans
          (keepsLane_updateTask taskId (failReconnect now (q.resolveFailureAttention focusExposed) message) fun _ => rfl)
        dsimp only
        split
        · exact hFailed.trans (keepsLane_scheduleTaskRetentionCleanup taskId)
        · exact hFailed
    · exact hDone
  · exact KeepsLane.refl q

theorem LaneInvariant.step (h : LaneInvariant q) (event : TaskQueueEvent) : LaneInvariant (q.step event) := by
  cases event with
  | enqueue options now => exact h.enqueueSftpTask options now
  | settle execution outcome now focusExposed => exact h.settle execution outcome now focusExposed
  | resume execution now => exact h.resume execution now
  | update taskId taskGeneration patch =>
    show LaneInvariant (q.update taskId taskGeneration patch)
    rw [update]
    split
    · exact (keepsLane_updateTask taskId (applyPatch patch) fun _ => rfl).laneInvariant h
    · exact h
  | register_cancel taskId taskGeneration cancel =>
    show LaneInvariant (q.registerCancel taskId taskGeneration cancel)
    rw [registerCancel]
    split
    · exact (keepsLane_updateTask taskId (fun task => { task with cancel := some cancel }) fun _ => rfl).laneInvariant h
    · exact h
  | reconnect label detail now =>
    have hAdded : LaneInvariant (q.addTask (newReconnectTask q.nextId label detail now)) := h.addTask rfl
    exact KeepsLane.laneInvariant ⟨⟨_, _, _, _, _, _, rfl⟩, fun task hTask => ⟨task, hTask, rfl⟩⟩ hAdded
  | settle_reconnect taskId taskGeneration outcome now focusExposed =>
    exact (keepsLane_settleReconnect taskId taskGeneration outcome now focusExposed).laneInvariant h
  | expire taskId => exact (keepsLane_expire taskId).laneInvariant h
  | menu isOpen => exact (keepsLane_onTaskMenuOpenChange isOpen).laneInvariant h
  | focus => exact (keepsLane_exposeUnseenFailures .focus_exposed).laneInvariant h
  | commit => exact KeepsLane.laneInvariant ⟨⟨_, _, _, _, _, _, rfl⟩, fun task hTask => ⟨task, hTask, rfl⟩⟩ h
  | reset => exact h.nextGeneration false
  | unmount => exact h.nextGeneration q.isTaskMenuOpen

theorem laneInvariant_run (events : List TaskQueueEvent) : LaneInvariant (taskQueue.run newTaskQueue events) := by
  refine Machine.Reachable.invariant (P := LaneInvariant) ?_ (fun q event _ h => h.step event)
    (Machine.Reachable.run (.start rfl) events)
  rintro q rfl
  exact {
    queued := fun _ hMem => absurd hMem List.not_mem_nil
    order := rfl
    settled := fun _ hMem => absurd hMem List.not_mem_nil
    bounded := fun _ hMem => absurd hMem List.not_mem_nil
    current := fun _ hMem => absurd hMem List.not_mem_nil
    first := Nat.le_refl _
    listed := fun _ hMem => absurd hMem List.not_mem_nil
    busy := nofun
    idle := fun _ => ⟨rfl, rfl⟩ }

structure SameTasks (q next : TaskQueue) : Prop where
  sftpTasks : next.sftpTasks = q.sftpTasks
  serialTaskQueue : next.serialTaskQueue = q.serialTaskQueue
  isSerialTaskQueueRunning : next.isSerialTaskQueueRunning = q.isSerialTaskQueueRunning
  started : next.started = q.started

theorem updateTask_of_lt {taskId : TaskId} (hListed : ∀ task ∈ q.sftpTasks, q.firstId ≤ task.id) (hOlder : taskId < q.firstId)
    (change : SftpTaskState → SftpTaskState) : q.updateTask taskId change = q := by
  have hSame : q.sftpTasks.map (fun task => if task.id = taskId then change task else task) = q.sftpTasks := by
    have hIdentity : q.sftpTasks.map (fun task => if task.id = taskId then change task else task) = q.sftpTasks.map id := by
      apply List.map_congr_left
      intro task hTask
      have hOther : task.id ≠ taskId := fun hId => Nat.not_le.mpr hOlder (hId ▸ hListed task hTask)
      exact if_neg hOther
    rw [hIdentity, List.map_id]
  rw [updateTask, hSame]

end TaskQueue

def TaskQueueEvent.origin : TaskQueueEvent → Option TaskId
  | .settle execution .. => some execution.task.id
  | .resume execution .. => some execution.task.id
  | .update taskId .. => some taskId
  | .register_cancel taskId .. => some taskId
  | .settle_reconnect taskId .. => some taskId
  | .expire taskId => some taskId
  | _ => none

namespace TaskQueue

section

variable (h : LaneInvariant q)
include h

theorem LaneInvariant.sameTasks_settle (hOlder : execution.task.id < q.firstId) (outcome : TaskOutcome) (now : Int)
    (focusExposed : Bool) : SameTasks q (q.settle execution outcome now focusExposed) := by
  unfold TaskQueue.settle
  split
  · next hRunning =>
    have hGeneration : q.taskQueueGeneration ≠ execution.activeGeneration := fun hSame =>
      Nat.not_le.mpr hOlder ((h.current execution hRunning.1).mpr hSame.symm)
    have hFinished : q.finishSftpTask execution outcome now focusExposed = q := if_pos hGeneration
    rw [hFinished]
    dsimp only
    split
    · exact ⟨rfl, rfl, rfl, rfl⟩
    · exact ⟨rfl, rfl, rfl, rfl⟩
  · exact ⟨rfl, rfl, rfl, rfl⟩

theorem LaneInvariant.sameTasks_resume (hOlder : execution.task.id < q.firstId) (now : Int) :
    SameTasks q (q.resume execution now) := by
  unfold TaskQueue.resume
  split
  · next hEnded =>
    have hGeneration : q.taskQueueGeneration ≠ execution.activeGeneration := fun hSame =>
      Nat.not_le.mpr hOlder ((h.current execution hEnded.1).mpr hSame.symm)
    unfold TaskQueue.runQueue
    rw [if_neg hGeneration]
    exact ⟨rfl, rfl, rfl, rfl⟩
  · exact ⟨rfl, rfl, rfl, rfl⟩

theorem LaneInvariant.sameTasks_settleReconnect {taskId : TaskId} (hOlder : taskId < q.firstId) (taskGeneration : Nat)
    (outcome : Except String String) (now : Int) (focusExposed : Bool) :
    SameTasks q (q.settleReconnect taskId taskGeneration outcome now focusExposed) := by
  unfold settleReconnect
  split
  · dsimp only
    split
    · have hSame (change : SftpTaskState → SftpTaskState) :=
        updateTask_of_lt (q := { q with reconnects := q.reconnects.filter (· ≠ (taskId, taskGeneration)) }) h.listed hOlder change
      cases outcome with
      | ok detail =>
        dsimp only
        rw [hSame]
        exact ⟨rfl, rfl, rfl, rfl⟩
      | error message =>
        dsimp only
        rw [hSame]
        split
        · exact ⟨rfl, rfl, rfl, rfl⟩
        · exact ⟨rfl, rfl, rfl, rfl⟩
    · exact ⟨rfl, rfl, rfl, rfl⟩
  · exact ⟨rfl, rfl, rfl, rfl⟩

theorem LaneInvariant.sameTasks_expire {taskId : TaskId} (hOlder : taskId < q.firstId) :
    SameTasks q (q.expire taskId) := by
  have hKept : q.sftpTasks.filter (·.id ≠ taskId) = q.sftpTasks := by
    rw [List.filter_eq_self]
    intro task hTask
    exact decide_eq_true fun hId => Nat.not_le.mpr hOlder (hId ▸ h.listed task hTask)
  unfold expire
  split
  · exact ⟨hKept, rfl, rfl, rfl⟩
  · exact ⟨rfl, rfl, rfl, rfl⟩

theorem LaneInvariant.sameTasks_step {event : TaskQueueEvent} {taskId : TaskId} (hOrigin : event.origin = some taskId)
    (hOlder : taskId < q.firstId) : SameTasks q (q.step event) := by
  cases event with
  | settle execution outcome now focusExposed =>
    obtain rfl := Option.some.inj hOrigin
    exact h.sameTasks_settle hOlder outcome now focusExposed
  | resume execution now =>
    obtain rfl := Option.some.inj hOrigin
    exact h.sameTasks_resume hOlder now
  | update _ taskGeneration patch =>
    obtain rfl := Option.some.inj hOrigin
    show SameTasks q (q.update _ taskGeneration patch)
    rw [update, updateTask_of_lt h.listed hOlder, ite_self]
    exact ⟨rfl, rfl, rfl, rfl⟩
  | register_cancel _ taskGeneration cancel =>
    obtain rfl := Option.some.inj hOrigin
    show SameTasks q (q.registerCancel _ taskGeneration cancel)
    rw [registerCancel, updateTask_of_lt h.listed hOlder, ite_self]
    exact ⟨rfl, rfl, rfl, rfl⟩
  | settle_reconnect _ taskGeneration outcome now focusExposed =>
    obtain rfl := Option.some.inj hOrigin
    exact h.sameTasks_settleReconnect hOlder taskGeneration outcome now focusExposed
  | expire _ =>
    obtain rfl := Option.some.inj hOrigin
    exact h.sameTasks_expire hOlder
  | enqueue | reconnect | menu | focus | commit | reset | unmount => cases hOrigin

theorem LaneInvariant.handsOver (hWaiting : q.serialTaskQueue ≠ []) :
    ∃ execution nextTask rest, q.laneExecutions = [execution] ∧ q.serialTaskQueue = nextTask :: rest ∧
      (execution.settled = true → ∀ now,
        (q.resume execution now).started = q.started ++ [nextTask.id] ∧ (q.resume execution now).serialTaskQueue = rest) := by
  have hRunning : q.isSerialTaskQueueRunning = true := by
    rw [← Bool.not_eq_false]
    exact fun hIdle => hWaiting (h.idle hIdle).2
  obtain ⟨execution, hOnly⟩ := h.busy hRunning
  obtain ⟨nextTask, rest, hQueue⟩ := List.exists_cons_of_ne_nil hWaiting
  refine ⟨execution, nextTask, rest, hOnly, hQueue, ?_⟩
  intro hSettled now
  have hIn : execution ∈ q.laneExecutions := hOnly ▸ List.mem_singleton_self execution
  obtain ⟨hMem, _, hGeneration⟩ := mem_laneExecutions.mp hIn
  unfold TaskQueue.resume TaskQueue.runQueue
  rw [if_pos ⟨hMem, hSettled⟩, if_pos hGeneration.symm]
  dsimp only
  rw [hQueue]
  exact ⟨rfl, rfl⟩

end

/-- At every point of every run at most one serial task of the generation has the lane, serial tasks were started in the
order in which they were enqueued, none waits unless the lane is taken and will go on, and older tasks change nothing. -/
theorem serial_lane_takes_turns (events : List TaskQueueEvent) :
    ∃ q, q = taskQueue.run newTaskQueue events ∧
      q.laneExecutions.length ≤ 1 ∧
      q.enqueued = q.started ++ q.serialTaskQueue.map (·.id) ∧
      (q.serialTaskQueue ≠ [] → ∃ execution nextTask rest, q.laneExecutions = [execution] ∧ q.serialTaskQueue = nextTask :: rest ∧
        (execution.settled = true → ∀ now,
          (q.resume execution now).started = q.started ++ [nextTask.id] ∧ (q.resume execution now).serialTaskQueue = rest)) ∧
      (∀ execution ∈ q.executions, execution.task.id < q.firstId ↔ execution.activeGeneration < q.taskQueueGeneration) ∧
      ∀ event taskId, TaskQueueEvent.origin event = some taskId → taskId < q.firstId → SameTasks q (q.step event) := by
  have h := laneInvariant_run events
  refine ⟨_, rfl, ?_, h.order, h.handsOver, ?_, fun event taskId => h.sameTasks_step⟩
  · cases hRunning : (taskQueue.run newTaskQueue events).isSerialTaskQueueRunning with
    | true =>
      obtain ⟨execution, hOnly⟩ := h.busy hRunning
      exact Nat.le_of_eq (congrArg List.length hOnly)
    | false =>
      rw [(h.idle hRunning).1, List.length_nil]
      exact Nat.zero_le 1
  · intro execution hMem
    rw [← Nat.not_le, h.current execution hMem, Nat.lt_iff_le_and_ne]
    exact ⟨fun hOther => ⟨(h.bounded execution hMem).2, hOther⟩, fun hOlder => hOlder.2⟩

end TaskQueue

end SftpPage
