import Mathlib.Data.List.Basic
import Cosmosh.Library.Transition

/-! # The task queue of an SFTP tab

Concurrent tasks run at once.
-/

namespace SftpPage

abbrev TaskId := Nat

inductive SftpTaskStatus
  | queued
  | running
  | waiting
  | success
  | failed
  | cancelled
  deriving DecidableEq

inductive SftpTaskAttention
  | unseen
  | viewed
  | focus_exposed
  deriving DecidableEq

inductive ExecutionLane
  | concurrent
  | serial
  deriving DecidableEq

inductive ProgressUnit
  | count
  | bytes
  deriving DecidableEq

structure SftpTaskProgress where
  completed : Rat
  total : Rat
  unit : Option ProgressUnit
  bytesPerSecond : Option Rat
  deriving DecidableEq

/-- A registered `cancel` is told apart by a number. -/
structure SftpTaskState where
  id : TaskId
  label : String
  detail : String
  status : SftpTaskStatus
  createdAt : Int
  startedAt : Option Int
  finishedAt : Option Int
  progress : Option SftpTaskProgress
  errorMessage : Option String
  attention : Option SftpTaskAttention
  cancel : Option Nat
  cancelRequested : Option Bool
  deriving DecidableEq

structure SftpTaskOptions where
  label : String
  detail : String
  progress : Option SftpTaskProgress
  executionLane : ExecutionLane
  deriving DecidableEq

structure SftpTaskPatch where
  detail : Option String
  progress : Option SftpTaskProgress
  errorMessage : Option String
  status : Option SftpTaskStatus
  cancelRequested : Option Bool
  deriving DecidableEq

structure SftpQueuedTask where
  id : TaskId
  label : String
  executionLane : ExecutionLane
  deriving DecidableEq

structure Execution where
  task : SftpQueuedTask
  activeGeneration : Nat
  settled : Bool
  deriving DecidableEq

inductive TaskOutcome
  | success
  | cancelled
  | failed (message : String)
  deriving DecidableEq

/-- The references and the state of the hook. `nextId` is above every id given out, `firstId` above those
of older generations; `enqueued` and `started` are the serial tasks of this generation in order. -/
structure TaskQueue where
  sftpTasks : List SftpTaskState
  sftpTasksRef : List SftpTaskState
  serialTaskQueue : List SftpQueuedTask
  isSerialTaskQueueRunning : Bool
  isTaskMenuOpen : Bool
  taskQueueGeneration : Nat
  taskRetentionTimers : List TaskId
  executions : List Execution
  reconnects : List (TaskId × Nat)
  notices : List (String × String)
  nextId : TaskId
  firstId : TaskId
  enqueued : List TaskId
  started : List TaskId

def newTaskQueue : TaskQueue := ⟨[], [], [], false, false, 0, [], [], [], [], 0, 0, [], []⟩

namespace TaskQueue

variable (q : TaskQueue)

def updateTask (taskId : TaskId) (change : SftpTaskState → SftpTaskState) : TaskQueue :=
  { q with sftpTasks := q.sftpTasks.map fun task => if task.id = taskId then change task else task }

def scheduleTaskRetentionCleanup (taskId : TaskId) : TaskQueue :=
  { q with taskRetentionTimers := taskId :: q.taskRetentionTimers.filter (· ≠ taskId) }

def resolveFailureAttention (focusExposed : Bool) : SftpTaskAttention :=
  if q.isTaskMenuOpen then .viewed else if focusExposed then .focus_exposed else .unseen

def startTask (now : Int) (task : SftpTaskState) : SftpTaskState := { task with status := .running, startedAt := some now }

/-- `executeSftpTask` up to the end of its operation. -/
def executeSftpTask (task : SftpQueuedTask) (activeGeneration : Nat) (now : Int) : TaskQueue :=
  { q.updateTask task.id (startTask now) with executions := q.executions ++ [⟨task, activeGeneration, false⟩] }

def succeedTask (now : Int) (task : SftpTaskState) : SftpTaskState := { task with status := .success, finishedAt := some now, cancel := none }

def failTask (now : Int) (status : SftpTaskStatus) (attention : Option SftpTaskAttention) (errorMessage : Option String)
    (task : SftpTaskState) : SftpTaskState :=
  { task with status := status, attention := attention, errorMessage := errorMessage, finishedAt := some now, cancel := none }

/-- The rest of `executeSftpTask`. -/
def finishSftpTask (execution : Execution) (outcome : TaskOutcome) (now : Int) (focusExposed : Bool) : TaskQueue :=
  if q.taskQueueGeneration ≠ execution.activeGeneration then q
  else
    match outcome with
    | .success => (q.updateTask execution.task.id (succeedTask now)).scheduleTaskRetentionCleanup execution.task.id
    | .cancelled => (q.updateTask execution.task.id (failTask now .cancelled none none)).scheduleTaskRetentionCleanup execution.task.id
    | .failed message =>
      let attention := q.resolveFailureAttention focusExposed
      let failed := q.updateTask execution.task.id (failTask now .failed (some attention) (some message))
      let noticed := { failed with notices := failed.notices ++ [(execution.task.label, message)] }
      if attention ≠ .unseen then noticed.scheduleTaskRetentionCleanup execution.task.id else noticed

def runQueue (activeGeneration : Nat) (now : Int) : TaskQueue :=
  if q.taskQueueGeneration = activeGeneration then
    match q.serialTaskQueue with
    | [] => { q with isSerialTaskQueueRunning := false }
    | nextTask :: rest =>
      { q with serialTaskQueue := rest, started := q.started ++ [nextTask.id] }.executeSftpTask nextTask activeGeneration now
  else q

def flushSerialSftpTaskQueue (now : Int) : TaskQueue :=
  if q.isSerialTaskQueueRunning = true ∨ q.serialTaskQueue = [] then q
  else { q with isSerialTaskQueueRunning := true }.runQueue q.taskQueueGeneration now

def newTask (taskId : TaskId) (options : SftpTaskOptions) (now : Int) : SftpTaskState where
  id := taskId
  label := options.label
  detail := options.detail
  status := if options.executionLane = .serial then .queued else .running
  createdAt := now
  startedAt := none
  finishedAt := none
  progress := options.progress
  errorMessage := none
  attention := none
  cancel := none
  cancelRequested := none

def addTask (task : SftpTaskState) : TaskQueue :=
  { q with
    nextId := q.nextId + 1
    taskRetentionTimers := q.taskRetentionTimers.filter (· ≠ q.nextId)
    sftpTasks := q.sftpTasks ++ [task] }

def enqueueSftpTask (options : SftpTaskOptions) (now : Int) : TaskQueue :=
  let queuedTask : SftpQueuedTask := ⟨q.nextId, options.label, options.executionLane⟩
  let added := q.addTask (newTask q.nextId options now)
  if options.executionLane = .serial then
    { added with
      serialTaskQueue := added.serialTaskQueue ++ [queuedTask]
      enqueued := added.enqueued ++ [queuedTask.id] }.flushSerialSftpTaskQueue now
  else added.executeSftpTask queuedTask q.taskQueueGeneration now

def settle (execution : Execution) (outcome : TaskOutcome) (now : Int) (focusExposed : Bool) : TaskQueue :=
  if execution ∈ q.executions ∧ execution.settled = false then
    let finished := q.finishSftpTask execution outcome now focusExposed
    if execution.task.executionLane = .serial then
      { finished with executions := finished.executions.map fun other => if other = execution then { other with settled := true } else other }
    else { finished with executions := finished.executions.filter (· ≠ execution) }
  else q

def resume (execution : Execution) (now : Int) : TaskQueue :=
  if execution ∈ q.executions ∧ execution.settled = true then
    { q with executions := q.executions.filter (· ≠ execution) }.runQueue execution.activeGeneration now
  else q

def applyPatch (patch : SftpTaskPatch) (task : SftpTaskState) : SftpTaskState :=
  { task with
    detail := patch.detail.getD task.detail
    progress := patch.progress.or task.progress
    errorMessage := patch.errorMessage.or task.errorMessage
    status := patch.status.getD task.status
    cancelRequested := patch.cancelRequested.or task.cancelRequested }

/-- `update` of the context a task was given. -/
def update (taskId : TaskId) (taskGeneration : Nat) (patch : SftpTaskPatch) : TaskQueue :=
  if q.taskQueueGeneration = taskGeneration then q.updateTask taskId (applyPatch patch) else q

def registerCancel (taskId : TaskId) (taskGeneration : Nat) (cancel : Nat) : TaskQueue :=
  if q.taskQueueGeneration = taskGeneration then q.updateTask taskId fun task => { task with cancel := some cancel } else q

def newReconnectTask (taskId : TaskId) (label detail : String) (now : Int) : SftpTaskState where
  id := taskId
  label := label
  detail := detail
  status := .running
  createdAt := now
  startedAt := some now
  finishedAt := none
  progress := some ⟨0, 1, none, none⟩
  errorMessage := none
  attention := none
  cancel := none
  cancelRequested := none

def runSftpReconnectTask (label detail : String) (now : Int) : TaskQueue :=
  { q.addTask (newReconnectTask q.nextId label detail now) with reconnects := q.reconnects ++ [(q.nextId, q.taskQueueGeneration)] }

def completeReconnect (now : Int) (detail : String) (task : SftpTaskState) : SftpTaskState :=
  { task with detail := detail, status := .success, finishedAt := some now, progress := some ⟨1, 1, none, none⟩ }

def failReconnect (now : Int) (attention : SftpTaskAttention) (message : String) (task : SftpTaskState) : SftpTaskState :=
  { task with
    attention := some attention, detail := message, errorMessage := some message, status := .failed, finishedAt := some now }

def settleReconnect (taskId : TaskId) (taskGeneration : Nat) (outcome : Except String String) (now : Int) (focusExposed : Bool) : TaskQueue :=
  if (taskId, taskGeneration) ∈ q.reconnects then
    let done := { q with reconnects := q.reconnects.filter (· ≠ (taskId, taskGeneration)) }
    if q.taskQueueGeneration = taskGeneration then
      match outcome with
      | .ok detail =>
        (done.updateTask taskId (completeReconnect now detail)).scheduleTaskRetentionCleanup taskId
      | .error message =>
        let attention := q.resolveFailureAttention focusExposed
        let failed := done.updateTask taskId (failReconnect now attention message)
        if attention ≠ .unseen then failed.scheduleTaskRetentionCleanup taskId else failed
    else done
  else q

def expire (taskId : TaskId) : TaskQueue :=
  if taskId ∈ q.taskRetentionTimers then
    { q with
      taskRetentionTimers := q.taskRetentionTimers.filter (· ≠ taskId)
      sftpTasks := q.sftpTasks.filter (·.id ≠ taskId) }
  else q

def exposeUnseenFailures (attention : SftpTaskAttention) : TaskQueue :=
  let taskIds := (q.sftpTasksRef.filter fun task => task.status = .failed && task.attention = some .unseen).map (·.id)
  let exposed := { q with
    sftpTasks := q.sftpTasks.map fun task => if task.id ∈ taskIds then { task with attention := some attention } else task }
  taskIds.foldl scheduleTaskRetentionCleanup exposed

def onTaskMenuOpenChange (isOpen : Bool) : TaskQueue :=
  let next := { q with isTaskMenuOpen := isOpen }
  if isOpen then next.exposeUnseenFailures .viewed else next

def resetTaskQueue : TaskQueue :=
  { q with
    taskQueueGeneration := q.taskQueueGeneration + 1
    serialTaskQueue := []
    isSerialTaskQueueRunning := false
    isTaskMenuOpen := false
    taskRetentionTimers := []
    sftpTasks := []
    firstId := q.nextId
    enqueued := []
    started := [] }

def unmount : TaskQueue :=
  { q with
    taskQueueGeneration := q.taskQueueGeneration + 1
    serialTaskQueue := []
    isSerialTaskQueueRunning := false
    taskRetentionTimers := []
    sftpTasks := []
    firstId := q.nextId
    enqueued := []
    started := [] }

end TaskQueue

inductive TaskQueueEvent
  | enqueue (options : SftpTaskOptions) (now : Int)
  | settle (execution : Execution) (outcome : TaskOutcome) (now : Int) (focusExposed : Bool)
  | resume (execution : Execution) (now : Int)
  | update (taskId : TaskId) (taskGeneration : Nat) (patch : SftpTaskPatch)
  | register_cancel (taskId : TaskId) (taskGeneration : Nat) (cancel : Nat)
  | reconnect (label detail : String) (now : Int)
  | settle_reconnect (taskId : TaskId) (taskGeneration : Nat) (outcome : Except String String) (now : Int) (focusExposed : Bool)
  | expire (taskId : TaskId)
  | menu (isOpen : Bool)
  | focus
  | commit
  | reset
  | unmount

def TaskQueue.step (q : TaskQueue) : TaskQueueEvent → TaskQueue
  | .enqueue options now => q.enqueueSftpTask options now
  | .settle execution outcome now focusExposed => q.settle execution outcome now focusExposed
  | .resume execution now => q.resume execution now
  | .update taskId taskGeneration patch => q.update taskId taskGeneration patch
  | .register_cancel taskId taskGeneration cancel => q.registerCancel taskId taskGeneration cancel
  | .reconnect label detail now => q.runSftpReconnectTask label detail now
  | .settle_reconnect taskId taskGeneration outcome now focusExposed => q.settleReconnect taskId taskGeneration outcome now focusExposed
  | .expire taskId => q.expire taskId
  | .menu isOpen => q.onTaskMenuOpenChange isOpen
  | .focus => q.exposeUnseenFailures .focus_exposed
  | .commit => { q with sftpTasksRef := q.sftpTasks }
  | .reset => q.resetTaskQueue
  | .unmount => q.unmount

def taskQueue : Library.Transition.Machine TaskQueue TaskQueueEvent where
  initial := fun q => q = newTaskQueue
  step := TaskQueue.step

end SftpPage
