import Mathlib.Algebra.Order.Ring.Unbundled.Rat
import Cosmosh.Library.JsMap
import Cosmosh.Library.JsNumber
import Cosmosh.Library.Transition
import Cosmosh.Sftp.TaskClaims

/-! # The SFTP task scheduler of one session

Records live in a store and are referred to by the sequence number under which they were scheduled.
-/

namespace Sftp

open Library

inductive SftpTaskState
  | queued
  | running
  | succeeded
  | failed
  | cancelled
  deriving DecidableEq, Repr

inductive SftpTaskImpact
  | read
  | mutation
  | lifecycle
  deriving DecidableEq, Repr

inductive SftpTaskWorkload
  | light
  | heavy
  deriving DecidableEq, Repr

structure SftpTaskResources where
  impact : SftpTaskImpact
  workload : SftpTaskWorkload
  exclusive : Bool
  deriving DecidableEq, Repr

structure SftpTaskFailure where
  code : Text
  message : Text
  outcomeUnknown : Option Bool
  deriving DecidableEq

inductive SftpTaskRunOutcome (ρ : Type)
  | succeeded (result : ρ)
  | failed (failure : SftpTaskFailure) (result : Option ρ)
  | cancelled (result : Option ρ)

inductive SftpTaskAbortReason
  | cancelled
  | deadline
  deriving DecidableEq, Repr

/-- `mapFailure` is a caller's function that may itself throw. -/
structure SftpTaskSpec (ε : Type) where
  taskId : Option Text
  operation : Text
  resources : SftpTaskResources
  claims : List Text
  absoluteTimeoutMs : JsNumber
  cancellationSignal : Option Nat
  mapFailure : Option (ε → Except Unit SftpTaskFailure)
  onAbort : Bool

structure SftpTaskSnapshot (ρ π : Type) where
  taskId : Text
  sessionId : Text
  operation : Text
  state : SftpTaskState
  resources : SftpTaskResources
  claims : List Text
  createdAt : Rat
  deadlineAt : Rat
  startedAt : Option Rat
  finishedAt : Option Rat
  cancelRequested : Bool
  result : Option ρ
  partialResult : Option π
  failure : Option SftpTaskFailure

structure StoredTaskSpec (ε : Type) where
  operation : Text
  resources : SftpTaskResources
  absoluteTimeoutMs : Rat
  cancellationSignal : Option Nat
  mapFailure : Option (ε → Except Unit SftpTaskFailure)
  onAbort : Bool

/-- How far the promise chain made by `startRecord` has come. -/
inductive RunChain
  | unstarted
  | microtaskQueued
  | awaitingRunner
  | settled
  | finished
  deriving DecidableEq, Repr

structure StoredTaskRecord (ρ π ε : Type) where
  sequence : Nat
  spec : StoredTaskSpec ε
  snapshot : SftpTaskSnapshot ρ π
  controller : Option SftpTaskAbortReason
  deadlineTimer : Option Rat
  cancellationListener : Bool
  abortHookInvoked : Bool
  completionResolved : Bool
  releaseResolved : Bool
  chain : RunChain

inductive SftpTaskObservation (ρ π : Type)
  | submitted (sequence : Nat)
  | started (sequence : Nat)
  | runnerInvoked (sequence : Nat)
  | runnerSettled (sequence : Nat)
  | abortHook (sequence : Nat) (reason : SftpTaskAbortReason)
  | completion (sequence : Nat) (snapshot : SftpTaskSnapshot ρ π)
  | released (sequence : Nat)

structure SftpTaskSchedulerLimits where
  total : Nat
  heavy : Nat
  mutation : Nat
  total_pos : 0 < total
  heavy_pos : 0 < heavy
  mutation_pos : 0 < mutation
  heavy_le_total : heavy ≤ total
  mutation_le_total : mutation ≤ total

structure SftpTaskScheduler (ρ π ε : Type) where
  sessionId : Text
  limits : SftpTaskSchedulerLimits
  records : JsMap Text Nat
  queue : List Nat
  active : JsMap Text Nat
  idleWaiters : List Nat
  sequence : Nat
  isDispatching : Bool
  store : Nat → Option (StoredTaskRecord ρ π ε)
  now : Rat
  abortedSignals : List Nat
  issuedWaiters : Nat
  resolvedWaiters : List Nat
  observed : List (SftpTaskObservation ρ π)

def deadlineExceededCode : Text := "SFTP_TASK_DEADLINE_EXCEEDED".toList

def taskFailedCode : Text := "SFTP_OPERATION_FAILED".toList

def isTerminalState : SftpTaskState → Bool
  | .succeeded | .failed | .cancelled => true
  | .queued | .running => false

def copyFailure (failure : SftpTaskFailure) : SftpTaskFailure :=
  { failure with outcomeUnknown := if failure.outcomeUnknown = some true then some true else none }

def copySnapshot {ρ π : Type} (snapshot : SftpTaskSnapshot ρ π) : SftpTaskSnapshot ρ π :=
  { snapshot with failure := snapshot.failure.map copyFailure }

def validateLimits (total heavy mutation : JsNumber) : Except Text SftpTaskSchedulerLimits :=
  if hTotal : total.isInteger = true ∧ total.isNonPositive = false then
    if hHeavy : heavy.isInteger = true ∧ heavy.isNonPositive = false then
      if hMutation : mutation.isInteger = true ∧ mutation.isNonPositive = false then
        if hOrder : heavy.toNat ≤ total.toNat ∧ mutation.toNat ≤ total.toNat then
          .ok {
            total := total.toNat
            heavy := heavy.toNat
            mutation := mutation.toNat
            total_pos := JsNumber.toNat_pos hTotal.1 hTotal.2
            heavy_pos := JsNumber.toNat_pos hHeavy.1 hHeavy.2
            mutation_pos := JsNumber.toNat_pos hMutation.1 hMutation.2
            heavy_le_total := hOrder.1
            mutation_le_total := hOrder.2 }
        else .error "SFTP task scheduler specialized limits cannot exceed the total limit.".toList
      else .error "SFTP task scheduler mutation limit must be a positive integer.".toList
    else .error "SFTP task scheduler heavy limit must be a positive integer.".toList
  else .error "SFTP task scheduler total limit must be a positive integer.".toList

def validateTaskSpec {ε : Type} (spec : SftpTaskSpec ε) : Except Text Unit :=
  if JsText.trim spec.operation = [] then .error "SFTP task operation must not be empty.".toList
  else if !spec.absoluteTimeoutMs.isFinite || spec.absoluteTimeoutMs.isNonPositive then
    .error "SFTP task absolute timeout must be a positive finite number.".toList
  else .ok ()

/-- `limits` overrides 3 total, 2 heavy and 1 mutation slot. -/
structure SftpTaskSchedulerOptions where
  sessionId : Text
  total : Option JsNumber
  heavy : Option JsNumber
  mutation : Option JsNumber
  now : Rat

namespace SftpTaskScheduler

variable {ρ π ε : Type}

def construct (options : SftpTaskSchedulerOptions) : Except Text (SftpTaskScheduler ρ π ε) :=
  if JsText.trim options.sessionId = [] then
    .error "SFTP task scheduler session id must not be empty.".toList
  else
    match validateLimits (options.total.getD (.finite 3)) (options.heavy.getD (.finite 2))
        (options.mutation.getD (.finite 1)) with
    | .error message => .error message
    | .ok limits => .ok {
        sessionId := options.sessionId
        limits
        records := JsMap.empty
        queue := []
        active := JsMap.empty
        idleWaiters := []
        sequence := 0
        isDispatching := false
        store := fun _ => none
        now := options.now
        abortedSignals := []
        issuedWaiters := 0
        resolvedWaiters := []
        observed := [] }

variable (s : SftpTaskScheduler ρ π ε)

def put (n : Nat) (record : StoredTaskRecord ρ π ε) : SftpTaskScheduler ρ π ε :=
  { s with store := fun m => if m = n then some record else s.store m }

def observe (entry : SftpTaskObservation ρ π) : SftpTaskScheduler ρ π ε := { s with observed := s.observed ++ [entry] }

def resourcesOf (n : Nat) : SftpTaskResources :=
  match s.store n with
  | some record => record.spec.resources
  | none => ⟨.read, .light, false⟩

def claimsOf (n : Nat) : List Text :=
  match s.store n with
  | some record => record.snapshot.claims
  | none => []

def hasCapacityFor (candidate : Nat) : Bool :=
  if s.active.values.any fun n => (s.resourcesOf n).exclusive then false
  else if s.active.size ≥ s.limits.total then false
  else
    let heavyCount := (s.active.values.filter fun n => (s.resourcesOf n).workload = .heavy).length
    if (s.resourcesOf candidate).workload = .heavy ∧ heavyCount ≥ s.limits.heavy then false
    else
      let mutationCount := (s.active.values.filter fun n => (s.resourcesOf n).impact = .mutation).length
      (s.resourcesOf candidate).impact ≠ .mutation ∨ mutationCount < s.limits.mutation

def conflictsWithActive (candidate : Nat) : Bool := s.active.values.any fun n => doClaimSetsConflict (s.claimsOf candidate) (s.claimsOf n)

def conflictsWithOlderQueuedClaim (candidate candidateIndex : Nat) : Bool :=
  (s.queue.take candidateIndex).any fun older =>
    doClaimSetsConflict (s.claimsOf candidate) (s.claimsOf older)

/-- The loop of `findNextRunnableIndex` from `index` on. -/
def scanQueue (index : Nat) : List Nat → Option Nat
  | [] => none
  | record :: rest =>
    if (s.resourcesOf record).exclusive then
      if index = 0 ∧ s.active.size = 0 then some index else none
    else if !s.hasCapacityFor record || s.conflictsWithActive record then scanQueue (index + 1) rest
    else if s.conflictsWithOlderQueuedClaim record index then scanQueue (index + 1) rest
    else some index

/-- `none` stands for -1. -/
def findNextRunnableIndex : Option Nat :=
  let scanLength :=
    match s.queue.findIdx? fun n => (s.resourcesOf n).exclusive with
    | none => s.queue.length
    | some exclusiveIndex => exclusiveIndex + 1
  s.scanQueue 0 (s.queue.take scanLength)

def startRecord (n : Nat) : SftpTaskScheduler ρ π ε :=
  match s.store n with
  | none => s
  | some record =>
    let started := { record with
      snapshot := { record.snapshot with state := .running, startedAt := some s.now }
      chain := .microtaskQueued }
    { (s.put n started).observe (.started n) with active := s.active.set record.snapshot.taskId n }

def resolveIdleWaiters : SftpTaskScheduler ρ π ε :=
  if s.queue.length > 0 ∨ s.active.size > 0 then s
  else { s with idleWaiters := [], resolvedWaiters := s.resolvedWaiters ++ s.idleWaiters }

/-- The `while` loop of `dispatch`; every turn takes one record out of the queue. -/
def dispatchLoop : Nat → SftpTaskScheduler ρ π ε → SftpTaskScheduler ρ π ε
  | 0, s => s
  | fuel + 1, s =>
    match s.findNextRunnableIndex with
    | none => s
    | some nextIndex =>
      match s.queue[nextIndex]? with
      | none => s
      | some record => dispatchLoop fuel ({ s with queue := s.queue.eraseIdx nextIndex }.startRecord record)

def dispatch : SftpTaskScheduler ρ π ε :=
  if s.isDispatching then s
  else
    let s := dispatchLoop s.queue.length { s with isDispatching := true }
    { s with isDispatching := false }.resolveIdleWaiters

inductive TerminalPatch (ρ : Type)
  | succeeded (result : ρ)
  | failed (failure : SftpTaskFailure) (result : Option ρ)
  | cancelled (result : Option ρ)

def TerminalPatch.apply (patch : TerminalPatch ρ) (snapshot : SftpTaskSnapshot ρ π) (now : Rat) :
    SftpTaskSnapshot ρ π :=
  match patch with
  | .succeeded result =>
    { snapshot with state := .succeeded, result := some result, finishedAt := some now }
  | .failed failure result =>
    { snapshot with
      state := .failed
      failure := some failure
      result := result <|> snapshot.result
      finishedAt := some now }
  | .cancelled result =>
    { snapshot with
      state := .cancelled
      cancelRequested := true
      result := result <|> snapshot.result
      finishedAt := some now }

def resolveReleased (n : Nat) : SftpTaskScheduler ρ π ε :=
  match s.store n with
  | none => s
  | some record =>
    if record.releaseResolved then s
    else (s.put n { record with releaseResolved := true }).observe (.released n)

def cleanupLifecycle (record : StoredTaskRecord ρ π ε) : StoredTaskRecord ρ π ε :=
  { record with
    deadlineTimer := none
    cancellationListener := if record.spec.cancellationSignal.isSome then false else record.cancellationListener }

def clearExecutionReferences (record : StoredTaskRecord ρ π ε) : StoredTaskRecord ρ π ε :=
  { record with
    spec := { record.spec with cancellationSignal := none, mapFailure := none, onAbort := false } }

def resolveCompletion (n : Nat) (record : StoredTaskRecord ρ π ε) : SftpTaskScheduler ρ π ε :=
  if record.completionResolved then s.put n (clearExecutionReferences record)
  else
    (s.put n (clearExecutionReferences { record with completionResolved := true })).observe
      (.completion n (copySnapshot record.snapshot))

def finishRecord (n : Nat) (patch : TerminalPatch ρ) : SftpTaskScheduler ρ π ε :=
  match s.store n with
  | none => s
  | some record =>
    if isTerminalState record.snapshot.state then s
    else
      let record := cleanupLifecycle record
      let record := { record with snapshot := patch.apply record.snapshot s.now }
      let s := s.resolveCompletion n record
      if s.active.has record.snapshot.taskId then s else s.resolveReleased n

def removeQueuedRecord (n : Nat) : SftpTaskScheduler ρ π ε := { s with queue := s.queue.erase n }

def invokeAbortHook (n : Nat) (record : StoredTaskRecord ρ π ε) (reason : SftpTaskAbortReason) :
    SftpTaskScheduler ρ π ε :=
  if record.abortHookInvoked || !record.spec.onAbort then s.put n record
  else (s.put n { record with abortHookInvoked := true }).observe (.abortHook n reason)

/-- `controller.abort(..)` followed by the task's own abort hook. -/
def abortRunning (n : Nat) (record : StoredTaskRecord ρ π ε) (reason : SftpTaskAbortReason) :
    SftpTaskScheduler ρ π ε := s.invokeAbortHook n { record with controller := record.controller <|> some reason } reason

def deadlineFailure (outcomeUnknown : Bool) : SftpTaskFailure where
  code := deadlineExceededCode
  message := "The SFTP task did not complete before its absolute deadline.".toList
  outcomeUnknown := if outcomeUnknown then some true else none

def cancelledFailure : SftpTaskFailure where
  code := taskFailedCode
  message := "The SFTP task was cancelled after remote work started.".toList
  outcomeUnknown := some true

def unexpectedFailure : SftpTaskFailure where
  code := taskFailedCode
  message := "The SFTP task failed.".toList
  outcomeUnknown := none

def handleDeadline (n : Nat) : SftpTaskScheduler ρ π ε :=
  match s.store n with
  | none => s
  | some record =>
    if isTerminalState record.snapshot.state then s
    else if record.snapshot.state = .running then
      let unknown : Bool := record.spec.resources.impact = .mutation
      let s := s.abortRunning n record .deadline
      (s.finishRecord n (.failed (deadlineFailure unknown) none)).resolveIdleWaiters
    else
      let s := s.removeQueuedRecord n
      (s.finishRecord n (.failed (deadlineFailure false) none)).dispatch.resolveIdleWaiters

def cancelRecord (n : Nat) : SftpTaskScheduler ρ π ε :=
  match s.store n with
  | none => s
  | some record =>
    if isTerminalState record.snapshot.state then s
    else if record.snapshot.state = .running then
      let s := s.abortRunning n record .cancelled
      if record.spec.resources.impact = .mutation then s.finishRecord n (.failed cancelledFailure none)
      else s.finishRecord n (.cancelled none)
    else (s.removeQueuedRecord n).finishRecord n (.cancelled none)

def applyRunOutcome (n : Nat) (outcome : SftpTaskRunOutcome ρ) : SftpTaskScheduler ρ π ε :=
  match s.store n with
  | none => s
  | some record =>
    if record.snapshot.state ≠ .running then s
    else
      match outcome with
      | .succeeded result => s.finishRecord n (.succeeded result)
      | .failed failure result => s.finishRecord n (.failed (copyFailure failure) result)
      | .cancelled result => s.finishRecord n (.cancelled result)

def applyUnexpectedFailure (n : Nat) (error : ε) : SftpTaskScheduler ρ π ε :=
  match s.store n with
  | none => s
  | some record =>
    if record.snapshot.state ≠ .running then s
    else
      let failure :=
        match record.spec.mapFailure with
        | none => unexpectedFailure
        | some mapFailure =>
          match mapFailure error with
          | .ok failure => failure
          | .error _ => unexpectedFailure
      s.finishRecord n (.failed (copyFailure failure) none)

def releaseRecord (n : Nat) : SftpTaskScheduler ρ π ε :=
  match s.store n with
  | none => s
  | some record =>
    if s.active.get? record.snapshot.taskId ≠ some n then s
    else
      let s := { s with active := s.active.delete record.snapshot.taskId }
      ((s.resolveReleased n).dispatch).resolveIdleWaiters

def newRecord (collation : Collation) (spec : SftpTaskSpec ε) (taskId : Text) : StoredTaskRecord ρ π ε where
  sequence := s.sequence
  spec := {
    operation := spec.operation
    resources := spec.resources
    absoluteTimeoutMs := spec.absoluteTimeoutMs.toRat
    cancellationSignal := spec.cancellationSignal
    mapFailure := spec.mapFailure
    onAbort := spec.onAbort }
  snapshot := {
    taskId
    sessionId := s.sessionId
    operation := spec.operation
    state := .queued
    resources := spec.resources
    claims := normalizeSftpTaskClaims collation spec.claims
    createdAt := s.now
    deadlineAt := s.now + spec.absoluteTimeoutMs.toRat
    startedAt := none
    finishedAt := none
    cancelRequested := false
    result := none
    partialResult := none
    failure := none }
  controller := none
  deadlineTimer := none
  cancellationListener := false
  abortHookInvoked := false
  completionResolved := false
  releaseResolved := false
  chain := .unstarted

def armDeadline (record : StoredTaskRecord ρ π ε) (now : Rat) : StoredTaskRecord ρ π ε :=
  { record with deadlineTimer := some (max 0 (record.snapshot.deadlineAt - now)) }

def observeCancellation (record : StoredTaskRecord ρ π ε) : StoredTaskRecord ρ π ε :=
  { record with cancellationListener := record.spec.cancellationSignal.isSome }

def enqueue (record : StoredTaskRecord ρ π ε) : SftpTaskScheduler ρ π ε :=
  { (s.put s.sequence (observeCancellation (armDeadline record s.now))).observe (.submitted s.sequence) with
    sequence := s.sequence + 1
    records := s.records.set record.snapshot.taskId s.sequence
    queue := s.queue ++ [s.sequence] }

def schedule (collation : Collation) (spec : SftpTaskSpec ε) (generatedId : Text) :
    Except Text (SftpTaskScheduler ρ π ε) :=
  match validateTaskSpec spec with
  | .error message => .error message
  | .ok () =>
    let taskId := spec.taskId.getD generatedId
    if s.records.has taskId then
      .error ("SFTP task id is already registered: ".toList ++ taskId)
    else
      let n := s.sequence
      let s := s.enqueue (s.newRecord collation spec taskId)
      let s := if spec.cancellationSignal.any (· ∈ s.abortedSignals) then s.cancelRecord n else s
      .ok s.dispatch

def getTask (taskId : Text) : Option (SftpTaskSnapshot ρ π) :=
  ((s.records.get? taskId).bind s.store).map fun record => copySnapshot record.snapshot

def forgetTask (taskId : Text) : Bool × SftpTaskScheduler ρ π ε :=
  match (s.records.get? taskId).bind s.store with
  | none => (false, s)
  | some record =>
    if !isTerminalState record.snapshot.state || s.active.has taskId then (false, s)
    else (true, { s with records := s.records.delete taskId })

def cancelAll : SftpTaskScheduler ρ π ε :=
  let s := s.queue.foldl cancelRecord s
  let s := s.active.values.foldl cancelRecord s
  s.dispatch.resolveIdleWaiters

def waitForIdle : SftpTaskScheduler ρ π ε :=
  let s' := { s with issuedWaiters := s.issuedWaiters + 1 }
  if s.queue.length = 0 ∧ s.active.size = 0 then
    { s' with resolvedWaiters := s.resolvedWaiters ++ [s.issuedWaiters] }
  else { s' with idleWaiters := s.idleWaiters ++ [s.issuedWaiters] }

/-- The body handed to `then`: the runner is called unless the task has already ended. -/
def startMicrotask (n : Nat) : SftpTaskScheduler ρ π ε :=
  match s.store n with
  | none => s
  | some record =>
    if record.chain ≠ .microtaskQueued then s
    else if record.snapshot.state ≠ .running then
      (s.put n { record with chain := .settled }).observe (.runnerSettled n)
    else (s.put n { record with chain := .awaitingRunner }).observe (.runnerInvoked n)

def markSettled (n : Nat) : SftpTaskScheduler ρ π ε :=
  match s.store n with
  | none => s
  | some record => (s.put n { record with chain := .settled }).observe (.runnerSettled n)

def settleRunner (n : Nat) (result : Except ε (SftpTaskRunOutcome ρ)) : SftpTaskScheduler ρ π ε :=
  match s.store n with
  | none => s
  | some record =>
    if record.chain ≠ .awaitingRunner then s
    else
      match result with
      | .ok outcome => (s.applyRunOutcome n outcome).markSettled n
      | .error error => (s.applyUnexpectedFailure n error).markSettled n

def finishChain (n : Nat) : SftpTaskScheduler ρ π ε :=
  match s.store n with
  | none => s
  | some record =>
    if record.chain ≠ .settled then s
    else (s.put n { record with chain := .finished }).releaseRecord n

def reportPartial (n : Nat) (value : π) : SftpTaskScheduler ρ π ε :=
  match s.store n with
  | none => s
  | some record =>
    if record.chain ∈ [.unstarted, .microtaskQueued] ∨ record.snapshot.state ≠ .running then s
    else s.put n { record with snapshot := { record.snapshot with partialResult := some value } }

def fireDeadline (n : Nat) : SftpTaskScheduler ρ π ε :=
  match s.store n with
  | none => s
  | some record => if record.deadlineTimer.isSome then s.handleDeadline n else s

/-- The `abort` listener of one record, when it is still registered. -/
def cancellationListener (signal : Nat) (n : Nat) : SftpTaskScheduler ρ π ε :=
  match s.store n with
  | none => s
  | some record =>
    if record.cancellationListener = true ∧ record.spec.cancellationSignal = some signal then
      ((s.cancelRecord n).dispatch).resolveIdleWaiters
    else s

def abortSignal (signal : Nat) : SftpTaskScheduler ρ π ε :=
  if signal ∈ s.abortedSignals then s
  else
    (List.range s.sequence).foldl (fun s n => s.cancellationListener signal n)
      { s with abortedSignals := signal :: s.abortedSignals }

end SftpTaskScheduler

inductive SftpTaskEvent (ρ π ε : Type)
  | schedule (spec : SftpTaskSpec ε) (generatedId : Text)
  | cancelAll
  | forgetTask (taskId : Text)
  | waitForIdle
  | abortSignal (signal : Nat)
  | fireDeadline (sequence : Nat)
  | startMicrotask (sequence : Nat)
  | settleRunner (sequence : Nat) (result : Except ε (SftpTaskRunOutcome ρ))
  | finishChain (sequence : Nat)
  | reportPartial (sequence : Nat) (value : π)
  | clock (now : Rat)

namespace SftpTaskScheduler

variable {ρ π ε : Type}

def step (collation : Collation) (s : SftpTaskScheduler ρ π ε) :
    SftpTaskEvent ρ π ε → SftpTaskScheduler ρ π ε
  | .schedule spec generatedId =>
    match s.schedule collation spec generatedId with
    | .ok s' => s'
    | .error _ => s
  | .cancelAll => s.cancelAll
  | .forgetTask taskId => (s.forgetTask taskId).2
  | .waitForIdle => s.waitForIdle
  | .abortSignal signal => s.abortSignal signal
  | .fireDeadline n => s.fireDeadline n
  | .startMicrotask n => s.startMicrotask n
  | .settleRunner n result => s.settleRunner n result
  | .finishChain n => s.finishChain n
  | .reportPartial n value => s.reportPartial n value
  | .clock now => { s with now }

def machine (ρ π ε : Type) (collation : Collation) :
    Transition.Machine (SftpTaskScheduler ρ π ε) (SftpTaskEvent ρ π ε) where
  initial s := ∃ options, construct options = .ok s
  step := step collation

end SftpTaskScheduler

end Sftp
