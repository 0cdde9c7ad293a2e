import Cosmosh.Sftp.TaskRequests

/-! # The public task records of one session

Every asynchronous task leaves a record that clients can ask for.
-/

namespace Sftp

open Library

def SFTP_TASK_RECORD_LIMIT_PER_SESSION : Nat := 512

/-- `handle` is the number under which the scheduler knows the task. -/
structure SftpPublicTaskRecord where
  operation : Text
  remotePaths : List Text
  handle : Nat
  released : Bool
  transferId : Option Text
  retentionTimer : Bool
  deriving DecidableEq

inductive SessionEntry
  | live
  | closed
  | absent
  deriving DecidableEq

structure PublicTaskSession (ρ π ε : Type) where
  entry : SessionEntry
  scheduler : SftpTaskScheduler ρ π ε
  publicTaskRecords : Option (JsMap Text SftpPublicTaskRecord)

inductive StartSftpTaskResult (ρ π : Type)
  | notFound
  | taskQueueFull (limit : Nat)
  | failed (message : Text)
  | success (record : SftpPublicTaskRecord) (snapshot : SftpTaskSnapshot ρ π)

def operationName : ApiSftpStartTaskRequest → Text
  | .createFile _ => "create-file".toList
  | .createDirectory _ => "create-directory".toList
  | .rename _ _ => "rename".toList
  | .upload .. => "upload".toList
  | .download _ _ => "download".toList
  | .batch _ => "batch".toList

def publicTaskSpec {ε : Type} (absoluteTimeoutMs : JsNumber) (mapFailure : SftpTaskResources → ε → SftpTaskFailure)
    (request : ApiSftpStartTaskRequest) : SftpTaskSpec ε where
  taskId := none
  operation := operationName request
  resources := resolveTaskResources request
  claims := resolveTaskRemotePaths request
  absoluteTimeoutMs := absoluteTimeoutMs
  cancellationSignal := none
  mapFailure := some fun error => .ok (mapFailure (resolveTaskResources request) error)
  onAbort := true

def markReleased (records : JsMap Text SftpPublicTaskRecord) (taskId : Text) (handle : Nat) : JsMap Text SftpPublicTaskRecord :=
  match records.get? taskId with
  | none => records
  | some record =>
    if record.handle = handle then records.set taskId { record with released := true, retentionTimer := true } else records

namespace PublicTaskSession

variable {ρ π ε : Type} (s : PublicTaskSession ρ π ε)

def getOpenSession : Bool × PublicTaskSession ρ π ε :=
  match s.entry with
  | .live => (true, s)
  | .closed => (false, { s with entry := .absent })
  | .absent => (false, s)

def records : List (Text × SftpPublicTaskRecord) :=
  match s.publicTaskRecords with
  | none => []
  | some records => records.entries

/-- `getSnapshot` of the record's handle. -/
def snapshotOf (record : SftpPublicTaskRecord) : Option (SftpTaskSnapshot ρ π) :=
  (s.scheduler.store record.handle).map fun stored => copySnapshot stored.snapshot

def stateOf (record : SftpPublicTaskRecord) : Option SftpTaskState := (s.snapshotOf record).map SftpTaskSnapshot.state

def deleteClosedTaskSchedulerIfUnused : PublicTaskSession ρ π ε :=
  if s.entry ≠ .absent ∨ s.records ≠ [] ∨ s.scheduler.records.size > 0 then s
  else { s with publicTaskRecords := none }

def removePublicTaskRecord (taskId : Text) (record : SftpPublicTaskRecord) : PublicTaskSession ρ π ε :=
  match s.publicTaskRecords with
  | none => s
  | some records =>
    if (records.get? taskId).map SftpPublicTaskRecord.handle ≠ some record.handle then s
    else
      let remaining := records.delete taskId
      let s := { s with
        publicTaskRecords := some remaining
        scheduler := (s.scheduler.forgetTask taskId).2 }
      let s :=
        if remaining.size = 0 then
          let found := s.getOpenSession
          if found.1 then found.2 else { found.2 with publicTaskRecords := none }
        else s
      s.deleteClosedTaskSchedulerIfUnused

/-- One of the two loops of `makeRoomForPublicTask`. -/
def evictLoop (isEvictable : PublicTaskSession ρ π ε → SftpPublicTaskRecord → Bool) :
    List (Text × SftpPublicTaskRecord) → PublicTaskSession ρ π ε → Bool × PublicTaskSession ρ π ε
  | [], s => (false, s)
  | (taskId, record) :: rest, s =>
    if isEvictable s record then
      let s := s.removePublicTaskRecord taskId record
      if s.records.length < SFTP_TASK_RECORD_LIMIT_PER_SESSION then (true, s) else evictLoop isEvictable rest s
    else evictLoop isEvictable rest s

def isSettledWell (state : Option SftpTaskState) : Bool := state = some .succeeded || state = some .cancelled

def makeRoomForPublicTask : Bool × PublicTaskSession ρ π ε :=
  if s.records.length < SFTP_TASK_RECORD_LIMIT_PER_SESSION then (true, s)
  else
    let first := evictLoop (fun s record => record.released && isSettledWell (s.stateOf record)) s.records s
    if first.1 then first else evictLoop (fun _ record => record.released) first.2.records first.2

def getOrCreatePublicTaskRecords : PublicTaskSession ρ π ε :=
  match s.publicTaskRecords with
  | none => { s with publicTaskRecords := some JsMap.empty }
  | some _ => s

def startTask (collation : Collation) (spec : SftpTaskSpec ε) (transferId : Option Text) (generatedId : Text) :
    StartSftpTaskResult ρ π × PublicTaskSession ρ π ε :=
  let found := s.getOpenSession
  if !found.1 then (.notFound, found.2)
  else
    let room := found.2.getOrCreatePublicTaskRecords.makeRoomForPublicTask
    let s := room.2
    if !room.1 then (.taskQueueFull SFTP_TASK_RECORD_LIMIT_PER_SESSION, s)
    else
      match s.scheduler.schedule collation spec generatedId with
      | .error message => (.failed message, s)
      | .ok scheduler =>
        match (scheduler.store s.scheduler.sequence).map fun stored => copySnapshot stored.snapshot with
        | none => (.failed [], { s with scheduler })
        | some snapshot =>
          let record : SftpPublicTaskRecord := ⟨spec.operation, snapshot.claims, s.scheduler.sequence, false, transferId, false⟩
          (.success record snapshot, { s with
            scheduler
            publicTaskRecords := s.publicTaskRecords.map fun records => records.set snapshot.taskId record })

def onReleased (taskId : Text) (handle : Nat) : PublicTaskSession ρ π ε :=
  if (s.scheduler.store handle).any StoredTaskRecord.releaseResolved then
    { s with publicTaskRecords := s.publicTaskRecords.map fun records => markReleased records taskId handle }
  else s

def onRetentionElapsed (taskId : Text) (handle : Nat) : PublicTaskSession ρ π ε :=
  match s.publicTaskRecords.bind fun records => records.get? taskId with
  | none => s
  | some record =>
    if record.handle = handle ∧ record.retentionTimer = true then s.removePublicTaskRecord taskId record else s

/-- `none` is `null`. -/
def listTasks : Option (List (SftpPublicTaskRecord × Option (SftpTaskSnapshot ρ π))) × PublicTaskSession ρ π ε :=
  match s.publicTaskRecords with
  | none =>
    let found := s.getOpenSession
    (if found.1 then some [] else none, found.2)
  | some records => (some (records.values.map fun record => (record, s.snapshotOf record)), s)

def getTask (taskId : Text) : Option (SftpPublicTaskRecord × Option (SftpTaskSnapshot ρ π)) :=
  (s.publicTaskRecords.bind fun records => records.get? taskId).map fun record => (record, s.snapshotOf record)

end PublicTaskSession

/-- `scheduler` is any turn of the scheduler: a runner that settles, a deadline, a cancellation, a request of another kind. -/
inductive PublicTaskEvent (ρ π ε : Type)
  | startTask (request : ApiSftpStartTaskRequest) (transferId : Option Text) (generatedId : Text)
  | scheduler (event : SftpTaskEvent ρ π ε)
  | released (taskId : Text) (handle : Nat)
  | retentionElapsed (taskId : Text) (handle : Nat)
  | listTasks
  | getTask (taskId : Text)
  | transportClosed
  | markUnavailable

namespace PublicTaskSession

variable {ρ π ε : Type}

/-- `absoluteTimeoutMs` and `mapFailure` belong to the service. -/
def step (collation : Collation) (absoluteTimeoutMs : JsNumber) (mapFailure : SftpTaskResources → ε → SftpTaskFailure)
    (s : PublicTaskSession ρ π ε) : PublicTaskEvent ρ π ε → PublicTaskSession ρ π ε
  | .startTask request transferId generatedId =>
    (s.startTask collation (publicTaskSpec absoluteTimeoutMs mapFailure request) transferId generatedId).2
  | .scheduler event => { s with scheduler := s.scheduler.step collation event }
  | .released taskId handle => s.onReleased taskId handle
  | .retentionElapsed taskId handle => s.onRetentionElapsed taskId handle
  | .listTasks => s.listTasks.2
  | .getTask _ => s
  | .transportClosed => if s.entry = .live then { s with entry := .closed } else s
  | .markUnavailable => { s with entry := .absent }

def machine (ρ π ε : Type) (collation : Collation) (absoluteTimeoutMs : JsNumber)
    (mapFailure : SftpTaskResources → ε → SftpTaskFailure) :
    Transition.Machine (PublicTaskSession ρ π ε) (PublicTaskEvent ρ π ε) where
  initial s := s.entry = .live ∧ s.publicTaskRecords = none ∧ ∃ options, SftpTaskScheduler.construct options = .ok s.scheduler
  step := step collation absoluteTimeoutMs mapFailure

end PublicTaskSession

end Sftp
