import Cosmosh.Library.JsMap
import Cosmosh.Library.Transition
import Cosmosh.Sftp.ArchiveOperations

/-! # The archive operations of all sessions

An operation runs until it waits for something, and goes on when that is answered.
-/

namespace Sftp

open Library Library.JsText Library.PosixPath

inductive ArchiveState
  | running
  | awaitingConflict
  | succeeded
  | failed
  | cancelled
  deriving DecidableEq

def ArchiveState.isTerminal : ArchiveState → Bool
  | .succeeded | .failed | .cancelled => true
  | .running | .awaitingConflict => false

structure ArchiveOperationData where
  sessionId : Text
  operationId : Text
  state : ArchiveState
  stage : ArchiveStage
  cancelRequested : Bool
  conflicts : Option (List ArchiveConflict)
  resultPaths : Option (List Text)
  errorCode : Option ArchiveErrorCode
  errorMessage : Option Text
  deriving DecidableEq

/-- What the `finally` block of an operation is going to report. -/
inductive ArchiveOutcome
  | succeeded
  | failed
  | cancelled
  deriving DecidableEq

def ArchiveOutcome.state : ArchiveOutcome → ArchiveState
  | .succeeded => .succeeded
  | .failed => .failed
  | .cancelled => .cancelled

inductive ArchiveProgress
  | working (body : ArchiveProgram (List Text))
  | cleaning (outcome : ArchiveOutcome)
  | finished

/-- `completion` is what `resolveCompletion` was called with, `conflictWaiter` the decision that is waited for,
`cleanup` the active clean-up, and `uuids` are the random names still to be drawn. -/
structure ArchiveOperationRecord where
  publicData : ArchiveOperationData
  request : ArchiveOperationRequest
  deadlineAt : Nat
  forcedFailure : Option (ArchiveErrorCode × Text)
  temporaryPaths : List Text
  provisionalDirectories : List Text
  conflictWaiter : Option (Option ArchiveConflictResolution)
  progress : ArchiveProgress
  cleanup : Option (ArchiveProgram Bool)
  completion : Option ArchiveOperationData
  uuids : List Text

/-- `startingSessions` is empty between two turns. -/
structure SftpArchiveService where
  operationTimeoutMs : Nat
  operations : JsMap Text ArchiveOperationRecord
  activeOperationBySession : JsMap Text Text
  closedSessions : List Text
  now : Nat

namespace Archive

def validateArchiveRequest (request : ArchiveOperationRequest) : Option ArchiveError :=
  let paths := match request with
    | .compress sourcePaths targetDirectoryPath _ _ _ => sourcePaths ++ [targetDirectoryPath]
    | .extract archivePath targetDirectoryPath _ => [archivePath, targetDirectoryPath]
  if paths.any fun candidate => trim candidate = [] || hasControlCharacters candidate then
    some (.archive .validationFailed "Archive paths contain invalid characters.".toList)
  else
    match request with
    | .extract .. => none
    | .compress _ _ archiveName format compressionLevel =>
      if archiveName ≠ basename archiveName ∨ archiveName = ".".toList ∨ archiveName = "..".toList ∨
          '/' ∈ archiveName ∨ '\\' ∈ archiveName ∨ hasControlCharacters archiveName = true then
        some (.archive .validationFailed "archiveName must be a safe basename.".toList)
      else if detectArchiveFormatFromName archiveName ≠ some format then
        some (.archive .validationFailed "archiveName does not match the selected format.".toList)
      else if (format = .tar ∧ compressionLevel ≠ .store) ∨ (format ≠ .tar ∧ compressionLevel = .store) then
        some (.archive .validationFailed "compressionLevel does not match the selected format.".toList)
      else none

def requestedFormat : ArchiveOperationRequest → Option ArchiveFormat
  | .compress _ _ _ format _ => some format
  | .extract archivePath _ _ => detectArchiveFormatFromName (basename archivePath)

def addPath (paths : List Text) (path : Text) : List Text := if path ∈ paths then paths else paths ++ [path]

def immediate (now : Nat) (isClosed : Bool) (record : ArchiveOperationRecord) :
    (q : ArchiveAsk) → Option (Except ArchiveError q.Answer × ArchiveOperationRecord)
  | .sessionIsClosed => some (.ok isClosed, record)
  | .assertOperationActive =>
    some (if record.deadlineAt ≤ now then .error createArchiveTimeoutError
      else if record.publicData.cancelRequested || isClosed then .error .cancelled else .ok (), record)
  | .randomUUID => some (.ok (record.uuids.headD []), { record with uuids := record.uuids.tail })
  | .setStage stage => some (.ok (), { record with publicData := { record.publicData with stage } })
  | .addTemporaryPath path => some (.ok (), { record with temporaryPaths := addPath record.temporaryPaths path })
  | .deleteTemporaryPath path => some (.ok (), { record with temporaryPaths := record.temporaryPaths.erase path })
  | .addProvisionalDirectory path =>
    some (.ok (), { record with provisionalDirectories := addPath record.provisionalDirectories path })
  | .deleteProvisionalDirectory path =>
    some (.ok (), { record with provisionalDirectories := record.provisionalDirectories.erase path })
  | .provisionalDirectories => some (.ok record.provisionalDirectories, record)
  | .beginConflicts conflicts =>
    some (.ok (), { record with
      publicData := { record.publicData with
        state := .awaitingConflict
        stage := .awaitingConflict
        conflicts := some conflicts }
      conflictWaiter := some none })
  | .endConflicts =>
    some (.ok (), { record with
      publicData := { record.publicData with state := .running, stage := .committing, conflicts := none }
      conflictWaiter := none })
  | .capabilities | .toolSet | .exec _ | .lstat _ | .readdir _ | .readlink _ | .mkdir _ _ | .rename _ _ | .unlink _
  | .rmdir _ | .open _ | .read _ _ _ | .close _ | .conflictDecision => none

def settle {α : Type} (now : Nat) (isClosed : Bool) :
    ArchiveProgram α → ArchiveOperationRecord → ArchiveProgram α × ArchiveOperationRecord
  | .done a, record => (.done a, record)
  | .fail e, record => (.fail e, record)
  | .ask q resume, record =>
    match immediate now isClosed record q with
    | some (answer, record) => settle now isClosed (resume answer) record
    | none => (.ask q resume, record)

/-- The rest of a program that waits for an answer to `q`. -/
def answered {α : Type} (q : ArchiveAsk) (answer : Except ArchiveError q.Answer) : ArchiveProgram α → Option (ArchiveProgram α)
  | .ask q' resume => if h : q = q' then some (resume (h ▸ answer)) else none
  | _ => none

end Archive

open Archive

namespace ArchiveOperationRecord

/-- The last part of the `finally` block. -/
def finish (record : ArchiveOperationRecord) (outcome : ArchiveOutcome) (cleanupSucceeded : Bool) : ArchiveOperationRecord :=
  let outcome := if cleanupSucceeded then outcome else .failed
  let failing := !cleanupSucceeded && record.publicData.errorCode.isNone
  let publicData := { record.publicData with
    errorCode := if failing then
        some (if record.publicData.cancelRequested then .cancelFailed else .operationFailed)
      else record.publicData.errorCode
    errorMessage := if failing then
        some "The archive task ended before temporary items could be cleaned.".toList
      else record.publicData.errorMessage
    state := outcome.state
    stage := .completed }
  { record with publicData, completion := some publicData, progress := .finished }

/-- The clean-up has come as far as `program`. -/
def cleanupSettled (record : ArchiveOperationRecord) (program : ArchiveProgram Bool) : ArchiveOperationRecord :=
  match program with
  | .done succeeded =>
    match record.progress with
    | .cleaning outcome => { record with cleanup := none }.finish outcome succeeded
    | _ => { record with cleanup := none }
  | .fail _ => { record with cleanup := none }
  | .ask q resume => { record with cleanup := some (.ask q resume) }

def cleanupTemporaryPaths (record : ArchiveOperationRecord) (depth now : Nat) (isClosed : Bool) : ArchiveOperationRecord :=
  match record.cleanup with
  | some _ => record
  | none =>
    let settled := settle now isClosed (performTemporaryPathCleanup depth record.temporaryPaths) record
    settled.2.cleanupSettled settled.1

/-- The `catch` block and the first part of the `finally` block. -/
def conclude (record : ArchiveOperationRecord) (result : Except ArchiveError (List Text)) : ArchiveOperationRecord :=
  let ended : ArchiveOutcome × ArchiveOperationData :=
    match result with
    | .ok resultPaths => (.succeeded, { record.publicData with resultPaths := some resultPaths })
    | .error error =>
      match record.forcedFailure with
      | some (code, message) =>
        (.failed, { record.publicData with errorCode := some code, errorMessage := some message })
      | none =>
        if error = .cancelled ∨ record.publicData.cancelRequested = true then (.cancelled, record.publicData)
        else
          let archiveError := normalizeArchiveError error
          (.failed, { record.publicData with errorCode := some archiveError.1, errorMessage := some archiveError.2 })
  let state := if ended.2.state = .awaitingConflict then .running else ended.2.state
  { record with publicData := { ended.2 with state, stage := .cleaning }, progress := .cleaning ended.1 }

/-- The work has come as far as `program`. -/
def bodySettled (record : ArchiveOperationRecord) (depth now : Nat) (isClosed : Bool) (program : ArchiveProgram (List Text)) :
    ArchiveOperationRecord :=
  match program with
  | .done resultPaths => (record.conclude (.ok resultPaths)).cleanupTemporaryPaths depth now isClosed
  | .fail error => (record.conclude (.error error)).cleanupTemporaryPaths depth now isClosed
  | .ask q resume => { record with progress := .working (.ask q resume) }

def advance (record : ArchiveOperationRecord) (depth now : Nat) (isClosed : Bool) (program : ArchiveProgram (List Text)) :
    ArchiveOperationRecord :=
  let settled := settle now isClosed program record
  settled.2.bodySettled depth now isClosed settled.1

def isFinished (record : ArchiveOperationRecord) : Bool :=
  match record.progress with
  | .finished => true
  | _ => false

def resolveWaiter (record : ArchiveOperationRecord) (resolution : ArchiveConflictResolution) : ArchiveOperationRecord :=
  { record with conflictWaiter := record.conflictWaiter.map fun decision => decision.or (some resolution) }

def mayAnswer (record : ArchiveOperationRecord) : (q : ArchiveAsk) → Except ArchiveError q.Answer → Bool
  | .conflictDecision, .ok resolution => record.conflictWaiter = some (some resolution)
  | .conflictDecision, .error error => error = createArchiveTimeoutError
  | _, _ => true

def reply (record : ArchiveOperationRecord) (depth now : Nat) (isClosed : Bool) (q : ArchiveAsk)
    (answer : Except ArchiveError q.Answer) : ArchiveOperationRecord :=
  match record.progress with
  | .working body =>
    match answered q answer body with
    | some rest => if record.mayAnswer q answer then record.advance depth now isClosed rest else record
    | none => record
  | _ => record

def cleanupReply (record : ArchiveOperationRecord) (now : Nat) (isClosed : Bool) (q : ArchiveAsk)
    (answer : Except ArchiveError q.Answer) : ArchiveOperationRecord :=
  match record.cleanup.bind (answered q answer) with
  | some rest =>
    let settled := settle now isClosed rest record
    settled.2.cleanupSettled settled.1
  | none => record

def cancel (record : ArchiveOperationRecord) : ArchiveOperationRecord :=
  if record.publicData.state.isTerminal then record
  else { record with publicData := { record.publicData with cancelRequested := true } }.resolveWaiter .cancel

def timeout (record : ArchiveOperationRecord) : ArchiveOperationRecord :=
  if record.publicData.state.isTerminal then record
  else { record with forcedFailure := some (.timeout, "The archive operation timed out.".toList) }.resolveWaiter .cancel

/-- `handleTransportClosed`, for the active operation of the session. -/
def transportClosed (record : ArchiveOperationRecord) : ArchiveOperationRecord :=
  { record with publicData := { record.publicData with cancelRequested := true } }.resolveWaiter .cancel

def resolveConflict (record : ArchiveOperationRecord) (resolution : ArchiveConflictResolution) : ArchiveOperationRecord :=
  if record.publicData.state ≠ .awaitingConflict ∨ record.conflictWaiter = none then record
  else record.resolveWaiter resolution

end ArchiveOperationRecord

inductive ArchiveEvent
  | start (sessionId : Text) (request : ArchiveOperationRequest) (deadlineAt : Nat) (operationId : Text) (uuids : List Text)
  | reply (operationId : Text) (q : ArchiveAsk) (answer : Except ArchiveError q.Answer)
  | cleanupReply (operationId : Text) (q : ArchiveAsk) (answer : Except ArchiveError q.Answer)
  | resolveConflict (sessionId operationId : Text) (resolution : ArchiveConflictResolution)
  | conflictTimer (operationId : Text)
  | cancel (sessionId operationId : Text)
  | timeout (sessionId operationId : Text)
  | closeSession (sessionId : Text)
  | closeSessionCleanup (operationId : Text)
  | transportClosed (sessionId : Text)
  | sessionClosed (sessionId : Text)
  | retentionElapsed (operationId : Text)
  | clock (now : Nat)

namespace SftpArchiveService

variable (s : SftpArchiveService)

def isClosed (record : ArchiveOperationRecord) : Bool := decide (record.publicData.sessionId ∈ s.closedSessions)

def put (operationId : Text) (record record' : ArchiveOperationRecord) : SftpArchiveService :=
  { s with
    operations := s.operations.set operationId record'
    activeOperationBySession :=
      if record'.isFinished && !record.isFinished then s.activeOperationBySession.delete record.publicData.sessionId
      else s.activeOperationBySession }

def update (operationId : Text) (f : ArchiveOperationRecord → ArchiveOperationRecord) : SftpArchiveService :=
  match s.operations.get? operationId with
  | none => s
  | some record => s.put operationId record (f record)

/-- `requireOperation` before the change. -/
def updateOwn (sessionId operationId : Text) (f : ArchiveOperationRecord → ArchiveOperationRecord) : SftpArchiveService :=
  match s.operations.get? operationId with
  | none => s
  | some record => if record.publicData.sessionId = sessionId then s.put operationId record (f record) else s

def updateActive (sessionId : Text) (f : ArchiveOperationRecord → ArchiveOperationRecord) : SftpArchiveService :=
  match s.activeOperationBySession.get? sessionId with
  | none => s
  | some operationId => s.update operationId f

/-- Operation ids are random and do not come twice. -/
def startOperation (depth : Nat) (sessionId : Text) (request : ArchiveOperationRequest) (deadlineAt : Nat) (operationId : Text)
    (uuids : List Text) : Except ArchiveError ArchiveOperationData × SftpArchiveService :=
  if s.activeOperationBySession.has sessionId then
    (.error (.archive .busy "Another archive operation is active for this session.".toList), s)
  else
    match validateArchiveRequest request with
    | some error => (.error error, s)
    | none =>
      match requestedFormat request with
      | none => (.error (.archive .unsupported "The remote host does not support this archive operation.".toList), s)
      | some format =>
        let record : ArchiveOperationRecord := {
          publicData := ⟨sessionId, operationId, .running, .preparing, false, none, none, none, none⟩
          request
          deadlineAt := min deadlineAt (s.now + s.operationTimeoutMs)
          forcedFailure := none
          temporaryPaths := []
          provisionalDirectories := []
          conflictWaiter := none
          progress := .working (operationBody depth request format)
          cleanup := none
          completion := none
          uuids }
        let started := record.advance depth s.now (s.isClosed record) (operationBody depth request format)
        if s.operations.has operationId then (.error .cancelled, s)
        else (.ok started.publicData, { s with
          operations := s.operations.set operationId started
          activeOperationBySession := s.activeOperationBySession.set sessionId operationId })

def step (depth : Nat) (s : SftpArchiveService) : ArchiveEvent → SftpArchiveService
  | .start sessionId request deadlineAt operationId uuids =>
    (s.startOperation depth sessionId request deadlineAt operationId uuids).2
  | .reply operationId q answer =>
    s.update operationId fun record => record.reply depth s.now (s.isClosed record) q answer
  | .cleanupReply operationId q answer =>
    s.update operationId fun record => record.cleanupReply s.now (s.isClosed record) q answer
  | .resolveConflict sessionId operationId resolution =>
    s.updateOwn sessionId operationId fun record => record.resolveConflict resolution
  | .conflictTimer operationId => s.update operationId fun record => record.resolveWaiter .cancel
  | .cancel sessionId operationId => s.updateOwn sessionId operationId ArchiveOperationRecord.cancel
  | .timeout sessionId operationId => s.updateOwn sessionId operationId ArchiveOperationRecord.timeout
  | .closeSession sessionId => s.updateActive sessionId ArchiveOperationRecord.cancel
  | .closeSessionCleanup operationId =>
    s.update operationId fun record => record.cleanupTemporaryPaths depth s.now (s.isClosed record)
  | .transportClosed sessionId => s.updateActive sessionId ArchiveOperationRecord.transportClosed
  | .sessionClosed sessionId => { s with closedSessions := sessionId :: s.closedSessions }
  | .retentionElapsed operationId =>
    match s.operations.get? operationId with
    | none => s
    | some record => if record.isFinished then { s with operations := s.operations.delete operationId } else s
  | .clock now => { s with now }

def machine (depth : Nat) : Transition.Machine SftpArchiveService ArchiveEvent where
  initial s := s.operations = JsMap.empty ∧ s.activeOperationBySession = JsMap.empty
  step := step depth

end SftpArchiveService

end Sftp
