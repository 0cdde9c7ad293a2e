import Cosmosh.Sftp.EntryOperations
import Cosmosh.Sftp.TaskScheduler

/-! # The work a session hands to its task scheduler

Asynchronous tasks claim the paths of their payload as they arrive.
-/

namespace Sftp

open Library Library.JsText Library.PosixPath

inductive ApiSftpStartTaskRequest
  | createFile (path : Text)
  | createDirectory (path : Text)
  | rename (sourcePath targetPath : Text)
  | upload (path localPath : Text) (expectedSize : Option JsNumber) (expectedModifiedAt : Option Text)
      (overwrite : Bool)
  | download (path localPath : Text)
  | batch (input : RunSftpBatchOperationInput)

inductive ApiSftpTaskResult
  | operation (data : SftpOperationData)
  | download (data : SftpFileDownload)
  | batch (data : SftpBatchOperationData)

def batchClaims (input : RunSftpBatchOperationInput) (spelling : Text → Text) : List Text :=
  (input.entries.map fun entry => spelling entry.path) ++
    ((input.targetDirectoryPath.filter (· ≠ [])).map spelling).toList

def resolveTaskRemotePaths : ApiSftpStartTaskRequest → List Text
  | .createFile path => [path]
  | .createDirectory path => [path]
  | .upload path _ _ _ _ => [path]
  | .download path _ => [path]
  | .rename sourcePath targetPath => [sourcePath, targetPath]
  | .batch input => batchClaims input id

def resolveTaskResources : ApiSftpStartTaskRequest → SftpTaskResources
  | .download .. => ⟨.read, .heavy, false⟩
  | .upload .. => ⟨.mutation, .heavy, false⟩
  | .batch _ => ⟨.mutation, .heavy, false⟩
  | _ => ⟨.mutation, .light, false⟩

def failureCode : SftpOperationFailureCode → Text
  | .timeout => "SFTP_OPERATION_TIMEOUT".toList
  | .transportClosed => "SFTP_TRANSPORT_CLOSED".toList

def operationFailedCode (code : Option SftpOperationFailureCode) : Text := (code.map failureCode).getD "SFTP_OPERATION_FAILED".toList

def unknownOutcome (outcomeUnknown : Bool) : Option Bool := if outcomeUnknown then some true else none

def resolveTaskFailure (message : Text) (remoteConflict : Bool) (metadata : SftpOperationFailureMetadata) :
    SftpTaskFailure where
  code := if remoteConflict then "SFTP_UPLOAD_CONFLICT".toList else operationFailedCode metadata.operationErrorCode
  message := message
  outcomeUnknown := unknownOutcome metadata.outcomeUnknown

variable (session : SftpLiveSession)

def buildMissingSessionTaskOutcome : SftpTaskRunOutcome ApiSftpTaskResult :=
  .failed ⟨"SFTP_SESSION_NOT_FOUND".toList, session.text "errors.sftp.sessionNotFound", none⟩ none

def toTaskOperationOutcome : SftpOperationResult → SftpTaskRunOutcome ApiSftpTaskResult
  | .notFound => buildMissingSessionTaskOutcome session
  | .failed message remoteConflict metadata => .failed (resolveTaskFailure message remoteConflict metadata) none
  | .success data => .succeeded (.operation data)

def toTaskDownloadOutcome : SftpResult SftpFileDownload → SftpTaskRunOutcome ApiSftpTaskResult
  | .notFound => buildMissingSessionTaskOutcome session
  | .failed message remoteConflict metadata => .failed (resolveTaskFailure message remoteConflict metadata) none
  | .success data => .succeeded (.download data)

def failedItem? (results : List SftpBatchOperationItemResult) : Option (Text × SftpOperationFailureMetadata) :=
  results.findSome? fun item =>
    match item.status with
    | .failed message metadata => some (message, metadata)
    | _ => none

def batchFailure (results : List SftpBatchOperationItemResult) : SftpTaskFailure :=
  match failedItem? results with
  | some (message, metadata) =>
    ⟨operationFailedCode metadata.operationErrorCode, message, unknownOutcome metadata.outcomeUnknown⟩
  | none => ⟨operationFailedCode none, session.text "errors.sftp.operationFailedNoReason", none⟩

def toTaskBatchOutcome : SftpResult SftpBatchOperationData → SftpTaskRunOutcome ApiSftpTaskResult
  | .notFound => buildMissingSessionTaskOutcome session
  | .failed message remoteConflict metadata => .failed (resolveTaskFailure message remoteConflict metadata) none
  | .success data =>
    if data.failedCount = 0 then .succeeded (.batch data)
    else .failed (batchFailure session data.results) (some (.batch data))

def expectedSnapshot (expectedSize : Option JsNumber) (expectedModifiedAt : Option Text) :
    Option UploadSftpFileConflictSnapshot :=
  match expectedSize, expectedModifiedAt.filter (· ≠ []) with
  | some size, some modifiedAt => some ⟨size, modifiedAt⟩
  | _, _ => none

def executeTaskRequest (runtime : Runtime) (depth : Nat) :
    ApiSftpStartTaskRequest → SftpProgram (SftpTaskRunOutcome ApiSftpTaskResult)
  | .createFile path => toTaskOperationOutcome session <$> createFilePrimitive session (some path)
  | .createDirectory path => toTaskOperationOutcome session <$> createDirectoryPrimitive session (some path)
  | .rename sourcePath targetPath =>
    toTaskOperationOutcome session <$> renameEntryPrimitive session (some sourcePath) (some targetPath)
  | .upload path localPath expectedSize expectedModifiedAt overwrite =>
    toTaskOperationOutcome session <$> uploadFilePrimitive session runtime (some path) (some localPath)
      (expectedSnapshot expectedSize expectedModifiedAt) overwrite
  | .download path localPath =>
    toTaskDownloadOutcome session <$> downloadFilePrimitive session (some path) (some localPath)
  | .batch input => toTaskBatchOutcome session <$> runBatchOperationPrimitive session depth input

/-- The arguments of `runCoordinatedSftpOperation`. -/
structure CoordinatedOperation (α : Type) where
  operation : Text
  resources : SftpTaskResources
  claims : List Text
  run : SftpProgram (SftpResult α)

def readLightResources : SftpTaskResources := ⟨.read, .light, false⟩

def readHeavyResources : SftpTaskResources := ⟨.read, .heavy, false⟩

def mutationLightResources : SftpTaskResources := ⟨.mutation, .light, false⟩

def mutationHeavyResources : SftpTaskResources := ⟨.mutation, .heavy, false⟩

def listDirectory (collation : Collation) (requestedPath : Option Text) :
    CoordinatedOperation SftpDirectoryListing where
  operation := "list-directory".toList
  resources := readLightResources
  claims := [normalizeSftpPathInput requestedPath]
  run := listDirectoryPrimitive session collation requestedPath

def getEntryDetails (requestedPaths : List Text) : CoordinatedOperation SftpEntryDetails where
  operation := "get-entry-details".toList
  resources := readLightResources
  claims := if requestedPaths ≠ [] then requestedPaths.map fun path => normalizeSftpPathInput (some path)
    else ["/".toList]
  run := getEntryDetailsPrimitive session requestedPaths

def readFilePreview (requestedPath : Option Text) (requestedMaxBytes : Option Nat) :
    CoordinatedOperation SftpFilePreview where
  operation := "read-file".toList
  resources := readLightResources
  claims := [normalizeSftpPathInput requestedPath]
  run := readFilePreviewPrimitive session requestedPath requestedMaxBytes

def writeTextFile (runtime : Runtime) (requestedPath : Option Text) (content : Bytes)
    (expectedRemoteSnapshot : UploadSftpFileConflictSnapshot) (overwrite : Bool) :
    CoordinatedOperation SftpOperationData where
  operation := "write-file".toList
  resources := mutationHeavyResources
  claims := [normalizeSftpPathInput requestedPath]
  run := writeTextFilePrimitive session runtime requestedPath content expectedRemoteSnapshot overwrite

def downloadFile (requestedPath localPath : Option Text) : CoordinatedOperation SftpFileDownload where
  operation := "download".toList
  resources := readHeavyResources
  claims := [normalizeSftpPathInput requestedPath]
  run := downloadFilePrimitive session requestedPath localPath

def uploadFile (runtime : Runtime) (requestedPath localPath : Option Text)
    (expectedRemoteSnapshot : Option UploadSftpFileConflictSnapshot) (overwrite : Bool) :
    CoordinatedOperation SftpOperationData where
  operation := "upload".toList
  resources := mutationHeavyResources
  claims := [normalizeSftpPathInput requestedPath]
  run := uploadFilePrimitive session runtime requestedPath localPath expectedRemoteSnapshot overwrite

def createFile (requestedPath : Option Text) : CoordinatedOperation SftpOperationData where
  operation := "create-file".toList
  resources := mutationLightResources
  claims := [normalizeSftpPathInput requestedPath]
  run := createFilePrimitive session requestedPath

def createDirectory (requestedPath : Option Text) : CoordinatedOperation SftpOperationData where
  operation := "create-directory".toList
  resources := mutationLightResources
  claims := [normalizeSftpPathInput requestedPath]
  run := createDirectoryPrimitive session requestedPath

def renameEntry (requestedSourcePath requestedTargetPath : Option Text) :
    CoordinatedOperation SftpOperationData where
  operation := "rename".toList
  resources := mutationLightResources
  claims := [normalizeSftpPathInput requestedSourcePath, normalizeSftpPathInput requestedTargetPath]
  run := renameEntryPrimitive session requestedSourcePath requestedTargetPath

def copyEntry (depth : Nat) (requestedSourcePath requestedTargetPath : Option Text) :
    CoordinatedOperation SftpOperationData where
  operation := "copy".toList
  resources := mutationHeavyResources
  claims := [normalizeSftpPathInput requestedSourcePath, dirname (normalizeSftpPathInput requestedTargetPath)]
  run := copyEntryPrimitive session depth requestedSourcePath requestedTargetPath

def deleteEntry (depth : Nat) (requestedPath : Option Text) (recursive : Bool) :
    CoordinatedOperation SftpOperationData where
  operation := "delete".toList
  resources := if recursive then mutationHeavyResources else mutationLightResources
  claims := [normalizeSftpPathInput requestedPath]
  run := deleteEntryPrimitive session depth requestedPath recursive

def runBatchOperation (depth : Nat) (input : RunSftpBatchOperationInput) :
    CoordinatedOperation SftpBatchOperationData where
  operation := "batch".toList
  resources := mutationHeavyResources
  claims := batchClaims input fun path => normalizeSftpPathInput (some path)
  run := runBatchOperationPrimitive session depth input

end Sftp
