import Cosmosh.Sftp.EntryListing
import Cosmosh.Sftp.RemoteReplace

/-! # The operations on remote entries

Every operation normalizes the paths it is given and then works on the result.
-/

namespace Sftp

open Library Library.JsText Library.PosixPath

variable (session : SftpLiveSession)

def tooDeep : SftpError := .other "Maximum call stack size exceeded".toList none

def operationData (path : Text) (targetPath : Option Text) : SftpOperationData where
  sessionId := session.sessionId
  path := path
  targetPath := targetPath
  size := none
  modifiedAt := none

structure SftpFilePreview where
  sessionId : Text
  path : Text
  content : Bytes
  size : Option Nat
  truncated : Bool

structure SftpFileDownload where
  sessionId : Text
  path : Text
  localPath : Text
  size : Option Nat

def normalizeReadFileMaxBytes (requestedMaxBytes : Option Nat) : Nat :=
  match requestedMaxBytes with
  | none | some 0 => 256 * 1024
  | some bytes => min (max bytes 1024) (16 * 1024 * 1024)

/-- Every round reads at least one byte, so `length` rounds are enough. -/
def readFullyIntoBuffer (handle length : Nat) : Nat → Bytes → SftpProgram Bytes
  | 0, buffer => pure buffer
  | rounds + 1, buffer =>
    if buffer.length < length then do
      let chunk ← Remote.read handle (length - buffer.length) buffer.length
      if chunk = [] then pure buffer else readFullyIntoBuffer handle length rounds (buffer ++ chunk)
    else pure buffer

def readOpenedFile (handle readLength : Nat) : SftpProgram Bytes := do
  let outcome ← Program.attempt (if readLength > 0 then readFullyIntoBuffer handle readLength readLength []
    else pure [])
  let _ ← Program.attempt (Remote.closeHandle handle)
  Program.ofExcept outcome

def readFilePreviewPrimitive (requestedPath : Option Text) (requestedMaxBytes : Option Nat) :
    SftpProgram (SftpResult SftpFilePreview) :=
  withOpenSession <| withMutablePath session requestedPath fun normalizedPath =>
    reporting session "errors.sftp.fileReadFailedNoReason" do
      let stats ← Remote.stat normalizedPath
      if !stats.isFile then pure (refused session "errors.sftp.fileReadUnsupported")
      else do
        let maxBytes := normalizeReadFileMaxBytes requestedMaxBytes
        let handle ← Remote.openForReading normalizedPath
        let content ← readOpenedFile handle (min (stats.size.getD 0) maxBytes)
        pure (.success
          { sessionId := session.sessionId
            path := normalizedPath
            content := content
            size := stats.size
            truncated := stats.size.getD 0 > maxBytes })

def uploadFailure {α : Type} (error : SftpError) (key : String) : SftpResult α :=
  match error with
  | .remoteConflict message => .failed message true ⟨none, false⟩
  | _ => .failed (resolveUploadErrorMessage error (session.text key)) false (resolveOperationFailureMetadata error)

def writtenData (path : Text) (stats : Stats) : SftpProgram SftpOperationResult := do
  let modifiedAt ← Program.ofExcept (formatStatsTimestamp stats.mtime)
  pure (.success { operationData session path none with size := stats.size, modifiedAt := some modifiedAt })

def writeTextFilePrimitive (runtime : Runtime) (requestedPath : Option Text) (content : Bytes)
    (expectedRemoteSnapshot : UploadSftpFileConflictSnapshot) (overwrite : Bool) :
    SftpProgram SftpOperationResult :=
  withOpenSession <| withMutablePath session requestedPath fun normalizedPath =>
    if content.length > 16 * 1024 * 1024 then
      pure (.failed (session.t "errors.sftp.fileWriteTooLarge" (some (16 * 1024 * 1024))) false ⟨none, false⟩)
    else
      tryCatch (do
        let targetStats ← Remote.stat normalizedPath
        if !targetStats.isFile then pure (refused session "errors.sftp.fileUploadUnsupported")
        else if !overwrite ∧ !doesRemoteSnapshotMatch runtime targetStats expectedRemoteSnapshot then
          pure (.failed (session.text "errors.sftp.fileUploadRemoteChanged") true ⟨none, false⟩)
        else do
          writeBufferToRemotePath session runtime content normalizedPath targetStats.permissionBits
            (if overwrite then none else some expectedRemoteSnapshot)
          let writtenStats ← Remote.stat normalizedPath
          writtenData session normalizedPath writtenStats) fun error =>
        pure (uploadFailure session error "errors.sftp.fileWriteFailedNoReason")

def downloadFilePrimitive (requestedPath localPath : Option Text) : SftpProgram (SftpResult SftpFileDownload) :=
  withOpenSession <| withMutablePath session requestedPath fun normalizedPath =>
    let normalizedLocalPath := trim (localPath.getD [])
    if normalizedLocalPath = [] then pure (refused session "errors.sftp.localPathRequired")
    else
      reporting session "errors.sftp.fileDownloadFailedNoReason" do
        let sourceStats ← Remote.stat normalizedPath
        if !sourceStats.isFile then pure (refused session "errors.sftp.fileReadUnsupported")
        else do
          let data ← Remote.downloadStream normalizedPath
          Remote.localSave normalizedLocalPath data
          pure (.success
            { sessionId := session.sessionId
              path := normalizedPath
              localPath := normalizedLocalPath
              size := sourceStats.size })

def createRemoteFileFromLocalPath (data : Bytes) (targetPath : Text) (mode : Nat) : SftpProgram Unit :=
  tryCatch (Remote.uploadStream targetPath data mode) fun error =>
    if error.isFileAlreadyExistsError then
      throw (.remoteConflict (session.text "errors.sftp.fileUploadTargetExists"))
    else do
      let didOpenTarget ← Remote.streamOpened
      if didOpenTarget then do
        unlinkRemoteTempFile targetPath
        throw error
      else throw error

def uploadRefusal (runtime : Runtime) (targetStats : Option Stats)
    (expectedRemoteSnapshot : Option UploadSftpFileConflictSnapshot) (overwrite : Bool) :
    Option SftpOperationResult :=
  let conflict (key : String) : SftpOperationResult := .failed (session.text key) true ⟨none, false⟩
  match targetStats, expectedRemoteSnapshot with
  | some stats, expected =>
    if !stats.isFile then some (refused session "errors.sftp.fileUploadUnsupported")
    else if overwrite then none
    else
      match expected with
      | none => some (conflict "errors.sftp.fileUploadTargetExists")
      | some snapshot =>
        if doesRemoteSnapshotMatch runtime stats snapshot then none
        else some (conflict "errors.sftp.fileUploadRemoteChanged")
  | none, some _ => if overwrite then none else some (conflict "errors.sftp.fileUploadRemoteChanged")
  | none, none => none

def statIfPresent (path : Text) : SftpProgram (Option Stats) :=
  tryCatch (some <$> Remote.stat path) fun error =>
    if error.isNoSuchFileError then pure none else throw error

def sendFile (runtime : Runtime) (data : Bytes) (path : Text) (targetStats : Option Stats)
    (expectedRemoteSnapshot : Option UploadSftpFileConflictSnapshot) : SftpProgram Unit :=
  match targetStats with
  | some stats =>
    uploadLocalFileToRemotePath session runtime data path stats.permissionBits expectedRemoteSnapshot
  | none => createRemoteFileFromLocalPath session data path 0o644

def uploadFilePrimitive (runtime : Runtime) (requestedPath localPath : Option Text)
    (expectedRemoteSnapshot : Option UploadSftpFileConflictSnapshot) (overwrite : Bool) :
    SftpProgram SftpOperationResult :=
  withOpenSession <| withMutablePath session requestedPath fun normalizedPath =>
    let requestedLocalPath := trim (localPath.getD [])
    if requestedLocalPath = [] then pure (refused session "errors.sftp.localPathRequired")
    else do
      let isInside ← Remote.localInsideTemporaryRoot requestedLocalPath
      if !isInside then pure (refused session "errors.sftp.localFileReadUnsupported")
      else
        tryCatch (do
          let targetStats ← statIfPresent normalizedPath
          match uploadRefusal session runtime targetStats expectedRemoteSnapshot overwrite with
          | some refusal => pure refusal
          | none => do
            let source ← Remote.localSource requestedLocalPath
            match source with
            | none => pure (refused session "errors.sftp.localFileReadUnsupported")
            | some data => do
              sendFile session runtime data normalizedPath targetStats
                (if overwrite then none else expectedRemoteSnapshot)
              let uploadedStats ← Remote.stat normalizedPath
              writtenData session normalizedPath uploadedStats) fun error =>
          pure (uploadFailure session error "errors.sftp.fileUploadFailedNoReason")

def createFilePrimitive (requestedPath : Option Text) : SftpProgram SftpOperationResult :=
  withOpenSession <| withMutablePath session requestedPath fun normalizedPath =>
    reporting session "errors.sftp.fileCreateFailedNoReason" do
      Remote.writeFile normalizedPath [] 0o644
      pure (.success (operationData session normalizedPath none))

def createDirectoryPrimitive (requestedPath : Option Text) : SftpProgram SftpOperationResult :=
  withOpenSession <| withMutablePath session requestedPath fun normalizedPath =>
    reporting session "errors.sftp.directoryCreateFailedNoReason" do
      Remote.mkdir normalizedPath 0o755
      pure (.success (operationData session normalizedPath none))

def renameEntryPrimitive (requestedSourcePath requestedTargetPath : Option Text) :
    SftpProgram SftpOperationResult :=
  withOpenSession <| withMutablePaths session requestedSourcePath requestedTargetPath fun sourcePath targetPath =>
    if sourcePath = targetPath then pure (.success (operationData session sourcePath (some targetPath)))
    else
      reporting session "errors.sftp.entryRenameFailedNoReason" do
        let sourceStats ← Remote.lstat sourcePath
        if sourceStats.isDirectory ∧ isSameOrDescendantPath sourcePath targetPath then
          throw (.other (session.text "errors.sftp.moveIntoSelfUnsupported") none)
        else do
          Remote.rename sourcePath targetPath
          pure (.success (operationData session sourcePath (some targetPath)))

def pathExists (targetPath : Text) : SftpProgram Bool := do
  let stats ← statIfPresent targetPath
  pure stats.isSome

/-- The first candidate from `attempt` on that is free, among the `remaining` next ones. -/
def firstAvailableCopyPath (targetPath : Text) : Nat → Nat → SftpProgram Text
  | 0, _ => throw (.other (session.text "errors.sftp.copyTargetConflict") none)
  | remaining + 1, attempt => do
    let candidatePath := buildSftpCopyTargetCandidate targetPath attempt
    let isTaken ← pathExists candidatePath
    if isTaken then firstAvailableCopyPath targetPath remaining (attempt + 1) else pure candidatePath

def resolveAvailableCopyPath (targetPath : Text) : SftpProgram Text := firstAvailableCopyPath session targetPath 100 0

def childNames (entries : List SftpDirectoryEntry) : List Text := (entries.map (·.filename)).filter fun filename => !isSpecialName filename

def copyEntryRecursive : Nat → Text → Text → SftpProgram Unit
  | 0, _, _ => throw tooDeep
  | depth + 1, sourcePath, targetPath => do
    let sourceStats ← Remote.lstat sourcePath
    if sourceStats.isDirectory then do
      Remote.mkdir targetPath sourceStats.permissionBits
      let children ← Remote.readdir sourcePath
      let _ ← Program.forEach (fun name => copyEntryRecursive depth (joinSftpPath sourcePath name)
        (joinSftpPath targetPath name)) (childNames children)
      pure ()
    else if sourceStats.isFile then Remote.copyStream sourcePath targetPath sourceStats.permissionBits
    else throw (.other (session.text "errors.sftp.entryCopyUnsupported") none)

def copyEntryPrimitive (depth : Nat) (requestedSourcePath requestedTargetPath : Option Text) :
    SftpProgram SftpOperationResult :=
  withOpenSession <| withMutablePaths session requestedSourcePath requestedTargetPath fun sourcePath targetPath =>
    reporting session "errors.sftp.entryCopyFailedNoReason" do
      let resolvedTargetPath ← resolveAvailableCopyPath session targetPath
      if isSameOrDescendantPath sourcePath resolvedTargetPath then
        throw (.other (session.text "errors.sftp.copyIntoSelfUnsupported") none)
      else do
        copyEntryRecursive session depth sourcePath resolvedTargetPath
        pure (.success (operationData session sourcePath (some resolvedTargetPath)))

def linkEntryPrimitive (requestedSourcePath requestedTargetPath : Option Text) :
    SftpProgram SftpOperationResult :=
  withOpenSession <| withMutablePaths session requestedSourcePath requestedTargetPath fun sourcePath targetPath =>
    reporting session "errors.sftp.entryLinkFailedNoReason" do
      let resolvedTargetPath ← resolveAvailableCopyPath session targetPath
      Remote.symlink sourcePath resolvedTargetPath
      pure (.success (operationData session sourcePath (some resolvedTargetPath)))

def deleteEntryRecursive : Nat → Text → Bool → SftpProgram Unit
  | 0, _, _ => throw tooDeep
  | depth + 1, targetPath, recursive => do
    let stats ← Remote.lstat targetPath
    if !stats.isDirectory then Remote.unlink targetPath
    else if !recursive then Remote.rmdir targetPath
    else do
      let entries ← Remote.readdir targetPath
      let _ ← Program.forEach (fun name => deleteEntryRecursive depth (joinSftpPath targetPath name) true)
        (childNames entries)
      Remote.rmdir targetPath

def deleteEntryPrimitive (depth : Nat) (requestedPath : Option Text) (recursive : Bool) :
    SftpProgram SftpOperationResult :=
  withOpenSession <| withMutablePath session requestedPath fun normalizedPath =>
    reporting session "errors.sftp.entryDeleteFailedNoReason" do
      deleteEntryRecursive depth normalizedPath recursive
      pure (.success (operationData session normalizedPath none))

inductive SftpBatchOperation
  | copy
  | move
  | delete
  | link
  deriving DecidableEq

structure SftpBatchOperationEntry where
  path : Text
  type : SftpEntryType

structure RunSftpBatchOperationInput where
  operation : SftpBatchOperation
  entries : List SftpBatchOperationEntry
  targetDirectoryPath : Option Text

inductive SftpBatchOperationItemStatus
  | success (targetPath : Option Text)
  | failed (message : Text) (metadata : SftpOperationFailureMetadata)
  | skipped (message : Text)

structure SftpBatchOperationItemResult where
  path : Text
  type : SftpEntryType
  status : SftpBatchOperationItemStatus

structure SftpBatchOperationData where
  sessionId : Text
  operation : SftpBatchOperation
  totalCount : Nat
  completedCount : Nat
  failedCount : Nat
  skippedCount : Nat
  stoppedOnFailure : Bool
  results : List SftpBatchOperationItemResult

def runSingleBatchEntryOperation (depth : Nat) (operation : SftpBatchOperation) (entry : SftpBatchOperationEntry)
    (targetDirectoryPath : Option Text) : SftpProgram SftpOperationResult :=
  let targetPath := joinSftpPath (targetDirectoryPath.getD ".".toList) (basename entry.path)
  match operation with
  | .delete => deleteEntryPrimitive session depth (some entry.path) (entry.type = .directory)
  | .copy => copyEntryPrimitive session depth (some entry.path) (some targetPath)
  | .link => linkEntryPrimitive session (some entry.path) (some targetPath)
  | .move => renameEntryPrimitive session (some entry.path) (some targetPath)

def batchItemResult (entry : SftpBatchOperationEntry) : SftpOperationResult → SftpBatchOperationItemResult
  | .success data => ⟨data.path, entry.type, .success data.targetPath⟩
  | .failed message _ metadata => ⟨entry.path, entry.type, .failed message
      (if metadata.operationErrorCode.isSome then metadata else ⟨none, false⟩)⟩
  | .notFound => ⟨entry.path, entry.type, .failed (session.text "errors.sftp.sessionNotFound") ⟨none, false⟩⟩

def runBatchEntries (depth : Nat) (operation : SftpBatchOperation) (targetDirectoryPath : Option Text) :
    List SftpBatchOperationEntry → SftpProgram (List SftpBatchOperationItemResult)
  | [] => pure []
  | entry :: entries => do
    let result ← runSingleBatchEntryOperation session depth operation entry targetDirectoryPath
    let item := batchItemResult session entry result
    match result with
    | .success _ => do
      let rest ← runBatchEntries depth operation targetDirectoryPath entries
      pure (item :: rest)
    | _ => pure (item :: entries.map fun skipped =>
        ⟨skipped.path, skipped.type, .skipped (session.text "errors.sftp.batchSkippedAfterFailure")⟩)

def summarizeBatch (operation : SftpBatchOperation) (totalCount : Nat)
    (results : List SftpBatchOperationItemResult) : SftpBatchOperationData where
  sessionId := session.sessionId
  operation := operation
  totalCount := totalCount
  completedCount := results.countP fun item => match item.status with | .success _ => true | _ => false
  failedCount := results.countP fun item => match item.status with | .failed .. => true | _ => false
  skippedCount := results.countP fun item => match item.status with | .skipped _ => true | _ => false
  stoppedOnFailure := results.any fun item => match item.status with | .failed .. => true | _ => false
  results := results

def normalizeBatchEntries (entries : List SftpBatchOperationEntry) : List SftpBatchOperationEntry :=
  entries.map fun entry => ⟨normalizeSftpPathInput (some entry.path), entry.type⟩

def runBatchOperationPrimitive (depth : Nat) (input : RunSftpBatchOperationInput) :
    SftpProgram (SftpResult SftpBatchOperationData) :=
  withOpenSession <|
    let targetDirectoryPath := (input.targetDirectoryPath.filter (· ≠ [])).map
      fun path => normalizeSftpPathInput (some path)
    let entries := normalizeBatchEntries input.entries
    if input.entries = [] then pure (refused session "errors.sftp.batchEntriesRequired")
    else if input.operation ≠ .delete ∧ targetDirectoryPath = none then
      pure (refused session "errors.sftp.batchTargetRequired")
    else if entries.any fun entry => !isMutableSftpEntryPath entry.path then
      pure (refused session "errors.sftp.pathRequired")
    else do
      let results ← runBatchEntries session depth input.operation targetDirectoryPath entries
      pure (.success (summarizeBatch session input.operation entries.length results))

end Sftp
