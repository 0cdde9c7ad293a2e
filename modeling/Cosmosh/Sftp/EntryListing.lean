import Cosmosh.Sftp.RemoteRequests
import Cosmosh.Sftp.TaskClaims

/-! # Results of operations, and listings -/

namespace Sftp

open Library Library.JsText

structure SftpOperationFailureMetadata where
  operationErrorCode : Option SftpOperationFailureCode
  outcomeUnknown : Bool

inductive SftpResult (α : Type)
  | notFound
  | failed (message : Text) (remoteConflict : Bool) (metadata : SftpOperationFailureMetadata)
  | success (data : α)

structure SftpOperationData where
  sessionId : Text
  path : Text
  targetPath : Option Text
  size : Option Nat
  modifiedAt : Option Nat

abbrev SftpOperationResult := SftpResult SftpOperationData

def resolveOperationFailureMetadata : SftpError → SftpOperationFailureMetadata
  | .operationFailure code _ outcomeUnknown _ => ⟨some code, outcomeUnknown⟩
  | _ => ⟨none, false⟩

def resolveErrorMessage (error : SftpError) (fallback : Text) : Text :=
  if trim error.message ≠ [] then error.message else fallback

def resolveUploadErrorMessage (error : SftpError) (fallback : Text) : Text :=
  if error.isGenericSftpFailureError then fallback else resolveErrorMessage error fallback

/-- The last instant a `Date` can hold, in milliseconds. -/
def MAX_TIME_VALUE : Nat := 8640000000000000

/-- `new Date(seconds * 1000).toISOString()`, as the instant it writes; it throws for a missing number and beyond the last instant. -/
def formatStatsTimestamp : Option Nat → Except SftpError Nat
  | some seconds =>
    if seconds * 1000 ≤ MAX_TIME_VALUE then .ok (seconds * 1000) else .error (.other "Invalid time value".toList none)
  | none => .error (.other "Invalid time value".toList none)

section

variable {α : Type} (session : SftpLiveSession)

def refused (key : String) : SftpResult α := .failed (session.text key) false ⟨none, false⟩

def failedWith (error : SftpError) (key : String) : SftpResult α :=
  .failed (resolveErrorMessage error (session.text key)) false (resolveOperationFailureMetadata error)

def getOpenSession : SftpProgram Bool := Program.request Request.sessionOpen

def withOpenSession (body : SftpProgram (SftpResult α)) : SftpProgram (SftpResult α) := do
  let isOpen ← getOpenSession
  if isOpen then body else pure .notFound

def withMutablePath (requestedPath : Option Text) (body : Text → SftpProgram (SftpResult α)) :
    SftpProgram (SftpResult α) :=
  let normalizedPath := normalizeSftpPathInput requestedPath
  if isMutableSftpEntryPath normalizedPath then body normalizedPath
  else pure (refused session "errors.sftp.pathRequired")

def withMutablePaths (requestedSourcePath requestedTargetPath : Option Text)
    (body : Text → Text → SftpProgram (SftpResult α)) : SftpProgram (SftpResult α) :=
  let sourcePath := normalizeSftpPathInput requestedSourcePath
  let targetPath := normalizeSftpPathInput requestedTargetPath
  if isMutableSftpEntryPath sourcePath ∧ isMutableSftpEntryPath targetPath then body sourcePath targetPath
  else pure (refused session "errors.sftp.pathRequired")

/-- The `catch` that turns a thrown error into a failed result. -/
def reporting (key : String) (body : SftpProgram (SftpResult α)) : SftpProgram (SftpResult α) :=
  tryCatch body fun error => pure (failedWith session error key)

end

end Sftp

namespace Sftp

open Library Library.JsText Library.PosixPath

inductive SftpSymlinkTargetStatus
  | exists_
  | broken
  | permissionDenied
  | unknown

structure SftpSymlinkTarget where
  status : SftpSymlinkTargetStatus
  path : Option Text
  resolvedPath : Option Text
  isAbsolute : Option Bool
  type : Option SftpEntryType
  size : Option Nat
  mode : Option Nat
  modifiedAt : Option Nat
  accessedAt : Option Nat
  message : Option Text

structure SftpEntry where
  name : Text
  path : Text
  parentPath : Option Text
  type : SftpEntryType
  size : Option Nat
  mode : Option Nat
  uid : Option Nat
  gid : Option Nat
  modifiedAt : Nat
  accessedAt : Nat
  longname : Option Text
  symlinkTarget : Option SftpSymlinkTarget

structure SftpDirectoryListing where
  sessionId : Text
  path : Text
  parentPath : Option Text
  entries : List SftpEntry

structure SftpEntryDetailsItem where
  path : Text
  entry : Except (Text × SftpOperationFailureMetadata) SftpEntry

structure SftpEntryDetails where
  sessionId : Text
  requestedCount : Nat
  entries : List SftpEntryDetailsItem

def resolveRealPath (inputPath : Text) : SftpProgram (Option Text) :=
  tryCatch (some <$> Remote.realpath inputPath) fun error =>
    if error.isSftpOperationFailure then throw error else pure none

def resolveSymlinkTargetPath (linkPath targetPath : Text) : Text :=
  if isAbsolute targetPath then normalizeSftpPathInput (some targetPath)
  else joinSftpPath ((resolveParentPath linkPath).getD ".".toList) targetPath

def resolveSymlinkTargetStatus (error : SftpError) : SftpSymlinkTargetStatus :=
  if error.isNoSuchFileError then .broken
  else if error.isPermissionDeniedError then .permissionDenied
  else .unknown

def unresolvedTarget (session : SftpLiveSession) (status : SftpSymlinkTargetStatus) (path resolvedPath : Option Text)
    (error : SftpError) : SftpSymlinkTarget where
  status := status
  path := path
  resolvedPath := resolvedPath
  isAbsolute := path.map PosixPath.isAbsolute
  type := none
  size := none
  mode := none
  modifiedAt := none
  accessedAt := none
  message := some (resolveErrorMessage error (session.text "errors.sftp.operationFailedNoReason"))

def resolveSymlinkTargetMetadata (session : SftpLiveSession) (linkPath : Text) : SftpProgram SftpSymlinkTarget :=
  tryCatch (do
    let targetPath ← Remote.readlink linkPath
    let resolvedPath := resolveSymlinkTargetPath linkPath targetPath
    tryCatch (do
      let targetStats ← Remote.stat resolvedPath
      let modifiedAt ← Program.ofExcept (formatStatsTimestamp targetStats.mtime)
      let accessedAt ← Program.ofExcept (formatStatsTimestamp targetStats.atime)
      pure
        { status := .exists_
          path := some targetPath
          resolvedPath := some resolvedPath
          isAbsolute := some (PosixPath.isAbsolute targetPath)
          type := some (resolveSftpEntryType targetStats.mode)
          size := targetStats.size
          mode := targetStats.mode
          modifiedAt := some modifiedAt
          accessedAt := some accessedAt
          message := none }) fun error =>
      if error.isSftpOperationFailure then throw error
      else pure (unresolvedTarget session (resolveSymlinkTargetStatus error) (some targetPath) (some resolvedPath)
        error)) fun error =>
    if error.isSftpOperationFailure then throw error else pure (unresolvedTarget session .unknown none none error)

def buildSftpEntry (name path : Text) (stats : Stats) (longname : Option Text)
    (symlinkTarget : Option SftpSymlinkTarget) : Except SftpError SftpEntry := do
  let modifiedAt ← formatStatsTimestamp stats.mtime
  let accessedAt ← formatStatsTimestamp stats.atime
  pure
    { name := name
      path := path
      parentPath := resolveParentPath path
      type := resolveSftpEntryType stats.mode
      size := stats.size
      mode := stats.mode
      uid := stats.uid
      gid := stats.gid
      modifiedAt := modifiedAt
      accessedAt := accessedAt
      longname := longname
      symlinkTarget := symlinkTarget }

def symlinkTargetOf (session : SftpLiveSession) (path : Text) (stats : Stats) :
    SftpProgram (Option SftpSymlinkTarget) :=
  if resolveSftpEntryType stats.mode = .symlink then some <$> resolveSymlinkTargetMetadata session path
  else pure none

/-- The entry of `stats`, with the metadata of the target if it is a symbolic link. -/
def describeEntry (session : SftpLiveSession) (name path : Text) (stats : Stats) (longname : Option Text) :
    SftpProgram SftpEntry := do
  let symlinkTarget ← symlinkTargetOf session path stats
  Program.ofExcept (buildSftpEntry name path stats longname symlinkTarget)

def compareSftpEntriesByBrowserOrder (collation : Collation) (left right : SftpEntry) : Bool :=
  if left.type = .directory ∧ right.type ≠ .directory then true
  else if left.type ≠ .directory ∧ right.type = .directory then false
  else collation.localeCompare left.name right.name ≤ 0

def sortSftpEntriesByBrowserOrder (collation : Collation) (entries : List SftpEntry) : List SftpEntry :=
  entries.mergeSort (compareSftpEntriesByBrowserOrder collation)

def isSpecialName (filename : Text) : Bool := filename = ".".toList ∨ filename = "..".toList

/-- `Promise.all`: every promise runs to its end, the first one rejected decides. -/
def promiseAll {α γ : Type} (body : γ → SftpProgram α) (items : List γ) : SftpProgram (List α) := do
  let outcomes ← Program.forEach (fun x => Program.attempt (body x)) items
  Program.ofExcept (outcomes.mapM id)

def listResolved (session : SftpLiveSession) (collation : Collation) (resolvedPath : Text) :
    SftpProgram (SftpResult SftpDirectoryListing) := do
  let entries ← Remote.readdir resolvedPath
  let mappedEntries ← promiseAll (fun entry => describeEntry session entry.filename
    (joinSftpPath resolvedPath entry.filename) entry.attrs
    (if entry.longname = [] then none else some entry.longname))
    (entries.filter fun entry => !isSpecialName entry.filename)
  pure (.success
    { sessionId := session.sessionId
      path := resolvedPath
      parentPath := resolveParentPath resolvedPath
      entries := sortSftpEntriesByBrowserOrder collation mappedEntries })

def listDirectoryPrimitive (session : SftpLiveSession) (collation : Collation) (requestedPath : Option Text) :
    SftpProgram (SftpResult SftpDirectoryListing) :=
  withOpenSession <| reporting session "errors.sftp.directoryListFailedNoReason" do
    let resolvedPath ← resolveRealPath (normalizeSftpPathInput requestedPath)
    match resolvedPath.filter (· ≠ []) with
    | none => pure (refused session "errors.sftp.directoryListFailedNoReason")
    | some resolvedPath => listResolved session collation resolvedPath

def getSingleEntryDetails (session : SftpLiveSession) (targetPath : Text) : SftpProgram SftpEntryDetailsItem :=
  tryCatch (do
    let stats ← Remote.lstat targetPath
    let entry ← describeEntry session (resolveEntryName targetPath) targetPath stats none
    pure ⟨targetPath, .ok entry⟩) fun error =>
    pure ⟨targetPath, .error (resolveErrorMessage error (session.text "errors.sftp.operationFailedNoReason"),
      resolveOperationFailureMetadata error)⟩

def describeRequestedPath (session : SftpLiveSession) (requestedPath : Text) : SftpProgram SftpEntryDetailsItem :=
  let normalizedPath := normalizeSftpPathInput (some requestedPath)
  if isMutableSftpEntryPath normalizedPath then getSingleEntryDetails session normalizedPath
  else pure ⟨normalizedPath, .error (session.text "errors.sftp.pathRequired", ⟨none, false⟩)⟩

def getEntryDetailsPrimitive (session : SftpLiveSession) (requestedPaths : List Text) :
    SftpProgram (SftpResult SftpEntryDetails) :=
  withOpenSession do
    let entries ← Program.forEach (describeRequestedPath session) requestedPaths
    pure (.success
      { sessionId := session.sessionId
        requestedCount := requestedPaths.length
        entries := entries })

end Sftp
