import Cosmosh.Library.Environments
import Cosmosh.Library.FileTree

/-! # The temporary root for files that are uploaded and downloaded

The main process keeps them in a directory of its own, each in a private directory below it, and both processes check a
path against that root before they use it.
-/

namespace TemporaryFiles

open Library Library.PosixPath Library.FileTree

inductive FileType
  | directory
  | regular
  | symbolicLink
  | other
  deriving DecidableEq, Repr

/-- `mtime` as `toISOString` writes it. -/
structure Stats where
  type : FileType
  mode : Nat
  size : Nat
  mtime : Text

def Stats.isDirectory (stats : Stats) : Bool := stats.type = .directory

def Stats.isFile (stats : Stats) : Bool := stats.type = .regular

def Stats.isSymbolicLink (stats : Stats) : Bool := stats.type = .symbolicLink

inductive FileRequest
  | lstat (path : Text)
  | stat (path : Text)
  | realpath (path : Text)
  | mkdir (path : Text) (mode : Nat)
  | mkdtemp (start : Text)
  | chmod (path : Text) (mode : Nat)
  | copyFile (source target : Text)
  | unlink (path : Text)
  | rmdir (path : Text)
  | rm (path : Text)

inductive LocalRequest
  | files (q : FileRequest)
  | has (path : Text)
  | add (path : Text)
  | delete (path : Text)

abbrev FileRequest.Answer : FileRequest → Type
  | .lstat _ | .stat _ => Stats
  | .realpath _ | .mkdtemp _ => Text
  | _ => Unit

abbrev LocalRequest.Answer : LocalRequest → Type
  | .files q => q.Answer
  | .has _ => Bool
  | .add _ | .delete _ => Unit

inductive SftpUploadRejectedLocalEntryReason
  | directoryUnsupported
  | notFile
  | pathUnavailable
  | unreadable
  deriving DecidableEq, Repr

structure SftpUploadRejectedLocalEntry where
  name : Text
  reason : SftpUploadRejectedLocalEntryReason

inductive LocalError
  | system (code : String)
  | message (text : String)
  | notPrivate (directoryPath : Text)
  | rejection (entry : SftpUploadRejectedLocalEntry) (message : String)

abbrev LocalProgram := Program LocalRequest LocalRequest.Answer LocalError

def call (q : FileRequest) : LocalProgram q.Answer := Program.request (A := LocalRequest.Answer) (.files q)

def has (path : Text) : LocalProgram Bool := Program.request (A := LocalRequest.Answer) (.has path)

def add (path : Text) : LocalProgram Unit := Program.request (A := LocalRequest.Answer) (.add path)

def delete (path : Text) : LocalProgram Unit := Program.request (A := LocalRequest.Answer) (.delete path)

section

variable (cwd : Place)

def isFileSystemErrorWithCode (error : LocalError) (code : String) : Bool :=
  match error with
  | .system c => c = code
  | _ => false

def isPathInsideDirectory (candidatePath parentPath : Text) : Bool :=
  let relativePath := relative cwd parentPath candidatePath
  relativePath = [] || (0 < relativePath.length && !"..".toList.isPrefixOf relativePath && !isAbsolute relativePath)

def applyPrivateSftpTemporaryFileMode (filePath : Text) : LocalProgram Unit := call (.chmod filePath 0o600)

def applyPrivateSftpTemporaryDirectoryMode (directoryPath : Text) : LocalProgram Unit := call (.chmod directoryPath 0o700)

/-- The error says `SFTP temporary root is not private` of the path. -/
def assertPrivateDirectoryMode (directoryPath : Text) (mode : Nat) : Except LocalError Unit :=
  if mode &&& 0o077 ≠ 0 then .error (.notPrivate directoryPath) else .ok ()

def validateSftpTemporaryRootPath (rootPath : Text) : LocalProgram Text :=
  let trimmedRootPath := JsText.trim rootPath
  if trimmedRootPath = [] then throw (.message "SFTP temporary root is required.")
  else do
    let normalizedRootPath := resolve cwd trimmedRootPath
    let stats ← call (.lstat normalizedRootPath)
    if !stats.isDirectory || stats.isSymbolicLink then throw (.message "SFTP temporary root must be a real directory.")
    else do
      Program.ofExcept (assertPrivateDirectoryMode normalizedRootPath stats.mode)
      call (.realpath normalizedRootPath)

def createPrivateSftpTemporaryRoot (parentTempPath : Text) : LocalProgram Text := do
  let rootPath ← call (.mkdtemp (joinPath (resolve cwd parentTempPath) "cosmosh-sftp-".toList))
  applyPrivateSftpTemporaryDirectoryMode rootPath
  validateSftpTemporaryRootPath cwd rootPath

def hardenCreatedRoot (normalizedRootPath : Text) (createdRoot : Bool) : LocalProgram Unit :=
  if createdRoot then applyPrivateSftpTemporaryDirectoryMode normalizedRootPath else pure ()

def restoreSftpTemporaryRoot (normalizedRootPath : Text) : LocalProgram Text := do
  let createdRoot ← Program.catchError (do
      call (.mkdir normalizedRootPath 0o700)
      pure true)
    fun error => if isFileSystemErrorWithCode error "EEXIST" then pure false else throw error
  hardenCreatedRoot normalizedRootPath createdRoot
  validateSftpTemporaryRootPath cwd normalizedRootPath

def canonicalOrRestored (normalizedRootPath : Text) : Option Text → LocalProgram Text
  | some path => if path = [] then restoreSftpTemporaryRoot cwd normalizedRootPath else pure path
  | none => restoreSftpTemporaryRoot cwd normalizedRootPath

def ensurePrivateSftpTemporaryRoot (rootPath : Text) : LocalProgram Text :=
  let trimmedRootPath := JsText.trim rootPath
  if trimmedRootPath = [] then throw (.message "SFTP temporary root is required.")
  else do
    let normalizedRootPath := resolve cwd trimmedRootPath
    let validated ← Program.catchError (do
        let path ← validateSftpTemporaryRootPath cwd normalizedRootPath
        pure (some path))
      fun error => if isFileSystemErrorWithCode error "ENOENT" then pure none else throw error
    let canonicalRootPath ← canonicalOrRestored cwd normalizedRootPath validated
    if relative cwd normalizedRootPath canonicalRootPath ≠ [] then
      throw (.message "SFTP temporary root canonical path changed unexpectedly.")
    else pure canonicalRootPath

/-- One round of the loop of `createPrivateSftpTemporaryDirectory`. -/
def createPrivateDirectoryOnce (rootPath : Text) : LocalProgram Text := do
  let canonicalRootPath ← ensurePrivateSftpTemporaryRoot cwd rootPath
  let temporaryDirectoryPath ← call (.mkdtemp (joinPath canonicalRootPath "file-".toList))
  applyPrivateSftpTemporaryDirectoryMode temporaryDirectoryPath
  let canonicalDirectoryPath ← call (.realpath temporaryDirectoryPath)
  if !isPathInsideDirectory cwd canonicalDirectoryPath canonicalRootPath then throw (.message "Invalid SFTP temporary directory.")
  else pure canonicalDirectoryPath

def createPrivateSftpTemporaryDirectory (rootPath : Text) : LocalProgram Text :=
  Program.catchError (createPrivateDirectoryOnce cwd rootPath) fun error =>
    if isFileSystemErrorWithCode error "ENOENT" then createPrivateDirectoryOnce cwd rootPath else throw error

def isUnsafeCharacter (c : Char) : Bool := c.toNat < 32 || c ∈ ['<', '>', ':', '"', '/', '\\', '|', '?', '*']

def sanitizeSftpTemporaryFileName (fileName : Option Text) : Text :=
  let rawName := fileName.getD []
  let replaced := rawName.map fun c => if isUnsafeCharacter c then '_' else c
  let sanitized := JsText.trim (replaced.rdropWhile fun c => c = '.' || c = ' ')
  if sanitized = [] then "download".toList else sanitized

def createSftpTemporaryFilePath (rootPath : Text) (fileName : Option Text) : LocalProgram Text := do
  let temporaryDirectoryPath ← createPrivateSftpTemporaryDirectory cwd rootPath
  pure (joinPath temporaryDirectoryPath (sanitizeSftpTemporaryFileName fileName))

def resolveExistingSftpTemporaryFilePath (rootPath : Text) (candidatePath : Option Text) : LocalProgram Text :=
  let candidate := JsText.trim (candidatePath.getD [])
  if candidate = [] then throw (.message "Invalid file path.")
  else
    let normalizedPath := resolve cwd candidate
    if !isPathInsideDirectory cwd normalizedPath rootPath then throw (.message "Invalid file path.")
    else do
      let stats ← call (.lstat normalizedPath)
      if !stats.isFile || stats.isSymbolicLink then throw (.message "Invalid file path.")
      else do
        let canonicalPath ← call (.realpath normalizedPath)
        if !isPathInsideDirectory cwd canonicalPath rootPath then throw (.message "Invalid file path.") else pure canonicalPath

def resolveExistingUploadLocalPath (sftpTemporaryRootPath localPath : Text) : LocalProgram (Option Text) :=
  let normalizedLocalPath := resolve cwd localPath
  if !isPathInsideDirectory cwd normalizedLocalPath sftpTemporaryRootPath then pure none
  else
    Program.catchError (do
        let localStats ← call (.lstat normalizedLocalPath)
        if !localStats.isFile || localStats.isSymbolicLink then pure none
        else do
          let canonicalLocalPath ← call (.realpath normalizedLocalPath)
          if !isPathInsideDirectory cwd canonicalLocalPath sftpTemporaryRootPath then pure none else pure (some canonicalLocalPath))
      fun _ => pure none

structure SftpUploadLocalFile where
  name : Text
  localPath : Text
  size : Nat
  modifiedAt : Text

def resolveSftpUploadRejectionMessage : SftpUploadRejectedLocalEntryReason → String
  | .directoryUnsupported => "Directory upload is not supported yet."
  | .notFile => "Only regular files can be uploaded."
  | .pathUnavailable => "Dropped file path is unavailable."
  | .unreadable => "Unable to read local file."

def droppedUploadEntryFallbackName : Text := "Dropped item".toList

def createRejectedEntry (name : Text) (reason : SftpUploadRejectedLocalEntryReason) : SftpUploadRejectedLocalEntry :=
  ⟨if JsText.trim name = [] then droppedUploadEntryFallbackName else JsText.trim name, reason⟩

def sftpUploadStagingRejectionError (name : Text) (reason : SftpUploadRejectedLocalEntryReason) : LocalError :=
  .rejection (createRejectedEntry name reason) (resolveSftpUploadRejectionMessage reason)

def uploadName (sourcePath : Text) : Text := if basename sourcePath = [] then droppedUploadEntryFallbackName else basename sourcePath

def copyToTemporaryFile (sourcePath name localPath : Text) : LocalProgram SftpUploadLocalFile := do
  call (.copyFile sourcePath localPath)
  applyPrivateSftpTemporaryFileMode localPath
  let stagedStats ← call (.stat localPath)
  add (resolve cwd localPath)
  pure ⟨name, localPath, stagedStats.size, stagedStats.mtime⟩

def copyStagedFile (sourcePath name localPath : Text) : LocalProgram SftpUploadLocalFile :=
  Program.catchError (copyToTemporaryFile cwd sourcePath name localPath) fun _ => do
    Program.catchError (call (.rm (dirname localPath))) fun _ => pure ()
    throw (sftpUploadStagingRejectionError name .unreadable)

def stageSftpUploadLocalFile (rootPath sourcePath : Text) : LocalProgram SftpUploadLocalFile := do
  let name := uploadName sourcePath
  let sourceStats ← Program.catchError (call (.stat sourcePath)) fun _ => throw (sftpUploadStagingRejectionError name .unreadable)
  if sourceStats.isDirectory then throw (sftpUploadStagingRejectionError name .directoryUnsupported)
  else if !sourceStats.isFile then throw (sftpUploadStagingRejectionError name .notFile)
  else do
    let localPath ← createSftpTemporaryFilePath cwd rootPath (some name)
    copyStagedFile cwd sourcePath name localPath

def cleanupStagedSftpUploadFile (rootPath localPath : Text) : LocalProgram Unit :=
  let temporaryRootPath := resolve cwd rootPath
  Program.catchError (do
      let normalizedPath ← resolveExistingSftpTemporaryFilePath cwd rootPath (some localPath)
      let isStaged ← has normalizedPath
      if !isStaged then pure ()
      else do
        call (.unlink normalizedPath)
        delete normalizedPath
        let parentPath := dirname normalizedPath
        if parentPath ≠ temporaryRootPath ∧ isPathInsideDirectory cwd parentPath temporaryRootPath = true then
          Program.catchError (call (.rmdir parentPath)) fun _ => pure ()
        else pure ())
    fun _ => pure ()

/-- `Promise.all`: the paths are taken side by side. -/
def cleanupStagedSftpUploadFiles (rootPath : Text) (localPaths : List Text) : List (LocalProgram Unit) :=
  localPaths.map (cleanupStagedSftpUploadFile cwd rootPath)

end

end TemporaryFiles
