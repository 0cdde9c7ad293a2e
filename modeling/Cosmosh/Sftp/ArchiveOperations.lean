import Mathlib.Data.List.Sort
import Cosmosh.Sftp.ArchivePrograms

/-! # Compressing and extracting

Both end with the paths they produced.
-/

namespace Sftp.Archive

open Library Library.JsText Library.PosixPath

def runCheckedCommand (command : ArchiveCommand) : ArchiveProgram RemoteCommandResult := do
  assertOperationActive
  let result ← ask (.exec command)
  assertOperationActive
  if result.exitCode = some 0 then pure result
  else
    let output := sanitizeRemoteOutput (if result.stderr = [] then result.stdout else result.stderr)
    throw (.archive .operationFailed (if output = [] then "The remote archive tool failed.".toList
      else "Remote archive tool failed: ".toList ++ output))

def assertCompressionSource (sourcePath : Text) : ArchiveProgram Unit := do
  let stats ← ask (.lstat sourcePath)
  assertOperationActive
  match resolveSftpEntryType stats.mode with
  | .other => throw (.archive .unsupported "The selected source type is not supported.".toList)
  | _ => pure ()

def assertCompressionInputs (sourcePaths : List Text) (targetDirectory targetPath : Text) : ArchiveProgram Unit := do
  if targetDirectory = "/".toList ∨ targetDirectory = ".".toList then
    throw (.archive .validationFailed "Archive output at the remote root is not allowed.".toList)
  else if sourcePaths.any fun sourcePath => dirname sourcePath ≠ targetDirectory then
    throw (.archive .validationFailed "All archive sources must share the target directory.".toList)
  else do
    let taken ← pathExists targetPath
    if taken then throw (.archive .targetExists "The archive target already exists.".toList)
    else do
      assertOperationActive
      let _ ← Program.forEach assertCompressionSource sourcePaths
      pure ()

def temporaryArchiveName (uuid : Text) (extension : Text) : Text := ".cosmosh-".toList ++ uuid ++ ".partial".toList ++ extension

def runCompression (sources : List Text) (targetDirectoryPath archiveName : Text) (format : ArchiveFormat)
    (compressionLevel : ArchiveCompressionLevel) : ArchiveProgram (List Text) := do
  let targetDirectory := normalizeRemotePath targetDirectoryPath
  let sourcePaths := sources.map normalizeRemotePath
  let targetPath := join targetDirectory archiveName
  assertCompressionInputs sourcePaths targetDirectory targetPath
  let uuid ← ask .randomUUID
  let temporaryName := temporaryArchiveName uuid (archiveExtension format)
  let temporaryPath := join targetDirectory temporaryName
  let _ ← ask (.addTemporaryPath temporaryPath)
  let intermediateName ← if isCompressedTarFormat format then do
      let uuid ← ask .randomUUID
      let name := temporaryArchiveName uuid ".tar".toList
      let _ ← ask (.addTemporaryPath (join targetDirectory name))
      pure (some name)
    else pure none
  let _ ← ask (.setStage .compressing)
  let toolSet ← ask .toolSet
  let _ ← runCheckedCommand (.compression format compressionLevel targetDirectory temporaryName intermediateName
    (sourcePaths.map basename) toolSet)
  match intermediateName with
  | some name => ask (.deleteTemporaryPath (join targetDirectory name))
  | none => pure ()
  assertOperationActive
  let _ ← ask (.setStage .committing)
  let taken ← pathExists targetPath
  if taken then throw (.archive .targetExists "The archive target already exists.".toList)
  else do
    assertOperationActive
    let _ ← ask (.rename temporaryPath targetPath)
    let _ ← ask (.deleteTemporaryPath temporaryPath)
    pure [targetPath]

/-- `split(/\r?\n/)` -/
def splitLines : Text → Text → List Text
  | line, [] => [line]
  | line, '\n' :: rest => line :: splitLines [] rest
  | line, '\r' :: '\n' :: rest => line :: splitLines [] rest
  | line, c :: rest => splitLines (line ++ [c]) rest

def fromEachLine : Text → List Text
  | [] => []
  | c :: rest =>
    if c = '\n' ∨ c = '\r' ∨ c = '\u2028' ∨ c = '\u2029' then rest :: fromEachLine rest else fromEachLine rest

/-- `/^Encrypted\s*=\s*\+/im` -/
def mentionsEncryption (stdout : Text) : Bool :=
  (stdout :: fromEachLine stdout).any fun line =>
    "encrypted".toList.isPrefixOf (toLowerCase line) &&
      (match (line.drop 9).dropWhile isWhitespace with
        | '=' :: rest => (rest.dropWhile isWhitespace).head? = some '+'
        | _ => false)

/-- `7z` prints attributes, and names the archive among the members. -/
def readMembers (format : ArchiveFormat) (archivePath : Text) (tools : List Text) (stdout : Text) : List Text :=
  if format = .sevenZip ∨ (format = .zip ∧ "unzip".toList ∉ tools) then
    (((splitLines [] stdout).filter fun line => "Path = ".toList.isPrefixOf line).map fun line => trim (line.drop 7)).filter
      fun member => member ≠ [] ∧ member ≠ archivePath ∧ member ≠ basename archivePath
  else ((splitLines [] stdout).map trim).filter (· ≠ [])

def listArchiveMembers (archivePath : Text) (format : ArchiveFormat) (tools : List Text) : ArchiveProgram (List Text) := do
  let result ← runCheckedCommand (.list format archivePath tools)
  if result.stdoutTruncated then
    throw (.archive .unsafeEntry "The archive member list exceeded the safe validation limit.".toList)
  else do
    let _ ← if format = .zip ∧ "unzip".toList ∈ tools then do
        let _ ← runCheckedCommand (.zipIntegrity archivePath)
        pure ()
      else pure ()
    if mentionsEncryption result.stdout then
      throw (.archive .unsupported "Encrypted archives are not supported.".toList)
    else pure (readMembers format archivePath tools result.stdout)

def waitForConflicts (conflicts : List ArchiveConflict) : ArchiveProgram ArchiveConflictResolution := do
  let _ ← ask (.beginConflicts conflicts)
  let decision ← Program.attempt (ask .conflictDecision)
  let _ ← ask .endConflicts
  Program.ofExcept decision

def moveStaging (stagingPath resultPath : Text) : ArchiveProgram (List Text) := do
  assertOperationActive
  let _ ← ask (.rename stagingPath resultPath)
  let _ ← ask (.deleteTemporaryPath stagingPath)
  pure [resultPath]

def commitAsDirectory (depth : Nat) (stagingPath targetPath : Text) : ArchiveProgram (List Text) := do
  let taken ← pathExists targetPath
  if !taken then moveStaging stagingPath targetPath
  else do
    assertOperationActive
    let resolution ← waitForConflicts [toConflict stagingPath targetPath .directory]
    match resolution with
    | .cancel => throw .cancelled
    | .keepBoth => do
      let uniquePath ← findAvailablePath targetPath
      moveStaging stagingPath uniquePath
    | .overwrite => do
      assertOperationActive
      mergeRemoteEntry depth stagingPath targetPath
      let _ ← ask (.deleteTemporaryPath stagingPath)
      pure [targetPath]

def findConflict (stagingPath targetDirectory : Text) (entry : SftpDirectoryEntry) : ArchiveProgram (Option ArchiveConflict) := do
  assertOperationActive
  let targetPath := join targetDirectory entry.filename
  let taken ← pathExists targetPath
  assertOperationActive
  pure (if taken then some (toConflict (join stagingPath entry.filename) targetPath (resolveSftpEntryType entry.attrs.mode))
    else none)

def commitEntry (depth : Nat) (stagingPath targetDirectory : Text) (resolution : ArchiveConflictResolution)
    (entry : SftpDirectoryEntry) : ArchiveProgram Text := do
  assertOperationActive
  let sourcePath := join stagingPath entry.filename
  let desiredPath := join targetDirectory entry.filename
  let taken ← pathExists desiredPath
  if !taken then do
    assertOperationActive
    let _ ← ask (.rename sourcePath desiredPath)
    pure desiredPath
  else if resolution = .keepBoth then do
    let uniquePath ← findAvailablePath desiredPath
    assertOperationActive
    let _ ← ask (.rename sourcePath uniquePath)
    pure uniquePath
  else do
    assertOperationActive
    mergeRemoteEntry depth sourcePath desiredPath
    pure desiredPath

def commitEach (depth : Nat) (stagingPath targetDirectory : Text) (entries : List SftpDirectoryEntry) :
    ArchiveProgram (List Text) := do
  let found ← Program.forEach (findConflict stagingPath targetDirectory) entries
  let conflicts := found.filterMap id
  let resolution ← if conflicts = [] then pure .overwrite else waitForConflicts conflicts
  if resolution = .cancel then throw .cancelled
  else do
    let resultPaths ← Program.forEach (commitEntry depth stagingPath targetDirectory resolution) entries
    removeRemoteTree depth stagingPath
    let _ ← ask (.deleteTemporaryPath stagingPath)
    pure resultPaths

def commitExtractedEntries (depth : Nat) (stagingPath targetDirectory archivePath : Text)
    (destinationMode : ArchiveDestinationMode) : ArchiveProgram (List Text) := do
  assertOperationActive
  let entries ← ask (.readdir stagingPath)
  assertOperationActive
  let archiveDirectoryName := stripArchiveExtension (basename archivePath)
  if destinationMode = .smart ∧ entries.length ≠ 1 then do
    let uniquePath ← findAvailablePath (join targetDirectory archiveDirectoryName)
    moveStaging stagingPath uniquePath
  else if destinationMode = .archiveNameDirectory then
    commitAsDirectory depth stagingPath (join targetDirectory archiveDirectoryName)
  else commitEach depth stagingPath targetDirectory entries

def expandCompressedTar (archivePath targetDirectory : Text) (format : ArchiveFormat) : ArchiveProgram (Option Text) :=
  if isCompressedTarFormat format then do
    let uuid ← ask .randomUUID
    let expandedTarPath := join targetDirectory (temporaryArchiveName uuid ".tar".toList)
    let _ ← ask (.addTemporaryPath expandedTarPath)
    let _ ← runCheckedCommand (.compressedTarExpansion format archivePath expandedTarPath)
    validateArchiveHeader expandedTarPath .tar
    pure (some expandedTarPath)
  else pure none

def runExtraction (depth : Nat) (requestedArchivePath targetDirectoryPath : Text) (destinationMode : ArchiveDestinationMode)
    (format : ArchiveFormat) : ArchiveProgram (List Text) := do
  let archivePath := normalizeRemotePath requestedArchivePath
  let targetDirectory := normalizeRemotePath targetDirectoryPath
  if isAbsolute archivePath = false ∨ isAbsolute targetDirectory = false ∨ targetDirectory = "/".toList then
    throw (.archive .validationFailed
      "Archive and destination paths must be absolute, and extraction at the remote root is not allowed.".toList)
  else do
    let archiveStats ← ask (.lstat archivePath)
    if !archiveStats.isFile then
      throw (.archive .unsupported "Only regular archive files can be extracted.".toList)
    else do
      let createdDirectories ← ensureRemoteDirectory targetDirectory
      validateArchiveHeader archivePath format
      let toolSet ← ask .toolSet
      let expandedTarPath ← expandCompressedTar archivePath targetDirectory format
      let extractionArchivePath := expandedTarPath.getD archivePath
      let extractionFormat := if expandedTarPath.isSome then ArchiveFormat.tar else format
      let members ← listArchiveMembers extractionArchivePath extractionFormat toolSet
      if members.any fun member => !isSafeArchiveMember member then
        throw (.archive .unsafeEntry "The archive contains an unsafe member path.".toList)
      else do
        let uuid ← ask .randomUUID
        let stagingPath := join targetDirectory (".cosmosh-".toList ++ uuid)
        let _ ← ask (.mkdir stagingPath 0o700)
        let _ ← ask (.addTemporaryPath stagingPath)
        let _ ← ask (.setStage .extracting)
        let _ ← runCheckedCommand (.extraction extractionFormat extractionArchivePath stagingPath toolSet)
        match expandedTarPath with
        | some path => do
          let _ ← ask (.unlink path)
          ask (.deleteTemporaryPath path)
        | none => pure ()
        assertOperationActive
        let _ ← ask (.setStage .verifying)
        validateStagedTree stagingPath depth stagingPath (some 0o040000)
        let _ ← ask (.setStage .committing)
        let resultPaths ← commitExtractedEntries depth stagingPath targetDirectory archivePath destinationMode
        let _ ← Program.forEach (fun path => ask (.deleteProvisionalDirectory path)) createdDirectories
        pure resultPaths

/-- The `try` block of `runOperation`. -/
def operationBody (depth : Nat) (request : ArchiveOperationRequest) (format : ArchiveFormat) : ArchiveProgram (List Text) := do
  let capabilities ← ask .capabilities
  let isClosed ← ask .sessionIsClosed
  if isClosed then throw (.archive .unsupported "The SFTP session closed before the task started.".toList)
  else
    let supportedFormats := match request with
      | .compress .. => capabilities.createFormats
      | .extract .. => capabilities.extractFormats
    if !capabilities.canExec ∨ format ∉ supportedFormats then
      throw (.archive .unsupported "The remote host does not support this archive operation.".toList)
    else
      match request with
      | .compress sourcePaths targetDirectoryPath archiveName _ compressionLevel =>
        runCompression sourcePaths targetDirectoryPath archiveName format compressionLevel
      | .extract archivePath targetDirectoryPath destinationMode =>
        runExtraction depth archivePath targetDirectoryPath destinationMode format

def cleanupPaths (depth : Nat) : List Text → Bool → ArchiveProgram (Bool × Bool)
  | [], succeeded => pure (succeeded, false)
  | temporaryPath :: rest, succeeded => do
    let removed ← Program.attempt (removeRemoteTree depth temporaryPath)
    match removed with
    | .ok _ => do
      let _ ← ask (.deleteTemporaryPath temporaryPath)
      cleanupPaths depth rest succeeded
    | .error error => if isArchiveTimeoutError error then pure (false, true) else cleanupPaths depth rest false

def cleanupDirectories : List Text → Bool → ArchiveProgram Bool
  | [], succeeded => pure succeeded
  | provisionalDirectory :: rest, succeeded => do
    let removed ← Program.attempt (ask (.rmdir provisionalDirectory))
    match removed with
    | .ok _ => do
      let _ ← ask (.deleteProvisionalDirectory provisionalDirectory)
      cleanupDirectories rest succeeded
    | .error error =>
      if isNoSuchFileError error then do
        let _ ← ask (.deleteProvisionalDirectory provisionalDirectory)
        cleanupDirectories rest succeeded
      else do
        let entries ← Program.attempt (ask (.readdir provisionalDirectory))
        match entries with
        | .ok (_ :: _) => do
          let _ ← ask (.deleteProvisionalDirectory provisionalDirectory)
          cleanupDirectories rest succeeded
        | _ => if isArchiveTimeoutError error then pure false else cleanupDirectories rest false

def performTemporaryPathCleanup (depth : Nat) (temporaryPaths : List Text) : ArchiveProgram Bool := do
  let paths ← cleanupPaths depth temporaryPaths.reverse true
  if paths.2 then pure false
  else do
    let directories ← ask .provisionalDirectories
    cleanupDirectories (directories.insertionSort fun left right => right.length ≤ left.length) paths.1

end Sftp.Archive
