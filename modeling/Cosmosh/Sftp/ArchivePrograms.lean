import Cosmosh.Sftp.RemoteRequests

/-! # What an archive operation asks of the remote host

An operation waits for every remote request and checks in between whether it may go on.
-/

namespace Sftp

open Library Library.JsText Library.PosixPath

inductive ArchiveFormat
  | tar
  | tarGzip
  | zip
  | tarXz
  | tarBzip2
  | sevenZip
  deriving DecidableEq

inductive ArchiveCompressionLevel
  | store
  | fast
  | standard
  | maximum
  deriving DecidableEq

inductive ArchiveDestinationMode
  | smart
  | currentDirectory
  | archiveNameDirectory
  deriving DecidableEq

inductive ArchiveConflictResolution
  | overwrite
  | keepBoth
  | cancel
  deriving DecidableEq

structure ArchiveConflict where
  path : Text
  targetPath : Text
  type : SftpEntryType
  deriving DecidableEq

inductive ArchiveOperationRequest
  | compress (sourcePaths : List Text) (targetDirectoryPath archiveName : Text) (format : ArchiveFormat)
      (compressionLevel : ArchiveCompressionLevel)
  | extract (archivePath targetDirectoryPath : Text) (destinationMode : ArchiveDestinationMode)
  deriving DecidableEq

inductive ArchiveErrorCode
  | unsupported
  | busy
  | targetExists
  | unsafeEntry
  | operationNotFound
  | operationFailed
  | timeout
  | cancelFailed
  | validationFailed
  deriving DecidableEq

/-- `SftpArchiveError`, the cancellation sentinel, and what the SSH library throws. -/
inductive ArchiveError
  | archive (code : ArchiveErrorCode) (message : Text)
  | cancelled
  | remote (code : Option SftpErrorCode) (message : Text)
  deriving DecidableEq

inductive ArchiveStage
  | preparing
  | compressing
  | extracting
  | verifying
  | awaitingConflict
  | committing
  | cleaning
  | completed
  deriving DecidableEq

structure ArchiveCapabilities where
  canExec : Bool
  createFormats : List ArchiveFormat
  extractFormats : List ArchiveFormat
  deriving DecidableEq

structure RemoteCommandResult where
  stdout : Text
  stderr : Text
  stdoutTruncated : Bool
  exitCode : Option Int
  deriving DecidableEq

inductive ArchiveCommand
  | compression (format : ArchiveFormat) (level : ArchiveCompressionLevel) (directoryPath temporaryName : Text)
      (intermediateName : Option Text) (sourceNames tools : List Text)
  | compressedTarExpansion (format : ArchiveFormat) (archivePath outputPath : Text)
  | list (format : ArchiveFormat) (archivePath : Text) (tools : List Text)
  | zipIntegrity (archivePath : Text)
  | extraction (format : ArchiveFormat) (archivePath stagingPath : Text) (tools : List Text)
  deriving DecidableEq

inductive ArchiveAsk
  | capabilities
  | toolSet
  | exec (command : ArchiveCommand)
  | lstat (path : Text)
  | readdir (path : Text)
  | readlink (path : Text)
  | mkdir (path : Text) (mode : Nat)
  | rename (sourcePath targetPath : Text)
  | unlink (path : Text)
  | rmdir (path : Text)
  | open (path : Text)
  | read (handle position length : Nat)
  | close (handle : Nat)
  | conflictDecision
  | sessionIsClosed
  | assertOperationActive
  | randomUUID
  | setStage (stage : ArchiveStage)
  | addTemporaryPath (path : Text)
  | deleteTemporaryPath (path : Text)
  | addProvisionalDirectory (path : Text)
  | deleteProvisionalDirectory (path : Text)
  | provisionalDirectories
  | beginConflicts (conflicts : List ArchiveConflict)
  | endConflicts
  deriving DecidableEq

abbrev ArchiveAsk.Answer : ArchiveAsk → Type
  | .capabilities => ArchiveCapabilities
  | .toolSet => List Text
  | .exec _ => RemoteCommandResult
  | .lstat _ => Stats
  | .readdir _ => List SftpDirectoryEntry
  | .readlink _ => Text
  | .open _ => Nat
  | .read .. => Bytes
  | .conflictDecision => ArchiveConflictResolution
  | .sessionIsClosed => Bool
  | .randomUUID => Text
  | .provisionalDirectories => List Text
  | _ => Unit

abbrev ArchiveProgram := Program ArchiveAsk ArchiveAsk.Answer ArchiveError

namespace Archive

/-- `toLowerCase`: no suffix of an archive has a letter outside ASCII in it. -/
def toLowerCase (t : Text) : Text := t.map Char.toLower

def formatSuffixes : List (ArchiveFormat × List Text) := [
  (.tarGzip, [".tar.gz".toList, ".tgz".toList]),
  (.tarXz, [".tar.xz".toList, ".txz".toList]),
  (.tarBzip2, [".tar.bz2".toList, ".tbz2".toList]),
  (.tar, [".tar".toList]),
  (.zip, [".zip".toList]),
  (.sevenZip, [".7z".toList])]

def detectArchiveFormatFromName (archiveName : Text) : Option ArchiveFormat :=
  (formatSuffixes.find? fun entry => entry.2.any fun suffix => suffix.isSuffixOf (toLowerCase archiveName)).map Prod.fst

def stripArchiveExtension (archiveName : Text) : Text :=
  match formatSuffixes.find? fun entry => entry.2.any fun suffix => suffix.isSuffixOf (toLowerCase archiveName) with
  | none => archiveName
  | some (_, suffixes) =>
    match suffixes.find? fun suffix => suffix.isSuffixOf (toLowerCase archiveName) with
    | none => archiveName
    | some suffix =>
      let stem := archiveName.take (archiveName.length - suffix.length)
      if stem = [] then "archive".toList else stem

def archiveExtension : ArchiveFormat → Text
  | .tar => ".tar".toList
  | .tarGzip => ".tar.gz".toList
  | .zip => ".zip".toList
  | .tarXz => ".tar.xz".toList
  | .tarBzip2 => ".tar.bz2".toList
  | .sevenZip => ".7z".toList

def isCompressedTarFormat (format : ArchiveFormat) : Bool := format = .tarGzip || format = .tarXz || format = .tarBzip2

def hasControlCharacters (t : Text) : Bool := t.any fun c => c.val < 0x20 || c.val = 0x7f

/-- `path.posix.join` -/
def join (parent name : Text) : Text :=
  match [parent, name].filter (· ≠ []) with
  | [] => ".".toList
  | parts => normalize (['/'].intercalate parts)

/-- `path.posix.resolve` from an absolute directory. -/
def resolveFrom (directory path : Text) : Text := '/' :: joinSegments (location (directory ++ '/' :: path))

def normalizeRemotePath (value : Text) : Text := normalize (replaceChar '\\' '/' value)

def startsWithDrive : Text → Bool
  | letter :: ':' :: '/' :: _ => letter.isAlpha
  | _ => false

def isSafeArchiveMember (memberName : Text) : Bool :=
  let normalizedSeparators := replaceChar '\\' '/' memberName
  if normalizedSeparators = [] ∨ hasControlCharacters normalizedSeparators = true then false
  else if normalizedSeparators.head? = some '/' ∨ startsWithDrive normalizedSeparators = true then false
  else (normalizedSeparators.splitOn '/').all fun segment => segment ≠ "..".toList

/-- `\s+` becomes one space. -/
def collapseWhitespace : Text → Text
  | [] => []
  | c :: rest =>
    if isWhitespace c then
      match collapseWhitespace rest with
      | ' ' :: collapsed => ' ' :: collapsed
      | collapsed => ' ' :: collapsed
    else c :: collapseWhitespace rest

def sanitizeRemoteOutput (value : Text) : Text :=
  (trim (collapseWhitespace (value.filter fun c =>
    c.val = 0x09 || c.val = 0x0a || c.val = 0x0d || (0x20 ≤ c.val && c.val ≠ 0x7f)))).take 512

def sanitizeRemoteError : ArchiveError → Text
  | .archive _ message => sanitized message
  | .cancelled => sanitized "Archive operation cancelled.".toList
  | .remote _ message => sanitized message
where
  sanitized (message : Text) : Text :=
    let output := sanitizeRemoteOutput message
    if output = [] then "The remote archive operation failed.".toList else output

def createArchiveTimeoutError : ArchiveError := .archive .timeout "The archive operation timed out.".toList

def isArchiveTimeoutError : ArchiveError → Bool
  | .archive .timeout _ => true
  | _ => false

def mentionsNoSuchFile (message : Text) : Bool := "no such file".toList <:+: toLowerCase message

def isNoSuchFileError : ArchiveError → Bool
  | .archive _ message => mentionsNoSuchFile message
  | .cancelled => false
  | .remote code message =>
    code = some (.number 2) || code = some (.text "ENOENT".toList) || mentionsNoSuchFile message

def normalizeArchiveError : ArchiveError → ArchiveErrorCode × Text
  | .archive code message => (code, message)
  | error => (.operationFailed, sanitizeRemoteError error)

def ask (q : ArchiveAsk) : ArchiveProgram q.Answer := Program.request q

def assertOperationActive : ArchiveProgram Unit := ask .assertOperationActive

def pathExists (targetPath : Text) : ArchiveProgram Bool :=
  tryCatch (do
    let _ ← ask (.lstat targetPath)
    pure true) fun error => if isNoSuchFileError error then pure false else throw error

def readRemoteRange (targetPath : Text) (position length : Nat) : ArchiveProgram Bytes := do
  let handle ← ask (.open targetPath)
  let result ← Program.attempt (ask (.read handle position length))
  let _ ← ask (.close handle)
  Program.ofExcept result

def octalDigits : Text → Option Nat
  | [] => none
  | digits =>
    let octal := digits.takeWhile fun c => '0' ≤ c && c ≤ '7'
    if octal = [] then none else some (Nat.ofDigitChars 8 octal 0)

/-- `Number.parseInt(text, 8)` of a trimmed text. -/
def parseOctal : Text → Option Int
  | '-' :: digits => (octalDigits digits).map fun value => -value
  | '+' :: digits => (octalDigits digits).map fun value => value
  | digits => (octalDigits digits).map fun value => value

def checksumText (field : Bytes) : Text := trim ((field.takeWhile (· ≠ 0)).map fun byte => Char.ofNat (byte.toNat % 128))

def tarChecksum (header : Bytes) : Nat := (header.zipIdx.map fun entry => if 148 ≤ entry.2 ∧ entry.2 < 156 then 0x20 else entry.1.toNat).sum

def isTarHeader (header : Bytes) : Bool :=
  if header.length < 512 then false
  else if (header.take 512).all (· = 0) then true
  else parseOctal (checksumText ((header.drop 148).take 8)) = some (tarChecksum (header.take 512) : Int)

def headerMatches (format : ArchiveFormat) (header : Bytes) : Bool :=
  match format with
  | .tar => isTarHeader header
  | .tarGzip => header.take 2 = [0x1f, 0x8b]
  | .zip => header.take 2 = [0x50, 0x4b]
  | .tarXz => header.take 6 = [0xfd, 0x37, 0x7a, 0x58, 0x5a, 0x00]
  | .tarBzip2 => header.take 3 = [0x42, 0x5a, 0x68]
  | .sevenZip => header.take 6 = [0x37, 0x7a, 0xbc, 0xaf, 0x27, 0x1c]

def validateArchiveHeader (archivePath : Text) (format : ArchiveFormat) : ArchiveProgram Unit := do
  let header ← readRemoteRange archivePath 0 512
  if headerMatches format header then pure ()
  else throw (.archive .unsupported "The archive header does not match its extension.".toList)

def depthExceeded : ArchiveError := .remote none "The remote tree is too deep.".toList

/-- Rejects staged symbolic links that resolve outside the root. -/
def validateStagedTree (stagingRoot : Text) : Nat → Text → Option Nat → ArchiveProgram Unit
  | 0, _, _ => throw depthExceeded
  | depth + 1, targetPath, knownMode => do
    assertOperationActive
    let mode ← match knownMode with
      | some mode => pure (some mode)
      | none => do
        let stats ← ask (.lstat targetPath)
        pure stats.mode
    assertOperationActive
    match resolveSftpEntryType mode with
    | .symlink => do
      let linkPath ← ask (.readlink targetPath)
      assertOperationActive
      let resolvedPath := if isAbsolute linkPath then linkPath else resolveFrom (dirname targetPath) linkPath
      if hasControlCharacters linkPath ∨ (resolvedPath ≠ stagingRoot ∧ (stagingRoot ++ ['/']).isPrefixOf resolvedPath = false) then
        throw (.archive .unsafeEntry
          "The archive contains a symbolic link that escapes the extraction directory.".toList)
      else pure ()
    | .directory => do
      let entries ← ask (.readdir targetPath)
      assertOperationActive
      let _ ← Program.forEach (fun entry => do
        assertOperationActive
        validateStagedTree stagingRoot depth (join targetPath entry.filename) entry.attrs.mode) entries
      pure ()
    | _ => pure ()

def missingDirectories : Nat → Text → ArchiveProgram (List Text)
  | 0, _ => pure []
  | fuel + 1, cursor =>
    if cursor = "/".toList then pure []
    else do
      assertOperationActive
      let found ← tryCatch (do
        let stats ← ask (.lstat cursor)
        assertOperationActive
        if stats.isDirectory then pure true
        else throw (.archive .validationFailed
          "The extraction destination contains a non-directory path segment.".toList))
        fun error => if isNoSuchFileError error then pure false else throw error
      if found then pure []
      else do
        let above ← missingDirectories fuel (dirname cursor)
        pure (cursor :: above)

def createMissingDirectory (missingPath : Text) : ArchiveProgram (Option Text) := do
  assertOperationActive
  tryCatch (do
    let _ ← ask (.mkdir missingPath 0o755)
    let _ ← ask (.addProvisionalDirectory missingPath)
    pure (some missingPath)) fun error => do
      let stats ← Program.attempt (ask (.lstat missingPath))
      match stats with
      | .ok stats => if stats.isDirectory then pure none else throw error
      | .error _ => throw error

def ensureRemoteDirectory (targetPath : Text) : ArchiveProgram (List Text) := do
  let missingPaths ← missingDirectories (targetPath.length + 1) targetPath
  let created ← Program.forEach createMissingDirectory missingPaths.reverse
  pure (created.filterMap id)

/-- With `assertActive`, an operation that may not go on stops between two requests. -/
def removeRemoteTree : Nat → Text → ArchiveProgram Unit
  | 0, _ => throw depthExceeded
  | depth + 1, targetPath => do
    let stats ← Program.attempt (ask (.lstat targetPath))
    match stats with
    | .error error => if isNoSuchFileError error then pure () else throw error
    | .ok stats =>
      if !stats.isDirectory then ask (.unlink targetPath)
      else do
        let entries ← ask (.readdir targetPath)
        let _ ← Program.forEach (fun entry => removeRemoteTree depth (join targetPath entry.filename)) entries
        ask (.rmdir targetPath)

def mergeRemoteEntry : Nat → Text → Text → ArchiveProgram Unit
  | 0, _, _ => throw depthExceeded
  | depth + 1, sourcePath, targetPath => do
    assertOperationActive
    let sourceStats ← ask (.lstat sourcePath)
    assertOperationActive
    let targetStats ← ask (.lstat targetPath)
    assertOperationActive
    if !sourceStats.isDirectory || !targetStats.isDirectory then do
      assertOperationActive
      removeRemoteTree (depth + 1) targetPath
      ask (.rename sourcePath targetPath)
    else do
      let entries ← ask (.readdir sourcePath)
      assertOperationActive
      let _ ← Program.forEach (fun entry => do
        assertOperationActive
        let childSource := join sourcePath entry.filename
        let childTarget := join targetPath entry.filename
        let childExists ← pathExists childTarget
        assertOperationActive
        if childExists then mergeRemoteEntry depth childSource childTarget
        else ask (.rename childSource childTarget)) entries
      ask (.rmdir sourcePath)

def numberedSibling (desiredPath : Text) (attempt : Nat) : Text :=
  join (dirname desiredPath) (basename desiredPath ++ " (".toList ++ (toString attempt).toList ++ ")".toList)

def firstAvailable (desiredPath : Text) : List Nat → ArchiveProgram Text
  | [] => throw (.archive .operationFailed "No available destination name could be found.".toList)
  | attempt :: attempts => do
    let taken ← pathExists (numberedSibling desiredPath attempt)
    if taken then firstAvailable desiredPath attempts else pure (numberedSibling desiredPath attempt)

def findAvailablePath (desiredPath : Text) : ArchiveProgram Text := do
  let taken ← pathExists desiredPath
  if taken then firstAvailable desiredPath (List.range' 2 9998) else pure desiredPath

def toConflict (sourcePath targetPath : Text) (type : SftpEntryType) : ArchiveConflict := ⟨basename sourcePath, targetPath, type⟩

end Archive

end Sftp
