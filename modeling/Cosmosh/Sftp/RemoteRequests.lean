import Cosmosh.Library.JsNumber
import Cosmosh.Library.Program
import Cosmosh.Library.WorkingDirectory

/-! # Paths and requests of a live SFTP session -/

namespace Sftp

open Library Library.JsText Library.PosixPath

def normalizeSftpPathInput (input : Option Text) : Text :=
  let trimmed := trim (input.getD [])
  if trimmed = [] ∨ trimmed = ".".toList then ".".toList
  else
    let slashNormalized := replaceChar '\\' '/' trimmed
    let normalized := normalize slashNormalized
    if normalized = [] then ".".toList else normalized

def joinSftpPath (parent name : Text) : Text :=
  if parent = "/".toList ∨ parent = ".".toList then
    normalize ((if parent = "/".toList then [] else parent) ++ '/' :: name)
  else normalize (parent ++ '/' :: name)

def buildSftpCopyTargetCandidate (targetPath : Text) (attempt : Nat) : Text :=
  if attempt = 0 then targetPath
  else
    let directoryName := dirname targetPath
    let baseName := basename targetPath
    let extensionName := extname baseName
    let stem := if extensionName ≠ [] then baseName.take (baseName.length - extensionName.length) else baseName
    let suffix := if attempt > 1 then ' ' :: (toString attempt).toList else []
    let candidateName := stem ++ " copy".toList ++ suffix ++ extensionName
    if directoryName = ".".toList then candidateName else joinSftpPath directoryName candidateName

def isMutableSftpEntryPath (targetPath : Text) : Bool := targetPath ≠ [] ∧ targetPath ≠ ".".toList ∧ targetPath ≠ "/".toList

def resolveEntryName (targetPath : Text) : Text :=
  if targetPath = "/".toList then "/".toList
  else if basename targetPath = [] then targetPath else basename targetPath

def resolveParentPath (inputPath : Text) : Option Text :=
  if inputPath = [] ∨ inputPath = "/".toList then none
  else
    let parentPath := dirname inputPath
    if parentPath = inputPath then none
    else some (if parentPath = [] then "/".toList else parentPath)

def isSameOrDescendantPath (sourcePath targetPath : Text) : Bool :=
  let normalizedSource := sourcePath.rdropWhile (· = '/')
  let normalizedTarget := targetPath.rdropWhile (· = '/')
  normalizedTarget = normalizedSource ∨ (normalizedSource ++ ['/']).isPrefixOf normalizedTarget

theorem normalizeSftpPathInput_of_absolute {input : Text} (h : isAbsolute (replaceChar '\\' '/' (trim input)) = true) :
    normalizeSftpPathInput (some input) = normalize (replaceChar '\\' '/' (trim input)) := by
  have hMarker : ¬(trim input = [] ∨ trim input = ".".toList) := by
    rintro (hEmpty | hDot)
    · rw [hEmpty] at h
      cases h
    · rw [hDot] at h
      cases h
  simp only [normalizeSftpPathInput, Option.getD_some, if_neg hMarker]
  rw [if_neg]
  intro hEmpty
  have hAbsolute := isAbsolute_normalize (replaceChar '\\' '/' (trim input))
  rw [hEmpty, h] at hAbsolute
  cases hAbsolute

theorem isAbsolute_normalizeSftpPathInput (input : Text) :
    isAbsolute (normalizeSftpPathInput (some input)) = isAbsolute (replaceChar '\\' '/' (trim input)) := by
  simp only [normalizeSftpPathInput, Option.getD_some]
  split
  · rename_i hMarker
    obtain hEmpty | hDot := hMarker
    · rw [hEmpty]
      rfl
    · rw [hDot]
      rfl
  · split
    · rename_i hEmpty
      rw [← isAbsolute_normalize (replaceChar '\\' '/' (trim input)), hEmpty]
      rfl
    · exact isAbsolute_normalize _

theorem joinSftpPath_eq_normalize {parent : Text} (h : parent ≠ "/".toList) (name : Text) :
    joinSftpPath parent name = normalize (parent ++ '/' :: name) := by
  rw [joinSftpPath, if_neg h]
  split <;> rfl

theorem joinSftpPath_root (name : Text) : joinSftpPath "/".toList name = normalize ('/' :: name) := rfl

theorem resolveFrom_joinSftpPath (home : List Text) {parent : Text} (hNonempty : parent ≠ []) (name : Text) :
    (resolveFrom home (joinSftpPath parent name)).reverse = walk (resolveFrom home parent).reverse name := by
  by_cases hRoot : parent = "/".toList
  · rw [hRoot, joinSftpPath_root, resolveFrom_normalize]
    simp only [resolveFrom, List.reverse_reverse]
    exact walk_separator_cons [] name
  · rw [joinSftpPath_eq_normalize hRoot, resolveFrom_normalize]
    obtain ⟨c, rest, rfl⟩ := List.exists_cons_of_ne_nil hNonempty
    simp only [resolveFrom, List.reverse_reverse]
    exact walk_append _ (c :: rest) name

theorem resolveParentPath_getD (p : Text) : (resolveParentPath p).getD ".".toList =
      if p = [] ∨ p = "/".toList then ".".toList else dirname p := by
  rw [resolveParentPath]
  split
  · rfl
  · rename_i hTop
    obtain ⟨hEmpty, hRoot⟩ := not_or.mp hTop
    by_cases hFixed : dirname p = p
    · have hDot := (eq_of_dirname_eq_self hFixed).resolve_right hRoot
      rw [hFixed, hDot]
      rfl
    · simp [hFixed, dirname_ne_nil p]

end Sftp

namespace Sftp

open Library Library.JsText

abbrev Bytes := List UInt8

inductive SftpOperationFailureCode
  | timeout
  | transportClosed
  deriving DecidableEq

inductive SftpOperationImpact
  | read
  | mutation
  deriving DecidableEq

inductive SftpErrorCode
  | number (value : Int)
  | text (value : Text)
  deriving DecidableEq

inductive SftpError
  | operationFailure (code : SftpOperationFailureCode) (operation : Text) (outcomeUnknown : Bool) (message : Text)
  | remoteConflict (message : Text)
  | other (message : Text) (code : Option SftpErrorCode)
  deriving DecidableEq

namespace SftpError

def message : SftpError → Text
  | operationFailure _ _ _ message => message
  | remoteConflict message => message
  | other message _ => message

def isSftpOperationFailure : SftpError → Bool
  | operationFailure .. => true
  | _ => false

/-- `SFTP_OPERATION_TIMEOUT` and `SFTP_TRANSPORT_CLOSED` are codes as well. -/
def readSftpErrorCode : SftpError → Option SftpErrorCode
  | operationFailure .timeout _ _ _ => some (.text "SFTP_OPERATION_TIMEOUT".toList)
  | operationFailure .transportClosed _ _ _ => some (.text "SFTP_TRANSPORT_CLOSED".toList)
  | remoteConflict _ => none
  | other _ code => code

def readSftpErrorMessage (error : SftpError) : Text := error.message.map Char.toLower

def isGenericSftpFailureError (error : SftpError) : Bool :=
  trim error.readSftpErrorMessage = "failure".toList ∨
    error.readSftpErrorCode = some (.number 4) ∨ error.readSftpErrorCode = some (.text "4".toList) ∨
    error.readSftpErrorCode = some (.text "FAILURE".toList)

def messageIncludes (error : SftpError) (part : String) : Bool := part.toList <:+: error.readSftpErrorMessage

def isNoSuchFileError (error : SftpError) : Bool :=
  error.readSftpErrorCode = some (.number 2) ∨ error.readSftpErrorCode = some (.text "ENOENT".toList) ∨
    error.messageIncludes "no such file"

def isFileAlreadyExistsError (error : SftpError) : Bool :=
  error.readSftpErrorCode = some (.number 11) ∨ error.readSftpErrorCode = some (.text "EEXIST".toList) ∨
    error.messageIncludes "already exists" ∨ error.messageIncludes "file exists"

def isPermissionDeniedError (error : SftpError) : Bool :=
  error.readSftpErrorCode = some (.number 3) ∨ error.readSftpErrorCode = some (.text "EACCES".toList) ∨
    error.readSftpErrorCode = some (.text "EPERM".toList) ∨ error.messageIncludes "permission denied"

def isSftpTransportFailure (error : SftpError) : Bool :=
  (match error.readSftpErrorCode with
    | some (.text code) => code.map Char.toUpper ∈ ["ECONNRESET", "EPIPE", "ETIMEDOUT", "ENOTCONN",
        "ERR_STREAM_DESTROYED", "ERR_STREAM_PREMATURE_CLOSE"].map String.toList
    | _ => false) ||
    ["connection lost", "connection closed", "channel closed", "client is not connected",
      "no response from server", "no sftp connection", "socket closed"].any error.messageIncludes

end SftpError

structure Stats where
  mode : Option Nat
  uid : Option Nat
  gid : Option Nat
  size : Option Nat
  atime : Option Nat
  mtime : Option Nat
  deriving DecidableEq

inductive SftpEntryType
  | directory
  | file
  | symlink
  | other
  deriving DecidableEq

def resolveSftpEntryType (mode : Option Nat) : SftpEntryType :=
  let fileType := mode.getD 0 &&& 0o170000
  if fileType = 0o040000 then .directory
  else if fileType = 0o100000 then .file
  else if fileType = 0o120000 then .symlink
  else .other

def Stats.isFile (stats : Stats) : Bool := resolveSftpEntryType stats.mode = .file

def Stats.isDirectory (stats : Stats) : Bool := resolveSftpEntryType stats.mode = .directory

def Stats.permissionBits (stats : Stats) : Nat := stats.mode.getD 0 &&& 0o777

structure SftpDirectoryEntry where
  filename : Text
  longname : Text
  attrs : Stats

/-- `sessionOpen` asks whether the session is still registered as open, `streamOpened` whether the last
stream reported its handle, the `local` requests concern files of the workstation. -/
inductive Request
  | sessionOpen
  | realpath (path : Text)
  | readdir (path : Text)
  | readlink (path : Text)
  | symlink (targetPath linkPath : Text)
  | stat (path : Text)
  | lstat (path : Text)
  | open (path : Text)
  | read (handle : Nat) (length position : Nat)
  | close (handle : Nat)
  | readStream (path : Text)
  | writeFile (path : Text) (data : Bytes) (mode : Nat)
  | writeStream (path : Text) (data : Bytes) (mode : Nat)
  | copyStream (sourcePath targetPath : Text) (mode : Nat)
  | streamOpened
  | mkdir (path : Text) (mode : Nat)
  | unlink (path : Text)
  | rmdir (path : Text)
  | rename (sourcePath targetPath : Text)
  | posixRename (sourcePath targetPath : Text)
  | localInsideTemporaryRoot (path : Text)
  | localSource (path : Text)
  | localSave (path : Text) (data : Bytes)

abbrev Request.Answer : Request → Type
  | .sessionOpen => Bool
  | .realpath _ => Text
  | .readdir _ => List SftpDirectoryEntry
  | .readlink _ => Text
  | .stat _ => Stats
  | .lstat _ => Stats
  | .open _ => Nat
  | .read .. => Bytes
  | .readStream _ => Bytes
  | .streamOpened => Bool
  | .localInsideTemporaryRoot _ => Bool
  | .localSource _ => Option Bytes
  | _ => Unit

abbrev SftpProgram := Program Request Request.Answer SftpError

/-- `t` looks up a text, with the limit the text mentions if it mentions one. -/
structure SftpLiveSession where
  sessionId : Text
  extOpensshRename : Bool
  t : String → Option Nat → Text

def SftpLiveSession.text (session : SftpLiveSession) (key : String) : Text := session.t key none

def guardError (operation : String) (impact : SftpOperationImpact) (error : SftpError) : SftpError :=
  if error.isSftpOperationFailure ∨ !error.isSftpTransportFailure then error
  else .operationFailure .transportClosed operation.toList (impact = .mutation)
    ("SFTP_TRANSPORT_CLOSED: The " ++ operation ++
      " operation was interrupted because the SFTP transport closed.").toList

def runSftpOperation {α : Type} (operation : String) (impact : SftpOperationImpact) (start : SftpProgram α) :
    SftpProgram α := tryCatch start fun error => throw (guardError operation impact error)

/-- `runSftpCallbackOperation` -/
def call (operation : String) (impact : SftpOperationImpact) (request : Request) : SftpProgram request.Answer :=
  runSftpOperation operation impact (Program.request request)

namespace Remote

def realpath (path : Text) : SftpProgram Text := call "realpath" .read (Request.realpath path)

def readdir (path : Text) : SftpProgram (List SftpDirectoryEntry) := call "readdir" .read (Request.readdir path)

def readlink (path : Text) : SftpProgram Text := call "readlink" .read (Request.readlink path)

def symlink (targetPath linkPath : Text) : SftpProgram Unit := call "symlink" .mutation (Request.symlink targetPath linkPath)

def stat (path : Text) : SftpProgram Stats := call "stat" .read (Request.stat path)

def lstat (path : Text) : SftpProgram Stats := call "lstat" .read (Request.lstat path)

def openForReading (path : Text) : SftpProgram Nat := call "open" .read (Request.open path)

def read (handle length position : Nat) : SftpProgram Bytes := call "read" .read (Request.read handle length position)

def closeHandle (handle : Nat) : SftpProgram Unit := call "close-handle" .read (Request.close handle)

def writeFile (path : Text) (data : Bytes) (mode : Nat) : SftpProgram Unit := call "write-file" .mutation (Request.writeFile path data mode)

def uploadStream (path : Text) (data : Bytes) (mode : Nat) : SftpProgram Unit :=
  call "upload-stream" .mutation (Request.writeStream path data mode)

def copyStream (sourcePath targetPath : Text) (mode : Nat) : SftpProgram Unit :=
  call "copy-stream" .mutation (Request.copyStream sourcePath targetPath mode)

def downloadStream (path : Text) : SftpProgram Bytes := call "download-stream" .read (Request.readStream path)

def mkdir (path : Text) (mode : Nat) : SftpProgram Unit := call "mkdir" .mutation (Request.mkdir path mode)

def unlink (path : Text) : SftpProgram Unit := call "unlink" .mutation (Request.unlink path)

def rmdir (path : Text) : SftpProgram Unit := call "rmdir" .mutation (Request.rmdir path)

def rename (sourcePath targetPath : Text) : SftpProgram Unit := call "rename" .mutation (Request.rename sourcePath targetPath)

def posixRename (sourcePath targetPath : Text) : SftpProgram Unit := call "posix-rename" .mutation (Request.posixRename sourcePath targetPath)

def tryOpenSshPosixRename (session : SftpLiveSession) (sourcePath targetPath : Text) : SftpProgram Bool := do
  if !session.extOpensshRename then return false
  posixRename sourcePath targetPath
  return true

def streamOpened : SftpProgram Bool := Program.request Request.streamOpened

def localInsideTemporaryRoot (path : Text) : SftpProgram Bool := Program.request (Request.localInsideTemporaryRoot path)

def localSource (path : Text) : SftpProgram (Option Bytes) := Program.request (Request.localSource path)

def localSave (path : Text) (data : Bytes) : SftpProgram Unit := Program.request (Request.localSave path data)

end Remote

variable {σ : Type} (answer : σ → (q : Request) → Except SftpError q.Answer × σ)

theorem run_call (operation : String) (impact : SftpOperationImpact) (request : Request) (s : σ) :
    Program.run answer (call operation impact request) s =
      ((answer s request).1.mapError (guardError operation impact), (answer s request).2) := by
  rw [call, runSftpOperation, Program.tryCatch_eq, Program.run_catchError, Program.run_request]
  rcases answer s request with ⟨result, s'⟩
  cases result <;> rfl

theorem safe_call {effect : Program.Effect Request Request.Answer SftpError σ} {before : σ → Request → Prop}
    (operation : String) (impact : SftpOperationImpact) (request : Request)
    {after : Except SftpError request.Answer → σ → Prop} {s : σ} (hBefore : before s request)
    (hAfter : ∀ result s', effect s request result s' → after (result.mapError (guardError operation impact)) s') :
    Program.Safe effect before after (call operation impact request) s := by
  rw [call, runSftpOperation, Program.tryCatch_eq]
  refine Program.Safe.catchError (Program.Safe.request hBefore hAfter) ?_ ?_
  · exact fun _ _ hAfter => hAfter
  · exact fun _ _ hAfter => hAfter

theorem run_stat (path : Text) (s : σ) : Program.run answer (Remote.stat path) s =
    ((answer s (.stat path)).1.mapError (guardError "stat" .read), (answer s (.stat path)).2) := run_call answer ..

theorem run_posixRename (sourcePath targetPath : Text) (s : σ) : Program.run answer (Remote.posixRename sourcePath targetPath) s =
      ((answer s (.posixRename sourcePath targetPath)).1.mapError (guardError "posix-rename" .mutation),
        (answer s (.posixRename sourcePath targetPath)).2) := run_call answer ..

theorem run_rename (sourcePath targetPath : Text) (s : σ) : Program.run answer (Remote.rename sourcePath targetPath) s =
      ((answer s (.rename sourcePath targetPath)).1.mapError (guardError "rename" .mutation), (answer s (.rename sourcePath targetPath)).2) :=
  run_call answer ..

theorem run_unlink (path : Text) (s : σ) : Program.run answer (Remote.unlink path) s =
    ((answer s (.unlink path)).1.mapError (guardError "unlink" .mutation), (answer s (.unlink path)).2) := run_call answer ..

theorem run_writeFile (path : Text) (data : Bytes) (mode : Nat) (s : σ) : Program.run answer (Remote.writeFile path data mode) s =
      ((answer s (.writeFile path data mode)).1.mapError (guardError "write-file" .mutation), (answer s (.writeFile path data mode)).2) :=
  run_call answer ..

theorem run_uploadStream (path : Text) (data : Bytes) (mode : Nat) (s : σ) : Program.run answer (Remote.uploadStream path data mode) s =
      ((answer s (.writeStream path data mode)).1.mapError (guardError "upload-stream" .mutation),
        (answer s (.writeStream path data mode)).2) := run_call answer ..

end Sftp
