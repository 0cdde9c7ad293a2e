import Cosmosh.Sftp.RemoteRequests

/-! # Replacing a remote file through a temporary sibling

The new content is written beside the target and renamed over it.
-/

namespace Sftp

open Library Library.JsText Library.PosixPath

structure Uuid where
  text : Text
  digits : ∀ c ∈ text, c ∈ "0123456789abcdef-".toList

/-- What the runtime supplies: the clock, a fresh UUID, and `Date.parse` in milliseconds. -/
structure Runtime where
  now : Nat
  randomUUID : Uuid
  dateParse : Text → Option Int

structure UploadSftpFileConflictSnapshot where
  size : JsNumber
  modifiedAt : Text

def doesRemoteSnapshotMatch (runtime : Runtime) (stats : Stats)
    (expectedSnapshot : UploadSftpFileConflictSnapshot) : Bool :=
  stats.size.map (fun size => JsNumber.finite size) = some expectedSnapshot.size ∧
    stats.mtime.isSome ∧ stats.mtime.map Int.ofNat = (runtime.dateParse expectedSnapshot.modifiedAt).map (·.tdiv 1000)

def assertRemoteSnapshotStillMatches (session : SftpLiveSession) (runtime : Runtime) (targetPath : Text)
    (expectedRemoteSnapshot : UploadSftpFileConflictSnapshot) : SftpProgram Unit := do
  let currentStats ← Remote.stat targetPath
  if !currentStats.isFile ∨ !doesRemoteSnapshotMatch runtime currentStats expectedRemoteSnapshot then
    throw (.remoteConflict (session.text "errors.sftp.fileUploadRemoteChanged"))

def replaceAfterGenericFailure (session : SftpLiveSession) (runtime : Runtime) (temporaryPath targetPath : Text)
    (expectedRemoteSnapshot : Option UploadSftpFileConflictSnapshot) (renameError : SftpError) :
    SftpProgram Unit := do
  expectedRemoteSnapshot.forM (assertRemoteSnapshotStillMatches session runtime targetPath)
  Remote.unlink targetPath
  tryCatch (Remote.rename temporaryPath targetPath) fun replaceError =>
    throw (if trim replaceError.message ≠ [] then replaceError else renameError)

def replaceRemoteFileFromTemp (session : SftpLiveSession) (runtime : Runtime) (temporaryPath targetPath : Text)
    (expectedRemoteSnapshot : Option UploadSftpFileConflictSnapshot) : SftpProgram Unit := do
  let replaced ← tryCatch (Remote.tryOpenSshPosixRename session temporaryPath targetPath) fun error =>
    if error.isSftpOperationFailure then throw error else pure false
  if replaced then pure ()
  else
    tryCatch (Remote.rename temporaryPath targetPath) fun renameError =>
      if !renameError.isGenericSftpFailureError then throw renameError
      else
        replaceAfterGenericFailure session runtime temporaryPath targetPath expectedRemoteSnapshot renameError

def unlinkRemoteTempFile (targetPath : Text) : SftpProgram Unit := tryCatch (Remote.unlink targetPath) fun _ => pure ()

def temporaryName (runtime : Runtime) (targetPath : Text) : Text :=
  '.' :: resolveEntryName targetPath ++ ".cosmosh-".toList ++ (toString runtime.now).toList ++ '-' ::
    runtime.randomUUID.text ++ ".tmp".toList

def temporaryPathFor (runtime : Runtime) (targetPath : Text) : Text :=
  joinSftpPath ((resolveParentPath targetPath).getD ".".toList) (temporaryName runtime targetPath)

def overwriteThroughTemporary (session : SftpLiveSession) (runtime : Runtime)
    (transfer : Text → SftpProgram Unit) (targetPath : Text)
    (expectedRemoteSnapshot : Option UploadSftpFileConflictSnapshot) : SftpProgram Unit :=
  let temporaryPath := temporaryPathFor runtime targetPath
  tryCatch (do
    transfer temporaryPath
    replaceRemoteFileFromTemp session runtime temporaryPath targetPath expectedRemoteSnapshot) fun error => do
      unlinkRemoteTempFile temporaryPath
      throw error

def uploadLocalFileToRemotePath (session : SftpLiveSession) (runtime : Runtime) (data : Bytes) (targetPath : Text)
    (mode : Nat) (expectedRemoteSnapshot : Option UploadSftpFileConflictSnapshot) : SftpProgram Unit :=
  overwriteThroughTemporary session runtime (Remote.uploadStream · data mode) targetPath expectedRemoteSnapshot

def writeBufferToRemotePath (session : SftpLiveSession) (runtime : Runtime) (data : Bytes) (targetPath : Text)
    (mode : Nat) (expectedRemoteSnapshot : Option UploadSftpFileConflictSnapshot) : SftpProgram Unit :=
  overwriteThroughTemporary session runtime (Remote.writeFile · data mode) targetPath expectedRemoteSnapshot

theorem not_mem_toString (n : Nat) : '/' ∉ (toString n).toList := by
  intro h
  have hDigit := Nat.isDigit_of_mem_toDigits (by decide) (by decide) (Nat.toList_repr (n := n) ▸ h)
  exact absurd hDigit (by decide)

def temporarySuffix (runtime : Runtime) : Text :=
  '.' :: "cosmosh-".toList ++ (toString runtime.now).toList ++ '-' :: runtime.randomUUID.text ++ ".tmp".toList

variable (runtime : Runtime)

theorem temporaryName_eq (targetPath : Text) :
    temporaryName runtime targetPath = '.' :: (resolveEntryName targetPath ++ temporarySuffix runtime) := by
  have hMark : ".cosmosh-".toList = '.' :: "cosmosh-".toList := by decide
  simp only [temporaryName, temporarySuffix, hMark, List.cons_append, List.append_assoc]

theorem not_mem_temporarySuffix : '/' ∉ temporarySuffix runtime := by
  have hUuid : '/' ∉ runtime.randomUUID.text := fun h => absurd (runtime.randomUUID.digits '/' h) (by decide)
  have hNow := not_mem_toString runtime.now
  have hHead : '/' ∉ '.' :: "cosmosh-".toList := by decide
  have hTail : '/' ∉ ".tmp".toList := by decide
  simp only [temporarySuffix, List.mem_append, not_or]
  exact ⟨⟨⟨hHead, hNow⟩, List.not_mem_cons_of_ne_of_not_mem (by decide) hUuid⟩, hTail⟩

theorem length_temporarySuffix : 2 < (temporarySuffix runtime).length := by
  simp only [temporarySuffix, List.length_append]
  have hHead : ('.' :: "cosmosh-".toList).length = 9 := by decide
  omega

theorem plain_append_temporarySuffix {front : Text} (h : '/' ∉ front) : Plain (front ++ temporarySuffix runtime) := by
  have hLength := length_temporarySuffix runtime
  refine ⟨?_, ?_, ?_, ?_⟩
  · intro hEq
    have := congrArg List.length hEq
    simp only [List.length_append, List.length_nil] at this
    omega
  · intro hEq
    have := congrArg List.length hEq
    simp only [List.length_append] at this
    have hDot : ".".toList.length = 1 := by decide
    omega
  · intro hEq
    have := congrArg List.length hEq
    simp only [List.length_append] at this
    have hDots : "..".toList.length = 2 := by decide
    omega
  · exact fun hMem => (List.mem_append.mp hMem).elim h (not_mem_temporarySuffix runtime)

theorem walk_temporaryName_of_name (stack : List Text) {targetPath : Text} (h : '/' ∉ resolveEntryName targetPath) :
    walk stack (temporaryName runtime targetPath) = temporaryName runtime targetPath :: stack := by
  rw [temporaryName_eq, ← List.cons_append]
  refine walk_plain stack (plain_append_temporarySuffix runtime ?_)
  simp [h]

theorem walk_temporaryName_of_separators (stack : List Text) {targetPath : Text} (hNonempty : targetPath ≠ []) (h : ∀ c ∈ targetPath, c = '/') :
    walk stack (temporaryName runtime targetPath) ≠ [] := by
  have hEntry : resolveEntryName targetPath = targetPath := by
    rw [resolveEntryName, basename_separators h, if_pos rfl]
    split
    · rename_i hRoot
      exact hRoot.symm
    · rfl
  obtain ⟨front, last, hConcat⟩ := (List.eq_nil_or_concat targetPath).resolve_left hNonempty
  rw [List.concat_eq_append] at hConcat
  obtain rfl : last = '/' := h last (by simp [hConcat])
  have hSplit : temporaryName runtime targetPath = ('.' :: front) ++ '/' :: temporarySuffix runtime := by
    rw [temporaryName_eq, hEntry, hConcat]
    simp only [List.append_assoc, List.nil_append, List.cons_append]
  have hPlain : Plain ([] ++ temporarySuffix runtime) := plain_append_temporarySuffix runtime (by simp)
  rw [List.nil_append] at hPlain
  rw [hSplit, walk_append, walk_plain _ hPlain]
  exact List.cons_ne_nil _ _

theorem temporaryPath_apart (home : List Text) (targetPath : Text) :
    resolveFrom home (temporaryPathFor runtime targetPath) ≠ resolveFrom home targetPath := by
  intro hSame
  have hReverse := congrArg List.reverse hSame
  rw [temporaryPathFor, resolveParentPath_getD] at hReverse
  by_cases hEmpty : targetPath = []
  · rw [if_pos (.inl hEmpty), resolveFrom_joinSftpPath home (by decide),
      walk_temporaryName_of_name runtime _ (by rw [hEmpty]; decide)] at hReverse
    have hHome : resolveFrom home ".".toList = resolveFrom home targetPath := by
      rw [hEmpty, resolveFrom, resolveFrom, walk_dot, walk_nil]
      rfl
    rw [hHome] at hReverse
    exact absurd (congrArg List.length hReverse) (by simp)
  · by_cases hSeparators : ∀ c ∈ targetPath, c = '/'
    · have hRoot : resolveFrom home targetPath = [] := by
        obtain ⟨c, rest, rfl⟩ := List.exists_cons_of_ne_nil hEmpty
        obtain rfl : c = '/' := hSeparators c List.mem_cons_self
        rw [resolveFrom_of_absolute rfl]
        exact congrArg List.reverse (walk_separators [] [] hSeparators)
      have hParent : (if targetPath = [] ∨ targetPath = "/".toList then ".".toList else dirname targetPath) ≠ [] := by
        split
        · decide
        · exact dirname_ne_nil targetPath
      rw [hRoot, resolveFrom_joinSftpPath home hParent] at hReverse
      exact walk_temporaryName_of_separators runtime _ hEmpty hSeparators hReverse
    · have hNotRoot : ¬(targetPath = [] ∨ targetPath = "/".toList) := by
        rintro (h | h)
        · exact hEmpty h
        · exact hSeparators (by simp [h])
      have hName : resolveEntryName targetPath = basename targetPath ∧ '/' ∉ basename targetPath := by
        obtain ⟨before, name, separators, hCut, hName, hAll, hBefore⟩ := exists_cut targetPath
        have hNonempty : name ≠ [] := by
          rintro rfl
          obtain rfl := hBefore.resolve_right fun h => h.2 rfl
          exact hSeparators (by simpa [hCut] using hAll)
        have hBase : basename targetPath = name := by
          rw [hCut]
          exact basename_cut hName hNonempty hAll (hBefore.imp_right And.left)
        rw [resolveEntryName, if_neg (not_or.mp hNotRoot).2, hBase, if_neg hNonempty]
        exact ⟨rfl, hName⟩
      rw [if_neg hNotRoot, resolveFrom_joinSftpPath home (dirname_ne_nil targetPath),
        walk_temporaryName_of_name runtime _ (hName.1 ▸ hName.2), resolveFrom_eq_pushSegment home targetPath]
        at hReverse
      refine pushSegment_ne_cons ?_ hReverse
      rw [temporaryName_eq, hName.1, List.length_cons, List.length_append]
      omega

structure Verdicts where
  transfer : Option (SftpError × Option Bytes)
  stat : Option SftpError
  posixRename : Option SftpError
  rename : Nat → Option SftpError
  unlink : Nat → Option SftpError

structure FileServer where
  home : List Text
  stats : List Text → Stats
  verdicts : Verdicts
  files : List Text → Option Bytes
  renames : Nat
  unlinks : Nat

namespace FileServer

def connect (home : List Text) (stats : List Text → Stats) (verdicts : Verdicts)
    (files : List Text → Option Bytes) : FileServer where
  home := home
  stats := stats
  verdicts := verdicts
  files := files
  renames := 0
  unlinks := 0

def noSuchFile : SftpError := .other "No such file".toList (some (.number 2))

def alreadyExists : SftpError := .other "File already exists".toList (some (.number 11))

def unsupported : SftpError := .other "Operation unsupported".toList (some (.number 8))

def locate (server : FileServer) (path : Text) : List Text := resolveFrom server.home path

def put (server : FileServer) (place : List Text) (content : Option Bytes) : FileServer :=
  { server with files := Function.update server.files place content }

def transferTo (server : FileServer) (path : Text) (data : Bytes) : Except SftpError Unit × FileServer :=
  if (server.files (server.locate path)).isSome then (.error alreadyExists, server)
  else
    match server.verdicts.transfer with
    | none => (.ok (), server.put (server.locate path) (some data))
    | some (error, written) => (.error error, server.put (server.locate path) written)

def moved (server : FileServer) (sourcePath targetPath : Text) (content : Bytes) : FileServer :=
  (server.put (server.locate sourcePath) none).put (server.locate targetPath) (some content)

def move (server : FileServer) (verdict : Option SftpError) (sourcePath targetPath : Text) :
    Except SftpError Unit × FileServer :=
  match verdict, server.files (server.locate sourcePath) with
  | some error, _ => (.error error, server)
  | none, none => (.error noSuchFile, server)
  | none, some content => (.ok (), server.moved sourcePath targetPath content)

def remove (server : FileServer) (verdict : Option SftpError) (path : Text) : Except SftpError Unit × FileServer :=
  match verdict, server.files (server.locate path) with
  | some error, _ => (.error error, server)
  | none, none => (.error noSuchFile, server)
  | none, some _ => (.ok (), server.put (server.locate path) none)

def describe (server : FileServer) (path : Text) : Except SftpError Stats :=
  match server.verdicts.stat, server.files (server.locate path) with
  | some error, _ => .error error
  | none, none => .error noSuchFile
  | none, some _ => .ok (server.stats (server.locate path))

def answer (server : FileServer) : (q : Request) → Except SftpError q.Answer × FileServer
  | .stat path => (server.describe path, server)
  | .writeFile path data _ => server.transferTo path data
  | .writeStream path data _ => server.transferTo path data
  | .posixRename sourcePath targetPath => server.move server.verdicts.posixRename sourcePath targetPath
  | .rename sourcePath targetPath =>
    { server with renames := server.renames + 1 }.move (server.verdicts.rename server.renames) sourcePath targetPath
  | .unlink path =>
    { server with unlinks := server.unlinks + 1 }.remove (server.verdicts.unlink server.unlinks) path
  | _ => (.error unsupported, server)

variable (server : FileServer)

@[simp] theorem locate_put (place : List Text) (content : Option Bytes) (path : Text) :
    (server.put place content).locate path = server.locate path := rfl

@[simp] theorem files_put_self (place : List Text) (content : Option Bytes) :
    (server.put place content).files place = content := Function.update_self ..

theorem files_put_of_ne {place other : List Text} (content : Option Bytes) (h : other ≠ place) :
    (server.put place content).files other = server.files other := Function.update_of_ne h ..

end FileServer

end Sftp
