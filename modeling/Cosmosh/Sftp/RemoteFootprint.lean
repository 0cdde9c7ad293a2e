import Cosmosh.Sftp.PathGuard
import Cosmosh.Sftp.TaskRequests

/-! # The remote paths an operation touches

Every operation stays at or below the paths its request names, on a server that lists directories by the names of their
entries.
-/

namespace Sftp

open Library Library.JsText Library.PosixPath

def Request.touches : Request → List Text
  | .realpath path => [path]
  | .readdir path => [path]
  | .readlink path => [path]
  | .symlink targetPath linkPath => [targetPath, linkPath]
  | .stat path => [path]
  | .lstat path => [path]
  | .open path => [path]
  | .readStream path => [path]
  | .writeFile path _ _ => [path]
  | .writeStream path _ _ => [path]
  | .copyStream sourcePath targetPath _ => [sourcePath, targetPath]
  | .mkdir path _ => [path]
  | .unlink path => [path]
  | .rmdir path => [path]
  | .rename sourcePath targetPath => [sourcePath, targetPath]
  | .posixRename sourcePath targetPath => [sourcePath, targetPath]
  | _ => []

def pointedBy : (q : Request) → Except SftpError q.Answer → List Text
  | .realpath _, .ok resolvedPath => [resolvedPath]
  | .readlink linkPath, .ok targetPath => [resolveSymlinkTargetPath linkPath targetPath]
  | _, _ => []

/-- A listing names entries: a name is not empty, contains no separator, and `.` and `..` are special. -/
def ListsNames : (q : Request) → Except SftpError q.Answer → Prop
  | .readdir _, .ok entries => ∀ entry ∈ entries, isSpecialName entry.filename = false → Plain entry.filename
  | _, _ => True

def anyServer : Program.Effect Request Request.Answer SftpError (List Text) := fun pointed q answer pointed' =>
  ListsNames q answer ∧ pointed' = pointedBy q answer ++ pointed

/-- A run of the program reaches a request that touches the path, after the server pointed to `pointed`. -/
def Touches {α : Type} (program : SftpProgram α) (pointed : List Text) (path : Text) : Prop :=
  ∃ (q : Request) (resume : Except SftpError q.Answer → SftpProgram α),
    Program.Steps anyServer (program, []) (.ask q resume, pointed) ∧ path ∈ q.touches

section Within

variable (admitted : List Text → Text → Prop) (required : List Text)

abbrev Within {α : Type} (fact : α → Prop) (program : SftpProgram α) : Prop :=
  Program.Keeps anyServer (fun pointed q => ∀ path ∈ q.touches, admitted pointed path)
    (fun pointed => required ⊆ pointed) fact program

structure Reserves (path : Text) : Prop where
  nonempty : path ≠ []
  admitted : ∀ pointed, required ⊆ pointed → ∀ other, Below path other → admitted pointed other

def anything {α : Type} (_ : α) : Prop := True

variable {admitted required}

variable {path : Text} {pointed : List Text}

theorem Reserves.self (h : Reserves admitted required path) (hRequired : required ⊆ pointed) :
    admitted pointed path := h.admitted pointed hRequired path (.refl path)

theorem Reserves.below {front : Text} (h : Reserves admitted required front) (hNonempty : path ≠ []) (hBelow : Below front path) :
    Reserves admitted required path :=
  ⟨hNonempty, fun pointed hRequired other hOther => h.admitted pointed hRequired other (hBelow.trans hOther)⟩

theorem Reserves.child {name : Text} (h : Reserves admitted required path) (hName : Plain name) :
    Reserves admitted required (joinSftpPath path name) := h.below (joinSftpPath_ne_nil path name) (below_joinSftpPath h.nonempty hName)

variable {q : Request}

theorem within_request (h : ∀ pointed, required ⊆ pointed → ∀ path ∈ q.touches, admitted pointed path) :
    Within admitted required (fun a => ListsNames q (.ok a)) (Program.request q) := by
  intro pointed hRequired
  refine Program.Safe.request (h pointed hRequired) ?_
  rintro answer _ ⟨hNames, rfl⟩
  refine ⟨List.subset_append_of_subset_right _ hRequired, ?_⟩
  rintro a rfl
  exact hNames

variable {operation : String} {impact : SftpOperationImpact}

theorem within_call (h : ∀ pointed, required ⊆ pointed → ∀ path ∈ q.touches, admitted pointed path) :
    Within admitted required (fun a => ListsNames q (.ok a)) (call operation impact q) := (within_request h).catchError fun _ => .fail

theorem within_call_of_reserves (hTouches : q.touches = [path]) (h : Reserves admitted required path) :
    Within admitted required (fun a => ListsNames q (.ok a)) (call operation impact q) := by
  refine within_call fun pointed hRequired other hOther => ?_
  rw [hTouches, List.mem_singleton] at hOther
  rw [hOther]
  exact h.self hRequired

variable {source target : Text}

theorem within_call_of_both (hTouches : q.touches = [source, target]) (hSource : ∀ pointed, required ⊆ pointed → admitted pointed source)
    (hTarget : ∀ pointed, required ⊆ pointed → admitted pointed target) :
    Within admitted required (fun a => ListsNames q (.ok a)) (call operation impact q) := by
  refine within_call fun pointed hRequired other hOther => ?_
  rw [hTouches] at hOther
  obtain rfl | hOther := List.mem_cons.mp hOther
  · exact hSource pointed hRequired
  · rw [List.mem_singleton.mp hOther]
    exact hTarget pointed hRequired

variable {α : Type}

theorem within_attempt {fact : α → Prop} {program : SftpProgram α} (h : Within admitted required fact program) :
    Within admitted required anything (Program.attempt program) := h.attempt

theorem within_forEach {γ : Type} {items : List γ} {body : γ → SftpProgram α} (h : ∀ x ∈ items, Within admitted required anything (body x)) :
    Within admitted required anything (Program.forEach body items) := Program.Keeps.forEach h

theorem within_promiseAll {γ : Type} {items : List γ} {body : γ → SftpProgram α} (h : ∀ x ∈ items, Within admitted required anything (body x)) :
    Within admitted required anything (promiseAll body items) :=
  Program.Keeps.bind (within_forEach fun x hx => within_attempt (h x hx)) fun _ _ => .ofExcept fun _ _ => trivial

theorem safe_of_within {program : SftpProgram α} (h : Within admitted (path :: required) anything program)
    (hRequired : required ⊆ pointed) (hPath : path ∈ pointed) :
    Program.Safe anyServer (fun pointed q => ∀ path ∈ q.touches, admitted pointed path)
      (fun outcome pointed' => required ⊆ pointed' ∧ ∀ a, outcome = .ok a → anything a) program pointed :=
  (h pointed (List.cons_subset.mpr ⟨hPath, hRequired⟩)).mono fun _ _ hAfter =>
    ⟨(List.cons_subset.mp hAfter.1).2, hAfter.2⟩

variable {α : Type} {session : SftpLiveSession}

theorem within_withOpenSession {body : SftpProgram (SftpResult α)} (h : Within admitted required anything body) :
    Within admitted required anything (withOpenSession body) := by
  have hOpen : Within admitted required anything getOpenSession :=
    (within_request (q := .sessionOpen) (by simp [Request.touches])).weaken fun _ _ => trivial
  refine Program.Keeps.bind hOpen fun isOpen _ => ?_
  split
  · exact h
  · exact .done trivial

variable {requestedPath : Option Text}

theorem within_withMutablePath {body : Text → SftpProgram (SftpResult α)}
    (h : isMutableSftpEntryPath (normalizeSftpPathInput requestedPath) = true →
      Within admitted required anything (body (normalizeSftpPathInput requestedPath))) :
    Within admitted required anything (withMutablePath session requestedPath body) := by
  rw [withMutablePath]
  split
  · exact h ‹_›
  · exact .done trivial

variable {requestedSourcePath requestedTargetPath : Option Text}

theorem within_withMutablePaths {body : Text → Text → SftpProgram (SftpResult α)}
    (h : isMutableSftpEntryPath (normalizeSftpPathInput requestedTargetPath) = true → Within admitted required
      anything (body (normalizeSftpPathInput requestedSourcePath) (normalizeSftpPathInput requestedTargetPath))) :
    Within admitted required anything (withMutablePaths session requestedSourcePath requestedTargetPath body) := by
  rw [withMutablePaths]
  split
  · rename_i hMutable
    exact h hMutable.2
  · exact .done trivial

theorem within_reporting {key : String} {body : SftpProgram (SftpResult α)}
    (h : Within admitted required anything body) : Within admitted required anything (reporting session key body) :=
  h.catchError fun _ => .done trivial

theorem within_closing {handle : Nat} : Within admitted required anything (Program.attempt (Remote.closeHandle handle)) :=
  within_attempt (within_call (q := .close handle) (by simp [Request.touches]))

theorem within_readFullyIntoBuffer (handle length rounds : Nat) (buffer : Bytes) :
    Within admitted required anything (readFullyIntoBuffer handle length rounds buffer) := by
  induction rounds generalizing buffer with
  | zero => exact .done trivial
  | succ rounds ih =>
    rw [readFullyIntoBuffer]
    split
    · have hRead : Within admitted required anything
          (Remote.read handle (length - buffer.length) buffer.length) :=
        (within_call (q := .read handle (length - buffer.length) buffer.length) (by simp [Request.touches])).weaken
          fun _ _ => trivial
      refine Program.Keeps.bind hRead fun chunk _ => ?_
      split
      · exact .done trivial
      · exact ih (buffer ++ chunk)
    · exact .done trivial

theorem within_readOpenedFile (handle readLength : Nat) : Within admitted required anything (readOpenedFile handle readLength) := by
  have hContent : Within admitted required anything
      (if readLength > 0 then readFullyIntoBuffer handle readLength readLength [] else pure []) := by
    split
    · exact within_readFullyIntoBuffer handle readLength readLength []
    · exact .done trivial
  exact Program.Keeps.bind (within_attempt hContent) fun outcome _ =>
    Program.Keeps.bind within_closing fun _ _ => .ofExcept fun _ _ => trivial

theorem within_stat (h : Reserves admitted required path) : Within admitted required anything (Remote.stat path) :=
  (within_call_of_reserves (q := .stat path) rfl h).weaken fun _ _ => trivial

theorem within_lstat (h : Reserves admitted required path) : Within admitted required anything (Remote.lstat path) :=
  (within_call_of_reserves (q := .lstat path) rfl h).weaken fun _ _ => trivial

theorem within_unlink (h : ∀ pointed, required ⊆ pointed → admitted pointed path) : Within admitted required anything (Remote.unlink path) := by
  refine (within_call (q := .unlink path) fun pointed hRequired other hOther => ?_).weaken fun _ _ => trivial
  rw [List.mem_singleton.mp hOther]
  exact h pointed hRequired

theorem within_rename (hSource : ∀ pointed, required ⊆ pointed → admitted pointed source)
    (hTarget : ∀ pointed, required ⊆ pointed → admitted pointed target) : Within admitted required anything (Remote.rename source target) :=
  (within_call_of_both (q := .rename source target) rfl hSource hTarget).weaken fun _ _ => trivial

theorem within_statIfPresent (h : Reserves admitted required path) : Within admitted required anything (statIfPresent path) := by
  refine Program.Keeps.catchError ((within_stat h).bind fun _ _ => .done trivial) fun error => ?_
  split
  · exact .done trivial
  · exact .fail

theorem within_readFilePreviewPrimitive (requestedMaxBytes : Option Nat)
    (h : Reserves admitted required (normalizeSftpPathInput requestedPath)) :
    Within admitted required anything (readFilePreviewPrimitive session requestedPath requestedMaxBytes) := by
  refine within_withOpenSession (within_withMutablePath fun _ => within_reporting ?_)
  refine Program.Keeps.bind (within_stat h) fun stats _ => ?_
  split
  · exact .done trivial
  · refine Program.Keeps.bind (within_call_of_reserves (q := .open _) rfl h) fun handle _ => ?_
    exact Program.Keeps.bind (within_readOpenedFile handle _) fun content _ => .done trivial

theorem within_downloadFilePrimitive (localPath : Option Text) (h : Reserves admitted required (normalizeSftpPathInput requestedPath)) :
    Within admitted required anything (downloadFilePrimitive session requestedPath localPath) := by
  refine within_withOpenSession (within_withMutablePath fun _ => ?_)
  dsimp only
  split
  · exact .done trivial
  · refine within_reporting (Program.Keeps.bind (within_stat h) fun stats _ => ?_)
    split
    · exact .done trivial
    · refine Program.Keeps.bind (within_call_of_reserves (q := .readStream _) rfl h) fun data _ => ?_
      exact Program.Keeps.bind (within_request (q := .localSave _ data) (by simp [Request.touches]))
        fun _ _ => .done trivial

section Replacing

variable {runtime : Runtime} {temporaryPath target : Text}
  (hTemporary : ∀ pointed, required ⊆ pointed → admitted pointed temporaryPath)
  (hTarget : Reserves admitted required target)
include hTemporary hTarget

theorem within_replaceAfterGenericFailure (expected : Option UploadSftpFileConflictSnapshot)
    (renameError : SftpError) : Within admitted required anything
      (replaceAfterGenericFailure session runtime temporaryPath target expected renameError) := by
  have hExpected : Within admitted required anything
      (expected.forM (assertRemoteSnapshotStillMatches session runtime target)) := by
    cases expected with
    | none => exact .done trivial
    | some snapshot =>
      refine Program.Keeps.bind (within_stat hTarget) fun stats _ => ?_
      split
      · exact .fail
      · exact .done trivial
  refine Program.Keeps.bind hExpected fun _ _ => ?_
  refine Program.Keeps.bind (within_unlink fun _ => hTarget.self) fun _ _ => ?_
  exact Program.Keeps.catchError (within_rename hTemporary fun _ => hTarget.self) fun _ => .fail

theorem within_tryOpenSshPosixRename : Within admitted required anything (Remote.tryOpenSshPosixRename session temporaryPath target) := by
  rw [Remote.tryOpenSshPosixRename]
  split
  · exact .done trivial
  · exact Program.Keeps.bind (within_call_of_both (q := .posixRename temporaryPath target) rfl hTemporary
      fun _ => hTarget.self) fun _ _ => .done trivial

theorem within_replaceRemoteFileFromTemp (expected : Option UploadSftpFileConflictSnapshot) : Within admitted required anything
      (replaceRemoteFileFromTemp session runtime temporaryPath target expected) := by
  have hPosix : Within admitted required anything
      (tryCatch (Remote.tryOpenSshPosixRename session temporaryPath target) fun error =>
        if error.isSftpOperationFailure then throw error else pure false) := by
    refine Program.Keeps.catchError (within_tryOpenSshPosixRename hTemporary hTarget) fun error => ?_
    split
    · exact .fail
    · exact .done trivial
  refine Program.Keeps.bind hPosix fun replaced _ => ?_
  split
  · exact .done trivial
  · refine Program.Keeps.catchError (within_rename hTemporary fun _ => hTarget.self) fun renameError => ?_
    split
    · exact .fail
    · exact within_replaceAfterGenericFailure hTemporary hTarget expected renameError

end Replacing

theorem within_unlinkRemoteTempFile (h : ∀ pointed, required ⊆ pointed → admitted pointed path) :
    Within admitted required anything (unlinkRemoteTempFile path) := (within_unlink h).catchError fun _ => .done trivial

variable {runtime : Runtime}

theorem within_overwriteThroughTemporary {transfer : Text → SftpProgram Unit}
    (hTransfer : Within admitted required anything (transfer (temporaryPathFor runtime target)))
    (hTemporary : ∀ pointed, required ⊆ pointed → admitted pointed (temporaryPathFor runtime target))
    (hTarget : Reserves admitted required target) (expected : Option UploadSftpFileConflictSnapshot) : Within admitted required anything
      (overwriteThroughTemporary session runtime transfer target expected) := by
  refine Program.Keeps.catchError (Program.Keeps.bind hTransfer fun _ _ =>
    within_replaceRemoteFileFromTemp hTemporary hTarget expected) fun error => ?_
  exact Program.Keeps.bind (within_unlinkRemoteTempFile hTemporary) fun _ _ => .fail

theorem within_writtenData (path : Text) (stats : Stats) : Within admitted required anything (writtenData session path stats) :=
  Program.Keeps.bind (.ofExcept fun _ _ => trivial : Within admitted required anything
    (Program.ofExcept (formatStatsTimestamp stats.mtime))) fun _ _ => .done trivial

theorem within_writeTextFilePrimitive (content : Bytes) (expected : UploadSftpFileConflictSnapshot) (overwrite : Bool)
    (h : Reserves admitted required (normalizeSftpPathInput requestedPath)) (hTemporary : ∀ pointed, required ⊆ pointed →
      admitted pointed (temporaryPathFor runtime (normalizeSftpPathInput requestedPath))) : Within admitted required anything
      (writeTextFilePrimitive session runtime requestedPath content expected overwrite) := by
  refine within_withOpenSession (within_withMutablePath fun _ => ?_)
  split
  · exact .done trivial
  · refine Program.Keeps.catchError (Program.Keeps.bind (within_stat h) fun stats _ => ?_) fun _ => .done trivial
    split
    · exact .done trivial
    · split
      · exact .done trivial
      · refine Program.Keeps.bind (within_overwriteThroughTemporary ?_ hTemporary h _) fun _ _ => ?_
        · refine (within_call (q := .writeFile _ _ _) fun pointed hRequired other hOther => ?_).weaken
            fun _ _ => trivial
          rw [List.mem_singleton.mp hOther]
          exact hTemporary pointed hRequired
        · exact Program.Keeps.bind (within_stat h) fun written _ => within_writtenData _ written

theorem within_createRemoteFileFromLocalPath (data : Bytes) (mode : Nat) (h : Reserves admitted required path) :
    Within admitted required anything (createRemoteFileFromLocalPath session data path mode) := by
  have hWrite : Within admitted required anything (Remote.uploadStream path data mode) :=
    (within_call_of_reserves (q := .writeStream path data mode) rfl h).weaken fun _ _ => trivial
  refine hWrite.catchError fun error => ?_
  split
  · exact .fail
  · refine Program.Keeps.bind (within_request (q := .streamOpened) (by simp [Request.touches])) fun didOpen _ => ?_
    split
    · exact Program.Keeps.bind (within_unlinkRemoteTempFile fun _ => h.self) fun _ _ => .fail
    · exact .fail

theorem within_sendFile (data : Bytes) (targetStats : Option Stats) (expected : Option UploadSftpFileConflictSnapshot)
    (h : Reserves admitted required path) (hTemporary : ∀ pointed, required ⊆ pointed → admitted pointed (temporaryPathFor runtime path)) :
    Within admitted required anything (sendFile session runtime data path targetStats expected) := by
  cases targetStats with
  | none => exact within_createRemoteFileFromLocalPath data 0o644 h
  | some stats =>
    rw [sendFile, uploadLocalFileToRemotePath]
    refine within_overwriteThroughTemporary ?_ hTemporary h expected
    refine (within_call (q := .writeStream _ _ _) fun pointed hRequired other hOther => ?_).weaken fun _ _ => trivial
    rw [List.mem_singleton.mp hOther]
    exact hTemporary pointed hRequired

theorem within_uploadFilePrimitive (localPath : Option Text) (expected : Option UploadSftpFileConflictSnapshot)
    (overwrite : Bool) (h : Reserves admitted required (normalizeSftpPathInput requestedPath)) (hTemporary : ∀ pointed, required ⊆ pointed →
      admitted pointed (temporaryPathFor runtime (normalizeSftpPathInput requestedPath))) : Within admitted required anything
      (uploadFilePrimitive session runtime requestedPath localPath expected overwrite) := by
  refine within_withOpenSession (within_withMutablePath fun _ => ?_)
  dsimp only
  split
  · exact .done trivial
  · refine Program.Keeps.bind (within_request (q := .localInsideTemporaryRoot _) (by simp [Request.touches]))
      fun isInside _ => ?_
    split
    · exact .done trivial
    · refine Program.Keeps.catchError (Program.Keeps.bind (within_statIfPresent h) fun targetStats _ => ?_)
        fun _ => .done trivial
      split
      · exact .done trivial
      · refine Program.Keeps.bind (within_request (q := .localSource _) (by simp [Request.touches]))
          fun source _ => ?_
        split
        · exact .done trivial
        · refine Program.Keeps.bind (within_sendFile _ targetStats _ h hTemporary) fun _ _ => ?_
          exact Program.Keeps.bind (within_stat h) fun uploaded _ => within_writtenData _ uploaded

theorem within_createFilePrimitive (h : Reserves admitted required (normalizeSftpPathInput requestedPath)) :
    Within admitted required anything (createFilePrimitive session requestedPath) := by
  refine within_withOpenSession (within_withMutablePath fun _ => within_reporting ?_)
  exact Program.Keeps.bind (within_call_of_reserves (q := .writeFile _ _ _) rfl h) fun _ _ => .done trivial

theorem within_mkdir (mode : Nat) (h : Reserves admitted required path) : Within admitted required anything (Remote.mkdir path mode) :=
  (within_call_of_reserves (q := .mkdir path mode) rfl h).weaken fun _ _ => trivial

theorem within_createDirectoryPrimitive (h : Reserves admitted required (normalizeSftpPathInput requestedPath)) :
    Within admitted required anything (createDirectoryPrimitive session requestedPath) := by
  refine within_withOpenSession (within_withMutablePath fun _ => within_reporting ?_)
  exact Program.Keeps.bind (within_mkdir 0o755 h) fun _ _ => .done trivial

theorem within_renameEntryPrimitive (hSource : Reserves admitted required (normalizeSftpPathInput requestedSourcePath))
    (hTarget : isMutableSftpEntryPath (normalizeSftpPathInput requestedTargetPath) = true →
      Reserves admitted required (normalizeSftpPathInput requestedTargetPath)) : Within admitted required anything
      (renameEntryPrimitive session requestedSourcePath requestedTargetPath) := by
  refine within_withOpenSession (within_withMutablePaths fun hMutable => ?_)
  split
  · exact .done trivial
  · refine within_reporting (Program.Keeps.bind (within_lstat hSource) fun stats _ => ?_)
    split
    · exact .fail
    · exact Program.Keeps.bind (within_rename (fun _ => hSource.self) fun _ => (hTarget hMutable).self)
        fun _ _ => .done trivial

theorem within_pathExists (h : Reserves admitted required path) : Within admitted required anything (pathExists path) :=
  Program.Keeps.bind (within_statIfPresent h) fun _ _ => .done trivial

theorem within_firstAvailableCopyPath (h : ∀ attempt,
      Reserves admitted required (buildSftpCopyTargetCandidate target attempt)) (remaining attempt : Nat) :
    Within admitted required (Reserves admitted required) (firstAvailableCopyPath session target remaining attempt) := by
  induction remaining generalizing attempt with
  | zero => exact .fail
  | succ remaining ih =>
    refine Program.Keeps.bind (within_pathExists (h attempt)) fun isTaken _ => ?_
    split
    · exact ih (attempt + 1)
    · exact .done (h attempt)

theorem within_resolveAvailableCopyPath (h : ∀ attempt, Reserves admitted required (buildSftpCopyTargetCandidate target attempt)) :
    Within admitted required (Reserves admitted required) (resolveAvailableCopyPath session target) := within_firstAvailableCopyPath h 100 0

theorem plain_of_mem_childNames {entries : List SftpDirectoryEntry} (h : ListsNames (.readdir path) (.ok entries)) {name : Text}
    (hName : name ∈ childNames entries) : Plain name := by
  obtain ⟨hMem, hSpecial⟩ := List.mem_filter.mp hName
  obtain ⟨entry, hEntry, rfl⟩ := List.mem_map.mp hMem
  exact h entry hEntry (by simpa using hSpecial)

theorem within_readdir (h : Reserves admitted required path) :
    Within admitted required (fun entries => ListsNames (.readdir path) (.ok entries)) (Remote.readdir path) :=
  within_call_of_reserves (q := .readdir path) rfl h

variable (depth : Nat)

theorem within_copyEntryRecursive (hSource : Reserves admitted required source) (hTarget : Reserves admitted required target) :
    Within admitted required anything (copyEntryRecursive session depth source target) := by
  induction depth generalizing source target with
  | zero => exact .fail
  | succ depth ih =>
    refine Program.Keeps.bind (within_lstat hSource) fun stats _ => ?_
    split
    · refine Program.Keeps.bind (within_mkdir _ hTarget) fun _ _ => ?_
      refine Program.Keeps.bind (within_readdir hSource) fun children hNames => ?_
      refine Program.Keeps.bind (within_forEach fun name hName => ?_) fun _ _ => .done trivial
      have hPlain := plain_of_mem_childNames hNames hName
      exact ih (hSource.child hPlain) (hTarget.child hPlain)
    · split
      · exact (within_call_of_both (q := .copyStream source target _) rfl (fun _ => hSource.self)
          fun _ => hTarget.self).weaken fun _ _ => trivial
      · exact .fail

theorem within_copyEntryPrimitive (hSource : Reserves admitted required (normalizeSftpPathInput requestedSourcePath))
    (hTarget : isMutableSftpEntryPath (normalizeSftpPathInput requestedTargetPath) = true → ∀ attempt, Reserves admitted required
        (buildSftpCopyTargetCandidate (normalizeSftpPathInput requestedTargetPath) attempt)) : Within admitted required anything
      (copyEntryPrimitive session depth requestedSourcePath requestedTargetPath) := by
  refine within_withOpenSession (within_withMutablePaths fun hMutable => within_reporting ?_)
  refine Program.Keeps.bind (within_resolveAvailableCopyPath (hTarget hMutable)) fun target hReserves => ?_
  split
  · exact .fail
  · exact Program.Keeps.bind (within_copyEntryRecursive depth hSource hReserves) fun _ _ => .done trivial

theorem within_linkEntryPrimitive (hSource : Reserves admitted required (normalizeSftpPathInput requestedSourcePath))
    (hTarget : isMutableSftpEntryPath (normalizeSftpPathInput requestedTargetPath) = true → ∀ attempt, Reserves admitted required
        (buildSftpCopyTargetCandidate (normalizeSftpPathInput requestedTargetPath) attempt)) :
    Within admitted required anything (linkEntryPrimitive session requestedSourcePath requestedTargetPath) := by
  refine within_withOpenSession (within_withMutablePaths fun hMutable => within_reporting ?_)
  refine Program.Keeps.bind (within_resolveAvailableCopyPath (hTarget hMutable)) fun target hReserves => ?_
  exact Program.Keeps.bind (within_call_of_both (q := .symlink _ _) rfl (fun _ => hSource.self)
    fun _ => hReserves.self) fun _ _ => .done trivial

theorem within_rmdir (h : Reserves admitted required path) : Within admitted required anything (Remote.rmdir path) :=
  (within_call_of_reserves (q := .rmdir path) rfl h).weaken fun _ _ => trivial

theorem within_deleteEntryRecursive (recursive : Bool) (h : Reserves admitted required target) :
    Within admitted required anything (deleteEntryRecursive depth target recursive) := by
  induction depth generalizing target recursive with
  | zero => exact .fail
  | succ depth ih =>
    refine Program.Keeps.bind (within_lstat h) fun stats _ => ?_
    split
    · exact within_unlink fun _ => h.self
    · split
      · exact within_rmdir h
      · refine Program.Keeps.bind (within_readdir h) fun entries hNames => ?_
        refine Program.Keeps.bind (within_forEach fun name hName => ?_) fun _ _ => within_rmdir h
        exact ih true (h.child (plain_of_mem_childNames hNames hName))

theorem within_deleteEntryPrimitive (recursive : Bool) (h : Reserves admitted required (normalizeSftpPathInput requestedPath)) :
    Within admitted required anything (deleteEntryPrimitive session depth requestedPath recursive) := by
  refine within_withOpenSession (within_withMutablePath fun _ => within_reporting ?_)
  exact Program.Keeps.bind (within_deleteEntryRecursive depth recursive h) fun _ _ => .done trivial

theorem within_runSingleBatchEntryOperation (operation : SftpBatchOperation) (entry : SftpBatchOperationEntry)
    (targetDirectoryPath : Option Text) (hEntry : Reserves admitted required (normalizeSftpPathInput (some entry.path)))
    (hTarget : operation ≠ .delete → ∀ attempt, Reserves admitted required (buildSftpCopyTargetCandidate
      (normalizeSftpPathInput (some (joinSftpPath (targetDirectoryPath.getD ".".toList) (basename entry.path)))) attempt)) :
    Within admitted required anything (runSingleBatchEntryOperation session depth operation entry targetDirectoryPath) := by
  cases operation with
  | delete => exact within_deleteEntryPrimitive depth _ hEntry
  | copy => exact within_copyEntryPrimitive depth hEntry fun _ => hTarget (by decide)
  | link => exact within_linkEntryPrimitive hEntry fun _ => hTarget (by decide)
  | move => exact within_renameEntryPrimitive hEntry fun _ => hTarget (by decide) 0

theorem within_runBatchEntries (operation : SftpBatchOperation) (targetDirectoryPath : Option Text)
    (entries : List SftpBatchOperationEntry) (h : ∀ entry ∈ entries, Within admitted required anything
      (runSingleBatchEntryOperation session depth operation entry targetDirectoryPath)) :
    Within admitted required anything (runBatchEntries session depth operation targetDirectoryPath entries) := by
  induction entries with
  | nil => exact .done trivial
  | cons entry entries ih =>
    refine Program.Keeps.bind (h entry List.mem_cons_self) fun result _ => ?_
    cases result with
    | success data =>
      exact Program.Keeps.bind (ih fun other hOther => h other (List.mem_cons_of_mem entry hOther))
        fun _ _ => .done trivial
    | failed message remoteConflict metadata => exact .done trivial
    | notFound => exact .done trivial

def batchTarget (input : RunSftpBatchOperationInput) : Option Text :=
  (input.targetDirectoryPath.filter (· ≠ [])).map fun path => normalizeSftpPathInput (some path)

theorem within_runBatchOperationPrimitive (input : RunSftpBatchOperationInput)
    (h : ∀ entry ∈ input.entries, isMutableSftpEntryPath (normalizeSftpPathInput (some entry.path)) = true →
      (input.operation ≠ .delete → batchTarget input ≠ none) → Within admitted required anything
        (runSingleBatchEntryOperation session depth input.operation
          ⟨normalizeSftpPathInput (some entry.path), entry.type⟩ (batchTarget input))) :
    Within admitted required anything (runBatchOperationPrimitive session depth input) := by
  refine within_withOpenSession ?_
  dsimp only
  split
  · exact .done trivial
  · split
    · exact .done trivial
    · rename_i hTarget
      split
      · exact .done trivial
      · rename_i hMutable
        refine Program.Keeps.bind (within_runBatchEntries depth input.operation _ _ ?_) fun _ _ => .done trivial
        intro entry hEntry
        obtain ⟨source, hSource, rfl⟩ := List.mem_map.mp hEntry
        have hAll : ∀ e ∈ normalizeBatchEntries input.entries, isMutableSftpEntryPath e.path = true := by
          simpa using hMutable
        refine h source hSource (hAll _ hEntry) fun hOperation hNone => hTarget ⟨hOperation, hNone⟩

theorem within_resolveSymlinkTargetMetadata {linkPath : Text} (h : Reserves admitted required linkPath)
    (hPointed : ∀ pointed, ∀ path ∈ pointed, admitted pointed path) :
    Within admitted required anything (resolveSymlinkTargetMetadata session linkPath) := by
  refine Program.Keeps.catchError ?_ fun error => ?_
  · intro pointed hRequired
    have hRead : Program.Safe anyServer (fun pointed q => ∀ path ∈ q.touches, admitted pointed path)
        (fun outcome pointed' => required ⊆ pointed' ∧ ∀ target, outcome = .ok target →
          resolveSymlinkTargetPath linkPath target ∈ pointed') (Remote.readlink linkPath) pointed := by
      refine safe_call "readlink" .read (.readlink linkPath) ?_ ?_
      · intro path hPath
        rw [List.mem_singleton.mp hPath]
        exact h.self hRequired
      · rintro result _ ⟨-, rfl⟩
        refine ⟨List.subset_append_of_subset_right _ hRequired, fun target hTarget => ?_⟩
        cases result with
        | error e => cases hTarget
        | ok answered =>
          cases hTarget
          exact List.mem_cons_self
    refine hRead.bind ?_ fun e pointed' hAfter => ⟨hAfter.1, fun _ _ => trivial⟩
    rintro target pointed' ⟨hKept, hTarget⟩
    have hStat : Within admitted (resolveSymlinkTargetPath linkPath target :: required) anything
        (Remote.stat (resolveSymlinkTargetPath linkPath target)) := by
      refine (within_call (q := .stat _) fun pointed hIncluded path hPath => ?_).weaken fun _ _ => trivial
      rw [List.mem_singleton.mp hPath]
      exact hPointed pointed _ (hIncluded List.mem_cons_self)
    refine safe_of_within ?_ hKept (hTarget target rfl)
    refine Program.Keeps.catchError (Program.Keeps.bind hStat fun stats _ => ?_) fun error => ?_
    · refine Program.Keeps.bind (.ofExcept fun _ _ => trivial : Within admitted _ anything
        (Program.ofExcept (formatStatsTimestamp stats.mtime))) fun modifiedAt _ => ?_
      exact Program.Keeps.bind (.ofExcept fun _ _ => trivial : Within admitted _ anything
        (Program.ofExcept (formatStatsTimestamp stats.atime))) fun accessedAt _ => .done trivial
    · split
      · exact .fail
      · exact .done trivial
  · split
    · exact .fail
    · exact .done trivial

theorem within_describeEntry (name : Text) (stats : Stats) (longname : Option Text) (h : Reserves admitted required path)
    (hPointed : ∀ pointed, ∀ other ∈ pointed, admitted pointed other) :
    Within admitted required anything (describeEntry session name path stats longname) := by
  have hTarget : Within admitted required anything (symlinkTargetOf session path stats) := by
    rw [symlinkTargetOf]
    split
    · exact Program.Keeps.bind (within_resolveSymlinkTargetMetadata h hPointed) fun _ _ => .done trivial
    · exact .done trivial
  exact Program.Keeps.bind hTarget fun _ _ => .ofExcept fun _ _ => trivial

theorem within_describeRequestedPath {requestedPath : Text} (h : Reserves admitted required (normalizeSftpPathInput (some requestedPath)))
    (hPointed : ∀ pointed, ∀ other ∈ pointed, admitted pointed other) :
    Within admitted required anything (describeRequestedPath session requestedPath) := by
  rw [describeRequestedPath]
  split
  · refine Program.Keeps.catchError (Program.Keeps.bind (within_lstat h) fun stats _ => ?_) fun _ => .done trivial
    exact Program.Keeps.bind (within_describeEntry _ stats none h hPointed) fun _ _ => .done trivial
  · exact .done trivial

theorem within_getEntryDetailsPrimitive {requestedPaths : List Text}
    (h : ∀ path ∈ requestedPaths, Reserves admitted required (normalizeSftpPathInput (some path)))
    (hPointed : ∀ pointed, ∀ other ∈ pointed, admitted pointed other) :
    Within admitted required anything (getEntryDetailsPrimitive session requestedPaths) := by
  refine within_withOpenSession (Program.Keeps.bind (within_forEach fun path hPath => ?_) fun _ _ => .done trivial)
  exact within_describeRequestedPath (h path hPath) hPointed

theorem within_listResolved {collation : Collation} {resolvedPath : Text} (h : Reserves admitted required resolvedPath)
    (hPointed : ∀ pointed, ∀ other ∈ pointed, admitted pointed other) :
    Within admitted required anything (listResolved session collation resolvedPath) := by
  refine Program.Keeps.bind (within_readdir h) fun entries hNames => ?_
  refine Program.Keeps.bind (within_promiseAll fun entry hEntry => ?_) fun _ _ => .done trivial
  obtain ⟨hMem, hSpecial⟩ := List.mem_filter.mp hEntry
  exact within_describeEntry _ entry.attrs _ (h.child (hNames entry hMem (by simpa using hSpecial))) hPointed

theorem safe_resolveRealPath_points (h : admitted pointed path) :
    Program.Safe anyServer (fun pointed q => ∀ path ∈ q.touches, admitted pointed path)
      (fun outcome pointed' => ∀ resolved, outcome = .ok (some resolved) → resolved ∈ pointed') (resolveRealPath path) pointed := by
  have hReal : Program.Safe anyServer (fun pointed q => ∀ path ∈ q.touches, admitted pointed path)
      (fun outcome pointed' => ∀ resolved, outcome = .ok resolved → resolved ∈ pointed')
      (Remote.realpath path) pointed := by
    refine safe_call "realpath" .read (.realpath path) ?_ ?_
    · intro other hOther
      rw [List.mem_singleton.mp hOther]
      exact h
    · rintro result _ ⟨-, rfl⟩ resolved hResolved
      cases result with
      | error e => cases hResolved
      | ok answered =>
        cases hResolved
        exact List.mem_cons_self
  have hMapped : Program.Safe anyServer (fun pointed q => ∀ path ∈ q.touches, admitted pointed path)
      (fun outcome pointed' => ∀ resolved, outcome = .ok (some resolved) → resolved ∈ pointed')
      (some <$> Remote.realpath path) pointed := by
    refine hReal.bind ?_ ?_
    · rintro resolved pointed' hResolved _ ⟨⟩
      exact hResolved resolved rfl
    · rintro e pointed' _ _ ⟨⟩
  refine hMapped.catchError (fun _ _ hAfter => hAfter) ?_
  intro e pointed' _
  split
  · rintro _ ⟨⟩
  · rintro _ ⟨⟩

theorem within_listDirectoryPrimitive {collation : Collation} (h : Reserves admitted [] (normalizeSftpPathInput requestedPath))
    (hPointed : ∀ pointed, ∀ path ∈ pointed, ∀ other, Below path other → admitted pointed other) :
    Within admitted [] anything (listDirectoryPrimitive session collation requestedPath) := by
  have hSelf : ∀ pointed, ∀ path ∈ pointed, admitted pointed path :=
    fun pointed path hPath => hPointed pointed path hPath path (.refl path)
  refine within_withOpenSession (within_reporting ?_)
  intro pointed hRequired
  refine Program.Safe.bind (safe_resolveRealPath_points (h.self hRequired)) ?_ fun e pointed' _ =>
    ⟨List.nil_subset _, fun _ _ => trivial⟩
  intro resolved pointed' hResolved
  cases hFilter : resolved.filter (· ≠ []) with
  | none => exact ⟨List.nil_subset _, fun _ _ => trivial⟩
  | some resolvedPath =>
    obtain ⟨hSome, hNonempty⟩ := Option.filter_eq_some_iff.mp hFilter
    refine safe_of_within (within_listResolved ⟨by simpa using hNonempty, ?_⟩ hSelf) (List.nil_subset _)
      (hResolved resolvedPath (congrArg _ hSome))
    exact fun pointed hIncluded other hOther => hPointed pointed resolvedPath (hIncluded List.mem_cons_self) other hOther

end Within

end Sftp
