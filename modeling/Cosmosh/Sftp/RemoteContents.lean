import Mathlib.Logic.Function.Basic
import Cosmosh.Sftp.EntryOperations

/-! # What reading and writing a file do to its content

The server describes a file by its length, reads as many bytes as it likes but at least one before the end, and may
refuse any request.
-/

namespace Sftp

open Library Library.JsText Library.PosixPath

structure RemoteFiles where
  home : List Text
  files : List Text → Option Bytes
  handles : Nat → Option (List Text)

variable {place : List Text}

namespace RemoteFiles

def locate (remote : RemoteFiles) (path : Text) : List Text := resolveFrom remote.home path

def put (remote : RemoteFiles) (place : List Text) (content : Option Bytes) : RemoteFiles :=
  { remote with files := Function.update remote.files place content }

def opened (remote : RemoteFiles) (handle : Nat) (place : List Text) : RemoteFiles :=
  { remote with handles := Function.update remote.handles handle (some place) }

@[simp] theorem locate_put (remote : RemoteFiles) (place : List Text) (content : Option Bytes) (path : Text) :
    (remote.put place content).locate path = remote.locate path := rfl

@[simp] theorem files_put_self (remote : RemoteFiles) (place : List Text) (content : Option Bytes) :
    (remote.put place content).files place = content := Function.update_self ..

theorem files_put_of_ne (remote : RemoteFiles) {other : List Text} (content : Option Bytes) (hOther : other ≠ place) :
    (remote.put place content).files other = remote.files other := Function.update_of_ne hOther ..

def ReadsFrom (remote : RemoteFiles) (handle length position : Nat) (chunk : Bytes) : Prop :=
  ∃ place content, remote.handles handle = some place ∧ remote.files place = some content ∧
    chunk <+: (content.drop position).take length ∧ (chunk = [] → (content.drop position).take length = [])

def Moves (remote : RemoteFiles) (sourcePath targetPath : Text) (remote' : RemoteFiles) : Prop :=
  ∃ content, remote.files (remote.locate sourcePath) = some content ∧
    remote' = (remote.put (remote.locate sourcePath) none).put (remote.locate targetPath) (some content)

end RemoteFiles

def remoteContents : Program.Effect Request Request.Answer SftpError RemoteFiles := fun remote q result remote' =>
  match q, result with
  | .stat path, .ok stats => remote' = remote ∧
    ∀ content, remote.files (remote.locate path) = some content → stats.size = some content.length
  | .open path, .ok handle => remote' = remote.opened handle (remote.locate path)
  | .read handle length position, .ok chunk => remote' = remote ∧ remote.ReadsFrom handle length position chunk
  | .writeFile path data _, .ok _ => remote' = remote.put (remote.locate path) (some data)
  | .writeFile path _ _, .error _ => ∃ written, remote' = remote.put (remote.locate path) written
  | .rename sourcePath targetPath, .ok _ => remote.Moves sourcePath targetPath remote'
  | .posixRename sourcePath targetPath, .ok _ => remote.Moves sourcePath targetPath remote'
  | .unlink path, .ok _ => remote' = remote.put (remote.locate path) none
  | _, _ => remote' = remote

structure SameFiles (remote remote' : RemoteFiles) : Prop where
  home : remote'.home = remote.home
  files : remote'.files = remote.files

abbrev Ends {α : Type} (after : Except SftpError α → RemoteFiles → Prop) (program : SftpProgram α)
    (remote : RemoteFiles) : Prop := Program.Safe remoteContents (fun _ _ => True) after program remote

variable {remote : RemoteFiles}

theorem ends_call {operation : String} {impact : SftpOperationImpact} {q : Request} {after : Except SftpError q.Answer → RemoteFiles → Prop}
    (hOk : ∀ a remote', remoteContents remote q (.ok a) remote' → after (.ok a) remote')
    (hError : ∀ e e' remote', remoteContents remote q (.error e) remote' → after (.error e') remote') :
    Ends after (call operation impact q) remote := by
  refine safe_call operation impact q trivial ?_
  rintro (e | a) remote' hEffect
  · exact hError e _ remote' hEffect
  · exact hOk a remote' hEffect

theorem ends_tryCatch {α : Type} {program : SftpProgram α} {handler : SftpError → SftpProgram α}
    {after : Except SftpError α → RemoteFiles → Prop} (hProgram : Ends after program remote)
    (hHandler : ∀ e remote', after (.error e) remote' → Ends after (handler e) remote') : Ends after (tryCatch program handler) remote :=
  hProgram.catchError (fun _ _ hAfter => hAfter) hHandler

theorem ends_getOpenSession (remote : RemoteFiles) : Ends (fun _ remote' => remote' = remote) getOpenSession remote :=
  Program.Safe.request (q := Request.sessionOpen) trivial fun _ _ hEffect => hEffect

theorem ends_stat (remote : RemoteFiles) (path : Text) : Ends (fun outcome remote' => remote' = remote ∧ ∀ stats, outcome = .ok stats →
      ∀ content, remote.files (remote.locate path) = some content → stats.size = some content.length) (Remote.stat path) remote := by
  refine ends_call ?_ fun _ _ _ hEffect => ⟨hEffect, nofun⟩
  rintro stats remote' ⟨hSame, hSize⟩
  refine ⟨hSame, ?_⟩
  rintro _ ⟨⟩
  exact hSize

theorem ends_openForReading (remote : RemoteFiles) (path : Text) :
    Ends (fun outcome remote' => SameFiles remote remote' ∧ ∀ handle, outcome = .ok handle →
      remote'.handles handle = some (remote.locate path)) (Remote.openForReading path) remote := by
  refine ends_call ?_ ?_
  · rintro handle _ rfl
    refine ⟨⟨rfl, rfl⟩, ?_⟩
    rintro _ ⟨⟩
    exact Function.update_self ..
  · rintro _ _ _ rfl
    exact ⟨⟨rfl, rfl⟩, nofun⟩

theorem ends_read (remote : RemoteFiles) (handle length position : Nat) :
    Ends (fun outcome remote' => remote' = remote ∧ ∀ chunk, outcome = .ok chunk →
      remote.ReadsFrom handle length position chunk) (Remote.read handle length position) remote := by
  refine ends_call ?_ fun _ _ _ hEffect => ⟨hEffect, nofun⟩
  rintro chunk remote' ⟨hSame, hReads⟩
  refine ⟨hSame, ?_⟩
  rintro _ ⟨⟩
  exact hReads

variable {content : Bytes} {length : Nat}

theorem isPrefix_append_chunk {buffer chunk : Bytes} (hBuffer : buffer <+: content)
    (hChunk : chunk <+: (content.drop buffer.length).take length) : buffer ++ chunk <+: content := by
  obtain ⟨rest, rfl⟩ := hBuffer
  rw [List.drop_left] at hChunk
  exact (List.prefix_append_right_inj buffer).mpr (hChunk.trans (List.take_prefix length rest))

theorem ends_readFullyIntoBuffer {handle : Nat} (hHandle : remote.handles handle = some place)
    (hContent : remote.files place = some content) (rounds : Nat) (buffer : Bytes) (hBuffer : buffer <+: content)
    (hLength : buffer.length ≤ length) (hRounds : length ≤ buffer.length + rounds) :
    Ends (fun outcome remote' => remote' = remote ∧ ∀ bytes, outcome = .ok bytes → bytes = content.take length)
      (readFullyIntoBuffer handle length rounds buffer) remote := by
  induction rounds generalizing buffer with
  | zero =>
    refine ⟨rfl, ?_⟩
    rintro _ ⟨⟩
    obtain rfl : buffer.length = length := by omega
    exact List.prefix_iff_eq_take.mp hBuffer
  | succ rounds ih =>
    rw [readFullyIntoBuffer]
    split
    · rename_i hMore
      refine (ends_read remote handle _ _).bind ?_ ?_
      · rintro chunk _ ⟨rfl, hReads⟩
        obtain ⟨place', content', hPlace, hFile, hPrefix, hEnd⟩ := hReads chunk rfl
        obtain rfl : place = place' := Option.some.inj (hHandle.symm.trans hPlace)
        obtain rfl : content = content' := Option.some.inj (hContent.symm.trans hFile)
        have hShort := hPrefix.length_le
        rw [List.length_take] at hShort
        split
        · rename_i hEmpty
          refine ⟨rfl, ?_⟩
          rintro _ ⟨⟩
          have hNothing := congrArg List.length (hEnd hEmpty)
          simp only [List.length_take, List.length_drop, List.length_nil] at hNothing
          have hWhole : buffer = content := hBuffer.eq_of_length_le (by omega)
          rw [← hWhole, List.take_of_length_le hLength]
        · rename_i hSome
          have hPositive := List.length_pos_iff.mpr hSome
          refine ih (buffer ++ chunk) (isPrefix_append_chunk hBuffer hPrefix) ?_ ?_
          · rw [List.length_append]
            omega
          · rw [List.length_append]
            omega
      · rintro e remote' ⟨hSame, -⟩
        exact ⟨hSame, nofun⟩
    · refine ⟨rfl, ?_⟩
      rintro _ ⟨⟩
      obtain rfl : buffer.length = length := by omega
      exact List.prefix_iff_eq_take.mp hBuffer

theorem ends_readOpenedFile {handle : Nat} (hHandle : remote.handles handle = some place) (hContent : remote.files place = some content) :
    Ends (fun outcome remote' => remote' = remote ∧ ∀ bytes, outcome = .ok bytes → bytes = content.take length)
      (readOpenedFile handle length) remote := by
  have hRead : Ends (fun outcome remote' => remote' = remote ∧ ∀ bytes, outcome = .ok bytes →
      bytes = content.take length)
      (if length > 0 then readFullyIntoBuffer handle length length [] else pure []) remote := by
    split
    · exact ends_readFullyIntoBuffer hHandle hContent length [] List.nil_prefix (Nat.zero_le _) (by simp)
    · rename_i hZero
      refine ⟨rfl, ?_⟩
      rintro _ ⟨⟩
      obtain rfl : length = 0 := by omega
      rfl
  refine hRead.attempt.bind ?_ ?_
  · rintro outcome remote' ⟨result, hOutcome, rfl, hBytes⟩
    obtain rfl := Except.ok.inj hOutcome
    have hClose : Ends (fun _ remote'' => remote'' = remote') (Remote.closeHandle handle) remote' :=
      ends_call (fun _ _ hEffect => hEffect) fun _ _ _ hEffect => hEffect
    refine hClose.attempt.bind ?_ ?_
    · rintro _ remote'' ⟨_, -, rfl⟩
      exact Program.safe_ofExcept.mpr ⟨rfl, hBytes⟩
    · rintro _ _ ⟨_, hNever, -⟩
      cases hNever
  · rintro _ _ ⟨_, hNever, -⟩
    cases hNever

structure Previews (bytes : Bytes) (maxBytes : Nat) (data : SftpFilePreview) : Prop where
  content : data.content = bytes.take (min bytes.length maxBytes)
  size : data.size = some bytes.length
  truncated : data.truncated = decide (maxBytes < bytes.length)

def Shows (remote : RemoteFiles) (content : Bytes) (maxBytes : Nat)
    (outcome : Except SftpError (SftpResult SftpFilePreview)) (remote' : RemoteFiles) : Prop :=
  SameFiles remote remote' ∧ ∀ data, outcome = .ok (.success data) → Previews content maxBytes data

variable {remote' : RemoteFiles}

theorem shows_of_no_success {maxBytes : Nat} {outcome : Except SftpError (SftpResult SftpFilePreview)}
    (hSame : SameFiles remote remote') (hNone : ∀ data, outcome ≠ .ok (.success data)) : Shows remote content maxBytes outcome remote' :=
  ⟨hSame, fun data hSuccess => absurd hSuccess (hNone data)⟩

theorem ends_readFilePreviewPrimitive (session : SftpLiveSession) {path : Text}
    (hContent : remote.files (remote.locate (normalizeSftpPathInput (some path))) = some content) (maxBytes : Nat) :
    Ends (Shows remote content (normalizeReadFileMaxBytes (some maxBytes)))
      (readFilePreviewPrimitive session (some path) (some maxBytes)) remote := by
  have hNothing : SameFiles remote remote := ⟨rfl, rfl⟩
  refine (ends_getOpenSession remote).bind ?_ ?_
  · rintro isOpen remote rfl
    split
    · rw [withMutablePath]
      split
      · refine ends_tryCatch ?_ fun _ _ hShows => shows_of_no_success hShows.1 nofun
        refine (ends_stat remote _).bind ?_ ?_
        · rintro stats remote ⟨rfl, hStats⟩
          have hSize := hStats stats rfl content hContent
          split
          · exact shows_of_no_success hNothing nofun
          · refine (ends_openForReading remote _).bind ?_ ?_
            · rintro handle opened ⟨hSame, hHandle⟩
              have hFile : opened.files (remote.locate (normalizeSftpPathInput (some path))) = some content := hSame.files ▸ hContent
              refine (ends_readOpenedFile (hHandle handle rfl) hFile).bind ?_ ?_
              · rintro bytes opened ⟨rfl, hBytes⟩
                refine ⟨hSame, ?_⟩
                rintro _ ⟨⟩
                refine ⟨?_, hSize, ?_⟩
                · rw [hBytes bytes rfl, hSize]
                  rfl
                · simp only [hSize, Option.getD_some]
              · rintro e opened ⟨rfl, -⟩
                exact shows_of_no_success hSame nofun
            · rintro e opened ⟨hSame, -⟩
              exact shows_of_no_success hSame nofun
        · rintro e remote ⟨rfl, -⟩
          exact shows_of_no_success hNothing nofun
      · exact shows_of_no_success hNothing nofun
    · exact shows_of_no_success hNothing nofun
  · rintro e remote rfl
    exact shows_of_no_success hNothing nofun

def Leaves (home place : List Text) (content : Bytes) : Except SftpError Unit → RemoteFiles → Prop
  | .ok _, remote' => remote'.home = home ∧ remote'.files place = some content
  | .error _, remote' => remote'.home = home

def Renames (remote : RemoteFiles) (place : List Text) (content : Bytes) : Except SftpError Unit → RemoteFiles → Prop
  | .ok _, remote' => remote'.home = remote.home ∧ remote'.files place = some content
  | .error _, remote' => remote' = remote

def TriesRename (remote : RemoteFiles) (place : List Text) (content : Bytes) :
    Except SftpError Bool → RemoteFiles → Prop
  | .ok true, remote' => remote'.home = remote.home ∧ remote'.files place = some content
  | .ok false, remote' => remote' = remote
  | .error _, remote' => remote' = remote

variable (session : SftpLiveSession) (runtime : Runtime)

section Replacing

variable {remote : RemoteFiles} {temporaryPath targetPath : Text} {content : Bytes}
  (hTemporary : remote.files (remote.locate temporaryPath) = some content)
include hTemporary

theorem moves_leaves (hMoves : remote.Moves temporaryPath targetPath remote') :
    remote'.home = remote.home ∧ remote'.files (remote.locate targetPath) = some content := by
  obtain ⟨moved, hMoved, rfl⟩ := hMoves
  obtain rfl : content = moved := Option.some.inj (hTemporary.symm.trans hMoved)
  exact ⟨rfl, RemoteFiles.files_put_self ..⟩

theorem ends_rename : Ends (Renames remote (remote.locate targetPath) content) (Remote.rename temporaryPath targetPath) remote :=
  ends_call (fun _ _ hMoves => moves_leaves hTemporary hMoves) fun _ _ _ hSame => hSame

theorem ends_posixRename : Ends (Renames remote (remote.locate targetPath) content) (Remote.posixRename temporaryPath targetPath) remote :=
  ends_call (fun _ _ hMoves => moves_leaves hTemporary hMoves) fun _ _ _ hSame => hSame

theorem ends_replaceAfterGenericFailure (hApart : remote.locate temporaryPath ≠ remote.locate targetPath)
    (expected : Option UploadSftpFileConflictSnapshot) (renameError : SftpError) : Ends (Leaves remote.home (remote.locate targetPath) content)
      (replaceAfterGenericFailure session runtime temporaryPath targetPath expected renameError) remote := by
  have hChecked : Ends (fun _ remote' => remote' = remote)
      (expected.forM (assertRemoteSnapshotStillMatches session runtime targetPath)) remote := by
    cases expected with
    | none => exact rfl
    | some snapshot =>
      refine (ends_stat remote targetPath).bind ?_ ?_
      · rintro stats _ ⟨rfl, -⟩
        split
        · exact rfl
        · exact rfl
      · rintro _ _ ⟨rfl, -⟩
        exact rfl
  have hUnlink : Ends (fun outcome remote' => match outcome with
      | .ok _ => remote' = remote.put (remote.locate targetPath) none
      | .error _ => remote' = remote) (Remote.unlink targetPath) remote := ends_call (fun _ _ hRemoved => hRemoved) fun _ _ _ hSame => hSame
  refine hChecked.bind ?_ ?_
  · rintro _ remote rfl
    refine hUnlink.bind ?_ ?_
    · rintro _ removed hRemoved
      subst hRemoved
      let emptied := remote.put (remote.locate targetPath) none
      have hKept : emptied.files (emptied.locate temporaryPath) = some content :=
        (RemoteFiles.files_put_of_ne remote none hApart).trans hTemporary
      have hRename : Ends (Renames emptied (emptied.locate targetPath) content)
          (Remote.rename temporaryPath targetPath) emptied := ends_rename hKept
      refine hRename.catchError (fun _ _ hAfter => hAfter) ?_
      rintro _ _ rfl
      exact rfl
    · rintro _ _ rfl
      exact rfl
  · rintro _ _ rfl
    exact rfl

theorem ends_tryPosixRename : Ends (TriesRename remote (remote.locate targetPath) content)
    (tryCatch (Remote.tryOpenSshPosixRename session temporaryPath targetPath) fun error =>
      if error.isSftpOperationFailure then throw error else pure false) remote := by
  have hTry : Ends (TriesRename remote (remote.locate targetPath) content)
      (Remote.tryOpenSshPosixRename session temporaryPath targetPath) remote := by
    rw [Remote.tryOpenSshPosixRename]
    split
    · exact rfl
    · exact (ends_posixRename hTemporary).bind (fun _ _ hMoved => hMoved) fun _ _ hSame => hSame
  refine hTry.catchError (fun _ _ hAfter => hAfter) ?_
  rintro e _ rfl
  split
  · exact rfl
  · exact rfl

theorem ends_replaceRemoteFileFromTemp (hApart : remote.locate temporaryPath ≠ remote.locate targetPath)
    (expected : Option UploadSftpFileConflictSnapshot) : Ends (Leaves remote.home (remote.locate targetPath) content)
      (replaceRemoteFileFromTemp session runtime temporaryPath targetPath expected) remote := by
  have hTry : Ends (TriesRename remote (remote.locate targetPath) content) _ remote := ends_tryPosixRename session hTemporary
  refine hTry.bind ?_ ?_
  · rintro (_ | _) remote' hTried
    · obtain rfl : remote' = remote := hTried
      refine (ends_rename hTemporary).catchError (fun _ _ hMoved => hMoved) ?_
      rintro renameError _ rfl
      split
      · exact rfl
      · exact ends_replaceAfterGenericFailure session runtime hTemporary hApart expected renameError
    · exact hTried
  · rintro e _ rfl
    exact rfl

end Replacing

theorem ends_unlinkRemoteTempFile (path : Text) : Ends (fun _ remote' => remote'.home = remote.home) (unlinkRemoteTempFile path) remote := by
  have hUnlink : Ends (fun _ remote' => remote'.home = remote.home) (Remote.unlink path) remote := by
    refine ends_call ?_ ?_
    · rintro _ _ rfl
      exact rfl
    · rintro _ _ _ rfl
      exact rfl
  exact hUnlink.catchError (fun _ _ hHome => hHome) fun _ _ hHome => hHome

theorem ends_writeBufferToRemotePath (content : Bytes) (targetPath : Text) (mode : Nat) (expected : Option UploadSftpFileConflictSnapshot) :
    Ends (Leaves remote.home (remote.locate targetPath) content)
      (writeBufferToRemotePath session runtime content targetPath mode expected) remote := by
  have hApart : remote.locate (temporaryPathFor runtime targetPath) ≠ remote.locate targetPath :=
    temporaryPath_apart runtime remote.home targetPath
  have hWrite : Ends (fun outcome remote' => match outcome with
      | .ok _ => remote' = remote.put (remote.locate (temporaryPathFor runtime targetPath)) (some content)
      | .error _ => remote'.home = remote.home)
      (Remote.writeFile (temporaryPathFor runtime targetPath) content mode) remote := by
    refine ends_call (fun _ _ hWritten => hWritten) ?_
    rintro _ _ _ ⟨written, rfl⟩
    exact rfl
  refine ends_tryCatch ?_ ?_
  · refine hWrite.bind ?_ fun _ _ hHome => hHome
    rintro _ written rfl
    have hReady : (remote.put (remote.locate (temporaryPathFor runtime targetPath)) (some content)).files
        (remote.locate (temporaryPathFor runtime targetPath)) = some content := RemoteFiles.files_put_self ..
    exact ends_replaceRemoteFileFromTemp session runtime hReady hApart expected
  · rintro e remote' hHome
    refine (ends_unlinkRemoteTempFile (temporaryPathFor runtime targetPath)).bind ?_ ?_
    · exact fun _ _ hCleaned => hCleaned.trans hHome
    · exact fun _ _ hCleaned => hCleaned.trans hHome

def Writes (home place : List Text) (content : Bytes) (outcome : Except SftpError SftpOperationResult)
    (remote' : RemoteFiles) : Prop := remote'.home = home ∧ ∀ data, outcome = .ok (.success data) → remote'.files place = some content

theorem writes_of_no_success {home : List Text} {outcome : Except SftpError SftpOperationResult} (hHome : remote'.home = home)
    (hNone : ∀ data, outcome ≠ .ok (.success data)) : Writes home place content outcome remote' :=
  ⟨hHome, fun data hSuccess => absurd hSuccess (hNone data)⟩

theorem ends_writtenData (remote : RemoteFiles) (path : Text) (stats : Stats) :
    Ends (fun _ remote' => remote' = remote) (writtenData session path stats) remote := by
  have hTimestamp : Ends (fun _ remote' => remote' = remote) (Program.ofExcept (formatStatsTimestamp stats.mtime))
      remote := Program.safe_ofExcept.mpr rfl
  exact hTimestamp.bind (fun _ _ hSame => hSame) fun _ _ hSame => hSame

theorem ends_writeTextFilePrimitive (remote : RemoteFiles) (path : Text) (content : Bytes)
    (expected : UploadSftpFileConflictSnapshot) (overwrite : Bool) :
    Ends (Writes remote.home (remote.locate (normalizeSftpPathInput (some path))) content)
      (writeTextFilePrimitive session runtime (some path) content expected overwrite) remote := by
  refine (ends_getOpenSession remote).bind ?_ ?_
  · rintro isOpen remote rfl
    split
    · rw [withMutablePath]
      split
      · split
        · exact writes_of_no_success rfl nofun
        · refine ends_tryCatch ?_ ?_
          · refine (ends_stat remote _).bind ?_ ?_
            · rintro targetStats remote ⟨rfl, -⟩
              split
              · exact writes_of_no_success rfl nofun
              · split
                · exact writes_of_no_success rfl nofun
                · refine (ends_writeBufferToRemotePath session runtime content _ _ _).bind ?_ ?_
                  · rintro _ written ⟨hHome, hFile⟩
                    refine (ends_stat written _).bind ?_ ?_
                    · rintro writtenStats written ⟨rfl, -⟩
                      refine (ends_writtenData session written _ _).mono ?_
                      rintro _ written rfl
                      exact ⟨hHome, fun _ _ => hFile⟩
                    · rintro _ written ⟨rfl, -⟩
                      exact writes_of_no_success hHome nofun
                  · exact fun _ _ hHome => writes_of_no_success hHome nofun
            · rintro _ remote ⟨rfl, -⟩
              exact writes_of_no_success rfl nofun
          · rintro error remote' ⟨hHome, -⟩
            refine writes_of_no_success hHome ?_
            cases error <;> exact nofun
      · exact writes_of_no_success rfl nofun
    · exact writes_of_no_success rfl nofun
  · rintro _ remote rfl
    exact writes_of_no_success rfl nofun

namespace RemoteFiles

def moved (remote : RemoteFiles) (sourcePath targetPath : Text) : Except SftpError Unit × RemoteFiles :=
  match remote.files (remote.locate sourcePath) with
  | some content =>
    (.ok (), (remote.put (remote.locate sourcePath) none).put (remote.locate targetPath) (some content))
  | none => (.error FileServer.noSuchFile, remote)

def answer (remote : RemoteFiles) : (q : Request) → Except SftpError q.Answer × RemoteFiles
  | .sessionOpen => (.ok true, remote)
  | .stat path =>
    match remote.files (remote.locate path) with
    | some content => (.ok ⟨some 0o100644, some 0, some 0, some content.length, some 0, some 0⟩, remote)
    | none => (.error FileServer.noSuchFile, remote)
  | .open path => (.ok 0, remote.opened 0 (remote.locate path))
  | .read handle length position =>
    match (remote.handles handle).bind remote.files with
    | some content => (.ok ((content.drop position).take (min length 1)), remote)
    | none => (.error FileServer.noSuchFile, remote)
  | .close _ => (.ok (), remote)
  | .writeFile path data _ => (.ok (), remote.put (remote.locate path) (some data))
  | .rename sourcePath targetPath => remote.moved sourcePath targetPath
  | .posixRename sourcePath targetPath => remote.moved sourcePath targetPath
  | .unlink path => (.ok (), remote.put (remote.locate path) none)
  | _ => (.error FileServer.unsupported, remote)

theorem moved_cases (remote : RemoteFiles) (sourcePath targetPath : Text) :
    (∃ remote', remote.moved sourcePath targetPath = (.ok (), remote') ∧ remote.Moves sourcePath targetPath remote') ∨
      ∃ e, remote.moved sourcePath targetPath = (.error e, remote) := by
  rw [moved]
  cases hContent : remote.files (remote.locate sourcePath) with
  | some content => exact .inl ⟨_, rfl, content, hContent, rfl⟩
  | none => exact .inr ⟨_, rfl⟩

theorem answer_admitted (remote : RemoteFiles) (q : Request) : remoteContents remote q (remote.answer q).1 (remote.answer q).2 := by
  cases q with
  | stat path =>
    rw [answer]
    split
    · rename_i content hContent
      refine ⟨rfl, fun other hOther => ?_⟩
      rw [Option.some.inj (hContent.symm.trans hOther)]
    · exact rfl
  | read handle length position =>
    rw [answer]
    split
    · rename_i content hContent
      obtain ⟨place, hPlace, hFile⟩ := Option.bind_eq_some_iff.mp hContent
      refine ⟨rfl, place, content, hPlace, hFile, ?_, fun hEmpty => ?_⟩
      · exact List.take_prefix_take_left (Nat.min_le_left length 1)
      · rw [List.take_eq_nil_iff] at hEmpty ⊢
        exact hEmpty.imp_left fun hNone => by omega
    · exact rfl
  | rename sourcePath targetPath =>
    rcases remote.moved_cases sourcePath targetPath with ⟨remote', hMoved, hMoves⟩ | ⟨e, hMoved⟩
    · rw [answer, hMoved]
      exact hMoves
    · rw [answer, hMoved]
      exact rfl
  | posixRename sourcePath targetPath =>
    rcases remote.moved_cases sourcePath targetPath with ⟨remote', hMoved, hMoves⟩ | ⟨e, hMoved⟩
    · rw [answer, hMoved]
      exact hMoves
    · rw [answer, hMoved]
      exact rfl
  | _ => exact rfl

end RemoteFiles

end Sftp
