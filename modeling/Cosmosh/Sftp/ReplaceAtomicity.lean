import Cosmosh.Sftp.RemoteReplace

/-! # What an overwriting upload leaves on the server

Every way through the replacement is followed to its end: the target holds the
new content, or the operation throws and the target holds the old content, or
the target was removed and nothing took its place.
-/

namespace Sftp

open Library Library.JsText Library.PosixPath

/-- The only way to lose the target: the rename fails generically, the target is removed, and the
second rename fails. -/
structure LosesTarget (session : SftpLiveSession) (runtime : Runtime) (verdicts : Verdicts) (targetStats : Stats)
    (expectedRemoteSnapshot : Option UploadSftpFileConflictSnapshot) : Prop where
  posixRename : session.extOpensshRename = true → ∃ error, verdicts.posixRename = some error ∧
    (guardError "posix-rename" .mutation error).isSftpOperationFailure = false
  firstRename : ∃ error, verdicts.rename 0 = some error ∧
    (guardError "rename" .mutation error).isGenericSftpFailureError = true
  snapshot : ∀ snapshot ∈ expectedRemoteSnapshot, verdicts.stat = none ∧ targetStats.isFile = true ∧
    doesRemoteSnapshotMatch runtime targetStats snapshot = true
  unlink : verdicts.unlink 0 = none
  secondRename : (verdicts.rename 1).isSome

variable (session : SftpLiveSession) (runtime : Runtime)
  (expectedRemoteSnapshot : Option UploadSftpFileConflictSnapshot) {server : FileServer}
  {temporaryPath targetPath : Text} {old new : Bytes}

structure ReadyToReplace (server : FileServer) (temporaryPath targetPath : Text) (old new : Bytes) : Prop where
  temporary : server.files (server.locate temporaryPath) = some new
  target : server.files (server.locate targetPath) = some old

inductive Settled (home : List Text) (targetPath : Text) (content : Option Bytes) (failed : Bool) :
    Except SftpError Unit × FileServer → Prop
  | intro {outcome : Except SftpError Unit} {final : FileServer} (hHome : final.home = home)
      (hContent : final.files (resolveFrom home targetPath) = content)
      (hFailed : failed = true ↔ ∃ error, outcome = .error error) :
      Settled home targetPath content failed (outcome, final)

theorem run_tryPosixRename (h : ReadyToReplace server temporaryPath targetPath old new) :
    let outcome := Program.run FileServer.answer
      (tryCatch (Remote.tryOpenSshPosixRename session temporaryPath targetPath) fun error =>
        if error.isSftpOperationFailure then throw error else pure false) server
    (session.extOpensshRename = true ∧ server.verdicts.posixRename = none ∧
        outcome = (.ok true, server.moved temporaryPath targetPath new)) ∨
      ((session.extOpensshRename = true → ∃ error, server.verdicts.posixRename = some error ∧
          (guardError "posix-rename" .mutation error).isSftpOperationFailure = false) ∧
        outcome = (.ok false, server)) ∨
      (session.extOpensshRename = true ∧ ∃ error, server.verdicts.posixRename = some error ∧
        (guardError "posix-rename" .mutation error).isSftpOperationFailure = true ∧
        outcome = (.error (guardError "posix-rename" .mutation error), server)) := by
  intro outcome
  cases hExt : session.extOpensshRename with
  | false =>
    refine .inr (.inl ⟨nofun, ?_⟩)
    simp only [outcome, Remote.tryOpenSshPosixRename, hExt]
    rfl
  | true =>
    cases hVerdict : server.verdicts.posixRename with
    | none =>
      refine .inl ⟨rfl, rfl, ?_⟩
      simp [outcome, Remote.tryOpenSshPosixRename, hExt, Program.run_catchError, Program.run_bind, run_posixRename,
        FileServer.answer, FileServer.move, hVerdict, h.temporary, Except.mapError]
    | some error =>
      have hRun : outcome = (if (guardError "posix-rename" .mutation error).isSftpOperationFailure then
          (.error (guardError "posix-rename" .mutation error), server) else (.ok false, server)) := by
        simp [outcome, Remote.tryOpenSshPosixRename, hExt, Program.run_catchError, Program.run_bind,
          run_posixRename, FileServer.answer, FileServer.move, hVerdict, Except.mapError]
        split <;> rfl
      right
      rw [hRun]
      cases hGuard : (guardError "posix-rename" .mutation error).isSftpOperationFailure with
      | true => exact .inr ⟨rfl, error, rfl, hGuard, rfl⟩
      | false => exact .inl ⟨fun _ => ⟨error, rfl, hGuard⟩, rfl⟩

theorem run_snapshotCheck (hTarget : server.files (server.locate targetPath) = some old) :
    ∃ outcome : Except SftpError PUnit, Program.run FileServer.answer
        (expectedRemoteSnapshot.forM (assertRemoteSnapshotStillMatches session runtime targetPath)) server =
        (outcome, server) ∧
      ((∃ u, outcome = .ok u) ↔ ∀ snapshot ∈ expectedRemoteSnapshot, server.verdicts.stat = none ∧
        (server.stats (server.locate targetPath)).isFile = true ∧
        doesRemoteSnapshotMatch runtime (server.stats (server.locate targetPath)) snapshot = true) := by
  cases expectedRemoteSnapshot with
  | none => exact ⟨.ok ⟨⟩, rfl, by simp⟩
  | some snapshot =>
    simp only [Option.forM, assertRemoteSnapshotStillMatches, Program.bind_eq, Program.run_bind,
      run_stat, FileServer.answer, FileServer.describe, hTarget]
    cases hStat : server.verdicts.stat with
    | some error => exact ⟨_, rfl, by simp⟩
    | none =>
      simp only [Except.mapError]
      split
      · rename_i hMismatch
        refine ⟨_, rfl, ?_⟩
        simp only [reduceCtorEq, exists_false, Option.mem_some_iff, forall_eq', true_and, false_iff, not_and]
        intro hFile
        simpa [hFile] using hMismatch
      · rename_i hMatch
        refine ⟨_, rfl, ?_⟩
        simpa using hMatch

theorem run_replaceAfterGenericFailure (h : ReadyToReplace server temporaryPath targetPath old new)
    (hApart : server.locate temporaryPath ≠ server.locate targetPath) (hRenames : server.renames = 1)
    (hUnlinks : server.unlinks = 0) (renameError : SftpError) :
    let result := Program.run FileServer.answer (replaceAfterGenericFailure session runtime temporaryPath
      targetPath expectedRemoteSnapshot renameError) server
    let loses := (∀ snapshot ∈ expectedRemoteSnapshot, server.verdicts.stat = none ∧
        (server.stats (server.locate targetPath)).isFile = true ∧
        doesRemoteSnapshotMatch runtime (server.stats (server.locate targetPath)) snapshot = true) ∧
      server.verdicts.unlink 0 = none ∧ (server.verdicts.rename 1).isSome
    (loses ∧ Settled server.home targetPath none true result) ∨
      ¬loses ∧ (Settled server.home targetPath (some new) false result ∨
        Settled server.home targetPath (some old) true result) := by
  intro result loses
  obtain ⟨outcome, hRun, hOk⟩ := run_snapshotCheck session runtime expectedRemoteSnapshot h.target
  cases outcome with
  | error e =>
    have hResult : result = (.error e, server) := by
      simp only [result, replaceAfterGenericFailure, Program.bind_eq, Program.run_bind, hRun]
    refine .inr ⟨fun hLoses => ?_, .inr ?_⟩
    · obtain ⟨u, hU⟩ := hOk.mpr hLoses.1
      cases hU
    · rw [hResult]
      exact ⟨rfl, h.target, by simp⟩
  | ok u =>
    have hSnapshot := hOk.mp ⟨u, rfl⟩
    cases hUnlink : server.verdicts.unlink 0 with
    | some e =>
      have hResult : result = (.error (guardError "unlink" .mutation e), { server with unlinks := 1 }) := by
        simp only [result, replaceAfterGenericFailure, Program.bind_eq, Program.run_bind, hRun, run_unlink,
          FileServer.answer, FileServer.remove, hUnlinks, hUnlink, Except.mapError, Nat.zero_add]
      refine .inr ⟨fun hLoses => ?_, .inr ?_⟩
      · rw [hLoses.2.1] at hUnlink
        cases hUnlink
      · rw [hResult]
        exact ⟨rfl, h.target, by simp⟩
    | none =>
      let removed := ({ server with unlinks := 1 } : FileServer).put (server.locate targetPath) none
      let asked := { removed with renames := 2 }
      have hTemporary : asked.files (asked.locate temporaryPath) = some new := (FileServer.files_put_of_ne _ none hApart).trans h.temporary
      have hResult : result = Program.run FileServer.answer
          (tryCatch (Remote.rename temporaryPath targetPath) fun replaceError =>
            throw (if trim replaceError.message ≠ [] then replaceError else renameError)) removed := by
        have hRemove : ({ server with unlinks := 1 } : FileServer).remove none targetPath = (.ok (), removed) := by
          have hTarget : ({ server with unlinks := 1 } : FileServer).files (server.locate targetPath) = some old := h.target
          simp only [FileServer.remove, FileServer.locate] at hTarget ⊢
          rw [hTarget]
          rfl
        simp only [result, replaceAfterGenericFailure, Program.bind_eq, Program.run_bind, hRun, run_unlink,
          FileServer.answer, hUnlinks, hUnlink, Nat.zero_add, hRemove, Except.mapError]
      have hRename : Program.run FileServer.answer (Remote.rename temporaryPath targetPath) removed =
          ((asked.move (server.verdicts.rename 1) temporaryPath targetPath).1.mapError
            (guardError "rename" .mutation), (asked.move (server.verdicts.rename 1) temporaryPath targetPath).2) := by
        rw [run_rename]
        simp only [FileServer.answer, removed, asked, FileServer.put, hRenames]
      rw [hResult, Program.tryCatch_eq, Program.run_catchError, hRename]
      cases hSecond : server.verdicts.rename 1 with
      | none =>
        refine .inr ⟨fun hLoses => ?_, .inl ?_⟩
        · have hSome := hLoses.2.2
          rw [hSecond] at hSome
          cases hSome
        · simp only [FileServer.move, hTemporary, Except.mapError]
          exact ⟨rfl, FileServer.files_put_self _ _ _, by simp⟩
      | some e =>
        refine .inl ⟨⟨hSnapshot, hUnlink, by rw [hSecond]; rfl⟩, ?_⟩
        simp only [FileServer.move, Except.mapError]
        exact ⟨rfl, FileServer.files_put_self _ _ _, by simp⟩

theorem run_replaceRemoteFileFromTemp (h : ReadyToReplace server temporaryPath targetPath old new)
    (hApart : server.locate temporaryPath ≠ server.locate targetPath) (hRenames : server.renames = 0)
    (hUnlinks : server.unlinks = 0) :
    let result := Program.run FileServer.answer
      (replaceRemoteFileFromTemp session runtime temporaryPath targetPath expectedRemoteSnapshot) server
    let loses := LosesTarget session runtime server.verdicts (server.stats (server.locate targetPath))
      expectedRemoteSnapshot
    (loses ∧ Settled server.home targetPath none true result) ∨
      ¬loses ∧ (Settled server.home targetPath (some new) false result ∨
          Settled server.home targetPath (some old) true result) := by
  intro result loses
  obtain ⟨hExt, hVerdict, hRun⟩ | ⟨hSkip, hRun⟩ | ⟨hExt, error, hVerdict, hGuard, hRun⟩ := run_tryPosixRename session h
  · have hResult : result = (.ok (), server.moved temporaryPath targetPath new) := by
      simp only [result, replaceRemoteFileFromTemp, Program.bind_eq, Program.run_bind, hRun]
      rfl
    refine .inr ⟨fun hLoses => ?_, .inl ?_⟩
    · obtain ⟨e, hError, -⟩ := hLoses.posixRename hExt
      rw [hVerdict] at hError
      cases hError
    · rw [hResult]
      exact ⟨rfl, FileServer.files_put_self _ _ _, by simp⟩
  · have hResult : result = Program.run FileServer.answer
        (tryCatch (Remote.rename temporaryPath targetPath) fun renameError =>
          if !renameError.isGenericSftpFailureError then throw renameError
          else replaceAfterGenericFailure session runtime temporaryPath targetPath expectedRemoteSnapshot
            renameError) server := by
      simp only [result, replaceRemoteFileFromTemp, Program.bind_eq, Program.run_bind, hRun]
      rfl
    let asked := { server with renames := 1 }
    have hAsked : ReadyToReplace asked temporaryPath targetPath old new := ⟨h.temporary, h.target⟩
    have hRename : Program.run FileServer.answer (Remote.rename temporaryPath targetPath) server =
        ((asked.move (server.verdicts.rename 0) temporaryPath targetPath).1.mapError
          (guardError "rename" .mutation), (asked.move (server.verdicts.rename 0) temporaryPath targetPath).2) := by
      rw [run_rename]
      simp only [FileServer.answer, asked, hRenames, Nat.zero_add]
    rw [Program.tryCatch_eq, Program.run_catchError, hRename] at hResult
    cases hFirst : server.verdicts.rename 0 with
    | none =>
      have hTemporary : asked.files (asked.locate temporaryPath) = some new := hAsked.temporary
      simp only [hFirst, FileServer.move, hTemporary, Except.mapError] at hResult
      refine .inr ⟨fun hLoses => ?_, .inl ?_⟩
      · obtain ⟨e, hError, -⟩ := hLoses.firstRename
        rw [hFirst] at hError
        cases hError
      · rw [hResult]
        exact ⟨rfl, FileServer.files_put_self _ _ _, by simp⟩
    | some error =>
      simp only [hFirst, FileServer.move, Except.mapError] at hResult
      cases hGeneric : (guardError "rename" .mutation error).isGenericSftpFailureError with
      | false =>
        simp only [hGeneric, Bool.not_false, if_true] at hResult
        refine .inr ⟨fun hLoses => ?_, .inr ?_⟩
        · obtain ⟨e, hError, hOther⟩ := hLoses.firstRename
          rw [hFirst, Option.some.injEq] at hError
          subst hError
          rw [hGeneric] at hOther
          cases hOther
        · rw [hResult]
          exact ⟨rfl, h.target, by simp⟩
      | true =>
        simp only [hGeneric, Bool.not_true, Bool.false_eq_true, if_false] at hResult
        rw [hResult]
        obtain ⟨⟨hSnapshot, hUnlink, hSecond⟩, hSettled⟩ | ⟨hNot, hSettled⟩ :=
          run_replaceAfterGenericFailure session runtime expectedRemoteSnapshot hAsked hApart rfl
            hUnlinks (guardError "rename" .mutation error)
        · exact .inl ⟨⟨hSkip, ⟨error, hFirst, hGeneric⟩, hSnapshot, hUnlink, hSecond⟩, hSettled⟩
        · exact .inr ⟨fun hLoses => hNot ⟨hLoses.snapshot, hLoses.unlink, hLoses.secondRename⟩, hSettled⟩
  · have hResult : result = (.error (guardError "posix-rename" .mutation error), server) := by
      simp only [result, replaceRemoteFileFromTemp, Program.bind_eq, Program.run_bind, hRun]
    refine .inr ⟨fun hLoses => ?_, .inr ?_⟩
    · obtain ⟨e, hError, hOther⟩ := hLoses.posixRename hExt
      rw [hVerdict, Option.some.injEq] at hError
      subst hError
      rw [hGuard] at hOther
      cases hOther
    · rw [hResult]
      exact ⟨rfl, h.target, by simp⟩

theorem run_unlinkRemoteTempFile (server : FileServer) (temporaryPath : Text) :
    ∃ final : FileServer, Program.run FileServer.answer (unlinkRemoteTempFile temporaryPath) server =
      (.ok (), final) ∧ final.home = server.home ∧
      ∀ place, place ≠ server.locate temporaryPath → final.files place = server.files place := by
  let asked := { server with unlinks := server.unlinks + 1 }
  have hRemove : ∀ verdict, ∃ final : FileServer, (asked.remove verdict temporaryPath).2 = final ∧
      final.home = server.home ∧
      ∀ place, place ≠ server.locate temporaryPath → final.files place = server.files place := by
    intro verdict
    refine ⟨_, rfl, ?_⟩
    unfold FileServer.remove
    split
    · exact ⟨rfl, fun _ _ => rfl⟩
    · exact ⟨rfl, fun _ _ => rfl⟩
    · exact ⟨rfl, fun place hPlace => FileServer.files_put_of_ne asked none hPlace⟩
  obtain ⟨final, hFinal, hKept⟩ := hRemove (server.verdicts.unlink server.unlinks)
  refine ⟨final, ?_, hKept⟩
  rw [unlinkRemoteTempFile, Program.tryCatch_eq, Program.run_catchError, run_unlink]
  simp only [FileServer.answer]
  rw [← hFinal]
  cases (asked.remove (server.verdicts.unlink server.unlinks) temporaryPath).1 <;> rfl

structure KeepsVersion (server : FileServer) (targetPath : Text) (old new : Bytes)
    (result : Except SftpError Unit × FileServer) : Prop where
  version : ∃ place, result.2.files place = some old ∨ result.2.files place = some new
  thrown : ∀ error, result.1 = .error error → result.2.files (server.locate targetPath) = some old

structure LosesBothVersions (session : SftpLiveSession) (runtime : Runtime) (server : FileServer) (targetPath : Text)
    (expectedRemoteSnapshot : Option UploadSftpFileConflictSnapshot) : Prop where
  uploaded : server.verdicts.transfer = none
  fresh : server.files (server.locate (temporaryPathFor runtime targetPath)) = none
  loses : LosesTarget session runtime server.verdicts (server.stats (server.locate targetPath)) expectedRemoteSnapshot

def IsTransfer (transfer : Text → SftpProgram Unit) (data : Bytes) : Prop :=
  ∃ operation, ∀ (server : FileServer) (path : Text), Program.run FileServer.answer (transfer path) server =
    ((server.transferTo path data).1.mapError (guardError operation .mutation), (server.transferTo path data).2)

theorem isTransfer_uploadStream (data : Bytes) (mode : Nat) : IsTransfer (Remote.uploadStream · data mode) data :=
  ⟨_, fun server path => run_uploadStream FileServer.answer path data mode server⟩

theorem isTransfer_writeFile (data : Bytes) (mode : Nat) : IsTransfer (Remote.writeFile · data mode) data :=
  ⟨_, fun server path => run_writeFile FileServer.answer path data mode server⟩

theorem transferTo_cases (server : FileServer) (path : Text) (data : Bytes) :
    (server.verdicts.transfer = none ∧ server.files (server.locate path) = none ∧
        server.transferTo path data = (.ok (), server.put (server.locate path) (some data))) ∨
      ¬(server.verdicts.transfer = none ∧ server.files (server.locate path) = none) ∧
        ∃ error final, server.transferTo path data = (.error error, final) ∧ final.home = server.home ∧
          ∀ place, place ≠ server.locate path → final.files place = server.files place := by
  rw [FileServer.transferTo]
  split
  · rename_i hExists
    refine .inr ⟨?_, _, _, rfl, rfl, fun _ _ => rfl⟩
    rintro ⟨-, hFresh⟩
    rw [hFresh] at hExists
    cases hExists
  · rename_i hFresh
    rw [Option.not_isSome_iff_eq_none] at hFresh
    cases hTransfer : server.verdicts.transfer with
    | none => exact .inl ⟨rfl, hFresh, rfl⟩
    | some failure =>
      obtain ⟨error, written⟩ := failure
      exact .inr ⟨nofun, error, _, rfl, rfl, fun place hPlace => FileServer.files_put_of_ne server written hPlace⟩

theorem Settled.cleanup {p : SftpProgram Unit} {home : List Text} {content : Option Bytes} {failed : Bool}
    (h : Settled home targetPath content failed (Program.run FileServer.answer p server))
    (hApart : resolveFrom home temporaryPath ≠ resolveFrom home targetPath) :
    Settled home targetPath content failed (Program.run FileServer.answer (tryCatch p fun error => do
      unlinkRemoteTempFile temporaryPath
      throw error) server) := by
  rw [Program.tryCatch_eq, Program.run_catchError]
  cases hRun : Program.run FileServer.answer p server with
  | mk outcome final =>
    rw [hRun] at h
    obtain ⟨rfl, hContent, hFailed⟩ := h
    cases outcome with
    | ok u => exact ⟨rfl, hContent, hFailed⟩
    | error e =>
      obtain ⟨cleaned, hClean, hHome, hFiles⟩ := run_unlinkRemoteTempFile final temporaryPath
      simp only [Program.bind_eq, Program.run_bind, hClean]
      exact ⟨hHome, (hFiles _ hApart.symm).trans hContent, hFailed⟩

theorem overwriteThroughTemporary_settled {transfer : Text → SftpProgram Unit} (hTransfer : IsTransfer transfer new)
    (hTarget : server.files (server.locate targetPath) = some old) (hRenames : server.renames = 0)
    (hUnlinks : server.unlinks = 0) :
    let result := Program.run FileServer.answer
      (overwriteThroughTemporary session runtime transfer targetPath expectedRemoteSnapshot) server
    let loses := LosesBothVersions session runtime server targetPath expectedRemoteSnapshot
    (loses ∧ Settled server.home targetPath none true result) ∨
      ¬loses ∧ (Settled server.home targetPath (some new) false result ∨
        Settled server.home targetPath (some old) true result) := by
  intro result loses
  have hApart : server.locate (temporaryPathFor runtime targetPath) ≠ server.locate targetPath :=
    temporaryPath_apart runtime server.home targetPath
  obtain ⟨operation, hServed⟩ := hTransfer
  obtain ⟨hUploaded, hFresh, hDone⟩ | ⟨hNot, error, final, hDone, hHome, hFiles⟩ :=
    transferTo_cases server (temporaryPathFor runtime targetPath) new
  · let uploaded := server.put (server.locate (temporaryPathFor runtime targetPath)) (some new)
    have hReady : ReadyToReplace uploaded (temporaryPathFor runtime targetPath) targetPath old new :=
      ⟨FileServer.files_put_self .., (FileServer.files_put_of_ne server _ hApart.symm).trans hTarget⟩
    have hInner : Program.run FileServer.answer (do
        transfer (temporaryPathFor runtime targetPath)
        replaceRemoteFileFromTemp session runtime (temporaryPathFor runtime targetPath) targetPath
          expectedRemoteSnapshot) server = Program.run FileServer.answer
        (replaceRemoteFileFromTemp session runtime (temporaryPathFor runtime targetPath) targetPath
          expectedRemoteSnapshot) uploaded := by
      simp only [Program.bind_eq, Program.run_bind, hServed, hDone, Except.mapError, uploaded]
    obtain ⟨hLoses, hSettled⟩ | ⟨hKeeps, hSettled⟩ := run_replaceRemoteFileFromTemp session runtime
      expectedRemoteSnapshot hReady hApart hRenames hUnlinks
    · exact .inl ⟨⟨hUploaded, hFresh, hLoses⟩, Settled.cleanup (hInner ▸ hSettled) hApart⟩
    · refine .inr ⟨fun hBoth => hKeeps hBoth.loses, ?_⟩
      exact hSettled.imp (fun h => Settled.cleanup (hInner ▸ h) hApart)
        fun h => Settled.cleanup (hInner ▸ h) hApart
  · refine .inr ⟨fun hBoth => hNot ⟨hBoth.uploaded, hBoth.fresh⟩, .inr (Settled.cleanup ?_ hApart)⟩
    simp only [Program.bind_eq, Program.run_bind, hServed, hDone, Except.mapError]
    exact ⟨hHome, (hFiles _ hApart.symm).trans hTarget, by simp⟩

theorem overwriteThroughTemporary_keepsVersion_iff {transfer : Text → SftpProgram Unit}
    (hTransfer : IsTransfer transfer new) (hTarget : server.files (server.locate targetPath) = some old)
    (hRenames : server.renames = 0) (hUnlinks : server.unlinks = 0) :
    KeepsVersion server targetPath old new (Program.run FileServer.answer
        (overwriteThroughTemporary session runtime transfer targetPath expectedRemoteSnapshot) server) ↔
      ¬LosesBothVersions session runtime server targetPath expectedRemoteSnapshot := by
  have hSettled := overwriteThroughTemporary_settled session runtime expectedRemoteSnapshot hTransfer hTarget
    hRenames hUnlinks
  revert hSettled
  generalize Program.run FileServer.answer
    (overwriteThroughTemporary session runtime transfer targetPath expectedRemoteSnapshot) server = result
  rintro (⟨hLoses, ⟨hHome, hContent, hFailed⟩⟩ | ⟨hKeeps, ⟨hHome, hContent, hFailed⟩ | ⟨hHome, hContent, hFailed⟩⟩)
  · refine iff_of_false (fun hVersion => ?_) (not_not_intro hLoses)
    obtain ⟨error, hError⟩ := hFailed.mp rfl
    have hOld := hVersion.thrown error hError
    rw [FileServer.locate, hContent] at hOld
    cases hOld
  · refine iff_of_true ⟨⟨_, .inr hContent⟩, fun error hError => ?_⟩ hKeeps
    exact absurd (hFailed.mpr ⟨error, hError⟩) (by simp)
  · exact iff_of_true ⟨⟨_, .inl hContent⟩, fun _ _ => hContent⟩ hKeeps

/-- An overwrite ends without either version, or throws away the target, exactly when the uploaded file
could not be renamed over it, the target was removed, and the second rename failed. -/
theorem overwrite_keeps_version_iff (session : SftpLiveSession) (runtime : Runtime) (home : List Text)
    (stats : List Text → Stats) (verdicts : Verdicts) (files : List Text → Option Bytes) (targetPath : Text)
    (mode : Nat) (expectedRemoteSnapshot : Option UploadSftpFileConflictSnapshot) (old new : Bytes)
    (hTarget : files (resolveFrom home targetPath) = some old) :
    let server := FileServer.connect home stats verdicts files
    (KeepsVersion server targetPath old new (Program.run FileServer.answer
        (uploadLocalFileToRemotePath session runtime new targetPath mode expectedRemoteSnapshot) server) ↔
      ¬LosesBothVersions session runtime server targetPath expectedRemoteSnapshot) ∧
    (KeepsVersion server targetPath old new (Program.run FileServer.answer
        (writeBufferToRemotePath session runtime new targetPath mode expectedRemoteSnapshot) server) ↔
      ¬LosesBothVersions session runtime server targetPath expectedRemoteSnapshot) :=
  ⟨overwriteThroughTemporary_keepsVersion_iff session runtime expectedRemoteSnapshot
      (isTransfer_uploadStream new mode) hTarget rfl rfl,
    overwriteThroughTemporary_keepsVersion_iff session runtime expectedRemoteSnapshot
      (isTransfer_writeFile new mode) hTarget rfl rfl⟩

def refusingServer : FileServer :=
  FileServer.connect [] (fun _ => ⟨some 0o100644, some 0, some 0, some 1, some 0, some 0⟩)
    { transfer := none
      stat := none
      posixRename := none
      rename := fun n => some (if n = 0 then .other "Failure".toList (some (.number 4))
        else .other "Permission denied".toList (some (.number 3)))
      unlink := fun _ => none }
    (fun place => if place = ["a".toList] then some [1] else none)

def plainSession : SftpLiveSession := ⟨"s".toList, false, fun key _ => key.toList⟩

def fixedRuntime : Runtime := ⟨0, ⟨"0".toList, by decide⟩, fun _ => none⟩

theorem overwrite_keeps_version_iff_on_refusing_server :
    let server := refusingServer
    (KeepsVersion server "/a".toList [1] [2] (Program.run FileServer.answer
        (uploadLocalFileToRemotePath plainSession fixedRuntime [2] "/a".toList 0o644 none) server) ↔
      ¬LosesBothVersions plainSession fixedRuntime server "/a".toList none) ∧
    (KeepsVersion server "/a".toList [1] [2] (Program.run FileServer.answer
        (writeBufferToRemotePath plainSession fixedRuntime [2] "/a".toList 0o644 none) server) ↔
      ¬LosesBothVersions plainSession fixedRuntime server "/a".toList none) :=
  overwrite_keeps_version_iff plainSession fixedRuntime [] _ _ _ "/a".toList 0o644 none [1] [2] (by decide)

theorem overwrite_leaves_neither_version :
    let result := Program.run FileServer.answer
      (writeBufferToRemotePath plainSession fixedRuntime [2] "/a".toList 0o644 none) refusingServer
    ¬KeepsVersion refusingServer "/a".toList [1] [2] result ∧ ∀ place, result.2.files place = none := by
  intro result
  let temporary := resolveFrom [] (temporaryPathFor fixedRuntime "/a".toList)
  have hFiles : result.2.files = Function.update (Function.update (Function.update refusingServer.files temporary
      (some [2])) ["a".toList] none) temporary none := by rfl
  have hNone : ∀ place, result.2.files place = none := by
    intro place
    rw [hFiles, Function.update_apply, Function.update_apply, Function.update_apply]
    split
    · rfl
    · split
      · rfl
      · rename_i hOther
        exact if_neg hOther
  refine ⟨fun hKeeps => ?_, hNone⟩
  obtain ⟨place, hVersion⟩ := hKeeps.version
  rw [hNone place] at hVersion
  obtain hVersion | hVersion := hVersion <;> cases hVersion

end Sftp
