import Cosmosh.SftpPage.OpenedFiles

/-! # Edits of opened files reach the user

All opened files share one prompt, and the end of an upload writes back the file as it was before.
-/

namespace SftpPage.OpenedFiles

open Library Transition State

def replaceable (s : State) (path : Text) (watchId : Option Nat) : Bool :=
  match s.watchedOpenFiles.get? path with
  | some current => some current.watchId = watchId || !s.isLive current.watchId
  | none => true

def oneAtATime (s : State) : Event → Bool
  | .fileChanged watchId _ =>
    (s.watches[watchId]?).all fun watch => s.unanswered.all fun change => change.file = watch.openedPath
  | .answer _ =>
    s.answerablePrompt.isNone || s.uploadConfirmationPrompt.isNone || s.answerablePrompt = s.uploadConfirmationPrompt
  | .watchStarted index =>
    (s.registrations[index]?).all fun registration => replaceable s registration.entry.path none
  | .uploaded index _ _ =>
    (s.uploads[index]?).all fun upload =>
      replaceable s upload.watchedFile.remotePath (some upload.watchedFile.watchId)
  | _ => true

def OpenedAs (watches : List MainWatch) (watchId : Nat) (path : Text) : Prop :=
  ∃ watch, watches[watchId]? = some watch ∧ watch.openedPath = path

structure Kept (s : State) : Prop where
  files : ∀ path watchedFile, s.watchedOpenFiles.get? path = some watchedFile →
    watchedFile.remotePath = path ∧ OpenedAs s.watches watchedFile.watchId path
  uploads : ∀ upload ∈ s.uploads, OpenedAs s.watches upload.watchedFile.watchId upload.watchedFile.remotePath
  recorded : ∀ watchId watch, s.watches[watchId]? = some watch → watch.live = true →
    ∃ watchedFile, s.watchedOpenFiles.get? watch.openedPath = some watchedFile ∧ watchedFile.watchId = watchId
  unanswered : ∀ change ∈ s.unanswered, ∃ prompt,
    s.uploadConfirmationPrompt = some prompt ∧ prompt.change = change.number

variable {watches : List MainWatch} {watchId : Nat}

theorem OpenedAs.unique {first second : Text} (hFirst : OpenedAs watches watchId first)
    (hSecond : OpenedAs watches watchId second) : first = second := by
  obtain ⟨watch, hWatch, rfl⟩ := hFirst
  obtain ⟨other, hOther, rfl⟩ := hSecond
  rw [hWatch] at hOther
  rw [Option.some.inj hOther]

variable {path : Text}

theorem OpenedAs.append (hOpened : OpenedAs watches watchId path) (started : List MainWatch) : OpenedAs (watches ++ started) watchId path := by
  obtain ⟨watch, hWatch, hPath⟩ := hOpened
  have hBound := (List.getElem?_eq_some_iff.mp hWatch).1
  exact ⟨watch, by rw [List.getElem?_append_left hBound, hWatch], hPath⟩

theorem OpenedAs.stop (hOpened : OpenedAs watches watchId path) (stopped : Nat) : OpenedAs (stopWatch watches stopped) watchId path := by
  obtain ⟨watch, hWatch, hPath⟩ := hOpened
  rw [OpenedAs, stopWatch, List.getElem?_modify, hWatch]
  split
  · exact ⟨{ watch with live := false }, rfl, hPath⟩
  · exact ⟨watch, rfl, hPath⟩

variable {s : State} {watch : MainWatch}

theorem isLive_of_watch (hWatch : s.watches[watchId]? = some watch) (hLive : watch.live = true) : s.isLive watchId = true := by
  simp only [isLive, hWatch, hLive]

theorem live_of_stop {stopped : Nat} (hWatch : (stopWatch watches stopped)[watchId]? = some watch) (hLive : watch.live = true) :
    watches[watchId]? = some watch := by
  rw [stopWatch, List.getElem?_modify] at hWatch
  split at hWatch
  · obtain ⟨before, -, rfl⟩ := Option.map_eq_some_iff.mp hWatch
    contradiction
  · simpa using hWatch

theorem Kept.stop (hKept : Kept s) (stopped : Nat) : Kept { s with watches := stopWatch s.watches stopped } where
  files path watchedFile hFile := ⟨(hKept.files path watchedFile hFile).1, (hKept.files path watchedFile hFile).2.stop stopped⟩
  uploads upload hUpload := (hKept.uploads upload hUpload).stop stopped
  recorded watchId watch hWatch hLive := hKept.recorded watchId watch (live_of_stop hWatch hLive) hLive
  unanswered := hKept.unanswered

theorem Kept.register (hKept : Kept s) (entry : Entry) (localPath : Text) : Kept (s.register entry localPath) := by
  rw [State.register]
  split
  · rename_i existing _
    have hStopped := hKept.stop existing.watchId
    exact ⟨hStopped.files, hStopped.uploads, hStopped.recorded, hStopped.unanswered⟩
  · exact ⟨hKept.files, hKept.uploads, hKept.recorded, hKept.unanswered⟩

theorem Kept.set (hKept : Kept s) (written : WatchedOpenFile) (hPath : written.remotePath = path)
    (hOpened : OpenedAs s.watches written.watchId path) (hReplaceable : replaceable s path (some written.watchId) = true) :
    Kept { s with watchedOpenFiles := s.watchedOpenFiles.set path written } := by
  refine ⟨fun other watchedFile hFile => ?_, hKept.uploads, fun watchId watch hWatch hLive => ?_, hKept.unanswered⟩
  · rw [JsMap.get?_set] at hFile
    split at hFile
    · rename_i hOther
      obtain rfl := Option.some.inj hFile
      exact ⟨hPath.trans hOther.symm, hOther ▸ hOpened⟩
    · exact hKept.files other watchedFile hFile
  · obtain ⟨watchedFile, hFile, hId⟩ := hKept.recorded watchId watch hWatch hLive
    rw [JsMap.get?_set]
    split
    · rename_i hSame
      have hIsLive : s.isLive watchedFile.watchId = true := hId ▸ isLive_of_watch hWatch hLive
      rw [replaceable, ← hSame, hFile] at hReplaceable
      have hWritten : watchedFile.watchId = written.watchId := by simpa [hIsLive] using hReplaceable
      exact ⟨written, rfl, hWritten.symm.trans hId⟩
    · exact ⟨watchedFile, hFile, hId⟩

theorem Kept.watchStarted (hKept : Kept s) (index : Nat) (registration : Registration)
    (hReplaceable : replaceable s registration.entry.path none = true) : Kept (s.watchStarted index registration) := by
  have hNew : (s.watches ++ [⟨registration.entry.path, registration.localPath, true⟩])[s.watches.length]? =
      some ⟨registration.entry.path, registration.localPath, true⟩ := by simp
  refine ⟨fun path watchedFile hFile => ?_, fun upload hUpload => (hKept.uploads upload hUpload).append _,
    fun watchId watch hWatch hLive => ?_, hKept.unanswered⟩
  · rw [State.watchStarted, JsMap.get?_set] at hFile
    split at hFile
    · rename_i hOwn
      obtain rfl := Option.some.inj hFile
      exact ⟨hOwn.symm, _, hNew, hOwn.symm⟩
    · obtain ⟨hPath, hOpened⟩ := hKept.files path watchedFile hFile
      exact ⟨hPath, hOpened.append _⟩
  · rw [State.watchStarted, JsMap.get?_set]
    by_cases hOld : watchId < s.watches.length
    · have hBefore : s.watches[watchId]? = some watch := by
        rw [State.watchStarted, List.getElem?_append_left hOld] at hWatch
        exact hWatch
      obtain ⟨watchedFile, hFile, hId⟩ := hKept.recorded watchId watch hBefore hLive
      split
      · rename_i hSame
        have hIsLive : s.isLive watchedFile.watchId = true := hId ▸ isLive_of_watch hBefore hLive
        rw [replaceable, ← hSame, hFile] at hReplaceable
        simp [hIsLive] at hReplaceable
      · exact ⟨watchedFile, hFile, hId⟩
    · have hLast : watchId = s.watches.length ∧ watch = ⟨registration.entry.path, registration.localPath, true⟩ := by
        rw [State.watchStarted, List.getElem?_append_right (by omega)] at hWatch
        have hZero : watchId - s.watches.length = 0 := by
          have hBound := (List.getElem?_eq_some_iff.mp hWatch).1
          simp at hBound
          omega
        rw [hZero] at hWatch
        exact ⟨by omega, (Option.some.inj hWatch).symm⟩
      obtain ⟨rfl, rfl⟩ := hLast
      rw [if_pos rfl]
      exact ⟨_, rfl, rfl⟩

theorem find_watchedFile {watchedFile : WatchedOpenFile} (hFind : s.watchedOpenFiles.values.find? (·.watchId = watchId) = some watchedFile) :
    watchedFile.watchId = watchId ∧ ∃ path, s.watchedOpenFiles.get? path = some watchedFile := by
  obtain ⟨⟨path, value⟩, hEntry, hValue⟩ := List.mem_map.mp (List.mem_of_find?_eq_some hFind)
  obtain rfl : value = watchedFile := hValue
  exact ⟨by simpa using List.find?_some hFind, path, (s.watchedOpenFiles.mem_entries_iff path value).mp hEntry⟩

theorem find_isSome_of_recorded {watchedFile : WatchedOpenFile} (hFile : s.watchedOpenFiles.get? path = some watchedFile) :
    (s.watchedOpenFiles.values.find? (·.watchId = watchedFile.watchId)).isSome = true := by
  have hMem := List.mem_map_of_mem (f := Prod.snd) ((s.watchedOpenFiles.mem_entries_iff path watchedFile).mpr hFile)
  exact List.find?_isSome.mpr ⟨watchedFile, hMem, by simp⟩

theorem Kept.fileChanged (hKept : Kept s) (hWatch : s.watches[watchId]? = some watch) (change : Snapshot)
    (hAlone : ∀ other ∈ s.unanswered, other.file = watch.openedPath) : Kept (s.fileChanged watchId watch change) := by
  rw [State.fileChanged]
  split
  · rename_i hUnknown
    split
    · rename_i hLive
      obtain ⟨watchedFile, hFile, rfl⟩ := hKept.recorded watchId watch hWatch hLive
      have hFound := find_isSome_of_recorded hFile
      rw [hUnknown] at hFound
      contradiction
    · exact hKept
  · rename_i watchedFile hFind
    obtain ⟨rfl, path, hFile⟩ := find_watchedFile hFind
    obtain ⟨rfl, hOpened⟩ := hKept.files path watchedFile hFile
    have hSamePath : watch.openedPath = watchedFile.remotePath := OpenedAs.unique ⟨watch, hWatch, rfl⟩ hOpened
    have hSet := hKept.set { watchedFile with pendingChange := some change, isPromptOpen := true } rfl
      hOpened (by simp [replaceable, hFile])
    refine ⟨hSet.files, hSet.uploads, hSet.recorded, fun other hOther => ?_⟩
    have hSuperseded : s.unanswered.filter (·.file ≠ watchedFile.remotePath) = [] := by
      rw [List.filter_eq_nil_iff]
      intro earlier hEarlier
      simp [hAlone earlier hEarlier, hSamePath]
    rw [noteChange, hSuperseded, List.nil_append] at hOther
    dsimp only at hOther
    split at hOther
    · rw [List.mem_singleton.mp hOther]
      exact ⟨_, rfl, rfl⟩
    · exact absurd hOther List.not_mem_nil

theorem Kept.answer (hKept : Kept s) (accepted : Bool) (hSame : s.answerablePrompt = none ∨ s.uploadConfirmationPrompt = none ∨
      s.answerablePrompt = s.uploadConfirmationPrompt) : Kept (s.resolveUploadConfirmationPrompt accepted) := by
  rw [resolveUploadConfirmationPrompt]
  split
  · exact hKept
  · rename_i prompt hPrompt
    have hAnswered : s.unanswered.filter (·.number ≠ prompt.change) = [] := by
      rw [List.filter_eq_nil_iff]
      intro change hChange
      obtain ⟨shown, hShown, hNumber⟩ := hKept.unanswered change hChange
      rw [hPrompt, hShown] at hSame
      simp at hSame
      simp [hSame, hNumber]
    dsimp only
    rw [hAnswered]
    split
    · exact ⟨hKept.files, hKept.uploads, hKept.recorded, by rintro _ ⟨⟩⟩
    · rename_i watchedFile hFile
      obtain ⟨hPath, hOpened⟩ := hKept.files prompt.remotePath watchedFile hFile
      have hSet := hKept.set { watchedFile with isPromptOpen := false, pendingChange := none } hPath
        hOpened (by simp [replaceable, hFile])
      refine ⟨hSet.files, fun upload hUpload => ?_, hSet.recorded, by rintro _ ⟨⟩⟩
      dsimp only at hUpload
      split at hUpload
      · rcases List.mem_append.mp hUpload with hOld | hNew
        · exact hKept.uploads upload hOld
        · rw [List.mem_singleton.mp hNew]
          exact hPath ▸ hOpened
      · exact hKept.uploads upload hUpload

theorem Kept.uploadsChanged (hKept : Kept s) {uploads : List Upload}
    (hUploads : ∀ upload ∈ uploads, ∃ before ∈ s.uploads, before.watchedFile = upload.watchedFile) : Kept { s with uploads := uploads } := by
  refine ⟨hKept.files, fun upload hUpload => ?_, hKept.recorded, hKept.unanswered⟩
  obtain ⟨before, hBefore, hSame⟩ := hUploads upload hUpload
  rw [← hSame]
  exact hKept.uploads before hBefore

theorem erased_uploads (index : Nat) : ∀ upload ∈ s.uploads.eraseIdx index, ∃ before ∈ s.uploads, before.watchedFile = upload.watchedFile :=
  fun upload hUpload => ⟨upload, List.mem_of_mem_eraseIdx hUpload, rfl⟩

theorem set_uploads {index : Nat} {upload : Upload} (hUpload : s.uploads[index]? = some upload) (phase : UploadPhase) :
    ∀ other ∈ s.uploads.set index { upload with phase := phase },
      ∃ before ∈ s.uploads, before.watchedFile = other.watchedFile := by
  intro other hOther
  rcases List.mem_or_eq_of_mem_set hOther with hOld | rfl
  · exact ⟨other, hOld, rfl⟩
  · exact ⟨upload, List.mem_of_getElem? hUpload, rfl⟩

theorem Kept.uploaded (hKept : Kept s) {index : Nat} {upload : Upload} (hUpload : s.uploads[index]? = some upload)
    (size : Option Nat) (modifiedAt : Option Text)
    (hReplaceable : replaceable s upload.watchedFile.remotePath (some upload.watchedFile.watchId) = true) :
    Kept (s.uploaded index upload size modifiedAt) := by
  have hSet := hKept.set { upload.watchedFile with
    remoteSnapshot := ⟨size.getD upload.prompt.size, modifiedAt.getD upload.prompt.modifiedAt⟩
    pendingChange := none
    isPromptOpen := false } rfl (hKept.uploads upload (List.mem_of_getElem? hUpload)) hReplaceable
  exact hSet.uploadsChanged (set_uploads hUpload .refreshing)

theorem Kept.synced (hKept : Kept s) (remotePath : Text) (listed : Option Snapshot) :
    Kept (s.syncWatchedOpenFileSnapshotFromCache remotePath listed) := by
  unfold syncWatchedOpenFileSnapshotFromCache
  split
  · rename_i watchedFile snapshot hFile
    obtain ⟨hPath, hOpened⟩ := hKept.files remotePath watchedFile hFile
    exact hKept.set { watchedFile with remoteSnapshot := snapshot } hPath hOpened
      (by simp [replaceable, hFile])
  · exact hKept

theorem Kept.withUpload (hKept : Kept s) (index : Nat) (phases : List UploadPhase) {next : Upload → State}
    (hNext : ∀ upload, s.uploads[index]? = some upload → Kept (next upload)) : Kept (s.withUpload index phases next) := by
  rw [State.withUpload]
  split
  · rename_i upload hUpload
    split
    · exact hNext upload hUpload
    · exact hKept
  · exact hKept

theorem step_kept (hKept : Kept s) {event : Event} (hGuard : oneAtATime s event = true) : Kept (s.step event) := by
  cases event with
  | register entry localPath => exact hKept.register entry localPath
  | watchStarted index =>
    rw [step]
    split
    · rename_i registration hRegistration
      exact hKept.watchStarted index registration (by simpa [oneAtATime, hRegistration] using hGuard)
    · exact hKept
  | watchFailed index => exact ⟨hKept.files, hKept.uploads, hKept.recorded, hKept.unanswered⟩
  | watchLost watchId => exact hKept.stop watchId
  | fileChanged watchId change =>
    rw [step]
    split
    · rename_i watch hWatch
      exact hKept.fileChanged hWatch change (by simpa [oneAtATime, hWatch] using hGuard)
    · exact hKept
  | render => exact ⟨hKept.files, hKept.uploads, hKept.recorded, hKept.unanswered⟩
  | answer accepted => exact hKept.answer accepted (by simpa [oneAtATime, or_assoc] using hGuard)
  | uploaded index size modifiedAt =>
    refine hKept.withUpload index _ fun upload hUpload => hKept.uploaded hUpload size modifiedAt ?_
    simpa [oneAtATime, hUpload] using hGuard
  | uploadConflicted index =>
    exact hKept.withUpload index _ fun upload hUpload => hKept.uploadsChanged (set_uploads hUpload .asking)
  | uploadFailed index => exact hKept.withUpload index _ fun upload _ => hKept.uploadsChanged (erased_uploads index)
  | answerConflict index overwrite =>
    refine hKept.withUpload index _ fun upload hUpload => ?_
    split
    · exact hKept.uploadsChanged (set_uploads hUpload .overwriting)
    · exact hKept.uploadsChanged (erased_uploads index)
  | refreshed index listed =>
    refine hKept.withUpload index _ fun upload _ => ?_
    exact (hKept.uploadsChanged (erased_uploads index)).synced upload.watchedFile.remotePath listed

end SftpPage.OpenedFiles
