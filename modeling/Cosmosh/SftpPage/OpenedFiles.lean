import Cosmosh.Library.JsMap
import Cosmosh.Library.JsText
import Cosmosh.Library.Transition

/-! # Remote files opened in local applications

The main process watches the temporary copy of an opened file.
-/

namespace SftpPage.OpenedFiles

open Library

structure Snapshot where
  size : Nat
  modifiedAt : Text
  deriving DecidableEq

structure WatchedOpenFile where
  remotePath : Text
  name : Text
  localPath : Text
  watchId : Nat
  remoteSnapshot : Snapshot
  pendingChange : Option Snapshot
  isPromptOpen : Bool
  deriving DecidableEq

structure UploadPrompt where
  remotePath : Text
  name : Text
  localPath : Text
  size : Nat
  modifiedAt : Text
  change : Nat
  deriving DecidableEq

structure MainWatch where
  openedPath : Text
  localPath : Text
  live : Bool
  deriving DecidableEq

structure Entry where
  path : Text
  name : Text
  snapshot : Snapshot
  deriving DecidableEq

/-- A call of `registerWatchedOpenFile` that awaits its watch. -/
structure Registration where
  entry : Entry
  localPath : Text
  deriving DecidableEq

inductive UploadPhase
  | uploading
  | asking
  | overwriting
  | refreshing
  deriving DecidableEq

structure Upload where
  watchedFile : WatchedOpenFile
  prompt : UploadPrompt
  phase : UploadPhase
  deriving DecidableEq

structure Change where
  number : Nat
  file : Text
  deriving DecidableEq

/-- `answerablePrompt` is the prompt that the dialog of the last render would answer. -/
structure State where
  watchedOpenFiles : JsMap Text WatchedOpenFile
  uploadConfirmationPrompt : Option UploadPrompt
  answerablePrompt : Option UploadPrompt
  watches : List MainWatch
  registrations : List Registration
  uploads : List Upload
  unanswered : List Change
  changes : Nat

inductive Event
  | register (entry : Entry) (localPath : Text)
  | watchStarted (index : Nat)
  | watchFailed (index : Nat)
  | watchLost (watchId : Nat)
  | fileChanged (watchId : Nat) (change : Snapshot)
  | render
  | answer (accepted : Bool)
  | uploaded (index : Nat) (size : Option Nat) (modifiedAt : Option Text)
  | uploadConflicted (index : Nat)
  | uploadFailed (index : Nat)
  | answerConflict (index : Nat) (overwrite : Bool)
  | refreshed (index : Nat) (listed : Option Snapshot)

namespace State

def opened : State := ⟨.empty, none, none, [], [], [], [], 0⟩

def isLive (s : State) (watchId : Nat) : Bool :=
  match s.watches[watchId]? with
  | some watch => watch.live
  | none => false

def stopWatch (watches : List MainWatch) (watchId : Nat) : List MainWatch := watches.modify watchId fun watch => { watch with live := false }

/-- `registerWatchedOpenFile` up to its await. -/
def register (s : State) (entry : Entry) (localPath : Text) : State :=
  { s with
    watches :=
      match s.watchedOpenFiles.get? entry.path with
      | some existing => stopWatch s.watches existing.watchId
      | none => s.watches
    registrations := s.registrations ++ [⟨entry, localPath⟩] }

def watchStarted (s : State) (index : Nat) (registration : Registration) : State :=
  let entry := registration.entry
  { s with
    registrations := s.registrations.eraseIdx index
    watches := s.watches ++ [⟨entry.path, registration.localPath, true⟩]
    watchedOpenFiles := s.watchedOpenFiles.set entry.path
      ⟨entry.path, entry.name, registration.localPath, s.watches.length, entry.snapshot, none, false⟩ }

def noteChange (s : State) (file : Text) (live : Bool) : State :=
  { s with
    unanswered := s.unanswered.filter (·.file ≠ file) ++ if live then [⟨s.changes, file⟩] else []
    changes := s.changes + 1 }

/-- The handler of `onSftpTemporaryFileChanged`. An event of a watch that was stopped may still be under way. -/
def fileChanged (s : State) (watchId : Nat) (watch : MainWatch) (change : Snapshot) : State :=
  match s.watchedOpenFiles.values.find? (·.watchId = watchId) with
  | none => if watch.live then s.noteChange watch.openedPath true else s
  | some watchedFile =>
    let noted := s.noteChange watchedFile.remotePath watch.live
    { noted with
      watchedOpenFiles := s.watchedOpenFiles.set watchedFile.remotePath
        { watchedFile with pendingChange := some change, isPromptOpen := true }
      uploadConfirmationPrompt := some ⟨watchedFile.remotePath, watchedFile.name, watchedFile.localPath, change.size,
        change.modifiedAt, s.changes⟩ }

/-- `resolveUploadConfirmationPrompt` of the last render. -/
def resolveUploadConfirmationPrompt (s : State) (accepted : Bool) : State :=
  match s.answerablePrompt with
  | none => s
  | some prompt =>
    let answered := { s with
      uploadConfirmationPrompt := none
      unanswered := s.unanswered.filter (·.number ≠ prompt.change) }
    match s.watchedOpenFiles.get? prompt.remotePath with
    | none => answered
    | some watchedFile =>
      { answered with
        watchedOpenFiles := s.watchedOpenFiles.set prompt.remotePath
          { watchedFile with isPromptOpen := false, pendingChange := none }
        uploads := if accepted then s.uploads ++ [⟨watchedFile, prompt, .uploading⟩] else s.uploads }

def uploaded (s : State) (index : Nat) (upload : Upload) (size : Option Nat) (modifiedAt : Option Text) : State :=
  let watchedFile := upload.watchedFile
  { s with
    uploads := s.uploads.set index { upload with phase := .refreshing }
    watchedOpenFiles := s.watchedOpenFiles.set watchedFile.remotePath { watchedFile with
      remoteSnapshot := ⟨size.getD upload.prompt.size, modifiedAt.getD upload.prompt.modifiedAt⟩
      pendingChange := none
      isPromptOpen := false } }

/-- `syncWatchedOpenFileSnapshotFromCache`, given the cached listing's entry of the file. -/
def syncWatchedOpenFileSnapshotFromCache (s : State) (remotePath : Text) (listed : Option Snapshot) : State :=
  match s.watchedOpenFiles.get? remotePath, listed with
  | some watchedFile, some snapshot =>
    { s with watchedOpenFiles := s.watchedOpenFiles.set remotePath { watchedFile with remoteSnapshot := snapshot } }
  | _, _ => s

def withUpload (s : State) (index : Nat) (phases : List UploadPhase) (next : Upload → State) : State :=
  match s.uploads[index]? with
  | some upload => if upload.phase ∈ phases then next upload else s
  | none => s

def step (s : State) : Event → State
  | .register entry localPath => s.register entry localPath
  | .watchStarted index =>
    match s.registrations[index]? with
    | some registration => s.watchStarted index registration
    | none => s
  | .watchFailed index => { s with registrations := s.registrations.eraseIdx index }
  | .watchLost watchId => { s with watches := stopWatch s.watches watchId }
  | .fileChanged watchId change =>
    match s.watches[watchId]? with
    | some watch => s.fileChanged watchId watch change
    | none => s
  | .render => { s with answerablePrompt := s.uploadConfirmationPrompt }
  | .answer accepted => s.resolveUploadConfirmationPrompt accepted
  | .uploaded index size modifiedAt =>
    s.withUpload index [.uploading, .overwriting] fun upload => s.uploaded index upload size modifiedAt
  | .uploadConflicted index =>
    s.withUpload index [.uploading] fun upload =>
      { s with uploads := s.uploads.set index { upload with phase := .asking } }
  | .uploadFailed index =>
    s.withUpload index [.uploading, .overwriting] fun _ => { s with uploads := s.uploads.eraseIdx index }
  | .answerConflict index overwrite =>
    s.withUpload index [.asking] fun upload =>
      if overwrite then { s with uploads := s.uploads.set index { upload with phase := .overwriting } }
      else { s with uploads := s.uploads.eraseIdx index }
  | .refreshed index listed =>
    s.withUpload index [.refreshing] fun upload =>
      { s with uploads := s.uploads.eraseIdx index }.syncWatchedOpenFileSnapshotFromCache
        upload.watchedFile.remotePath listed

end State

open Transition State

end SftpPage.OpenedFiles
