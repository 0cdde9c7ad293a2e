import Cosmosh.Library.DisplayedText
import Cosmosh.Sftp.RemoteContents
import Cosmosh.Sftp.ReplaceAtomicity
import Cosmosh.SftpPage.PreviewSave

/-! # Editing a file through its text preview

The file is decoded as UTF-8, the editor splits the text into lines, and a save encodes the lines joined with line
feeds.
-/

namespace SftpPage.Preview

open Library DisplayedText PosixPath Sftp

structure PreviewEntry where
  path : Text
  isSftpTextPreviewEntry : Bool
  size : Nat
  modifiedAt : Text

inductive PreviewState
  | noText
  | tooLargeToOpen
  | largeFile (thresholdBytes : Nat)
  | failed
  | text (preview : TextPreview)
  deriving DecidableEq

def MAX_SFTP_TEXT_PREVIEW_WARNING_THRESHOLD_BYTES : Nat := 16 * 1024 * 1024

def previewMaxBytes (entry : PreviewEntry) : Nat :=
  max 1024 (min MAX_SFTP_TEXT_PREVIEW_WARNING_THRESHOLD_BYTES (if entry.size = 0 then 1024 else entry.size))

def previewOf (entry : PreviewEntry) : SftpResult SftpFilePreview → PreviewState
  | .success data =>
    if data.truncated then .tooLargeToOpen
    else
      let content := Utf8.decode data.content
      .text ⟨content, content, ⟨data.size.getD 0, entry.modifiedAt⟩, false⟩
  | _ => .failed

def loadPreviewForEntry (session : SftpLiveSession) (entry : PreviewEntry) (force : Bool)
    (sftpTextPreviewWarningThresholdBytes : Nat) : SftpProgram PreviewState :=
  let thresholdBytes := min sftpTextPreviewWarningThresholdBytes MAX_SFTP_TEXT_PREVIEW_WARNING_THRESHOLD_BYTES
  if !entry.isSftpTextPreviewEntry then pure .noText
  else if entry.size > MAX_SFTP_TEXT_PREVIEW_WARNING_THRESHOLD_BYTES ∧ force then pure .tooLargeToOpen
  else if !force ∧ entry.size > thresholdBytes then pure (.largeFile thresholdBytes)
  else previewOf entry <$> readFilePreviewPrimitive session (some entry.path) (some (previewMaxBytes entry))

structure Document where
  lines : List Text
  deriving DecidableEq

namespace Document

def of (text : Text) : Document := ⟨splitLines text⟩

def toString (doc : Document) : Text := joinLines doc.lines

structure Range (doc : Document) where
  start : Nat
  stop : Nat
  ordered : start ≤ stop
  inside : stop ≤ doc.toString.length

def replaceRange (doc : Document) (range : doc.Range) (inserted : Text) : Document :=
  of (doc.toString.take range.start ++ (of inserted).toString ++ doc.toString.drop range.stop)

theorem toString_of (text : Text) : (of text).toString = displayed text := joinLines_splitLines text

theorem toString_replaceRange (doc : Document) (hReturn : '\r' ∉ doc.toString) (range : doc.Range) (inserted : Text) :
    (doc.replaceRange range inserted).toString = doc.toString.take range.start ++ displayed inserted ++ doc.toString.drop range.stop := by
  rw [replaceRange, toString_of, toString_of, displayed_of_no_return]
  simp only [List.mem_append, not_or]
  exact ⟨⟨fun hFront => hReturn (List.mem_of_mem_take hFront), no_return_displayed inserted⟩,
    fun hBack => hReturn (List.mem_of_mem_drop hBack)⟩

end Document

def editAndSave (preview : TextPreview) (range : (Document.of preview.content).Range) (inserted : Text) : State :=
  let edited := (Document.of preview.content).replaceRange range inserted
  previews.run (State.opened preview.content preview.remoteSnapshot) [.type edited.toString, .render, .save]

theorem content_of_editAndSave {preview : TextPreview} {range : (Document.of preview.content).Range} {inserted : Text}
    {save : Save} (hSave : save ∈ (editAndSave preview range inserted).saves) :
    save.preview.content = (displayed preview.content).take range.start ++ displayed inserted ++
      (displayed preview.content).drop range.stop := by
  let edited := ((Document.of preview.content).replaceRange range inserted).toString
  have hSaves : (editAndSave preview range inserted).saves = if edited = preview.content then []
      else [⟨⟨edited, preview.content, preview.remoteSnapshot, false⟩, .writing⟩] := by
    let shown : TextPreview := ⟨edited, preview.content, preview.remoteSnapshot, false⟩
    have hRendered : editAndSave preview range inserted = State.handlePreviewSave ⟨shown, shown, 0, [], edited,
      preview.content⟩ := rfl
    rw [hRendered, State.handlePreviewSave]
    dsimp only [shown]
    split
    · rename_i hClean
      rw [if_pos (hClean.resolve_left (by rintro ⟨⟩))]
    · rename_i hDirty
      rw [if_neg (not_or.mp hDirty).2]
      rfl
  rw [hSaves] at hSave
  split at hSave
  · exact absurd hSave List.not_mem_nil
  · rw [List.mem_singleton.mp hSave]
    have hDoc : (Document.of preview.content).toString = displayed preview.content := Document.toString_of _
    rw [← hDoc]
    exact Document.toString_replaceRange _ (hDoc ▸ no_return_displayed _) range inserted

def writeSftpFile (session : SftpLiveSession) (runtime : Runtime) (path : Text) (preview : TextPreview)
    (overwrite : Bool) : SftpProgram SftpOperationResult :=
  writeTextFilePrimitive session runtime (some path) (Utf8.encode preview.content)
    ⟨.finite preview.remoteSnapshot.size, preview.remoteSnapshot.modifiedAt⟩ overwrite

def performSave (session : SftpLiveSession) (runtime overwriteRuntime : Runtime) (path : Text) (save : Save)
    (shouldOverwrite : Bool) : SftpProgram SftpOperationResult := do
  let response ← writeSftpFile session runtime path save.preview false
  match response with
  | .failed _ true _ =>
    if shouldOverwrite then writeSftpFile session overwriteRuntime path save.preview true else pure response
  | _ => pure response

theorem ends_performSave (session : SftpLiveSession) (runtime overwriteRuntime : Runtime) (path : Text) (save : Save)
    (shouldOverwrite : Bool) (remote : RemoteFiles) :
    Ends (Writes remote.home (remote.locate (normalizeSftpPathInput (some path))) (Utf8.encode save.preview.content))
      (performSave session runtime overwriteRuntime path save shouldOverwrite) remote := by
  refine (ends_writeTextFilePrimitive session runtime remote path _ _ false).bind ?_ ?_
  · rintro response written ⟨hHome, hFile⟩
    have hAgain := ends_writeTextFilePrimitive session overwriteRuntime written path
      (Utf8.encode save.preview.content)
      ⟨.finite save.preview.remoteSnapshot.size, save.preview.remoteSnapshot.modifiedAt⟩ true
    rw [hHome, RemoteFiles.locate, hHome] at hAgain
    split
    · split
      · exact hAgain
      · exact ⟨hHome, hFile⟩
    · exact ⟨hHome, hFile⟩
  · exact fun _ _ hWrites => writes_of_no_success hWrites.1 nofun

theorem ends_loadPreviewForEntry (session : SftpLiveSession) (entry : PreviewEntry) (force : Bool) (threshold : Nat)
    {remote : RemoteFiles} {bytes : Bytes} (hFile : remote.files (remote.locate (normalizeSftpPathInput (some entry.path))) = some bytes) :
    Ends (fun outcome remote' => SameFiles remote remote' ∧ ∀ preview, outcome = .ok (.text preview) →
      preview.content = Utf8.decode bytes) (loadPreviewForEntry session entry force threshold) remote := by
  have hNoText : ∀ {state : PreviewState}, (∀ preview, state ≠ .text preview) →
      SameFiles remote remote ∧ ∀ preview, (Except.ok state : Except SftpError PreviewState) = .ok (.text preview) →
        preview.content = Utf8.decode bytes :=
    fun hState => ⟨⟨rfl, rfl⟩, fun preview hText => absurd (Except.ok.inj hText) (hState preview)⟩
  rw [loadPreviewForEntry]
  split
  · exact hNoText nofun
  · split
    · exact hNoText nofun
    · split
      · exact hNoText nofun
      · refine (ends_readFilePreviewPrimitive session hFile (previewMaxBytes entry)).bind ?_ ?_
        · rintro response remote' ⟨hSame, hShows⟩
          refine ⟨hSame, fun preview hText => ?_⟩
          replace hText := Except.ok.inj hText
          cases response with
          | notFound => cases hText
          | failed => cases hText
          | success data =>
            obtain ⟨hContent, -, hTruncated⟩ := hShows data rfl
            rw [previewOf] at hText
            split at hText
            · cases hText
            · rename_i hWhole
              cases hText
              rw [hTruncated, decide_eq_true_eq] at hWhole
              dsimp only
              rw [hContent, List.take_of_length_le (by omega)]
        · exact fun _ _ hShows => ⟨hShows.1, nofun⟩

/-- A file is opened, one range of what is shown is replaced, and the save succeeds. Nobody else writes. -/
structure SavedEdit (entry : PreviewEntry) (bytes : Bytes) where
  session : SftpLiveSession
  remote : RemoteFiles
  isFile : remote.files (remote.locate (normalizeSftpPathInput (some entry.path))) = some bytes
  force : Bool
  sftpTextPreviewWarningThresholdBytes : Nat
  preview : TextPreview
  opened : RemoteFiles
  opens : Program.Steps remoteContents
    (loadPreviewForEntry session entry force sftpTextPreviewWarningThresholdBytes, remote)
    (.done (.text preview), opened)
  range : (Document.of preview.content).Range
  inserted : Text
  save : Save
  isSave : save ∈ (editAndSave preview range inserted).saves
  saveSession : SftpLiveSession
  runtime : Runtime
  overwriteRuntime : Runtime
  shouldOverwrite : Bool
  data : SftpOperationData
  saved : RemoteFiles
  saves : Program.Steps remoteContents
    (performSave saveSession runtime overwriteRuntime entry.path save shouldOverwrite, opened)
    (.done (.success data), saved)

namespace SavedEdit

variable {entry : PreviewEntry} {bytes : Bytes} (edit : SavedEdit entry bytes)

def result : Option Bytes := edit.saved.files (edit.saved.locate (normalizeSftpPathInput (some entry.path)))

def IsLossless : Prop := edit.result = some (replaceBytes bytes edit.range.start edit.range.stop edit.inserted)

theorem result_eq : edit.result = some (Utf8.encode ((displayed (Utf8.decode bytes)).take edit.range.start ++
    displayed edit.inserted ++ (displayed (Utf8.decode bytes)).drop edit.range.stop)) := by
  obtain ⟨⟨hHome, -⟩, hContent⟩ := (ends_loadPreviewForEntry edit.session entry edit.force
    edit.sftpTextPreviewWarningThresholdBytes edit.isFile).steps edit.opens
  obtain ⟨hSavedHome, hWritten⟩ := (ends_performSave edit.saveSession edit.runtime edit.overwriteRuntime entry.path
    edit.save edit.shouldOverwrite edit.opened).steps edit.saves
  have hPlace : edit.saved.locate (normalizeSftpPathInput (some entry.path)) =
      edit.opened.locate (normalizeSftpPathInput (some entry.path)) := congrArg (resolveFrom · _) hSavedHome
  rw [result, hPlace, ← hContent edit.preview rfl, ← content_of_editAndSave edit.isSave]
  exact hWritten edit.data rfl

/-- Every other byte survives exactly if what is around the range is well-formed UTF-8 without a carriage
return, and what is inserted has none. -/
theorem isLossless_iff : edit.IsLossless ↔
    Plain (bytesBefore bytes edit.range.start) ∧ Plain (bytesFrom bytes edit.range.stop) ∧ '\r' ∉ edit.inserted := by
  rw [IsLossless, edit.result_eq, Option.some.injEq]
  exact encode_edit_eq_iff bytes edit.range.start edit.range.stop edit.inserted

end SavedEdit

deriving instance DecidableEq for SftpOperationFailureMetadata, SftpOperationData, SftpResult

theorem steps_answered {α : Type} {program : SftpProgram α} {remote : RemoteFiles} {a : α}
    (hOk : (Program.run RemoteFiles.answer program remote).1 = .ok a) :
    Program.Steps remoteContents (program, remote) (.done a, (Program.run RemoteFiles.answer program remote).2) := by
  have hSteps := Program.steps_run program (s := remote) RemoteFiles.answer_admitted
  rwa [hOk] at hSteps

def singleFile (bytes : Bytes) : RemoteFiles where
  home := []
  files place := if place = ["a".toList] then some bytes else none
  handles _ := none

theorem files_singleFile (bytes : Bytes) {place : List Text} (hPlace : place = ["a".toList]) :
    (singleFile bytes).files place = some bytes := if_pos hPlace

def singleEntry (size : Nat) : PreviewEntry := ⟨"/a".toList, true, size, []⟩

theorem locate_singleEntry : resolveFrom [] (normalizeSftpPathInput (some "/a".toList)) = ["a".toList] := by
  decide

def opening (bytes : Bytes) : Except SftpError PreviewState × RemoteFiles :=
  Program.run RemoteFiles.answer (loadPreviewForEntry plainSession (singleEntry bytes.length) false 1024)
    (singleFile bytes)

def saving (bytes : Bytes) (save : Save) : Except SftpError SftpOperationResult × RemoteFiles :=
  Program.run RemoteFiles.answer (performSave plainSession fixedRuntime fixedRuntime "/a".toList save true)
    (opening bytes).2

/-- The file is the only one, the server grants every request, and a conflict is overridden. -/
def answeredEdit (bytes : Bytes) (preview : TextPreview) (hOpens : (opening bytes).1 = .ok (.text preview))
    (range : (Document.of preview.content).Range) (inserted : Text) (save : Save)
    (hSave : save ∈ (editAndSave preview range inserted).saves) (data : SftpOperationData)
    (hSaves : (saving bytes save).1 = .ok (.success data)) : SavedEdit (singleEntry bytes.length) bytes where
  session := plainSession
  remote := singleFile bytes
  isFile := files_singleFile bytes locate_singleEntry
  force := false
  sftpTextPreviewWarningThresholdBytes := 1024
  preview := preview
  opened := (opening bytes).2
  opens := steps_answered hOpens
  range := range
  inserted := inserted
  save := save
  isSave := hSave
  saveSession := plainSession
  runtime := fixedRuntime
  overwriteRuntime := fixedRuntime
  shouldOverwrite := true
  data := data
  saved := (saving bytes save).2
  saves := steps_answered hSaves

def writtenTo (size : Nat) : SftpOperationData := ⟨"s".toList, "/a".toList, none, some size, some 0⟩

def plainEdit : SavedEdit (singleEntry 2) [0x61, 0x62] :=
  let content := ['a', 'b']
  let edited := ['a', 'é']
  answeredEdit [0x61, 0x62] ⟨content, content, ⟨2, []⟩, false⟩ (by decide) ⟨1, 2, by decide, by decide⟩
    ['é'] ⟨⟨edited, content, ⟨2, []⟩, false⟩, .writing⟩ (by decide) (writtenTo 3) (by decide)

theorem plainEdit_isLossless : plainEdit.IsLossless := plainEdit.isLossless_iff.mpr (by decide)

def malformedEdit : SavedEdit (singleEntry 2) [0xff, 0x61] :=
  let content := [Utf8.replacement, 'a']
  let edited := [Utf8.replacement, 'b']
  answeredEdit [0xff, 0x61] ⟨content, content, ⟨2, []⟩, false⟩ (by decide) ⟨1, 2, by decide, by decide⟩
    ['b'] ⟨⟨edited, content, ⟨2, []⟩, false⟩, .writing⟩ (by decide) (writtenTo 4) (by decide)

def carriageReturnEdit : SavedEdit (singleEntry 4) [0x61, 0x0d, 0x0a, 0x62] :=
  let content := ['a', '\r', '\n', 'b']
  let edited := ['c', '\n', 'b']
  answeredEdit [0x61, 0x0d, 0x0a, 0x62] ⟨content, content, ⟨4, []⟩, false⟩ (by decide)
    ⟨0, 1, by decide, by decide⟩ ['c'] ⟨⟨edited, content, ⟨4, []⟩, false⟩, .writing⟩ (by decide)
    (writtenTo 3) (by decide)

theorem edits_damage_other_bytes : malformedEdit.result = some [0xef, 0xbf, 0xbd, 0x62] ∧ ¬ malformedEdit.IsLossless ∧
    carriageReturnEdit.result = some [0x63, 0x0a, 0x62] ∧ ¬ carriageReturnEdit.IsLossless := by
  have hMalformed : malformedEdit.result = some [0xef, 0xbf, 0xbd, 0x62] := by decide
  have hReturn : carriageReturnEdit.result = some [0x63, 0x0a, 0x62] := by decide
  refine ⟨hMalformed, fun hLossless => ?_, hReturn, fun hLossless => ?_⟩
  · rw [SavedEdit.IsLossless, hMalformed] at hLossless
    exact absurd hLossless (by decide)
  · rw [SavedEdit.IsLossless, hReturn] at hLossless
    exact absurd hLossless (by decide)

end SftpPage.Preview
