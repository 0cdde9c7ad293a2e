import Cosmosh.Library.JsText
import Cosmosh.Library.Transition

/-! # Saving a text preview

A save writes the text of the last render, and its end puts that text back.
-/

namespace SftpPage.Preview

open Library Transition

structure RemoteSnapshot where
  size : Nat
  modifiedAt : Text
  deriving DecidableEq

structure TextPreview where
  content : Text
  savedContent : Text
  remoteSnapshot : RemoteSnapshot
  isSaving : Bool
  deriving DecidableEq

inductive SavePhase
  | writing
  | asking
  | overwriting
  | refreshing
  deriving DecidableEq

structure Save where
  preview : TextPreview
  phase : SavePhase
  deriving DecidableEq

structure State where
  preview : TextPreview
  activeTextPreview : TextPreview
  clipboardEdits : Nat
  saves : List Save
  typed : Text
  stored : Text
  deriving DecidableEq

inductive Event
  | type (content : Text)
  | beginClipboardEdit
  | finishClipboardEdit (content : Text)
  | render
  | save
  | written (size : Option Nat) (modifiedAt : Option Text) (now : Text)
  | conflicted
  | failed
  | answerConflict (overwrite : Bool)
  | refreshed

def measureUtf8ByteLength (value : Text) : Nat := (value.map Char.utf8Size).sum

namespace State

def opened (content : Text) (remoteSnapshot : RemoteSnapshot) : State :=
  let preview : TextPreview := ⟨content, content, remoteSnapshot, false⟩
  ⟨preview, preview, 0, [], content, content⟩

/-- `readOnly` of the editor. -/
def readOnly (s : State) : Bool := s.activeTextPreview.isSaving

def handlePreviewContentChange (s : State) (content : Text) : State :=
  { s with preview := { s.preview with content := content }, typed := content }

def setPreviewSaving (s : State) (isSaving : Bool) : State := { s with preview := { s.preview with isSaving := isSaving } }

def handlePreviewSave (s : State) : State :=
  let preview := s.activeTextPreview
  if preview.isSaving ∨ preview.content = preview.savedContent then s
  else { s.setPreviewSaving true with saves := s.saves ++ [⟨preview, .writing⟩] }

def written (s : State) (save : Save) (waiting : List Save) (size : Option Nat) (modifiedAt : Option Text)
    (now : Text) : State :=
  let content := save.preview.content
  { s with
    preview := {
      content := content
      savedContent := content
      remoteSnapshot := ⟨size.getD (measureUtf8ByteLength content), modifiedAt.getD now⟩
      isSaving := false }
    saves := { save with phase := .refreshing } :: waiting
    stored := content }

def withSave (s : State) (phases : List SavePhase) (next : Save → List Save → State) : State :=
  match s.saves with
  | save :: waiting => if save.phase ∈ phases then next save waiting else s
  | [] => s

def step (s : State) : Event → State
  | .type content => if s.readOnly then s else s.handlePreviewContentChange content
  | .beginClipboardEdit => if s.readOnly then s else { s with clipboardEdits := s.clipboardEdits + 1 }
  | .finishClipboardEdit content =>
    if s.clipboardEdits = 0 then s
    else { s with clipboardEdits := s.clipboardEdits - 1 }.handlePreviewContentChange content
  | .render => { s with activeTextPreview := s.preview }
  | .save => s.handlePreviewSave
  | .written size modifiedAt now =>
    s.withSave [.writing, .overwriting] fun save waiting => s.written save waiting size modifiedAt now
  | .conflicted => s.withSave [.writing] fun save waiting => { s with saves := { save with phase := .asking } :: waiting }
  | .failed => s.withSave [.writing, .overwriting] fun _ waiting => { s.setPreviewSaving false with saves := waiting }
  | .answerConflict overwrite =>
    s.withSave [.asking] fun save waiting =>
      if overwrite then { s with saves := { save with phase := .overwriting } :: waiting }
      else { s.setPreviewSaving false with saves := waiting }
  | .refreshed => s.withSave [.refreshing] fun _ waiting => { s with saves := waiting }

end State

open State

def previews : Machine State Event where
  initial s := ∃ content remoteSnapshot, s = opened content remoteSnapshot
  step := step

def TypingKept (s : State) : Prop :=
  s.preview.content = s.typed ∧ s.preview.savedContent = s.stored ∧
    (s.preview.content ≠ s.preview.savedContent ↔ s.typed ≠ s.stored)

def unchangedWhileSaving (s : State) : Event → Bool
  | .written _ _ _ =>
    match s.saves with
    | save :: _ => save.phase ∉ [.writing, .overwriting] || s.preview.content = save.preview.content
    | [] => true
  | _ => true

theorem State.withSave_cases (s : State) (phases : List SavePhase) (next : Save → List Save → State) : s.withSave phases next = s ∨
    ∃ save waiting, s.saves = save :: waiting ∧ save.phase ∈ phases ∧ s.withSave phases next = next save waiting := by
  rw [withSave]
  split
  · rename_i save waiting hSaves
    split
    · rename_i hPhase
      exact .inr ⟨save, waiting, hSaves, hPhase, rfl⟩
    · exact .inl rfl
  · exact .inl rfl

structure LeavesSaved (s s' : State) : Prop where
  savedContent : s'.preview.savedContent = s.preview.savedContent
  stored : s'.stored = s.stored
  content : s'.preview.content = s'.typed ∨ (s'.preview.content = s.preview.content ∧ s'.typed = s.typed)

theorem leavesSaved_of_same {s s' : State} (hContent : s'.preview.content = s.preview.content)
    (hSaved : s'.preview.savedContent = s.preview.savedContent) (hTyped : s'.typed = s.typed)
    (hStored : s'.stored = s.stored) : LeavesSaved s s' := ⟨hSaved, hStored, .inr ⟨hContent, hTyped⟩⟩

theorem leavesSaved_refl (s : State) : LeavesSaved s s := leavesSaved_of_same rfl rfl rfl rfl

theorem withSave_leavesSaved {s : State} {phases : List SavePhase} {next : Save → List Save → State}
    (hNext : ∀ save waiting, LeavesSaved s (next save waiting)) : LeavesSaved s (s.withSave phases next) := by
  rcases s.withSave_cases phases next with hSame | ⟨save, waiting, -, -, hNow⟩
  · rw [hSame]
    exact leavesSaved_refl s
  · rw [hNow]
    exact hNext save waiting

theorem State.step_cases (s : State) (event : Event) : LeavesSaved s (s.step event) ∨
    ∃ save waiting size modifiedAt now, s.saves = save :: waiting ∧ save.phase ∈ [.writing, .overwriting] ∧
      event = .written size modifiedAt now ∧ s.step event = s.written save waiting size modifiedAt now := by
  have hSame := leavesSaved_refl s
  cases event with
  | type content =>
    rw [step]
    split
    · exact .inl hSame
    · exact .inl ⟨rfl, rfl, .inl rfl⟩
  | beginClipboardEdit =>
    rw [step]
    split
    · exact .inl hSame
    · exact .inl (leavesSaved_of_same rfl rfl rfl rfl)
  | finishClipboardEdit content =>
    rw [step]
    split
    · exact .inl hSame
    · exact .inl ⟨rfl, rfl, .inl rfl⟩
  | render => exact .inl (leavesSaved_of_same rfl rfl rfl rfl)
  | save =>
    rw [step, handlePreviewSave]
    dsimp only
    split
    · exact .inl hSame
    · exact .inl (leavesSaved_of_same rfl rfl rfl rfl)
  | written size modifiedAt now =>
    rcases s.withSave_cases [.writing, .overwriting] fun save waiting => s.written save waiting size modifiedAt now with
      hNothing | ⟨save, waiting, hSaves, hPhase, hNow⟩
    · rw [step, hNothing]
      exact .inl hSame
    · exact .inr ⟨save, waiting, size, modifiedAt, now, hSaves, hPhase, rfl, hNow⟩
  | conflicted => exact .inl (withSave_leavesSaved fun _ _ => leavesSaved_of_same rfl rfl rfl rfl)
  | failed => exact .inl (withSave_leavesSaved fun _ _ => leavesSaved_of_same rfl rfl rfl rfl)
  | answerConflict overwrite =>
    refine .inl (withSave_leavesSaved fun _ _ => ?_)
    split <;> exact leavesSaved_of_same rfl rfl rfl rfl
  | refreshed => exact .inl (withSave_leavesSaved fun _ _ => leavesSaved_of_same rfl rfl rfl rfl)

def Shown (s : State) : Prop := s.preview.content = s.typed ∧ s.preview.savedContent = s.stored

theorem step_shown {s : State} (hShown : Shown s) {event : Event} (hUnchanged : unchangedWhileSaving s event = true) :
    Shown (s.step event) := by
  obtain ⟨hContent, hSaved⟩ := hShown
  rcases s.step_cases event with hLeaves | ⟨save, waiting, size, modifiedAt, now, hSaves, hPhase, rfl, hStep⟩
  · refine ⟨?_, hLeaves.savedContent.trans (hSaved.trans hLeaves.stored.symm)⟩
    rcases hLeaves.content with hTyped | ⟨hSame, hTyped⟩
    · exact hTyped
    · exact hSame.trans (hContent.trans hTyped.symm)
  · rw [hStep]
    have hWritten : s.preview.content = save.preview.content := by
      simpa [unchangedWhileSaving, hSaves, hPhase] using hUnchanged
    exact ⟨hWritten.symm.trans hContent, rfl⟩

/-- While every write that succeeds finds the text that it wrote still in the preview, no typing is discarded. -/
theorem typing_is_kept {s : State}
    (hReachable : previews.ReachableWhile (fun s event => unchangedWhileSaving s event = true) s) : TypingKept s := by
  have hShown : Shown s := by
    refine hReachable.invariant ?_ fun s event hShown hUnchanged => step_shown hShown hUnchanged
    rintro _ ⟨content, remoteSnapshot, rfl⟩
    exact ⟨rfl, rfl⟩
  obtain ⟨hContent, hSaved⟩ := hShown
  exact ⟨hContent, hSaved, by rw [hContent, hSaved]⟩

theorem typing_after_conflict_is_kept : TypingKept (previews.run (opened ['a'] ⟨1, []⟩)
      [.type ['a', 'b'], .render, .save, .render, .type ['x'], .conflicted, .answerConflict true,
        .written none none [], .refreshed, .render, .type ['a', 'b', 'c']]) := by
  have hStart : previews.ReachableWhile (fun s event => unchangedWhileSaving s event = true) (opened ['a'] ⟨1, []⟩) := .start ⟨_, _, rfl⟩
  exact typing_is_kept (hStart.run (by decide))

def pasteDuringSave : List Event :=
  [.type ['a', 'b'], .render, .beginClipboardEdit, .save, .render, .finishClipboardEdit ['a', 'b', 'c'],
    .written none none [], .refreshed]

theorem save_discards_paste : previews.Reachable (previews.run (opened ['a'] ⟨1, []⟩) pasteDuringSave) ∧
    (previews.run (opened ['a'] ⟨1, []⟩) pasteDuringSave).saves = [] ∧
    (previews.run (opened ['a'] ⟨1, []⟩) pasteDuringSave).typed = ['a', 'b', 'c'] ∧
    (previews.run (opened ['a'] ⟨1, []⟩) pasteDuringSave).preview.content = ['a', 'b'] ∧
    ¬ TypingKept (previews.run (opened ['a'] ⟨1, []⟩) pasteDuringSave) := by
  have hStart : previews.Reachable (opened ['a'] ⟨1, []⟩) := .start ⟨_, _, rfl⟩
  refine ⟨hStart.run pasteDuringSave, by decide, by decide, by decide, fun hKept => ?_⟩
  exact absurd hKept.1 (by decide)

end SftpPage.Preview
