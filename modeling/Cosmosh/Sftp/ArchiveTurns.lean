import Cosmosh.Sftp.ArchiveService

/-! # What a turn does to an archive operation

A turn leaves a finished record alone and keeps every other one ready to be finished.
-/

namespace Sftp

open Library Archive

namespace Archive

structure Within (record record' : ArchiveOperationRecord) : Prop where
  sessionId : record'.publicData.sessionId = record.publicData.sessionId
  operationId : record'.publicData.operationId = record.publicData.operationId
  errorCode : record'.publicData.errorCode = record.publicData.errorCode
  state : record.publicData.state.isTerminal = false → record'.publicData.state.isTerminal = false
  forcedFailure : record'.forcedFailure = record.forcedFailure
  progress : record'.progress = record.progress
  cleanup : record'.cleanup = record.cleanup
  completion : record'.completion = record.completion

theorem Within.refl (record : ArchiveOperationRecord) : Within record record := ⟨rfl, rfl, rfl, id, rfl, rfl, rfl, rfl⟩

theorem Within.trans {a b c : ArchiveOperationRecord} (hab : Within a b) (hbc : Within b c) : Within a c where
  sessionId := hbc.sessionId.trans hab.sessionId
  operationId := hbc.operationId.trans hab.operationId
  errorCode := hbc.errorCode.trans hab.errorCode
  state := fun h => hbc.state (hab.state h)
  forcedFailure := hbc.forcedFailure.trans hab.forcedFailure
  progress := hbc.progress.trans hab.progress
  cleanup := hbc.cleanup.trans hab.cleanup
  completion := hbc.completion.trans hab.completion

variable {record record' : ArchiveOperationRecord} {q : ArchiveAsk} {answer : Except ArchiveError q.Answer}

variable {α : Type}

def touchesPublicData : ArchiveAsk → Bool
  | .setStage _ | .beginConflicts _ | .endConflicts => true
  | _ => false

def Quiet {α : Type} (program : ArchiveProgram α) : Prop :=
  Program.Keeps (fun _ _ _ _ => True) (fun _ q => touchesPublicData q = false) (fun _ : Unit => True) (fun _ => True) program

theorem Quiet.bind {β : Type} {p : ArchiveProgram α} {f : α → ArchiveProgram β} (h : Quiet p) (hRest : ∀ a, Quiet (f a)) :
    Quiet (p >>= f) := Program.Keeps.bind h fun a _ => hRest a

theorem Quiet.attempt {p : ArchiveProgram α} (h : Quiet p) : Quiet (Program.attempt p) := Program.Keeps.attempt h

theorem Quiet.resume {resume : Except ArchiveError q.Answer → ArchiveProgram α} (h : Quiet (.ask q resume))
    (answer : Except ArchiveError q.Answer) : Quiet (resume answer) :=
  fun s hInvariant => (h s hInvariant).2 answer s trivial

theorem publicData_immediate {now : Nat} {isClosed : Bool} (h : immediate now isClosed record q = some (answer, record'))
    (hQuiet : touchesPublicData q = false) : record'.publicData = record.publicData := by
  cases q <;> cases h <;> first | rfl | cases hQuiet

theorem Quiet.settle {program : ArchiveProgram α} (h : Quiet program) (now : Nat) (isClosed : Bool) (record : ArchiveOperationRecord) :
    (settle now isClosed program record).2.publicData = record.publicData ∧ Quiet (settle now isClosed program record).1 := by
  induction program generalizing record with
  | done a => exact ⟨rfl, h⟩
  | fail e => exact ⟨rfl, h⟩
  | ask q resume ih =>
    rw [Archive.settle]
    split
    · next answer record' hImmediate =>
      obtain ⟨hSame, hRest⟩ := ih answer (h.resume answer) record'
      exact ⟨hSame.trans (publicData_immediate hImmediate (h () trivial).1), hRest⟩
    · exact ⟨rfl, h⟩

theorem Quiet.answered {program rest : ArchiveProgram α} (h : Quiet program) (hAnswered : answered q answer program = some rest) :
    Quiet rest := by
  cases program with
  | done a => cases hAnswered
  | fail e => cases hAnswered
  | ask q' resume =>
    rw [Archive.answered] at hAnswered
    split at hAnswered
    · obtain rfl := Option.some.inj hAnswered
      exact h.resume _
    · cases hAnswered

structure Consistent (record : ArchiveOperationRecord) : Prop where
  state : record.publicData.state.isTerminal = record.isFinished
  completion : record.completion = if record.isFinished then some record.publicData else none
  cleanup : ∀ program, record.cleanup = some program → Quiet program
  forcedFailure : ∀ failure, record.forcedFailure = some failure → failure.1 = .timeout

structure Advances (record record' : ArchiveOperationRecord) : Prop where
  sessionId : record'.publicData.sessionId = record.publicData.sessionId
  forcedFailure : record.forcedFailure.isSome = true → record'.forcedFailure.isSome = true
  consistent : Consistent record'
  final : record.isFinished = true →
    record'.isFinished = true ∧ record'.publicData = record.publicData ∧ record'.completion = record.completion

theorem Advances.refl (h : Consistent record) : Advances record record := ⟨rfl, id, h, fun hFinished => ⟨hFinished, rfl, rfl⟩⟩

theorem Advances.trans {a b c : ArchiveOperationRecord} (hab : Advances a b) (hbc : Advances b c) : Advances a c where
  sessionId := hbc.sessionId.trans hab.sessionId
  forcedFailure := fun hForced => hbc.forcedFailure (hab.forcedFailure hForced)
  consistent := hbc.consistent
  final hFinished := by
    obtain ⟨hThere, hData, hCompletion⟩ := hab.final hFinished
    obtain ⟨hThere, hData', hCompletion'⟩ := hbc.final hThere
    exact ⟨hThere, hData'.trans hData, hCompletion'.trans hCompletion⟩

theorem Within.isFinished (h : Within record record') : record'.isFinished = record.isFinished := by
  rw [ArchiveOperationRecord.isFinished, h.progress, ArchiveOperationRecord.isFinished]

theorem Within.advances (h : Within record record') (hConsistent : Consistent record)
    (hData : record.isFinished = true → record'.publicData = record.publicData) : Advances record record' := by
  refine ⟨h.sessionId, fun hForced => h.forcedFailure ▸ hForced, ⟨?_, ?_, ?_, ?_⟩, fun hFinished => ⟨h.isFinished.trans hFinished, hData hFinished, h.completion⟩⟩
  · rw [h.isFinished]
    cases hFinished : record.isFinished with
    | true => rw [hData hFinished, hConsistent.state, hFinished]
    | false => exact h.state (hConsistent.state.trans hFinished)
  · rw [h.isFinished, h.completion, hConsistent.completion]
    split
    · next hFinished => rw [hData hFinished]
    · rfl
  · rw [h.cleanup]
    exact hConsistent.cleanup
  · rw [h.forcedFailure]
    exact hConsistent.forcedFailure

def TimeoutKept (record : ArchiveOperationRecord) : Prop :=
  record.forcedFailure.isSome = true →
    match record.progress with
    | .working _ => True
    | .cleaning outcome => outcome = .failed ∧ record.publicData.errorCode = some .timeout
    | .finished => record.publicData.state = .failed ∧ record.publicData.errorCode = some .timeout

end Archive

namespace ArchiveOperationRecord

variable {record : ArchiveOperationRecord}

section

variable (hConsistent : Consistent record)
include hConsistent

end

def endsWell (now : Nat) (isClosed : Bool) (record : ArchiveOperationRecord) (program : ArchiveProgram (List Text)) : Bool :=
  match (settle now isClosed program record).1 with
  | .done _ => true
  | _ => false

def missesDeadline (record : ArchiveOperationRecord) (now : Nat) (isClosed : Bool) (q : ArchiveAsk)
    (answer : Except ArchiveError q.Answer) : Bool :=
  match record.progress with
  | .working body =>
    match answered q answer body with
    | some rest => record.forcedFailure.isSome && record.mayAnswer q answer && endsWell now isClosed record rest
    | none => false
  | _ => false

section

variable (hConsistent : Consistent record)
include hConsistent

end

def mayTimeOut (record : ArchiveOperationRecord) : Bool :=
  match record.progress with
  | .cleaning outcome => decide (outcome = .failed ∧ record.publicData.errorCode = some .timeout)
  | _ => true

end ArchiveOperationRecord

end Sftp
