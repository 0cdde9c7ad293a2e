import Cosmosh.Sftp.ArchiveTurns

/-! # Terminal archive operations

One operation of a session runs at a time, and what it reports in the end stays.
-/

namespace Sftp

open Library Library.JsText Library.Transition Archive

namespace SftpArchiveService

structure Orderly (s : SftpArchiveService) : Prop where
  consistent : ∀ operationId record, s.operations.get? operationId = some record → Consistent record
  active : ∀ operationId record, s.operations.get? operationId = some record → record.isFinished = false →
    s.activeOperationBySession.get? record.publicData.sessionId = some operationId
  session : ∀ sessionId operationId, s.activeOperationBySession.get? sessionId = some operationId →
    ∃ record, s.operations.get? operationId = some record ∧ record.publicData.sessionId = sessionId ∧ record.isFinished = false

def keepsTimeouts (s : SftpArchiveService) : ArchiveEvent → Bool
  | .reply operationId q answer =>
    match s.operations.get? operationId with
    | some record => !record.missesDeadline s.now (s.isClosed record) q answer
    | none => true
  | .timeout _ operationId =>
    match s.operations.get? operationId with
    | some record => record.mayTimeOut
    | none => true
  | _ => true

inductive Change (s : SftpArchiveService) (event : ArchiveEvent) : SftpArchiveService → Prop
  | same {s' : SftpArchiveService} (hOperations : s'.operations = s.operations)
      (hActive : s'.activeOperationBySession = s.activeOperationBySession) : Change s event s'
  | advanced {operationId : Text} {record record' : ArchiveOperationRecord}
      (hRecord : s.operations.get? operationId = some record) (hAdvances : Advances record record')
      (hKept : s.keepsTimeouts event = true → TimeoutKept record → TimeoutKept record') :
      Change s event (s.put operationId record record')
  | started {operationId : Text} {record : ArchiveOperationRecord} (hNew : s.operations.get? operationId = none)
      (hFree : s.activeOperationBySession.get? record.publicData.sessionId = none) (hConsistent : Consistent record)
      (hRunning : record.isFinished = false) (hForced : record.forcedFailure = none) :
      Change s event { s with
        operations := s.operations.set operationId record
        activeOperationBySession := s.activeOperationBySession.set record.publicData.sessionId operationId }
  | removed {operationId : Text} {record : ArchiveOperationRecord} (hRecord : s.operations.get? operationId = some record)
      (hFinished : record.isFinished = true) :
      Change s event { s with operations := s.operations.delete operationId }

variable {s : SftpArchiveService}

variable {event : ArchiveEvent} {f : ArchiveOperationRecord → ArchiveOperationRecord}

theorem get?_put (operationId : Text) (record record' : ArchiveOperationRecord) (key : Text) :
    (s.put operationId record record').operations.get? key =
      if key = operationId then some record' else s.operations.get? key := s.operations.get?_set operationId record' key

variable {s' : SftpArchiveService} {operationId : Text}

theorem Change.advances (h : Change s event s') (hOrderly : Orderly s) {record record' : ArchiveOperationRecord}
    (hBefore : s.operations.get? operationId = some record) (hAfter : s'.operations.get? operationId = some record') :
    Advances record record' := by
  have hSame (hGet : s.operations.get? operationId = some record') : Advances record record' := by
    obtain rfl := Option.some.inj (hBefore.symm.trans hGet)
    exact .refl (hOrderly.consistent operationId record hBefore)
  cases h with
  | same hOperations _ => exact hSame (hOperations ▸ hAfter)
  | @advanced changed old new hRecord hAdvances _ =>
    rw [get?_put] at hAfter
    split at hAfter
    · next hKey =>
      obtain rfl := hKey
      obtain rfl := Option.some.inj hAfter
      obtain rfl := Option.some.inj (hBefore.symm.trans hRecord)
      exact hAdvances
    · exact hSame hAfter
  | @started new started hNew _ _ _ _ =>
    have hOther : operationId ≠ new := by
      rintro rfl
      cases hBefore.symm.trans hNew
    rw [JsMap.get?_set, if_neg hOther] at hAfter
    exact hSame hAfter
  | @removed removed old _ _ =>
    rw [JsMap.get?_delete] at hAfter
    split at hAfter
    · cases hAfter
    · exact hSame hAfter

variable {sessionId : Text}

theorem Orderly.running (hOrderly : Orderly s) {record : ArchiveOperationRecord}
    (hActive : s.activeOperationBySession.get? sessionId = some operationId)
    (hRecord : s.operations.get? operationId = some record) :
    record.publicData.sessionId = sessionId ∧ record.isFinished = false := by
  obtain ⟨found, hFound, hSession, hRunning⟩ := hOrderly.session sessionId operationId hActive
  obtain rfl := Option.some.inj (hFound.symm.trans hRecord)
  exact ⟨hSession, hRunning⟩

section Advanced

variable {changed : Text} {old new : ArchiveOperationRecord}

section

variable (hOrderly : Orderly s) (hRecord : s.operations.get? changed = some old)
include hOrderly hRecord

theorem Orderly.active_of_put (hGet : (s.put changed old new).activeOperationBySession.get? sessionId = some operationId) :
    s.activeOperationBySession.get? sessionId = some operationId ∧ (operationId = changed → new.isFinished = false) := by
  rw [put] at hGet
  simp only at hGet
  split at hGet
  · rw [JsMap.get?_delete] at hGet
    split at hGet
    · cases hGet
    · next hSession =>
      refine ⟨hGet, fun hKey => absurd ?_ hSession⟩
      exact (hOrderly.running hGet (hKey ▸ hRecord)).1.symm
  · next hEnd =>
    refine ⟨hGet, fun hKey => ?_⟩
    have hRunning := (hOrderly.running hGet (hKey ▸ hRecord)).2
    simpa [hRunning] using hEnd

theorem Orderly.active_put (hActive : s.activeOperationBySession.get? sessionId = some operationId)
    (hKey : operationId ≠ changed) :
    (s.put changed old new).activeOperationBySession.get? sessionId = some operationId := by
  have hEnds : (new.isFinished && !old.isFinished) = true → old.isFinished = false := by simp
  rw [put]
  simp only
  split
  · next hEnd =>
    have hOwn := hOrderly.active changed old hRecord (hEnds hEnd)
    have hSession : sessionId ≠ old.publicData.sessionId := by
      intro hSession
      rw [hSession, hOwn] at hActive
      exact hKey (Option.some.inj hActive).symm
    rw [JsMap.get?_delete, if_neg hSession]
    exact hActive
  · exact hActive

theorem Orderly.advanced (hAdvances : Advances old new) : Orderly (s.put changed old new) := by
  constructor
  · intro operationId record hGet
    rw [get?_put] at hGet
    split at hGet
    · obtain rfl := Option.some.inj hGet
      exact hAdvances.consistent
    · exact hOrderly.consistent operationId record hGet
  · intro operationId record hGet hRunning
    rw [get?_put] at hGet
    split at hGet
    · next hKey =>
      obtain rfl := Option.some.inj hGet
      have hOld : old.isFinished = false := by
        cases hFinished : old.isFinished with
        | false => rfl
        | true => rw [(hAdvances.final hFinished).1] at hRunning; cases hRunning
      rw [put, hRunning, Bool.false_and, hKey, hAdvances.sessionId]
      exact hOrderly.active changed old hRecord hOld
    · next hKey => exact hOrderly.active_put hRecord (hOrderly.active operationId record hGet hRunning) hKey
  · intro sessionId operationId hGet
    obtain ⟨hActive, hUnfinished⟩ := hOrderly.active_of_put hRecord hGet
    by_cases hKey : operationId = changed
    · have hSession := (hOrderly.running hActive (hKey ▸ hRecord)).1
      refine ⟨new, ?_, hAdvances.sessionId.trans hSession, hUnfinished hKey⟩
      rw [get?_put, if_pos hKey]
    · obtain ⟨found, hFound, hSame, hRunning⟩ := hOrderly.session sessionId operationId hActive
      refine ⟨found, ?_, hSame, hRunning⟩
      rw [get?_put, if_neg hKey]
      exact hFound

end

end Advanced

theorem Orderly.started (hOrderly : Orderly s) {new : Text} {started : ArchiveOperationRecord}
    (hNew : s.operations.get? new = none) (hFree : s.activeOperationBySession.get? started.publicData.sessionId = none)
    (hConsistent : Consistent started) (hRunning : started.isFinished = false) :
    Orderly { s with
      operations := s.operations.set new started
      activeOperationBySession := s.activeOperationBySession.set started.publicData.sessionId new } := by
  constructor
  · intro operationId record hGet
    rw [JsMap.get?_set] at hGet
    split at hGet
    · obtain rfl := Option.some.inj hGet
      exact hConsistent
    · exact hOrderly.consistent operationId record hGet
  · intro operationId record hGet hRecord
    rw [JsMap.get?_set] at hGet ⊢
    split at hGet
    · next hKey =>
      obtain rfl := Option.some.inj hGet
      rw [if_pos rfl, hKey]
    · have hActive := hOrderly.active operationId record hGet hRecord
      rw [if_neg]
      · exact hActive
      · intro hSession
        rw [hSession, hFree] at hActive
        cases hActive
  · intro sessionId operationId hGet
    rw [JsMap.get?_set] at hGet
    split at hGet
    · next hSession =>
      obtain rfl := Option.some.inj hGet
      refine ⟨started, ?_, hSession.symm, hRunning⟩
      rw [JsMap.get?_set, if_pos rfl]
    · obtain ⟨found, hFound, hSame, hFoundRunning⟩ := hOrderly.session sessionId operationId hGet
      refine ⟨found, ?_, hSame, hFoundRunning⟩
      rw [JsMap.get?_set, if_neg]
      · exact hFound
      · rintro rfl
        cases hFound.symm.trans hNew

theorem Orderly.removed (hOrderly : Orderly s) {removed : Text} {old : ArchiveOperationRecord}
    (hRecord : s.operations.get? removed = some old) (hFinished : old.isFinished = true) :
    Orderly { s with operations := s.operations.delete removed } := by
  constructor
  · intro operationId record hGet
    rw [JsMap.get?_delete] at hGet
    split at hGet
    · cases hGet
    · exact hOrderly.consistent operationId record hGet
  · intro operationId record hGet hRunning
    rw [JsMap.get?_delete] at hGet
    split at hGet
    · cases hGet
    · exact hOrderly.active operationId record hGet hRunning
  · intro sessionId operationId hGet
    obtain ⟨found, hFound, hSame, hRunning⟩ := hOrderly.session sessionId operationId hGet
    refine ⟨found, ?_, hSame, hRunning⟩
    rw [JsMap.get?_delete, if_neg]
    · exact hFound
    · rintro rfl
      obtain rfl := Option.some.inj (hFound.symm.trans hRecord)
      cases hFinished.symm.trans hRunning

end SftpArchiveService

open SftpArchiveService

def noSuchFile : ArchiveError := .remote (some (.number 2)) []

def target : Text := ['/', 'h', '/', 'b', '.', 't', 'a', 'r']

end Sftp
