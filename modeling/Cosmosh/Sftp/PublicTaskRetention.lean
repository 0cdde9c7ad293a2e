import Cosmosh.Sftp.PublicTasks
import Cosmosh.Sftp.TaskSafety

/-! # The store of public task records stays bounded and keeps live tasks -/

namespace Sftp

open Library

namespace SftpTaskScheduler

variable {ρ π ε : Type} {outcome : Option Nat} {s s' : SftpTaskScheduler ρ π ε}

def HasReleased (s : SftpTaskScheduler ρ π ε) (n : Nat) : Prop := ∃ stored, s.store n = some stored ∧ stored.releaseResolved = true

structure Keeps (stored stored' : StoredTaskRecord ρ π ε) : Prop where
  taskId : stored'.snapshot.taskId = stored.snapshot.taskId
  released : stored.releaseResolved = true → stored'.releaseResolved = true

theorem Keeps.refl (stored : StoredTaskRecord ρ π ε) : Keeps stored stored := ⟨rfl, id⟩

theorem Keeps.trans {a b c : StoredTaskRecord ρ π ε} (hab : Keeps a b) (hbc : Keeps b c) : Keeps a c :=
  ⟨hbc.taskId.trans hab.taskId, fun h => hbc.released (hab.released h)⟩

theorem taskId_apply (patch : TerminalPatch ρ) (snapshot : SftpTaskSnapshot ρ π) (now : Rat) :
    (patch.apply snapshot now).taskId = snapshot.taskId := by
  cases patch with
  | succeeded result => rfl
  | failed failure result => rfl
  | cancelled result => rfl

variable {m : Nat}

theorem keeps_advance {n : Nat} {record record' stored : StoredTaskRecord ρ π ε} {queue : List Nat} {active : JsMap Text Nat}
    {entries : List (SftpTaskObservation ρ π)} (hStore : s.store n = some record) (hKeeps : Keeps record record')
    (hStored : s.store m = some stored) :
    ∃ stored', (s.advance n record' queue active entries).store m = some stored' ∧ Keeps stored stored' := by
  by_cases hSame : m = n
  · subst hSame
    obtain rfl := Option.some.inj (hStore.symm.trans hStored)
    exact ⟨record', advance_store_self s m record' queue active entries, hKeeps⟩
  · exact ⟨stored, (advance_store_of_ne s n record' queue active entries hSame).trans hStored, Keeps.refl stored⟩

theorem Transition.keeps (h : Transition outcome s s') {stored : StoredTaskRecord ρ π ε} (hStored : s.store m = some stored) :
    ∃ stored', s'.store m = some stored' ∧ Keeps stored stored' := by
  cases h with
  | withdraw patch hStore => exact keeps_advance hStore ⟨taskId_apply patch _ _, fun _ => rfl⟩ hStored
  | start hStore => exact keeps_advance hStore ⟨rfl, id⟩ hStored
  | finish patch hooks hStore _ hSignalled =>
    refine keeps_advance hStore ⟨?_, fun hKept => hSignalled.releaseResolved.trans hKept⟩ hStored
    exact (taskId_apply patch _ _).trans (congrArg SftpTaskSnapshot.taskId hSignalled.snapshot)
  | invoke hStore => exact keeps_advance hStore ⟨rfl, id⟩ hStored
  | settle hStore => exact keeps_advance hStore ⟨rfl, id⟩ hStored
  | release hStore => exact keeps_advance hStore ⟨rfl, fun _ => rfl⟩ hStored
  | report value hStore => exact keeps_advance hStore ⟨rfl, id⟩ hStored
  | forget => exact ⟨stored, hStored, Keeps.refl stored⟩
  | quiet hTasks => exact ⟨stored, (congrFun hTasks.store m).trans hStored, Keeps.refl stored⟩

theorem steps_keeps (h : Steps outcome s s') {stored : StoredTaskRecord ρ π ε} (hStored : s.store m = some stored) :
    ∃ stored', s'.store m = some stored' ∧ Keeps stored stored' := by
  induction h with
  | refl => exact ⟨stored, hStored, Keeps.refl stored⟩
  | tail _ hTransition ih =>
    obtain ⟨middle, hMiddle, hKeeps⟩ := ih
    obtain ⟨stored', hStored', hKeeps'⟩ := hTransition.keeps hMiddle
    exact ⟨stored', hStored', hKeeps.trans hKeeps'⟩

theorem EventSteps.keeps (hWell : s.WellFormed) (h : EventSteps outcome s s') {stored : StoredTaskRecord ρ π ε}
    (hStored : s.store m = some stored) : ∃ stored', s'.store m = some stored' ∧ Keeps stored stored' := by
  obtain hSteps | ⟨middle, hSubmit, hSteps⟩ := h
  · exact steps_keeps hSteps hStored
  · have hOther : m ≠ s.sequence := Nat.ne_of_lt (hWell.lt_of_store hStored)
    obtain ⟨_⟩ := hSubmit
    exact steps_keeps hSteps ((enqueue_store_of_ne s _ hOther).trans hStored)

theorem WellFormed.released_of_unregistered (h : s.WellFormed) {n : Nat} {stored : StoredTaskRecord ρ π ε}
    (hStored : s.store n = some stored) (hFree : s.records.has stored.snapshot.taskId = false) : stored.releaseResolved = true := by
  obtain ⟨-, hCoherent⟩ := h.coherent n stored hStored
  have hDead : ¬ Live stored := by
    intro hLive
    have hRegistered := h.registered n stored hStored hLive
    rw [(s.records.has_eq_false_iff _).mp hFree] at hRegistered
    cases hRegistered
  have hEnded := not_or.mp hDead
  exact hCoherent.release.mpr ⟨by simpa using hEnded.1, by simpa using hEnded.2⟩

theorem schedule_spec (hWell : s.WellFormed) {collation : Collation} {spec : SftpTaskSpec ε} {generatedId : Text}
    (hOk : s.schedule collation spec generatedId = .ok s') :
    ∃ stored, s'.store s.sequence = some stored ∧ s.records.has stored.snapshot.taskId = false := by
  rw [schedule] at hOk
  split at hOk
  · cases hOk
  · dsimp only at hOk
    split at hOk
    · cases hOk
    · next hNew =>
      obtain rfl := Except.ok.inj hOk
      have hFree := Bool.eq_false_iff.mpr hNew
      have hWell' := hWell.submit (.mk (s.newRecord_fresh collation spec hFree))
      have hStore := enqueue_store_self s (s.newRecord collation spec (spec.taskId.getD generatedId))
      have hLater : ∀ s'', Steps none (s.enqueue (s.newRecord collation spec (spec.taskId.getD generatedId))) s'' →
          ∃ stored, s''.store s.sequence = some stored ∧ s.records.has stored.snapshot.taskId = false := by
        intro s'' hSteps
        obtain ⟨stored, hStored, hKeeps⟩ := steps_keeps hSteps hStore
        refine ⟨stored, hStored, ?_⟩
        rw [hKeeps.taskId]
        exact hFree
      split
      · have hCancel : Steps none _ _ := cancelRecord_steps hWell' s.sequence
        exact hLater _ (.trans hCancel (dispatch_steps (hWell'.steps hCancel)))
      · exact hLater _ (dispatch_steps hWell')

theorem forgetTask_store (s : SftpTaskScheduler ρ π ε) (taskId : Text) : (s.forgetTask taskId).2.store = s.store := by
  unfold forgetTask
  split
  · rfl
  · split
    · rfl
    · rfl

end SftpTaskScheduler

namespace PublicTaskSession

variable {ρ π ε : Type} {s : PublicTaskSession ρ π ε}

section

variable (s : PublicTaskSession ρ π ε)

theorem records_deleteClosed : s.deleteClosedTaskSchedulerIfUnused.records = s.records := by
  unfold deleteClosedTaskSchedulerIfUnused
  split
  · rfl
  · next hUnused =>
    have hEmpty : s.records = [] := by
      by_contra hFull
      exact hUnused (Or.inr (Or.inl hFull))
    rw [hEmpty]
    rfl

theorem scheduler_deleteClosed : s.deleteClosedTaskSchedulerIfUnused.scheduler = s.scheduler := by
  unfold deleteClosedTaskSchedulerIfUnused
  split
  · rfl
  · rfl

theorem records_getOpenSession : s.getOpenSession.2.records = s.records := by
  unfold getOpenSession
  split
  · rfl
  · rfl
  · rfl

theorem scheduler_getOpenSession : s.getOpenSession.2.scheduler = s.scheduler := by
  unfold getOpenSession
  split
  · rfl
  · rfl
  · rfl

end

variable {taskId : Text} {record : SftpPublicTaskRecord}

theorem mem_records (h : (taskId, record) ∈ s.records) : ∃ records, s.publicTaskRecords = some records ∧ records.get? taskId = some record := by
  unfold records at h
  split at h
  · cases h
  · next records hRecords => exact ⟨records, hRecords, (records.mem_entries_iff taskId record).mp h⟩

theorem removePublicTaskRecord_spec (h : (taskId, record) ∈ s.records) : (∃ before after, s.records = before ++ (taskId, record) :: after ∧
      (s.removePublicTaskRecord taskId record).records = before ++ after) ∧
    (s.removePublicTaskRecord taskId record).scheduler = (s.scheduler.forgetTask taskId).2 := by
  obtain ⟨records, hRecords, hGet⟩ := mem_records h
  obtain ⟨before, after, hSplit, hDeleted⟩ := records.delete_split hGet
  have hSame : ¬ ((records.get? taskId).map SftpPublicTaskRecord.handle ≠ some record.handle) := by simp [hGet]
  have hOld : s.records = records.entries := by simp [PublicTaskSession.records, hRecords]
  unfold removePublicTaskRecord
  simp only [hRecords, if_neg hSame, records_deleteClosed, scheduler_deleteClosed]
  constructor
  · refine ⟨before, after, hOld.trans hSplit, ?_⟩
    split
    · next hEmpty =>
      have hNone : before ++ after = [] := hDeleted.symm.trans (List.length_eq_zero_iff.mp hEmpty)
      split
      · rw [records_getOpenSession]
        exact hDeleted
      · exact hNone.symm
    · exact hDeleted
  · split
    · split
      · exact scheduler_getOpenSession _
      · exact scheduler_getOpenSession _
    · rfl

theorem evictLoop_spec (isEvictable : PublicTaskSession ρ π ε → SftpPublicTaskRecord → Bool)
    {l : List (Text × SftpPublicTaskRecord)} (hFull : s.records.length = SFTP_TASK_RECORD_LIMIT_PER_SESSION) (hMem : ∀ e ∈ l, e ∈ s.records) :
    ((∀ e ∈ l, isEvictable s e.2 = false) ∧ evictLoop isEvictable l s = (false, s)) ∨
      ∃ taskId record, (taskId, record) ∈ l ∧ isEvictable s record = true ∧
        evictLoop isEvictable l s = (true, s.removePublicTaskRecord taskId record) := by
  induction l with
  | nil => exact Or.inl ⟨fun e he => absurd he List.not_mem_nil, rfl⟩
  | cons e rest ih =>
    obtain ⟨taskId, record⟩ := e
    rw [evictLoop]
    cases hEvictable : isEvictable s record with
    | true =>
      obtain ⟨⟨before, after, hSplit, hRemoved⟩, -⟩ := removePublicTaskRecord_spec (hMem _ List.mem_cons_self)
      have hFewer : (s.removePublicTaskRecord taskId record).records.length < SFTP_TASK_RECORD_LIMIT_PER_SESSION := by
        rw [hRemoved, ← hFull, hSplit, List.length_append, List.length_append, List.length_cons]
        omega
      refine Or.inr ⟨taskId, record, List.mem_cons_self, hEvictable, ?_⟩
      rw [if_pos rfl]
      exact if_pos hFewer
    | false =>
      rw [if_neg Bool.false_ne_true]
      obtain ⟨hNone, hLoop⟩ | ⟨taskId', record', hFound, hFits, hLoop⟩ := ih fun e he => hMem e (List.mem_cons_of_mem _ he)
      · exact Or.inl ⟨List.forall_mem_cons.mpr ⟨hEvictable, hNone⟩, hLoop⟩
      · exact Or.inr ⟨taskId', record', List.mem_cons_of_mem _ hFound, hFits, hLoop⟩

theorem makeRoomForPublicTask_spec (hBound : s.records.length ≤ SFTP_TASK_RECORD_LIMIT_PER_SESSION) :
    (s.records.length < SFTP_TASK_RECORD_LIMIT_PER_SESSION ∧ s.makeRoomForPublicTask = (true, s)) ∨
    (s.records.length = SFTP_TASK_RECORD_LIMIT_PER_SESSION ∧ (∀ e ∈ s.records, e.2.released = false) ∧ s.makeRoomForPublicTask = (false, s)) ∨
    (∃ taskId record, (taskId, record) ∈ s.records ∧ record.released = true ∧
      s.makeRoomForPublicTask = (true, s.removePublicTaskRecord taskId record) ∧ (isSettledWell (s.stateOf record) = false →
        ∀ e ∈ s.records, e.2.released = true → isSettledWell (s.stateOf e.2) = false)) := by
  by_cases hRoom : s.records.length < SFTP_TASK_RECORD_LIMIT_PER_SESSION
  · exact Or.inl ⟨hRoom, if_pos hRoom⟩
  · have hFull : s.records.length = SFTP_TASK_RECORD_LIMIT_PER_SESSION := by omega
    right
    simp only [makeRoomForPublicTask, if_neg hRoom]
    obtain ⟨hNone, hLoop⟩ | ⟨taskId, record, hMem, hFits, hLoop⟩ := evictLoop_spec
      (fun s record => record.released && isSettledWell (s.stateOf record)) hFull fun e he => he
    · rw [hLoop, if_neg Bool.false_ne_true]
      obtain ⟨hLive, hSecond⟩ | ⟨taskId, record, hMem, hReleased, hSecond⟩ := evictLoop_spec
        (fun _ record => record.released) hFull fun e he => he
      · exact Or.inl ⟨hFull, hLive, hSecond⟩
      · refine Or.inr ⟨taskId, record, hMem, hReleased, hSecond, fun _ e he hDone => ?_⟩
        have hOther := hNone e he
        rw [hDone, Bool.true_and] at hOther
        exact hOther
    · rw [hLoop, if_pos rfl]
      obtain ⟨hReleased, hWell⟩ := Bool.and_eq_true_iff.mp hFits
      refine Or.inr ⟨taskId, record, hMem, hReleased, rfl, fun hBad => ?_⟩
      rw [hWell] at hBad
      cases hBad

def Backed (scheduler : SftpTaskScheduler ρ π ε) (taskId : Text) (record : SftpPublicTaskRecord) : Prop :=
  ∃ stored, scheduler.store record.handle = some stored ∧ stored.snapshot.taskId = taskId ∧
    (record.released = true → stored.releaseResolved = true) ∧ (record.retentionTimer = true → record.released = true)

structure Retained (s : PublicTaskSession ρ π ε) : Prop where
  valid : s.scheduler.Valid
  bounded : s.records.length ≤ SFTP_TASK_RECORD_LIMIT_PER_SESSION
  backed : ∀ taskId record, (taskId, record) ∈ s.records → Backed s.scheduler taskId record

def Keeps (s : PublicTaskSession ρ π ε) (taskId : Text) (record : SftpPublicTaskRecord) : Prop :=
  ∃ record', (taskId, record') ∈ s.records ∧ record'.handle = record.handle

variable {scheduler : SftpTaskScheduler ρ π ε}

theorem Backed.hasReleased (h : Backed scheduler taskId record) (hReleased : record.released = true) : scheduler.HasReleased record.handle := by
  obtain ⟨stored, hStored, -, hDone, -⟩ := h
  exact ⟨stored, hStored, hDone hReleased⟩

theorem Backed.event {scheduler' : SftpTaskScheduler ρ π ε} {outcome : Option Nat} (h : Backed scheduler taskId record)
    (hWell : scheduler.WellFormed) (hSteps : SftpTaskScheduler.EventSteps outcome scheduler scheduler') : Backed scheduler' taskId record := by
  obtain ⟨stored, hStored, hId, hDone, hTimer⟩ := h
  obtain ⟨stored', hStored', hKeeps⟩ := hSteps.keeps hWell hStored
  exact ⟨stored', hStored', hKeeps.taskId.trans hId, fun hReleased => hKeeps.released (hDone hReleased), hTimer⟩

theorem Retained.remove (h : Retained s) (hMem : (taskId, record) ∈ s.records) : Retained (s.removePublicTaskRecord taskId record) := by
  obtain ⟨⟨before, after, hSplit, hRemoved⟩, hScheduler⟩ := removePublicTaskRecord_spec hMem
  have hForget : SftpTaskScheduler.EventSteps none s.scheduler (s.scheduler.forgetTask taskId).2 :=
    .inl (SftpTaskScheduler.forgetTask_steps h.valid.wellFormed taskId)
  refine ⟨?_, ?_, ?_⟩
  · rw [hScheduler]
    exact h.valid.event hForget
  · have hBound := h.bounded
    rw [hSplit, List.length_append, List.length_cons] at hBound
    rw [hRemoved, List.length_append]
    omega
  · intro key value hKept
    rw [hRemoved] at hKept
    rw [hScheduler]
    have hOld : (key, value) ∈ s.records := by
      rw [hSplit]
      obtain hBefore | hAfter := List.mem_append.mp hKept
      · exact List.mem_append_left _ hBefore
      · exact List.mem_append_right _ (List.mem_cons_of_mem _ hAfter)
    exact (h.backed key value hOld).event h.valid.wellFormed hForget

theorem keeps_remove {key : Text} {value : SftpPublicTaskRecord} (hMem : (taskId, record) ∈ s.records) (hOther : (key, value) ∈ s.records) :
    (key, value) = (taskId, record) ∨ (key, value) ∈ (s.removePublicTaskRecord taskId record).records := by
  obtain ⟨⟨before, after, hSplit, hRemoved⟩, -⟩ := removePublicTaskRecord_spec hMem
  rw [hSplit] at hOther
  rw [hRemoved]
  obtain hBefore | hRest := List.mem_append.mp hOther
  · exact Or.inr (List.mem_append_left _ hBefore)
  · obtain hSame | hAfter := List.mem_cons.mp hRest
    · exact Or.inl hSame
    · exact Or.inr (List.mem_append_right _ hAfter)

def Sound (s s' : PublicTaskSession ρ π ε) : Prop :=
  Retained s' ∧ ∀ taskId record, (taskId, record) ∈ s.records → Keeps s' taskId record ∨ s.scheduler.HasReleased record.handle

section

variable (h : Retained s)
include h

theorem Retained.sound_of_same {s' : PublicTaskSession ρ π ε} (hRecords : s'.records = s.records)
    (hScheduler : s'.scheduler = s.scheduler) : Sound s s' := by
  refine ⟨⟨?_, ?_, ?_⟩, fun taskId record hMem => Or.inl ⟨record, ?_, rfl⟩⟩
  · rw [hScheduler]
    exact h.valid
  · rw [hRecords]
    exact h.bounded
  · rw [hRecords, hScheduler]
    exact h.backed
  · rw [hRecords]
    exact hMem

theorem Retained.sound_remove (hMem : (taskId, record) ∈ s.records) (hReleased : record.released = true) :
    Sound s (s.removePublicTaskRecord taskId record) := by
  refine ⟨h.remove hMem, fun key value hOther => ?_⟩
  obtain hSame | hKept := keeps_remove hMem hOther
  · obtain ⟨rfl, rfl⟩ := Prod.mk.inj hSame
    exact Or.inr ((h.backed key value hMem).hasReleased hReleased)
  · exact Or.inl ⟨value, hKept, rfl⟩

theorem Retained.sound_makeRoom : Sound s s.makeRoomForPublicTask.2 := by
  obtain ⟨-, hRoom⟩ | ⟨-, -, hRoom⟩ | ⟨taskId, record, hMem, hReleased, hRoom, -⟩ := makeRoomForPublicTask_spec h.bounded
  · rw [hRoom]
    exact h.sound_of_same rfl rfl
  · rw [hRoom]
    exact h.sound_of_same rfl rfl
  · rw [hRoom]
    exact h.sound_remove hMem hReleased

theorem length_makeRoom (hRoom : s.makeRoomForPublicTask.1 = true) :
    s.makeRoomForPublicTask.2.records.length < SFTP_TASK_RECORD_LIMIT_PER_SESSION := by
  obtain ⟨hLess, hEq⟩ | ⟨-, -, hEq⟩ | ⟨taskId, record, hMem, -, hEq, -⟩ := makeRoomForPublicTask_spec h.bounded
  · rw [hEq]
    exact hLess
  · rw [hEq] at hRoom
    cases hRoom
  · obtain ⟨⟨before, after, hSplit, hRemoved⟩, -⟩ := removePublicTaskRecord_spec hMem
    have hBound := h.bounded
    rw [hSplit, List.length_append, List.length_cons] at hBound
    rw [hEq, hRemoved, List.length_append]
    omega

theorem Retained.sound_schedule (hRoom : s.records.length < SFTP_TASK_RECORD_LIMIT_PER_SESSION) {collation : Collation}
    {spec : SftpTaskSpec ε} {generatedId : Text} (hOk : s.scheduler.schedule collation spec generatedId = .ok scheduler)
    {stored : StoredTaskRecord ρ π ε} (hStored : scheduler.store s.scheduler.sequence = some stored)
    (hHandle : record.handle = s.scheduler.sequence) (hNew : record.released = false) (hTimer : record.retentionTimer = false)
    {entry : SessionEntry} : Sound s ⟨entry, scheduler, s.publicTaskRecords.map fun records => records.set stored.snapshot.taskId record⟩ := by
  have hSteps : SftpTaskScheduler.EventSteps none s.scheduler scheduler := SftpTaskScheduler.schedule_steps h.valid.wellFormed hOk
  obtain ⟨stored', hStored', hFree⟩ := SftpTaskScheduler.schedule_spec h.valid.wellFormed hOk
  obtain rfl := Option.some.inj (hStored.symm.trans hStored')
  have hBacked : ∀ taskId record, (taskId, record) ∈ s.records → Backed scheduler taskId record :=
    fun taskId record hMem => (h.backed taskId record hMem).event h.valid.wellFormed hSteps
  cases hRecords : s.publicTaskRecords with
  | none =>
    have hNone : s.records = [] := by simp [records, hRecords]
    refine ⟨⟨h.valid.event hSteps, Nat.zero_le _, fun taskId record hMem => absurd hMem List.not_mem_nil⟩, ?_⟩
    intro taskId record hMem
    rw [hNone] at hMem
    cases hMem
  | some records =>
    have hOld : s.records = records.entries := by simp [PublicTaskSession.records, hRecords]
    refine ⟨⟨h.valid.event hSteps, ?_, ?_⟩, ?_⟩
    · have hSize := records.size_set_le stored.snapshot.taskId record
      rw [hOld] at hRoom
      exact hSize.trans hRoom
    · intro taskId value hMem
      obtain ⟨rfl, rfl⟩ | ⟨-, hMem⟩ := (records.mem_entries_set _ _ _ _).mp hMem
      · refine ⟨stored, hHandle ▸ hStored, rfl, fun hDone => ?_, fun hArmed => ?_⟩
        · rw [hNew] at hDone
          cases hDone
        · rw [hTimer] at hArmed
          cases hArmed
      · exact hBacked taskId value (hOld ▸ hMem)
    · intro taskId value hMem
      by_cases hSame : taskId = stored.snapshot.taskId
      · obtain ⟨old, hOldStored, hId, -, -⟩ := h.backed taskId value hMem
        have hDone := h.valid.wellFormed.released_of_unregistered hOldStored (by rw [hId, hSame]; exact hFree)
        exact Or.inr ⟨old, hOldStored, hDone⟩
      · exact Or.inl ⟨value, (records.mem_entries_set _ _ _ _).mpr (Or.inr ⟨hSame, hOld ▸ hMem⟩), rfl⟩

theorem store_makeRoom : s.makeRoomForPublicTask.2.scheduler.store = s.scheduler.store := by
  obtain ⟨-, hEq⟩ | ⟨-, -, hEq⟩ | ⟨taskId, record, hMem, -, hEq, -⟩ := makeRoomForPublicTask_spec h.bounded
  · rw [hEq]
  · rw [hEq]
  · rw [hEq, (removePublicTaskRecord_spec hMem).2, SftpTaskScheduler.forgetTask_store]

end

theorem Sound.trans {first second third : PublicTaskSession ρ π ε} (h : Sound first second) (h' : Sound second third)
    (hStore : second.scheduler.store = first.scheduler.store) : Sound first third := by
  refine ⟨h'.1, fun taskId record hMem => ?_⟩
  obtain ⟨middle, hMiddle, hHandle⟩ | hDone := h.2 taskId record hMem
  · obtain ⟨last, hLast, hSame⟩ | ⟨stored, hStored, hReleased⟩ := h'.2 taskId middle hMiddle
    · exact Or.inl ⟨last, hLast, hSame.trans hHandle⟩
    · rw [hStore, hHandle] at hStored
      exact Or.inr ⟨stored, hStored, hReleased⟩
  · exact Or.inr hDone

theorem records_getOrCreate (s : PublicTaskSession ρ π ε) : s.getOrCreatePublicTaskRecords.records = s.records := by
  unfold getOrCreatePublicTaskRecords
  split
  · next hNone => simp [records, hNone, JsMap.empty]
  · rfl

theorem scheduler_getOrCreate (s : PublicTaskSession ρ π ε) : s.getOrCreatePublicTaskRecords.scheduler = s.scheduler := by
  unfold getOrCreatePublicTaskRecords
  split
  · rfl
  · rfl

theorem Retained.sound_startTask (h : Retained s) (collation : Collation) (spec : SftpTaskSpec ε) (transferId : Option Text)
    (generatedId : Text) : Sound s (s.startTask collation spec transferId generatedId).2 := by
  have hFound : Sound s s.getOpenSession.2 := h.sound_of_same (records_getOpenSession s) (scheduler_getOpenSession s)
  unfold startTask
  simp only
  split
  · exact hFound
  · have hTable : Sound s s.getOpenSession.2.getOrCreatePublicTaskRecords :=
      h.sound_of_same ((records_getOrCreate _).trans (records_getOpenSession s))
        ((scheduler_getOrCreate _).trans (scheduler_getOpenSession s))
    have hTableStore : s.getOpenSession.2.getOrCreatePublicTaskRecords.scheduler.store = s.scheduler.store := by
      rw [scheduler_getOrCreate, scheduler_getOpenSession]
    have hRoomSound := hTable.1.sound_makeRoom
    have hRoomStore := (store_makeRoom hTable.1).trans hTableStore
    have hMade := hTable.trans hRoomSound hTableStore
    split
    · exact hMade
    · next hRoom =>
      have hLess := length_makeRoom hTable.1 (by simpa using hRoom)
      split
      · exact hMade
      · next scheduler hOk =>
        obtain ⟨stored, hStored, -⟩ := SftpTaskScheduler.schedule_spec hRoomSound.1.valid.wellFormed hOk
        split
        · next hNone =>
          rw [hStored] at hNone
          cases hNone
        · next snapshot hSnapshot =>
          rw [hStored, Option.map_some] at hSnapshot
          obtain rfl := Option.some.inj hSnapshot
          exact hMade.trans (hRoomSound.1.sound_schedule hLess hOk hStored rfl rfl rfl) hRoomStore

theorem markReleased_of_other {records : JsMap Text SftpPublicTaskRecord} {handle : Nat}
    (h : ∀ record, records.get? taskId = some record → record.handle ≠ handle) : markReleased records taskId handle = records := by
  unfold markReleased
  split
  · rfl
  · next record hGet => exact if_neg (h record hGet)

theorem mem_markReleased {records : JsMap Text SftpPublicTaskRecord} (h : records.get? taskId = some record) (key : Text)
    (value : SftpPublicTaskRecord) : (key, value) ∈ (markReleased records taskId record.handle).entries ↔
      (key = taskId ∧ value = { record with released := true, retentionTimer := true }) ∨
        (key ≠ taskId ∧ (key, value) ∈ records.entries) := by
  have hMarked : markReleased records taskId record.handle =
      records.set taskId { record with released := true, retentionTimer := true } := by
    simp [markReleased, h]
  rw [hMarked]
  exact records.mem_entries_set _ _ _ _

theorem size_markReleased (records : JsMap Text SftpPublicTaskRecord) (taskId : Text) (handle : Nat) :
    (markReleased records taskId handle).size = records.size := by
  unfold markReleased
  split
  · rfl
  · next record hGet =>
    split
    · exact records.size_set_of_mem _ hGet
    · rfl

theorem Retained.sound_onReleased (h : Retained s) (taskId : Text) (handle : Nat) : Sound s (s.onReleased taskId handle) := by
  unfold onReleased
  split
  · next hDone =>
    obtain ⟨stored, hStored, hReleased⟩ := (Option.any_eq_true _ _).mp hDone
    cases hRecords : s.publicTaskRecords with
    | none => exact h.sound_of_same (by simp [records, hRecords]) rfl
    | some records =>
      have hOld : s.records = records.entries := by simp [PublicTaskSession.records, hRecords]
      by_cases hHeld : ∃ record, records.get? taskId = some record ∧ record.handle = handle
      · obtain ⟨record, hGet, rfl⟩ := hHeld
        refine ⟨⟨h.valid, ?_, ?_⟩, ?_⟩
        · have hBound := h.bounded
          rw [hOld] at hBound
          exact (size_markReleased records taskId record.handle).le.trans hBound
        · intro key value hMem
          obtain ⟨rfl, rfl⟩ | ⟨-, hMem⟩ := (mem_markReleased hGet key value).mp hMem
          · obtain ⟨found, hFound, hId, -, -⟩ := h.backed key record (hOld ▸ (records.mem_entries_iff key record).mpr hGet)
            obtain rfl := Option.some.inj (hFound.symm.trans hStored)
            exact ⟨found, hFound, hId, fun _ => hReleased, fun _ => rfl⟩
          · exact h.backed key value (hOld ▸ hMem)
        · intro key value hMem
          left
          by_cases hKey : key = taskId
          · subst hKey
            have hValue := (records.mem_entries_iff key value).mp (hOld ▸ hMem)
            obtain rfl := Option.some.inj (hGet.symm.trans hValue)
            exact ⟨_, (mem_markReleased hGet key _).mpr (Or.inl ⟨rfl, rfl⟩), rfl⟩
          · exact ⟨value, (mem_markReleased hGet key value).mpr (Or.inr ⟨hKey, hOld ▸ hMem⟩), rfl⟩
      · have hSame : markReleased records taskId handle = records :=
          markReleased_of_other fun record hGet hHandle => hHeld ⟨record, hGet, hHandle⟩
        exact h.sound_of_same (by simp [PublicTaskSession.records, hRecords, hSame]) rfl
  · exact h.sound_of_same rfl rfl

theorem Retained.sound_onRetentionElapsed (h : Retained s) (taskId : Text) (handle : Nat) : Sound s (s.onRetentionElapsed taskId handle) := by
  unfold onRetentionElapsed
  split
  · exact h.sound_of_same rfl rfl
  · next record hFound =>
    obtain ⟨records, hRecords, hGet⟩ := Option.bind_eq_some_iff.mp hFound
    have hMem : (taskId, record) ∈ s.records := by
      simp only [PublicTaskSession.records, hRecords]
      exact (records.mem_entries_iff taskId record).mpr hGet
    split
    · next hDue =>
      obtain ⟨-, -, -, -, hTimer⟩ := h.backed taskId record hMem
      exact h.sound_remove hMem (hTimer hDue.2)
    · exact h.sound_of_same rfl rfl

section Runs

variable {collation : Collation} {absoluteTimeoutMs : JsNumber} {mapFailure : SftpTaskResources → ε → SftpTaskFailure}

theorem Retained.sound_step (h : Retained s) (event : PublicTaskEvent ρ π ε) :
    Sound s (s.step collation absoluteTimeoutMs mapFailure event) := by
  cases event with
  | startTask request transferId generatedId => exact h.sound_startTask _ _ _ _
  | scheduler event =>
    have hSteps := SftpTaskScheduler.step_steps h.valid.wellFormed collation event
    refine ⟨⟨h.valid.event hSteps, h.bounded, ?_⟩, fun taskId record hMem => Or.inl ⟨record, hMem, rfl⟩⟩
    exact fun taskId record hMem => (h.backed taskId record hMem).event h.valid.wellFormed hSteps
  | released taskId handle => exact h.sound_onReleased taskId handle
  | retentionElapsed taskId handle => exact h.sound_onRetentionElapsed taskId handle
  | listTasks =>
    rw [step, listTasks]
    split
    · exact h.sound_of_same (records_getOpenSession s) (scheduler_getOpenSession s)
    · exact h.sound_of_same rfl rfl
  | getTask taskId => exact h.sound_of_same rfl rfl
  | transportClosed =>
    rw [step]
    split
    · exact h.sound_of_same rfl rfl
    · exact h.sound_of_same rfl rfl
  | markUnavailable => exact h.sound_of_same rfl rfl

theorem retained_of_reachable (h : (machine ρ π ε collation absoluteTimeoutMs mapFailure).Reachable s) : Retained s := by
  apply h.invariant
  · rintro start ⟨-, hRecords, options, hConstruct⟩
    have hNone : start.records = [] := by simp [records, hRecords]
    refine ⟨(SftpTaskScheduler.construct_untouched hConstruct).valid, ?_, ?_⟩
    · rw [hNone]
      exact Nat.zero_le _
    · intro taskId record hMem
      rw [hNone] at hMem
      cases hMem
  · exact fun state event _ hRetained => (hRetained.sound_step event).1

/-- At most 512 records are stored, also right after an eviction. No event drops the record of a task that the scheduler
has not released. An eviction that takes a record of any other outcome leaves no released record of a task that
succeeded or was cancelled, and a full store of unreleased records is left alone. -/
theorem public_task_records_are_bounded (h : (machine ρ π ε collation absoluteTimeoutMs mapFailure).Reachable s) :
    s.records.length ≤ SFTP_TASK_RECORD_LIMIT_PER_SESSION ∧ s.makeRoomForPublicTask.2.records.length ≤ SFTP_TASK_RECORD_LIMIT_PER_SESSION ∧
      (∀ event taskId record, (taskId, record) ∈ s.records →
        Keeps (s.step collation absoluteTimeoutMs mapFailure event) taskId record ∨ s.scheduler.HasReleased record.handle) ∧
      (∀ taskId record, (taskId, record) ∈ s.records → (taskId, record) ∉ s.makeRoomForPublicTask.2.records →
        isSettledWell (s.stateOf record) = false →
        ∀ e ∈ s.makeRoomForPublicTask.2.records, e.2.released = true → isSettledWell (s.stateOf e.2) = false) ∧
      (s.makeRoomForPublicTask.1 = false ↔ s.records.length = SFTP_TASK_RECORD_LIMIT_PER_SESSION ∧ ∀ e ∈ s.records, e.2.released = false) := by
  have hRetained := retained_of_reachable h
  have hSound := hRetained.sound_makeRoom
  refine ⟨hRetained.bounded, hSound.1.bounded, fun event taskId record hMem => (hRetained.sound_step event).2 taskId record hMem,
    ?_, ?_⟩
  · intro taskId record hMem hGone hOutcome e he hDone
    obtain ⟨-, hEq⟩ | ⟨-, -, hEq⟩ | ⟨key, value, hEvicted, -, hEq, hLast⟩ := makeRoomForPublicTask_spec hRetained.bounded
    · rw [hEq] at hGone
      exact absurd hMem hGone
    · rw [hEq] at hGone
      exact absurd hMem hGone
    · rw [hEq] at hGone he
      obtain ⟨⟨before, after, hSplit, hRemoved⟩, -⟩ := removePublicTaskRecord_spec hEvicted
      obtain hSame | hKept := keeps_remove hEvicted hMem
      · obtain ⟨rfl, rfl⟩ := Prod.mk.inj hSame
        have hOld : e ∈ s.records := by
          rw [hRemoved] at he
          rw [hSplit]
          obtain hBefore | hAfter := List.mem_append.mp he
          · exact List.mem_append_left _ hBefore
          · exact List.mem_append_right _ (List.mem_cons_of_mem _ hAfter)
        exact hLast hOutcome e hOld hDone
      · exact absurd hKept hGone
  · obtain ⟨hLess, hEq⟩ | ⟨hFull, hLive, hEq⟩ | ⟨key, value, hEvicted, hDone, hEq, -⟩ := makeRoomForPublicTask_spec hRetained.bounded
    · rw [hEq]
      constructor
      · intro hFalse
        cases hFalse
      · rintro ⟨hFull, -⟩
        omega
    · rw [hEq]
      exact ⟨fun _ => ⟨hFull, hLive⟩, fun _ => rfl⟩
    · rw [hEq]
      constructor
      · intro hFalse
        cases hFalse
      · rintro ⟨-, hLive⟩
        have hNot := hLive _ hEvicted
        rw [hDone] at hNot
        cases hNot

def openedSession (scheduler : SftpTaskScheduler ρ π ε) : PublicTaskSession ρ π ε := ⟨.live, scheduler, none⟩

end Runs

def oneTask : List (PublicTaskEvent Unit Unit Unit) := [.startTask (.createFile ['/']) none ['i'], .scheduler (.startMicrotask 0), .listTasks]

theorem one_task_is_kept : ∃ s : SftpTaskScheduler Unit Unit Unit, SftpTaskScheduler.construct SftpTaskScheduler.sampleOptions = .ok s ∧
      ((machine Unit Unit Unit SftpTaskScheduler.plainCollation (.finite 1000)
        fun _ _ => SftpTaskScheduler.unexpectedFailure).run (openedSession s) oneTask).records.length ≤ SFTP_TASK_RECORD_LIMIT_PER_SESSION := by
  refine ⟨_, rfl, ?_⟩
  apply (public_task_records_are_bounded ?_).1
  · exact SftpTaskScheduler.plainCollation
  · exact .finite 1000
  · exact fun _ _ => SftpTaskScheduler.unexpectedFailure
  · apply Transition.Machine.Reachable.run
    exact .start ⟨rfl, rfl, SftpTaskScheduler.sampleOptions, rfl⟩

end PublicTaskSession

end Sftp
