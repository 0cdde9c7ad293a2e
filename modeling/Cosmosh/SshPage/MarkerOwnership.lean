import Mathlib.Data.List.Perm.Basic
import Mathlib.Data.List.Perm.Lattice
import Cosmosh.SshPage.CommandMarkers

/-! # Who owns a marker

Between two steps of an event some markers are loose: created but not yet in an entry, or taken out of one and not yet
disposed of.
-/

namespace SshPage

open Library Library.Transition

namespace MarkerRuntime

variable (runtime : MarkerRuntime)

def ownedMarkers : List Marker := runtime.pendingCommandMarkers.map (·.marker) ++ runtime.commandMarkers.flatMap entryMarkers

def HasEndData (entry : TerminalCommandMarker) : Prop :=
  entry.outputEndMarker = none → entry.endedAt = none ∧ entry.durationMs = none ∧ entry.exitCode = none

structure Holds (runtime : MarkerRuntime) (loose : List Marker) : Prop where
  nodup : (runtime.ownedMarkers ++ loose).Nodup
  live : runtime.live ⊆ runtime.ownedMarkers ++ loose
  fresh : ∀ marker ∈ runtime.ownedMarkers ++ loose, marker.id < runtime.created
  ids : (runtime.commandMarkers.map (·.commandId)).Nodup
  blanked : ∀ entry ∈ runtime.removed, entry.command = []
  endData : ∀ entry ∈ runtime.commandMarkers, HasEndData entry

variable {runtime}

namespace Holds

variable {loose : List Marker} (h : runtime.Holds loose)

include h

theorem move {pending : List PendingCommandMarker} {commands removed : List TerminalCommandMarker} {loose' : List Marker}
    (hPerm : (pending.map (·.marker) ++ commands.flatMap entryMarkers ++ loose').Perm (runtime.ownedMarkers ++ loose))
    (hIds : (commands.map (·.commandId)).Nodup) (hEnd : ∀ entry ∈ commands, HasEndData entry)
    (hBlanked : ∀ entry ∈ removed, entry.command = []) :
    Holds { runtime with pendingCommandMarkers := pending, commandMarkers := commands, removed := removed } loose' where
  nodup := hPerm.nodup_iff.mpr h.nodup
  live := fun _ hLive => hPerm.mem_iff.mpr (h.live hLive)
  fresh := fun marker hMarker => h.fresh marker (hPerm.mem_iff.mp hMarker)
  ids := hIds
  blanked := hBlanked
  endData := hEnd

theorem registerMarker (view : TerminalView) (offset : Int) (listens : Bool) :
    (runtime.registerMarker view offset listens).1.Holds ((runtime.registerMarker view offset listens).2.toList ++ loose) := by
  rw [MarkerRuntime.registerMarker]
  split
  · exact h
  · next line hLine =>
    have hGrown : Holds { runtime with created := runtime.created + 1 } loose :=
      ⟨h.nodup, h.live, fun marker hMarker => Nat.lt_succ_of_lt (h.fresh marker hMarker), h.ids, h.blanked, h.endData⟩
    dsimp only
    split
    · exact hGrown
    · have hNew : (⟨runtime.created, listens⟩ : Marker) ∉ runtime.ownedMarkers ++ loose := fun hMem =>
        Nat.lt_irrefl _ (h.fresh _ hMem)
      have hPerm : (runtime.ownedMarkers ++ (⟨runtime.created, listens⟩ :: loose)).Perm
          (⟨runtime.created, listens⟩ :: (runtime.ownedMarkers ++ loose)) := List.perm_middle
      refine ⟨hPerm.nodup_iff.mpr (List.nodup_cons.mpr ⟨hNew, h.nodup⟩), ?_, ?_, h.ids, h.blanked, h.endData⟩
      · intro marker hLive
        refine hPerm.mem_iff.mpr ?_
        obtain rfl | hOld := List.mem_cons.mp hLive
        · exact List.mem_cons_self
        · exact List.mem_cons_of_mem _ (h.live hOld)
      · intro marker hMarker
        obtain rfl | hOld := List.mem_cons.mp (hPerm.mem_iff.mp hMarker)
        · exact Nat.lt_succ_self _
        · exact Nat.lt_succ_of_lt (h.fresh marker hOld)

theorem release (marker : Marker) : (runtime.release marker).Holds loose where
  nodup := h.nodup
  live := fun _ hLive => h.live (List.mem_of_mem_filter hLive)
  fresh := h.fresh
  ids := h.ids
  blanked := h.blanked
  endData := h.endData

end Holds

theorem not_mem_release (marker : Marker) : marker ∉ (runtime.release marker).live := by
  intro hMem
  have hOther : decide (marker ≠ marker) = true := (List.mem_filter.mp hMem).2
  exact of_decide_eq_true hOther rfl

variable {marker : Marker} {loose : List Marker}

theorem Holds.drop (h : runtime.Holds (marker :: loose)) (hDead : marker ∉ runtime.live) : runtime.Holds loose where
  nodup := (List.nodup_cons.mp (List.perm_middle.nodup_iff.mp h.nodup)).2
  live := by
    intro other hLive
    obtain rfl | hMem := List.mem_cons.mp (List.perm_middle.mem_iff.mp (h.live hLive))
    · exact absurd hLive hDead
    · exact hMem
  fresh := fun other hMem => h.fresh other (List.perm_middle.mem_iff.mpr (List.mem_cons_of_mem marker hMem))
  ids := h.ids
  blanked := h.blanked
  endData := h.endData

variable {markers : List Marker}

theorem Holds.releases (h : runtime.Holds (markers ++ loose)) : (markers.foldl MarkerRuntime.release runtime).Holds loose := by
  induction markers generalizing runtime with
  | nil => exact h
  | cons marker markers ih => exact ih ((h.release marker).drop (not_mem_release marker))

theorem removeDisposedInputMarker_of_not_mem (h : marker ∉ runtime.ownedMarkers) : runtime.removeDisposedInputMarker marker = runtime := by
  obtain ⟨hPending, hCommands⟩ := not_or.mp (mt List.mem_append.mpr h)
  have hNoPending : ¬ runtime.pendingCommandMarkers.any (·.marker = marker) = true := by
    intro hAny
    obtain ⟨entry, hEntry, hSame⟩ := List.any_eq_true.mp hAny
    exact hPending (List.mem_map.mpr ⟨entry, hEntry, of_decide_eq_true hSame⟩)
  have hNoCommand : runtime.commandMarkers.find? (·.inputMarker = marker) = none := by
    rw [List.find?_eq_none]
    intro entry hEntry hSame
    exact hCommands (List.mem_flatMap.mpr ⟨entry, hEntry, of_decide_eq_true hSame ▸ List.mem_cons_self⟩)
  rw [removeDisposedInputMarker, if_neg hNoPending, hNoCommand]

theorem disposeMarker_of_not_mem (h : marker ∉ runtime.ownedMarkers) :
    runtime.disposeMarker marker = if marker ∈ runtime.live then runtime.release marker else runtime := by
  have hNothing : (runtime.release marker).removeDisposedInputMarker marker = runtime.release marker := removeDisposedInputMarker_of_not_mem h
  rw [disposeMarker, hNothing, ite_self]

section

variable (h : runtime.Holds (marker :: loose))
include h

theorem Holds.not_owned : marker ∉ runtime.ownedMarkers :=
  fun hMem => (List.nodup_append.mp h.nodup).2.2 marker hMem marker List.mem_cons_self rfl

theorem Holds.disposeLoose : (runtime.disposeMarker marker).Holds loose := by
  rw [disposeMarker_of_not_mem h.not_owned]
  split
  · exact (h.release marker).drop (not_mem_release marker)
  · next hDead => exact h.drop hDead

theorem Holds.commands_disposeLoose : (runtime.disposeMarker marker).commandMarkers = runtime.commandMarkers := by
  rw [disposeMarker_of_not_mem h.not_owned]
  split <;> rfl

end

theorem Holds.disposeAll (h : runtime.Holds (markers ++ loose)) : (runtime.disposeMarkers markers).Holds loose := by
  induction markers generalizing runtime with
  | nil => exact h
  | cons marker markers ih => exact ih h.disposeLoose

theorem Holds.commands_disposeAll (h : runtime.Holds (markers ++ loose)) :
    (runtime.disposeMarkers markers).commandMarkers = runtime.commandMarkers := by
  induction markers generalizing runtime with
  | nil => rfl
  | cons marker markers ih => exact (ih h.disposeLoose).trans h.commands_disposeLoose

theorem exists_erase_of_find {α : Type} {p : α → Bool} {entries : List α} {entry : α} (h : entries.find? p = some entry) :
    ∃ front back, p entry = true ∧ entries = front ++ entry :: back ∧ entries.eraseP p = front ++ back := by
  obtain ⟨hFound, front, back, rfl, hBefore⟩ := List.find?_eq_some_iff_append.mp h
  refine ⟨front, back, hFound, rfl, ?_⟩
  rw [List.eraseP_append_right _ (by simpa using hBefore), List.eraseP_cons, hFound, cond_true]

theorem Holds.removeDisposedInputMarker (h : runtime.Holds loose) (hDead : marker ∉ runtime.live) :
    (runtime.removeDisposedInputMarker marker).Holds loose := by
  rw [MarkerRuntime.removeDisposedInputMarker]
  split
  · next hAny =>
    obtain ⟨entry, hEntry, hSame⟩ := List.any_eq_true.mp hAny
    obtain ⟨found, front, back, -, hFound, hPending, hErase⟩ :=
      List.exists_of_eraseP (p := fun entry : PendingCommandMarker => decide (entry.marker = marker)) hEntry hSame
    have hMarker : found.marker = marker := of_decide_eq_true hFound
    have hMoved : Holds { runtime with pendingCommandMarkers := runtime.pendingCommandMarkers.eraseP (·.marker = marker) } (marker :: loose) := by
      refine h.move ?_ h.ids h.endData h.blanked
      rw [hErase, ownedMarkers, hPending, List.perm_iff_count]
      intro other
      simp only [List.map_append, List.map_cons, hMarker, List.count_append, List.count_cons]
      omega
    exact hMoved.drop hDead
  · split
    · exact h
    · next entry hFind =>
      obtain ⟨front, back, hFound, hCommands, hErase⟩ := exists_erase_of_find hFind
      have hInput : entry.inputMarker = marker := of_decide_eq_true hFound
      have hSublist : (front ++ back).Sublist runtime.commandMarkers := by
        rw [hCommands]
        exact (List.sublist_cons_self entry back).append_left front
      have hMoved : Holds
          { runtime with
            commandMarkers := runtime.commandMarkers.eraseP (·.inputMarker = marker)
            removed := blank entry :: runtime.removed }
          (marker :: (entry.outputStartMarker :: entry.outputEndMarker.toList ++ loose)) := by
        rw [hErase]
        refine h.move ?_ (h.ids.sublist (hSublist.map _)) (fun other hOther => h.endData other (hSublist.subset hOther)) ?_
        · rw [ownedMarkers, hCommands, List.perm_iff_count]
          intro other
          simp only [List.flatMap_append, List.flatMap_cons, entryMarkers, hInput, List.count_append, List.count_cons]
          omega
        · exact List.forall_mem_cons.mpr ⟨rfl, h.blanked⟩
      exact (hMoved.drop hDead).releases

theorem Holds.disposeMarker (h : runtime.Holds loose) (marker : Marker) : (runtime.disposeMarker marker).Holds loose := by
  rw [MarkerRuntime.disposeMarker]
  split
  · split
    · exact (h.release marker).removeDisposedInputMarker (not_mem_release marker)
    · exact h.release marker
  · exact h

section

variable (runtime) (view : TerminalView) (offset : Int) (listens : Bool)

theorem pending_registerMarker : (runtime.registerMarker view offset listens).1.pendingCommandMarkers = runtime.pendingCommandMarkers := by
  rw [MarkerRuntime.registerMarker]
  split
  · rfl
  · dsimp only
    split <;> rfl

theorem commands_registerMarker : (runtime.registerMarker view offset listens).1.commandMarkers = runtime.commandMarkers := by
  rw [MarkerRuntime.registerMarker]
  split
  · rfl
  · dsimp only
    split <;> rfl

end

section

variable (h : runtime.Holds []) (view : TerminalView)
include h

theorem Holds.pushPending (inputLine cursorLine : Nat) (recordedAt : Int) :
    (runtime.pushPending view inputLine cursorLine recordedAt).1.Holds [] := by
  have hRegistered := h.registerMarker view (inputLine - cursorLine) true
  rw [MarkerRuntime.pushPending]
  split
  · next next hNone =>
    rw [hNone] at hRegistered
    exact hRegistered
  · next next marker hSome =>
    rw [hSome] at hRegistered
    refine hRegistered.move ?_ hRegistered.ids hRegistered.endData hRegistered.blanked
    rw [ownedMarkers, List.perm_iff_count]
    intro other
    simp only [List.map_append, List.map_cons, List.map_nil, List.count_append, Option.toList_some, List.append_nil]
    omega

theorem Holds.recordPendingCommandMarker (recordedAt : Int) : (runtime.recordPendingCommandMarker view recordedAt).1.Holds [] := by
  rw [MarkerRuntime.recordPendingCommandMarker]
  split
  · exact h
  · exact h.pushPending view _ _ recordedAt

theorem Holds.synthesizeQueuedCommandMarker (recordedAt : Int) : (runtime.synthesizeQueuedCommandMarker view recordedAt).1.Holds [] := by
  rw [MarkerRuntime.synthesizeQueuedCommandMarker]
  split
  · exact h
  · exact h.pushPending view _ _ recordedAt

end

structure IsCandidate (runtime : MarkerRuntime) (candidate : PendingCommandMarker) (receivedAt : Int) : Prop where
  mem : candidate ∈ runtime.pendingCommandMarkers
  recorded : candidate.recordedAt ≤ receivedAt

variable {receivedAt : Int} {candidate : PendingCommandMarker}

theorem isCandidate_pendingCandidate (h : runtime.pendingCandidate receivedAt = some candidate) : runtime.IsCandidate candidate receivedAt := by
  have hBoth := List.find?_some h
  rw [Bool.and_eq_true] at hBoth
  exact ⟨List.mem_of_find?_eq_some h, of_decide_eq_true hBoth.2⟩

theorem isCandidate_synthesize {view : TerminalView} {next : MarkerRuntime}
    (h : runtime.synthesizeQueuedCommandMarker view receivedAt = (next, some candidate)) : next.IsCandidate candidate receivedAt := by
  rw [MarkerRuntime.synthesizeQueuedCommandMarker] at h
  split at h
  · cases h
  · rw [MarkerRuntime.pushPending] at h
    split at h
    · cases h
    · cases h
      exact ⟨List.mem_append_right _ (List.mem_singleton_self _), Int.le_refl _⟩

theorem perm_pending {pending : List PendingCommandMarker} (hNodup : (pending.map (·.marker)).Nodup)
    (hMem : candidate ∈ pending) (hRecorded : candidate.recordedAt ≤ receivedAt) :
    pending.Perm (candidate :: (pending.filter (·.recordedAt ≤ receivedAt)).filter (· ≠ candidate) ++
      pending.filter fun entry => receivedAt < entry.recordedAt) := by
  have hConsumed : (pending.filter (·.recordedAt ≤ receivedAt)).Nodup := (hNodup.of_map _).filter _
  have hCandidate : candidate ∈ pending.filter (·.recordedAt ≤ receivedAt) := List.mem_filter.mpr ⟨hMem, decide_eq_true hRecorded⟩
  have hOthers : (pending.filter (·.recordedAt ≤ receivedAt)).erase candidate =
      (pending.filter (·.recordedAt ≤ receivedAt)).filter (· ≠ candidate) := by
    rw [hConsumed.erase_eq_filter]
    exact List.filter_congr fun entry _ => by rw [decide_not]; rfl
  have hLater : (pending.filter fun entry => !decide (entry.recordedAt ≤ receivedAt)) =
      pending.filter fun entry => receivedAt < entry.recordedAt :=
    List.filter_congr fun entry _ => by rw [← decide_not, decide_eq_decide]; exact Int.not_le
  have hSplit := (List.filter_append_perm (fun entry : PendingCommandMarker => decide (entry.recordedAt ≤ receivedAt)) pending).symm
  rw [hLater] at hSplit
  refine hSplit.trans (List.Perm.append_right _ ?_)
  rw [← hOthers]
  exact List.perm_cons_erase hCandidate

variable (commandStartOffset : Text → Nat)

theorem Holds.confirmCommand (h : runtime.Holds []) (view : TerminalView) {commandId : String}
    (hCandidate : runtime.IsCandidate candidate receivedAt) (hId : commandId ∉ runtime.commandMarkers.map (·.commandId)) :
    (runtime.confirmCommand commandStartOffset view candidate commandId receivedAt).1.Holds [] := by
  have hRegistered := h.registerMarker view 0 false
  have hPending := runtime.pending_registerMarker view 0 false
  have hCommands := runtime.commands_registerMarker view 0 false
  rw [MarkerRuntime.confirmCommand]
  split
  · next next hNone =>
    rw [hNone] at hRegistered
    exact hRegistered
  · next next outputStartMarker hSome =>
    rw [hSome] at hRegistered hPending hCommands
    have hNodup : (next.pendingCommandMarkers.map (·.marker)).Nodup := (List.nodup_append.mp (List.nodup_append.mp hRegistered.nodup).1).1
    have hPerm := (perm_pending hNodup (hPending ▸ hCandidate.mem) hCandidate.recorded).map (·.marker)
    -- the other entries of that time are loose, and so are the candidate's marker and the new one
    have hLoose : Holds { next with pendingCommandMarkers := next.pendingCommandMarkers.filter fun entry => receivedAt < entry.recordedAt }
        ((((next.pendingCommandMarkers.filter (·.recordedAt ≤ receivedAt)).filter (· ≠ candidate)).map (·.marker)) ++
          [candidate.marker, outputStartMarker]) := by
      refine hRegistered.move ?_ hRegistered.ids hRegistered.endData hRegistered.blanked
      rw [ownedMarkers, List.perm_iff_count]
      intro other
      have hCount := hPerm.count_eq other
      simp only [List.map_append, List.map_cons, List.cons_append, List.count_append, List.count_cons, List.count_nil,
        Option.toList_some, List.append_nil] at hCount ⊢
      omega
    have hCleared := hLoose.disposeAll
    dsimp only
    split
    · have hRest : Holds _ ([candidate.marker, outputStartMarker] ++ []) := hCleared
      exact hRest.disposeAll
    · have hSame := hLoose.commands_disposeAll.trans hCommands
      refine hCleared.move ?_ ?_ ?_ hCleared.blanked
      · rw [ownedMarkers, List.perm_iff_count]
        intro other
        simp only [List.flatMap_append, List.flatMap_cons, List.flatMap_nil, entryMarkers, Option.toList_none, List.count_append,
          List.append_nil]
        omega
      · rw [hSame, List.map_append, List.map_singleton, List.nodup_append]
        refine ⟨h.ids, List.nodup_singleton _, ?_⟩
        rintro id hOld _ hOther rfl
        obtain rfl := List.mem_singleton.mp hOther
        exact hId hOld
      · rw [hSame, List.forall_mem_append, List.forall_mem_singleton]
        exact ⟨h.endData, fun _ => ⟨rfl, rfl, rfl⟩⟩

theorem commands_pushPending (view : TerminalView) (inputLine cursorLine : Nat) (recordedAt : Int) :
    (runtime.pushPending view inputLine cursorLine recordedAt).1.commandMarkers = runtime.commandMarkers := by
  have hCommands := runtime.commands_registerMarker view (inputLine - cursorLine) true
  rw [MarkerRuntime.pushPending]
  split
  · next next hNone =>
    rw [hNone] at hCommands
    exact hCommands
  · next next marker hSome =>
    rw [hSome] at hCommands
    exact hCommands

theorem commands_synthesize (runtime : MarkerRuntime) (view : TerminalView) (receivedAt : Int) :
    (runtime.synthesizeQueuedCommandMarker view receivedAt).1.commandMarkers = runtime.commandMarkers := by
  rw [MarkerRuntime.synthesizeQueuedCommandMarker]
  split
  · rfl
  · exact commands_pushPending view _ _ receivedAt

theorem Holds.commandStart (h : runtime.Holds []) (view : TerminalView) (commandId : String) (receivedAt : Int) :
    (runtime.commandStart commandStartOffset view commandId receivedAt).1.Holds [] := by
  rw [MarkerRuntime.commandStart]
  split
  · exact h
  · next hAny =>
    have hId : commandId ∉ runtime.commandMarkers.map (·.commandId) := by
      intro hMem
      obtain ⟨entry, hEntry, hSame⟩ := List.mem_map.mp hMem
      exact hAny (List.any_eq_true.mpr ⟨entry, hEntry, decide_eq_true hSame⟩)
    split
    · next candidate hFind => exact h.confirmCommand commandStartOffset view (isCandidate_pendingCandidate hFind) hId
    · have hNext := h.synthesizeQueuedCommandMarker view receivedAt
      have hCommands := commands_synthesize runtime view receivedAt
      split
      · next next hNone =>
        rw [hNone] at hNext
        exact hNext
      · next next candidate hSome =>
        rw [hSome] at hNext hCommands
        exact hNext.confirmCommand commandStartOffset view (isCandidate_synthesize hSome) (hCommands ▸ hId)

theorem map_completed {existing : TerminalCommandMarker} {front back : List TerminalCommandMarker} (hFront : existing ∉ front)
    (hBack : existing ∉ back) (complete : TerminalCommandMarker → TerminalCommandMarker) :
    (front ++ existing :: back).map (fun entry => if entry = existing then complete entry else entry) = front ++ complete existing :: back := by
  have hKeep : ∀ entries : List TerminalCommandMarker, existing ∉ entries →
      entries.map (fun entry => if entry = existing then complete entry else entry) = entries := by
    intro entries hNot
    have hSame : ∀ entry ∈ entries, (if entry = existing then complete entry else entry) = id entry := by
      intro entry hEntry
      split
      · next hEqual => exact absurd (hEqual ▸ hEntry) hNot
      · rfl
    rw [List.map_congr_left hSame, List.map_id]
  rw [List.map_append, List.map_cons, if_pos rfl, hKeep front hFront, hKeep back hBack]

section

variable (h : runtime.Holds [])
include h

theorem Holds.commandEnd (view : TerminalView) (commandId : String) (receivedAt durationMs exitCode : Int) :
    (runtime.commandEnd view commandId receivedAt durationMs exitCode).1.Holds [] := by
  rw [MarkerRuntime.commandEnd]
  split
  · exact h
  · next existing hFind =>
    split
    · exact h
    · next hOpen =>
      have hRegistered := h.registerMarker view 0 false
      have hCommands := runtime.commands_registerMarker view 0 false
      split
      · next next hNone =>
        rw [hNone] at hRegistered
        exact hRegistered
      · next next outputEndMarker hSome =>
        rw [hSome] at hRegistered hCommands
        have hOpen : existing.outputEndMarker = none := by simpa using hOpen
        obtain ⟨-, front, back, hFront, -⟩ := List.find?_eq_some_iff_append.mp hFind
        have hNodup : (front ++ existing :: back).Nodup := hFront ▸ h.ids.of_map _
        obtain ⟨hNotFront, hNotBack⟩ := not_or.mp (mt List.mem_append.mpr (List.nodup_middle.mp hNodup).notMem)
        have hMap := map_completed hNotFront hNotBack (completeEntry outputEndMarker receivedAt durationMs exitCode)
        refine hRegistered.move ?_ ?_ ?_ hRegistered.blanked
        · rw [hCommands, hFront, hMap, ownedMarkers, hCommands, hFront, List.perm_iff_count]
          intro other
          simp only [List.flatMap_append, List.flatMap_cons, entryMarkers, completeEntry, hOpen, Option.toList_none, Option.toList_some,
            List.count_append, List.count_cons, List.count_nil, List.append_nil, List.cons_append]
          omega
        · rw [hCommands, hFront, hMap, List.map_append, List.map_cons]
          have hIds := h.ids
          rwa [hFront, List.map_append, List.map_cons] at hIds
        · rw [hCommands, hFront, hMap]
          have hEnd := h.endData
          rw [hFront, List.forall_mem_append, List.forall_mem_cons] at hEnd
          rw [List.forall_mem_append, List.forall_mem_cons]
          exact ⟨hEnd.1, nofun, hEnd.2.2⟩

theorem Holds.clearPendingCommandMarkers : runtime.clearPendingCommandMarkers.1.Holds [] := by
  rw [MarkerRuntime.clearPendingCommandMarkers]
  split
  · exact h
  · have hLoose : Holds { runtime with pendingCommandMarkers := [] } (runtime.pendingCommandMarkers.map (·.marker) ++ []) := by
      refine h.move ?_ h.ids h.endData h.blanked
      rw [ownedMarkers, List.perm_iff_count]
      intro other
      simp only [List.map_nil, List.count_append, List.count_nil]
      omega
    exact hLoose.disposeAll

theorem Holds.clearTerminalCommandMarkers : runtime.clearTerminalCommandMarkers.1.Holds [] := by
  rw [MarkerRuntime.clearTerminalCommandMarkers]
  split
  · exact h
  · have hLoose : Holds
        { runtime with
          pendingCommandMarkers := []
          commandMarkers := []
          removed := runtime.commandMarkers.map blank ++ runtime.removed }
        (runtime.pendingCommandMarkers.map (·.marker) ++ (runtime.commandMarkers.flatMap entryMarkers ++ [])) := by
      refine h.move ?_ List.nodup_nil (fun _ hMem => absurd hMem List.not_mem_nil) ?_
      · rw [ownedMarkers, List.perm_iff_count]
        intro other
        simp only [List.map_nil, List.flatMap_nil, List.count_append, List.count_nil]
        omega
      · rw [List.forall_mem_append, List.forall_mem_map]
        exact ⟨fun _ _ => rfl, h.blanked⟩
    exact hLoose.disposeAll.disposeAll

theorem Holds.step (event : MarkerEvent) : (runtime.step commandStartOffset event).Holds [] := by
  cases event with
  | enter view recordedAt => exact h.recordPendingCommandMarker view recordedAt
  | command_start view commandId receivedAt => exact h.commandStart commandStartOffset view commandId receivedAt
  | command_end view commandId receivedAt durationMs exitCode => exact h.commandEnd view commandId receivedAt durationMs exitCode
  | prompt_ready => exact h.clearPendingCommandMarkers
  | other => exact h
  | disposed marker => exact h.disposeMarker marker
  | clear => exact h.clearTerminalCommandMarkers

end

end MarkerRuntime

end SshPage
