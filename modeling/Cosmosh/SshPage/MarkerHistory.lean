import Mathlib.Tactic.Tauto
import Cosmosh.SshPage.MarkerOwnership

/-! # Entries over a run

An entry that was confirmed stays, or is removed and blanked.
-/

namespace SshPage

open Library Library.Transition

variable {runtime : MarkerRuntime} {entry : TerminalCommandMarker}

namespace MarkerRuntime

def enteredMarkers (runtime : MarkerRuntime) : List Marker := (runtime.commandMarkers ++ runtime.removed).map (·.inputMarker)

structure Grows (before after : MarkerRuntime) : Prop where
  created : before.created ≤ after.created
  pending : ∀ entry ∈ after.pendingCommandMarkers, entry ∈ before.pendingCommandMarkers ∨ before.created ≤ entry.marker.id
  commands : ∀ entry ∈ after.commandMarkers, entry ∈ before.commandMarkers ∨
    (∃ candidate ∈ before.pendingCommandMarkers, candidate.marker = entry.inputMarker) ∨ before.created ≤ entry.inputMarker.id
  kept : enteredMarkers before ⊆ enteredMarkers after

theorem Grows.refl (runtime : MarkerRuntime) : Grows runtime runtime := ⟨Nat.le_refl _, fun _ => .inl, fun _ => .inl, List.Subset.refl _⟩

theorem Grows.trans {first second third : MarkerRuntime} (h : Grows first second) (h' : Grows second third) : Grows first third where
  created := h.created.trans h'.created
  pending := by
    intro entry hEntry
    obtain hOld | hNew := h'.pending entry hEntry
    · exact h.pending entry hOld
    · exact .inr (h.created.trans hNew)
  commands := by
    intro entry hEntry
    obtain hOld | ⟨candidate, hCandidate, hMarker⟩ | hNew := h'.commands entry hEntry
    · exact h.commands entry hOld
    · obtain hPending | hFresh := h.pending candidate hCandidate
      · exact .inr (.inl ⟨candidate, hPending, hMarker⟩)
      · exact .inr (.inr (hMarker ▸ hFresh))
    · exact .inr (.inr (h.created.trans hNew))
  kept := List.Subset.trans h.kept h'.kept

section

variable (runtime : MarkerRuntime)

theorem grows_registerMarker (view : TerminalView) (offset : Int) (listens : Bool) :
    Grows runtime (runtime.registerMarker view offset listens).1 := by
  rw [MarkerRuntime.registerMarker]
  split
  · exact .refl runtime
  · dsimp only
    split <;> exact ⟨Nat.le_succ _, fun _ => .inl, fun _ => .inl, List.Subset.refl _⟩

theorem grows_release (marker : Marker) : Grows runtime (runtime.release marker) :=
  ⟨Nat.le_refl _, fun _ => .inl, fun _ => .inl, List.Subset.refl _⟩

theorem grows_releases (markers : List Marker) : Grows runtime (markers.foldl release runtime) := by
  induction markers generalizing runtime with
  | nil => exact .refl runtime
  | cons marker markers ih => exact (runtime.grows_release marker).trans (ih _)

theorem grows_removeDisposedInputMarker (marker : Marker) : Grows runtime (runtime.removeDisposedInputMarker marker) := by
  rw [MarkerRuntime.removeDisposedInputMarker]
  split
  · exact ⟨Nat.le_refl _, fun _ hEntry => .inl (List.mem_of_mem_eraseP hEntry), fun _ => .inl, List.Subset.refl _⟩
  · split
    · exact .refl runtime
    · next entry hFind =>
      obtain ⟨front, back, -, hCommands, hErase⟩ := exists_erase_of_find hFind
      have hErased : Grows runtime { runtime with
          commandMarkers := runtime.commandMarkers.eraseP (·.inputMarker = marker)
          removed := blank entry :: runtime.removed } := by
        refine ⟨Nat.le_refl _, fun _ => .inl, fun _ hEntry => .inl (List.mem_of_mem_eraseP hEntry), ?_⟩
        intro other hOther
        rw [enteredMarkers, hCommands] at hOther
        rw [enteredMarkers, hErase]
        simp only [List.map_append, List.map_cons, List.mem_append, List.mem_cons, blank] at hOther ⊢
        tauto
      exact hErased.trans (grows_releases _ _)

theorem grows_disposeMarker (marker : Marker) : Grows runtime (runtime.disposeMarker marker) := by
  rw [disposeMarker]
  split
  · split
    · exact (grows_release runtime marker).trans (grows_removeDisposedInputMarker _ marker)
    · exact grows_release runtime marker
  · exact .refl runtime

theorem grows_disposeMarkers (markers : List Marker) : Grows runtime (runtime.disposeMarkers markers) := by
  induction markers generalizing runtime with
  | nil => exact .refl runtime
  | cons marker markers ih => exact (runtime.grows_disposeMarker marker).trans (ih _)

end

theorem id_registerMarker {next : MarkerRuntime} {view : TerminalView} {offset : Int} {listens : Bool} {marker : Marker}
    (h : runtime.registerMarker view offset listens = (next, some marker)) : marker.id = runtime.created := by
  rw [MarkerRuntime.registerMarker] at h
  split at h
  · cases h
  · dsimp only at h
    split at h <;> cases h
    rfl

section

variable (runtime : MarkerRuntime) (view : TerminalView)

theorem grows_pushPending (inputLine cursorLine : Nat) (recordedAt : Int) :
    Grows runtime (runtime.pushPending view inputLine cursorLine recordedAt).1 := by
  have hRegistered := runtime.grows_registerMarker view (inputLine - cursorLine) true
  rw [pushPending]
  split
  · next next hNone =>
    rw [hNone] at hRegistered
    exact hRegistered
  · next next marker hSome =>
    have hId := id_registerMarker hSome
    rw [hSome] at hRegistered
    refine ⟨hRegistered.created, ?_, hRegistered.commands, hRegistered.kept⟩
    intro entry hEntry
    obtain hOld | hNew := List.mem_append.mp hEntry
    · exact hRegistered.pending entry hOld
    · rw [List.mem_singleton.mp hNew]
      exact .inr (Nat.le_of_eq hId.symm)

theorem grows_recordPendingCommandMarker (recordedAt : Int) : Grows runtime (runtime.recordPendingCommandMarker view recordedAt).1 := by
  rw [recordPendingCommandMarker]
  split
  · exact .refl runtime
  · exact runtime.grows_pushPending view _ _ recordedAt

theorem grows_synthesize (recordedAt : Int) : Grows runtime (runtime.synthesizeQueuedCommandMarker view recordedAt).1 := by
  rw [synthesizeQueuedCommandMarker]
  split
  · exact .refl runtime
  · exact runtime.grows_pushPending view _ _ recordedAt

end

theorem grows_confirmCommand (commandStartOffset : Text → Nat) (runtime : MarkerRuntime) (view : TerminalView)
    {candidate : PendingCommandMarker} (hCandidate : candidate ∈ runtime.pendingCommandMarkers) (commandId : String) (receivedAt : Int) :
    Grows runtime (runtime.confirmCommand commandStartOffset view candidate commandId receivedAt).1 := by
  have hRegistered := runtime.grows_registerMarker view 0 false
  rw [confirmCommand]
  split
  · next next hNone =>
    rw [hNone] at hRegistered
    exact hRegistered
  · next next outputStartMarker hSome =>
    rw [hSome] at hRegistered
    have hKept : Grows next { next with
        pendingCommandMarkers := next.pendingCommandMarkers.filter fun entry => receivedAt < entry.recordedAt } :=
      ⟨Nat.le_refl _, fun _ hEntry => .inl (List.mem_of_mem_filter hEntry), fun _ => .inl, List.Subset.refl _⟩
    have hCleared := (hRegistered.trans hKept).trans (grows_disposeMarkers _
      (((next.pendingCommandMarkers.filter (·.recordedAt ≤ receivedAt)).filter (· ≠ candidate)).map (·.marker)))
    dsimp only
    split
    · exact hCleared.trans (grows_disposeMarkers _ _)
    · refine ⟨hCleared.created, hCleared.pending, ?_, ?_⟩
      · intro entry hEntry
        obtain hOld | hNew := List.mem_append.mp hEntry
        · exact hCleared.commands entry hOld
        · rw [List.mem_singleton.mp hNew]
          exact .inr (.inl ⟨candidate, hCandidate, rfl⟩)
      · refine List.Subset.trans hCleared.kept fun other hOther => ?_
        rw [enteredMarkers] at hOther ⊢
        simp only [List.map_append, List.mem_append] at hOther ⊢
        tauto

theorem grows_commandStart (commandStartOffset : Text → Nat) (runtime : MarkerRuntime) (view : TerminalView) (commandId : String)
    (receivedAt : Int) : Grows runtime (runtime.commandStart commandStartOffset view commandId receivedAt).1 := by
  rw [commandStart]
  split
  · exact .refl runtime
  · split
    · next candidate hFind =>
      exact runtime.grows_confirmCommand commandStartOffset view (isCandidate_pendingCandidate hFind).mem commandId receivedAt
    · have hNext := runtime.grows_synthesize view receivedAt
      split
      · next next hNone =>
        rw [hNone] at hNext
        exact hNext
      · next next candidate hSome =>
        rw [hSome] at hNext
        exact hNext.trans (next.grows_confirmCommand commandStartOffset view (isCandidate_synthesize hSome).mem commandId receivedAt)

theorem grows_clearPendingCommandMarkers (runtime : MarkerRuntime) : Grows runtime runtime.clearPendingCommandMarkers.1 := by
  rw [clearPendingCommandMarkers]
  split
  · exact .refl runtime
  · have hEmptied : Grows runtime { runtime with pendingCommandMarkers := [] } := ⟨Nat.le_refl _, fun _ hEntry => absurd hEntry List.not_mem_nil, fun _ => .inl, List.Subset.refl _⟩
    exact hEmptied.trans (grows_disposeMarkers _ _)

theorem grows_clearTerminalCommandMarkers (runtime : MarkerRuntime) : Grows runtime runtime.clearTerminalCommandMarkers.1 := by
  rw [clearTerminalCommandMarkers]
  split
  · exact .refl runtime
  · have hEmptied : Grows runtime { runtime with
        pendingCommandMarkers := []
        commandMarkers := []
        removed := runtime.commandMarkers.map blank ++ runtime.removed } := by
      refine ⟨Nat.le_refl _, fun _ hEntry => absurd hEntry List.not_mem_nil, fun _ hEntry => absurd hEntry List.not_mem_nil, fun other hOther => ?_⟩
      rw [enteredMarkers, List.map_append] at hOther
      rw [enteredMarkers, List.nil_append, List.map_append, List.map_map]
      exact hOther
    exact (hEmptied.trans (grows_disposeMarkers _ _)).trans (grows_disposeMarkers _ _)

structure IsSealed (entry : TerminalCommandMarker) (runtime : MarkerRuntime) : Prop where
  old : entry.inputMarker.id < runtime.created
  pending : ∀ candidate ∈ runtime.pendingCommandMarkers, candidate.marker ≠ entry.inputMarker
  only : ∀ other ∈ runtime.commandMarkers, other.inputMarker = entry.inputMarker → other = entry

theorem inputs_sublist (entries : List TerminalCommandMarker) : (entries.map (·.inputMarker)).Sublist (entries.flatMap entryMarkers) := by
  induction entries with
  | nil => exact List.Sublist.refl _
  | cons entry entries ih =>
    rw [List.map_cons, List.flatMap_cons, entryMarkers, List.cons_append]
    exact (ih.trans (List.sublist_append_right _ _)).cons_cons entry.inputMarker

theorem input_mem_entryMarkers (entry : TerminalCommandMarker) : entry.inputMarker ∈ entryMarkers entry := List.mem_cons_self

variable {runtime : MarkerRuntime}

theorem Holds.inputs_distinct {loose : List Marker} (h : runtime.Holds loose) {other : TerminalCommandMarker}
    (hEntry : entry ∈ runtime.commandMarkers) (hOther : other ∈ runtime.commandMarkers)
    (hSame : other.inputMarker = entry.inputMarker) : other = entry := by
  have hFlat : (runtime.commandMarkers.flatMap entryMarkers).Nodup := (List.nodup_append.mp (List.nodup_append.mp h.nodup).1).2.1
  exact List.inj_on_of_nodup_map (hFlat.sublist (inputs_sublist _)) hOther hEntry hSame

theorem Holds.isSealed (h : runtime.Holds []) (hEntry : entry ∈ runtime.commandMarkers) : IsSealed entry runtime where
  old := by
    refine h.fresh _ (List.mem_append_left _ (List.mem_append_right _ ?_))
    exact List.mem_flatMap.mpr ⟨entry, hEntry, input_mem_entryMarkers entry⟩
  pending := by
    intro candidate hCandidate hSame
    have hApart := (List.nodup_append.mp (List.nodup_append.mp h.nodup).1).2.2
    refine hApart _ (List.mem_map_of_mem hCandidate) _ (List.mem_flatMap.mpr ⟨entry, hEntry, input_mem_entryMarkers entry⟩) hSame
  only := fun other hOther hSame => h.inputs_distinct hEntry hOther hSame

theorem IsSealed.grows {next : MarkerRuntime} (h : IsSealed entry runtime) (hGrows : Grows runtime next) : IsSealed entry next where
  old := h.old.trans_le hGrows.created
  pending := by
    intro candidate hCandidate hSame
    obtain hOld | hNew := hGrows.pending candidate hCandidate
    · exact h.pending candidate hOld hSame
    · rw [hSame] at hNew
      exact Nat.not_le.mpr h.old hNew
  only := by
    intro other hOther hSame
    obtain hOld | ⟨candidate, hCandidate, hMarker⟩ | hNew := hGrows.commands other hOther
    · exact h.only other hOld hSame
    · exact absurd (hMarker.trans hSame) (h.pending candidate hCandidate)
    · rw [hSame] at hNew
      exact absurd hNew (Nat.not_le.mpr h.old)

theorem IsSealed.commandEnd (h : IsSealed entry runtime) (hEnded : entry.outputEndMarker ≠ none) (view : TerminalView)
    (commandId : String) (receivedAt durationMs exitCode : Int) :
    IsSealed entry (runtime.commandEnd view commandId receivedAt durationMs exitCode).1 := by
  have hRegistered := h.grows (runtime.grows_registerMarker view 0 false)
  rw [MarkerRuntime.commandEnd]
  split
  · exact h
  · next existing hFind =>
    split
    · exact h
    · next hOpen =>
      split
      · next next hNone =>
        rw [hNone] at hRegistered
        exact hRegistered
      · next next outputEndMarker hSome =>
        rw [hSome] at hRegistered
        refine ⟨hRegistered.old, hRegistered.pending, fun other hOther hSame => ?_⟩
        obtain ⟨old, hOld, rfl⟩ := List.mem_map.mp hOther
        split at hSame
        · next hExisting =>
          have hEntry := hRegistered.only old hOld hSame
          rw [← hEntry, hExisting] at hEnded
          exact absurd (by simpa using hOpen) hEnded
        · next hOther =>
          rw [if_neg hOther]
          exact hRegistered.only old hOld hSame

theorem kept_commandEnd (runtime : MarkerRuntime) (view : TerminalView) (commandId : String) (receivedAt durationMs exitCode : Int) :
    enteredMarkers runtime ⊆ enteredMarkers (runtime.commandEnd view commandId receivedAt durationMs exitCode).1 := by
  have hRegistered := (runtime.grows_registerMarker view 0 false).kept
  rw [MarkerRuntime.commandEnd]
  split
  · exact List.Subset.refl _
  · next existing _ =>
    split
    · exact List.Subset.refl _
    · split
      · next next hNone =>
        rw [hNone] at hRegistered
        exact hRegistered
      · next next outputEndMarker hSome =>
        rw [hSome] at hRegistered
        refine List.Subset.trans hRegistered fun other hOther => ?_
        rw [enteredMarkers, List.map_append] at hOther
        have hInputs : ∀ entry ∈ next.commandMarkers, ((·.inputMarker) ∘ fun entry =>
            if entry = existing then completeEntry outputEndMarker receivedAt durationMs exitCode entry else entry) entry = entry.inputMarker := by
          intro entry _
          rw [Function.comp_apply]
          split <;> rfl
        rw [enteredMarkers, List.map_append, List.map_map, List.map_congr_left hInputs]
        exact hOther

theorem kept_step (commandStartOffset : Text → Nat) (runtime : MarkerRuntime) (event : MarkerEvent) :
    enteredMarkers runtime ⊆ enteredMarkers (runtime.step commandStartOffset event) := by
  cases event with
  | enter view recordedAt => exact (runtime.grows_recordPendingCommandMarker view recordedAt).kept
  | command_start view commandId receivedAt => exact (runtime.grows_commandStart commandStartOffset view commandId receivedAt).kept
  | command_end view commandId receivedAt durationMs exitCode => exact runtime.kept_commandEnd view commandId receivedAt durationMs exitCode
  | prompt_ready => exact runtime.grows_clearPendingCommandMarkers.kept
  | other => exact List.Subset.refl _
  | disposed marker => exact (runtime.grows_disposeMarker marker).kept
  | clear => exact runtime.grows_clearTerminalCommandMarkers.kept

theorem IsSealed.step (commandStartOffset : Text → Nat) (h : IsSealed entry runtime) (hEnded : entry.outputEndMarker ≠ none)
    (event : MarkerEvent) : IsSealed entry (runtime.step commandStartOffset event) := by
  cases event with
  | enter view recordedAt => exact h.grows (runtime.grows_recordPendingCommandMarker view recordedAt)
  | command_start view commandId receivedAt => exact h.grows (runtime.grows_commandStart commandStartOffset view commandId receivedAt)
  | command_end view commandId receivedAt durationMs exitCode => exact h.commandEnd hEnded view commandId receivedAt durationMs exitCode
  | prompt_ready => exact h.grows runtime.grows_clearPendingCommandMarkers
  | other => exact h
  | disposed marker => exact h.grows (runtime.grows_disposeMarker marker)
  | clear => exact h.grows runtime.grows_clearTerminalCommandMarkers

end MarkerRuntime

section

variable (commandStartOffset : Text → Nat)

structure OwnsMarkers (runtime : MarkerRuntime) : Prop where
  once : runtime.ownedMarkers.Nodup
  live : ∀ marker ∈ runtime.live, marker ∈ runtime.ownedMarkers
  ids : (runtime.commandMarkers.map (·.commandId)).Nodup
  endData : ∀ entry ∈ runtime.commandMarkers, MarkerRuntime.HasEndData entry

theorem holds_newMarkerRuntime : newMarkerRuntime.Holds [] where
  nodup := List.nodup_nil
  live := List.nil_subset _
  fresh _ hMem := absurd hMem List.not_mem_nil
  ids := List.nodup_nil
  blanked _ hMem := absurd hMem List.not_mem_nil
  endData _ hMem := absurd hMem List.not_mem_nil

theorem holds_run (events : List MarkerEvent) : ((commandMarkers commandStartOffset).run newMarkerRuntime events).Holds [] := by
  have hReachable : (commandMarkers commandStartOffset).Reachable ((commandMarkers commandStartOffset).run newMarkerRuntime events) :=
    Machine.Reachable.run (.start rfl) events
  refine Machine.Reachable.invariant (P := fun runtime => runtime.Holds []) ?_ (fun _ event _ h => h.step commandStartOffset event) hReachable
  rintro _ rfl
  exact holds_newMarkerRuntime

theorem isSealed_run (hEnded : entry.outputEndMarker ≠ none) (h : MarkerRuntime.IsSealed entry runtime) (events : List MarkerEvent) :
    MarkerRuntime.IsSealed entry ((commandMarkers commandStartOffset).run runtime events) := by
  induction events generalizing runtime with
  | nil => exact h
  | cons event events ih => exact ih (h.step commandStartOffset hEnded event)

theorem kept_run (runtime : MarkerRuntime) (events : List MarkerEvent) :
    MarkerRuntime.enteredMarkers runtime ⊆ MarkerRuntime.enteredMarkers ((commandMarkers commandStartOffset).run runtime events) := by
  induction events generalizing runtime with
  | nil => exact List.Subset.refl _
  | cons event events ih => exact List.Subset.trans (runtime.kept_step commandStartOffset event) (ih _)

theorem MarkerRuntime.disposeMarkers_empty (markers : List Marker) (h : runtime.pendingCommandMarkers = [] ∧ runtime.commandMarkers = []) :
    (runtime.disposeMarkers markers).pendingCommandMarkers = [] ∧ (runtime.disposeMarkers markers).commandMarkers = [] := by
  induction markers generalizing runtime with
  | nil => exact h
  | cons marker markers ih =>
    have hNot : marker ∉ runtime.ownedMarkers := by
      rw [ownedMarkers, h.1, h.2]
      rintro ⟨⟩
    have hNext : (runtime.disposeMarker marker).pendingCommandMarkers = [] ∧ (runtime.disposeMarker marker).commandMarkers = [] := by
      rw [disposeMarker_of_not_mem hNot]
      split <;> exact h
    exact ih hNext

theorem MarkerRuntime.Holds.cleared (h : runtime.Holds []) :
    runtime.clearTerminalCommandMarkers.1.live = [] ∧ runtime.clearTerminalCommandMarkers.1.commandMarkers = [] := by
  have hEmpty : runtime.clearTerminalCommandMarkers.1.pendingCommandMarkers = [] ∧
      runtime.clearTerminalCommandMarkers.1.commandMarkers = [] := by
    rw [MarkerRuntime.clearTerminalCommandMarkers]
    split
    · assumption
    · exact disposeMarkers_empty _ (disposeMarkers_empty _ ⟨rfl, rfl⟩)
  refine ⟨List.eq_nil_iff_forall_not_mem.mpr fun marker hMarker => ?_, hEmpty.2⟩
  have hOwned := h.clearTerminalCommandMarkers.live hMarker
  rw [ownedMarkers, hEmpty.1, hEmpty.2] at hOwned
  cases hOwned

/-- Every state that a sequence of events leads to, the end data of its entries ever after, and what a
clearing leaves of it. -/
theorem command_markers_are_owned (events : List MarkerEvent) : let runtime := (commandMarkers commandStartOffset).run newMarkerRuntime events
    OwnsMarkers runtime ∧
      (∀ entry ∈ runtime.commandMarkers, entry.outputEndMarker ≠ none → ∀ later,
        ∀ other ∈ ((commandMarkers commandStartOffset).run runtime later).commandMarkers, other.inputMarker = entry.inputMarker → other = entry) ∧
      (∀ entry ∈ runtime.commandMarkers, ∀ later,
        entry.inputMarker ∈ MarkerRuntime.enteredMarkers ((commandMarkers commandStartOffset).run runtime later)) ∧
      runtime.clearTerminalCommandMarkers.1.live = [] ∧ runtime.clearTerminalCommandMarkers.1.commandMarkers = [] ∧
      ∀ entry ∈ runtime.clearTerminalCommandMarkers.1.removed, entry.command = [] := by
  have h := holds_run commandStartOffset events
  have hNodup := h.nodup
  have hLive := h.live
  rw [List.append_nil] at hNodup hLive
  refine ⟨⟨hNodup, fun _ hMarker => hLive hMarker, h.ids, h.endData⟩, ?_, ?_, h.cleared.1, h.cleared.2, ?_⟩
  · intro entry hEntry hEnded later
    exact (isSealed_run commandStartOffset hEnded (h.isSealed hEntry) later).only
  · intro entry hEntry later
    refine kept_run commandStartOffset _ later ?_
    exact List.mem_map_of_mem (List.mem_append_left _ hEntry)
  · exact h.clearTerminalCommandMarkers.blanked

end

end SshPage
