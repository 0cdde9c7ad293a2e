import Cosmosh.SftpPage.ConfirmationPrompts

/-! # When every confirmation settles

A second request for a host fingerprint or a deletion takes the place of the first, whose promise then stays open.
-/

namespace SftpPage

open Library.Answers Library.Transition

namespace ConfirmationPrompts

variable {Entry : Type}

theorem fst_callResolver (resolver : Option RequestId) (accepted : Bool) : (callResolver resolver accepted).map Prod.fst = resolver.toList := by
  rw [callResolver, List.map_map]
  exact List.map_id _

variable (prompts : ConfirmationPrompts Entry)

theorem held_host : prompts.held.Perm (prompts.pendingPromptResolver.toList ++
    (prompts.pendingDeleteConfirmationResolver.toList ++ prompts.pendingUploadConflictResolver.toList ++
      prompts.pendingUploadConflictQueue.map (·.resolve))) := by
  rw [held, List.append_assoc, List.append_assoc, List.append_assoc]

theorem held_delete : prompts.held.Perm (prompts.pendingDeleteConfirmationResolver.toList ++
    (prompts.pendingPromptResolver.toList ++ prompts.pendingUploadConflictResolver.toList ++
      prompts.pendingUploadConflictQueue.map (·.resolve))) := by
  rw [held, ← List.append_assoc, ← List.append_assoc]
  exact ((List.perm_append_comm).append_right _).append_right _

theorem held_upload : prompts.held.Perm ((prompts.pendingUploadConflictResolver.toList ++ prompts.pendingUploadConflictQueue.map (·.resolve)) ++
      (prompts.pendingPromptResolver.toList ++ prompts.pendingDeleteConfirmationResolver.toList)) := by
  rw [held, List.append_assoc]
  exact List.perm_append_comm

theorem answered_host (accepted : Bool) : prompts.held.Perm ((callResolver prompts.pendingPromptResolver accepted).map Prod.fst ++
      (prompts.pendingDeleteConfirmationResolver.toList ++ prompts.pendingUploadConflictResolver.toList ++
        prompts.pendingUploadConflictQueue.map (·.resolve))) := by
  rw [fst_callResolver]
  exact held_host prompts

theorem answered_delete (accepted : Bool) : prompts.held.Perm ((callResolver prompts.pendingDeleteConfirmationResolver accepted).map Prod.fst ++
      (prompts.pendingPromptResolver.toList ++ prompts.pendingUploadConflictResolver.toList ++
        prompts.pendingUploadConflictQueue.map (·.resolve))) := by
  rw [fst_callResolver]
  exact held_delete prompts

theorem answered_upload (accepted : Bool) : prompts.held.Perm ((callResolver prompts.pendingUploadConflictResolver accepted).map Prod.fst ++
      (prompts.pendingUploadConflictQueue.map (·.resolve) ++
        (prompts.pendingPromptResolver.toList ++ prompts.pendingDeleteConfirmationResolver.toList))) := by
  rw [fst_callResolver, ← List.append_assoc]
  exact held_upload prompts

theorem answered_cancelled : prompts.held.Perm ((callResolver prompts.pendingUploadConflictResolver false ++
      prompts.pendingUploadConflictQueue.map fun queued => (queued.resolve, false)).map Prod.fst ++
      (prompts.pendingPromptResolver.toList ++ prompts.pendingDeleteConfirmationResolver.toList)) := by
  have hQueue : (prompts.pendingUploadConflictQueue.map fun queued => (queued.resolve, false)).map Prod.fst =
      prompts.pendingUploadConflictQueue.map (·.resolve) := List.map_map ..
  rw [List.map_append, fst_callResolver, hQueue]
  exact held_upload prompts

def Shows (prompts : ConfirmationPrompts Entry) (kind : ConfirmationKind) (resolver : Option RequestId) : Prop :=
  match resolver with
  | none => prompts.shown kind = none
  | some id => ∃ request, prompts.requests[id]? = some request ∧ request.kind = kind ∧ prompts.shown kind = some request

structure Consistent (prompts : ConfirmationPrompts Entry) : Prop where
  ledger : Ledger (List.range prompts.requests.length) prompts.settled prompts.held
  host : prompts.Shows .host_fingerprint prompts.pendingPromptResolver
  delete : prompts.Shows .delete prompts.pendingDeleteConfirmationResolver
  upload : prompts.Shows .upload_conflict prompts.pendingUploadConflictResolver
  queued : ∀ queued ∈ prompts.pendingUploadConflictQueue, prompts.requests[queued.resolve]? = some (.upload_conflict queued.prompt)
  active : prompts.pendingUploadConflictResolver = none → prompts.pendingUploadConflictQueue = []

variable {prompts : ConfirmationPrompts Entry}

theorem Shows.grow {kind : ConfirmationKind} {resolver : Option RequestId} (h : prompts.Shows kind resolver)
    {next : ConfirmationPrompts Entry} {added : List (ConfirmationPrompt Entry)} (hRequests : next.requests = prompts.requests ++ added)
    (hShown : next.shown kind = prompts.shown kind) : next.Shows kind resolver := by
  cases resolver with
  | none => exact hShown.trans h
  | some id =>
    obtain ⟨request, hRequest, hKind, hPrompt⟩ := h
    obtain ⟨hBound, _⟩ := List.getElem?_eq_some_iff.mp hRequest
    refine ⟨request, ?_, hKind, hShown.trans hPrompt⟩
    rw [hRequests, List.getElem?_append_left hBound, hRequest]

variable {id : RequestId} {request : ConfirmationPrompt Entry}

theorem getElem?_grow {requests : List (ConfirmationPrompt Entry)} (h : requests[id]? = some request)
    (added : ConfirmationPrompt Entry) : (requests ++ [added])[id]? = some request := by
  obtain ⟨hBound, _⟩ := List.getElem?_eq_some_iff.mp h
  rw [List.getElem?_append_left hBound, h]

theorem held_activateNext : prompts.activateNextUploadConflictPrompt.held = prompts.held := by
  unfold activateNextUploadConflictPrompt
  split
  · rfl
  · rfl
  · next hResolver hQueue =>
    rw [held, held, hResolver, hQueue]
    simp

theorem settled_activateNext : prompts.activateNextUploadConflictPrompt.settled = prompts.settled := by
  unfold activateNextUploadConflictPrompt
  split <;> rfl

theorem requests_activateNext : prompts.activateNextUploadConflictPrompt.requests = prompts.requests := by
  unfold activateNextUploadConflictPrompt
  split <;> rfl

theorem consistent_activateNext (ledger : Ledger (List.range prompts.requests.length) prompts.settled prompts.held)
    (host : prompts.Shows .host_fingerprint prompts.pendingPromptResolver)
    (delete : prompts.Shows .delete prompts.pendingDeleteConfirmationResolver)
    (upload : ∀ id, prompts.pendingUploadConflictResolver = some id → prompts.Shows .upload_conflict (some id))
    (queued : ∀ queued ∈ prompts.pendingUploadConflictQueue, prompts.requests[queued.resolve]? = some (.upload_conflict queued.prompt)) :
    Consistent prompts.activateNextUploadConflictPrompt := by
  have hLedger : Ledger (List.range prompts.activateNextUploadConflictPrompt.requests.length)
      prompts.activateNextUploadConflictPrompt.settled prompts.activateNextUploadConflictPrompt.held := by
    rw [requests_activateNext, settled_activateNext, held_activateNext]
    exact ledger
  revert hLedger
  unfold activateNextUploadConflictPrompt
  split
  · next _ id hResolver =>
    intro hLedger
    exact ⟨hLedger, host, delete, hResolver ▸ upload id hResolver, queued, fun hNone => nomatch hResolver.symm.trans hNone⟩
  · next hResolver hQueue =>
    intro hLedger
    refine ⟨hLedger, host, delete, ?_, queued, fun _ => hQueue⟩
    dsimp only
    rw [hResolver]
    rfl
  · next next rest hResolver hQueue =>
    intro hLedger
    have hNext := queued next (hQueue ▸ List.mem_cons_self)
    exact ⟨hLedger, host, delete, ⟨_, hNext, rfl, rfl⟩, fun other hOther => queued other (hQueue ▸ List.mem_cons_of_mem next hOther), nofun⟩

namespace Consistent

variable (h : prompts.Consistent)

include h

theorem requestHostFingerprintTrust (prompt : HostFingerprintPrompt) : (prompts.requestHostFingerprintTrust prompt).Consistent where
  ledger := by
    rw [ConfirmationPrompts.requestHostFingerprintTrust, List.length_append, List.length_singleton, List.range_succ]
    exact h.ledger.replace List.not_mem_range_self (held_host prompts) (held_host (prompts.requestHostFingerprintTrust prompt))
  host := by
    refine ⟨.host_fingerprint prompt, ?_, rfl, rfl⟩
    exact List.getElem?_concat_length
  delete := h.delete.grow rfl rfl
  upload := h.upload.grow rfl rfl
  queued := fun queued hQueued => getElem?_grow (h.queued queued hQueued) _
  active := h.active

theorem requestDeleteConfirmation (entriesToDelete : List Entry) (source : SftpDeleteInvocationSource) :
    (prompts.requestDeleteConfirmation entriesToDelete source).Consistent where
  ledger := by
    rw [ConfirmationPrompts.requestDeleteConfirmation, List.length_append, List.length_singleton, List.range_succ]
    exact h.ledger.replace List.not_mem_range_self (held_delete prompts) (held_delete (prompts.requestDeleteConfirmation entriesToDelete source))
  host := h.host.grow rfl rfl
  delete := by
    refine ⟨.delete ⟨entriesToDelete, source⟩, ?_, rfl, rfl⟩
    exact List.getElem?_concat_length
  upload := h.upload.grow rfl rfl
  queued := fun queued hQueued => getElem?_grow (h.queued queued hQueued) _
  active := h.active

theorem requestUploadConflictConfirmation (prompt : SftpUploadConflictConfirmationPrompt) :
    (prompts.requestUploadConflictConfirmation prompt).Consistent := by
  refine consistent_activateNext ?_ (h.host.grow rfl rfl) (h.delete.grow rfl rfl) ?_ ?_
  · rw [List.length_append, List.length_singleton, List.range_succ]
    have hHeld : Ledger (List.range prompts.requests.length ++ [prompts.requests.length]) prompts.settled
        (prompts.held ++ [prompts.requests.length]) := h.ledger.ask List.not_mem_range_self
    rw [held, List.append_assoc] at hHeld
    rw [held, List.map_append, List.map_singleton]
    exact hHeld
  · intro id hResolver
    have hUpload := h.upload
    rw [hResolver] at hUpload
    exact hUpload.grow rfl rfl
  · intro queued hQueued
    obtain hOld | hNew := List.mem_append.mp hQueued
    · exact getElem?_grow (h.queued queued hOld) _
    · rw [List.mem_singleton.mp hNew]
      exact List.getElem?_concat_length

variable (accepted : Bool)

theorem resolveHostFingerprintPrompt : (prompts.resolveHostFingerprintPrompt accepted).Consistent where
  ledger := by
    exact h.ledger.answer (answered_host prompts accepted) (held_host (prompts.resolveHostFingerprintPrompt accepted))
  host := rfl
  delete := h.delete
  upload := h.upload
  queued := h.queued
  active := h.active

theorem resolveDeleteConfirmationPrompt : (prompts.resolveDeleteConfirmationPrompt accepted).Consistent where
  ledger := by
    exact h.ledger.answer (answered_delete prompts accepted) (held_delete (prompts.resolveDeleteConfirmationPrompt accepted))
  host := h.host
  delete := rfl
  upload := h.upload
  queued := h.queued
  active := h.active

theorem resolveUploadConflictConfirmationPrompt : (prompts.resolveUploadConflictConfirmationPrompt accepted).Consistent := by
  refine consistent_activateNext ?_ h.host h.delete nofun h.queued
  exact h.ledger.answer (answered_upload prompts accepted) (held_upload { prompts with pendingUploadConflictResolver := none })

theorem cancelUploadConflictConfirmationPrompt : prompts.cancelUploadConflictConfirmationPrompt.Consistent where
  ledger := by
    rw [ConfirmationPrompts.cancelUploadConflictConfirmationPrompt, List.append_assoc]
    exact h.ledger.answer (answered_cancelled prompts) (held_upload prompts.cancelUploadConflictConfirmationPrompt)
  host := h.host
  delete := h.delete
  upload := rfl
  queued := fun _ hQueued => absurd hQueued List.not_mem_nil
  active := fun _ => rfl

end Consistent

theorem Consistent.step (h : prompts.Consistent) (event : ConfirmationEvent Entry) : (prompts.step event).Consistent := by
  cases event with
  | request_host prompt => exact h.requestHostFingerprintTrust prompt
  | request_delete entriesToDelete source => exact h.requestDeleteConfirmation entriesToDelete source
  | request_upload prompt => exact h.requestUploadConflictConfirmation prompt
  | resolve kind accepted =>
    cases kind with
    | host_fingerprint => exact h.resolveHostFingerprintPrompt accepted
    | delete => exact h.resolveDeleteConfirmationPrompt accepted
    | upload_conflict => exact h.resolveUploadConflictConfirmationPrompt accepted
  | cancel_upload => exact h.cancelUploadConflictConfirmationPrompt

theorem consistent_run (events : List (ConfirmationEvent Entry)) : ((confirmationPrompts Entry).run (noPrompts Entry) events).Consistent := by
  refine Machine.Reachable.invariant (P := Consistent) ?_ (fun _ event _ h => h.step event) (Machine.Reachable.run (.start rfl) events)
  rintro prompts rfl
  exact {
    ledger := Ledger.nil
    host := rfl
    delete := rfl
    upload := rfl
    queued := fun _ hQueued => absurd hQueued List.not_mem_nil
    active := fun _ => rfl }

def Kept (prompts : ConfirmationPrompts Entry) : Prop := Complete (List.range prompts.requests.length) prompts.settled prompts.held

theorem Kept.step (h : prompts.Kept) {event : ConfirmationEvent Entry} (hAlone : prompts.oneAtATime event = true) :
    (prompts.step event).Kept := by
  cases event with
  | request_host prompt =>
    have hFree : prompts.pendingPromptResolver = none := Option.isNone_iff_eq_none.mp hAlone
    have hOld := held_host prompts
    rw [hFree, Option.toList_none, List.nil_append] at hOld
    show Complete (List.range (prompts.requests ++ [_]).length) _ _
    rw [List.length_append, List.length_singleton, List.range_succ]
    exact Complete.ask h ((held_host (prompts.requestHostFingerprintTrust prompt)).trans (hOld.symm.cons _))
  | request_delete entriesToDelete source =>
    have hFree : prompts.pendingDeleteConfirmationResolver = none := Option.isNone_iff_eq_none.mp hAlone
    have hOld := held_delete prompts
    rw [hFree, Option.toList_none, List.nil_append] at hOld
    show Complete (List.range (prompts.requests ++ [_]).length) _ _
    rw [List.length_append, List.length_singleton, List.range_succ]
    exact Complete.ask h ((held_delete (prompts.requestDeleteConfirmation entriesToDelete source)).trans (hOld.symm.cons _))
  | request_upload prompt =>
    rw [ConfirmationPrompts.step, ConfirmationPrompts.requestUploadConflictConfirmation, Kept, requests_activateNext, settled_activateNext, held_activateNext,
      List.length_append, List.length_singleton, List.range_succ]
    refine Complete.ask h ?_
    rw [held, List.map_append, List.map_singleton, ← List.append_assoc]
    exact List.perm_append_singleton _ _
  | resolve kind accepted =>
    cases kind with
    | host_fingerprint =>
      exact Complete.answer h (answered_host prompts accepted) (held_host (prompts.resolveHostFingerprintPrompt accepted))
    | delete =>
      exact Complete.answer h (answered_delete prompts accepted) (held_delete (prompts.resolveDeleteConfirmationPrompt accepted))
    | upload_conflict =>
      rw [ConfirmationPrompts.step, ConfirmationPrompts.resolveUploadConflictConfirmationPrompt, Kept, requests_activateNext, settled_activateNext,
        held_activateNext]
      exact Complete.answer h (answered_upload prompts accepted) (held_upload { prompts with pendingUploadConflictResolver := none })
  | cancel_upload =>
    rw [ConfirmationPrompts.step, Kept, cancelUploadConflictConfirmationPrompt, List.append_assoc]
    exact Complete.answer h (answered_cancelled prompts) (held_upload prompts.cancelUploadConflictConfirmationPrompt)

theorem Shows.of_held {kind : ConfirmationKind} (h : prompts.Shows kind (some id))
    (hRequest : prompts.requests[id]? = some request) : request.kind = kind ∧ prompts.shown request.kind = some request := by
  obtain ⟨other, hOther, hKind, hShown⟩ := h
  obtain rfl : other = request := Option.some.inj (hOther.symm.trans hRequest)
  exact ⟨hKind, hKind ▸ hShown⟩

theorem Consistent.shown_of_held (h : prompts.Consistent) (hHeld : id ∈ prompts.held)
    (hRequest : prompts.requests[id]? = some request) : prompts.shown request.kind ≠ none := by
  intro hNone
  have hSlot (kind : ConfirmationKind) (resolver : Option RequestId) (hShows : prompts.Shows kind resolver)
      (hMem : id ∈ resolver.toList) : False := by
    rw [Option.mem_toList] at hMem
    rw [Option.mem_def.mp hMem] at hShows
    exact Option.some_ne_none _ ((hShows.of_held hRequest).2.symm.trans hNone)
  obtain hSlots | hQueue := List.mem_append.mp hHeld
  · obtain hFirst | hUpload := List.mem_append.mp hSlots
    · obtain hHost | hDelete := List.mem_append.mp hFirst
      · exact hSlot _ _ h.host hHost
      · exact hSlot _ _ h.delete hDelete
    · exact hSlot _ _ h.upload hUpload
  · obtain ⟨queued, hMem, rfl⟩ := List.mem_map.mp hQueue
    obtain rfl : _ = request := Option.some.inj ((h.queued queued hMem).symm.trans hRequest)
    have hUpload := h.upload
    cases hResolver : prompts.pendingUploadConflictResolver with
    | none =>
      rw [h.active hResolver] at hMem
      exact List.not_mem_nil hMem
    | some active =>
      rw [hResolver] at hUpload
      obtain ⟨_, _, _, hShown⟩ := hUpload
      exact Option.some_ne_none _ (hShown.symm.trans hNone)

theorem Consistent.settles_iff (h : prompts.Consistent) : prompts.Settles ↔ prompts.Kept := by
  constructor
  · intro hSettles id hId
    obtain hSettled | hOpen := em (id ∈ prompts.settled.map Prod.fst)
    · exact List.mem_append_left _ hSettled
    · exact List.mem_append_right _ (hSettles.kept id (List.mem_range.mp hId) hOpen)
  · intro hKept
    refine ⟨h.ledger.once, fun id hId => List.mem_range.mp (h.ledger.asked (List.mem_append_left _ hId)), ?_, ?_⟩
    · intro id hId hOpen
      exact (List.mem_append.mp (hKept (List.mem_range.mpr hId))).resolve_left hOpen
    · intro id request hRequest hNone
      obtain ⟨hBound, _⟩ := List.getElem?_eq_some_iff.mp hRequest
      exact Complete.answered_of_not_held hKept (List.mem_range.mpr hBound) fun hHeld => h.shown_of_held hHeld hRequest hNone

theorem mem_callResolver {resolver : Option RequestId} {accepted : Bool} (h : (id, true) ∈ callResolver resolver accepted) :
    resolver = some id ∧ accepted = true := by
  obtain ⟨held, hHeld, hSame⟩ := List.mem_map.mp h
  obtain ⟨rfl, rfl⟩ := Prod.mk.inj hSame
  exact ⟨Option.mem_toList.mp hHeld, rfl⟩

theorem Consistent.acceptsShown (h : prompts.Consistent) (event : ConfirmationEvent Entry) : prompts.AcceptsShown event := by
  intro id hSettled
  have hSlot (kind : ConfirmationKind) (resolver : Option RequestId) (hShows : prompts.Shows kind resolver) (accepted : Bool)
      (hNew : (id, true) ∈ prompts.settled ++ callResolver resolver accepted) : (id, true) ∈ prompts.settled ∨
      ∃ request, prompts.requests[id]? = some request ∧ prompts.shown request.kind = some request ∧
        (.resolve kind accepted : ConfirmationEvent Entry) = .resolve request.kind true := by
    obtain hOld | hCalled := List.mem_append.mp hNew
    · exact .inl hOld
    · obtain ⟨rfl, rfl⟩ := mem_callResolver hCalled
      obtain ⟨request, hRequest, rfl, hShown⟩ := hShows
      exact .inr ⟨request, hRequest, hShown, rfl⟩
  cases event with
  | request_host | request_delete => exact .inl hSettled
  | request_upload prompt =>
    rw [ConfirmationPrompts.step, ConfirmationPrompts.requestUploadConflictConfirmation, settled_activateNext] at hSettled
    exact .inl hSettled
  | resolve kind accepted =>
    cases kind with
    | host_fingerprint => exact hSlot _ _ h.host accepted hSettled
    | delete => exact hSlot _ _ h.delete accepted hSettled
    | upload_conflict =>
      rw [ConfirmationPrompts.step, ConfirmationPrompts.resolveUploadConflictConfirmationPrompt, settled_activateNext] at hSettled
      exact hSlot _ _ h.upload accepted hSettled
  | cancel_upload =>
    rw [ConfirmationPrompts.step, ConfirmationPrompts.cancelUploadConflictConfirmationPrompt, List.append_assoc] at hSettled
    obtain hOld | hCancelled := List.mem_append.mp hSettled
    · exact .inl hOld
    · obtain hCalled | hQueued := List.mem_append.mp hCancelled
      · exact absurd (mem_callResolver hCalled).2 Bool.noConfusion
      · obtain ⟨_, _, hSame⟩ := List.mem_map.mp hQueued
        exact absurd (Prod.mk.inj hSame).2 Bool.noConfusion

theorem Consistent.kept_step_iff (h : prompts.Consistent) (hKept : prompts.Kept) (event : ConfirmationEvent Entry) :
    (prompts.step event).Kept ↔ prompts.oneAtATime event = true := by
  refine ⟨?_, hKept.step⟩
  intro hNext
  have hDropped {next : ConfirmationPrompts Entry} {id : RequestId} {added : ConfirmationPrompt Entry} {others : List RequestId}
      (hRequests : next.requests = prompts.requests ++ [added]) (hSettled : next.settled = prompts.settled)
      (hOld : prompts.held.Perm (id :: others)) (hNew : next.held.Perm (prompts.requests.length :: others)) : ¬ next.Kept := by
    intro hKeptNext
    obtain ⟨hAsked, hOpen, hFree⟩ := h.ledger.dropped List.not_mem_range_self hOld hNew
    rw [Kept, hRequests, hSettled, List.length_append, List.length_singleton, List.range_succ] at hKeptNext
    exact hOpen (hKeptNext.answered_of_not_held (List.mem_append_left _ hAsked) hFree)
  cases event with
  | request_host prompt =>
    cases hResolver : prompts.pendingPromptResolver with
    | none => exact Option.isNone_iff_eq_none.mpr hResolver
    | some id =>
      have hOld := held_host prompts
      rw [hResolver] at hOld
      exact absurd hNext (hDropped rfl rfl hOld (held_host (prompts.requestHostFingerprintTrust prompt)))
  | request_delete entriesToDelete source =>
    cases hResolver : prompts.pendingDeleteConfirmationResolver with
    | none => exact Option.isNone_iff_eq_none.mpr hResolver
    | some id =>
      have hOld := held_delete prompts
      rw [hResolver] at hOld
      exact absurd hNext (hDropped rfl rfl hOld (held_delete (prompts.requestDeleteConfirmation entriesToDelete source)))
  | request_upload | resolve | cancel_upload => rfl

/-- The promises of a run are kept throughout exactly when it never asks for a host fingerprint or a deletion beside one of
the same kind that waits. What is accepted was always shown. -/
theorem confirmations_settle_iff (events : List (ConfirmationEvent Entry)) : (∀ taken rest, events = taken ++ rest →
      ((confirmationPrompts Entry).run (noPrompts Entry) taken).Settles ∧
      ∀ event, ((confirmationPrompts Entry).run (noPrompts Entry) taken).AcceptsShown event) ↔
    (confirmationPrompts Entry).meets oneAtATime (noPrompts Entry) events = true := by
  have hConsistent {prompts : ConfirmationPrompts Entry} (hReachable : (confirmationPrompts Entry).Reachable prompts) :
      prompts.Consistent := by
    obtain ⟨start, taken, rfl, rfl⟩ := hReachable.exists_run
    exact consistent_run taken
  have hStep : ∀ prompts event, (confirmationPrompts Entry).Reachable prompts → prompts.Settles →
      (((confirmationPrompts Entry).step prompts event).Settles ↔ prompts.oneAtATime event = true) := by
    intro prompts event hReachable hSettles
    have h := hConsistent hReachable
    exact (h.step event).settles_iff.trans (h.kept_step_iff (h.settles_iff.mp hSettles) event)
  have hStart : (noPrompts Entry).Settles := (hConsistent (.start rfl)).settles_iff.mpr Complete.nil
  rw [← (Machine.Reachable.start rfl).always_iff_meets hStep hStart]
  constructor
  · intro h taken rest hSplit
    exact (h taken rest hSplit).1
  · intro h taken rest hSplit
    exact ⟨h taken rest hSplit, (consistent_run taken).acceptsShown⟩

theorem second_deletion_drops_the_first : ∃ prompts, prompts = (confirmationPrompts String).run (noPrompts String)
        [.request_delete ["a"] .shortcut, .request_delete ["b"] .shortcut, .resolve .delete true] ∧
      prompts.shown .delete = none ∧ prompts.settled = [(1, true)] ∧ ¬ prompts.Settles := by
  refine ⟨_, rfl, rfl, rfl, ?_⟩
  intro hSettles
  exact absurd (hSettles.none_left 0 (.delete ⟨["a"], .shortcut⟩) rfl rfl) (by decide)

end ConfirmationPrompts

end SftpPage
