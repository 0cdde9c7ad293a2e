import Cosmosh.MainProcess.CloseGuard
import Cosmosh.MainProcess.ConfirmationEnds

/-! # One decision, one confirmation

What holds of the guard and the broker at every point of a run, and when a confirmation leaves a
subscription behind.
-/

namespace MainProcess

open Library.Transition

namespace ConnectionCloseGuard

open RendererCloseConfirmationBroker

def Justified (decision : CloseDecision) (settled : List Settlement) : Prop :=
  (∃ summary, decision.summary = some summary ∧ summary.totalCount = 0) ∨ decision.confirmationEnabled = false ∨
    ∃ settlement ∈ settled, decision.confirmation = some settlement.confirmation ∧ settlement.confirmed = true

/-- What is promised of the guard and the broker. -/
structure Decides (guard : ConnectionCloseGuard) : Prop where
  oneDecision : guard.decisions.length ≤ 1
  pending : guard.pendingRequest = guard.decisions.head?.map (·.id)
  oneConfirmation : ∀ confirmation < guard.broker.created, confirmation ∉ guard.broker.settled.map (·.confirmation) →
    guard.broker.pendingConfirmation.map (·.promise) = some confirmation ∧ confirmation ∈ guard.broker.timers
  settledOnce : (guard.broker.settled.map (·.confirmation)).Nodup
  approvedOnce : (guard.approvals.map (·.id)).Nodup
  justified : ∀ decision ∈ guard.approvals, Justified decision guard.broker.settled
  sound : ∀ settlement ∈ guard.broker.settled, Sound guard.broker.requested settlement
  clean : ∀ settlement ∈ guard.broker.settled,
    settlement.confirmation ∉ guard.broker.timers ∧ settlement.confirmation ∉ guard.broker.subscriptions
  stray : ∀ senderWebContentsId requestId confirmed,
    (∀ pending ∈ guard.broker.pendingConfirmation, ¬ (senderWebContentsId = pending.ownerWebContentsId ∧ requestId = pending.requestId)) →
      guard.step (.response senderWebContentsId requestId confirmed) = guard

def subscribesFirst (guard : ConnectionCloseGuard) : CloseEvent → Bool
  | .preferred decision enabled target _ =>
    !(guard.waitsAt decision .readCloseConfirmationEnabled && decide (enabled ≠ some false) && guard.broker.firesInSubscribe target)
  | _ => true

def RequestStage.isOpen (stage : RequestStage) : Bool := decide (stage ≠ .onApproved) && decide (stage ≠ .ended)

structure Consistent (guard : ConnectionCloseGuard) : Prop where
  broker : guard.broker.Consistent
  running : (guard.pendingRequest = none ∧ guard.decisions = []) ∨
    ∃ decision, guard.pendingRequest = some decision.id ∧ guard.decisions = [decision]
  bounded : ∀ id ∈ guard.decisions.map (·.id) ++ guard.approvals.map (·.id), id < guard.nextDecision
  approvedOnce : (guard.approvals.map (·.id)).Nodup
  undecided : ∀ decision ∈ guard.decisions, RequestStage.isOpen decision.stage = true → decision.id ∉ guard.approvals.map (·.id)
  disconnecting : ∀ decision ∈ guard.decisions, decision.stage = .closeActiveConnections → Justified decision guard.broker.settled
  justified : ∀ decision ∈ guard.approvals, Justified decision guard.broker.settled

variable {guard : ConnectionCloseGuard}

variable {decision : CloseDecision}

theorem Justified.grow {settled next : List Settlement} (h : Justified decision settled) (hGrows : settled ⊆ next) :
    Justified decision next := by
  obtain hNone | hDisabled | ⟨settlement, hMem, hGiven⟩ := h
  · exact .inl hNone
  · exact .inr (.inl hDisabled)
  · exact .inr (.inr ⟨settlement, hGrows hMem, hGiven⟩)

namespace Consistent

variable (h : guard.Consistent)

include h

theorem report (stage : ConnectionCloseGuardErrorStage) : (guard.report stage).Consistent :=
  ⟨h.broker, h.running, h.bounded, h.approvedOnce, h.undecided, h.disconnecting, h.justified⟩

theorem withBroker {broker : RendererCloseConfirmationBroker} (hBroker : broker.Consistent) (hGrows : guard.broker.settled ⊆ broker.settled) :
    Consistent { guard with broker := broker } where
  broker := hBroker
  running := h.running
  bounded := h.bounded
  approvedOnce := h.approvedOnce
  undecided := h.undecided
  disconnecting := fun decision hMem hStage => (h.disconnecting decision hMem hStage).grow hGrows
  justified := fun decision hMem => (h.justified decision hMem).grow hGrows

theorem only (hMem : decision ∈ guard.decisions) : guard.pendingRequest = some decision.id ∧ guard.decisions = [decision] := by
  obtain ⟨_, hEmpty⟩ | ⟨other, hPending, hOnly⟩ := h.running
  · exact absurd (hEmpty ▸ hMem) List.not_mem_nil
  · obtain rfl : decision = other := List.mem_singleton.mp (hOnly ▸ hMem)
    exact ⟨hPending, hOnly⟩

theorem goOn {next : CloseDecision} (hMem : decision ∈ guard.decisions) (hId : next.id = decision.id)
    (hOpen : RequestStage.isOpen next.stage = true → next.id ∉ guard.approvals.map (·.id))
    (hDisconnecting : next.stage = .closeActiveConnections → Justified next guard.broker.settled) : (guard.goOn next).Consistent := by
  obtain ⟨hPending, hOnly⟩ := h.only hMem
  have hNext : (guard.goOn next).decisions = [next] := by
    rw [ConnectionCloseGuard.goOn, hOnly, List.map_singleton, if_pos hId.symm]
  refine ⟨h.broker, .inr ⟨next, hId ▸ hPending, hNext⟩, ?_, h.approvedOnce, ?_, ?_, h.justified⟩
  · have hBounded := h.bounded
    rw [hOnly] at hBounded
    rw [hNext, List.map_singleton, hId]
    exact hBounded
  · intro other hOther
    rw [hNext, List.mem_singleton] at hOther
    exact hOther ▸ hOpen
  · intro other hOther
    rw [hNext, List.mem_singleton] at hOther
    exact hOther ▸ hDisconnecting

theorem approve {next : CloseDecision} (hMem : decision ∈ guard.decisions) (hId : next.id = decision.id)
    (hOpen : RequestStage.isOpen decision.stage = true) (hJustified : Justified next guard.broker.settled) :
    (guard.approve next).Consistent := by
  obtain ⟨hPending, hOnly⟩ := h.only hMem
  have hNew : next.id ∉ guard.approvals.map (·.id) := hId ▸ h.undecided decision hMem hOpen
  have hBound : next.id < guard.nextDecision := hId ▸ h.bounded _ (List.mem_append_left _ (List.mem_map_of_mem hMem))
  have hNext : (guard.approve next).decisions = [{ next with stage := .onApproved }] := by
    rw [ConnectionCloseGuard.approve, ConnectionCloseGuard.goOn, hOnly, List.map_singleton, if_pos hId.symm]
  have hApprovals : (guard.approvals ++ [next]).map (·.id) = guard.approvals.map (·.id) ++ [next.id] := List.map_append
  refine ⟨h.broker, .inr ⟨_, hId ▸ hPending, hNext⟩, ?_, ?_, ?_, ?_, ?_⟩
  · intro id hIn
    rw [hNext, List.map_singleton] at hIn
    obtain hOld | hApproved := List.mem_append.mp hIn
    · exact List.mem_singleton.mp hOld ▸ hBound
    · obtain hOld | hLast := List.mem_append.mp (hApprovals ▸ hApproved)
      · exact h.bounded id (List.mem_append_right _ hOld)
      · exact List.mem_singleton.mp hLast ▸ hBound
  · show ((guard.approvals ++ [next]).map (·.id)).Nodup
    rw [hApprovals]
    refine List.nodup_append.mpr ⟨h.approvedOnce, List.nodup_singleton _, ?_⟩
    intro id hOld last hLast hSame
    exact hNew (List.mem_singleton.mp hLast ▸ hSame ▸ hOld)
  · intro other hOther hStage
    rw [hNext, List.mem_singleton] at hOther
    exact absurd (hOther ▸ hStage) Bool.noConfusion
  · intro other hOther hStage
    rw [hNext, List.mem_singleton] at hOther
    exact nomatch hOther ▸ hStage
  · intro other hOther
    obtain hOld | hLast := List.mem_append.mp hOther
    · exact h.justified other hOld
    · exact List.mem_singleton.mp hLast ▸ hJustified

end Consistent

theorem mem_of_waitsAt {stage : RequestStage} (h : guard.waitsAt decision stage = true) :
    decision ∈ guard.decisions ∧ decision.stage = stage := by
  rw [waitsAt, Bool.and_eq_true, decide_eq_true_iff, decide_eq_true_iff] at h
  exact h

namespace Consistent

variable (h : guard.Consistent)

include h

theorem requestClose (intent : ConnectionCloseIntent) : (guard.requestClose intent).Consistent := by
  unfold ConnectionCloseGuard.requestClose
  split
  · exact h
  · next hNone =>
    have hEmpty : guard.decisions = [] := by
      obtain ⟨_, hEmpty⟩ | ⟨decision, hPending, _⟩ := h.running
      · exact hEmpty
      · exact nomatch hPending.symm.trans hNone
    have hNext : guard.decisions ++ [⟨guard.nextDecision, intent, .readActiveConnections, none, true, none⟩] =
        [⟨guard.nextDecision, intent, .readActiveConnections, none, true, none⟩] := by rw [hEmpty, List.nil_append]
    have hOlder (id : DecisionId) (hIn : id ∈ guard.approvals.map (·.id)) : id < guard.nextDecision :=
      h.bounded id (List.mem_append_right _ hIn)
    rw [hNext]
    refine ⟨h.broker, .inr ⟨_, rfl, rfl⟩, ?_, h.approvedOnce, ?_, ?_, h.justified⟩
    · intro id hIn
      obtain rfl | hOld := List.mem_cons.mp hIn
      · exact Nat.lt_succ_self _
      · exact Nat.lt_succ_of_lt (hOlder id hOld)
    · intro decision hMem _ hIn
      rw [List.mem_singleton.mp hMem] at hIn
      exact Nat.lt_irrefl _ (hOlder _ hIn)
    · intro decision hMem hStage
      rw [List.mem_singleton.mp hMem] at hStage
      exact nomatch hStage

theorem afterActiveConnections (hWaits : guard.waitsAt decision .readActiveConnections = true)
    (summary : Option ActiveConnectionSummary) : (guard.afterActiveConnections decision summary).Consistent := by
  obtain ⟨hMem, hStage⟩ := mem_of_waitsAt hWaits
  have hOpen : RequestStage.isOpen decision.stage = true := hStage ▸ rfl
  have hUndecided := h.undecided decision hMem hOpen
  unfold ConnectionCloseGuard.afterActiveConnections
  split
  · next summary =>
    split
    · next hZero => exact h.approve hMem rfl hOpen (.inl ⟨summary, rfl, hZero⟩)
    · exact h.goOn hMem rfl (fun _ => hUndecided) nofun
  · exact (h.report .probe).goOn hMem rfl (fun _ => hUndecided) nofun

theorem askConfirmation (hMem : decision ∈ guard.decisions) (hOpen : RequestStage.isOpen decision.stage = true)
    (target : Option RendererCloseConfirmationTarget) (requestId : String) : (guard.askConfirmation decision target requestId).Consistent := by
  have hUndecided := h.undecided decision hMem hOpen
  obtain ⟨hBroker, hGrows, _⟩ := h.broker.requestConfirmation target requestId
  unfold ConnectionCloseGuard.askConfirmation
  split
  · next broker confirmation hAsked =>
    rw [hAsked] at hBroker hGrows
    exact (h.withBroker hBroker hGrows).goOn hMem rfl (fun _ => hUndecided) nofun
  · next broker hAsked =>
    rw [hAsked] at hBroker hGrows
    exact ((h.withBroker hBroker hGrows).report .confirmation).goOn hMem rfl nofun nofun

theorem afterPreference (hWaits : guard.waitsAt decision .readCloseConfirmationEnabled = true)
    (target : Option RendererCloseConfirmationTarget) (requestId : String) (enabled : Option Bool) :
    (guard.afterPreference decision target requestId enabled).Consistent := by
  obtain ⟨hMem, hStage⟩ := mem_of_waitsAt hWaits
  have hOpen : RequestStage.isOpen decision.stage = true := hStage ▸ rfl
  unfold ConnectionCloseGuard.afterPreference
  split
  · exact h.goOn hMem rfl (fun _ => h.undecided decision hMem hOpen) fun _ => .inr (.inl rfl)
  · exact h.askConfirmation hMem hOpen target requestId
  · exact (h.report .preference).askConfirmation hMem hOpen target requestId

theorem afterConfirmation (hWaits : guard.waitsAt decision .confirmClose = true) {settlement : Settlement}
    (hSettled : settlement ∈ guard.broker.settled) (hOwn : decision.confirmation = some settlement.confirmation) :
    (guard.afterConfirmation decision settlement.confirmed).Consistent := by
  obtain ⟨hMem, hStage⟩ := mem_of_waitsAt hWaits
  have hOpen : RequestStage.isOpen decision.stage = true := hStage ▸ rfl
  unfold ConnectionCloseGuard.afterConfirmation
  split
  · next hConfirmed =>
    exact h.goOn hMem rfl (fun _ => h.undecided decision hMem hOpen) fun _ => .inr (.inr ⟨settlement, hSettled, hOwn, hConfirmed⟩)
  · exact h.goOn hMem rfl nofun nofun

theorem afterDisconnect (hWaits : guard.waitsAt decision .closeActiveConnections = true) (disconnected : Bool) :
    (guard.afterDisconnect decision disconnected).Consistent := by
  obtain ⟨hMem, hStage⟩ := mem_of_waitsAt hWaits
  have hOpen : RequestStage.isOpen decision.stage = true := hStage ▸ rfl
  have hJustified := h.disconnecting decision hMem hStage
  unfold ConnectionCloseGuard.afterDisconnect
  split
  · exact h.approve hMem rfl hOpen hJustified
  · exact (h.report .disconnect).approve hMem rfl hOpen hJustified

theorem clearPendingRequest (hMem : decision ∈ guard.decisions) : (guard.clearPendingRequest decision).Consistent := by
  obtain ⟨hPending, hOnly⟩ := h.only hMem
  have hEmpty : (guard.clearPendingRequest decision).decisions = [] := by
    rw [ConnectionCloseGuard.clearPendingRequest, hOnly]
    refine List.filter_eq_nil_iff.mpr ?_
    intro other hOther hKept
    exact of_decide_eq_true hKept (congrArg CloseDecision.id (List.mem_singleton.mp hOther))
  refine ⟨h.broker, .inl ⟨if_pos hPending, hEmpty⟩, ?_, h.approvedOnce, ?_, ?_, h.justified⟩
  · intro id hIn
    rw [hEmpty] at hIn
    exact h.bounded id (List.mem_append_right _ hIn)
  · intro other hOther
    exact absurd (hEmpty ▸ hOther) List.not_mem_nil
  · intro other hOther
    exact absurd (hEmpty ▸ hOther) List.not_mem_nil

end Consistent

theorem Consistent.step (h : guard.Consistent) (event : CloseEvent) : (guard.step event).Consistent := by
  cases event with
  | requestClose intent => exact h.requestClose intent
  | probed decision summary =>
    unfold ConnectionCloseGuard.step
    dsimp only
    split
    · next hWaits => exact h.afterActiveConnections hWaits summary
    · exact h
  | preferred decision enabled target requestId =>
    unfold ConnectionCloseGuard.step
    dsimp only
    split
    · next hWaits => exact h.afterPreference hWaits target requestId enabled
    · exact h
  | confirmed decision settlement =>
    unfold ConnectionCloseGuard.step
    dsimp only
    split
    · next hGiven =>
      rw [Bool.and_eq_true, Bool.and_eq_true, decide_eq_true_iff, decide_eq_true_iff] at hGiven
      obtain ⟨⟨hWaits, hSettled⟩, hOwn⟩ := hGiven
      exact h.afterConfirmation hWaits hSettled hOwn
    · exact h
  | disconnected decision succeeded =>
    unfold ConnectionCloseGuard.step
    dsimp only
    split
    · next hWaits => exact h.afterDisconnect hWaits succeeded
    · exact h
  | approved decision =>
    unfold ConnectionCloseGuard.step
    dsimp only
    split
    · next hWaits => exact h.goOn (mem_of_waitsAt hWaits).1 rfl nofun nofun
    · exact h
  | cleared decision =>
    unfold ConnectionCloseGuard.step
    dsimp only
    split
    · next hWaits => exact h.clearPendingRequest (mem_of_waitsAt hWaits).1
    · exact h
  | response senderWebContentsId requestId confirmed =>
    have hKeeps := Keeps.resolveConfirmation guard.broker senderWebContentsId requestId confirmed
    exact h.withBroker (hKeeps.consistent h.broker) hKeeps.settled
  | destroyed promise =>
    have hKeeps := Keeps.onDestroyed guard.broker promise
    exact h.withBroker (hKeeps.consistent h.broker) hKeeps.settled
  | timedOut promise =>
    have hKeeps := h.broker.onTimeout promise
    exact h.withBroker (hKeeps.consistent h.broker) hKeeps.settled

theorem consistent_of_reachable (h : closeGuard.Reachable guard) : guard.Consistent := by
  refine h.invariant ?_ fun guard event _ hGuard => hGuard.step event
  rintro guard rfl
  exact {
    broker := consistent_newBroker
    running := .inl ⟨rfl, rfl⟩
    bounded := fun _ hMem => absurd hMem List.not_mem_nil
    approvedOnce := List.nodup_nil
    undecided := fun _ hMem => absurd hMem List.not_mem_nil
    disconnecting := fun _ hMem => absurd hMem List.not_mem_nil
    justified := fun _ hMem => absurd hMem List.not_mem_nil }

theorem broker_askConfirmation (decision : CloseDecision) (target : Option RendererCloseConfirmationTarget) (requestId : String) :
    (guard.askConfirmation decision target requestId).broker = (guard.broker.requestConfirmation target requestId).1 := by
  unfold askConfirmation
  split
  · next hAsked => rw [hAsked]; rfl
  · next hAsked => rw [hAsked]; rfl

theorem Consistent.clean_step_iff (h : guard.Consistent) (hClean : guard.broker.Clean) (event : CloseEvent) :
    (guard.step event).broker.Clean ↔ guard.subscribesFirst event = true := by
  cases event with
  | preferred decision enabled target requestId =>
    obtain ⟨_, _, hAsked⟩ := h.broker.requestConfirmation target requestId
    unfold ConnectionCloseGuard.step subscribesFirst
    dsimp only
    split
    · next hWaits =>
      rw [hWaits, Bool.true_and]
      unfold ConnectionCloseGuard.afterPreference
      split
      · exact iff_of_true hClean rfl
      · rw [broker_askConfirmation, hAsked hClean, Bool.not_eq_true']
        rfl
      · rw [broker_askConfirmation, Bool.not_eq_true']
        exact hAsked hClean
    · next hOther =>
      rw [Bool.eq_false_iff.mpr hOther]
      exact iff_of_true hClean rfl
  | requestClose intent =>
    refine iff_of_true ?_ rfl
    show (guard.requestClose intent).broker.Clean
    unfold ConnectionCloseGuard.requestClose
    split <;> exact hClean
  | probed decision summary =>
    refine iff_of_true ?_ rfl
    unfold ConnectionCloseGuard.step
    dsimp only
    split
    · unfold ConnectionCloseGuard.afterActiveConnections
      split
      · split <;> exact hClean
      · exact hClean
    · exact hClean
  | confirmed decision settlement =>
    refine iff_of_true ?_ rfl
    unfold ConnectionCloseGuard.step
    dsimp only
    split
    · unfold ConnectionCloseGuard.afterConfirmation
      split <;> exact hClean
    · exact hClean
  | disconnected decision succeeded =>
    refine iff_of_true ?_ rfl
    unfold ConnectionCloseGuard.step
    dsimp only
    split
    · unfold ConnectionCloseGuard.afterDisconnect
      split <;> exact hClean
    · exact hClean
  | approved decision =>
    refine iff_of_true ?_ rfl
    unfold ConnectionCloseGuard.step
    dsimp only
    split <;> exact hClean
  | cleared decision =>
    refine iff_of_true ?_ rfl
    unfold ConnectionCloseGuard.step
    dsimp only
    split <;> exact hClean
  | response senderWebContentsId requestId confirmed =>
    exact iff_of_true ((Keeps.resolveConfirmation guard.broker senderWebContentsId requestId confirmed).clean h.broker hClean) rfl
  | destroyed promise => exact iff_of_true ((Keeps.onDestroyed guard.broker promise).clean h.broker hClean) rfl
  | timedOut promise => exact iff_of_true ((h.broker.onTimeout promise).clean h.broker hClean) rfl

theorem step_response_of_stray {senderWebContentsId : Nat} {requestId : String} (confirmed : Bool)
    (hStray : ∀ pending ∈ guard.broker.pendingConfirmation,
      ¬ (senderWebContentsId = pending.ownerWebContentsId ∧ requestId = pending.requestId)) :
    guard.step (.response senderWebContentsId requestId confirmed) = guard := by
  have hSame : (guard.broker.resolveConfirmation senderWebContentsId requestId confirmed).1 = guard.broker := by
    unfold resolveConfirmation
    split
    · rfl
    · next pending hPending => rw [if_neg (hStray pending hPending)]
  unfold step
  dsimp only
  rw [hSame]

theorem Consistent.decides_iff (h : guard.Consistent) : guard.Decides ↔ guard.broker.Clean := by
  have hIds : guard.broker.answers.map Prod.fst = guard.broker.settled.map (·.confirmation) := List.map_map ..
  constructor
  · intro hDecides promise hMem
    have hBound := h.broker.bounded promise hMem
    obtain hSettled | hOpen := em (promise ∈ guard.broker.settled.map (·.confirmation))
    · obtain ⟨settlement, hSettlement, rfl⟩ := List.mem_map.mp hSettled
      exact absurd hMem (hDecides.clean settlement hSettlement).2
    · obtain ⟨pending, hPending, hSame⟩ := Option.map_eq_some_iff.mp (hDecides.oneConfirmation promise hBound hOpen).1
      rw [underWay_of_pending hPending]
      exact List.mem_singleton.mpr hSame.symm
  · intro hClean
    have hEnded (settlement : Settlement) (hSettlement : settlement ∈ guard.broker.settled) :
        settlement.confirmation ∉ guard.broker.underWay := by
      intro hOpen
      refine h.broker.ledger.not_answered hOpen ?_
      rw [hIds]
      exact List.mem_map_of_mem hSettlement
    refine {
      oneDecision := ?_
      pending := ?_
      oneConfirmation := ?_
      settledOnce := hIds ▸ h.broker.ledger.once
      approvedOnce := h.approvedOnce
      justified := h.justified
      sound := h.broker.sound
      clean := ?_
      stray := fun _ _ confirmed => step_response_of_stray confirmed }
    · obtain ⟨_, hEmpty⟩ | ⟨decision, _, hOnly⟩ := h.running
      · rw [hEmpty]
        exact Nat.zero_le 1
      · exact Nat.le_of_eq (congrArg List.length hOnly)
    · obtain ⟨hNone, hEmpty⟩ | ⟨decision, hPending, hOnly⟩ := h.running
      · rw [hNone, hEmpty]
        rfl
      · rw [hPending, hOnly]
        rfl
    · intro confirmation hBound hOpen
      have hUnderWay : confirmation ∈ guard.broker.underWay :=
        (List.mem_append.mp (h.broker.complete (List.mem_range.mpr hBound))).resolve_left (hIds ▸ hOpen)
      refine ⟨?_, h.broker.timers ▸ hUnderWay⟩
      obtain ⟨pending, hPending, rfl⟩ := List.mem_map.mp hUnderWay
      rw [Option.mem_toList.mp hPending]
      rfl
    · intro settlement hSettlement
      exact ⟨fun hTimer => hEnded settlement hSettlement (h.broker.timers ▸ hTimer),
        fun hSubscribed => hEnded settlement hSettlement (hClean hSubscribed)⟩

/-- A run keeps to one decision and one confirmation, approves only what is justified, and leaves nothing behind, throughout
exactly when no destroyed listener runs before the broker has its subscription. -/
theorem closes_are_decided_iff (events : List CloseEvent) : (∀ taken rest, events = taken ++ rest → (closeGuard.run newGuard taken).Decides) ↔
      closeGuard.meets subscribesFirst newGuard events = true := by
  have hStep : ∀ guard event, closeGuard.Reachable guard → guard.Decides →
      ((closeGuard.step guard event).Decides ↔ guard.subscribesFirst event = true) := by
    intro guard event hReachable hDecides
    have h := consistent_of_reachable hReachable
    exact (h.step event).decides_iff.trans (h.clean_step_iff (h.decides_iff.mp hDecides) event)
  have hStart : newGuard.Decides := (consistent_of_reachable (.start rfl)).decides_iff.mpr fun _ hMem => absurd hMem List.not_mem_nil
  exact (Machine.Reachable.start rfl).always_iff_meets hStep hStart events

theorem early_listener_leaves_a_subscription : ∃ guard, guard = closeGuard.run newGuard [.requestClose .quit,
          .probed ⟨0, .quit, .readActiveConnections, none, true, none⟩ (some ⟨1, 0, 1⟩),
          .preferred ⟨0, .quit, .readCloseConfirmationEnabled, some ⟨1, 0, 1⟩, true, none⟩ (some true) (some ⟨7, .fires, [], false⟩) "a"] ∧
      guard.broker.settled = [⟨0, true, .destroyed⟩] ∧ guard.broker.subscriptions = [0] ∧ ¬ guard.Decides := by
  refine ⟨_, rfl, by decide, by decide, ?_⟩
  intro hDecides
  exact (hDecides.clean ⟨0, true, .destroyed⟩ (by decide)).2 (by decide)

end ConnectionCloseGuard

end MainProcess
