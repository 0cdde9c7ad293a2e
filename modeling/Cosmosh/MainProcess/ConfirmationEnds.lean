import Cosmosh.Library.Answers
import Cosmosh.MainProcess.CloseConfirmation

/-! # How confirmations end

Each ends once, with its timer cleared.
-/

namespace MainProcess

open Library.Answers

namespace RendererCloseConfirmationBroker

variable (broker : RendererCloseConfirmationBroker)

def answers : List (ConfirmationId × Bool) := broker.settled.map fun settlement => (settlement.confirmation, settlement.confirmed)

def underWay : List ConfirmationId := broker.pendingConfirmation.toList.map (·.promise)

structure Consistent (broker : RendererCloseConfirmationBroker) : Prop where
  ledger : Ledger (List.range broker.created) broker.answers broker.underWay
  complete : Complete (List.range broker.created) broker.answers broker.underWay
  timers : broker.timers = broker.underWay
  bounded : ∀ promise ∈ broker.subscriptions, promise < broker.created
  subscribed : ∀ pending ∈ broker.pendingConfirmation, pending.promise ∈ broker.subscriptions → pending.subscribed = true
  known : ∀ pending ∈ broker.pendingConfirmation, ∃ asked ∈ broker.requested, asked.promise = pending.promise ∧
    asked.ownerWebContentsId = pending.ownerWebContentsId ∧ asked.requestId = pending.requestId
  sound : ∀ settlement ∈ broker.settled, Sound broker.requested settlement

def Clean (broker : RendererCloseConfirmationBroker) : Prop := broker.subscriptions ⊆ broker.underWay

variable {broker}

theorem underWay_of_pending {pending : PendingRendererCloseConfirmation} (h : broker.pendingConfirmation = some pending) :
    broker.underWay = [pending.promise] := by
  rw [underWay, h]
  rfl

theorem underWay_of_none (h : broker.pendingConfirmation = none) : broker.underWay = [] := by
  rw [underWay, h]
  rfl

theorem settle_of_pending (broker : RendererCloseConfirmationBroker) {pending : PendingRendererCloseConfirmation}
    (h : broker.pendingConfirmation = some pending) (confirmed : Bool) (cause : SettlementCause) : broker.settle pending.promise confirmed cause =
      { broker with
        timers := broker.timers.filter (· ≠ pending.promise)
        subscriptions :=
          if pending.subscribed then broker.subscriptions.filter (· ≠ pending.promise) else broker.subscriptions
        pendingConfirmation := none
        settled := broker.settled ++ [⟨pending.promise, confirmed, cause⟩] } := by
  unfold settle
  rw [h]
  exact if_pos rfl

theorem settle_cases (broker : RendererCloseConfirmationBroker) (promise : ConfirmationId) (confirmed : Bool) (cause : SettlementCause) :
    broker.settle promise confirmed cause = broker ∨
      ∃ pending, broker.pendingConfirmation = some pending ∧ pending.promise = promise := by
  unfold settle
  split
  · exact .inl rfl
  · next pending hPending =>
    split
    · next hSame => exact .inr ⟨pending, hPending, hSame⟩
    · exact .inl rfl

variable {promise : ConfirmationId}

theorem Consistent.settle (h : broker.Consistent) {confirmed : Bool} {cause : SettlementCause}
    (hSound : ∀ pending ∈ broker.pendingConfirmation, pending.promise = promise →
      Sound broker.requested ⟨promise, confirmed, cause⟩) : (broker.settle promise confirmed cause).Consistent := by
  obtain hSame | ⟨pending, hPending, rfl⟩ := settle_cases broker promise confirmed cause
  · rw [hSame]
    exact h
  · rw [settle_of_pending _ hPending]
    have hOld : broker.underWay.Perm ([(pending.promise, confirmed)].map Prod.fst ++ []) := by
      rw [underWay_of_pending hPending]
      exact List.Perm.refl _
    have hAnswers : List.map (fun settlement : Settlement => (settlement.confirmation, settlement.confirmed))
        (broker.settled ++ [⟨pending.promise, confirmed, cause⟩]) = broker.answers ++ [(pending.promise, confirmed)] := List.map_append
    refine ⟨?_, ?_, ?_, ?_, nofun, nofun, ?_⟩
    · rw [answers, hAnswers]
      exact h.ledger.answer hOld (List.Perm.refl _)
    · rw [answers, hAnswers]
      exact h.complete.answer hOld (List.Perm.refl _)
    · show broker.timers.filter _ = []
      rw [h.timers, underWay_of_pending hPending]
      exact List.filter_cons_of_neg (by simp)
    · intro other hOther
      dsimp only at hOther
      split at hOther
      · exact h.bounded other (List.mem_of_mem_filter hOther)
      · exact h.bounded other hOther
    · intro settlement hMem
      obtain hOld | hNew := List.mem_append.mp hMem
      · exact h.sound settlement hOld
      · exact List.mem_singleton.mp hNew ▸ hSound pending hPending rfl

theorem Clean.settle (hClean : broker.Clean) (h : broker.Consistent) (promise : ConfirmationId) (confirmed : Bool)
    (cause : SettlementCause) : (broker.settle promise confirmed cause).Clean := by
  obtain hSame | ⟨pending, hPending, rfl⟩ := settle_cases broker promise confirmed cause
  · rw [hSame]
    exact hClean
  · rw [settle_of_pending _ hPending]
    intro other hOther
    have hOnly (hMem : other ∈ broker.subscriptions) : other = pending.promise := by
      have hIn := hClean hMem
      rw [underWay_of_pending hPending] at hIn
      exact List.mem_singleton.mp hIn
    dsimp only at hOther
    split at hOther
    · obtain ⟨hMem, hNe⟩ := List.mem_filter.mp hOther
      exact absurd (hOnly hMem) (of_decide_eq_true hNe)
    · next hUnsubscribed => exact absurd (h.subscribed pending hPending (hOnly hOther ▸ hOther)) hUnsubscribed

theorem Sound.grow {requested next : List PendingRendererCloseConfirmation} {settlement : Settlement} (h : Sound requested settlement)
    (hGrows : requested ⊆ next) : Sound next settlement := by
  unfold Sound at h ⊢
  split at h
  · obtain ⟨pending, hPending, hMatch⟩ := h
    exact ⟨pending, hGrows hPending, hMatch⟩
  · exact h
  · exact h
  · exact h
  · exact h

theorem created_settle (promise : ConfirmationId) (confirmed : Bool) (cause : SettlementCause) :
    (broker.settle promise confirmed cause).created = broker.created := by
  obtain hSame | ⟨pending, hPending, rfl⟩ := settle_cases broker promise confirmed cause
  · rw [hSame]
  · rw [settle_of_pending _ hPending]

theorem settled_settle (promise : ConfirmationId) (confirmed : Bool) (cause : SettlementCause) :
    broker.settled ⊆ (broker.settle promise confirmed cause).settled := by
  obtain hSame | ⟨pending, hPending, rfl⟩ := settle_cases broker promise confirmed cause
  · rw [hSame]
    exact List.Subset.refl _
  · rw [settle_of_pending _ hPending]
    exact List.subset_append_left _ _

theorem Consistent.report (h : broker.Consistent) (errors : List RendererCloseConfirmationErrorStage) :
    Consistent { broker with errors := errors } := ⟨h.ledger, h.complete, h.timers, h.bounded, h.subscribed, h.known, h.sound⟩

theorem Consistent.onTimeout_eq (h : broker.Consistent) (promise : ConfirmationId) : broker.onTimeout promise =
    if promise ∈ broker.timers then
      RendererCloseConfirmationBroker.settle { broker with errors := broker.errors ++ [.timeout] } promise false .timed_out
    else broker := by
  unfold onTimeout
  split
  · next hMem =>
    rw [h.timers] at hMem
    obtain ⟨pending, hPending, rfl⟩ := List.mem_map.mp hMem
    rw [Option.mem_toList] at hPending
    have hSettle (timers : List ConfirmationId) := settle_of_pending
      { broker with timers := timers, errors := broker.errors ++ [.timeout] } hPending false .timed_out
    rw [hSettle broker.timers]
    refine (hSettle (broker.timers.filter (· ≠ pending.promise))).trans ?_
    dsimp only
    rw [List.filter_filter]
    simp only [Bool.and_self]
  · rfl

structure Keeps (broker next : RendererCloseConfirmationBroker) : Prop where
  consistent : broker.Consistent → next.Consistent
  clean : broker.Consistent → broker.Clean → next.Clean
  created : broker.created ≤ next.created
  settled : broker.settled ⊆ next.settled

namespace Keeps

theorem refl (broker : RendererCloseConfirmationBroker) : Keeps broker broker := ⟨id, fun _ h => h, Nat.le_refl _, List.Subset.refl _⟩

theorem trans {a b c : RendererCloseConfirmationBroker} (hFirst : Keeps a b) (hSecond : Keeps b c) : Keeps a c where
  consistent := fun h => hSecond.consistent (hFirst.consistent h)
  clean := fun h hClean => hSecond.clean (hFirst.consistent h) (hFirst.clean h hClean)
  created := Nat.le_trans hFirst.created hSecond.created
  settled := List.Subset.trans hFirst.settled hSecond.settled

theorem report (broker : RendererCloseConfirmationBroker) (errors : List RendererCloseConfirmationErrorStage) :
    Keeps broker { broker with errors := errors } := ⟨fun h => h.report errors, fun _ h => h, Nat.le_refl _, List.Subset.refl _⟩

theorem settle {confirmed : Bool} {cause : SettlementCause}
    (hSound : broker.Consistent → ∀ pending ∈ broker.pendingConfirmation, pending.promise = promise →
      Sound broker.requested ⟨promise, confirmed, cause⟩) : Keeps broker (broker.settle promise confirmed cause) where
  consistent := fun h => h.settle (hSound h)
  clean := fun h hClean => hClean.settle h promise confirmed cause
  created := Nat.le_of_eq (created_settle promise confirmed cause).symm
  settled := settled_settle promise confirmed cause

section

variable (broker : RendererCloseConfirmationBroker)

theorem resolveConfirmation (senderWebContentsId : Nat) (requestId : String) (confirmed : Bool) :
    Keeps broker (broker.resolveConfirmation senderWebContentsId requestId confirmed).1 := by
  unfold RendererCloseConfirmationBroker.resolveConfirmation
  split
  · exact refl broker
  · next pending hPending =>
    split
    · next hMatch =>
      refine settle fun h other hOther _ => ?_
      obtain rfl : pending = other := Option.some.inj (hPending.symm.trans hOther)
      obtain ⟨asked, hAsked, hPromise, hOwner, hRequest⟩ := h.known pending hPending
      exact ⟨asked, hAsked, hPromise, hOwner.trans hMatch.1.symm, hRequest.trans hMatch.2.symm⟩
    · exact refl broker

theorem onDestroyed (promise : ConfirmationId) : Keeps broker (broker.onDestroyed promise) := by
  unfold RendererCloseConfirmationBroker.onDestroyed
  split
  · exact settle fun _ _ _ _ => rfl
  · exact refl broker

theorem onSignal (promise : ConfirmationId) (signal : RendererSignal) :
    Keeps broker (broker.onSignal promise signal) := by
  cases signal with
  | response senderWebContentsId requestId confirmed => exact resolveConfirmation broker senderWebContentsId requestId confirmed
  | destroyed => exact onDestroyed broker promise

theorem onSignals (promise : ConfirmationId) (signals : List RendererSignal) :
    Keeps broker (signals.foldl (fun broker signal => broker.onSignal promise signal) broker) := by
  induction signals generalizing broker with
  | nil => exact refl broker
  | cons signal signals ih => exact (onSignal broker promise signal).trans (ih _)

theorem sendRequest (target : RendererCloseConfirmationTarget) (promise : ConfirmationId) :
    Keeps broker (broker.sendRequest target promise) := by
  have hSent := onSignals broker promise target.duringSend
  unfold RendererCloseConfirmationBroker.sendRequest
  dsimp only
  split
  · exact (hSent.trans (report _ _)).trans (settle fun _ _ _ _ => rfl)
  · exact hSent

end

end Keeps

theorem Consistent.onTimeout (h : broker.Consistent) (promise : ConfirmationId) : Keeps broker (broker.onTimeout promise) := by
  rw [h.onTimeout_eq]
  split
  · exact (Keeps.report _ _).trans (Keeps.settle fun _ _ _ _ => rfl)
  · exact Keeps.refl broker

theorem Consistent.openConfirmation (h : broker.Consistent) (hNone : broker.pendingConfirmation = none) (webContentsId : Nat)
    (requestId : String) : (broker.openConfirmation webContentsId requestId).Consistent where
  ledger := by
    rw [RendererCloseConfirmationBroker.openConfirmation, List.range_succ]
    have hOld : broker.underWay.Perm ([] ++ []) := by rw [underWay_of_none hNone, List.nil_append]
    exact h.ledger.replace List.not_mem_range_self hOld (List.Perm.refl _)
  complete := by
    rw [RendererCloseConfirmationBroker.openConfirmation, List.range_succ]
    refine h.complete.ask ?_
    rw [underWay_of_none hNone]
    exact List.Perm.refl _
  timers := by
    show broker.created :: broker.timers = [broker.created]
    rw [h.timers, underWay_of_none hNone]
  bounded := fun promise hMem => Nat.lt_succ_of_lt (h.bounded promise hMem)
  subscribed := by
    intro pending hPending hMem
    obtain rfl := Option.some.inj hPending
    exact absurd (h.bounded _ hMem) (Nat.lt_irrefl _)
  known := by
    intro pending hPending
    obtain rfl := Option.some.inj hPending
    exact ⟨_, List.mem_append_right _ (List.mem_singleton_self _), rfl, rfl, rfl⟩
  sound := fun settlement hMem => (h.sound settlement hMem).grow (List.subset_append_left _ _)

theorem Clean.openConfirmation (hClean : broker.Clean) (hNone : broker.pendingConfirmation = none) (webContentsId : Nat)
    (requestId : String) : (broker.openConfirmation webContentsId requestId).Clean := by
  intro promise hMem
  have hIn := hClean hMem
  rw [underWay_of_none hNone] at hIn
  exact absurd hIn List.not_mem_nil

theorem underWay_attachSubscription (promise : ConfirmationId) : (broker.attachSubscription promise).underWay = broker.underWay := by
  cases hPending : broker.pendingConfirmation with
  | none => rw [underWay_of_none hPending, underWay, attachSubscription, hPending]; rfl
  | some pending =>
    rw [underWay_of_pending hPending, underWay, attachSubscription, hPending, Option.map_some, Option.toList_some, List.map_singleton]
    split
    · rfl
    · rfl

theorem Consistent.attachSubscription (h : broker.Consistent) (hBound : promise < broker.created) :
    (broker.attachSubscription promise).Consistent where
  ledger := by
    rw [underWay_attachSubscription]
    exact h.ledger
  complete := by
    rw [underWay_attachSubscription]
    exact h.complete
  timers := by
    rw [underWay_attachSubscription]
    exact h.timers
  bounded := by
    intro other hOther
    obtain rfl | hOld := List.mem_cons.mp hOther
    · exact hBound
    · exact h.bounded other hOld
  subscribed := by
    intro next hNext hMem
    obtain ⟨pending, hPending, rfl⟩ := Option.map_eq_some_iff.mp hNext
    obtain hSame | hOther := eq_or_ne pending.promise promise
    · rw [if_pos hSame]
    · rw [if_neg hOther] at hMem ⊢
      exact h.subscribed pending hPending ((List.mem_cons.mp hMem).resolve_left hOther)
  known := by
    intro next hNext
    obtain ⟨pending, hPending, rfl⟩ := Option.map_eq_some_iff.mp hNext
    split
    · exact h.known pending hPending
    · exact h.known pending hPending
  sound := h.sound

theorem Clean.attachSubscription (hClean : broker.Clean) (hUnderWay : promise ∈ broker.underWay) :
    (broker.attachSubscription promise).Clean := by
  rw [Clean, underWay_attachSubscription]
  exact List.cons_subset.mpr ⟨hUnderWay, hClean⟩

theorem settle_of_none (broker : RendererCloseConfirmationBroker) (h : broker.pendingConfirmation = none) (promise : ConfirmationId) (confirmed : Bool) (cause : SettlementCause) :
    broker.settle promise confirmed cause = broker := by
  unfold settle
  rw [h]

theorem onSignal_of_none (h : broker.pendingConfirmation = none) (promise : ConfirmationId) (signal : RendererSignal) :
    broker.onSignal promise signal = broker := by
  cases signal with
  | response senderWebContentsId requestId confirmed =>
    show (broker.resolveConfirmation senderWebContentsId requestId confirmed).1 = broker
    unfold resolveConfirmation
    rw [h]
  | destroyed =>
    show broker.onDestroyed promise = broker
    rw [onDestroyed, settle_of_none _ h, ite_self]

theorem onSignals_of_none (h : broker.pendingConfirmation = none) (promise : ConfirmationId) (signals : List RendererSignal) :
    signals.foldl (fun broker signal => broker.onSignal promise signal) broker = broker := by
  induction signals with
  | nil => rfl
  | cons signal signals ih => rw [List.foldl_cons, onSignal_of_none h, ih]

theorem not_clean_sendRequest (hNone : broker.pendingConfirmation = none) (hLeft : promise ∈ broker.subscriptions)
    (target : RendererCloseConfirmationTarget) : ¬ (broker.sendRequest target promise).Clean := by
  have hSame : (broker.sendRequest target promise).subscriptions = broker.subscriptions ∧
      (broker.sendRequest target promise).underWay = [] := by
    unfold sendRequest
    rw [onSignals_of_none hNone]
    dsimp only
    split
    · rw [settle_of_none { broker with errors := broker.errors ++ [.send] } hNone]
      exact ⟨rfl, underWay_of_none hNone⟩
    · exact ⟨rfl, underWay_of_none hNone⟩
  intro hClean
  have hIn : promise ∈ (broker.sendRequest target promise).underWay := hClean (hSame.1 ▸ hLeft)
  rw [hSame.2] at hIn
  exact List.not_mem_nil hIn

theorem Consistent.refuse (h : broker.Consistent) (hNone : broker.pendingConfirmation = none) (errors : List RendererCloseConfirmationErrorStage) :
    Consistent { broker with
      created := broker.created + 1
      settled := broker.settled ++ [⟨broker.created, true, .unavailable⟩]
      errors := errors } := by
  have hUnderWay := underWay_of_none hNone
  have hAnswers : List.map (fun settlement : Settlement => (settlement.confirmation, settlement.confirmed))
      (broker.settled ++ [⟨broker.created, true, .unavailable⟩]) = broker.answers ++ [(broker.created, true)] := List.map_append
  refine ⟨?_, ?_, h.timers, fun promise hMem => Nat.lt_succ_of_lt (h.bounded promise hMem), h.subscribed, h.known, ?_⟩
  · have hAsked : Ledger (List.range broker.created ++ [broker.created]) broker.answers ([] ++ [broker.created]) :=
      hUnderWay ▸ h.ledger.ask List.not_mem_range_self
    show Ledger (List.range (broker.created + 1)) (List.map _ _) broker.underWay
    rw [hAnswers, hUnderWay, List.range_succ]
    exact hAsked.answer (List.Perm.refl _) (List.Perm.refl _)
  · have hAsked : Complete (List.range broker.created ++ [broker.created]) broker.answers [broker.created] :=
      h.complete.ask (hUnderWay ▸ List.Perm.refl _)
    show Complete (List.range (broker.created + 1)) (List.map _ _) broker.underWay
    rw [hAnswers, hUnderWay, List.range_succ]
    exact hAsked.answer (List.Perm.refl _) (List.Perm.refl _)
  · intro settlement hMem
    obtain hOld | hNew := List.mem_append.mp hMem
    · exact h.sound settlement hOld
    · rw [List.mem_singleton.mp hNew]
      exact rfl

/-- The request opens a confirmation with a target whose listener runs before `subscribeDestroyed` returns. -/
def firesInSubscribe (broker : RendererCloseConfirmationBroker) (target : Option RendererCloseConfirmationTarget) : Bool :=
  broker.pendingConfirmation.isNone && target.any fun target => target.subscribeDestroyed = .fires

theorem mem_underWay_open (webContentsId : Nat) (requestId : String) :
    broker.created ∈ (broker.openConfirmation webContentsId requestId).underWay := List.mem_singleton_self _

theorem Consistent.requestConfirmation (h : broker.Consistent) (target : Option RendererCloseConfirmationTarget) (requestId : String) :
    (broker.requestConfirmation target requestId).1.Consistent ∧
      broker.settled ⊆ (broker.requestConfirmation target requestId).1.settled ∧
      (broker.Clean → ((broker.requestConfirmation target requestId).1.Clean ↔ broker.firesInSubscribe target = false)) := by
  unfold RendererCloseConfirmationBroker.requestConfirmation
  split
  · next pending hPending =>
    refine ⟨h, List.Subset.refl _, fun hClean => iff_of_true hClean ?_⟩
    rw [firesInSubscribe, hPending]
    rfl
  · next hNone =>
    refine ⟨h.refuse hNone _, List.subset_append_left _ _, fun hClean => iff_of_true hClean ?_⟩
    exact Bool.and_false _
  · next target hNone =>
    have hOpened := h.openConfirmation hNone target.webContentsId requestId
    have hFires : broker.firesInSubscribe (some target) = decide (target.subscribeDestroyed = .fires) := by
      rw [firesInSubscribe, hNone]
      rfl
    rw [hFires]
    dsimp only
    split
    · next hThrows =>
      refine ⟨hOpened, List.Subset.refl _, fun hClean => iff_of_true (hClean.openConfirmation hNone _ _) ?_⟩
      rw [hThrows]
      rfl
    · next hReturns =>
      have hAttached : ((broker.openConfirmation target.webContentsId requestId).attachSubscription broker.created).Consistent :=
        hOpened.attachSubscription (Nat.lt_succ_self _)
      have hSent := Keeps.sendRequest ((broker.openConfirmation target.webContentsId requestId).attachSubscription broker.created) target
        broker.created
      refine ⟨hSent.consistent hAttached, hSent.settled, fun hClean => iff_of_true (hSent.clean hAttached ?_) ?_⟩
      · exact (hClean.openConfirmation hNone _ _).attachSubscription (mem_underWay_open _ _)
      · rw [hReturns]
        rfl
    · next hFired =>
      -- the confirmation has ended when the subscription is attached to it
      have hSettled : Keeps (broker.openConfirmation target.webContentsId requestId)
          ((broker.openConfirmation target.webContentsId requestId).settle broker.created true .destroyed) := Keeps.settle fun _ _ _ _ => rfl
      have hNone : ((broker.openConfirmation target.webContentsId requestId).settle broker.created true .destroyed).pendingConfirmation =
          none := by
        rw [settle_of_pending (broker.openConfirmation target.webContentsId requestId) rfl]
      have hAttached := (hSettled.consistent hOpened).attachSubscription (Nat.lt_of_lt_of_le (Nat.lt_succ_self _) hSettled.created)
      have hSent := Keeps.sendRequest (((broker.openConfirmation target.webContentsId requestId).settle broker.created true
        .destroyed).attachSubscription broker.created) target broker.created
      refine ⟨hSent.consistent hAttached, List.Subset.trans hSettled.settled hSent.settled, fun _ => iff_of_false ?_ ?_⟩
      · refine not_clean_sendRequest ?_ List.mem_cons_self target
        rw [RendererCloseConfirmationBroker.attachSubscription, hNone]
        rfl
      · rw [hFired]
        exact Bool.noConfusion

theorem consistent_newBroker : newBroker.Consistent where
  ledger := Ledger.nil
  complete := Complete.nil
  timers := rfl
  bounded := fun _ hMem => absurd hMem List.not_mem_nil
  subscribed := nofun
  known := nofun
  sound := fun _ hMem => absurd hMem List.not_mem_nil

end RendererCloseConfirmationBroker

end MainProcess
