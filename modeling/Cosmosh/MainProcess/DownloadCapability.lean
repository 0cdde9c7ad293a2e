import Cosmosh.MainProcess.DownloadAuthorizations

/-! # What an authorization is good for

Every local path a download may use was authorized for its renderer and has not been revoked.
-/

namespace MainProcess

open Library Library.History

def Since (trace : List AuthorizationMark) (mark : AuthorizationMark) (spoils : AuthorizationMark → Prop) : Prop :=
  ∃ earlier later, trace = earlier ++ mark :: later ∧ ∀ other ∈ later, ¬spoils other

def EndsGrant (owner : Nat) (path : Text) (reusable : Bool) : AuthorizationMark → Prop
  | .authorized other otherPath _ => other = owner ∧ otherPath = path
  | .used other otherPath _ => reusable = false ∧ other = owner ∧ otherPath = path
  | .revoked other => other = owner
  | _ => False

def EndsReserve (owner : Nat) (transferId : Text) : AuthorizationMark → Prop
  | .used _ _ other => other = some transferId
  | .retried _ _ other _ => other = transferId
  | .completed other otherId => other = owner ∧ otherId = transferId
  | .revoked other => other = owner
  | _ => False

def allowedTime (owner : Nat) (transferId : Text) : AuthorizationMark → Option Nat
  | .allowed other otherId now => if other = owner ∧ otherId = transferId then some now else none
  | _ => none

def allowedTimes (owner : Nat) (transferId : Text) (marks : List AuthorizationMark) : List Nat := marks.filterMap (allowedTime owner transferId)

def Grants (trace : List AuthorizationMark) (owner : Nat) (path : Text) (reusable : Bool) : Prop :=
  Since trace (.authorized owner path reusable) (EndsGrant owner path reusable)

def AuthorizedSince (trace : List AuthorizationMark) (owner : Nat) (path : Text) : Prop :=
  ∃ reusable, Since trace (.authorized owner path reusable) fun mark => mark = .revoked owner

def Reserves (trace : List AuthorizationMark) (owner : Nat) (path transferId : Text) (times : List Nat) : Prop :=
  ∃ earlier later, trace = earlier ++ .used owner path (some transferId) :: later ∧
    (∀ mark ∈ later, ¬EndsReserve owner transferId mark) ∧ allowedTimes owner transferId later = times

def AuthorizationLaw (before : List AuthorizationMark) : AuthorizationMark → Prop
  | .used owner path _ => ∃ reusable, Grants before owner path reusable
  | .retried owner path transferId now =>
    AuthorizedSince before owner path ∧ ∃ times, Reserves before owner path transferId times ∧ times ≠ [] ∧
      ∀ enabled, times = [enabled] → now < enabled + SFTP_DOWNLOAD_TRANSFER_RETRY_RETENTION_MS
  | _ => True

theorem Since.now (trace : List AuthorizationMark) (mark : AuthorizationMark) (spoils : AuthorizationMark → Prop) :
    Since (trace ++ [mark]) mark spoils := ⟨trace, [], rfl, nofun⟩

variable {trace : List AuthorizationMark}

theorem Since.append {mark : AuthorizationMark} {spoils : AuthorizationMark → Prop} (h : Since trace mark spoils)
    {last : AuthorizationMark} (hLast : ¬spoils last) :
    Since (trace ++ [last]) mark spoils := by
  obtain ⟨earlier, later, rfl, hLater⟩ := h
  refine ⟨earlier, later ++ [last], by simp, ?_⟩
  intro other hOther
  obtain hOld | hNew := List.mem_append.mp hOther
  · exact hLater other hOld
  · rwa [List.mem_singleton.mp hNew]

theorem Since.weaken {mark : AuthorizationMark} {spoils weaker : AuthorizationMark → Prop} (h : Since trace mark spoils)
    (hWeaker : ∀ other, weaker other → spoils other) :
    Since trace mark weaker := by
  obtain ⟨earlier, later, hTrace, hLater⟩ := h
  exact ⟨earlier, later, hTrace, fun other hOther hWeak => hLater other hOther (hWeaker other hWeak)⟩

variable {owner : Nat} {path : Text}

theorem Grants.authorizedSince {reusable : Bool} (h : Grants trace owner path reusable) : AuthorizedSince trace owner path :=
  ⟨reusable, h.weaken fun _ hRevoked => hRevoked ▸ rfl⟩

theorem Reserves.now (trace : List AuthorizationMark) (owner : Nat) (path transferId : Text) :
    Reserves (trace ++ [.used owner path (some transferId)]) owner path transferId [] := ⟨trace, [], rfl, nofun, rfl⟩

variable {transferId : Text} {times : List Nat}

theorem Reserves.append (h : Reserves trace owner path transferId times) {last : AuthorizationMark}
    (hLast : ¬EndsReserve owner transferId last) :
    Reserves (trace ++ [last]) owner path transferId (times ++ (allowedTime owner transferId last).toList) := by
  obtain ⟨earlier, later, rfl, hLater, rfl⟩ := h
  refine ⟨earlier, later ++ [last], by simp, ?_, ?_⟩
  · intro mark hMark
    obtain hOld | hNew := List.mem_append.mp hMark
    · exact hLater mark hOld
    · rwa [List.mem_singleton.mp hNew]
  · rw [allowedTimes, List.filterMap_append]
    cases hTime : allowedTime owner transferId last <;> simp [allowedTimes, hTime]

structure Lease (authorization : SftpDownloadTransferRetryAuthorization) (times : List Nat) : Prop where
  ready : authorization.retryReady = !times.isEmpty
  expires : authorization.retryExpiresAt = times.getLast?.map (· + SFTP_DOWNLOAD_TRANSFER_RETRY_RETENTION_MS)

def Reserved (trace : List AuthorizationMark) (transferId : Text)
    (authorization : SftpDownloadTransferRetryAuthorization) : Prop :=
  AuthorizedSince trace authorization.ownerWebContentsId authorization.normalizedPath ∧
    ∃ times, Reserves trace authorization.ownerWebContentsId authorization.normalizedPath transferId times ∧
      Lease authorization times

structure Recorded (registry : SftpDownloadTargetAuthorizationRegistry) : Prop where
  granted : ∀ owner path authorization, registry.authorization owner path = some authorization →
    Grants registry.trace owner path authorization.reusable
  reserved : ∀ transferId authorization,
    registry.retryAuthorizationsByTransferId.get? transferId = some authorization →
      Reserved registry.trace transferId authorization
  causal : Causal AuthorizationLaw registry.trace

variable {registry next : SftpDownloadTargetAuthorizationRegistry}

theorem Recorded.mark (h : Recorded registry) (mark : AuthorizationMark)
    (hTrace : next.trace = registry.trace ++ [mark]) (hLaw : AuthorizationLaw registry.trace mark)
    (hGranted : ∀ owner path authorization, next.authorization owner path = some authorization →
      mark = .authorized owner path authorization.reusable ∨
        registry.authorization owner path = some authorization ∧ ¬EndsGrant owner path authorization.reusable mark)
    (hReserved : ∀ transferId authorization,
      next.retryAuthorizationsByTransferId.get? transferId = some authorization →
        Reserved (registry.trace ++ [mark]) transferId authorization) : Recorded next := by
  constructor
  · intro owner path authorization hAuthorization
    rw [hTrace]
    obtain hNew | ⟨hOld, hKept⟩ := hGranted owner path authorization hAuthorization
    · rw [hNew]
      exact Since.now _ _ _
    · exact (h.granted owner path authorization hOld).append hKept
  · rw [hTrace]
    exact hReserved
  · rw [hTrace]
    exact h.causal.concat hLaw

variable {authorization : SftpDownloadTransferRetryAuthorization}

theorem Reserved.append (h : Reserved trace transferId authorization) {mark : AuthorizationMark}
    (hKept : ¬EndsReserve authorization.ownerWebContentsId transferId mark)
    (hSilent : allowedTime authorization.ownerWebContentsId transferId mark = none) :
    Reserved (trace ++ [mark]) transferId authorization := by
  obtain ⟨⟨reusable, hSince⟩, times, hReserves, hLease⟩ := h
  have hRevoked : mark ≠ .revoked authorization.ownerWebContentsId := by
    rintro rfl
    exact hKept rfl
  refine ⟨⟨reusable, hSince.append hRevoked⟩, times, ?_, hLease⟩
  have hAppend := hReserves.append hKept
  rw [hSilent, Option.toList_none, List.append_nil] at hAppend
  exact hAppend

theorem Recorded.prune (h : Recorded registry) : Recorded registry.pruneExpiredTransferRetries where
  granted := h.granted
  reserved transferId authorization hRetry := h.reserved transferId authorization ((JsMap.get?_filter _ _ _ _).mp hRetry).1
  causal := h.causal

theorem expires_of_pruned
    (hRetry : registry.pruneExpiredTransferRetries.retryAuthorizationsByTransferId.get? transferId = some authorization)
    {expiresAt : Nat} (hExpires : authorization.retryExpiresAt = some expiresAt) : registry.now < expiresAt := by
  have hKept := ((JsMap.get?_filter _ _ _ _).mp hRetry).2
  simpa [hExpires] using hKept

variable {ownerAuthorizations : JsMap Text SftpDownloadTargetAuthorization}

theorem authorization_of_get? (hOwner : registry.authorizationsByOwner.get? owner = some ownerAuthorizations) (path : Text) :
    registry.authorization owner path = ownerAuthorizations.get? path := by
  simp [SftpDownloadTargetAuthorizationRegistry.authorization, hOwner]

theorem authorization_getD (owner : Nat) (path : Text) :
    ((registry.authorizationsByOwner.get? owner).getD .empty).get? path = registry.authorization owner path := by
  unfold SftpDownloadTargetAuthorizationRegistry.authorization
  cases registry.authorizationsByOwner.get? owner with
  | none => rfl
  | some ownerAuthorizations => rfl

theorem authorization_set (hNext : next.authorizationsByOwner = registry.authorizationsByOwner.set owner ownerAuthorizations)
    (other : Nat) (path : Text) :
    next.authorization other path =
      if other = owner then ownerAuthorizations.get? path else registry.authorization other path := by
  unfold SftpDownloadTargetAuthorizationRegistry.authorization
  rw [hNext, JsMap.get?_set]
  split <;> rfl

theorem authorization_withdraw (hOwner : registry.authorizationsByOwner.get? owner = some ownerAuthorizations) (path : Text)
    (other : Nat) (otherPath : Text) :
    (registry.withdraw owner ownerAuthorizations path).authorization other otherPath =
      if other = owner ∧ otherPath = path then none else registry.authorization other otherPath := by
  have hRest : ∀ key, (ownerAuthorizations.delete path).get? key =
      if key = path then none else registry.authorization owner key := by
    intro key
    rw [JsMap.get?_delete, authorization_of_get? hOwner]
  by_cases hOther : other = owner
  · subst hOther
    simp only [true_and, ← hRest]
    unfold SftpDownloadTargetAuthorizationRegistry.withdraw SftpDownloadTargetAuthorizationRegistry.authorization
    simp only
    split
    · next hSize =>
      rw [JsMap.get?_of_size_eq_zero hSize, JsMap.get?_delete, if_pos rfl]
      rfl
    · rw [JsMap.get?_set, if_pos rfl]
      rfl
  · simp only [hOther, false_and, reduceIte]
    unfold SftpDownloadTargetAuthorizationRegistry.withdraw SftpDownloadTargetAuthorizationRegistry.authorization
    simp only
    split
    · rw [JsMap.get?_delete, if_neg hOther]
    · rw [JsMap.get?_set, if_neg hOther]

variable {canonical : Text → Text}

theorem Recorded.authorize (h : Recorded registry) (owner : Nat) (candidatePath : Text) (reusable : Bool) :
    Recorded (registry.authorize canonical owner candidatePath reusable).2 := by
  have hPruned := h.prune
  unfold SftpDownloadTargetAuthorizationRegistry.authorize
  simp only
  split
  · exact hPruned
  · next path _ =>
    refine hPruned.mark _ rfl trivial ?_ ?_
    · intro other otherPath authorization hAuthorization
      rw [authorization_set rfl] at hAuthorization
      split at hAuthorization
      · next hOther =>
        rw [JsMap.get?_set] at hAuthorization
        split at hAuthorization
        · next hPath =>
          left
          rw [hOther, hPath, ← Option.some.inj hAuthorization]
        · next hPath =>
          right
          rw [authorization_getD] at hAuthorization
          exact ⟨hOther ▸ hAuthorization, fun hEnds => hPath hEnds.2.symm⟩
      · next hOther => exact .inr ⟨hAuthorization, fun hEnds => hOther hEnds.1.symm⟩
    · intro transferId authorization hRetry
      exact (hPruned.reserved transferId authorization hRetry).append id rfl

theorem Recorded.consume (h : Recorded registry) (owner : Nat) (candidatePath : Text) (transferId : Option Text)
    (hNew : ∀ id, transferId = some id → registry.retryAuthorizationsByTransferId.get? id = none) :
    Recorded (registry.consume canonical owner candidatePath transferId).2 := by
  unfold SftpDownloadTargetAuthorizationRegistry.consume
  split
  · exact h
  · next path _ =>
    split
    · exact h
    · next ownerAuthorizations hOwner =>
      split
      · exact h
      · next authorization hPath =>
        have hHeld : registry.authorization owner path = some authorization := by
          rw [authorization_of_get? hOwner, hPath]
        have hRetries : ∀ id other, registry.retryAuthorizationsByTransferId.get? id = some other →
            Reserved (registry.trace ++ [.used owner path transferId]) id other := by
          intro id other hRetry
          refine (h.reserved id other hRetry).append ?_ rfl
          intro hEnds
          rw [hNew id hEnds] at hRetry
          cases hRetry
        cases hReusable : authorization.reusable with
        | true =>
          refine h.mark (.used owner path transferId) rfl ⟨_, h.granted owner path authorization hHeld⟩ ?_ hRetries
          intro other otherPath found hFound
          refine .inr ⟨hFound, ?_⟩
          rintro ⟨hSingle, rfl, rfl⟩
          have hSame : some found = some authorization := hFound.symm.trans hHeld
          rw [Option.some.inj hSame, hReusable] at hSingle
          cases hSingle
        | false =>
          refine h.mark (.used owner path transferId) rfl ⟨_, h.granted owner path authorization hHeld⟩ ?_ hRetries
          intro other otherPath found hFound
          have hKept : (registry.withdraw owner ownerAuthorizations path).authorization other otherPath = some found := hFound
          rw [authorization_withdraw hOwner] at hKept
          split at hKept
          · cases hKept
          · next hElse => exact .inr ⟨hKept, fun hEnds => hElse ⟨hEnds.2.1.symm, hEnds.2.2.symm⟩⟩

theorem granted_same (h : next.authorizationsByOwner = registry.authorizationsByOwner) {mark : AuthorizationMark}
    (hMark : ∀ owner path reusable, ¬EndsGrant owner path reusable mark) (owner : Nat) (path : Text)
    (authorization : SftpDownloadTargetAuthorization) (hFound : next.authorization owner path = some authorization) :
    mark = .authorized owner path authorization.reusable ∨
      registry.authorization owner path = some authorization ∧ ¬EndsGrant owner path authorization.reusable mark := by
  right
  rw [SftpDownloadTargetAuthorizationRegistry.authorization, h] at hFound
  exact ⟨hFound, hMark owner path authorization.reusable⟩

theorem Lease.times_ne_nil (h : Lease authorization times) (hReady : authorization.retryReady = true) : times ≠ [] := by
  rintro rfl
  rw [h.ready] at hReady
  cases hReady

theorem Recorded.retry (h : Recorded registry)
    (hRetry : registry.pruneExpiredTransferRetries.retryAuthorizationsByTransferId.get? transferId = some authorization) :
    Recorded (registry.pruneExpiredTransferRetries.retry authorization owner path transferId).2 := by
  have hPruned := h.prune
  unfold SftpDownloadTargetAuthorizationRegistry.retry
  split
  · exact hPruned
  · next hValid =>
    simp only [not_or, ne_eq, Decidable.not_not, Bool.not_eq_false] at hValid
    obtain ⟨hOwner, hPath, hReady⟩ := hValid
    obtain ⟨hSince, times, hReserves, hLease⟩ := hPruned.reserved transferId authorization hRetry
    rw [hOwner, hPath] at hSince hReserves
    refine hPruned.mark _ rfl ⟨hSince, times, hReserves, hLease.times_ne_nil hReady, ?_⟩
      (granted_same rfl fun _ _ _ => id) ?_
    · rintro enabled rfl
      exact expires_of_pruned hRetry hLease.expires
    · intro other found hFound
      have hKept := hFound
      rw [show (registry.pruneExpiredTransferRetries.deleteRetry transferId |>.observe _).retryAuthorizationsByTransferId =
        registry.pruneExpiredTransferRetries.retryAuthorizationsByTransferId.delete transferId from rfl,
        JsMap.get?_delete] at hKept
      split at hKept
      · cases hKept
      · next hOther =>
        exact (hPruned.reserved other found hKept).append (fun hEnds => hOther hEnds.symm) rfl

theorem trace_consume {candidatePath : Text} {transferId : Option Text}
    (h : registry.consume canonical owner candidatePath transferId = (.ok path, next)) :
    next.trace = registry.trace ++ [.used owner path transferId] ∧
      next.retryAuthorizationsByTransferId = registry.retryAuthorizationsByTransferId ∧
      ∃ reusable, registry.authorization owner path = some ⟨reusable⟩ := by
  unfold SftpDownloadTargetAuthorizationRegistry.consume at h
  split at h
  · cases h
  · split at h
    · cases h
    · next ownerAuthorizations hOwner =>
      split at h
      · cases h
      · next authorization hPath =>
        obtain ⟨hOk, rfl⟩ := Prod.mk.inj h
        cases Except.ok.inj hOk
        refine ⟨?_, ?_, authorization.reusable, ?_⟩
        · split <;> rfl
        · split <;> rfl
        · rw [authorization_of_get? hOwner, hPath]

theorem Recorded.consumeForTransfer (h : Recorded registry) (owner : Nat) (candidatePath transferId : Text) :
    Recorded (registry.consumeForTransfer canonical owner candidatePath transferId).2 := by
  have hPruned := h.prune
  unfold SftpDownloadTargetAuthorizationRegistry.consumeForTransfer
  simp only
  split
  · exact hPruned
  · next path _ =>
    split
    · next authorization hRetry => exact h.retry hRetry
    · next hNone =>
      have hNew : ∀ id, some transferId = some id →
          registry.pruneExpiredTransferRetries.retryAuthorizationsByTransferId.get? id = none := by
        rintro id ⟨⟩
        exact hNone
      have hConsumed : Recorded (registry.pruneExpiredTransferRetries.consume canonical owner path (some transferId)).2 :=
        hPruned.consume owner path (some transferId) hNew
      split
      · next hResult =>
        rw [hResult] at hConsumed
        exact hConsumed
      · next authorizedPath consumed hResult =>
        rw [hResult] at hConsumed
        obtain ⟨hTrace, hRetries, reusable, hHeld⟩ := trace_consume hResult
        refine ⟨hConsumed.granted, ?_, hConsumed.causal⟩
        intro id authorization hFound
        have hSet : (consumed.retryAuthorizationsByTransferId.set transferId
          ⟨owner, authorizedPath, false, none⟩).get? id = some authorization := hFound
        rw [JsMap.get?_set] at hSet
        split at hSet
        · next hId =>
          subst hId
          cases Option.some.inj hSet
          show Reserved consumed.trace id ⟨owner, authorizedPath, false, none⟩
          rw [hTrace]
          obtain ⟨again, hSince⟩ := (hPruned.granted owner authorizedPath ⟨reusable⟩ hHeld).authorizedSince
          exact ⟨⟨again, hSince.append (by rintro ⟨⟩)⟩, [], Reserves.now _ _ _ _, rfl, rfl⟩
        · exact hConsumed.reserved id authorization hSet

theorem Recorded.unowned (h : Recorded registry) {mark : AuthorizationMark} (hLaw : AuthorizationLaw registry.trace mark)
    (hGrant : ∀ owner path reusable, ¬EndsGrant owner path reusable mark)
    (hMark : ∀ other id, ¬(owner = other ∧ transferId = id) → ¬EndsReserve other id mark ∧ allowedTime other id mark = none)
    (hUnowned : ∀ authorization, registry.retryAuthorizationsByTransferId.get? transferId = some authorization →
      authorization.ownerWebContentsId ≠ owner) : Recorded (registry.observe mark) := by
  refine h.mark mark rfl hLaw (granted_same rfl hGrant) ?_
  intro id authorization hFound
  have hRetry : registry.retryAuthorizationsByTransferId.get? id = some authorization := hFound
  have hOther : ¬(owner = authorization.ownerWebContentsId ∧ transferId = id) := by
    rintro ⟨hOwner, rfl⟩
    exact hUnowned authorization hRetry hOwner.symm
  obtain ⟨hKept, hSilent⟩ := hMark authorization.ownerWebContentsId id hOther
  exact (h.reserved id authorization hRetry).append hKept hSilent

theorem Lease.renew (now : Nat) :
    Lease { authorization with
      retryReady := true
      retryExpiresAt := some (now + SFTP_DOWNLOAD_TRANSFER_RETRY_RETENTION_MS) } (times ++ [now]) := by
  constructor <;> simp

section

variable (h : Recorded registry) (owner : Nat)
include h

theorem Recorded.allowTransferRetry (transferId : Text) :
    Recorded (registry.allowTransferRetry owner transferId) := by
  have hMark : ∀ other id, ¬(owner = other ∧ transferId = id) →
      ¬EndsReserve other id (.allowed owner transferId registry.now) ∧
        allowedTime other id (.allowed owner transferId registry.now) = none :=
    fun _ _ hOther => ⟨not_false, if_neg hOther⟩
  have hGrant : ∀ other path reusable, ¬EndsGrant other path reusable (.allowed owner transferId registry.now) :=
    fun _ _ _ => not_false
  unfold SftpDownloadTargetAuthorizationRegistry.allowTransferRetry
  split
  · next hNone =>
    refine h.unowned trivial hGrant hMark ?_
    intro authorization hRetry
    rw [hNone] at hRetry
    cases hRetry
  · next authorization hRetry =>
    split
    · next hOwner =>
      refine h.mark _ rfl trivial (granted_same rfl hGrant) ?_
      intro id found hFound
      have hSet : (registry.retryAuthorizationsByTransferId.set transferId { authorization with
          retryReady := true
          retryExpiresAt := some (registry.now + SFTP_DOWNLOAD_TRANSFER_RETRY_RETENTION_MS) }).get? id = some found := hFound
      rw [JsMap.get?_set] at hSet
      split at hSet
      · next hId =>
        subst hId
        obtain ⟨⟨reusable, hSince⟩, times, hReserves, hLease⟩ := h.reserved id authorization hRetry
        have hTime : allowedTime authorization.ownerWebContentsId id (.allowed owner id registry.now) = some registry.now :=
          if_pos ⟨hOwner.symm, rfl⟩
        have hNotEnds : ¬EndsReserve authorization.ownerWebContentsId id (.allowed owner id registry.now) := not_false
        have hAppend := hReserves.append hNotEnds
        rw [hTime] at hAppend
        rw [← Option.some.inj hSet]
        exact ⟨⟨reusable, hSince.append (by rintro ⟨⟩)⟩, times ++ [registry.now], hAppend, .renew registry.now⟩
      · next hId =>
        obtain ⟨hKept, hSilent⟩ := hMark found.ownerWebContentsId id fun hSame => hId hSame.2.symm
        exact (h.reserved id found hSet).append hKept hSilent
    · next hOwner =>
      refine h.unowned trivial hGrant hMark ?_
      intro found hFound
      rw [hRetry] at hFound
      exact Option.some.inj hFound ▸ hOwner

theorem Recorded.completeTransfer (transferId : Text) :
    Recorded (registry.completeTransfer owner transferId) := by
  have hMark : ∀ other id, ¬(owner = other ∧ transferId = id) →
      ¬EndsReserve other id (.completed owner transferId) ∧ allowedTime other id (.completed owner transferId) = none :=
    fun _ _ hOther => ⟨hOther, rfl⟩
  have hGrant : ∀ other path reusable, ¬EndsGrant other path reusable (.completed owner transferId) :=
    fun _ _ _ => not_false
  unfold SftpDownloadTargetAuthorizationRegistry.completeTransfer
  split
  · next hNone =>
    refine h.unowned trivial hGrant hMark ?_
    intro authorization hRetry
    rw [hNone] at hRetry
    cases hRetry
  · next authorization hRetry =>
    split
    · refine h.mark _ rfl trivial (granted_same rfl hGrant) ?_
      intro id found hFound
      have hKept : (registry.retryAuthorizationsByTransferId.delete transferId).get? id = some found := hFound
      rw [JsMap.get?_delete] at hKept
      split at hKept
      · cases hKept
      · next hId =>
        obtain ⟨hStays, hSilent⟩ := hMark found.ownerWebContentsId id fun hSame => hId hSame.2.symm
        exact (h.reserved id found hKept).append hStays hSilent
    · next hOwner =>
      refine h.unowned trivial hGrant hMark ?_
      intro found hFound
      rw [hRetry] at hFound
      exact Option.some.inj hFound ▸ hOwner

theorem Recorded.revokeOwner : Recorded (registry.revokeOwner owner) := by
  unfold SftpDownloadTargetAuthorizationRegistry.revokeOwner
  refine h.mark _ rfl trivial ?_ ?_
  · intro other path authorization hFound
    have hKept : ((registry.authorizationsByOwner.delete owner).get? other).bind (fun found => found.get? path) =
        some authorization := hFound
    rw [JsMap.get?_delete] at hKept
    split at hKept
    · cases hKept
    · next hOther => exact .inr ⟨hKept, fun hSame => hOther hSame.symm⟩
  · intro id authorization hFound
    obtain ⟨hRetry, hOther⟩ := (JsMap.get?_filter _ _ _ _).mp hFound
    simp only [ne_eq, decide_not, Bool.not_eq_true', decide_eq_false_iff_not] at hOther
    exact (h.reserved id authorization hRetry).append (fun hSame => hOther hSame.symm) rfl

end

theorem Recorded.step (h : Recorded registry) (event : RegistryEvent) :
    Recorded (stepRegistry canonical registry event) := by
  cases event with
  | authorize owner candidatePath reusable => exact h.authorize owner candidatePath reusable
  | consume owner candidatePath => exact h.consume owner candidatePath none nofun
  | consumeForTransfer owner candidatePath transferId => exact h.consumeForTransfer owner candidatePath transferId
  | allowTransferRetry owner transferId => exact h.allowTransferRetry owner transferId
  | completeTransfer owner transferId => exact h.completeTransfer owner transferId
  | revokeOwner owner => exact h.revokeOwner owner
  | startTask owner request =>
    cases request with
    | other => exact h
    | download path target =>
      have hConsumed : Recorded (registry.consumeForTransfer canonical owner target.localPath target.transferId).2 :=
        h.consumeForTransfer owner target.localPath target.transferId
      simp only [stepRegistry, authorizeSftpTaskStartRequest]
      split
      · next hResult =>
        rw [hResult] at hConsumed
        exact hConsumed
      · next hResult =>
        rw [hResult] at hConsumed
        exact hConsumed
  | rejectTask owner request code =>
    cases request with
    | other => exact h
    | download path target =>
      simp only [stepRegistry, settleRejectedSftpTaskStart]
      split
      · exact h.allowTransferRetry owner target.transferId
      · exact h.completeTransfer owner target.transferId
  | observeTask owner task =>
    simp only [stepRegistry, observeSftpTaskForDownloadAuthorization]
    split
    · exact h
    · next transferId _ =>
      split
      · exact h
      · split
        · exact h.allowTransferRetry owner transferId
        · exact h.completeTransfer owner transferId
  | advance milliseconds => exact ⟨h.granted, h.reserved, h.causal⟩

theorem recorded_of_reachable (hReachable : (downloadAuthorizations canonical).Reachable registry) :
    Recorded registry := by
  refine hReachable.invariant ?_ fun registry event _ h => h.step event
  rintro _ ⟨now, rfl⟩
  exact ⟨nofun, nofun, causal_nil _⟩

theorem download_targets_are_authorized (canonical : Text → Text)
    (hReachable : (downloadAuthorizations canonical).Reachable registry) :
    Causal AuthorizationLaw registry.trace := (recorded_of_reachable hReachable).causal

def SingleUseLaw (before : List AuthorizationMark) : AuthorizationMark → Prop
  | .used owner path _ => ∃ reusable, Since before (.authorized owner path reusable) (EndsGrant owner path false)
  | .retried owner path transferId now =>
    ∃ first later, Reserves before owner path transferId (first :: later) ∧
      now < first + SFTP_DOWNLOAD_TRANSFER_RETRY_RETENTION_MS
  | _ => True

def previewRegistry : SftpDownloadTargetAuthorizationRegistry :=
  (downloadAuthorizations id).run newRegistry [.authorize 1 ['r'] true, .consume 1 ['r'], .consume 1 ['r']]

def polledRegistry : SftpDownloadTargetAuthorizationRegistry :=
  (downloadAuthorizations id).run newRegistry
    [.authorize 1 ['r'] false, .consumeForTransfer 1 ['r'] ['t'], .allowTransferRetry 1 ['t'], .advance 50000,
      .allowTransferRetry 1 ['t'], .advance 50000, .consumeForTransfer 1 ['r'] ['t']]

theorem traces_of_repeated_use :
    previewRegistry.trace = [.authorized 1 ['r'] true, .used 1 ['r'] none, .used 1 ['r'] none] ∧
      polledRegistry.trace =
        [.authorized 1 ['r'] false, .used 1 ['r'] (some ['t']), .allowed 1 ['t'] 0, .allowed 1 ['t'] 50000,
          .retried 1 ['r'] ['t'] 100000] := by
  decide

theorem reachable_previewRegistry : (downloadAuthorizations id).Reachable previewRegistry :=
  (Transition.Machine.Reachable.start (m := downloadAuthorizations id) ⟨0, rfl⟩).run _

theorem reachable_polledRegistry : (downloadAuthorizations id).Reachable polledRegistry :=
  (Transition.Machine.Reachable.start (m := downloadAuthorizations id) ⟨0, rfl⟩).run _

theorem authorization_is_used_again :
    (downloadAuthorizations id).Reachable previewRegistry ∧ ¬Causal SingleUseLaw previewRegistry.trace ∧
      (downloadAuthorizations id).Reachable polledRegistry ∧ ¬Causal SingleUseLaw polledRegistry.trace := by
  obtain ⟨hPreview, hPolled⟩ := traces_of_repeated_use
  refine ⟨reachable_previewRegistry, ?_, reachable_polledRegistry, ?_⟩
  · intro h
    rw [hPreview] at h
    obtain ⟨reusable, earlier, later, hSplit, hLater⟩ := h [_, _] _ [] rfl
    cases earlier with
    | nil =>
      obtain ⟨-, rfl⟩ := List.cons.inj hSplit
      exact hLater _ List.mem_cons_self ⟨rfl, rfl, rfl⟩
    | cons mark earlier =>
      obtain ⟨-, hRest⟩ := List.cons.inj hSplit
      cases earlier with
      | nil => cases (List.cons.inj hRest).1
      | cons mark earlier => exact absurd (List.cons.inj hRest).2 (by simp)
  · intro h
    rw [hPolled] at h
    obtain ⟨first, again, ⟨earlier, later, hSplit, -, hTimes⟩, hSoon⟩ := h [_, _, _, _] _ [] rfl
    cases earlier with
    | nil => cases (List.cons.inj hSplit).1
    | cons mark earlier =>
      obtain ⟨-, hRest⟩ := List.cons.inj hSplit
      cases earlier with
      | nil =>
        obtain ⟨-, rfl⟩ := List.cons.inj hRest
        have hFirst : first = 0 := (List.cons.inj hTimes).1.symm
        rw [hFirst] at hSoon
        exact absurd hSoon (by decide)
      | cons mark earlier =>
        obtain ⟨-, hRest⟩ := List.cons.inj hRest
        cases earlier with
        | nil => cases (List.cons.inj hRest).1
        | cons mark earlier =>
          obtain ⟨-, hRest⟩ := List.cons.inj hRest
          cases earlier with
          | nil => cases (List.cons.inj hRest).1
          | cons mark earlier => exact absurd (List.cons.inj hRest).2 (by simp)

theorem polled_download_is_authorized : Causal AuthorizationLaw polledRegistry.trace :=
  download_targets_are_authorized id reachable_polledRegistry

end MainProcess
