import Cosmosh.Library.Transition
import Mathlib.Tactic.ByContra

/-! # Operations of an SFTP tab that share one passive reconnect

An operation calls the backend with the active session id.
-/

namespace SftpPage

open Library.Transition

abbrev SessionId := String

inductive SftpOperationImpact
  | read
  | mutation
  deriving DecidableEq

inductive CallResult
  | ok
  | sessionNotFound
  | otherError
  deriving DecidableEq

inductive LogEntry
  | invoked (id : SessionId)
  | answered (result : CallResult)
  deriving DecidableEq

/-- Where a `runSftpOperationWithReconnect` call is suspended. -/
inductive Suspension
  | calling (initialSessionId : SessionId)
  | awaitingSession (initialSessionId : SessionId) (promise : Nat)
  | retrying (retrySessionId : SessionId)
  | settled
  deriving DecidableEq

structure Operation where
  impact : SftpOperationImpact
  log : List LogEntry
  suspension : Suspension
  deriving DecidableEq

/-- A reconnect sets the active id when it succeeds; `finally` has not run yet while it is not cleared. -/
inductive ReconnectStatus
  | running
  | succeeded (id : SessionId)
  | failed
  | cleared (outcome : Option SessionId)
  deriving DecidableEq

namespace ReconnectStatus

def outcome : ReconnectStatus → Option SessionId
  | succeeded id => some id
  | cleared outcome => outcome
  | _ => none

def isCleared : ReconnectStatus → Bool
  | cleared _ => true
  | _ => false

end ReconnectStatus

/-- `known` are the ids there have been, `replaced` those a reconnect has replaced. -/
structure Tab where
  activeSessionId : SessionId
  reconnectPromise : Option Nat
  reconnects : List ReconnectStatus
  operations : List Operation
  known : List SessionId
  replaced : List SessionId
  deriving DecidableEq

inductive TabEvent
  | call (impact : SftpOperationImpact)
  | answer (index : Nat) (result : CallResult)
  | reconnectSucceeds (promise : Nat) (id : SessionId)
  | reconnectFails (promise : Nat)
  | clear (promise : Nat)
  | resume (index : Nat)

namespace Operation

def invoke (op : Operation) (id : SessionId) (suspension : Suspension) : Operation :=
  { op with log := op.log ++ [.invoked id], suspension := suspension }

def answered (op : Operation) (result : CallResult) (suspension : Suspension) : Operation :=
  { op with log := op.log ++ [.answered result], suspension := suspension }

end Operation

namespace Tab

def connected (id : SessionId) : Tab := ⟨id, none, [], [], [id], []⟩

def setOperation (tab : Tab) (index : Nat) (op : Operation) : Tab := { tab with operations := tab.operations.set index op }

/-- `ensureSharedSftpReconnect`: the promise, and the tab with the reconnect started if there was none. -/
def ensureSession (tab : Tab) : Nat × Tab :=
  match tab.reconnectPromise with
  | some promise => (promise, tab)
  | none =>
    (tab.reconnects.length,
      { tab with
        reconnects := tab.reconnects ++ [.running]
        reconnectPromise := some tab.reconnects.length })

def call (tab : Tab) (impact : SftpOperationImpact) : Tab :=
  if tab.activeSessionId = "" then { tab with operations := tab.operations ++ [⟨impact, [], .settled⟩] }
  else
    { tab with operations := tab.operations ++
        [Operation.invoke ⟨impact, [], .settled⟩ tab.activeSessionId (.calling tab.activeSessionId)] }

/-- The `catch` of a call whose session the backend did not know. -/
def recover (tab : Tab) (index : Nat) (op : Operation) (initialSessionId : SessionId) : Tab :=
  let failed := op.answered .sessionNotFound .settled
  let latestSessionId := tab.activeSessionId
  match op.impact with
  | .read =>
    if latestSessionId ≠ "" ∧ latestSessionId ≠ initialSessionId then
      tab.setOperation index (failed.invoke latestSessionId (.retrying latestSessionId))
    else
      tab.ensureSession.2.setOperation index
        { failed with suspension := .awaitingSession initialSessionId tab.ensureSession.1 }
  | .mutation =>
    if latestSessionId = "" ∨ latestSessionId = initialSessionId then tab.ensureSession.2.setOperation index failed
    else tab.setOperation index failed

def answersLater (tab : Tab) (id : SessionId) : Bool := tab.reconnects.any (· = .succeeded id)

def answer (tab : Tab) (index : Nat) (op : Operation) (result : CallResult) : Tab :=
  match op.suspension with
  | .calling id =>
    if tab.answersLater id then tab
    else if result = .sessionNotFound then tab.recover index op id
    else tab.setOperation index (op.answered result .settled)
  | .retrying id => if tab.answersLater id then tab else tab.setOperation index (op.answered result .settled)
  | _ => tab

/-- `sessionIdRef.current = nextSessionId`; the id is a fresh one. -/
def reconnectSucceeds (tab : Tab) (promise : Nat) (id : SessionId) : Tab :=
  if tab.reconnects[promise]? = some .running ∧ id ∉ tab.known ∧ id ≠ "" then
    { tab with
      activeSessionId := id
      reconnects := tab.reconnects.set promise (.succeeded id)
      known := id :: tab.known
      replaced := tab.activeSessionId :: tab.replaced }
  else tab

def reconnectFails (tab : Tab) (promise : Nat) : Tab :=
  if tab.reconnects[promise]? = some .running then
    { tab with reconnects := tab.reconnects.set promise .failed }
  else tab

def clearWith (tab : Tab) (promise : Nat) (outcome : Option SessionId) : Tab :=
  { tab with
    reconnects := tab.reconnects.set promise (.cleared outcome)
    reconnectPromise := if tab.reconnectPromise = some promise then none else tab.reconnectPromise }

/-- The `finally` of a settled reconnect. -/
def clear (tab : Tab) (promise : Nat) : Tab :=
  match tab.reconnects[promise]? with
  | some (.succeeded id) => tab.clearWith promise (some id)
  | some .failed => tab.clearWith promise none
  | _ => tab

def resume (tab : Tab) (index : Nat) (op : Operation) : Tab :=
  match op.suspension with
  | .awaitingSession _ promise =>
    match tab.reconnects[promise]? with
    | some (.cleared (some id)) => tab.setOperation index (op.invoke id (.retrying id))
    | some (.cleared none) => tab.setOperation index { op with suspension := .settled }
    | _ => tab
  | _ => tab

def step (tab : Tab) : TabEvent → Tab
  | .call impact => tab.call impact
  | .answer index result =>
    match tab.operations[index]? with
    | some op => tab.answer index op result
    | none => tab
  | .reconnectSucceeds promise id => tab.reconnectSucceeds promise id
  | .reconnectFails promise => tab.reconnectFails promise
  | .clear promise => tab.clear promise
  | .resume index =>
    match tab.operations[index]? with
    | some op => tab.resume index op
    | none => tab

end Tab

open Tab

def tabs : Machine Tab TabEvent where
  initial tab := ∃ id, id ≠ "" ∧ tab = connected id
  step := Tab.step

def invocations (log : List LogEntry) : List SessionId :=
  log.filterMap fun
    | .invoked id => some id
    | .answered _ => none

structure FollowsPolicy (op : Operation) : Prop where
  mutation : op.impact = .mutation → (invocations op.log).length = 1
  read : (invocations op.log).length ≤ 2
  retry : ∀ a b, invocations op.log = [a, b] →
    a ≠ b ∧ [.invoked a, .answered .sessionNotFound, .invoked b] <+: op.log

inductive Progress (tab : Tab) : Operation → Prop
  | calling {impact : SftpOperationImpact} {a : SessionId} (hKnown : a ∈ tab.known) :
      Progress tab ⟨impact, [.invoked a], .calling a⟩
  | awaiting {a : SessionId} {promise : Nat} {status : ReconnectStatus} (hKnown : a ∈ tab.known)
      (hStatus : tab.reconnects[promise]? = some status) (hOther : status.outcome ≠ some a) :
      Progress tab ⟨.read, [.invoked a, .answered .sessionNotFound], .awaitingSession a promise⟩
  | retrying {a b : SessionId} (hOther : a ≠ b) :
      Progress tab ⟨.read, [.invoked a, .answered .sessionNotFound, .invoked b], .retrying b⟩
  | once {impact : SftpOperationImpact} {a : SessionId} {result : CallResult} :
      Progress tab ⟨impact, [.invoked a, .answered result], .settled⟩
  | twice {a b : SessionId} {result : CallResult} (hOther : a ≠ b) :
      Progress tab ⟨.read, [.invoked a, .answered .sessionNotFound, .invoked b, .answered result], .settled⟩

variable {tab : Tab} {op : Operation}

theorem Progress.followsPolicy (h : Progress tab op) : FollowsPolicy op := by
  cases h with
  | calling => exact ⟨fun _ => rfl, by simp [invocations], by simp [invocations]⟩
  | awaiting => exact ⟨(nomatch ·), by simp [invocations], by simp [invocations]⟩
  | retrying hOther =>
    refine ⟨(nomatch ·), by simp [invocations], ?_⟩
    intro x y hBoth
    obtain ⟨rfl, rfl⟩ : _ = x ∧ _ = y := by simpa [invocations] using hBoth
    exact ⟨hOther, List.prefix_refl _⟩
  | once => exact ⟨fun _ => rfl, by simp [invocations], by simp [invocations]⟩
  | twice hOther =>
    refine ⟨(nomatch ·), by simp [invocations], ?_⟩
    intro x y hBoth
    obtain ⟨rfl, rfl⟩ : _ = x ∧ _ = y := by simpa [invocations] using hBoth
    exact ⟨hOther, List.prefix_append [_, _, _] [_]⟩

structure Shared (tab : Tab) : Prop where
  known : tab.activeSessionId ∈ tab.known
  connected : tab.activeSessionId ≠ ""
  current : tab.activeSessionId ∉ tab.replaced
  replaced : ∀ id ∈ tab.replaced, id ∈ tab.known
  holder : ∀ promise : Nat, tab.reconnectPromise = some promise →
    ∃ status, tab.reconnects[promise]? = some status ∧ status.isCleared = false
  held : ∀ (promise : Nat) (status : ReconnectStatus), tab.reconnects[promise]? = some status →
    status.isCleared = false → tab.reconnectPromise = some promise
  active : ∀ (promise : Nat) (id : SessionId), tab.reconnects[promise]? = some (.succeeded id) →
    tab.activeSessionId = id

structure Extends (tab tab' : Tab) : Prop where
  known : ∀ id ∈ tab.known, id ∈ tab'.known
  reconnects : ∀ (promise : Nat) (status : ReconnectStatus), tab.reconnects[promise]? = some status →
    ∃ status', tab'.reconnects[promise]? = some status' ∧
      ∀ a ∈ tab.known, status.outcome ≠ some a → status'.outcome ≠ some a

variable {tab' : Tab}

theorem Extends.of_same (hKnown : tab'.known = tab.known) (hReconnects : tab'.reconnects = tab.reconnects) : Extends tab tab' where
  known _ hMem := hKnown ▸ hMem
  reconnects _ status hStatus := ⟨status, hReconnects ▸ hStatus, fun _ _ h => h⟩

theorem Progress.extend (h : Extends tab tab') (hOp : Progress tab op) : Progress tab' op := by
  cases hOp with
  | calling hKnown => exact .calling (h.known _ hKnown)
  | awaiting hKnown hStatus hOther =>
    obtain ⟨status', hStatus', hKept⟩ := h.reconnects _ _ hStatus
    exact .awaiting (h.known _ hKnown) hStatus' (hKept _ hKnown hOther)
  | retrying hOther => exact .retrying hOther
  | once => exact .once
  | twice hOther => exact .twice hOther

structure Sound (tab : Tab) : Prop where
  shared : Shared tab
  operations : ∀ op ∈ tab.operations, Progress tab op

theorem Shared.of_same (h : Shared tab) (hActive : tab'.activeSessionId = tab.activeSessionId)
    (hPromise : tab'.reconnectPromise = tab.reconnectPromise) (hReconnects : tab'.reconnects = tab.reconnects)
    (hKnown : tab'.known = tab.known) (hReplaced : tab'.replaced = tab.replaced) : Shared tab' := by
  obtain ⟨_, _, _, _, _, _⟩ := tab'
  simp only at hActive hPromise hReconnects hKnown hReplaced
  subst hActive hPromise hReconnects hKnown hReplaced
  exact ⟨h.known, h.connected, h.current, h.replaced, h.holder, h.held, h.active⟩

theorem Sound.setOperation (h : Sound tab) (index : Nat) (hOp : Progress tab op) : Sound (tab.setOperation index op) where
  shared := h.shared.of_same rfl rfl rfl rfl rfl
  operations other hMem := by
    have hExtends : Extends tab (tab.setOperation index op) := .of_same rfl rfl
    obtain hOld | rfl := List.mem_or_eq_of_mem_set hMem
    · exact (h.operations other hOld).extend hExtends
    · exact hOp.extend hExtends

theorem Sound.call (h : Sound tab) (impact : SftpOperationImpact) : Sound (tab.call impact) := by
  unfold Tab.call
  rw [if_neg h.shared.connected]
  refine ⟨h.shared.of_same rfl rfl rfl rfl rfl, fun op hMem => ?_⟩
  have hExtends : Extends tab { tab with operations := tab.operations ++
      [Operation.invoke ⟨impact, [], .settled⟩ tab.activeSessionId (.calling tab.activeSessionId)] } := .of_same rfl rfl
  obtain hOld | hNew := List.mem_append.mp hMem
  · exact (h.operations op hOld).extend hExtends
  · obtain rfl := List.mem_singleton.mp hNew
    exact .calling h.shared.known

variable {l : List ReconnectStatus} {i : Nat} {status status' : ReconnectStatus}

theorem getElem?_snoc (h : (l ++ [status])[i]? = some status') : l[i]? = some status' ∨ (i = l.length ∧ status' = status) := by
  rw [List.getElem?_append] at h
  split at h
  · exact Or.inl h
  · next hEnd =>
    obtain ⟨hZero, rfl⟩ : i - l.length = 0 ∧ status = status' := by simpa [List.getElem?_singleton] using h
    exact Or.inr ⟨by omega, rfl⟩

theorem Sound.ensureSession (h : Sound tab) : Sound tab.ensureSession.2 := by
  unfold Tab.ensureSession
  cases hPromise : tab.reconnectPromise with
  | some promise => exact h
  | none =>
    simp only
    have hNone : ∀ (promise : Nat) (status : ReconnectStatus), tab.reconnects[promise]? = some status →
        status.isCleared = true := by
      intro promise status hStatus
      by_contra hOpen
      have hHeld := h.shared.held promise status hStatus (Bool.eq_false_iff.mpr hOpen)
      rw [hPromise] at hHeld
      contradiction
    have hExtends : Extends tab { tab with
        reconnects := tab.reconnects ++ [.running], reconnectPromise := some tab.reconnects.length } := by
      refine ⟨fun _ hMem => hMem, fun promise status hStatus => ⟨status, ?_, fun _ _ hOther => hOther⟩⟩
      rw [List.getElem?_append_left (List.getElem?_eq_some_iff.mp hStatus).1]
      exact hStatus
    refine ⟨⟨h.shared.known, h.shared.connected, h.shared.current, h.shared.replaced, ?_, ?_, ?_⟩,
      fun op hMem => (h.operations op hMem).extend hExtends⟩
    · intro promise hHeld
      obtain rfl := Option.some.inj hHeld
      exact ⟨.running, by simp, rfl⟩
    · intro promise status hStatus hOpen
      rcases getElem?_snoc hStatus with hOld | ⟨rfl, _⟩
      · rw [hNone promise status hOld] at hOpen
        contradiction
      · rfl
    · intro promise id hStatus
      rcases getElem?_snoc hStatus with hOld | ⟨_, hNew⟩
      · exact h.shared.active promise id hOld
      · contradiction

theorem Tab.ensureSession_spec (h : Sound tab) :
    ∃ status, tab.ensureSession.2.reconnects[tab.ensureSession.1]? = some status ∧ status.isCleared = false ∧
      tab.ensureSession.2.known = tab.known := by
  unfold Tab.ensureSession
  cases hPromise : tab.reconnectPromise with
  | some promise =>
    obtain ⟨status, hStatus, hOpen⟩ := h.shared.holder promise hPromise
    exact ⟨status, hStatus, hOpen, rfl⟩
  | none => exact ⟨.running, by simp, rfl, rfl⟩

theorem ensureSession_other (hStatus : tab.ensureSession.2.reconnects[tab.ensureSession.1]? = some status)
    (hOpen : status.isCleared = false) (hAnswered : tab.answersLater tab.activeSessionId = false) :
    status.outcome ≠ some tab.activeSessionId := by
  cases status with
  | running => exact nofun
  | failed => exact nofun
  | cleared outcome => contradiction
  | succeeded id =>
    intro hSame
    obtain rfl : id = tab.activeSessionId := Option.some.inj hSame
    have hOld : tab.reconnects[tab.ensureSession.1]? = some (.succeeded tab.activeSessionId) := by
      unfold Tab.ensureSession at hStatus ⊢
      cases hPromise : tab.reconnectPromise with
      | some promise =>
        simp only [hPromise] at hStatus
        exact hStatus
      | none =>
        simp only [hPromise] at hStatus
        rcases getElem?_snoc hStatus with hOld | ⟨_, hNew⟩
        · exact hOld
        · contradiction
    have hLater : tab.answersLater tab.activeSessionId = true := List.any_eq_true.mpr ⟨_, List.mem_of_getElem? hOld, decide_eq_true rfl⟩
    rw [hAnswered] at hLater
    contradiction

theorem Sound.recover (h : Sound tab) (index : Nat) {a : SessionId} (hKnown : a ∈ tab.known) (hLog : op.log = [.invoked a])
    (hAnswered : tab.answersLater a = false) : Sound (tab.recover index op a) := by
  obtain ⟨impact, log, suspension⟩ := op
  obtain rfl : log = [.invoked a] := hLog
  cases impact with
  | mutation =>
    simp only [Tab.recover]
    split
    · exact h.ensureSession.setOperation index .once
    · exact h.setOperation index .once
  | read =>
    simp only [Tab.recover]
    split
    · next hOther => exact h.setOperation index (.retrying (Ne.symm hOther.2))
    · next hSame =>
      have hActive : tab.activeSessionId = a := by
        by_contra hOther
        exact hSame ⟨h.shared.connected, hOther⟩
      obtain ⟨status, hStatus, hOpen, hKeeps⟩ := Tab.ensureSession_spec h
      have hOther := ensureSession_other hStatus hOpen (hActive ▸ hAnswered)
      exact h.ensureSession.setOperation index (.awaiting (hKeeps ▸ hKnown) hStatus (hActive ▸ hOther))

theorem Sound.answer (h : Sound tab) (index : Nat) (hOp : Progress tab op) (result : CallResult) : Sound (tab.answer index op result) := by
  unfold Tab.answer
  cases hOp with
  | calling hKnown =>
    simp only
    split
    · exact h
    · next hAnswered =>
      split
      · exact h.recover index hKnown rfl (Bool.eq_false_iff.mpr hAnswered)
      · exact h.setOperation index .once
  | awaiting => exact h
  | retrying hOther =>
    simp only
    split
    · exact h
    · exact h.setOperation index (.twice hOther)
  | once => exact h
  | twice => exact h

theorem Sound.resume (h : Sound tab) (index : Nat) (hOp : Progress tab op) : Sound (tab.resume index op) := by
  unfold Tab.resume
  cases hOp with
  | awaiting hKnown hStatus hOther =>
    simp only [hStatus]
    split
    · next hCleared =>
      obtain rfl := Option.some.inj hCleared
      exact h.setOperation index (.retrying fun hSame => hOther (congrArg some hSame.symm))
    · exact h.setOperation index .once
    · exact h
  | calling => exact h
  | retrying => exact h
  | once => exact h
  | twice => exact h

theorem getElem?_of_set {j : Nat} (h : (l.set i status)[j]? = some status') : (i = j ∧ status' = status) ∨ (i ≠ j ∧ l[j]? = some status') := by
  by_cases hSame : i = j
  · subst hSame
    rw [List.getElem?_set_self'] at h
    obtain ⟨_, _, rfl⟩ := Option.map_eq_some_iff.mp h
    exact Or.inl ⟨rfl, rfl⟩
  · rw [List.getElem?_set_ne hSame] at h
    exact Or.inr ⟨hSame, h⟩

theorem Shared.unique (h : Shared tab) {j : Nat} (hI : tab.reconnects[i]? = some status) (hOpenI : status.isCleared = false)
    (hJ : tab.reconnects[j]? = some status') (hOpenJ : status'.isCleared = false) : i = j :=
  Option.some.inj ((h.held i status hI hOpenI).symm.trans (h.held j status' hJ hOpenJ))

theorem getElem?_set_of_some {old : ReconnectStatus} (h : l[i]? = some old) (status : ReconnectStatus) :
    (l.set i status)[i]? = some status := by
  rw [List.getElem?_set_self (List.getElem?_eq_some_iff.mp h).1]

theorem Extends.set {promise : Nat} {old : ReconnectStatus} (hOld : tab.reconnects[promise]? = some old)
    (hKnown : ∀ id ∈ tab.known, id ∈ tab'.known) (hReconnects : tab'.reconnects = tab.reconnects.set promise status)
    (hOutcome : ∀ a ∈ tab.known, old.outcome ≠ some a → status.outcome ≠ some a) : Extends tab tab' where
  known := hKnown
  reconnects i current hCurrent := by
    rw [hReconnects]
    by_cases hSame : promise = i
    · subst hSame
      obtain rfl := Option.some.inj (hOld.symm.trans hCurrent)
      exact ⟨status, getElem?_set_of_some hOld status, hOutcome⟩
    · rw [List.getElem?_set_ne hSame]
      exact ⟨current, hCurrent, fun _ _ hOther => hOther⟩

theorem Sound.reconnectSucceeds (h : Sound tab) (promise : Nat) (id : SessionId) : Sound (tab.reconnectSucceeds promise id) := by
  unfold Tab.reconnectSucceeds
  split
  · next hRunning =>
    obtain ⟨hRunning, hFresh, hFull⟩ := hRunning
    have hHeld := h.shared.held promise .running hRunning rfl
    have hExtends : Extends tab { tab with
        activeSessionId := id, reconnects := tab.reconnects.set promise (.succeeded id), known := id :: tab.known,
        replaced := tab.activeSessionId :: tab.replaced } := by
      refine .set hRunning (fun _ hMem => List.mem_cons_of_mem _ hMem) rfl ?_
      rintro a hKnown - hSame
      obtain rfl := Option.some.inj hSame
      exact hFresh hKnown
    refine ⟨⟨List.mem_cons_self, hFull, ?_, ?_, ?_, ?_, ?_⟩, fun op hMem => (h.operations op hMem).extend hExtends⟩
    · intro hMem
      rcases List.mem_cons.mp hMem with hSame | hOld
      · have hId : id = tab.activeSessionId := hSame
        exact hFresh (hId ▸ h.shared.known)
      · exact hFresh (h.shared.replaced id hOld)
    · intro old hMem
      rcases List.mem_cons.mp hMem with rfl | hOld
      · exact List.mem_cons_of_mem _ h.shared.known
      · exact List.mem_cons_of_mem _ (h.shared.replaced old hOld)
    · intro i hPromise
      obtain rfl := Option.some.inj (hHeld.symm.trans hPromise)
      exact ⟨.succeeded id, getElem?_set_of_some hRunning _, rfl⟩
    · intro i status hStatus hOpen
      rcases getElem?_of_set hStatus with ⟨rfl, _⟩ | ⟨_, hOld⟩
      · exact hHeld
      · exact h.shared.held i status hOld hOpen
    · intro i other hStatus
      rcases getElem?_of_set hStatus with ⟨_, hNew⟩ | ⟨hOther, hOld⟩
      · exact (ReconnectStatus.succeeded.inj hNew).symm
      · exact absurd (h.shared.unique hRunning rfl hOld rfl) hOther
  · exact h

theorem Sound.reconnectFails (h : Sound tab) (promise : Nat) : Sound (tab.reconnectFails promise) := by
  unfold Tab.reconnectFails
  split
  · next hRunning =>
    have hHeld := h.shared.held promise .running hRunning rfl
    have hExtends : Extends tab { tab with reconnects := tab.reconnects.set promise .failed } :=
      .set hRunning (fun _ hMem => hMem) rfl fun _ _ _ => nofun
    refine ⟨⟨h.shared.known, h.shared.connected, h.shared.current, h.shared.replaced, ?_, ?_, ?_⟩,
      fun op hMem => (h.operations op hMem).extend hExtends⟩
    · intro i hPromise
      obtain rfl := Option.some.inj (hHeld.symm.trans hPromise)
      exact ⟨.failed, getElem?_set_of_some hRunning _, rfl⟩
    · intro i status hStatus hOpen
      rcases getElem?_of_set hStatus with ⟨rfl, _⟩ | ⟨_, hOld⟩
      · exact hHeld
      · exact h.shared.held i status hOld hOpen
    · intro i id hStatus
      rcases getElem?_of_set hStatus with ⟨_, hNew⟩ | ⟨_, hOld⟩
      · contradiction
      · exact h.shared.active i id hOld
  · exact h

theorem Sound.clearWith (h : Sound tab) {promise : Nat} (hStatus : tab.reconnects[promise]? = some status) (hOpen : status.isCleared = false) :
    Sound (tab.clearWith promise status.outcome) := by
  have hHeld := h.shared.held promise status hStatus hOpen
  have hExtends : Extends tab (tab.clearWith promise status.outcome) := .set hStatus (fun _ hMem => hMem) rfl fun _ _ hOther => hOther
  refine ⟨⟨h.shared.known, h.shared.connected, h.shared.current, h.shared.replaced, ?_, ?_, ?_⟩,
    fun op hMem => (h.operations op hMem).extend hExtends⟩
  · intro i hPromise
    simp only [Tab.clearWith, hHeld, if_pos] at hPromise
    contradiction
  · intro i other hOther hOtherOpen
    rcases getElem?_of_set hOther with ⟨_, rfl⟩ | ⟨hNe, hOld⟩
    · contradiction
    · exact absurd (h.shared.unique hStatus hOpen hOld hOtherOpen) hNe
  · intro i id hOther
    rcases getElem?_of_set hOther with ⟨_, hNew⟩ | ⟨_, hOld⟩
    · contradiction
    · exact h.shared.active i id hOld

theorem Sound.clear (h : Sound tab) (promise : Nat) : Sound (tab.clear promise) := by
  unfold Tab.clear
  split
  · next hStatus => exact h.clearWith hStatus rfl
  · next hStatus => exact h.clearWith hStatus rfl
  · exact h

theorem Sound.step (h : Sound tab) (event : TabEvent) : Sound (tab.step event) := by
  cases event with
  | call impact => exact h.call impact
  | answer index result =>
    simp only [Tab.step]
    split
    · next op hOp => exact h.answer index (h.operations op (List.mem_of_getElem? hOp)) result
    · exact h
  | reconnectSucceeds promise id => exact h.reconnectSucceeds promise id
  | reconnectFails promise => exact h.reconnectFails promise
  | clear promise => exact h.clear promise
  | resume index =>
    simp only [Tab.step]
    split
    · next op hOp => exact h.resume index (h.operations op (List.mem_of_getElem? hOp))
    · exact h

theorem sound_of_reachable (h : tabs.Reachable tab) : Sound tab := by
  refine h.invariant ?_ fun tab event _ hSound => hSound.step event
  rintro tab ⟨id, hFull, rfl⟩
  refine ⟨⟨List.mem_singleton_self id, hFull, List.not_mem_nil, nofun, nofun, nofun, nofun⟩, nofun⟩

theorem Tab.reconnects_setOperation (tab : Tab) (index : Nat) (op : Operation) : (tab.setOperation index op).reconnects = tab.reconnects := rfl

theorem Tab.recover_starts (h : Sound tab) {index : Nat} {id : SessionId}
    (hStarts : tab.reconnects.length < (tab.recover index op id).reconnects.length) : id = tab.activeSessionId := by
  by_contra hOther
  revert hStarts
  unfold Tab.recover
  simp only
  split
  · rw [if_pos ⟨h.shared.connected, Ne.symm hOther⟩, Tab.reconnects_setOperation]
    omega
  · rw [if_neg (not_or.mpr ⟨h.shared.connected, Ne.symm hOther⟩), Tab.reconnects_setOperation]
    omega

theorem Tab.step_starts (h : Sound tab) {event : TabEvent} (hStarts : tab.reconnects.length < (tab.step event).reconnects.length) :
    ∃ index op, event = .answer index .sessionNotFound ∧ tab.operations[index]? = some op ∧ op.suspension = .calling tab.activeSessionId := by
  cases event with
  | answer index result =>
    simp only [Tab.step] at hStarts
    cases hOp : tab.operations[index]? with
    | none =>
      simp only [hOp] at hStarts
      omega
    | some op =>
      simp only [hOp, Tab.answer] at hStarts
      split at hStarts
      · next id hCalling =>
        split at hStarts
        · omega
        · split at hStarts
          · next hResult =>
            obtain rfl := Tab.recover_starts h hStarts
            exact ⟨index, op, by rw [hResult], hOp, hCalling⟩
          · rw [Tab.reconnects_setOperation] at hStarts
            omega
      · split at hStarts
        · omega
        · rw [Tab.reconnects_setOperation] at hStarts
          omega
      · omega
  | call impact =>
    simp only [Tab.step, Tab.call] at hStarts
    split at hStarts
    · exact absurd hStarts (Nat.lt_irrefl _)
    · exact absurd hStarts (Nat.lt_irrefl _)
  | reconnectSucceeds promise id =>
    simp only [Tab.step, Tab.reconnectSucceeds] at hStarts
    split at hStarts
    · rw [List.length_set] at hStarts
      omega
    · omega
  | reconnectFails promise =>
    simp only [Tab.step, Tab.reconnectFails] at hStarts
    split at hStarts
    · rw [List.length_set] at hStarts
      omega
    · omega
  | clear promise =>
    simp only [Tab.step, Tab.clear] at hStarts
    split at hStarts
    · rw [Tab.clearWith, List.length_set] at hStarts
      omega
    · rw [Tab.clearWith, List.length_set] at hStarts
      omega
    · omega
  | resume index =>
    simp only [Tab.step, Tab.resume] at hStarts
    split at hStarts
    · split at hStarts
      · split at hStarts
        · rw [Tab.reconnects_setOperation] at hStarts
          omega
        · rw [Tab.reconnects_setOperation] at hStarts
          omega
        · omega
      · omega
    · omega

/-- In every run each call keeps to the policy, one reconnect runs at most, and none is started
for a call that failed on a session which a reconnect has replaced. -/
theorem passive_reconnect_policy {tab : Tab} (h : tabs.Reachable tab) : (∀ op ∈ tab.operations, FollowsPolicy op) ∧
    (∀ i j : Nat, tab.reconnects[i]? = some .running → tab.reconnects[j]? = some .running → i = j) ∧
    ∀ event, tab.reconnects.length < (tab.step event).reconnects.length →
      ∃ index op id, event = .answer index .sessionNotFound ∧ tab.operations[index]? = some op ∧
        op.suspension = .calling id ∧ id ∉ tab.replaced := by
  have hSound := sound_of_reachable h
  refine ⟨fun op hMem => (hSound.operations op hMem).followsPolicy, ?_, ?_⟩
  · intro i j hI hJ
    exact hSound.shared.unique hI rfl hJ rfl
  · intro event hStarts
    obtain ⟨index, op, hEvent, hOp, hCalling⟩ := Tab.step_starts hSound hStarts
    exact ⟨index, op, tab.activeSessionId, hEvent, hOp, hCalling, hSound.shared.current⟩

section Example

def sharedReconnect : List TabEvent :=
  [.call .read, .call .read, .call .mutation, .answer 0 .sessionNotFound, .answer 1 .sessionNotFound,
    .reconnectSucceeds 0 "b", .clear 0, .resume 0, .resume 1, .answer 2 .sessionNotFound, .answer 0 .ok]

theorem shared_reconnect_follows_policy : (∀ op ∈ (tabs.run (connected "a") sharedReconnect).operations, FollowsPolicy op) ∧
      (tabs.run (connected "a") sharedReconnect).reconnects = [.cleared (some "b")] := by
  have hStart : tabs.Reachable (connected "a") := .start ⟨"a", by decide, rfl⟩
  exact ⟨(passive_reconnect_policy (hStart.run sharedReconnect)).1, by decide⟩

end Example

end SftpPage
