import Cosmosh.Library.JsText
import Cosmosh.Library.Transition
import Mathlib.Data.List.Dedup

/-! # The backend sessions of an SFTP tab

The connection effect and passive reconnects create sessions on two paths.
-/

namespace SftpPage.Ownership

open Library Library.Transition

abbrev SessionId := String

structure SftpConnectionIntent where
  serverId : String
  initialPath : Option Text
  createdAt : Nat
  deriving DecidableEq

/-- `connectionIntent?.serverId`, where an empty one counts as none. -/
def SftpConnectionIntent.server? (connectionIntent : Option SftpConnectionIntent) : Option SftpConnectionIntent :=
  connectionIntent.filter (·.serverId ≠ "")

inductive Awaiting
  | closePrevious
  | systemProxyRules
  | creation
  | fingerprintPrompt
  | fingerprintTrust
  | directory (nextSessionId : SessionId)
  | nothing
  deriving DecidableEq

structure EffectRun where
  intentIndex : Nat
  connectionIntent : Option SftpConnectionIntent
  isCancelled : Bool
  awaiting : Awaiting
  deriving DecidableEq

/-- `reconnectSftpSession`, with the paths that are left to try; the first one is being tried. -/
structure Reconnect where
  intentIndex : Nat
  connectionIntent : SftpConnectionIntent
  candidatePaths : List Text
  awaiting : Awaiting
  deriving DecidableEq

inductive Attempt
  | effect (index : Nat)
  | reconnect (index : Nat)
  deriving DecidableEq

structure Call where
  sentSessionId : SessionId
  intentIndex : Nat
  connectionIntent : Option SftpConnectionIntent
  deriving DecidableEq

structure CreatedSession where
  id : SessionId
  intentIndex : Nat
  serverId : String
  deriving DecidableEq

structure Activation where
  id : SessionId
  sessionIntent : Nat
  tabIntent : Nat
  deriving DecidableEq

/-- `closeRequests` are the sessions asked to close, `lost` those the backend no longer has. -/
structure Tab where
  mounted : Bool
  intentIndex : Nat
  connectionIntent : Option SftpConnectionIntent
  sessionIdRef : SessionId
  runs : List EffectRun
  reconnects : List Reconnect
  reconnectPromise : Option Nat
  fingerprintPrompt : Option Attempt
  calls : List Call
  created : List CreatedSession
  closeRequests : List SessionId
  lost : List SessionId
  activations : List Activation
  deriving DecidableEq

inductive CreateAnswer
  | created (id : SessionId)
  | hostUntrusted
  | failed
  deriving DecidableEq

inductive TabEvent
  | changeIntent (connectionIntent : Option SftpConnectionIntent)
  /-- Another dependency of the effect has changed. -/
  | rerunEffect
  | unmount
  | call
  /-- The backend does not know the session of the call, and the tab reconnects then. -/
  | sessionNotFound (index : Nat) (currentPath : Text)
  | callEnds (index : Nat)
  | lose (id : SessionId)
  | previousClosed (run : Nat)
  | proxyRules (attempt : Attempt) (resolved : Bool)
  | answer (attempt : Attempt) (answer : CreateAnswer)
  | resolvePrompt (accepted : Bool)
  | fingerprintTrusted (attempt : Attempt) (trusted : Bool)
  | directoryLoaded (run : Nat)
  deriving DecidableEq

namespace Tab

def setRun (tab : Tab) (index : Nat) (run : EffectRun) (awaiting : Awaiting) : Tab :=
  { tab with runs := tab.runs.set index { run with awaiting := awaiting } }

def setReconnect (tab : Tab) (index : Nat) (reconnect : Reconnect) (awaiting : Awaiting) : Tab :=
  { tab with reconnects := tab.reconnects.set index { reconnect with awaiting := awaiting } }

def closeSftpSession (tab : Tab) (id : SessionId) : Tab := { tab with closeRequests := tab.closeRequests ++ [id] }

/-- `sessionIdRef.current = nextSessionId` with `setSessionId(nextSessionId)`. -/
def activate (tab : Tab) (id : SessionId) (intentIndex : Nat) : Tab :=
  { tab with
    sessionIdRef := id
    activations := tab.activations ++ [⟨id, intentIndex, tab.intentIndex⟩] }

def candidatePaths (preferredPath : Text) (initialPath : Option Text) : List Text :=
  let fallbackPath := initialPath.getD ['.']
  let preferred := JsText.trim preferredPath
  if preferred = [] ∨ preferred = fallbackPath then [fallbackPath] else [preferred, fallbackPath]

def settleReconnect (tab : Tab) (index : Nat) (reconnect : Reconnect) : Tab :=
  { tab.setReconnect index reconnect .nothing with
    reconnectPromise := if tab.reconnectPromise = some index then none else tab.reconnectPromise }

/-- The `catch` of one candidate path. -/
def tryNextPath (tab : Tab) (index : Nat) (reconnect : Reconnect) : Tab :=
  match reconnect.candidatePaths with
  | _ :: next :: rest =>
    tab.setReconnect index { reconnect with candidatePaths := next :: rest } .creation
  | _ => tab.settleReconnect index reconnect

/-- `ensureSftpSessionForOperation` as the call's render captured it. -/
def ensureSession (tab : Tab) (call : Call) (currentPath : Text) : Tab :=
  match tab.reconnectPromise, SftpConnectionIntent.server? call.connectionIntent with
  | none, some connectionIntent =>
    { tab with
      reconnectPromise := some tab.reconnects.length
      reconnects := tab.reconnects ++ [⟨call.intentIndex, connectionIntent,
        candidatePaths currentPath connectionIntent.initialPath, .systemProxyRules⟩] }
  | _, _ => tab

/-- The `catch` of an operation; only a session that is still the active one is replaced. -/
def sessionNotFound (tab : Tab) (index : Nat) (currentPath : Text) : Tab :=
  match tab.calls[index]? with
  | some call =>
    if call.sentSessionId ∈ tab.lost then
      let answered := { tab with calls := tab.calls.eraseIdx index }
      if tab.sessionIdRef = "" ∨ tab.sessionIdRef = call.sentSessionId then answered.ensureSession call currentPath
      else answered
    else tab
  | none => tab

def abandon (tab : Tab) : Attempt → Tab
  | .effect index =>
    match tab.runs[index]? with
    | some run => tab.setRun index run .nothing
    | none => tab
  | .reconnect index =>
    match tab.reconnects[index]? with
    | some reconnect => tab.settleReconnect index reconnect
    | none => tab

def await (tab : Tab) (awaiting : Awaiting) : Attempt → Tab
  | .effect index =>
    match tab.runs[index]? with
    | some run => tab.setRun index run awaiting
    | none => tab
  | .reconnect index =>
    match tab.reconnects[index]? with
    | some reconnect => tab.setReconnect index reconnect awaiting
    | none => tab

def awaiting? (tab : Tab) : Attempt → Option Awaiting
  | .effect index => tab.runs[index]?.map (·.awaiting)
  | .reconnect index => tab.reconnects[index]?.map (·.awaiting)

def fail (tab : Tab) : Attempt → Tab
  | .effect index => tab.abandon (.effect index)
  | .reconnect index =>
    match tab.reconnects[index]? with
    | some reconnect => tab.tryNextPath index reconnect
    | none => tab

def resolveHostFingerprintPrompt (tab : Tab) (accepted : Bool) : Tab :=
  match tab.fingerprintPrompt with
  | some attempt =>
    let closed := { tab with fingerprintPrompt := none }
    if accepted then closed.await .fingerprintTrust attempt else closed.abandon attempt
  | none => tab

def cleanUpEffect (tab : Tab) : Tab :=
  { tab with runs := tab.runs.modify (tab.runs.length - 1) fun run => { run with isCancelled := true } }
    |>.resolveHostFingerprintPrompt false

def startEffect (tab : Tab) : Tab :=
  let run : EffectRun := ⟨tab.intentIndex, tab.connectionIntent, false, .nothing⟩
  match SftpConnectionIntent.server? tab.connectionIntent with
  | none => { tab with runs := tab.runs ++ [run] }
  | some _ =>
    if tab.sessionIdRef = "" then { tab with runs := tab.runs ++ [{ run with awaiting := .systemProxyRules }] }
    else { tab with runs := tab.runs ++ [{ run with awaiting := .closePrevious }] }.closeSftpSession tab.sessionIdRef

/-- `setSessionId('')`, which the next render brings to the ref. -/
def previousClosed (tab : Tab) (index : Nat) : Tab :=
  match tab.runs[index]? with
  | some run =>
    if run.awaiting = .closePrevious then
      let gone := tab.setRun index run .systemProxyRules
      if run.isCancelled then gone else { gone with sessionIdRef := "" }
    else tab
  | none => tab

def directoryLoaded (tab : Tab) (index : Nat) : Tab :=
  match tab.runs[index]? with
  | some run =>
    match run.awaiting with
    | .directory nextSessionId =>
      let loaded := tab.setRun index run .nothing
      if run.isCancelled then loaded.closeSftpSession nextSessionId else loaded
    | _ => tab
  | none => tab

/-- `cleanUpEffect` first, then the cleanup that closes the active session. -/
def unmount (tab : Tab) : Tab :=
  let cleaned := { tab.cleanUpEffect with mounted := false }
  if cleaned.sessionIdRef = "" then cleaned else cleaned.closeSftpSession cleaned.sessionIdRef

def sessionCreatedForEffect (tab : Tab) (index : Nat) (run : EffectRun) (id : SessionId) : Tab :=
  if run.isCancelled then (tab.setRun index run .nothing).closeSftpSession id
  else (tab.setRun index run (.directory id)).activate id run.intentIndex

def sessionCreatedForReconnect (tab : Tab) (index : Nat) (reconnect : Reconnect) (id : SessionId) : Tab :=
  (tab.settleReconnect index reconnect).activate id reconnect.intentIndex

def addCreated (tab : Tab) (session : CreatedSession) : Tab := { tab with created := tab.created ++ [session] }

def isKnown (tab : Tab) (id : SessionId) : Bool := tab.created.any (·.id = id)

def sessionCreated (tab : Tab) (attempt : Attempt) (id : SessionId) : Tab :=
  if id = "" ∨ tab.isKnown id = true then tab
  else
    match attempt with
    | .effect index =>
      match tab.runs[index]? with
      | some run =>
        let serverId := (run.connectionIntent.map (·.serverId)).getD ""
        (tab.addCreated ⟨id, run.intentIndex, serverId⟩).sessionCreatedForEffect index run id
      | none => tab
    | .reconnect index =>
      match tab.reconnects[index]? with
      | some reconnect =>
        let serverId := reconnect.connectionIntent.serverId
        (tab.addCreated ⟨id, reconnect.intentIndex, serverId⟩).sessionCreatedForReconnect index reconnect id
      | none => tab

def answer (tab : Tab) (attempt : Attempt) : CreateAnswer → Tab
  | .created id => tab.sessionCreated attempt id
  | .hostUntrusted => { tab.await .fingerprintPrompt attempt with fingerprintPrompt := some attempt }
  | .failed => tab.fail attempt

def step (tab : Tab) : TabEvent → Tab
  | .changeIntent connectionIntent =>
    if tab.mounted then
      { tab.cleanUpEffect with intentIndex := tab.intentIndex + 1, connectionIntent := connectionIntent }.startEffect
    else tab
  | .rerunEffect => if tab.mounted then tab.cleanUpEffect.startEffect else tab
  | .unmount => if tab.mounted then tab.unmount else tab
  | .call =>
    if tab.sessionIdRef = "" then tab
    else { tab with calls := tab.calls ++ [⟨tab.sessionIdRef, tab.intentIndex, tab.connectionIntent⟩] }
  | .sessionNotFound index currentPath => tab.sessionNotFound index currentPath
  | .callEnds index => { tab with calls := tab.calls.eraseIdx index }
  | .lose id => if tab.isKnown id then { tab with lost := tab.lost ++ [id] } else tab
  | .previousClosed run => tab.previousClosed run
  | .proxyRules attempt resolved =>
    if tab.awaiting? attempt = some .systemProxyRules then
      if resolved then tab.await .creation attempt else tab.abandon attempt
    else tab
  | .answer attempt answer => if tab.awaiting? attempt = some .creation then tab.answer attempt answer else tab
  | .resolvePrompt accepted => tab.resolveHostFingerprintPrompt accepted
  | .fingerprintTrusted attempt trusted =>
    if tab.awaiting? attempt = some .fingerprintTrust then
      if trusted then tab.await .creation attempt else tab.fail attempt
    else tab
  | .directoryLoaded run => tab.directoryLoaded run

def unopened (connectionIntent : Option SftpConnectionIntent) : Tab := ⟨true, 0, connectionIntent, "", [], [], none, none, [], [], [], [], []⟩

end Tab

def tabs : Machine Tab TabEvent where
  initial tab := ∃ connectionIntent, tab = (Tab.unopened connectionIntent).startEffect
  step := Tab.step

def Tab.Released (tab : Tab) (id : SessionId) : Prop := id ∈ tab.closeRequests ∨ id ∈ tab.lost

instance (tab : Tab) (id : SessionId) : Decidable (tab.Released id) := inferInstanceAs (Decidable (_ ∨ _))

def Tab.MayReplace (tab : Tab) : Prop := tab.sessionIdRef = "" ∨ tab.Released tab.sessionIdRef

instance (tab : Tab) : Decidable tab.MayReplace := inferInstanceAs (Decidable (_ ∨ _))

def Tab.Quiet (tab : Tab) : Prop :=
  (∀ run ∈ tab.runs, run.awaiting = .nothing) ∧ (∀ reconnect ∈ tab.reconnects, reconnect.awaiting = .nothing) ∧
    tab.calls = []

instance (tab : Tab) : Decidable tab.Quiet := inferInstanceAs (Decidable (_ ∧ _))

def Tab.OwnsSessions (tab : Tab) : Prop :=
  ∀ session ∈ tab.created, session.id ∉ tab.lost →
    (tab.mounted = true ∧ tab.sessionIdRef = session.id) ∨ session.id ∈ tab.closeRequests

def Tab.KeepsToIntent (tab : Tab) : Prop := ∀ activation ∈ tab.activations, activation.sessionIntent = activation.tabIntent

instance (tab : Tab) : Decidable tab.OwnsSessions :=
  inferInstanceAs (Decidable (∀ session ∈ tab.created, session.id ∉ tab.lost →
    (tab.mounted = true ∧ tab.sessionIdRef = session.id) ∨ session.id ∈ tab.closeRequests))

instance (tab : Tab) : Decidable tab.KeepsToIntent :=
  inferInstanceAs (Decidable (∀ activation ∈ tab.activations, activation.sessionIntent = activation.tabIntent))

def Tab.hands (tab : Tab) : TabEvent → Bool
  | .previousClosed index =>
    match tab.runs[index]? with
    | some run => run.isCancelled || tab.MayReplace
    | none => true
  | .answer (.effect index) (.created _) =>
    match tab.runs[index]? with
    | some run => run.isCancelled || tab.MayReplace
    | none => true
  | .answer (.reconnect index) (.created _) =>
    match tab.reconnects[index]? with
    | some reconnect => tab.mounted && reconnect.intentIndex = tab.intentIndex && tab.MayReplace
    | none => true
  | _ => true

structure Owned (tab : Tab) : Prop where
  sessions : tab.OwnsSessions
  intents : tab.KeepsToIntent
  named : ∀ session ∈ tab.created, session.id ≠ ""
  current : ∀ (index : Nat) (run : EffectRun), tab.runs[index]? = some run → run.isCancelled = false →
    tab.mounted = true ∧ index + 1 = tab.runs.length ∧ run.intentIndex = tab.intentIndex

structure Keeps (tab tab' : Tab) : Prop where
  mounted : tab'.mounted = tab.mounted
  intentIndex : tab'.intentIndex = tab.intentIndex
  sessionIdRef : tab'.sessionIdRef = tab.sessionIdRef
  created : tab'.created = tab.created
  activations : tab'.activations = tab.activations
  closeRequests : tab.closeRequests ⊆ tab'.closeRequests
  lost : tab.lost ⊆ tab'.lost
  length : tab'.runs.length = tab.runs.length
  runs : ∀ (index : Nat) (run' : EffectRun), tab'.runs[index]? = some run' → ∃ run, tab.runs[index]? = some run ∧
    run'.intentIndex = run.intentIndex ∧ (run'.isCancelled = false → run.isCancelled = false)

variable {tab tab' : Tab}

theorem Keeps.of_runs (hMounted : tab'.mounted = tab.mounted) (hIntent : tab'.intentIndex = tab.intentIndex)
    (hRef : tab'.sessionIdRef = tab.sessionIdRef) (hCreated : tab'.created = tab.created)
    (hActivations : tab'.activations = tab.activations) (hClose : tab.closeRequests ⊆ tab'.closeRequests)
    (hLost : tab.lost ⊆ tab'.lost) (hRuns : tab'.runs = tab.runs) : Keeps tab tab' := by
  refine ⟨hMounted, hIntent, hRef, hCreated, hActivations, hClose, hLost, by rw [hRuns], fun index run' hRun => ?_⟩
  rw [hRuns] at hRun
  exact ⟨run', hRun, rfl, id⟩

theorem Keeps.refl (tab : Tab) : Keeps tab tab := .of_runs rfl rfl rfl rfl rfl (List.Subset.refl _) (List.Subset.refl _) rfl

theorem Keeps.trans {tab'' : Tab} (h : Keeps tab tab') (h' : Keeps tab' tab'') : Keeps tab tab'' := by
  refine ⟨h'.mounted.trans h.mounted, h'.intentIndex.trans h.intentIndex, h'.sessionIdRef.trans h.sessionIdRef,
    h'.created.trans h.created, h'.activations.trans h.activations, List.Subset.trans h.closeRequests h'.closeRequests,
    List.Subset.trans h.lost h'.lost, h'.length.trans h.length, fun index run'' hRun'' => ?_⟩
  obtain ⟨run', hRun', hIntent', hFlag'⟩ := h'.runs index run'' hRun''
  obtain ⟨run, hRun, hIntent, hFlag⟩ := h.runs index run' hRun'
  exact ⟨run, hRun, hIntent'.trans hIntent, fun hCancelled => hFlag (hFlag' hCancelled)⟩

theorem keeps_setRun {index : Nat} {run : EffectRun} (hRun : tab.runs[index]? = some run) (awaiting : Awaiting) :
    Keeps tab (tab.setRun index run awaiting) := by
  refine ⟨rfl, rfl, rfl, rfl, rfl, List.Subset.refl _, List.Subset.refl _, List.length_set, fun other run' hOther => ?_⟩
  rw [Tab.setRun, List.getElem?_set] at hOther
  split at hOther
  · next hSame =>
    split at hOther
    · obtain rfl := Option.some.inj hOther
      exact ⟨run, hSame ▸ hRun, rfl, id⟩
    · contradiction
  · exact ⟨run', hOther, rfl, id⟩

theorem keeps_setReconnect (index : Nat) (reconnect : Reconnect) (awaiting : Awaiting) :
    Keeps tab (tab.setReconnect index reconnect awaiting) := .of_runs rfl rfl rfl rfl rfl (List.Subset.refl _) (List.Subset.refl _) rfl

theorem keeps_settleReconnect (index : Nat) (reconnect : Reconnect) : Keeps tab (tab.settleReconnect index reconnect) :=
  .of_runs rfl rfl rfl rfl rfl (List.Subset.refl _) (List.Subset.refl _) rfl

theorem keeps_closeSftpSession (id : SessionId) : Keeps tab (tab.closeSftpSession id) :=
  .of_runs rfl rfl rfl rfl rfl (List.subset_append_left _ _) (List.Subset.refl _) rfl

theorem keeps_await (awaiting : Awaiting) (attempt : Attempt) : Keeps tab (tab.await awaiting attempt) := by
  cases attempt with
  | effect index =>
    rw [Tab.await]
    split
    · next hRun => exact keeps_setRun hRun awaiting
    · exact .refl tab
  | reconnect index =>
    rw [Tab.await]
    split
    · exact keeps_setReconnect _ _ _
    · exact .refl tab

theorem keeps_abandon (attempt : Attempt) : Keeps tab (tab.abandon attempt) := by
  cases attempt with
  | effect index =>
    rw [Tab.abandon]
    split
    · next hRun => exact keeps_setRun hRun .nothing
    · exact .refl tab
  | reconnect index =>
    rw [Tab.abandon]
    split
    · exact keeps_settleReconnect _ _
    · exact .refl tab

theorem keeps_fail (attempt : Attempt) : Keeps tab (tab.fail attempt) := by
  cases attempt with
  | effect index =>
    rw [Tab.fail]
    exact keeps_abandon _
  | reconnect index =>
    rw [Tab.fail]
    split
    · rw [Tab.tryNextPath]
      split
      · exact keeps_setReconnect _ _ _
      · exact keeps_settleReconnect _ _
    · exact .refl tab

theorem keeps_resolveHostFingerprintPrompt (accepted : Bool) : Keeps tab (tab.resolveHostFingerprintPrompt accepted) := by
  rw [Tab.resolveHostFingerprintPrompt]
  split
  · next attempt _ =>
    have hClosed : Keeps tab { tab with fingerprintPrompt := none } :=
      .of_runs rfl rfl rfl rfl rfl (List.Subset.refl _) (List.Subset.refl _) rfl
    split
    · exact hClosed.trans (keeps_await _ attempt)
    · exact hClosed.trans (keeps_abandon attempt)
  · exact .refl tab

theorem keeps_ensureSession (call : Call) (currentPath : Text) : Keeps tab (tab.ensureSession call currentPath) := by
  rw [Tab.ensureSession]
  split
  · exact .of_runs rfl rfl rfl rfl rfl (List.Subset.refl _) (List.Subset.refl _) rfl
  · exact .refl tab

theorem keeps_sessionNotFound (index : Nat) (currentPath : Text) : Keeps tab (tab.sessionNotFound index currentPath) := by
  rw [Tab.sessionNotFound]
  split
  · next call _ =>
    split
    · have hAnswered : Keeps tab { tab with calls := tab.calls.eraseIdx index } :=
        .of_runs rfl rfl rfl rfl rfl (List.Subset.refl _) (List.Subset.refl _) rfl
      simp only
      split
      · exact hAnswered.trans (keeps_ensureSession call currentPath)
      · exact hAnswered
    · exact .refl tab
  · exact .refl tab

theorem keeps_directoryLoaded (index : Nat) : Keeps tab (tab.directoryLoaded index) := by
  rw [Tab.directoryLoaded]
  split
  · next run hRun =>
    split
    · next nextSessionId _ =>
      have hLoaded : Keeps tab (tab.setRun index run .nothing) := keeps_setRun hRun .nothing
      simp only
      split
      · exact hLoaded.trans (keeps_closeSftpSession nextSessionId)
      · exact hLoaded
    · exact .refl tab
  · exact .refl tab

theorem keeps_cleanUpEffect : Keeps tab tab.cleanUpEffect := by
  refine Keeps.trans ?_ (keeps_resolveHostFingerprintPrompt false)
  refine ⟨rfl, rfl, rfl, rfl, rfl, List.Subset.refl _, List.Subset.refl _, List.length_modify .., fun index run' hRun' => ?_⟩
  rw [List.getElem?_modify] at hRun'
  obtain ⟨run, hRun, rfl⟩ := Option.map_eq_some_iff.mp hRun'
  refine ⟨run, hRun, ?_, ?_⟩
  · split <;> rfl
  · split
    · nofun
    · exact id

section

variable (h : Owned tab)
include h

theorem Owned.keeps (hKeeps : Keeps tab tab') : Owned tab' := by
  constructor
  · intro session hMem hLost
    rw [hKeeps.created] at hMem
    obtain ⟨hMounted, hRef⟩ | hClose := h.sessions session hMem fun hOld => hLost (hKeeps.lost hOld)
    · exact .inl ⟨hKeeps.mounted.trans hMounted, hKeeps.sessionIdRef.trans hRef⟩
    · exact .inr (hKeeps.closeRequests hClose)
  · intro activation hMem
    rw [hKeeps.activations] at hMem
    exact h.intents activation hMem
  · rw [hKeeps.created]
    exact h.named
  · intro index run' hRun' hCancelled
    obtain ⟨run, hRun, hIntent, hFlag⟩ := hKeeps.runs index run' hRun'
    obtain ⟨hMounted, hLast, hCurrent⟩ := h.current index run hRun (hFlag hCancelled)
    exact ⟨hKeeps.mounted.trans hMounted, hLast.trans hKeeps.length.symm,
      hIntent.trans (hCurrent.trans hKeeps.intentIndex.symm)⟩

theorem Owned.cancelled : ∀ run ∈ tab.cleanUpEffect.runs, run.isCancelled = true := by
  intro run' hMem
  obtain ⟨index, hRun'⟩ := List.mem_iff_getElem?.mp hMem
  by_contra hCancelled
  obtain ⟨flagged, hFlagged, -, hFlag⟩ := (keeps_resolveHostFingerprintPrompt false).runs index run' hRun'
  have hLive := hFlag (by simpa using hCancelled)
  rw [List.getElem?_modify] at hFlagged
  obtain ⟨run, hRun, rfl⟩ := Option.map_eq_some_iff.mp hFlagged
  split at hLive
  · contradiction
  · next hOther =>
    have hLast := (h.current index run hRun hLive).2.1
    omega

theorem Owned.startEffect (hMounted : tab.mounted = true) {intentIndex : Nat} {connectionIntent : Option SftpConnectionIntent} :
    Owned { tab.cleanUpEffect with intentIndex := intentIndex, connectionIntent := connectionIntent }.startEffect := by
  have hCleaned := h.keeps keeps_cleanUpEffect
  have hStarted : ∀ run : EffectRun, run.intentIndex = intentIndex →
      Owned { tab.cleanUpEffect with
        intentIndex := intentIndex, connectionIntent := connectionIntent, runs := tab.cleanUpEffect.runs ++ [run] } := by
    intro run hIntent
    refine ⟨hCleaned.sessions, hCleaned.intents, hCleaned.named, fun index run' hRun' hCancelled => ?_⟩
    rw [List.getElem?_append] at hRun'
    split at hRun'
    · rw [h.cancelled run' (List.mem_of_getElem? hRun')] at hCancelled
      contradiction
    · next hOld =>
      obtain ⟨hLast, rfl⟩ := List.getElem?_eq_some_iff.mp hRun'
      rw [List.length_singleton] at hLast
      refine ⟨keeps_cleanUpEffect.mounted.trans hMounted, ?_, ?_⟩
      · rw [List.length_append, List.length_singleton]
        omega
      · rw [List.getElem_singleton]
        exact hIntent
  rw [Tab.startEffect]
  simp only
  split
  · exact hStarted _ rfl
  · split
    · exact hStarted _ rfl
    · exact (hStarted _ rfl).keeps (keeps_closeSftpSession _)

theorem Owned.unmount : Owned tab.unmount := by
  have hCleaned := h.keeps keeps_cleanUpEffect
  have hClosed : ∀ closeRequests, tab.cleanUpEffect.closeRequests ⊆ closeRequests →
      (tab.cleanUpEffect.sessionIdRef = "" ∨ tab.cleanUpEffect.sessionIdRef ∈ closeRequests) →
      Owned { tab.cleanUpEffect with mounted := false, closeRequests := closeRequests } := by
    intro closeRequests hClose hRef
    refine ⟨fun session hMem hLost => .inr ?_, hCleaned.intents, hCleaned.named, fun index run hRun hCancelled => ?_⟩
    · obtain ⟨-, hHeld⟩ | hOld := hCleaned.sessions session hMem hLost
      · rw [← hHeld]
        exact hRef.resolve_left (hHeld ▸ hCleaned.named session hMem)
      · exact hClose hOld
    · have hFlag := h.cancelled run (List.mem_of_getElem? hRun)
      rw [hFlag] at hCancelled
      contradiction
  rw [Tab.unmount]
  simp only
  split
  · next hRef => exact hClosed _ (List.Subset.refl _) (.inl hRef)
  · exact hClosed _ (List.subset_append_left _ _) (.inr (List.mem_append_right _ (List.mem_singleton.mpr rfl)))

theorem Owned.replaced (hMay : tab.MayReplace) : ∀ session ∈ tab.created, session.id ∉ tab.lost → session.id ∈ tab.closeRequests := by
  intro session hMem hLost
  obtain ⟨-, hHeld⟩ | hClose := h.sessions session hMem hLost
  · obtain hNone | hClose | hGone := hMay
    · exact absurd (hHeld.symm.trans hNone) (h.named session hMem)
    · exact hHeld ▸ hClose
    · exact absurd (hHeld ▸ hGone) hLost
  · exact hClose

theorem Owned.previousClosed (index : Nat) (hHands : tab.hands (.previousClosed index) = true) : Owned (tab.previousClosed index) := by
  rw [Tab.previousClosed]
  split
  · next run hRun =>
    split
    · have hGone : Owned (tab.setRun index run .systemProxyRules) := h.keeps (keeps_setRun hRun _)
      simp only
      split
      · exact hGone
      · next hLive =>
        have hMay : tab.MayReplace := by simpa [Tab.hands, hRun, hLive] using hHands
        exact ⟨fun session hMem hLost => .inr (h.replaced hMay session hMem hLost), hGone.intents, hGone.named,
          hGone.current⟩
    · exact h
  · exact h

end

section Created

variable {session : CreatedSession}

theorem Keeps.mem_created (h : Keeps (tab.addCreated session) tab') {other : CreatedSession}
    (hMem : other ∈ tab'.created) : other ∈ tab.created ∨ other = session := by
  rw [h.created] at hMem
  obtain hOld | hNew := List.mem_append.mp hMem
  · exact .inl hOld
  · exact .inr (List.mem_singleton.mp hNew)

theorem Owned.named_created (h : Owned tab) (hKeeps : Keeps (tab.addCreated session) tab') (hNamed : session.id ≠ "") :
    ∀ other ∈ tab'.created, other.id ≠ "" := by
  intro other hMem
  obtain hOld | rfl := hKeeps.mem_created hMem
  · exact h.named other hOld
  · exact hNamed

theorem Owned.current_created (h : Owned tab) (hKeeps : Keeps (tab.addCreated session) tab') (index : Nat)
    (run' : EffectRun) (hRun' : tab'.runs[index]? = some run') (hCancelled : run'.isCancelled = false) :
    tab'.mounted = true ∧ index + 1 = tab'.runs.length ∧ run'.intentIndex = tab'.intentIndex := by
  obtain ⟨run, hRun, hSame, hFlag⟩ := hKeeps.runs index run' hRun'
  obtain ⟨hMounted, hLast, hCurrent⟩ := h.current index run hRun (hFlag hCancelled)
  exact ⟨hKeeps.mounted.trans hMounted, hLast.trans hKeeps.length.symm,
    hSame.trans (hCurrent.trans hKeeps.intentIndex.symm)⟩

theorem Owned.takesOver (h : Owned tab) (hMounted : tab.mounted = true) (hMay : tab.MayReplace)
    (hNamed : session.id ≠ "") (hIntent : session.intentIndex = tab.intentIndex)
    (hKeeps : Keeps (tab.addCreated session) tab') : Owned (tab'.activate session.id session.intentIndex) := by
  have hAllNamed := h.named_created hKeeps hNamed
  have hAllCurrent := h.current_created hKeeps
  refine ⟨fun other hMem hLost => ?_, fun activation hMem => ?_, hAllNamed, hAllCurrent⟩
  · obtain hOld | rfl := hKeeps.mem_created hMem
    · exact .inr (hKeeps.closeRequests (h.replaced hMay other hOld fun hGone => hLost (hKeeps.lost hGone)))
    · exact .inl ⟨hKeeps.mounted.trans hMounted, rfl⟩
  · obtain hOld | hNew := List.mem_append.mp hMem
    · exact h.intents activation (hKeeps.activations ▸ hOld)
    · obtain rfl := List.mem_singleton.mp hNew
      exact hIntent.trans hKeeps.intentIndex.symm

theorem Owned.refuses (h : Owned tab) (hNamed : session.id ≠ "") (hKeeps : Keeps (tab.addCreated session) tab') :
    Owned (tab'.closeSftpSession session.id) := by
  have hAllNamed := h.named_created hKeeps hNamed
  have hAllCurrent := h.current_created hKeeps
  refine ⟨fun other hMem hLost => ?_, fun activation hMem => ?_, hAllNamed, hAllCurrent⟩
  · obtain hOld | rfl := hKeeps.mem_created hMem
    · obtain ⟨hMounted, hHeld⟩ | hClose := h.sessions other hOld fun hGone => hLost (hKeeps.lost hGone)
      · exact .inl ⟨hKeeps.mounted.trans hMounted, hKeeps.sessionIdRef.trans hHeld⟩
      · exact .inr (List.mem_append_left _ (hKeeps.closeRequests hClose))
    · exact .inr (List.mem_append_right _ (List.mem_singleton.mpr rfl))
  · exact h.intents activation (hKeeps.activations ▸ hMem)

end Created

theorem Owned.sessionCreated (h : Owned tab) (attempt : Attempt) (id : SessionId)
    (hHands : tab.hands (.answer attempt (.created id)) = true) : Owned (tab.sessionCreated attempt id) := by
  unfold Tab.sessionCreated
  split
  · exact h
  · next hFresh =>
    have hNamed : id ≠ "" := fun hEmpty => hFresh (.inl hEmpty)
    cases attempt with
    | effect index =>
      simp only
      split
      · next run hRun =>
        have hKeeps : ∀ serverId awaiting, Keeps (tab.addCreated ⟨id, run.intentIndex, serverId⟩)
            ((tab.addCreated ⟨id, run.intentIndex, serverId⟩).setRun index run awaiting) := by
          intro serverId awaiting
          have hSame : (tab.addCreated ⟨id, run.intentIndex, serverId⟩).runs[index]? = some run := hRun
          exact keeps_setRun hSame awaiting
        rw [Tab.sessionCreatedForEffect]
        split
        · exact h.refuses hNamed (hKeeps _ .nothing)
        · next hLive =>
          have hMay : tab.MayReplace := by simpa [Tab.hands, hRun, hLive] using hHands
          obtain ⟨hMounted, -, hCurrent⟩ := h.current index run hRun (by simpa using hLive)
          exact h.takesOver hMounted hMay hNamed hCurrent (hKeeps _ (.directory id))
      · exact h
    | reconnect index =>
      simp only
      split
      · next reconnect hReconnect =>
        obtain ⟨⟨hMounted, hCurrent⟩, hMay⟩ : (tab.mounted = true ∧ reconnect.intentIndex = tab.intentIndex) ∧
            tab.MayReplace := by simpa [Tab.hands, hReconnect] using hHands
        exact h.takesOver hMounted hMay hNamed hCurrent (keeps_settleReconnect index reconnect)
      · exact h

theorem Owned.step (h : Owned tab) (event : TabEvent) (hHands : tab.hands event = true) : Owned (tab.step event) := by
  cases event with
  | changeIntent connectionIntent =>
    rw [Tab.step]
    split
    · next hMounted => exact h.startEffect hMounted
    · exact h
  | rerunEffect =>
    rw [Tab.step]
    split
    · next hMounted => exact h.startEffect hMounted
    · exact h
  | unmount =>
    rw [Tab.step]
    split
    · exact h.unmount
    · exact h
  | call =>
    rw [Tab.step]
    split
    · exact h
    · exact h.keeps (.of_runs rfl rfl rfl rfl rfl (List.Subset.refl _) (List.Subset.refl _) rfl)
  | sessionNotFound index currentPath => exact h.keeps (keeps_sessionNotFound index currentPath)
  | callEnds index => exact h.keeps (.of_runs rfl rfl rfl rfl rfl (List.Subset.refl _) (List.Subset.refl _) rfl)
  | lose id =>
    rw [Tab.step]
    split
    · exact h.keeps (.of_runs rfl rfl rfl rfl rfl (List.Subset.refl _) (List.subset_append_left _ _) rfl)
    · exact h
  | previousClosed run => exact h.previousClosed run hHands
  | proxyRules attempt resolved =>
    rw [Tab.step]
    split
    · split
      · exact h.keeps (keeps_await _ attempt)
      · exact h.keeps (keeps_abandon attempt)
    · exact h
  | answer attempt answer =>
    rw [Tab.step]
    split
    · cases answer with
      | created id => exact h.sessionCreated attempt id hHands
      | hostUntrusted =>
        have hPrompted : Keeps (tab.await .fingerprintPrompt attempt) (tab.answer attempt .hostUntrusted) :=
          .of_runs rfl rfl rfl rfl rfl (List.Subset.refl _) (List.Subset.refl _) rfl
        exact h.keeps ((keeps_await _ attempt).trans hPrompted)
      | failed => exact h.keeps (keeps_fail attempt)
    · exact h
  | resolvePrompt accepted => exact h.keeps (keeps_resolveHostFingerprintPrompt accepted)
  | fingerprintTrusted attempt trusted =>
    rw [Tab.step]
    split
    · split
      · exact h.keeps (keeps_await _ attempt)
      · exact h.keeps (keeps_fail attempt)
    · exact h
  | directoryLoaded run => exact h.keeps (keeps_directoryLoaded run)

end SftpPage.Ownership
