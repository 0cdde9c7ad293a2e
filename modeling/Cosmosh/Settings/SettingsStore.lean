import Cosmosh.Library.Transition

/-! # The settings store of the renderer

One snapshot is read by every component.
-/

namespace Settings

open Library.Transition

structure Answer (V : Type) where
  values : V
  saves : Nat
  deriving DecidableEq

/-- How far `initializeSettingsStore` and the refresh it starts have come. -/
inductive Startup (V : Type)
  | notCalled
  | applyingCached
  | rejected
  | requested
  | answered (response : Answer V)
  | applyingResponse
  | settled
  deriving DecidableEq

/-- Pages are rendered, and can save, after `initializeSettingsStore` has returned. -/
def Startup.isRendered {V : Type} : Startup V → Bool
  | .notCalled | .applyingCached | .rejected => false
  | .requested | .answered _ | .applyingResponse | .settled => true

def Startup.isPending {V : Type} : Startup V → Bool
  | .notCalled | .rejected | .settled => false
  | .applyingCached | .requested | .answered _ | .applyingResponse => true

structure SettingsStore (V : Type) where
  currentSnapshot : Answer V
  storeInitialized : Bool
  /-- What `readCachedSettings` finds. -/
  cache : Option (Answer V)
  /-- The values `applyRuntimeSettings` was called with last. -/
  applied : Option (Answer V)
  startup : Startup V
  /-- The calls of `updateSettingsStoreValues` that wait for `applyRuntimeSettings`. -/
  updating : Nat
  backend : Answer V
  /-- Answers to saves whose page has not gone on yet. -/
  responses : List (Answer V)
  /-- The updates applied so far. -/
  updates : List (Answer V)
  /-- No write to the cache was refused so far. -/
  allStored : Bool
  deriving DecidableEq

/-- `stored` tells whether `localStorage` takes the write. -/
inductive StoreEvent (V : Type)
  | bootstrap (stored : Bool)
  | cachedApplied (resolved : Bool)
  | backendAnswers
  | requestFails
  | refreshDelivered (stored : Bool)
  | refreshApplied
  | backendSaves (values : V)
  | update (position : Nat) (stored : Bool)
  | updateApplied

namespace SettingsStore

variable {V : Type}

def atLoad (defaults : V) (cached : Option V) (backend : V) : SettingsStore V where
  currentSnapshot := ⟨defaults, 0⟩
  storeInitialized := false
  cache := cached.map (⟨·, 0⟩)
  applied := none
  startup := .notCalled
  updating := 0
  backend := ⟨backend, 0⟩
  responses := []
  updates := []
  allStored := true

/-- The snapshot, then the cache, then `applyRuntimeSettings`, up to its first `await`. -/
def replace (s : SettingsStore V) (next : Answer V) (stored : Bool) : SettingsStore V :=
  { s with
    currentSnapshot := next
    cache := if stored then some next else s.cache
    applied := some next
    allStored := s.allStored && stored }

def initializeSettingsStore (defaults : V) (s : SettingsStore V) (stored : Bool) : SettingsStore V :=
  if s.storeInitialized then s
  else { s.replace (s.cache.getD ⟨defaults, 0⟩) stored with storeInitialized := true, startup := .applyingCached }

/-- The rest of `refreshSettingsFromBackend` once the response is there. -/
def refreshSettingsFromBackend (s : SettingsStore V) (response : Answer V) (stored : Bool) : SettingsStore V :=
  { s.replace response stored with startup := .applyingResponse }

def updateSettingsStoreValues (s : SettingsStore V) (values : Answer V) (stored : Bool) : SettingsStore V :=
  { s.replace values stored with updating := s.updating + 1, updates := s.updates ++ [values] }

def deliverable (s : SettingsStore V) (position : Nat) : Option (Answer V) :=
  if s.startup.isRendered then s.responses[position]? else none

/-- Whether a promise resolves or rejects matters for the start-up alone: `emitChange` only makes components read the snapshot again. -/
def step (defaults : V) (s : SettingsStore V) : StoreEvent V → SettingsStore V
  | .bootstrap stored => s.initializeSettingsStore defaults stored
  | .cachedApplied resolved =>
    match s.startup with
    | .applyingCached => { s with startup := if resolved then .requested else .rejected }
    | _ => s
  | .backendAnswers =>
    match s.startup with
    | .requested => { s with startup := .answered s.backend }
    | _ => s
  | .requestFails =>
    match s.startup with
    | .requested | .answered _ => { s with startup := .settled }
    | _ => s
  | .refreshDelivered stored =>
    match s.startup with
    | .answered response => s.refreshSettingsFromBackend response stored
    | _ => s
  | .refreshApplied =>
    match s.startup with
    | .applyingResponse => { s with startup := .settled }
    | _ => s
  | .backendSaves values =>
    let saved : Answer V := ⟨values, s.backend.saves + 1⟩
    { s with backend := saved, responses := s.responses ++ [saved] }
  | .update position stored =>
    match s.deliverable position with
    | some values => { s with responses := s.responses.eraseIdx position }.updateSettingsStoreValues values stored
    | none => s
  | .updateApplied => { s with updating := s.updating - 1 }

def machine (defaults : V) : Machine (SettingsStore V) (StoreEvent V) where
  initial := fun s => ∃ cached backend, s = atLoad defaults cached backend
  step := step defaults

def isIdle (s : SettingsStore V) : Bool := s.storeInitialized && !s.startup.isPending && s.updating == 0

structure UpToDate (s : SettingsStore V) : Prop where
  snapshot : ∀ update ∈ s.updates, update.saves ≤ s.currentSnapshot.saves
  cache : s.allStored = true → ∀ update ∈ s.updates, ∃ cached, s.cache = some cached ∧ update.saves ≤ cached.saves
  agree : s.isIdle = true → s.applied = some s.currentSnapshot ∧ (s.allStored = true → s.cache = some s.currentSnapshot)

def isNotOlder (s : SettingsStore V) (values : Answer V) : Bool := s.updates.all fun update => update.saves ≤ values.saves

def inOrder (s : SettingsStore V) : StoreEvent V → Bool
  | .refreshDelivered _ =>
    match s.startup with
    | .answered response => s.isNotOlder response
    | _ => true
  | .update position _ =>
    match s.deliverable position with
    | some values => s.isNotOlder values
    | none => true
  | _ => true

structure Together (s : SettingsStore V) : Prop where
  started : s.storeInitialized = true → s.applied = some s.currentSnapshot ∧ (s.allStored = true → s.cache = some s.currentSnapshot)
  before : s.storeInitialized = false → s.startup = .notCalled ∧ s.updates = []

variable {defaults : V} {s : SettingsStore V}

theorem replace_together (s : SettingsStore V) (next : Answer V) (stored : Bool) :
    (s.replace next stored).applied = some next ∧ ((s.replace next stored).allStored = true → (s.replace next stored).cache = some next) := by
  refine ⟨rfl, fun hStored => ?_⟩
  obtain ⟨-, rfl⟩ := Bool.and_eq_true_iff.mp hStored
  rfl

theorem Together.isInitialized (h : s.Together) (hStarted : s.startup ≠ .notCalled) : s.storeInitialized = true := by
  rw [← Bool.not_eq_false]
  intro hBefore
  exact hStarted (h.before hBefore).1

theorem Together.proceed (h : s.Together) (hStarted : s.startup ≠ .notCalled) (startup : Startup V) : Together { s with startup := startup } :=
  ⟨h.started, fun hBefore => absurd (h.before hBefore).1 hStarted⟩

theorem startup_of_deliverable {position : Nat} {values : Answer V} (h : s.deliverable position = some values) : s.startup ≠ .notCalled := by
  intro hBefore
  rw [deliverable, hBefore] at h
  cases h

theorem Together.step (h : s.Together) (event : StoreEvent V) : (s.step defaults event).Together := by
  cases event with
  | bootstrap stored =>
    rw [SettingsStore.step, initializeSettingsStore]
    split
    · exact h
    · exact ⟨fun _ => replace_together s _ stored, nofun⟩
  | cachedApplied resolved =>
    rw [SettingsStore.step]
    split
    · rename_i hStartup
      exact h.proceed (by simp [hStartup]) _
    · exact h
  | backendAnswers =>
    rw [SettingsStore.step]
    split
    · rename_i hStartup
      exact h.proceed (by simp [hStartup]) _
    · exact h
  | requestFails =>
    rw [SettingsStore.step]
    split
    · rename_i hStartup
      exact h.proceed (by simp [hStartup]) _
    · rename_i hStartup
      exact h.proceed (by simp [hStartup]) _
    · exact h
  | refreshDelivered stored =>
    rw [SettingsStore.step]
    split
    · rename_i response hStartup
      have hStarted := h.isInitialized (by simp [hStartup])
      exact ⟨fun _ => replace_together s response stored, fun hBefore => absurd (hStarted.symm.trans hBefore) nofun⟩
    · exact h
  | refreshApplied =>
    rw [SettingsStore.step]
    split
    · rename_i hStartup
      exact h.proceed (by simp [hStartup]) _
    · exact h
  | backendSaves values => exact ⟨h.started, h.before⟩
  | update position stored =>
    rw [SettingsStore.step]
    split
    · rename_i values hDelivered
      have hStarted := h.isInitialized (startup_of_deliverable hDelivered)
      exact ⟨fun _ => replace_together s values stored, fun hBefore => absurd (hStarted.symm.trans hBefore) nofun⟩
    · exact h
  | updateApplied => exact ⟨h.started, h.before⟩

theorem together_of_reachable (h : (machine defaults).Reachable s) : s.Together := by
  refine h.invariant ?_ fun s event _ hTogether => hTogether.step event
  rintro _ ⟨cached, backend, rfl⟩
  exact ⟨nofun, fun _ => ⟨rfl, rfl⟩⟩

theorem isNotOlder_iff {values : Answer V} : s.isNotOlder values = true ↔ ∀ update ∈ s.updates, update.saves ≤ values.saves := by
  simp [isNotOlder]

theorem Together.upToDate_iff (h : s.Together) : s.UpToDate ↔ s.isNotOlder s.currentSnapshot = true := by
  rw [isNotOlder_iff]
  refine ⟨UpToDate.snapshot, fun hSnapshot => ⟨hSnapshot, ?_, ?_⟩⟩
  · intro hStored update hUpdate
    have hStarted : s.storeInitialized = true := by
      rw [← Bool.not_eq_false]
      intro hBefore
      rw [(h.before hBefore).2] at hUpdate
      cases hUpdate
    exact ⟨s.currentSnapshot, (h.started hStarted).2 hStored, hSnapshot update hUpdate⟩
  · intro hIdle
    simp only [isIdle, Bool.and_eq_true] at hIdle
    exact h.started hIdle.1.1

theorem isNotOlder_step (h : s.Together) (hSnapshot : s.isNotOlder s.currentSnapshot = true) (event : StoreEvent V) :
    (s.step defaults event).isNotOlder (s.step defaults event).currentSnapshot = s.inOrder event := by
  cases event with
  | bootstrap stored =>
    rw [step, initializeSettingsStore]
    split
    · exact hSnapshot
    · rename_i hBefore
      refine isNotOlder_iff.mpr ?_
      intro update hUpdate
      have hNone : s.updates = [] := (h.before (by simpa using hBefore)).2
      rw [replace, hNone] at hUpdate
      cases hUpdate
  | cachedApplied resolved =>
    rw [step]
    split
    · exact hSnapshot
    · exact hSnapshot
  | backendAnswers =>
    rw [step]
    split
    · exact hSnapshot
    · exact hSnapshot
  | requestFails =>
    rw [step]
    split
    · exact hSnapshot
    · exact hSnapshot
    · exact hSnapshot
  | refreshDelivered stored =>
    rw [step, inOrder]
    cases s.startup with
    | answered response => rfl
    | _ => exact hSnapshot
  | refreshApplied =>
    rw [step]
    split
    · exact hSnapshot
    · exact hSnapshot
  | backendSaves values => exact hSnapshot
  | update position stored =>
    rw [step, inOrder]
    cases s.deliverable position with
    | none => exact hSnapshot
    | some values => simp [updateSettingsStoreValues, replace, isNotOlder]
  | updateApplied => exact hSnapshot

/-- The store is never rolled back exactly where nothing that arrives was overtaken on its way. -/
theorem store_upToDate_iff (defaults : V) (cached : Option V) (backend : V) (events : List (StoreEvent V)) :
    (∀ taken rest, events = taken ++ rest → ((machine defaults).run (atLoad defaults cached backend) taken).UpToDate) ↔
      (machine defaults).meets inOrder (atLoad defaults cached backend) events = true := by
  have hStart : (machine defaults).Reachable (atLoad defaults cached backend) := .start ⟨cached, backend, rfl⟩
  refine hStart.always_iff_meets ?_ ?_ events
  · intro s event hReachable hUpToDate
    have hTogether := together_of_reachable hReachable
    have hSnapshot := hTogether.upToDate_iff.mp hUpToDate
    have hNext : (s.step defaults event).UpToDate ↔ _ := (hTogether.step event).upToDate_iff
    rw [isNotOlder_step hTogether hSnapshot event] at hNext
    exact hNext
  · exact (together_of_reachable hStart).upToDate_iff.mpr rfl

def overtakenRefresh : List (StoreEvent String) :=
  [.bootstrap true, .cachedApplied true, .backendAnswers, .backendSaves "light", .update 0 true, .updateApplied, .refreshDelivered true,
    .refreshApplied]

theorem refresh_rolls_back : let s := (machine "dark").run (atLoad "dark" none "dark") overtakenRefresh
    s.isIdle = true ∧ s.updates = [⟨"light", 1⟩] ∧ s.currentSnapshot = ⟨"dark", 0⟩ ∧ s.cache = some ⟨"dark", 0⟩ ∧ s.backend = ⟨"light", 1⟩ ∧
      ¬ s.UpToDate := by
  refine ⟨rfl, rfl, rfl, rfl, rfl, fun hUpToDate => ?_⟩
  exact absurd (hUpToDate.snapshot ⟨"light", 1⟩ List.mem_cons_self) (by decide)

end SettingsStore

end Settings
