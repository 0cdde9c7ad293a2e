import Cosmosh.SftpPage.RefreshCompletion

/-! # Directories kept under several names

A refresh invalidates the name it was given.
-/

namespace SftpPage

open Library Transition DirectoryPage

namespace DirectoryPage

def answeredAt (s : DirectoryPage) (directoryPath : Path) : Nat :=
  match s.directoryCache directoryPath with
  | some entry => entry.requestedAt
  | none => s.clock

end DirectoryPage

section Names

variable (resolve : Path → Path)

def Coherent (s : DirectoryPage) : Prop :=
  ∀ call ∈ s.calls, call.phase = .resolved → ∀ path ∈ call.paths, ∀ name, resolve name = resolve path →
    call.since ≤ s.answeredAt name

def OtherNamesFresh (s : DirectoryPage) : Prop :=
  ∀ call ∈ s.calls, call.phase ≠ .resolved → ∀ path ∈ call.paths, path ∈ s.pathsToInvalidate →
    ∀ name entry, resolve name = resolve path → name ∉ s.pathsToInvalidate →
      s.directoryCache name = some entry → call.since ≤ entry.requestedAt

def AnswerFresh (s : DirectoryPage) (load : Load) : Prop :=
  ∀ call ∈ s.calls, ∀ path ∈ call.paths, path ∈ call.invalidated → resolve load.path = resolve path →
    load.path ∉ call.invalidated → call.since ≤ load.requestedAt

structure NamesRefreshed (s : DirectoryPage) (event : PageEvent) : Prop where
  inTime : heardByRefresh s event = true
  turn : ∀ t, s.turnStart event = some t → OtherNamesFresh resolve t
  answer : ∀ index load, event = .respond index true → s.loads[index]? = some load → load.isPage = false →
    load.generation = s.currentGeneration load → AnswerFresh resolve s load

def Processed (call : RefreshCall) (load : Load) : Prop := call.invalidated ≠ [] ∧ (load.isPage = true ∨ load.path ∈ call.invalidated)

structure FreshListings (s : DirectoryPage) : Prop where
  generations : ∀ load ∈ s.loads, load.generation ≤ s.currentGeneration load
  since : ∀ call ∈ s.calls, call.since ≤ s.clock
  loads : ∀ call ∈ s.calls, ∀ load ∈ s.loads, load.generation = s.currentGeneration load → Processed call load →
    call.since ≤ load.requestedAt
  cache : ∀ call ∈ s.calls, ∀ path ∈ call.paths, path ∈ call.invalidated → ∀ name entry,
    resolve name = resolve path → s.directoryCache name = some entry → call.since ≤ entry.requestedAt

variable {resolve}

variable {s : DirectoryPage}

theorem FreshListings.proceeds {s' : DirectoryPage} (hFresh : FreshListings resolve s) (hProceeds : Proceeds s s') :
    FreshListings resolve s' := by
  refine ⟨fun load hLoad => ?_, fun call hCall => ?_, fun call hCall load hLoad hCurrent hProcessed => ?_,
    fun call hCall path hPath hInvalidated name entry hName hEntry => ?_⟩
  · rcases hProceeds.loads load hLoad with hOld | ⟨-, hGeneration⟩
    · exact (hFresh.generations load hOld).trans (hProceeds.generations load)
    · exact hGeneration
  · rw [hProceeds.calls] at hCall
    exact (hFresh.since call hCall).trans hProceeds.clock
  · rw [hProceeds.calls] at hCall
    rcases hProceeds.loads load hLoad with hOld | ⟨hClock, -⟩
    · have hBelow := hFresh.generations load hOld
      have hAbove := hProceeds.generations load
      exact hFresh.loads call hCall load hOld (by omega) hProcessed
    · exact (hFresh.since call hCall).trans hClock
  · rw [hProceeds.calls] at hCall
    exact hFresh.cache call hCall path hPath hInvalidated name entry hName (hProceeds.cache name entry hEntry)

theorem FreshListings.calls {s' : DirectoryPage} (hFresh : FreshListings resolve s) (hLoads : s'.loads = s.loads)
    (hTree : s'.treeGenerations = s.treeGenerations) (hPage : s'.loadGeneration = s.loadGeneration)
    (hCache : s'.directoryCache = s.directoryCache) (hClock : s'.clock = s.clock)
    (hCalls : ∀ call ∈ s'.calls, call.since ≤ s.clock ∧ (call.invalidated = [] ∨
      ∃ before ∈ s.calls, before.since = call.since ∧ before.paths = call.paths ∧
        before.invalidated = call.invalidated)) : FreshListings resolve s' := by
  have hCurrent : ∀ load, s'.currentGeneration load = s.currentGeneration load := by
    intro load
    rw [currentGeneration, currentGeneration, hTree, hPage]
  refine ⟨fun load hLoad => ?_, fun call hCall => ?_, fun call hCall load hLoad hGeneration hProcessed => ?_,
    fun call hCall path hPath hInvalidated name entry hName hEntry => ?_⟩
  · rw [hLoads] at hLoad
    rw [hCurrent]
    exact hFresh.generations load hLoad
  · rw [hClock]
    exact (hCalls call hCall).1
  · rw [hLoads] at hLoad
    rw [hCurrent] at hGeneration
    rcases (hCalls call hCall).2 with hNone | ⟨before, hBefore, hSince, -, hSame⟩
    · exact absurd hNone hProcessed.1
    · rw [← hSince]
      refine hFresh.loads before hBefore load hLoad hGeneration ?_
      rwa [Processed, hSame]
  · rw [hCache] at hEntry
    rcases (hCalls call hCall).2 with hNone | ⟨before, hBefore, hSince, hPaths, hSame⟩
    · rw [hNone] at hInvalidated
      exact absurd hInvalidated List.not_mem_nil
    · rw [← hSince]
      rw [← hPaths] at hPath
      rw [← hSame] at hInvalidated
      exact hFresh.cache before hBefore path hPath hInvalidated name entry hName hEntry

theorem FreshListings.addCall (hFresh : FreshListings resolve s) (paths : List Path) {since : Nat} (hSince : since ≤ s.clock)
    (owner : Bool) (phase : CallPhase) : FreshListings resolve (s.addCall paths since owner phase) := by
  refine hFresh.calls rfl rfl rfl rfl rfl fun call hCall => ?_
  rcases List.mem_append.mp hCall with hOld | hOwn
  · exact ⟨hFresh.since call hOld, .inr ⟨call, hOld, rfl, rfl, rfl⟩⟩
  · rw [List.mem_singleton.mp hOwn]
    exact ⟨hSince, .inl rfl⟩

theorem FreshListings.released (hFresh : FreshListings resolve s) :
    FreshListings resolve { s with refresh := .returned, calls := s.calls.map release } := by
  refine hFresh.calls rfl rfl rfl rfl rfl fun call hCall => ?_
  obtain ⟨before, hBefore, rfl⟩ := List.mem_map.mp hCall
  rw [release]
  split
  · exact ⟨hFresh.since before hBefore, .inr ⟨before, hBefore, rfl, rfl, rfl⟩⟩
  · exact ⟨hFresh.since before hBefore, .inr ⟨before, hBefore, rfl, rfl, rfl⟩⟩

theorem FreshListings.resumeCall (hFresh : FreshListings resolve s) {index : Nat} {call : RefreshCall}
    (hCall : s.calls[index]? = some call) : FreshListings resolve (s.resumeCall index call) := by
  have hMem := List.mem_of_getElem? hCall
  have hCalls : ∀ other ∈ s.calls.set index { call with phase := .resolved }, other.since ≤ s.clock ∧
      (other.invalidated = [] ∨ ∃ before ∈ s.calls, before.since = other.since ∧ before.paths = other.paths ∧
        before.invalidated = other.invalidated) := by
    intro other hOther
    rcases List.mem_or_eq_of_mem_set hOther with hOld | rfl
    · exact ⟨hFresh.since other hOld, .inr ⟨other, hOld, rfl, rfl, rfl⟩⟩
    · exact ⟨hFresh.since call hMem, .inr ⟨call, hMem, rfl, rfl, rfl⟩⟩
  rw [DirectoryPage.resumeCall]
  dsimp only
  split
  · exact hFresh.calls rfl rfl rfl rfl rfl hCalls
  · exact hFresh.calls rfl rfl rfl rfl rfl hCalls

theorem logRefresh_cases (paths requested : List Path) (call : RefreshCall) : logRefresh paths requested call = call ∨
    (call.phase ≠ .resolved ∧ logRefresh paths requested call =
      { call with invalidated := call.invalidated ++ paths, requested := call.requested ++ requested }) := by
  by_cases hResolved : call.phase = .resolved
  · exact .inl (if_pos hResolved)
  · exact .inr ⟨hResolved, if_neg hResolved⟩

theorem refreshTurn_loads (s : DirectoryPage) : ∀ load ∈ s.refreshTurn.loads, load ∈ s.loads ∨
    (load.requestedAt = s.clock ∧ load.generation ≤ s.refreshTurn.currentGeneration load) := by
  obtain ⟨generations, cache, started, hTurn, -, -, -, hStarted, -⟩ := s.refreshTurn_eq
  intro load hLoad
  have hAfter : s.refreshTurn.currentGeneration load =
      if load.isPage then s.loadGeneration + 1 else generations load.path := by
    rw [hTurn]
    rfl
  rw [hAfter]
  rw [hTurn] at hLoad
  rcases List.mem_append.mp hLoad with hFront | hOwn
  · rcases List.mem_append.mp hFront with hOld | hNew
    · exact .inl hOld
    · obtain ⟨hClock, hPage, hGeneration⟩ := hStarted load hNew
      exact .inr ⟨hClock, by simpa [hPage] using hGeneration⟩
  · rw [List.mem_singleton.mp hOwn]
    exact .inr ⟨rfl, le_rfl⟩

theorem refreshTurn_outdates {load : Load} (hBelow : load.generation ≤ s.currentGeneration load) :
    load.generation ≤ s.refreshTurn.currentGeneration load ∧ (load.generation = s.refreshTurn.currentGeneration load → load.isPage = false ∧
        load.path ∉ s.pathsToInvalidate ∧ load.generation = s.currentGeneration load) := by
  obtain ⟨generations, cache, started, hTurn, -, hMono, hAbove, -, -⟩ := s.refreshTurn_eq
  have hAfter : s.refreshTurn.currentGeneration load =
      if load.isPage then s.loadGeneration + 1 else generations load.path := by
    rw [hTurn]
    rfl
  rw [hAfter]
  rw [currentGeneration] at hBelow ⊢
  cases hPage : load.isPage with
  | true =>
    simp only [hPage, if_true] at hBelow ⊢
    exact ⟨by omega, fun hCurrent => by omega⟩
  | false =>
    have hPath := hMono load.path
    have hTaken := hAbove load.path
    simp only [hPage, Bool.false_eq_true, if_false] at hBelow ⊢
    refine ⟨by omega, fun hCurrent => ⟨trivial, fun hMem => ?_, by omega⟩⟩
    have hBumped := hTaken hMem
    omega

theorem FreshListings.refreshTurn (hFresh : FreshListings resolve s) (hNames : OtherNamesFresh resolve s) :
    FreshListings resolve s.refreshTurn := by
  obtain ⟨generations, cache, started, hTurn, hCache, -, -, -, -⟩ := s.refreshTurn_eq
  have hLoads := refreshTurn_loads s
  have hOlder := fun load hLoad => refreshTurn_outdates (hFresh.generations load hLoad)
  have hCalls : ∀ call ∈ s.refreshTurn.calls, ∃ before ∈ s.calls, ∃ requested,
      call = logRefresh s.pathsToInvalidate requested before := by
    rw [hTurn]
    intro call hCall
    obtain ⟨before, hBefore, rfl⟩ := List.mem_map.mp hCall
    exact ⟨before, hBefore, _, rfl⟩
  have hClock : s.refreshTurn.clock = s.clock := by rw [hTurn]
  refine ⟨fun load hLoad => ?_, fun call hCall => ?_, fun call hCall load hLoad hCurrent hProcessed => ?_,
    fun call hCall path hPath hInvalidated name entry hName hEntry => ?_⟩
  · rcases hLoads load hLoad with hOld | ⟨-, hGeneration⟩
    · exact (hOlder load hOld).1
    · exact hGeneration
  · obtain ⟨before, hBefore, requested, rfl⟩ := hCalls call hCall
    have hSince := hFresh.since before hBefore
    rw [hClock]
    rcases logRefresh_cases s.pathsToInvalidate requested before with hSame | ⟨-, hSame⟩ <;> rw [hSame] <;> exact hSince
  · obtain ⟨before, hBefore, requested, rfl⟩ := hCalls call hCall
    have hSince := hFresh.since before hBefore
    rcases logRefresh_cases s.pathsToInvalidate requested before with hSame | ⟨-, hSame⟩
    · rw [hSame] at hProcessed ⊢
      rcases hLoads load hLoad with hOld | ⟨hNow, -⟩
      · exact hFresh.loads before hBefore load hOld ((hOlder load hOld).2 hCurrent).2.2 hProcessed
      · exact hNow ▸ hSince
    · rw [hSame] at hProcessed ⊢
      rcases hLoads load hLoad with hOld | ⟨hNow, -⟩
      · obtain ⟨hPage, hNotTaken, hWas⟩ := (hOlder load hOld).2 hCurrent
        have hBefore' : load.path ∈ before.invalidated := by
          rcases hProcessed.2 with hIsPage | hMem
          · rw [hPage] at hIsPage
            contradiction
          · exact (List.mem_append.mp hMem).resolve_right hNotTaken
        exact hFresh.loads before hBefore load hOld hWas ⟨List.ne_nil_of_mem hBefore', .inr hBefore'⟩
      · exact hNow ▸ hSince
  · obtain ⟨before, hBefore, requested, rfl⟩ := hCalls call hCall
    have hKept : name ∉ s.pathsToInvalidate ∧ s.directoryCache name = some entry := by
      rw [hTurn] at hEntry
      have hAt := hCache name
      dsimp only at hEntry
      rw [hEntry] at hAt
      split at hAt
      · contradiction
      · rename_i hNot
        exact ⟨hNot, hAt.symm⟩
    rcases logRefresh_cases s.pathsToInvalidate requested before with hSame | ⟨hUnresolved, hSame⟩
    · rw [hSame] at hPath hInvalidated ⊢
      exact hFresh.cache before hBefore path hPath hInvalidated name entry hName hKept.2
    · rw [hSame] at hPath hInvalidated ⊢
      rcases List.mem_append.mp hInvalidated with hOld | hTaken
      · exact hFresh.cache before hBefore path hPath hOld name entry hName hKept.2
      · exact hNames before hBefore hUnresolved path hPath hTaken name entry hName hKept.1 hKept.2

theorem FreshListings.answered (hResolve : ∀ path, resolve (resolve path) = resolve path) (hFresh : FreshListings resolve s)
    {index : Nat} {load : Load} (hLoad : s.loads[index]? = some load) (success : Bool)
    (hAnswer : success = true → load.isPage = false → load.generation = s.currentGeneration load → AnswerFresh resolve s load) :
    FreshListings resolve (({ s with loads := s.loads.eraseIdx index }.keepAnswer resolve load success).afterAnswer load) := by
  have hMem : load ∈ s.loads := List.mem_of_getElem? hLoad
  have hErased : FreshListings resolve { s with loads := s.loads.eraseIdx index } :=
    ⟨fun other hOther => hFresh.generations other (List.mem_of_mem_eraseIdx hOther), hFresh.since,
      fun call hCall other hOther => hFresh.loads call hCall other (List.mem_of_mem_eraseIdx hOther), hFresh.cache⟩
  have hKept : FreshListings resolve ({ s with loads := s.loads.eraseIdx index }.keepAnswer resolve load success) := by
    rw [keepAnswer]
    split
    · rename_i hUsed
      obtain ⟨hSuccess, hCurrent⟩ : success = true ∧ load.generation = s.currentGeneration load := by
        simpa [currentGeneration] using hUsed
      refine ⟨hErased.generations, hErased.since, hErased.loads,
        fun call hCall path hPath hInvalidated name entry hName hEntry => ?_⟩
      rcases store_of_some hEntry with ⟨rfl, hOwn⟩ | hOld
      · have hSame : resolve load.path = resolve path := by
          rcases hOwn with rfl | rfl
          · exact hName
          · exact (hResolve load.path).symm.trans hName
        have hSome : call.invalidated ≠ [] := List.ne_nil_of_mem hInvalidated
        cases hPage : load.isPage with
        | true => exact hFresh.loads call hCall load hMem hCurrent ⟨hSome, .inl hPage⟩
        | false =>
          by_cases hProcessed : load.path ∈ call.invalidated
          · exact hFresh.loads call hCall load hMem hCurrent ⟨hSome, .inr hProcessed⟩
          · exact hAnswer hSuccess hPage hCurrent call hCall path hPath hInvalidated hSame hProcessed
      · exact hFresh.cache call hCall path hPath hInvalidated name entry hName hOld
    · exact hErased
  rw [afterAnswer]
  split
  · exact ⟨hKept.generations, hKept.since, hKept.loads, hKept.cache⟩
  · exact hKept

theorem step_fresh (hResolve : ∀ path, resolve (resolve path) = resolve path) (hFresh : FreshListings resolve s)
    {event : PageEvent} (hNames : NamesRefreshed resolve s event) : FreshListings resolve (s.step resolve event) := by
  rcases s.step_cases resolve event with hProceeds | ⟨index, load, hLoad, success, rfl, hProceeds⟩ |
    ⟨paths, since, rfl, hSince, hStep⟩ | ⟨rfl, hLoaded, hStep⟩ | ⟨index, call, hCall, hReleased, hStep⟩
  · exact hFresh.proceeds hProceeds
  · refine (hFresh.answered hResolve hLoad success fun hSuccess => ?_).proceeds hProceeds
    subst hSuccess
    exact hNames.answer index load rfl hLoad
  · rw [hStep, refreshCurrentDirectoryAfterOperation]
    cases hPhase : s.refresh with
    | idle => exact (hFresh.addCall paths hSince true .joined).refreshTurn (hNames.turn _ (if_pos ⟨hSince, hPhase⟩))
    | awaiting => exact hFresh.addCall paths hSince false .joined
    | loaded => exact hFresh.addCall paths hSince false .joined
    | returned => exact hFresh.addCall paths hSince false .released
  · rw [hStep, continueRefresh]
    split
    · exact hFresh.released
    · rename_i hPending
      exact hFresh.refreshTurn (hNames.turn s (if_pos ⟨hLoaded, hPending⟩))
  · rw [hStep]
    exact hFresh.resumeCall hCall

/-- While no call goes unheard, no turn leaves an older listing under another name and no older one is kept under
another name afterwards, what is shown of a refreshed directory was requested after its change. -/
theorem refreshed_directories_are_coherent (hResolve : ∀ path, resolve (resolve path) = resolve path)
    {s : DirectoryPage} (hReachable : (directoryPages resolve).ReachableWhile (NamesRefreshed resolve) s) : Coherent resolve s := by
  have hAll : OneRefresh s ∧ RefreshesHeard s ∧ FreshListings resolve s := by
    refine hReachable.invariant (P := fun s => OneRefresh s ∧ RefreshesHeard s ∧ FreshListings resolve s) ?_ ?_
    · rintro _ ⟨currentPath, rfl⟩
      exact ⟨opened_one currentPath, opened_heard currentPath, ⟨nofun, nofun, nofun, nofun⟩⟩
    · rintro s event ⟨hOne, hHeard, hFresh⟩ hNames
      exact ⟨step_one resolve hOne event, step_heard resolve hOne hHeard hNames.inTime,
        step_fresh hResolve hFresh hNames⟩
  obtain ⟨-, hHeard, hFresh⟩ := hAll
  intro call hCall hResolved path hPath name hName
  have hInvalidated := (hHeard.noRefreshLost.1 call hCall hResolved path hPath).1
  rw [answeredAt]
  split
  · rename_i entry hEntry
    exact hFresh.cache call hCall path hPath hInvalidated name entry hName hEntry
  · exact hFresh.since call hCall

end Names

/-- `/d` is the directory that the session starts in. -/
def startsInD (path : Path) : Path := if path = ['.'] then ['/', 'd'] else path

/-- A file is added to `/d` and the page refreshed. -/
def refreshOfD : List PageEvent := [.mutate, .refreshAfterOperation [['/', 'd']] 1, .respond 0 true, .continueRefresh, .resumeCall 0]

theorem startsInD_idempotent (path : Path) : startsInD (startsInD path) = startsInD path := by
  by_cases hPath : path = ['.'] <;> simp [startsInD, hPath]

theorem refresh_of_d_is_shown : Coherent startsInD ((directoryPages startsInD).run (opened ['/', 'd']) refreshOfD) := by
  have hQuiet : ∀ (s : DirectoryPage) event, heardByRefresh s event = true → s.turnStart event = none →
      (∀ index, event ≠ .respond index true) → NamesRefreshed startsInD s event := by
    intro s event hHeard hNoTurn hNoAnswer
    refine ⟨hHeard, fun t hTurn => ?_, fun index _ hEvent => absurd hEvent (hNoAnswer index)⟩
    rw [hNoTurn] at hTurn
    contradiction
  refine refreshed_directories_are_coherent startsInD_idempotent ?_
  refine .step (.step (.step (.step (.step (.start ⟨['/', 'd'], rfl⟩) ?_) ?_) ?_) ?_) ?_
  · exact hQuiet _ _ rfl rfl nofun
  · refine ⟨rfl, fun t hTurn => ?_, nofun⟩
    cases hTurn
    exact fun _ _ _ _ _ _ _ _ _ _ hCached => nomatch hCached
  · refine ⟨rfl, nofun, fun index load hIndex hLoad hTree => ?_⟩
    cases hIndex
    cases hLoad
    contradiction
  · exact hQuiet _ _ rfl rfl nofun
  · exact hQuiet _ _ rfl rfl nofun

/-- The page was opened as `.`, which the refresh of `/d` leaves in the cache. -/
def refreshOfStart : List PageEvent :=
  [.navigate ['.'], .respond 0 true, .commit, .mutate, .refreshAfterOperation [['/', 'd']] 1, .respond 1 true,
    .continueRefresh, .resumeCall 0]

theorem start_shows_what_was_there_before :
    (directoryPages startsInD).Reachable ((directoryPages startsInD).run (opened ['.']) refreshOfStart) ∧
    ¬ Coherent startsInD ((directoryPages startsInD).run (opened ['.']) refreshOfStart) ∧
    ((directoryPages startsInD).run (opened ['.']) refreshOfStart).answeredAt ['.'] = 0 ∧
    ((directoryPages startsInD).run (opened ['.']) refreshOfStart).answeredAt ['/', 'd'] = 1 := by
  have hStart : (directoryPages startsInD).Reachable (opened ['.']) := .start ⟨_, rfl⟩
  refine ⟨hStart.run refreshOfStart, fun hCoherent => ?_, by decide, by decide⟩
  have hShown := hCoherent ⟨[['/', 'd']], 1, true, .resolved, [['/', 'd']], [['/', 'd']]⟩ (by decide) rfl
    ['/', 'd'] (by decide) ['.'] (by decide)
  exact absurd hShown (by decide)

end SftpPage
