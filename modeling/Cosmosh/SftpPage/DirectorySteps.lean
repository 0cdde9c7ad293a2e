import Cosmosh.SftpPage.DirectoryState

/-! # What a step of a directory page can do

Loads begin with newer generations and with the present time, a kept listing goes or stays.
-/

namespace SftpPage

open Library Transition

namespace DirectoryPage

def awaitedLoads (s : DirectoryPage) : Nat := s.loads.countP fun load => load.owner = .refresh

structure Proceeds (s s' : DirectoryPage) : Prop where
  pending : s'.pendingRefreshPaths = s.pendingRefreshPaths
  calls : s'.calls = s.calls
  refresh : s'.refresh = s.refresh
  clock : s.clock ≤ s'.clock
  awaited : s'.awaitedLoads = s.awaitedLoads
  generations : ∀ load, s.currentGeneration load ≤ s'.currentGeneration load
  loads : ∀ load ∈ s'.loads, load ∈ s.loads ∨
    (s.clock ≤ load.requestedAt ∧ load.generation ≤ s'.currentGeneration load)
  cache : ∀ path entry, s'.directoryCache path = some entry → s.directoryCache path = some entry

variable {s s' : DirectoryPage}

theorem proceeds_of_same (hPending : s'.pendingRefreshPaths = s.pendingRefreshPaths) (hCalls : s'.calls = s.calls)
    (hRefresh : s'.refresh = s.refresh) (hClock : s.clock ≤ s'.clock) (hLoads : s'.loads = s.loads)
    (hTree : s'.treeGenerations = s.treeGenerations) (hPage : s'.loadGeneration = s.loadGeneration)
    (hCache : s'.directoryCache = s.directoryCache) : Proceeds s s' where
  pending := hPending
  calls := hCalls
  refresh := hRefresh
  clock := hClock
  awaited := by rw [awaitedLoads, hLoads, awaitedLoads]
  generations load := by rw [currentGeneration, currentGeneration, hTree, hPage]
  loads load hLoad := .inl (hLoads ▸ hLoad)
  cache path entry hEntry := hCache ▸ hEntry

theorem proceeds_refl (s : DirectoryPage) : Proceeds s s := proceeds_of_same rfl rfl rfl le_rfl rfl rfl rfl rfl

theorem Proceeds.trans {t u : DirectoryPage} (hFirst : Proceeds s t) (hSecond : Proceeds t u) : Proceeds s u where
  pending := hSecond.pending.trans hFirst.pending
  calls := hSecond.calls.trans hFirst.calls
  refresh := hSecond.refresh.trans hFirst.refresh
  clock := hFirst.clock.trans hSecond.clock
  awaited := hSecond.awaited.trans hFirst.awaited
  generations load := (hFirst.generations load).trans (hSecond.generations load)
  loads load hLoad := by
    rcases hSecond.loads load hLoad with hOld | ⟨hClock, hGeneration⟩
    · rcases hFirst.loads load hOld with hOlder | ⟨hClock, hGeneration⟩
      · exact .inl hOlder
      · exact .inr ⟨hClock, hGeneration.trans (hSecond.generations load)⟩
    · exact .inr ⟨hFirst.clock.trans hClock, hGeneration⟩
  cache path entry hEntry := hFirst.cache path entry (hSecond.cache path entry hEntry)

theorem awaited_none {started : List Load} (hStarted : ∀ load ∈ started, load.isPage = false) :
    started.countP (fun load => load.owner = .refresh) = 0 := by
  rw [List.countP_eq_zero]
  intro load hLoad
  rw [owner_of_not_page (hStarted load hLoad)]
  decide

theorem TreeLoadsBegun.proceeds (hBegun : TreeLoadsBegun s s') : Proceeds s s' := by
  obtain ⟨generations, started, rfl, hMono, hStarted⟩ := hBegun
  have hNone := awaited_none fun load hLoad => (hStarted load hLoad).2.1
  refine ⟨rfl, rfl, rfl, le_rfl, by simp [awaitedLoads, List.countP_append, hNone], fun load => ?_,
    fun load hLoad => ?_, fun _ _ => id⟩
  · rw [currentGeneration, currentGeneration]
    split
    · exact le_rfl
    · exact hMono load.path
  · rcases List.mem_append.mp hLoad with hOld | hNew
    · exact .inl hOld
    · obtain ⟨hClock, hPage, hGeneration⟩ := hStarted load hNew
      refine .inr ⟨hClock.ge, ?_⟩
      rw [currentGeneration, hPage]
      exact hGeneration

theorem beginLoad_proceeds (s : DirectoryPage) (directoryPath : Path) : Proceeds s (s.beginLoad directoryPath) where
  pending := rfl
  calls := rfl
  refresh := rfl
  clock := le_rfl
  awaited := rfl
  generations load := by
    rw [currentGeneration, currentGeneration]
    split
    · exact Nat.le_succ s.loadGeneration
    · exact le_rfl
  loads _ := .inl
  cache _ _ := id

variable {owner : LoadOwner}

section

variable (s : DirectoryPage)

theorem requestPage_proceeds (directoryPath : Path) (preserveCurrentView : Bool) (hOwner : owner ≠ .refresh) :
    Proceeds s (s.requestPage directoryPath preserveCurrentView owner) := by
  have hMarked : ∀ t : DirectoryPage, Proceeds s t → t.loadGeneration = s.loadGeneration → t.clock = s.clock →
      Proceeds s (t.request directoryPath (.page s.loadGeneration preserveCurrentView owner)) := by
    intro t hProceeds hGeneration hClock
    refine ⟨hProceeds.pending, hProceeds.calls, hProceeds.refresh, hProceeds.clock, ?_, hProceeds.generations,
      fun load hLoad => ?_, hProceeds.cache⟩
    · rw [← hProceeds.awaited]
      simp [awaitedLoads, request, List.countP_append, Load.owner, hOwner]
    · rcases List.mem_append.mp hLoad with hOld | hNew
      · exact hProceeds.loads load hOld
      · rw [List.mem_singleton.mp hNew]
        exact .inr ⟨hClock.ge, hGeneration.ge⟩
  rw [requestPage]
  cases preserveCurrentView <;>
    exact hMarked _ (proceeds_of_same rfl rfl rfl le_rfl rfl rfl rfl rfl) rfl rfl

theorem loadDirectory_proceeds (directoryPath : Path) (forceRefresh preserveCurrentView : Bool) (hOwner : owner ≠ .refresh) :
    Proceeds s (s.loadDirectory directoryPath forceRefresh preserveCurrentView owner).1 := by
  have hBegun := s.beginLoad_proceeds directoryPath
  rcases s.loadDirectory_cases directoryPath forceRefresh preserveCurrentView owner with
    ⟨entry, -, -, hTreeLoads, -⟩ | hRequested
  · have hApplied : Proceeds (s.beginLoad directoryPath)
        ((s.beginLoad directoryPath).applyDirectoryCacheEntry entry) := proceeds_of_same rfl rfl rfl le_rfl rfl rfl rfl rfl
    exact (hBegun.trans hApplied).trans hTreeLoads.proceeds
  · rw [hRequested]
    exact hBegun.trans (requestPage_proceeds _ directoryPath preserveCurrentView hOwner)

theorem invalidateDirectoryCache_proceeds (directoryPath : Path) : Proceeds s (s.invalidateDirectoryCache directoryPath) where
  pending := rfl
  calls := rfl
  refresh := rfl
  clock := le_rfl
  awaited := rfl
  generations load := by
    rw [currentGeneration, currentGeneration]
    split
    · exact le_rfl
    · exact le_bumped s.treeGenerations directoryPath load.path
  loads _ := .inl
  cache path entry hEntry := by
    by_cases hPath : path = directoryPath
    · simp [invalidateDirectoryCache, hPath] at hEntry
    · simpa [invalidateDirectoryCache, hPath] using hEntry

theorem notifyOwner_proceeds (hOwner : owner ≠ .refresh) (listed : Bool) (result : Option Path) :
    Proceeds s (s.notifyOwner owner listed result) := by
  cases owner with
  | navigation index => exact proceeds_of_same rfl rfl rfl le_rfl rfl rfl rfl rfl
  | refresh => contradiction
  | nobody => exact s.proceeds_refl

theorem navigateToPath_proceeds (directoryPath : Path) : Proceeds s (s.navigateToPath directoryPath) := by
  rw [navigateToPath]
  have hAdded : ∀ target outcome, Proceeds s (s.addNavigation target outcome) :=
    fun _ _ => proceeds_of_same rfl rfl rfl le_rfl rfl rfl rfl rfl
  split
  · exact hAdded _ _
  · have hOwner : LoadOwner.navigation s.navigations.length ≠ .refresh := nofun
    have hLoaded := (hAdded (JsText.trim directoryPath) none).trans
      (loadDirectory_proceeds _ (JsText.trim directoryPath) false false hOwner)
    dsimp only
    split
    · exact hLoaded.trans (notifyOwner_proceeds _ hOwner _ _)
    · exact hLoaded

theorem refreshTreeDirectory_proceeds (directoryPath : Path) : Proceeds s (s.refreshTreeDirectory directoryPath) := by
  have hInvalidated := s.invalidateDirectoryCache_proceeds directoryPath
  rw [refreshTreeDirectory]
  split
  · exact hInvalidated.trans (loadDirectory_proceeds _ _ _ _ nofun)
  · exact hInvalidated.trans (loadTreeDirectoryChildren_begun _ _).proceeds

end

def afterAnswer (s : DirectoryPage) (load : Load) : DirectoryPage :=
  if load.owner = .refresh then { s with refresh := .loaded } else s

theorem notifyOwner_afterAnswer {load : Load} (hProceeds : Proceeds s s') (listed : Bool) (result : Option Path) :
    Proceeds (s.afterAnswer load) (s'.notifyOwner load.owner listed result) := by
  rw [afterAnswer]
  split
  · rename_i hOwner
    rw [hOwner]
    exact ⟨hProceeds.pending, hProceeds.calls, rfl, hProceeds.clock, hProceeds.awaited, hProceeds.generations,
      hProceeds.loads, hProceeds.cache⟩
  · rename_i hOwner
    exact hProceeds.trans (notifyOwner_proceeds s' hOwner listed result)

variable (resolve : Path → Path)

def keepAnswer (s : DirectoryPage) (load : Load) (success : Bool) : DirectoryPage :=
  if success && load.generation = s.currentGeneration load then s.store load.path (answeredEntry resolve load) else s

theorem store_of_some {requested name : Path} {entry kept : DirectoryCacheEntry}
    (hKept : (s.store requested entry).directoryCache name = some kept) :
    (kept = entry ∧ (name = requested ∨ name = entry.path)) ∨ s.directoryCache name = some kept := by
  rw [store] at hKept
  by_cases hPath : name = entry.path
  · subst hPath
    left
    simpa [eq_comm] using hKept
  · by_cases hRequested : name = requested
    · subst hRequested
      left
      simpa [hPath, eq_comm] using hKept
    · right
      simpa [hPath, hRequested] using hKept

section

variable (s : DirectoryPage) (load : Load)

theorem keepAnswer_eq (success : Bool) : ∃ cache, s.keepAnswer resolve load success = { s with directoryCache := cache } := by
  rw [keepAnswer]
  split
  · exact ⟨_, rfl⟩
  · exact ⟨s.directoryCache, rfl⟩

theorem pageSucceeds_proceeds : Proceeds (s.store load.path (answeredEntry resolve load)) (s.pageSucceeds resolve load) := by
  rw [pageSucceeds]
  refine Proceeds.trans (t := { s with
    addressPath := resolve load.path
    currentPath := resolve load.path
    isRefreshing := false
    status := .ready }.store load.path (answeredEntry resolve load)) ?_ (syncAncestors_begun _ _).proceeds
  exact proceeds_of_same rfl rfl rfl le_rfl rfl rfl rfl rfl

theorem pageFails_proceeds (preserveCurrentView : Bool) : Proceeds s (s.pageFails load preserveCurrentView) := by
  have hMarked : Proceeds s { s with isRefreshing := false } := proceeds_of_same rfl rfl rfl le_rfl rfl rfl rfl rfl
  have hLeft := hMarked.trans (syncAncestors_begun _ (resolveAncestorDirectoryPaths load.path)).proceeds
  rw [pageFails]
  cases preserveCurrentView with
  | true => exact hLeft
  | false => exact hLeft.trans (proceeds_of_same rfl rfl rfl le_rfl rfl rfl rfl rfl)

theorem finishLoad_proceeds (success : Bool) :
    Proceeds ((s.keepAnswer resolve load success).afterAnswer load) (s.finishLoad resolve load success) := by
  cases hKind : load.kind with
  | page generation preserveCurrentView owner =>
    have hOwner : load.owner = owner := by rw [Load.owner, hKind]
    have hCurrent : (load.generation = s.currentGeneration load) = (generation = s.loadGeneration) := by
      simp [currentGeneration, Load.generation, Load.isPage, hKind]
    simp only [finishLoad, keepAnswer, hKind, ← hOwner, hCurrent]
    by_cases hGeneration : generation = s.loadGeneration
    · cases success with
      | true => simpa [hGeneration] using notifyOwner_afterAnswer (pageSucceeds_proceeds resolve s load) _ _
      | false => simpa [hGeneration] using notifyOwner_afterAnswer (pageFails_proceeds s load _) _ _
    · simpa [hGeneration] using notifyOwner_afterAnswer s.proceeds_refl success none
  | tree generation =>
    have hCurrent : (load.generation = s.currentGeneration load) = (s.treeGenerations load.path = generation) := by
      simp [currentGeneration, Load.generation, Load.isPage, hKind, eq_comm]
    have hAfter : ∀ t : DirectoryPage, t.afterAnswer load = t := fun t => if_neg (by rw [Load.owner, hKind]; nofun)
    simp only [finishLoad, keepAnswer, hKind, hAfter, hCurrent, isCurrentTreeLoad]
    exact proceeds_refl _
  | ancestor generation remaining =>
    have hCurrent : (load.generation = s.currentGeneration load) = (s.treeGenerations load.path = generation) := by
      simp [currentGeneration, Load.generation, Load.isPage, hKind, eq_comm]
    have hAfter : ∀ t : DirectoryPage, t.afterAnswer load = t := fun t => if_neg (by rw [Load.owner, hKind]; nofun)
    simp only [finishLoad, keepAnswer, hKind, hAfter, hCurrent, isCurrentTreeLoad]
    cases success with
    | false => exact (syncAncestors_begun _ _).proceeds
    | true =>
      by_cases hGeneration : s.treeGenerations load.path = generation
      · simpa [hGeneration] using (syncAncestors_begun _ _).proceeds
      · simpa [hGeneration] using s.proceeds_refl

end

theorem step_cases (s : DirectoryPage) (event : PageEvent) : Proceeds s (s.step resolve event) ∨ (∃ index load, s.loads[index]? = some load ∧
      ∃ success, event = .respond index success ∧
        Proceeds (({ s with loads := s.loads.eraseIdx index }.keepAnswer resolve load success).afterAnswer load)
          (s.step resolve event)) ∨
    (∃ paths since, event = .refreshAfterOperation paths since ∧ since ≤ s.clock ∧
      s.step resolve event = s.refreshCurrentDirectoryAfterOperation paths since) ∨
    (event = .continueRefresh ∧ s.refresh = .loaded ∧ s.step resolve event = s.continueRefresh) ∨
    ∃ index call, s.calls[index]? = some call ∧ call.phase = .released ∧
      s.step resolve event = s.resumeCall index call := by
  have hSame := s.proceeds_refl
  cases event with
  | navigate directoryPath => exact .inl (s.navigateToPath_proceeds directoryPath)
  | reload => exact .inl (s.loadDirectory_proceeds _ _ _ nofun)
  | expand directoryPath => exact .inl (s.loadTreeDirectoryChildren_begun directoryPath).proceeds
  | refreshTreeDirectory directoryPath => exact .inl (s.refreshTreeDirectory_proceeds directoryPath)
  | mutate => exact .inl (proceeds_of_same rfl rfl rfl (Nat.le_succ s.clock) rfl rfl rfl rfl)
  | refreshAfterOperation paths since =>
    by_cases hSince : since ≤ s.clock
    · exact .inr (.inr (.inl ⟨paths, since, rfl, hSince, if_pos hSince⟩))
    · rw [step, if_neg hSince]
      exact .inl hSame
  | respond index success =>
    rw [step]
    split
    · rename_i load hLoad
      exact .inr (.inl ⟨index, load, hLoad, success, rfl, finishLoad_proceeds resolve _ load success⟩)
    · exact .inl hSame
  | continueRefresh =>
    by_cases hLoaded : s.refresh = .loaded
    · exact .inr (.inr (.inr (.inl ⟨rfl, hLoaded, if_pos hLoaded⟩)))
    · rw [step, if_neg hLoaded]
      exact .inl hSame
  | resumeCall index =>
    rw [step]
    split
    · rename_i call hCall
      split
      · rename_i hReleased
        exact .inr (.inr (.inr (.inr ⟨index, call, hCall, hReleased, rfl⟩)))
      · exact .inl hSame
    · exact .inl hSame
  | commit => exact .inl (proceeds_of_same rfl rfl rfl le_rfl rfl rfl rfl rfl)

def turnStart (s : DirectoryPage) : PageEvent → Option DirectoryPage
  | .refreshAfterOperation paths since =>
    if since ≤ s.clock ∧ s.refresh = .idle then some (s.addCall paths since true .joined) else none
  | .continueRefresh => if s.refresh = .loaded ∧ s.pendingRefreshPaths ≠ [] then some s else none
  | _ => none

variable {resolve} in
theorem step_of_turnStart {s t : DirectoryPage} {event : PageEvent} (hStart : s.turnStart event = some t) :
    s.step resolve event = t.refreshTurn := by
  cases event with
  | refreshAfterOperation paths since =>
    obtain ⟨⟨hSince, hIdle⟩, rfl⟩ : (since ≤ s.clock ∧ s.refresh = .idle) ∧ s.addCall paths since true .joined = t := by
      simpa [turnStart] using hStart
    simp [step, hSince, refreshCurrentDirectoryAfterOperation, hIdle]
  | continueRefresh =>
    obtain ⟨⟨hLoaded, hPending⟩, rfl⟩ : (s.refresh = .loaded ∧ s.pendingRefreshPaths ≠ []) ∧ s = t := by
      simpa [turnStart] using hStart
    simp [step, hLoaded, continueRefresh, hPending]
  | navigate | reload | expand | refreshTreeDirectory | mutate | respond | resumeCall | commit => contradiction

end DirectoryPage

end SftpPage
