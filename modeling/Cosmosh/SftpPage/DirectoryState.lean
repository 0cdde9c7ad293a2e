import Cosmosh.Library.JsText
import Cosmosh.Library.Transition
import Mathlib.Data.List.Dedup

/-! # The directories of an SFTP tab

Page, tree and ancestor loads share one cache and start their listings side by side.
-/

namespace SftpPage

open Library

abbrev Path := Text

/-- `buildBreadcrumbs`, without the labels. -/
def breadcrumbPaths (directoryPath : Path) : List Path :=
  if directoryPath = [] ∨ directoryPath = ['.'] then [['.']]
  else
    let isAbsolute := directoryPath.head? = some '/'
    let parts := (directoryPath.splitOn '/').filter (· ≠ [])
    let lead : Path := if isAbsolute then ['/'] else []
    let crumbs := (if isAbsolute then [['/']] else []) ++
      (List.range parts.length).map fun index => lead ++ ['/'].intercalate (parts.take (index + 1))
    if crumbs = [] then [directoryPath] else crumbs

def resolveAncestorDirectoryPaths (directoryPath : Path) : List Path := (breadcrumbPaths directoryPath).dropLast

structure DirectoryCacheEntry where
  path : Path
  requestedAt : Nat
  deriving DecidableEq

inductive PageStatus
  | idle
  | connecting
  | loading
  | ready
  | error
  deriving DecidableEq

/-- Who awaits the result of `loadDirectory`. -/
inductive LoadOwner
  | navigation (index : Nat)
  | refresh
  | nobody
  deriving DecidableEq

inductive LoadKind
  | page (generation : Nat) (preserveCurrentView : Bool) (owner : LoadOwner)
  | tree (generation : Nat)
  | ancestor (generation : Nat) (remaining : List Path)
  deriving DecidableEq

structure Load where
  path : Path
  requestedAt : Nat
  kind : LoadKind
  deriving DecidableEq

namespace Load

def isPage (load : Load) : Bool :=
  match load.kind with
  | .page .. => true
  | _ => false

def owner (load : Load) : LoadOwner :=
  match load.kind with
  | .page _ _ owner => owner
  | _ => .nobody

def generation (load : Load) : Nat :=
  match load.kind with
  | .page generation .. | .tree generation | .ancestor generation _ => generation

end Load

/-- A call of `navigateToPath`, whether the listing of its target was kept or answered, and its result. -/
structure Navigation where
  target : Path
  listed : Bool
  outcome : Option Bool
  deriving DecidableEq

inductive RefreshPhase
  | idle
  | awaiting
  | loaded
  | returned
  deriving DecidableEq

inductive CallPhase
  | joined
  | released
  | resolved
  deriving DecidableEq

/-- A call of `refreshCurrentDirectoryAfterOperation` after a change at time `since`, and what the loop
has invalidated and requested before the promise of the call resolved. -/
structure RefreshCall where
  paths : List Path
  since : Nat
  owner : Bool
  phase : CallPhase
  invalidated : List Path
  requested : List Path
  deriving DecidableEq

structure DirectoryPage where
  directoryCache : Path → Option DirectoryCacheEntry
  treeGenerations : Path → Nat
  loadGeneration : Nat
  addressPath : Path
  currentPath : Path
  currentPathRef : Path
  status : PageStatus
  isRefreshing : Bool
  loads : List Load
  navigations : List Navigation
  pendingRefreshPaths : List Path
  refresh : RefreshPhase
  calls : List RefreshCall
  clock : Nat

/-- `expand` is the loading of a tree node or a breadcrumb menu, `commit` the effect that follows a render. -/
inductive PageEvent
  | navigate (directoryPath : Path)
  | reload
  | expand (directoryPath : Path)
  | refreshTreeDirectory (directoryPath : Path)
  | mutate
  | refreshAfterOperation (paths : List Path) (since : Nat)
  | respond (index : Nat) (success : Bool)
  | continueRefresh
  | resumeCall (index : Nat)
  | commit

namespace DirectoryPage

def opened (currentPath : Path) : DirectoryPage where
  directoryCache _ := none
  treeGenerations _ := 0
  loadGeneration := 0
  addressPath := currentPath
  currentPath := currentPath
  currentPathRef := currentPath
  status := .ready
  isRefreshing := false
  loads := []
  navigations := []
  pendingRefreshPaths := []
  refresh := .idle
  calls := []
  clock := 0

def request (s : DirectoryPage) (path : Path) (kind : LoadKind) : DirectoryPage := { s with loads := s.loads ++ [⟨path, s.clock, kind⟩] }

def beginTreeDirectoryLoad (s : DirectoryPage) (directoryPath : Path) : DirectoryPage :=
  { s with treeGenerations := Function.update s.treeGenerations directoryPath (s.treeGenerations directoryPath + 1) }

/-- `isCurrentLoad` of the load that began with this generation. -/
def isCurrentTreeLoad (s : DirectoryPage) (directoryPath : Path) (generation : Nat) : Bool := s.treeGenerations directoryPath = generation

def store (s : DirectoryPage) (requestedPath : Path) (entry : DirectoryCacheEntry) : DirectoryPage :=
  { s with directoryCache := Function.update (Function.update s.directoryCache requestedPath (some entry)) entry.path (some entry) }

def invalidateDirectoryCache (s : DirectoryPage) (directoryPath : Path) : DirectoryPage :=
  { s with
    treeGenerations := Function.update s.treeGenerations directoryPath (s.treeGenerations directoryPath + 1)
    directoryCache := Function.update s.directoryCache directoryPath none }

/-- `syncAncestorDirectories` from one await to the next. -/
def syncAncestors (s : DirectoryPage) : List Path → DirectoryPage
  | [] => s
  | ancestorPath :: remaining =>
    let begun := s.beginTreeDirectoryLoad ancestorPath
    match begun.directoryCache ancestorPath with
    | some _ => begun.syncAncestors remaining
    | none => begun.request ancestorPath (.ancestor (begun.treeGenerations ancestorPath) remaining)

def loadTreeDirectoryChildren (s : DirectoryPage) (directoryPath : Path) : DirectoryPage :=
  let begun := s.beginTreeDirectoryLoad directoryPath
  match begun.directoryCache directoryPath with
  | some _ => begun
  | none => begun.request directoryPath (.tree (begun.treeGenerations directoryPath))

def applyDirectoryCacheEntry (s : DirectoryPage) (entry : DirectoryCacheEntry) : DirectoryPage :=
  { s with addressPath := entry.path, currentPath := entry.path, status := .ready }

def beginLoad (s : DirectoryPage) (directoryPath : Path) : DirectoryPage :=
  { s with loadGeneration := s.loadGeneration + 1, addressPath := directoryPath }

def requestPage (s : DirectoryPage) (directoryPath : Path) (preserveCurrentView : Bool) (owner : LoadOwner) :
    DirectoryPage :=
  let marked :=
    if preserveCurrentView then { s with isRefreshing := true }
    else { s with status := if s.status = .connecting then .connecting else .loading }
  marked.request directoryPath (.page s.loadGeneration preserveCurrentView owner)

/-- `loadDirectory` up to its first await, and its result if it is answered from the cache. -/
def loadDirectory (s : DirectoryPage) (directoryPath : Path) (forceRefresh preserveCurrentView : Bool)
    (owner : LoadOwner) : DirectoryPage × Option Path :=
  match if forceRefresh then none else s.directoryCache directoryPath with
  | some entry =>
    ((((s.beginLoad directoryPath).applyDirectoryCacheEntry entry).syncAncestors
      (resolveAncestorDirectoryPaths entry.path)), some entry.path)
  | none => ((s.beginLoad directoryPath).requestPage directoryPath preserveCurrentView owner, none)

/-- `new Set([activePath, ...pending])`, in insertion order. -/
def pathsToInvalidate (s : DirectoryPage) : List Path := (s.currentPathRef :: s.pendingRefreshPaths).reverse.dedup.reverse

def logRefresh (paths requested : List Path) (call : RefreshCall) : RefreshCall :=
  if call.phase = .resolved then call
  else { call with invalidated := call.invalidated ++ paths, requested := call.requested ++ requested }

def refreshLoads (s : DirectoryPage) (paths : List Path) : DirectoryPage :=
  (((paths.filter (· ≠ s.currentPathRef)).foldl loadTreeDirectoryChildren s).loadDirectory s.currentPathRef
    true true .refresh).1

def refreshTurn (s : DirectoryPage) : DirectoryPage :=
  let paths := s.pathsToInvalidate
  let invalidated := paths.foldl invalidateDirectoryCache { s with pendingRefreshPaths := [] }
  let started := invalidated.refreshLoads paths
  { started with
    refresh := .awaiting
    calls := started.calls.map (logRefresh paths ((started.loads.drop s.loads.length).map (·.path))) }

def addPending (pending : List Path) (path : Path) : List Path :=
  if path ∈ pending then pending else pending ++ [path]

def addCall (s : DirectoryPage) (paths : List Path) (since : Nat) (owner : Bool) (phase : CallPhase) :
    DirectoryPage :=
  { s with
    pendingRefreshPaths := paths.foldl addPending s.pendingRefreshPaths
    calls := s.calls ++ [⟨paths, since, owner, phase, [], []⟩] }

def refreshCurrentDirectoryAfterOperation (s : DirectoryPage) (paths : List Path) (since : Nat) : DirectoryPage :=
  match s.refresh with
  | .idle => (s.addCall paths since true .joined).refreshTurn
  | .returned => s.addCall paths since false .released
  | _ => s.addCall paths since false .joined

def release (call : RefreshCall) : RefreshCall :=
  if call.phase = .joined then { call with phase := .released } else call

def continueRefresh (s : DirectoryPage) : DirectoryPage :=
  if s.pendingRefreshPaths = [] then { s with refresh := .returned, calls := s.calls.map release }
  else s.refreshTurn

def resumeCall (s : DirectoryPage) (index : Nat) (call : RefreshCall) : DirectoryPage :=
  let resolved := { s with calls := s.calls.set index { call with phase := .resolved } }
  if call.owner then { resolved with refresh := .idle } else resolved

/-- What the awaiting caller of `loadDirectory` does with the result. -/
def notifyOwner (s : DirectoryPage) (owner : LoadOwner) (listed : Bool) (result : Option Path) : DirectoryPage :=
  match owner with
  | .navigation index =>
    { s with navigations := s.navigations.modify index fun navigation =>
        { navigation with listed := listed, outcome := some result.isSome } }
  | .refresh => { s with refresh := .loaded }
  | .nobody => s

section Answers

variable (resolve : Path → Path)

def answeredEntry (load : Load) : DirectoryCacheEntry := ⟨resolve load.path, load.requestedAt⟩

def pageSucceeds (s : DirectoryPage) (load : Load) : DirectoryPage :=
  let entry := answeredEntry resolve load
  (({ s with addressPath := entry.path, currentPath := entry.path, isRefreshing := false, status := .ready }).store
    load.path entry).syncAncestors (resolveAncestorDirectoryPaths entry.path)

def pageFails (s : DirectoryPage) (load : Load) (preserveCurrentView : Bool) : DirectoryPage :=
  let left := { s with isRefreshing := false }.syncAncestors (resolveAncestorDirectoryPaths load.path)
  if preserveCurrentView then left else { left with status := .error }

def finishLoad (s : DirectoryPage) (load : Load) (success : Bool) : DirectoryPage :=
  match load.kind with
  | .page generation preserveCurrentView owner =>
    if generation ≠ s.loadGeneration then s.notifyOwner owner success none
    else if success then (s.pageSucceeds resolve load).notifyOwner owner true (some (resolve load.path))
    else (s.pageFails load preserveCurrentView).notifyOwner owner false none
  | .tree generation =>
    if success && s.isCurrentTreeLoad load.path generation then s.store load.path (answeredEntry resolve load) else s
  | .ancestor generation remaining =>
    if success then
      if s.isCurrentTreeLoad load.path generation then
        (s.store load.path (answeredEntry resolve load)).syncAncestors remaining
      else s
    else s.syncAncestors remaining

def addNavigation (s : DirectoryPage) (target : Path) (outcome : Option Bool) : DirectoryPage :=
  { s with navigations := s.navigations ++ [⟨target, false, outcome⟩] }

/-- `navigateToPath`; the history of visited paths is left out. -/
def navigateToPath (s : DirectoryPage) (directoryPath : Path) : DirectoryPage :=
  let trimmedPath := JsText.trim directoryPath
  if trimmedPath = [] then s.addNavigation trimmedPath (some false)
  else
    let loaded := (s.addNavigation trimmedPath none).loadDirectory trimmedPath false false
      (.navigation s.navigations.length)
    match loaded.2 with
    | some path => loaded.1.notifyOwner (.navigation s.navigations.length) true (some path)
    | none => loaded.1

/-- `handleTreeDirectoryRefresh` -/
def refreshTreeDirectory (s : DirectoryPage) (directoryPath : Path) : DirectoryPage :=
  let invalidated := s.invalidateDirectoryCache directoryPath
  if directoryPath = s.currentPathRef then (invalidated.loadDirectory directoryPath true true .nobody).1
  else invalidated.loadTreeDirectoryChildren directoryPath

def step (s : DirectoryPage) : PageEvent → DirectoryPage
  | .navigate directoryPath => s.navigateToPath directoryPath
  | .reload => (s.loadDirectory s.currentPathRef true true .nobody).1
  | .expand directoryPath => s.loadTreeDirectoryChildren directoryPath
  | .refreshTreeDirectory directoryPath => s.refreshTreeDirectory directoryPath
  | .mutate => { s with clock := s.clock + 1 }
  | .refreshAfterOperation paths since =>
    if since ≤ s.clock then s.refreshCurrentDirectoryAfterOperation paths since else s
  | .respond index success =>
    match s.loads[index]? with
    | some load => finishLoad resolve { s with loads := s.loads.eraseIdx index } load success
    | none => s
  | .continueRefresh => if s.refresh = .loaded then s.continueRefresh else s
  | .resumeCall index =>
    match s.calls[index]? with
    | some call => if call.phase = .released then s.resumeCall index call else s
    | none => s
  | .commit => { s with currentPathRef := s.currentPath }

end Answers

theorem owner_of_not_page {load : Load} (hPage : load.isPage = false) : load.owner = .nobody := by
  obtain ⟨path, requestedAt, kind⟩ := load
  cases kind with
  | page => contradiction
  | tree => rfl
  | ancestor => rfl

def currentGeneration (s : DirectoryPage) (load : Load) : Nat :=
  if load.isPage then s.loadGeneration else s.treeGenerations load.path

def TreeLoadsBegun (s s' : DirectoryPage) : Prop :=
  ∃ generations started, s' = { s with treeGenerations := generations, loads := s.loads ++ started } ∧
    (∀ path, s.treeGenerations path ≤ generations path) ∧
    ∀ load ∈ started, load.requestedAt = s.clock ∧ load.isPage = false ∧ load.generation ≤ generations load.path

variable (s : DirectoryPage)

theorem treeLoadsBegun_refl : TreeLoadsBegun s s := ⟨s.treeGenerations, [], by simp, fun _ => le_rfl, by simp⟩

theorem TreeLoadsBegun.trans {s t u : DirectoryPage} (hFirst : TreeLoadsBegun s t) (hSecond : TreeLoadsBegun t u) :
    TreeLoadsBegun s u := by
  obtain ⟨g, started, rfl, hMono, hStarted⟩ := hFirst
  obtain ⟨g', started', rfl, hMono', hStarted'⟩ := hSecond
  refine ⟨g', started ++ started', by simp, fun path => (hMono path).trans (hMono' path), fun load hLoad => ?_⟩
  rcases List.mem_append.mp hLoad with hLoad | hLoad
  · obtain ⟨hClock, hPage, hGeneration⟩ := hStarted load hLoad
    exact ⟨hClock, hPage, hGeneration.trans (hMono' load.path)⟩
  · exact hStarted' load hLoad

theorem le_bumped (generations : Path → Nat) (path other : Path) :
    generations other ≤ Function.update generations path (generations path + 1) other := by
  by_cases hOther : other = path
  · subst hOther
    simp
  · rw [Function.update_of_ne hOther]

theorem beginTreeDirectoryLoad_begun (path : Path) :
    TreeLoadsBegun s (s.beginTreeDirectoryLoad path) := ⟨_, [], by simp [beginTreeDirectoryLoad], le_bumped s.treeGenerations path, by simp⟩

theorem request_begun (path : Path) (kind : LoadKind) (hKind : (Load.mk path s.clock kind).isPage = false)
    (hGeneration : (Load.mk path s.clock kind).generation ≤ s.treeGenerations path) :
    TreeLoadsBegun s (s.request path kind) := ⟨s.treeGenerations, [⟨path, s.clock, kind⟩], rfl, fun _ => le_rfl, by simp [hKind, hGeneration]⟩

theorem syncAncestors_begun (paths : List Path) : TreeLoadsBegun s (s.syncAncestors paths) := by
  induction paths generalizing s with
  | nil => exact treeLoadsBegun_refl s
  | cons ancestorPath remaining ih =>
    have hBegun := s.beginTreeDirectoryLoad_begun ancestorPath
    rw [syncAncestors]
    split
    · exact hBegun.trans (ih _)
    · exact hBegun.trans (request_begun _ _ _ rfl le_rfl)

theorem loadTreeDirectoryChildren_begun (path : Path) :
    TreeLoadsBegun s (s.loadTreeDirectoryChildren path) := by
  have hBegun := s.beginTreeDirectoryLoad_begun path
  rw [loadTreeDirectoryChildren]
  split
  · exact hBegun
  · exact hBegun.trans (request_begun _ _ _ rfl le_rfl)

theorem treeLoads_begun (paths : List Path) :
    TreeLoadsBegun s (paths.foldl loadTreeDirectoryChildren s) := by
  induction paths generalizing s with
  | nil => exact treeLoadsBegun_refl s
  | cons path paths ih => exact (s.loadTreeDirectoryChildren_begun path).trans (ih _)
theorem loadDirectory_cases (s : DirectoryPage) (directoryPath : Path) (forceRefresh preserveCurrentView : Bool)
    (owner : LoadOwner) :
    (∃ entry, forceRefresh = false ∧ s.directoryCache directoryPath = some entry ∧
      TreeLoadsBegun ((s.beginLoad directoryPath).applyDirectoryCacheEntry entry)
        (s.loadDirectory directoryPath forceRefresh preserveCurrentView owner).1 ∧
      (s.loadDirectory directoryPath forceRefresh preserveCurrentView owner).2 = some entry.path) ∨
    s.loadDirectory directoryPath forceRefresh preserveCurrentView owner =
      ((s.beginLoad directoryPath).requestPage directoryPath preserveCurrentView owner, none) := by
  cases forceRefresh with
  | true => exact .inr rfl
  | false =>
    cases hCached : s.directoryCache directoryPath with
    | none => exact .inr (by simp [loadDirectory, hCached])
    | some entry => exact .inl ⟨entry, rfl, rfl, by simp [loadDirectory, hCached, syncAncestors_begun]⟩

theorem invalidations (paths : List Path) :
    ∃ generations cache,
      paths.foldl invalidateDirectoryCache s = { s with treeGenerations := generations, directoryCache := cache } ∧
      (∀ path, s.treeGenerations path ≤ generations path) ∧
      (∀ path ∈ paths, s.treeGenerations path < generations path) ∧
      ∀ path, cache path = if path ∈ paths then none else s.directoryCache path := by
  induction paths generalizing s with
  | nil => exact ⟨s.treeGenerations, s.directoryCache, rfl, fun _ => le_rfl, by simp, by simp⟩
  | cons path paths ih =>
    obtain ⟨generations, cache, hEq, hMono, hAbove, hCache⟩ := ih (s.invalidateDirectoryCache path)
    have hBumped := le_bumped s.treeGenerations path
    refine ⟨generations, cache, hEq, fun other => (hBumped other).trans (hMono other), fun other hOther => ?_,
      fun other => ?_⟩
    · rcases List.mem_cons.mp hOther with rfl | hOther
      · have hAt : s.treeGenerations other + 1 ≤ generations other := by
          simpa [invalidateDirectoryCache] using hMono other
        omega
      · exact (hBumped other).trans_lt (hAbove other hOther)
    · rw [hCache other]
      by_cases hOther : other = path <;> simp [invalidateDirectoryCache, hOther]

theorem mem_pathsToInvalidate {s : DirectoryPage} {path : Path} :
    path ∈ s.pathsToInvalidate ↔ path = s.currentPathRef ∨ path ∈ s.pendingRefreshPaths := by
  simp [pathsToInvalidate, or_comm]

theorem loadTreeDirectoryChildren_requests {s : DirectoryPage} {path : Path} (hCache : s.directoryCache path = none) :
    (s.loadTreeDirectoryChildren path).loads.map (·.path) = s.loads.map (·.path) ++ [path] := by
  have hBegun : (s.beginTreeDirectoryLoad path).directoryCache path = none := hCache
  simp only [loadTreeDirectoryChildren, hBegun]
  simp [request, beginTreeDirectoryLoad]

theorem treeLoads_request (paths : List Path) (hCache : ∀ path ∈ paths, s.directoryCache path = none) :
    (paths.foldl loadTreeDirectoryChildren s).loads.map (·.path) = s.loads.map (·.path) ++ paths := by
  induction paths generalizing s with
  | nil => simp
  | cons path paths ih =>
    obtain ⟨generations, started, hEq, -⟩ := s.loadTreeDirectoryChildren_begun path
    have hKept : ∀ other ∈ paths, (s.loadTreeDirectoryChildren path).directoryCache other = none := by
      rw [hEq]
      exact fun other hOther => hCache other (by simp [hOther])
    rw [List.foldl_cons, ih _ hKept, loadTreeDirectoryChildren_requests (hCache path (by simp))]
    simp

theorem refreshTurn_eq :
    ∃ generations cache started,
      s.refreshTurn = { s with
        directoryCache := cache
        treeGenerations := generations
        loadGeneration := s.loadGeneration + 1
        addressPath := s.currentPathRef
        isRefreshing := true
        loads := s.loads ++ started ++ [⟨s.currentPathRef, s.clock, .page (s.loadGeneration + 1) true .refresh⟩]
        pendingRefreshPaths := []
        refresh := .awaiting
        calls := s.calls.map
          (logRefresh s.pathsToInvalidate (started.map (·.path) ++ [s.currentPathRef])) } ∧
      (∀ path, cache path = if path ∈ s.pathsToInvalidate then none else s.directoryCache path) ∧
      (∀ path, s.treeGenerations path ≤ generations path) ∧
      (∀ path ∈ s.pathsToInvalidate, s.treeGenerations path < generations path) ∧
      (∀ load ∈ started, load.requestedAt = s.clock ∧ load.isPage = false ∧
        load.generation ≤ generations load.path) ∧
      started.map (·.path) = s.pathsToInvalidate.filter (· ≠ s.currentPathRef) := by
  obtain ⟨generations, cache, hInvalidated, hMono, hAbove, hCache⟩ := invalidations { s with pendingRefreshPaths := [] } s.pathsToInvalidate
  have hRequests : ∀ path ∈ s.pathsToInvalidate.filter (· ≠ s.currentPathRef), cache path = none := by
    intro path hPath
    rw [hCache path, if_pos (List.mem_of_mem_filter hPath)]
  obtain ⟨generations', started, hStarted, hMono', hFacts⟩ := treeLoads_begun
    (s.pathsToInvalidate.foldl invalidateDirectoryCache { s with pendingRefreshPaths := [] })
    (s.pathsToInvalidate.filter (· ≠ s.currentPathRef))
  have hPaths := treeLoads_request
    (s.pathsToInvalidate.foldl invalidateDirectoryCache { s with pendingRefreshPaths := [] })
    (s.pathsToInvalidate.filter (· ≠ s.currentPathRef)) (by rw [hInvalidated]; exact hRequests)
  rw [hStarted] at hPaths
  rw [hInvalidated] at hStarted hMono' hFacts hPaths
  refine ⟨generations', cache, started, ?_, hCache, fun path => (hMono path).trans (hMono' path),
    fun path hPath => (hAbove path hPath).trans_le (hMono' path), hFacts, ?_⟩
  · rw [refreshTurn]
    simp only [refreshLoads, hInvalidated, hStarted]
    simp [loadDirectory, beginLoad, requestPage, request]
  · simpa using hPaths

end DirectoryPage

open DirectoryPage Transition

def directoryPages (resolve : Path → Path) : Machine DirectoryPage PageEvent where
  initial s := ∃ currentPath, s = opened currentPath
  step := DirectoryPage.step resolve

end SftpPage
