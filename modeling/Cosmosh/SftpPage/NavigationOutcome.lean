import Cosmosh.SftpPage.DirectorySteps
import Mathlib.Data.List.Perm.Basic
import Mathlib.Tactic.ByContra

/-! # One navigation among background refreshes

Page loads share one generation counter.
-/

namespace SftpPage

open Library Transition DirectoryPage

namespace Load

def preserves (load : Load) : Bool :=
  match load.kind with
  | .page _ preserveCurrentView _ => preserveCurrentView
  | _ => true

end Load

def pageLoads (s : DirectoryPage) : List Load := s.loads.filter (·.isPage)

section Navigations

variable (resolve : Path → Path)

def NavigationKept (s : DirectoryPage) : Prop :=
  (∀ navigation ∈ s.navigations, navigation.listed = true →
    navigation.outcome = some true ∧ s.currentPath = resolve navigation.target) ∧
  (s.loads = [] → s.status ≠ .loading ∧ s.isRefreshing = false)

def oneNavigation (s : DirectoryPage) : PageEvent → Bool
  | .navigate _ => s.navigations = []
  | .reload => false
  | .refreshTreeDirectory _ => false
  | _ => true

def overtakesRefresh (s : DirectoryPage) : PageEvent → Bool
  | .navigate directoryPath =>
    JsText.trim directoryPath ≠ [] && (s.directoryCache (JsText.trim directoryPath)).isSome &&
      (pageLoads s).any fun load => load.generation = s.loadGeneration
  | _ => false

def undisturbed (s : DirectoryPage) (event : PageEvent) : Bool :=
  !overtakesRefresh s event && (s.turnStart event).all fun _ =>
    s.currentPathRef = s.currentPath && s.navigations.all fun navigation => navigation.outcome.isSome

structure PageKept (s : DirectoryPage) : Prop where
  one : s.navigations.length ≤ 1
  generations : ∀ load ∈ pageLoads s, load.generation ≤ s.loadGeneration
  newest : (pageLoads s).countP (fun load => load.generation = s.loadGeneration) ≤ 1
  loading : s.status = .loading → ∃ load ∈ pageLoads s, load.generation = s.loadGeneration ∧ load.preserves = false
  refreshing : s.isRefreshing = true → ∃ load ∈ pageLoads s, load.generation = s.loadGeneration
  replaces : ∀ load ∈ pageLoads s, load.preserves = false → ∃ index, load.owner = .navigation index
  navigating : ∀ load ∈ pageLoads s, ∀ index, load.owner = .navigation index →
    load.generation = s.loadGeneration ∧ s.navigations[index]? = some ⟨load.path, false, none⟩
  listed : ∀ navigation ∈ s.navigations, navigation.listed = true →
    navigation.outcome = some true ∧ s.currentPath = resolve navigation.target ∧
      ∀ load ∈ pageLoads s, load.generation = s.loadGeneration → resolve load.path = resolve navigation.target
  cache : ∀ path entry, s.directoryCache path = some entry → entry.path = resolve path

structure SamePage (s s' : DirectoryPage) : Prop where
  loads : (pageLoads s').Perm (pageLoads s)
  generation : s'.loadGeneration = s.loadGeneration
  currentPath : s'.currentPath = s.currentPath
  status : s'.status = s.status
  isRefreshing : s'.isRefreshing = s.isRefreshing
  navigations : s'.navigations = s.navigations
  cache : ∀ path entry, s'.directoryCache path = some entry →
    s.directoryCache path = some entry ∨ entry.path = resolve path

variable {resolve}

variable {s : DirectoryPage}

theorem PageKept.navigationKept (hKept : PageKept resolve s) : NavigationKept resolve s := by
  refine ⟨fun navigation hNavigation hListed => ?_, fun hNone => ⟨fun hLoading => ?_, ?_⟩⟩
  · obtain ⟨hOutcome, hPath, -⟩ := hKept.listed navigation hNavigation hListed
    exact ⟨hOutcome, hPath⟩
  · obtain ⟨load, hLoad, -⟩ := hKept.loading hLoading
    simp [pageLoads, hNone] at hLoad
  · by_contra hRefreshing
    obtain ⟨load, hLoad, -⟩ := hKept.refreshing (by simpa using hRefreshing)
    simp [pageLoads, hNone] at hLoad

variable {s' : DirectoryPage}

theorem SamePage.named (hSame : SamePage resolve s s') (hCache : ∀ path entry, s.directoryCache path = some entry → entry.path = resolve path) :
    ∀ path entry, s'.directoryCache path = some entry → entry.path = resolve path := by
  intro path entry hEntry
  rcases hSame.cache path entry hEntry with hOld | hNew
  · exact hCache path entry hOld
  · exact hNew

theorem PageKept.same (hKept : PageKept resolve s) (hSame : SamePage resolve s s') : PageKept resolve s' := by
  have hMem : ∀ load, load ∈ pageLoads s' ↔ load ∈ pageLoads s := fun load => hSame.loads.mem_iff
  constructor
  · rw [hSame.navigations]
    exact hKept.one
  · simpa only [hMem, hSame.generation] using hKept.generations
  · rw [hSame.generation, hSame.loads.countP_eq]
    exact hKept.newest
  · simpa only [hMem, hSame.generation, hSame.status] using hKept.loading
  · simpa only [hMem, hSame.generation, hSame.isRefreshing] using hKept.refreshing
  · simpa only [hMem] using hKept.replaces
  · simpa only [hMem, hSame.generation, hSame.navigations] using hKept.navigating
  · simpa only [hMem, hSame.generation, hSame.navigations, hSame.currentPath] using hKept.listed
  · exact hSame.named hKept.cache

theorem filter_isPage_eq_nil {started : List Load} (hTree : ∀ load ∈ started, load.isPage = false) : started.filter (·.isPage) = [] := by
  rw [List.filter_eq_nil_iff]
  intro load hLoad
  simp [hTree load hLoad]

theorem begun_same (hBegun : TreeLoadsBegun s s') : SamePage resolve s s' := by
  obtain ⟨generations, started, rfl, -, hStarted⟩ := hBegun
  have hNone := filter_isPage_eq_nil fun load hLoad => (hStarted load hLoad).2.1
  refine ⟨?_, rfl, rfl, rfl, rfl, rfl, fun _ _ => .inl⟩
  rw [pageLoads, List.filter_append, hNone, List.append_nil, pageLoads]

theorem PageKept.older (hKept : PageKept resolve s) : ∀ load ∈ pageLoads s, load.generation ≠ s.loadGeneration + 1 := by
  intro load hLoad
  have hBelow := hKept.generations load hLoad
  omega

variable {t : DirectoryPage}

theorem PageKept.begins (hKept : PageKept resolve s) {own : Load} (hLoads : pageLoads t = pageLoads s ++ [own])
    (hOwn : own.generation = s.loadGeneration + 1) (hGeneration : t.loadGeneration = s.loadGeneration + 1)
    (hNoNavigation : ∀ load ∈ pageLoads s, ∀ index, load.owner ≠ .navigation index) (hOne : t.navigations.length ≤ 1)
    (hStatus : t.status = s.status ∨ own.preserves = false) (hReplaces : own.preserves = false → ∃ index, own.owner = .navigation index)
    (hNavigating : ∀ index, own.owner = .navigation index → t.navigations[index]? = some ⟨own.path, false, none⟩)
    (hListed : ∀ navigation ∈ t.navigations, navigation.listed = true →
      navigation.outcome = some true ∧ t.currentPath = resolve navigation.target ∧ resolve own.path = resolve navigation.target)
    (hCache : ∀ path entry, t.directoryCache path = some entry → entry.path = resolve path) : PageKept resolve t := by
  have hMem : ∀ load ∈ pageLoads t, load ∈ pageLoads s ∨ load = own := by
    intro load hLoad
    rw [hLoads] at hLoad
    simpa using hLoad
  have hNewest : own ∈ pageLoads t ∧ own.generation = t.loadGeneration := by simp [hLoads, hOwn, hGeneration]
  refine ⟨hOne, fun load hLoad => ?_, ?_, fun hLoading => ?_, fun _ => ⟨own, hNewest⟩, fun load hLoad => ?_,
    fun load hLoad index hOwner => ?_, fun navigation hNavigation hAnswered => ?_, hCache⟩
  · rw [hGeneration]
    rcases hMem load hLoad with hBefore | rfl
    · exact (hKept.generations load hBefore).trans (Nat.le_succ _)
    · exact hOwn.le
  · rw [hGeneration, hLoads, List.countP_append, List.countP_eq_zero.mpr (by simpa using hKept.older), Nat.zero_add]
    exact List.countP_le_length
  · rcases hStatus with hSame | hNavigation
    · obtain ⟨load, hLoad, -, hBefore⟩ := hKept.loading (hSame.symm.trans hLoading)
      obtain ⟨index, hOwner⟩ := hKept.replaces load hLoad hBefore
      exact absurd hOwner (hNoNavigation load hLoad index)
    · exact ⟨own, hNewest.1, hNewest.2, hNavigation⟩
  · rcases hMem load hLoad with hBefore | rfl
    · exact hKept.replaces load hBefore
    · exact hReplaces
  · rcases hMem load hLoad with hBefore | rfl
    · exact absurd hOwner (hNoNavigation load hBefore index)
    · exact ⟨hNewest.2, hNavigating index hOwner⟩
  · obtain ⟨hOutcome, hPath, hTarget⟩ := hListed navigation hNavigation hAnswered
    refine ⟨hOutcome, hPath, fun load hLoad hCurrent => ?_⟩
    rw [hGeneration] at hCurrent
    rcases hMem load hLoad with hBefore | rfl
    · exact absurd hCurrent (hKept.older load hBefore)
    · exact hTarget

theorem PageKept.refreshTurn (hResolve : ∀ path, resolve (resolve path) = resolve path) (hKept : PageKept resolve s)
    (hRendered : s.currentPathRef = s.currentPath) (hNavigated : ∀ navigation ∈ s.navigations, navigation.outcome.isSome = true) :
    PageKept resolve s.refreshTurn := by
  obtain ⟨generations, cache, started, hTurn, hCache, -, -, hStarted, -⟩ := s.refreshTurn_eq
  have hNone := filter_isPage_eq_nil fun load hLoad => (hStarted load hLoad).2.1
  have hLoads : pageLoads s.refreshTurn =
      pageLoads s ++ [⟨s.currentPathRef, s.clock, .page (s.loadGeneration + 1) true .refresh⟩] := by
    rw [hTurn, pageLoads, List.filter_append, List.filter_append, hNone, List.append_nil]
    rfl
  have hNoNavigation : ∀ load ∈ pageLoads s, ∀ index, load.owner ≠ .navigation index := by
    intro load hLoad index hOwner
    have hAt := (hKept.navigating load hLoad index hOwner).2
    have hDone := hNavigated _ (List.mem_of_getElem? hAt)
    contradiction
  have hSame : s.refreshTurn.loadGeneration = s.loadGeneration + 1 ∧ s.refreshTurn.navigations = s.navigations ∧
      s.refreshTurn.currentPath = s.currentPath ∧ s.refreshTurn.status = s.status ∧
      s.refreshTurn.directoryCache = cache := by
    rw [hTurn]
    exact ⟨rfl, rfl, rfl, rfl, rfl⟩
  obtain ⟨hGeneration, hNavigations, hPath, hStatus, hKeptCache⟩ := hSame
  refine hKept.begins hLoads rfl hGeneration hNoNavigation (hNavigations ▸ hKept.one) (.inl hStatus) nofun nofun
    (fun navigation hNavigation hListed => ?_) fun path entry hEntry => ?_
  · rw [hNavigations] at hNavigation
    obtain ⟨hOutcome, hShown, -⟩ := hKept.listed navigation hNavigation hListed
    refine ⟨hOutcome, hPath.trans hShown, ?_⟩
    rw [hRendered, hShown]
    exact hResolve navigation.target
  · have hAt := hCache path
    rw [← hKeptCache, hEntry] at hAt
    split at hAt
    · contradiction
    · exact hKept.cache path entry hAt.symm

variable {index : Nat} {load : Load}

theorem pageLoads_erase (hLoad : s.loads[index]? = some load) (hPage : load.isPage = true) :
    (load :: pageLoads { s with loads := s.loads.eraseIdx index }).Perm (pageLoads s) := by
  obtain ⟨hBound, hAt⟩ := List.getElem?_eq_some_iff.mp hLoad
  have hPerm := (List.getElem_cons_eraseIdx_perm hBound).filter (·.isPage)
  rwa [hAt, List.filter_cons_of_pos hPage] at hPerm

theorem pageLoads_erase_tree (hLoad : s.loads[index]? = some load) (hPage : load.isPage = false) :
    (pageLoads { s with loads := s.loads.eraseIdx index }).Perm (pageLoads s) := by
  obtain ⟨hBound, hAt⟩ := List.getElem?_eq_some_iff.mp hLoad
  have hPerm := (List.getElem_cons_eraseIdx_perm hBound).filter (·.isPage)
  rwa [hAt, List.filter_cons_of_neg (by simp [hPage])] at hPerm

theorem store_names (hResolve : ∀ path, resolve (resolve path) = resolve path)
    (hCache : ∀ path entry, s.directoryCache path = some entry → entry.path = resolve path) (load : Load) :
    ∀ path entry, (s.store load.path (answeredEntry resolve load)).directoryCache path = some entry → entry.path = resolve path := by
  intro path entry hEntry
  rcases store_of_some hEntry with ⟨rfl, rfl | rfl⟩ | hOld
  · rfl
  · exact (hResolve load.path).symm
  · exact hCache path entry hOld

section

variable (hKept : PageKept resolve s)
include hKept

theorem PageKept.settle (hPerm : (load :: pageLoads s').Perm (pageLoads s)) (hCurrent : load.generation = s.loadGeneration)
    (hGeneration : s'.loadGeneration = s.loadGeneration) (hStatus : s'.status ≠ .loading) (hRefreshing : s'.isRefreshing = false)
    (hCache : ∀ path entry, s'.directoryCache path = some entry → entry.path = resolve path) (hOne : s'.navigations.length ≤ 1)
    (hListed : ∀ navigation ∈ s'.navigations, navigation.listed = true →
      navigation.outcome = some true ∧ s'.currentPath = resolve navigation.target) : PageKept resolve s' := by
  have hCount : (pageLoads s').countP (fun load => load.generation = s.loadGeneration) = 0 := by
    have hNewest := hKept.newest
    rw [← hPerm.countP_eq, List.countP_cons_of_pos (by simpa using hCurrent)] at hNewest
    omega
  have hOlder : ∀ other ∈ pageLoads s', other.generation ≠ s'.loadGeneration := by
    rw [hGeneration]
    simpa using List.countP_eq_zero.mp hCount
  have hOld : ∀ other ∈ pageLoads s', other ∈ pageLoads s :=
    fun other hOther => hPerm.mem_iff.mp (List.mem_cons_of_mem _ hOther)
  refine ⟨hOne, fun other hOther => ?_, ?_, fun hLoading => absurd hLoading hStatus, fun hMarked => ?_,
    fun other hOther => hKept.replaces other (hOld other hOther), fun other hOther index hOwner => ?_,
    fun navigation hNavigation hAnswered => ?_, hCache⟩
  · rw [hGeneration]
    exact hKept.generations other (hOld other hOther)
  · rw [hGeneration, hCount]
    exact Nat.zero_le 1
  · rw [hRefreshing] at hMarked
    contradiction
  · have hSame := (hKept.navigating other (hOld other hOther) index hOwner).1
    exact absurd (hSame.trans hGeneration.symm) (hOlder other hOther)
  · obtain ⟨hOutcome, hPath⟩ := hListed navigation hNavigation hAnswered
    exact ⟨hOutcome, hPath, fun other hOther hNewest => absurd hNewest (hOlder other hOther)⟩

theorem PageKept.stale (hLoad : s.loads[index]? = some load) (hPage : load.isPage = true)
    (hStale : load.generation ≠ s.loadGeneration) (listed : Bool) (result : Option Path) :
    PageKept resolve ({ s with loads := s.loads.eraseIdx index }.notifyOwner load.owner listed result) := by
  have hPerm := pageLoads_erase hLoad hPage
  have hMem : load ∈ pageLoads s := hPerm.mem_iff.mp List.mem_cons_self
  have hOld : ∀ other ∈ pageLoads { s with loads := s.loads.eraseIdx index }, other ∈ pageLoads s :=
    fun other hOther => hPerm.mem_iff.mp (List.mem_cons_of_mem _ hOther)
  have hRest : ∀ other ∈ pageLoads s, other.generation = s.loadGeneration →
      other ∈ pageLoads { s with loads := s.loads.eraseIdx index } := by
    intro other hOther hCurrent
    rcases List.mem_cons.mp (hPerm.mem_iff.mpr hOther) with rfl | hRest
    · exact absurd hCurrent hStale
    · exact hRest
  have hErased : PageKept resolve { s with loads := s.loads.eraseIdx index } := by
    refine ⟨hKept.one, fun other hOther => hKept.generations other (hOld other hOther), ?_, fun hLoading => ?_,
      fun hRefreshing => ?_, fun other hOther => hKept.replaces other (hOld other hOther),
      fun other hOther => hKept.navigating other (hOld other hOther), fun navigation hNavigation hListed => ?_,
      hKept.cache⟩
    · have hNewest := hKept.newest
      rw [← hPerm.countP_eq, List.countP_cons_of_neg (by simpa using hStale)] at hNewest
      exact hNewest
    · obtain ⟨other, hOther, hCurrent, hReplaces⟩ := hKept.loading hLoading
      exact ⟨other, hRest other hOther hCurrent, hCurrent, hReplaces⟩
    · obtain ⟨other, hOther, hCurrent⟩ := hKept.refreshing hRefreshing
      exact ⟨other, hRest other hOther hCurrent, hCurrent⟩
    · obtain ⟨hOutcome, hPath, hLoads⟩ := hKept.listed navigation hNavigation hListed
      exact ⟨hOutcome, hPath, fun other hOther => hLoads other (hOld other hOther)⟩
  cases hOwner : load.owner with
  | navigation index => exact absurd (hKept.navigating load hMem index hOwner).1 hStale
  | refresh => exact hErased.same ⟨.refl _, rfl, rfl, rfl, rfl, rfl, fun _ _ => .inl⟩
  | nobody => exact hErased

theorem PageKept.navigations (hLoad : load ∈ pageLoads s) (hOwner : load.owner = .navigation index) :
    index = 0 ∧ s.navigations = [⟨load.path, false, none⟩] := by
  have hAt := (hKept.navigating load hLoad index hOwner).2
  have hOne := hKept.one
  match hNavigations : s.navigations with
  | [] => simp [hNavigations] at hAt
  | [navigation] =>
    rw [hNavigations] at hAt
    cases index with
    | zero =>
      obtain rfl : navigation = _ := by simpa using hAt
      exact ⟨rfl, rfl⟩
    | succ index => simp at hAt
  | first :: second :: rest =>
    rw [hNavigations] at hOne
    simp at hOne

theorem PageKept.notified (hPerm : (load :: pageLoads t).Perm (pageLoads s)) (hCurrent : load.generation = s.loadGeneration)
    (hGeneration : t.loadGeneration = s.loadGeneration) (hStatus : t.status ≠ .loading) (hRefreshing : t.isRefreshing = false)
    (hCache : ∀ path entry, t.directoryCache path = some entry → entry.path = resolve path)
    (hNavigations : t.navigations = s.navigations) (hPath : t.currentPath = s.currentPath ∨ t.currentPath = resolve load.path)
    {listed : Bool} {result : Option Path} (hResult : listed = true → result.isSome = true ∧ t.currentPath = resolve load.path) :
    PageKept resolve (t.notifyOwner load.owner listed result) := by
  have hMem : load ∈ pageLoads s := hPerm.mem_iff.mp List.mem_cons_self
  have hOthers : ∀ navigation ∈ s.navigations, navigation.listed = true →
      navigation.outcome = some true ∧ t.currentPath = resolve navigation.target := by
    intro navigation hNavigation hListed
    obtain ⟨hOutcome, hShown, hLoads⟩ := hKept.listed navigation hNavigation hListed
    refine ⟨hOutcome, ?_⟩
    rcases hPath with hSame | hNew
    · exact hSame.trans hShown
    · exact hNew.trans (hLoads load hMem hCurrent)
  cases hOwner : load.owner with
  | navigation index =>
    obtain ⟨rfl, hOnly⟩ := hKept.navigations hMem hOwner
    have hAnswered : (t.notifyOwner (.navigation 0) listed result).navigations =
        [⟨load.path, listed, some result.isSome⟩] := by
      simp [notifyOwner, hNavigations, hOnly]
    refine hKept.settle hPerm hCurrent hGeneration hStatus hRefreshing hCache (by rw [hAnswered]; exact le_rfl) ?_
    rw [hAnswered]
    intro navigation hNavigation hListed
    rw [List.mem_singleton.mp hNavigation] at hListed ⊢
    obtain ⟨hSome, hShown⟩ := hResult hListed
    exact ⟨congrArg some hSome, hShown⟩
  | refresh =>
    exact hKept.settle hPerm hCurrent hGeneration hStatus hRefreshing hCache (hNavigations ▸ hKept.one)
      (hNavigations.symm ▸ hOthers)
  | nobody =>
    exact hKept.settle hPerm hCurrent hGeneration hStatus hRefreshing hCache (hNavigations ▸ hKept.one)
      (hNavigations.symm ▸ hOthers)

end

theorem PageKept.succeeded (hResolve : ∀ path, resolve (resolve path) = resolve path) (hKept : PageKept resolve s)
    (hLoad : s.loads[index]? = some load) (hPage : load.isPage = true) (hCurrent : load.generation = s.loadGeneration) :
    PageKept resolve (({ s with loads := s.loads.eraseIdx index }.pageSucceeds resolve load).notifyOwner load.owner
      true (some (resolve load.path))) := by
  rw [pageSucceeds]
  have hSame : SamePage resolve _ _ := begun_same (syncAncestors_begun ({ s with
    loads := s.loads.eraseIdx index
    addressPath := resolve load.path
    currentPath := resolve load.path
    isRefreshing := false
    status := .ready }.store load.path (answeredEntry resolve load))
    (resolveAncestorDirectoryPaths (resolve load.path)))
  refine hKept.notified ((hSame.loads.cons load).trans (pageLoads_erase hLoad hPage)) hCurrent hSame.generation
    (by rw [hSame.status]; rintro ⟨⟩) hSame.isRefreshing (hSame.named ?_) hSame.navigations
    (.inr hSame.currentPath) fun _ => ⟨rfl, hSame.currentPath⟩
  exact store_names hResolve hKept.cache load

variable (resolve) in
theorem pageFails_same (s : DirectoryPage) (load : Load) (preserveCurrentView : Bool) :
    ∃ left, SamePage resolve { s with isRefreshing := false } left ∧
      s.pageFails load preserveCurrentView = if preserveCurrentView then left else { left with status := .error } :=
  ⟨_, begun_same (syncAncestors_begun _ _), rfl⟩

theorem PageKept.failed (hKept : PageKept resolve s) (hLoad : s.loads[index]? = some load) (hPage : load.isPage = true)
    (hCurrent : load.generation = s.loadGeneration) :
    PageKept resolve (({ s with loads := s.loads.eraseIdx index }.pageFails load load.preserves).notifyOwner load.owner
      false none) := by
  obtain ⟨left, hSame, hFails⟩ := pageFails_same resolve { s with loads := s.loads.eraseIdx index } load
    load.preserves
  have hPerm := pageLoads_erase hLoad hPage
  have hLeft : (load :: pageLoads left).Perm (pageLoads s) := (hSame.loads.cons load).trans hPerm
  have hCache := hSame.named hKept.cache
  rw [hFails]
  cases hPreserves : load.preserves with
  | false =>
    exact hKept.notified (t := { left with status := .error }) hLeft hCurrent hSame.generation nofun hSame.isRefreshing
      hCache hSame.navigations (.inl hSame.currentPath) nofun
  | true =>
    refine hKept.notified (t := left) hLeft hCurrent hSame.generation (fun hLoading => ?_) hSame.isRefreshing hCache
      hSame.navigations (.inl hSame.currentPath) nofun
    obtain ⟨other, hOther, hNewest, hReplaces⟩ := hKept.loading (hSame.status.symm.trans hLoading)
    have hCount := hKept.newest
    rw [← hLeft.countP_eq, List.countP_cons_of_pos (by simpa using hCurrent)] at hCount
    rcases List.mem_cons.mp (hLeft.mem_iff.mpr hOther) with rfl | hRest
    · rw [hPreserves] at hReplaces
      contradiction
    · have hNone : (pageLoads left).countP (fun load => load.generation = s.loadGeneration) = 0 := by omega
      exact List.countP_eq_zero.mp hNone other hRest (by simpa using hNewest)

theorem PageKept.respond (hResolve : ∀ path, resolve (resolve path) = resolve path) (hKept : PageKept resolve s)
    (hLoad : s.loads[index]? = some load) (success : Bool) :
    PageKept resolve ({ s with loads := s.loads.eraseIdx index }.finishLoad resolve load success) := by
  cases hKind : load.kind with
  | page generation preserveCurrentView owner =>
    have hOwner : load.owner = owner := by rw [Load.owner, hKind]
    have hGeneration : load.generation = generation := by rw [Load.generation, hKind]
    have hPreserves : load.preserves = preserveCurrentView := by rw [Load.preserves, hKind]
    have hPage : load.isPage = true := by rw [Load.isPage, hKind]
    simp only [finishLoad, hKind, ← hOwner, ← hGeneration, ← hPreserves]
    split_ifs with hStale
    · exact hKept.stale hLoad hPage hStale success none
    · exact hKept.succeeded hResolve hLoad hPage (not_not.mp hStale)
    · exact hKept.failed hLoad hPage (not_not.mp hStale)
  | tree generation =>
    have hErased := pageLoads_erase_tree hLoad (by rw [Load.isPage, hKind])
    simp only [finishLoad, hKind]
    split
    · refine hKept.same ⟨hErased, rfl, rfl, rfl, rfl, rfl, fun path entry hEntry => .inr ?_⟩
      exact store_names hResolve hKept.cache load path entry hEntry
    · exact hKept.same ⟨hErased, rfl, rfl, rfl, rfl, rfl, fun _ _ => .inl⟩
  | ancestor generation remaining =>
    have hErased := pageLoads_erase_tree hLoad (by rw [Load.isPage, hKind])
    have hLeft : PageKept resolve { s with loads := s.loads.eraseIdx index } := hKept.same ⟨hErased, rfl, rfl, rfl, rfl, rfl, fun _ _ => .inl⟩
    simp only [finishLoad, hKind]
    split_ifs
    · have hStored : PageKept resolve ({ s with loads := s.loads.eraseIdx index }.store load.path
          (answeredEntry resolve load)) :=
        hKept.same ⟨hErased, rfl, rfl, rfl, rfl, rfl, fun path entry hEntry =>
          .inr (store_names hResolve hKept.cache load path entry hEntry)⟩
      exact hStored.same (begun_same (syncAncestors_begun _ _))
    · exact hLeft
    · exact hLeft.same (begun_same (syncAncestors_begun _ _))

variable (resolve) in
theorem navigateToPath_cached {s : DirectoryPage} {directoryPath : Path} {entry : DirectoryCacheEntry}
    (hTarget : JsText.trim directoryPath ≠ []) (hCached : s.directoryCache (JsText.trim directoryPath) = some entry) :
    ∃ shown, SamePage resolve (((s.addNavigation (JsText.trim directoryPath) none).beginLoad
        (JsText.trim directoryPath)).applyDirectoryCacheEntry entry) shown ∧ s.navigateToPath directoryPath =
        shown.notifyOwner (.navigation s.navigations.length) true (some entry.path) := by
  have hAdded : (s.addNavigation (JsText.trim directoryPath) none).directoryCache (JsText.trim directoryPath) =
      some entry := hCached
  refine ⟨_, begun_same (syncAncestors_begun _ (resolveAncestorDirectoryPaths entry.path)), ?_⟩
  simp [navigateToPath, hTarget, loadDirectory, hAdded]

variable {directoryPath : Path}

theorem navigateToPath_requested (hTarget : JsText.trim directoryPath ≠ []) (hCached : s.directoryCache (JsText.trim directoryPath) = none) :
    s.navigateToPath directoryPath = ((s.addNavigation (JsText.trim directoryPath) none).beginLoad
      (JsText.trim directoryPath)).requestPage (JsText.trim directoryPath) false (.navigation s.navigations.length) := by
  have hAdded : (s.addNavigation (JsText.trim directoryPath) none).directoryCache (JsText.trim directoryPath) =
      none := hCached
  simp [navigateToPath, hTarget, loadDirectory, hAdded]

section

variable (hKept : PageKept resolve s)
include hKept

theorem PageKept.noNavigation (hFirst : s.navigations = []) : ∀ load ∈ pageLoads s, ∀ index, load.owner ≠ .navigation index := by
  intro load hLoad index hOwner
  have hAt := (hKept.navigating load hLoad index hOwner).2
  simp [hFirst] at hAt

theorem PageKept.navigate_cached {entry : DirectoryCacheEntry} (hTarget : JsText.trim directoryPath ≠ [])
    (hCached : s.directoryCache (JsText.trim directoryPath) = some entry) (hFirst : s.navigations = [])
    (hNewest : ∀ load ∈ pageLoads s, load.generation ≠ s.loadGeneration) : PageKept resolve (s.navigateToPath directoryPath) := by
  obtain ⟨shown, hShown, hNavigated⟩ := navigateToPath_cached resolve hTarget hCached
  have hMem : ∀ load, load ∈ pageLoads shown ↔ load ∈ pageLoads s := fun load => hShown.loads.mem_iff
  have hDone : (shown.notifyOwner (.navigation s.navigations.length) true (some entry.path)).navigations =
      [⟨JsText.trim directoryPath, true, some true⟩] := by
    rw [notifyOwner, hShown.navigations]
    simp [applyDirectoryCacheEntry, beginLoad, addNavigation, hFirst]
  have hGeneration : shown.loadGeneration = s.loadGeneration + 1 := hShown.generation
  have hReady : shown.status = .ready := hShown.status
  have hPath : shown.currentPath = resolve (JsText.trim directoryPath) := hShown.currentPath.trans (hKept.cache _ entry hCached)
  have hWasQuiet : s.isRefreshing = false := by
    by_contra hRefreshing
    obtain ⟨load, hLoad, hCurrent⟩ := hKept.refreshing (by simpa using hRefreshing)
    exact hNewest load hLoad hCurrent
  have hQuiet : shown.isRefreshing = false := hShown.isRefreshing.trans hWasQuiet
  rw [hNavigated]
  refine ⟨by rw [hDone]; exact le_rfl, fun load hLoad => ?_, ?_, fun hLoading => ?_, fun hRefreshing => ?_,
    fun load hLoad => hKept.replaces load ((hMem load).mp hLoad),
    fun load hLoad index hOwner => absurd hOwner (hKept.noNavigation hFirst load ((hMem load).mp hLoad) index),
    fun navigation hNavigation _ => ?_, hShown.named hKept.cache⟩
  · exact (hKept.generations load ((hMem load).mp hLoad)).trans (hGeneration ▸ Nat.le_succ _)
  · have hNone : (pageLoads shown).countP (fun load => load.generation = shown.loadGeneration) = 0 := by
      rw [List.countP_eq_zero, hGeneration]
      intro load hLoad
      simpa using hKept.older load ((hMem load).mp hLoad)
    exact hNone.le.trans (Nat.zero_le 1)
  · cases hReady.symm.trans hLoading
  · cases hQuiet.symm.trans hRefreshing
  · rw [hDone] at hNavigation
    rw [List.mem_singleton.mp hNavigation]
    refine ⟨rfl, hPath, fun load hLoad hCurrent => ?_⟩
    exact absurd (hCurrent.trans hGeneration) (hKept.older load ((hMem load).mp hLoad))

theorem PageKept.navigate_requested (hTarget : JsText.trim directoryPath ≠ [])
    (hCached : s.directoryCache (JsText.trim directoryPath) = none) (hFirst : s.navigations = []) :
    PageKept resolve (s.navigateToPath directoryPath) := by
  rw [navigateToPath_requested hTarget hCached]
  have hLoads : pageLoads (((s.addNavigation (JsText.trim directoryPath) none).beginLoad
      (JsText.trim directoryPath)).requestPage (JsText.trim directoryPath) false
        (.navigation s.navigations.length)) = pageLoads s ++ [⟨JsText.trim directoryPath, s.clock,
          .page (s.loadGeneration + 1) false (.navigation 0)⟩] := by
    rw [pageLoads, requestPage, request, List.filter_append, hFirst]
    rfl
  have hDone : (s.addNavigation (JsText.trim directoryPath) none).navigations =
      [⟨JsText.trim directoryPath, false, none⟩] := by simp [addNavigation, hFirst]
  refine hKept.begins hLoads rfl rfl (hKept.noNavigation hFirst) (hDone.symm ▸ le_rfl) (.inr rfl) (fun _ => ⟨0, rfl⟩)
    (fun index hOwner => ?_) (fun navigation hNavigation hListed => ?_) hKept.cache
  · cases hOwner
    exact congrArg (·[0]?) hDone
  · obtain rfl := List.mem_singleton.mp (hDone ▸ hNavigation)
    contradiction

theorem PageKept.navigate (hFirst : s.navigations = []) (hOvertakes : overtakesRefresh s (.navigate directoryPath) = false) :
    PageKept resolve (s.navigateToPath directoryPath) := by
  by_cases hTarget : JsText.trim directoryPath = []
  · rw [navigateToPath, if_pos hTarget]
    refine ⟨by simp [addNavigation, hFirst], hKept.generations, hKept.newest, hKept.loading, hKept.refreshing,
      hKept.replaces, fun load hLoad index hOwner => absurd hOwner (hKept.noNavigation hFirst load hLoad index),
      fun navigation hNavigation hListed => ?_, hKept.cache⟩
    simp only [addNavigation, hFirst, List.nil_append, List.mem_singleton] at hNavigation
    rw [hNavigation] at hListed
    contradiction
  cases hCached : s.directoryCache (JsText.trim directoryPath) with
  | some entry =>
    have hNewest : ∀ load ∈ pageLoads s, load.generation ≠ s.loadGeneration := by
      simpa [overtakesRefresh, hTarget, hCached] using hOvertakes
    exact hKept.navigate_cached hTarget hCached hFirst hNewest
  | none => exact hKept.navigate_requested hTarget hCached hFirst

end

theorem undisturbed_turn {event : PageEvent} (hUndisturbed : undisturbed s event = true) (hTurn : s.turnStart event = some t) :
    s.currentPathRef = s.currentPath ∧ ∀ navigation ∈ s.navigations, navigation.outcome.isSome = true := by
  simpa [undisturbed, hTurn] using (Bool.and_eq_true_iff.mp hUndisturbed).2

theorem step_kept (hResolve : ∀ path, resolve (resolve path) = resolve path) (hKept : PageKept resolve s) {event : PageEvent}
    (hOne : oneNavigation s event = true) (hUndisturbed : undisturbed s event = true) : PageKept resolve (s.step resolve event) := by
  have hTurn : ∀ t, s.turnStart event = some t → PageKept resolve t → t.currentPathRef = s.currentPathRef →
      t.currentPath = s.currentPath → t.navigations = s.navigations → PageKept resolve (s.step resolve event) := by
    intro t hStart hStarts hRef hPath hNavigations
    obtain ⟨hRendered, hNavigated⟩ := undisturbed_turn hUndisturbed hStart
    rw [step_of_turnStart hStart]
    exact hStarts.refreshTurn hResolve (hRef.trans (hRendered.trans hPath.symm)) (hNavigations ▸ hNavigated)
  have hAdded : ∀ paths since owner phase, PageKept resolve (s.addCall paths since owner phase) :=
    fun _ _ _ _ => hKept.same ⟨.refl _, rfl, rfl, rfl, rfl, rfl, fun _ _ => .inl⟩
  cases event with
  | navigate directoryPath =>
    have hOvertakes : overtakesRefresh s (.navigate directoryPath) = false := by
      simpa using (Bool.and_eq_true_iff.mp hUndisturbed).1
    exact hKept.navigate (by simpa [oneNavigation] using hOne) hOvertakes
  | reload => contradiction
  | expand directoryPath => exact hKept.same (begun_same (s.loadTreeDirectoryChildren_begun directoryPath))
  | refreshTreeDirectory directoryPath => contradiction
  | mutate => exact hKept.same ⟨.refl _, rfl, rfl, rfl, rfl, rfl, fun _ _ => .inl⟩
  | refreshAfterOperation paths since =>
    by_cases hSince : since ≤ s.clock
    · cases hPhase : s.refresh with
      | idle => exact hTurn _ (if_pos ⟨hSince, hPhase⟩) (hAdded paths since true .joined) rfl rfl rfl
      | awaiting => simpa [step, hSince, refreshCurrentDirectoryAfterOperation, hPhase] using hAdded _ _ _ _
      | loaded => simpa [step, hSince, refreshCurrentDirectoryAfterOperation, hPhase] using hAdded _ _ _ _
      | returned => simpa [step, hSince, refreshCurrentDirectoryAfterOperation, hPhase] using hAdded _ _ _ _
    · simpa [step, hSince] using hKept
  | respond index success =>
    rw [step]
    split
    · rename_i load hLoad
      exact hKept.respond hResolve hLoad success
    · exact hKept
  | continueRefresh =>
    by_cases hLoaded : s.refresh = .loaded
    · by_cases hPending : s.pendingRefreshPaths = []
      · rw [step, if_pos hLoaded, continueRefresh, if_pos hPending]
        exact hKept.same ⟨.refl _, rfl, rfl, rfl, rfl, rfl, fun _ _ => .inl⟩
      · exact hTurn s (if_pos ⟨hLoaded, hPending⟩) hKept rfl rfl rfl
    · rw [step, if_neg hLoaded]
      exact hKept
  | resumeCall index =>
    rw [step]
    split
    · split
      · rw [resumeCall]
        dsimp only
        split <;> exact hKept.same ⟨.refl _, rfl, rfl, rfl, rfl, rfl, fun _ _ => .inl⟩
      · exact hKept
    · exact hKept
  | commit => exact hKept.same ⟨.refl _, rfl, rfl, rfl, rfl, rfl, fun _ _ => .inl⟩

theorem opened_kept (currentPath : Path) : PageKept resolve (opened currentPath) :=
  ⟨Nat.zero_le 1, nofun, Nat.zero_le 1, nofun, nofun, nofun, nofun, nofun, nofun⟩

/-- While no turn of a refresh starts during the navigation or before its result is rendered, and the navigation
does not overtake a refresh out of the cache, it is kept. -/
theorem undisturbed_navigation_is_kept (hResolve : ∀ path, resolve (resolve path) = resolve path) {s : DirectoryPage}
    (hReachable : (directoryPages resolve).ReachableWhile
      (fun s event => (oneNavigation s event && undisturbed s event) = true) s) : NavigationKept resolve s := by
  have hKept : PageKept resolve s := by
    refine hReachable.invariant ?_ fun s event hKept hGuard => ?_
    · rintro _ ⟨currentPath, rfl⟩
      exact opened_kept currentPath
    · obtain ⟨hOne, hUndisturbed⟩ := Bool.and_eq_true_iff.mp hGuard
      exact step_kept hResolve hKept hOne hUndisturbed
  exact hKept.navigationKept

end Navigations

theorem navigation_then_refresh_is_kept : NavigationKept id ((directoryPages id).run (opened ['/'])
      [.navigate ['/', 'a'], .respond 0 true, .commit, .refreshAfterOperation [['/', 'a']] 0, .respond 1 true, .continueRefresh]) := by
  have hStart : (directoryPages id).ReachableWhile
      (fun s event => (oneNavigation s event && undisturbed s event) = true) (opened ['/']) := .start ⟨_, rfl⟩
  exact undisturbed_navigation_is_kept (fun _ => rfl) (hStart.run (by decide))

/-- A refresh of `/` starts while the listing of `/a` is in flight. -/
def refreshDuringNavigation : List PageEvent := [.navigate ['/', 'a'], .refreshAfterOperation [] 0, .respond 0 true, .respond 0 false]

/-- `/a` is shown out of the cache while the refresh of `/` is in flight. -/
def navigationDuringRefresh : List PageEvent :=
  [.expand ['/', 'a'], .respond 0 true, .refreshAfterOperation [] 0, .navigate ['/', 'a'], .respond 0 true,
    .respond 0 true]

/-- The refresh still sees `/` as the current path. -/
def refreshBeforeRender : List PageEvent := [.navigate ['/', 'a'], .respond 0 true, .refreshAfterOperation [] 0, .respond 1 true]

theorem refresh_loses_navigation : ((directoryPages id).meets oneNavigation (opened ['/']) refreshDuringNavigation = true ∧
      ¬ NavigationKept id ((directoryPages id).run (opened ['/']) refreshDuringNavigation)) ∧
    ((directoryPages id).meets oneNavigation (opened ['/']) navigationDuringRefresh = true ∧
      ¬ NavigationKept id ((directoryPages id).run (opened ['/']) navigationDuringRefresh)) ∧
    ((directoryPages id).meets oneNavigation (opened ['/']) refreshBeforeRender = true ∧
      ¬ NavigationKept id ((directoryPages id).run (opened ['/']) refreshBeforeRender)) := by
  refine ⟨⟨by decide, fun hKept => ?_⟩, ⟨by decide, fun hKept => ?_⟩,
    ⟨by decide, fun hKept => ?_⟩⟩
  · have hOutcome := (hKept.1 ⟨['/', 'a'], true, some false⟩ (by decide) rfl).1
    exact absurd hOutcome (by decide)
  · have hQuiet := (hKept.2 (by decide)).2
    exact absurd hQuiet (by decide)
  · have hPath := (hKept.1 ⟨['/', 'a'], true, some true⟩ (by decide) rfl).2
    exact absurd hPath (by decide)

end SftpPage
