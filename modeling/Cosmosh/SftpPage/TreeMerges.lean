import Cosmosh.SftpPage.BreadcrumbChains

/-! # What the merges list

A merge is told by the pairs of a parent and a child that the tree lists after it, by the paths that have a
node, and by the paths that are loaded.
-/

namespace SftpPage

open Library Library.Transition
open Sftp (Collation)

variable {treeNodes : TreeNodes} {key child : Path}

def Lists (treeNodes : TreeNodes) (key child : Path) : Prop := ∃ node, treeNodes.get? key = some node ∧ child ∈ node.children

def Registered (treeNodes : TreeNodes) (key : Path) : Prop := ∃ node, treeNodes.get? key = some node

def Loaded (treeNodes : TreeNodes) (key : Path) : Prop := ∃ node, treeNodes.get? key = some node ∧ node.isLoaded = true

variable {place : Path} {node : TreeDirectoryNode}

theorem lists_set_iff :
    Lists (treeNodes.set place node) key child ↔ (key = place ∧ child ∈ node.children) ∨ (key ≠ place ∧ Lists treeNodes key child) := by
  rw [Lists, JsMap.get?_set]
  split
  · next hKey => simp [hKey]
  · next hKey => simp [hKey, Lists]

theorem registered_set_iff : Registered (treeNodes.set place node) key ↔ key = place ∨ Registered treeNodes key := by
  rw [Registered, JsMap.get?_set]
  split
  · next hKey => simp [hKey]
  · next hKey => simp [hKey, Registered]

theorem loaded_set_iff :
    Loaded (treeNodes.set place node) key ↔ (key = place ∧ node.isLoaded = true) ∨ (key ≠ place ∧ Loaded treeNodes key) := by
  rw [Loaded, JsMap.get?_set]
  split
  · next hKey => simp [hKey]
  · next hKey => simp [hKey, Loaded]

variable {old : TreeDirectoryNode}

theorem registered_set_of_get (h : treeNodes.get? place = some old) : Registered (treeNodes.set place node) key ↔ Registered treeNodes key := by
  rw [registered_set_iff]
  refine or_iff_right_of_imp ?_
  rintro rfl
  exact ⟨old, h⟩

theorem loaded_set_of_get (h : treeNodes.get? place = some old) (hSame : node.isLoaded = old.isLoaded) :
    Loaded (treeNodes.set place node) key ↔ Loaded treeNodes key := by
  rw [loaded_set_iff, hSame]
  by_cases hKey : key = place
  · simp [hKey, Loaded, h]
  · simp [hKey]

theorem mem_children_getD_iff : child ∈ ((treeNodes.get? key).map (·.children)).getD [] ↔ Lists treeNodes key child := by
  rw [Lists]
  cases treeNodes.get? key with
  | none => simp
  | some node => simp

theorem isLoaded_getD_iff : ((treeNodes.get? key).map (·.isLoaded)).getD false = true ↔ Loaded treeNodes key := by
  rw [Loaded]
  cases treeNodes.get? key with
  | none => simp
  | some node => simp

theorem lists_set_of_children (h : node.children = ((treeNodes.get? place).map (·.children)).getD []) :
    Lists (treeNodes.set place node) key child ↔ Lists treeNodes key child := by
  rw [lists_set_iff, h, mem_children_getD_iff]
  by_cases hKey : key = place
  · simp [hKey]
  · simp [hKey]

theorem loaded_set_of_isLoaded (h : node.isLoaded = ((treeNodes.get? place).map (·.isLoaded)).getD false) :
    Loaded (treeNodes.set place node) key ↔ Loaded treeNodes key := by
  rw [loaded_set_iff, h, isLoaded_getD_iff]
  by_cases hKey : key = place
  · simp [hKey]
  · simp [hKey]

variable {items : List Path}

theorem mem_addToSet {item x : Path} : x ∈ addToSet items item ↔ x ∈ items ∨ x = item := by
  rw [addToSet]
  split
  · next hMem => exact ⟨.inl, fun h => h.elim id fun hSame => hSame ▸ hMem⟩
  · rw [List.mem_append, List.mem_singleton]

theorem nodup_addToSet (h : items.Nodup) (item : Path) : (addToSet items item).Nodup := by
  rw [addToSet]
  split
  · exact h
  · next hNew => exact List.nodup_append.mpr ⟨h, List.nodup_singleton item, fun a ha b hb hSame => hNew (List.mem_singleton.mp hb ▸ hSame ▸ ha)⟩

theorem mem_foldl_addToSet {taken : List Path} {x : Path} : x ∈ items.foldl addToSet taken ↔ x ∈ taken ∨ x ∈ items := by
  induction items generalizing taken with
  | nil => exact ⟨.inl, fun h => h.resolve_right List.not_mem_nil⟩
  | cons item items ih => rw [List.foldl_cons, ih, mem_addToSet, List.mem_cons, or_assoc]

theorem mem_toSet {x : Path} : x ∈ toSet items ↔ x ∈ items := by
  rw [toSet, mem_foldl_addToSet]
  exact ⟨fun h => h.resolve_left List.not_mem_nil, .inr⟩

theorem nodup_toSet (items : List Path) : (toSet items).Nodup := by
  have hFold : ∀ taken : List Path, taken.Nodup → (items.foldl addToSet taken).Nodup := by
    intro taken hTaken
    induction items generalizing taken with
    | nil => exact hTaken
    | cons item items ih => exact ih _ (nodup_addToSet hTaken item)
  exact hFold [] List.nodup_nil

def crumbIsHidden (treeNodes : TreeNodes) (breadcrumb : SftpBreadcrumbItem) : Bool :=
  ((treeNodes.get? breadcrumb.path).map (·.isHidden)).getD (isSftpDotHiddenName breadcrumb.label)

def shownCrumbs (showHiddenEntries : Bool) (treeNodes : TreeNodes) : Option Path → List SftpBreadcrumbItem → List (Path × Path)
  | _, [] => []
  | none, breadcrumb :: rest => shownCrumbs showHiddenEntries treeNodes (some breadcrumb.path) rest
  | some parentPath, breadcrumb :: rest =>
    let others := shownCrumbs showHiddenEntries treeNodes (some breadcrumb.path) rest
    if showHiddenEntries || !crumbIsHidden treeNodes breadcrumb then (parentPath, breadcrumb.path) :: others else others

variable {showHiddenEntries : Bool} {parentPath : Option Path} {breadcrumb : SftpBreadcrumbItem}

theorem lists_set_breadcrumbNode :
    Lists (treeNodes.set breadcrumb.path (breadcrumbNode (treeNodes.get? breadcrumb.path) parentPath breadcrumb)) key child ↔
      Lists treeNodes key child := lists_set_of_children rfl

theorem loaded_set_breadcrumbNode :
    Loaded (treeNodes.set breadcrumb.path (breadcrumbNode (treeNodes.get? breadcrumb.path) parentPath breadcrumb)) key ↔
      Loaded treeNodes key := loaded_set_of_isLoaded rfl

theorem mergeBreadcrumb_cases (showHiddenEntries : Bool) (treeNodes : TreeNodes) (parentPath : Option Path) (breadcrumb : SftpBreadcrumbItem) :
    let added := treeNodes.set breadcrumb.path (breadcrumbNode (treeNodes.get? breadcrumb.path) parentPath breadcrumb)
    let merged := mergeBreadcrumb showHiddenEntries treeNodes parentPath breadcrumb
    (merged = added ∧ ∀ key, parentPath = some key → ¬ Registered added key) ∨
      ∃ parentKey parent, parentPath = some parentKey ∧ added.get? parentKey = some parent ∧
        merged = added.set parentKey { parent with
          children := if showHiddenEntries || !crumbIsHidden treeNodes breadcrumb then addToSet (toSet parent.children) breadcrumb.path
            else toSet parent.children
          isExpanded := true } := by
  intro added merged
  cases parentPath with
  | none => exact .inl ⟨rfl, nofun⟩
  | some parentKey =>
    cases hParent : added.get? parentKey with
    | none =>
      refine .inl ⟨?_, ?_⟩
      · unfold merged mergeBreadcrumb
        dsimp only
        rw [hParent]
      · rintro key hKey ⟨node, hNode⟩
        rw [← Option.some.inj hKey, hParent] at hNode
        cases hNode
    | some parent =>
      refine .inr ⟨parentKey, parent, rfl, hParent, ?_⟩
      unfold merged mergeBreadcrumb
      dsimp only
      rw [hParent]
      rfl

theorem registered_mergeBreadcrumb :
    Registered (mergeBreadcrumb showHiddenEntries treeNodes parentPath breadcrumb) key ↔ key = breadcrumb.path ∨ Registered treeNodes key := by
  obtain ⟨hMerged, _⟩ | ⟨parentKey, parent, _, hParent, hMerged⟩ := mergeBreadcrumb_cases showHiddenEntries treeNodes parentPath breadcrumb
  · rw [hMerged, registered_set_iff]
  · rw [hMerged, registered_set_of_get hParent, registered_set_iff]

theorem loaded_mergeBreadcrumb : Loaded (mergeBreadcrumb showHiddenEntries treeNodes parentPath breadcrumb) key ↔ Loaded treeNodes key := by
  obtain ⟨hMerged, _⟩ | ⟨parentKey, parent, _, hParent, hMerged⟩ := mergeBreadcrumb_cases showHiddenEntries treeNodes parentPath breadcrumb
  · rw [hMerged, loaded_set_breadcrumbNode]
  · rw [hMerged, loaded_set_of_get hParent (by rfl), loaded_set_breadcrumbNode]

theorem lists_mergeBreadcrumb (hParent : ∀ parentKey, parentPath = some parentKey → Registered treeNodes parentKey) :
    Lists (mergeBreadcrumb showHiddenEntries treeNodes parentPath breadcrumb) key child ↔ Lists treeNodes key child ∨
      (parentPath = some key ∧ child = breadcrumb.path ∧ (showHiddenEntries || !crumbIsHidden treeNodes breadcrumb) = true) := by
  obtain ⟨hMerged, hNone⟩ | ⟨parentKey, parent, rfl, hGet, hMerged⟩ := mergeBreadcrumb_cases showHiddenEntries treeNodes parentPath breadcrumb
  · rw [hMerged, lists_set_breadcrumbNode]
    refine (or_iff_left ?_).symm
    rintro ⟨hKey, _⟩
    exact hNone key hKey (registered_set_iff.mpr (.inr (hParent key hKey)))
  · rw [hMerged, lists_set_iff]
    by_cases hKey : key = parentKey
    · subst hKey
      have hBefore : child ∈ parent.children ↔ Lists treeNodes key child := by
        rw [← lists_set_breadcrumbNode, Lists, hGet]
        simp
      split
      · next hShown => simp [mem_addToSet, mem_toSet, hBefore, hShown]
      · next hHidden => simp [mem_toSet, hBefore, hHidden]
    · have hOther : ¬ some parentKey = some key := fun hSame => hKey (Option.some.inj hSame).symm
      simp [hKey, hOther, lists_set_breadcrumbNode]

theorem crumbIsHidden_set_of_get (h : treeNodes.get? place = some old) (hSame : node.isHidden = old.isHidden) :
    crumbIsHidden (treeNodes.set place node) breadcrumb = crumbIsHidden treeNodes breadcrumb := by
  unfold crumbIsHidden
  rw [JsMap.get?_set]
  split
  · next hPlace => rw [hPlace, h, Option.map_some, Option.map_some, hSame]
  · rfl

theorem crumbIsHidden_mergeBreadcrumb {other : SftpBreadcrumbItem} (hOther : other.path ≠ breadcrumb.path) :
    crumbIsHidden (mergeBreadcrumb showHiddenEntries treeNodes parentPath breadcrumb) other = crumbIsHidden treeNodes other := by
  have hAdded : crumbIsHidden (treeNodes.set breadcrumb.path (breadcrumbNode (treeNodes.get? breadcrumb.path) parentPath breadcrumb)) other =
      crumbIsHidden treeNodes other := by
    rw [crumbIsHidden, JsMap.get?_set, if_neg hOther, crumbIsHidden]
  obtain ⟨hMerged, _⟩ | ⟨parentKey, parent, _, hGet, hMerged⟩ := mergeBreadcrumb_cases showHiddenEntries treeNodes parentPath breadcrumb
  · rw [hMerged, hAdded]
  · rw [hMerged, crumbIsHidden_set_of_get hGet (by rfl), hAdded]

variable {breadcrumbs : List SftpBreadcrumbItem}

theorem shownCrumbs_congr {other : TreeNodes}
    (h : ∀ breadcrumb ∈ breadcrumbs, crumbIsHidden other breadcrumb = crumbIsHidden treeNodes breadcrumb) (parentPath : Option Path) :
    shownCrumbs showHiddenEntries other parentPath breadcrumbs = shownCrumbs showHiddenEntries treeNodes parentPath breadcrumbs := by
  induction breadcrumbs generalizing parentPath with
  | nil => rfl
  | cons breadcrumb rest ih =>
    have hRest := ih (fun later hLater => h later (List.mem_cons_of_mem _ hLater)) (some breadcrumb.path)
    cases parentPath with
    | none => exact hRest
    | some parentKey => rw [shownCrumbs, shownCrumbs, hRest, h breadcrumb List.mem_cons_self]

theorem registered_mergeBreadcrumbs : Registered (mergeBreadcrumbs showHiddenEntries treeNodes parentPath breadcrumbs) key ↔
      key ∈ breadcrumbs.map (·.path) ∨ Registered treeNodes key := by
  induction breadcrumbs generalizing treeNodes parentPath with
  | nil => simp [mergeBreadcrumbs]
  | cons breadcrumb rest ih => rw [mergeBreadcrumbs, ih, registered_mergeBreadcrumb, List.map_cons, List.mem_cons, ← or_assoc, or_comm (b := _ = _)]

theorem loaded_mergeBreadcrumbs : Loaded (mergeBreadcrumbs showHiddenEntries treeNodes parentPath breadcrumbs) key ↔ Loaded treeNodes key := by
  induction breadcrumbs generalizing treeNodes parentPath with
  | nil => rfl
  | cons breadcrumb rest ih => rw [mergeBreadcrumbs, ih, loaded_mergeBreadcrumb]

theorem lists_mergeBreadcrumbs (hNodup : (breadcrumbs.map (·.path)).Nodup)
    (hParent : ∀ parentKey, parentPath = some parentKey → Registered treeNodes parentKey) :
    Lists (mergeBreadcrumbs showHiddenEntries treeNodes parentPath breadcrumbs) key child ↔
      Lists treeNodes key child ∨ (key, child) ∈ shownCrumbs showHiddenEntries treeNodes parentPath breadcrumbs := by
  induction breadcrumbs generalizing treeNodes parentPath with
  | nil => simp [mergeBreadcrumbs, shownCrumbs]
  | cons breadcrumb rest ih =>
    rw [List.map_cons, List.nodup_cons] at hNodup
    obtain ⟨hNew, hRest⟩ := hNodup
    have hKept : ∀ later ∈ rest, crumbIsHidden (mergeBreadcrumb showHiddenEntries treeNodes parentPath breadcrumb) later =
        crumbIsHidden treeNodes later := by
      intro later hLater
      exact crumbIsHidden_mergeBreadcrumb fun hSame => hNew (hSame ▸ List.mem_map_of_mem hLater)
    rw [mergeBreadcrumbs, ih hRest, lists_mergeBreadcrumb hParent, shownCrumbs_congr hKept]
    · cases parentPath with
      | none => simp [shownCrumbs]
      | some parentKey =>
        rw [shownCrumbs]
        split
        · next hShown => simp [hShown, or_assoc, eq_comm]
        · next hHidden => simp [hHidden]
    · rintro _ hKey
      exact registered_mergeBreadcrumb.mpr (.inl (Option.some.inj hKey).symm)

variable {collation : Collation} {directoryPath : Path} {entries : List ApiSftpEntry}

def childPaths (collation : Collation) (entries : List ApiSftpEntry) (showHiddenEntries : Bool) : List Path :=
  (directoryChildren collation entries showHiddenEntries).map (·.path)

theorem registered_foldl_mergeEntry :
    Registered (entries.foldl (mergeEntry directoryPath) treeNodes) key ↔ key ∈ entries.map (·.path) ∨ Registered treeNodes key := by
  induction entries generalizing treeNodes with
  | nil => simp
  | cons entry rest ih =>
    rw [List.foldl_cons, ih, mergeEntry, registered_set_iff, List.map_cons, List.mem_cons, ← or_assoc, or_comm (b := _ = _)]

theorem loaded_foldl_mergeEntry : Loaded (entries.foldl (mergeEntry directoryPath) treeNodes) key ↔ Loaded treeNodes key := by
  induction entries generalizing treeNodes with
  | nil => rfl
  | cons entry rest ih => rw [List.foldl_cons, ih, mergeEntry, loaded_set_of_isLoaded rfl]

theorem lists_foldl_mergeEntry : Lists (entries.foldl (mergeEntry directoryPath) treeNodes) key child ↔ Lists treeNodes key child := by
  induction entries generalizing treeNodes with
  | nil => rfl
  | cons entry rest ih => rw [List.foldl_cons, ih, mergeEntry, lists_set_of_children rfl]

theorem nodup_map_path_buildBreadcrumbs (path : Path) : ((buildBreadcrumbs path).map (·.path)).Nodup := by
  rw [map_path_buildBreadcrumbs]
  exact nodup_breadcrumbPaths path

theorem registered_mergeDirectoryEntriesIntoTree :
    Registered (mergeDirectoryEntriesIntoTree collation treeNodes directoryPath entries showHiddenEntries) key ↔
      key ∈ childPaths collation entries showHiddenEntries ∨ key = directoryPath ∨ key ∈ breadcrumbPaths directoryPath ∨
        Registered treeNodes key := by
  rw [mergeDirectoryEntriesIntoTree, registered_foldl_mergeEntry, registered_set_iff, mergePathBranchIntoTree, registered_mergeBreadcrumbs,
    map_path_buildBreadcrumbs, childPaths]

theorem loaded_mergeDirectoryEntriesIntoTree :
    Loaded (mergeDirectoryEntriesIntoTree collation treeNodes directoryPath entries showHiddenEntries) key ↔
      key = directoryPath ∨ Loaded treeNodes key := by
  rw [mergeDirectoryEntriesIntoTree, loaded_foldl_mergeEntry, loaded_set_iff, mergePathBranchIntoTree, loaded_mergeBreadcrumbs]
  by_cases hKey : key = directoryPath
  · simp [hKey]
  · simp [hKey]

def branchCrumbs (treeNodes : TreeNodes) (directoryPath : Path) (showHiddenEntries : Bool) : List (Path × Path) :=
  shownCrumbs showHiddenEntries treeNodes none (buildBreadcrumbs directoryPath)

theorem lists_mergePathBranchIntoTree : Lists (mergePathBranchIntoTree treeNodes directoryPath showHiddenEntries) key child ↔
      Lists treeNodes key child ∨ (key, child) ∈ branchCrumbs treeNodes directoryPath showHiddenEntries :=
  lists_mergeBreadcrumbs (nodup_map_path_buildBreadcrumbs directoryPath) nofun

theorem lists_mergeDirectoryEntriesIntoTree :
    Lists (mergeDirectoryEntriesIntoTree collation treeNodes directoryPath entries showHiddenEntries) key child ↔
      (key = directoryPath ∧ child ∈ childPaths collation entries showHiddenEntries) ∨ (key ≠ directoryPath ∧
          (Lists treeNodes key child ∨ (key, child) ∈ branchCrumbs treeNodes directoryPath showHiddenEntries)) := by
  rw [mergeDirectoryEntriesIntoTree, lists_foldl_mergeEntry, lists_set_iff, lists_mergePathBranchIntoTree, childPaths]

end SftpPage
