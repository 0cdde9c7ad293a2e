import Cosmosh.Sftp.ListingRoundTrip
import Cosmosh.SftpPage.TreeListing

/-! # When every listed child has a node

The one merge that takes a node away is that of a directory the server resolves to another path.
-/

namespace SftpPage

open Library Library.Transition Library.PosixPath
open Sftp (Collation joinSftpPath joinSftpPath_render)

structure WellFormedTree (treeNodes : TreeNodes) : Prop where
  children : ∀ key child, Lists treeNodes key child → ∃ node, treeNodes.get? child = some node ∧ node.parentPath = some key
  terminates : ∀ rootPaths, AreRoots treeNodes rootPaths →
    ∃ bound, ∀ fuel, bound ≤ fuel → (flattenVisibleSftpTreeRows treeNodes fuel rootPaths).isSome
  rows : ∀ rootPaths, AreRoots treeNodes rootPaths → ∀ fuel rows,
    flattenVisibleSftpTreeRows treeNodes fuel rootPaths = some rows → ListsVisible treeNodes rootPaths rows

variable {treeNodes : TreeNodes} {showHiddenEntries : Bool} {collation : Collation} {requestedPath resolvedPath : Path}
  {entries : List ApiSftpEntry}

theorem Rooted.wellFormed_iff (h : Rooted treeNodes) : WellFormedTree treeNodes ↔ Closed treeNodes := by
  constructor
  · intro hTree key child hLists
    obtain ⟨node, hNode, _⟩ := hTree.children key child hLists
    exact ⟨node, hNode⟩
  · intro hClosed
    refine ⟨?_, ?_, ?_⟩
    · intro key child hLists
      obtain ⟨node, hNode⟩ := hClosed key child hLists
      exact ⟨node, hNode, (h child node hNode).parentPath.trans (h.lexicalParent_of_lists hLists)⟩
    · exact fun rootPaths hRoots => h.flatten_terminates hClosed hRoots
    · exact fun rootPaths hRoots fuel rows hRows => h.listsVisible hClosed hRoots hRows

def isPlaceholder (treeNodes : TreeNodes) (requestedPath resolvedPath : Path) (showHiddenEntries : Bool) : Bool :=
  ((treeNodes.get? requestedPath).all fun node => !node.isLoaded && node.children.isEmpty) &&
    (branchCrumbs treeNodes resolvedPath showHiddenEntries).all fun crumb => crumb.1 ≠ requestedPath

def isListed (collation : Collation) (treeNodes : TreeNodes) (requestedPath resolvedPath : Path) (entries : List ApiSftpEntry)
    (showHiddenEntries : Bool) : Bool :=
  decide (requestedPath ∈ childPaths collation entries showHiddenEntries) ||
    ((branchCrumbs treeNodes resolvedPath showHiddenEntries).any fun crumb => crumb.1 ≠ resolvedPath ∧ crumb.2 = requestedPath) ||
    treeNodes.entries.any fun entry => entry.1 ≠ resolvedPath ∧ requestedPath ∈ entry.2.children

def keepsListedNodes (collation : Collation) (treeNodes : TreeNodes) (call : ListedCall) : Bool :=
  match call.1 with
  | .resolved requestedPath resolvedPath entries showHiddenEntries =>
    requestedPath = resolvedPath || !isPlaceholder treeNodes requestedPath resolvedPath showHiddenEntries ||
      !isListed collation treeNodes requestedPath resolvedPath entries showHiddenEntries
  | _ => true

theorem isPlaceholder_iff (hOther : requestedPath ≠ resolvedPath) :
    isPlaceholder treeNodes requestedPath resolvedPath showHiddenEntries = true ↔
      ¬ Loaded (mergeDirectoryEntriesIntoTree collation treeNodes resolvedPath entries showHiddenEntries) requestedPath ∧
        ∀ child, ¬ Lists (mergeDirectoryEntriesIntoTree collation treeNodes resolvedPath entries showHiddenEntries) requestedPath child := by
  have hBefore : ((treeNodes.get? requestedPath).all fun node => !node.isLoaded && node.children.isEmpty) = true ↔
      ¬ Loaded treeNodes requestedPath ∧ ∀ child, ¬ Lists treeNodes requestedPath child := by
    unfold Loaded Lists
    cases treeNodes.get? requestedPath with
    | none => simp
    | some node => simp [List.isEmpty_iff, List.eq_nil_iff_forall_not_mem]
  have hBranch : ((branchCrumbs treeNodes resolvedPath showHiddenEntries).all fun crumb => crumb.1 ≠ requestedPath) = true ↔
      ∀ child, (requestedPath, child) ∉ branchCrumbs treeNodes resolvedPath showHiddenEntries := by
    rw [List.all_eq_true]
    constructor
    · exact fun h child hCrumb => of_decide_eq_true (h _ hCrumb) rfl
    · rintro h ⟨key, child⟩ hCrumb
      exact decide_eq_true fun hKey => h child (hKey ▸ hCrumb)
  rw [isPlaceholder, Bool.and_eq_true, hBefore, hBranch, loaded_mergeDirectoryEntriesIntoTree]
  simp only [lists_mergeDirectoryEntriesIntoTree, hOther, false_and, false_or, ne_eq, not_false_eq_true, true_and, not_or, forall_and,
    and_assoc]

theorem isListed_iff : isListed collation treeNodes requestedPath resolvedPath entries showHiddenEntries = true ↔
    ∃ key, Lists (mergeDirectoryEntriesIntoTree collation treeNodes resolvedPath entries showHiddenEntries) key requestedPath := by
  simp only [isListed, Bool.or_eq_true, decide_eq_true_eq, List.any_eq_true, lists_mergeDirectoryEntriesIntoTree]
  constructor
  · rintro ((hChild | ⟨⟨key, child⟩, hCrumb, hOther, rfl⟩) | ⟨⟨key, node⟩, hNode, hOther, hChild⟩)
    · exact ⟨resolvedPath, .inl ⟨rfl, hChild⟩⟩
    · exact ⟨key, .inr ⟨hOther, .inr hCrumb⟩⟩
    · exact ⟨key, .inr ⟨hOther, .inl ⟨node, (treeNodes.mem_entries_iff key node).mp hNode, hChild⟩⟩⟩
  · rintro ⟨key, ⟨_, hChild⟩ | ⟨hOther, ⟨node, hNode, hChild⟩ | hCrumb⟩⟩
    · exact .inl (.inl hChild)
    · exact .inr ⟨(key, node), (treeNodes.mem_entries_iff key node).mpr hNode, hOther, hChild⟩
    · exact .inl (.inr ⟨(key, requestedPath), hCrumb, hOther, rfl⟩)

theorem mem_of_mem_shownCrumbs {parentPath : Option Path} {breadcrumbs : List SftpBreadcrumbItem} {key child : Path}
    (h : (key, child) ∈ shownCrumbs showHiddenEntries treeNodes parentPath breadcrumbs) : child ∈ breadcrumbs.map (·.path) := by
  induction breadcrumbs generalizing parentPath with
  | nil => cases h
  | cons breadcrumb rest ih =>
    rw [List.map_cons, List.mem_cons]
    cases parentPath with
    | none => exact .inr (ih h)
    | some parentKey =>
      rw [shownCrumbs] at h
      split at h
      · obtain hSame | hRest := List.mem_cons.mp h
        · exact .inl (Prod.mk.inj hSame).2
        · exact .inr (ih hRest)
      · exact .inr (ih h)

theorem Closed.mergePathBranchIntoTree (h : Closed treeNodes) (directoryPath : Path) (showHiddenEntries : Bool) :
    Closed (mergePathBranchIntoTree treeNodes directoryPath showHiddenEntries) := by
  intro key child hLists
  refine registered_mergeBreadcrumbs.mpr ?_
  obtain hOld | hCrumb := lists_mergePathBranchIntoTree.mp hLists
  · exact .inr (h key child hOld)
  · exact .inl (mem_of_mem_shownCrumbs hCrumb)

theorem Closed.mergeDirectoryEntriesIntoTree (h : Closed treeNodes) (collation : Collation) (directoryPath : Path)
    (entries : List ApiSftpEntry) (showHiddenEntries : Bool) :
    Closed (mergeDirectoryEntriesIntoTree collation treeNodes directoryPath entries showHiddenEntries) := by
  intro key child hLists
  rw [registered_mergeDirectoryEntriesIntoTree]
  obtain ⟨_, hChild⟩ | ⟨_, hOld | hCrumb⟩ := lists_mergeDirectoryEntriesIntoTree.mp hLists
  · exact .inl hChild
  · exact .inr (.inr (.inr (h key child hOld)))
  · have hPath := mem_of_mem_shownCrumbs hCrumb
    rw [map_path_buildBreadcrumbs] at hPath
    exact .inr (.inr (.inl hPath))

theorem mergeResolvedDirectoryIntoTree_cases (collation : Collation) (treeNodes : TreeNodes) (requestedPath resolvedPath : Path)
    (entries : List ApiSftpEntry) (showHiddenEntries : Bool) :
    let next := mergeDirectoryEntriesIntoTree collation treeNodes resolvedPath entries showHiddenEntries
    let merged := mergeResolvedDirectoryIntoTree collation treeNodes requestedPath resolvedPath entries showHiddenEntries
    (merged = next.delete requestedPath ∧ requestedPath ≠ resolvedPath ∧ Registered next requestedPath ∧
        ¬ Loaded next requestedPath ∧ ∀ child, ¬ Lists next requestedPath child) ∨
      (merged = next ∧ (requestedPath = resolvedPath ∨ ¬ Registered next requestedPath)) ∨
      ∃ node, next.get? requestedPath = some node ∧ merged = next.set requestedPath { node with isLoading := false } ∧
        (Loaded next requestedPath ∨ ∃ child, Lists next requestedPath child) := by
  intro next merged
  cases hNode : next.get? requestedPath with
  | none =>
    refine .inr (.inl ⟨?_, .inr ?_⟩)
    · unfold merged mergeResolvedDirectoryIntoTree
      dsimp only
      rw [hNode]
    · rintro ⟨node, hSome⟩
      cases hNode.symm.trans hSome
  | some node =>
    have hMerged : merged = if requestedPath ≠ resolvedPath then
        if !node.isLoaded && node.children.isEmpty then next.delete requestedPath
        else next.set requestedPath { node with isLoading := false }
      else next := by
      unfold merged mergeResolvedDirectoryIntoTree
      dsimp only
      rw [hNode]
    rw [hMerged]
    have hLoaded : Loaded next requestedPath ↔ node.isLoaded = true := by simp [Loaded, hNode]
    have hLists : ∀ child, Lists next requestedPath child ↔ child ∈ node.children := by
      intro child
      simp [Lists, hNode]
    split
    · next hOther =>
      split
      · next hEmpty =>
        rw [Bool.and_eq_true, Bool.not_eq_true', List.isEmpty_iff] at hEmpty
        refine .inl ⟨rfl, hOther, ⟨node, hNode⟩, ?_, fun child hChild => ?_⟩
        · rw [hLoaded, hEmpty.1]
          exact Bool.false_ne_true
        · rw [hLists, hEmpty.2] at hChild
          cases hChild
      · next hKept =>
        refine .inr (.inr ⟨node, rfl, rfl, ?_⟩)
        rw [hLoaded]
        cases hChildren : node.children with
        | nil => exact .inl (by simpa [hChildren] using hKept)
        | cons child rest => exact .inr ⟨child, (hLists child).mpr (hChildren ▸ List.mem_cons_self)⟩
    · next hSame => exact .inr (.inl ⟨rfl, .inl (not_not.mp hSame)⟩)

theorem lists_delete_iff {place key child : Path} : Lists (treeNodes.delete place) key child ↔ key ≠ place ∧ Lists treeNodes key child := by
  rw [Lists, JsMap.get?_delete]
  split
  · next hKey => simp [hKey]
  · next hKey => simp [hKey, Lists]

theorem registered_delete_iff {place key : Path} : Registered (treeNodes.delete place) key ↔ key ≠ place ∧ Registered treeNodes key := by
  rw [Registered, JsMap.get?_delete]
  split
  · next hKey => simp [hKey]
  · next hKey => simp [hKey, Registered]

theorem Rooted.mergeResolvedDirectoryIntoTree (h : Rooted treeNodes) (hListing : IsListing resolvedPath entries) (collation : Collation)
    (requestedPath : Path) (showHiddenEntries : Bool) :
    Rooted (mergeResolvedDirectoryIntoTree collation treeNodes requestedPath resolvedPath entries showHiddenEntries) := by
  have hNext := h.mergeDirectoryEntriesIntoTree hListing collation showHiddenEntries
  obtain ⟨hMerged, _⟩ | ⟨hMerged, _⟩ | ⟨node, hNode, hMerged, _⟩ :=
    mergeResolvedDirectoryIntoTree_cases collation treeNodes requestedPath resolvedPath entries showHiddenEntries
  · exact hMerged ▸ hNext.delete requestedPath
  · exact hMerged ▸ hNext
  · have hOld := hNext requestedPath node hNode
    exact hMerged ▸ hNext.set ⟨hOld.path, hOld.parentPath, hOld.nodup, hOld.children⟩

theorem Closed.mergeResolvedDirectoryIntoTree_iff (h : Closed treeNodes) (collation : Collation) (requestedPath resolvedPath : Path)
    (entries : List ApiSftpEntry) (showHiddenEntries : Bool) :
    Closed (mergeResolvedDirectoryIntoTree collation treeNodes requestedPath resolvedPath entries showHiddenEntries) ↔
      (requestedPath = resolvedPath ∨ ¬ isPlaceholder treeNodes requestedPath resolvedPath showHiddenEntries = true ∨
        ¬ isListed collation treeNodes requestedPath resolvedPath entries showHiddenEntries = true) := by
  have hNext := h.mergeDirectoryEntriesIntoTree collation resolvedPath entries showHiddenEntries
  rw [isListed_iff]
  obtain ⟨hMerged, hOther, _, hLoaded, hLists⟩ | ⟨hMerged, hKept⟩ | ⟨node, hNode, hMerged, hKept⟩ :=
    mergeResolvedDirectoryIntoTree_cases collation treeNodes requestedPath resolvedPath entries showHiddenEntries
  · rw [hMerged, or_iff_right hOther, or_iff_right (not_not.mpr ((isPlaceholder_iff hOther).mpr ⟨hLoaded, hLists⟩))]
    constructor
    · rintro hClosed ⟨key, hListed⟩
      have hKey : key ≠ requestedPath := by
        rintro rfl
        exact hLists _ hListed
      exact (registered_delete_iff.mp (hClosed key requestedPath (lists_delete_iff.mpr ⟨hKey, hListed⟩))).1 rfl
    · intro hUnlisted key child hListed
      obtain ⟨_, hBefore⟩ := lists_delete_iff.mp hListed
      refine registered_delete_iff.mpr ⟨?_, hNext key child hBefore⟩
      rintro rfl
      exact hUnlisted ⟨key, hBefore⟩
  · refine iff_of_true (hMerged ▸ hNext) ?_
    obtain hSame | hMissing := hKept
    · exact .inl hSame
    · refine .inr (.inr ?_)
      rintro ⟨key, hListed⟩
      exact hMissing (hNext key requestedPath hListed)
  · constructor
    · intro _
      refine or_iff_not_imp_left.mpr fun hOther => .inl fun hPlaceholder => ?_
      obtain ⟨hUnloaded, hEmpty⟩ := (isPlaceholder_iff hOther).mp hPlaceholder
      obtain hLoaded | ⟨child, hChild⟩ := hKept
      · exact hUnloaded hLoaded
      · exact hEmpty child hChild
    · intro _ key child hListed
      rw [hMerged] at hListed ⊢
      rw [registered_set_of_get hNode]
      refine hNext key child ?_
      obtain ⟨rfl, hChild⟩ | ⟨_, hOld⟩ := lists_set_iff.mp hListed
      · exact ⟨node, hNode, hChild⟩
      · exact hOld

theorem rooted_of_reachable (h : (treeRegistry collation).Reachable treeNodes) : Rooted treeNodes := by
  refine h.invariant (P := Rooted) ?_ ?_
  · rintro _ rfl
    exact Rooted.empty
  · rintro before ⟨call, hListing⟩ _ hRooted
    cases call with
    | branch directoryPath showHiddenEntries => exact hRooted.mergePathBranchIntoTree directoryPath showHiddenEntries
    | entries directoryPath listed showHiddenEntries =>
      exact hRooted.mergeDirectoryEntriesIntoTree hListing collation showHiddenEntries
    | resolved requestedPath resolvedPath listed showHiddenEntries =>
      exact hRooted.mergeResolvedDirectoryIntoTree hListing collation requestedPath showHiddenEntries

theorem closed_step_iff (h : Closed treeNodes) (call : ListedCall) :
    Closed ((treeRegistry collation).step treeNodes call) ↔ keepsListedNodes collation treeNodes call = true := by
  obtain ⟨call, hListing⟩ := call
  cases call with
  | branch directoryPath showHiddenEntries => exact iff_of_true (h.mergePathBranchIntoTree directoryPath showHiddenEntries) rfl
  | entries directoryPath listed showHiddenEntries =>
    exact iff_of_true (h.mergeDirectoryEntriesIntoTree collation directoryPath listed showHiddenEntries) rfl
  | resolved requestedPath resolvedPath listed showHiddenEntries =>
    refine (h.mergeResolvedDirectoryIntoTree_iff collation requestedPath resolvedPath listed showHiddenEntries).trans ?_
    simp [keepsListedNodes, or_assoc]

/-- The registry stays well formed exactly as long as no merge takes a listed node away. -/
theorem tree_stays_wellFormed_iff (collation : Collation) (calls : List ListedCall) :
    (∀ taken rest, calls = taken ++ rest → WellFormedTree ((treeRegistry collation).run JsMap.empty taken)) ↔
      (treeRegistry collation).meets (keepsListedNodes collation) JsMap.empty calls = true := by
  refine Machine.Reachable.always_iff_meets ?_ (.start rfl) ?_ calls
  · intro before call hReachable hTree
    have hRooted := rooted_of_reachable hReachable
    have hAfter := rooted_of_reachable (hReachable.step call)
    rw [hAfter.wellFormed_iff]
    exact closed_step_iff (hRooted.wellFormed_iff.mp hTree) call
  · refine Rooted.empty.wellFormed_iff.mpr ?_
    rintro key child ⟨node, hNode, _⟩
    cases hNode

/-- `/x` is listed as a directory, and then the server resolves it to `/data`. -/
def renamedCalls : List ListedCall :=
  [⟨.resolved "/".toList "/".toList [⟨"x".toList, "/x".toList, .directory, false⟩] true, by
      refine ⟨List.nodup_singleton _, fun entry hEntry => ?_⟩
      obtain rfl := List.mem_singleton.mp hEntry
      exact ⟨[], by decide⟩⟩,
    ⟨.resolved "/x".toList "/data".toList [] true, List.nodup_nil, nofun⟩]

theorem renamed_directory_stays_listed : ¬ WellFormedTree ((treeRegistry Sftp.byName).run JsMap.empty renamedCalls) ∧
      flattenVisibleSftpTreeRows ((treeRegistry Sftp.byName).run JsMap.empty renamedCalls) 3 ["/".toList] =
        some [⟨"/".toList, 0, 1, 1⟩, ⟨"/data".toList, 1, 2, 2⟩] := by
  constructor
  · intro hTree
    have hMissing : (((treeRegistry Sftp.byName).run JsMap.empty renamedCalls).get? "/x".toList) = none := by decide +kernel
    have hChildren : (((treeRegistry Sftp.byName).run JsMap.empty renamedCalls).get? "/".toList).map (·.children) =
        some ["/x".toList, "/data".toList] := by decide +kernel
    obtain ⟨root, hRoot, hListed⟩ := Option.map_eq_some_iff.mp hChildren
    obtain ⟨node, hNode, _⟩ := hTree.children _ _ ⟨root, hRoot, hListed ▸ List.mem_cons_self⟩
    cases hMissing.symm.trans hNode
  · decide +kernel

end SftpPage
