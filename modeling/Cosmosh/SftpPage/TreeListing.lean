import Mathlib.Data.Finset.Lattice.Fold
import Cosmosh.SftpPage.TreeMerges

/-! # Rows of a tree whose nodes know their place

Every merge keeps a node's parent and its children one breadcrumb apart.
-/

namespace SftpPage

open Library Library.Transition
open Sftp (Collation)

structure Shaped (key : Path) (node : TreeDirectoryNode) : Prop where
  path : node.path = key
  parentPath : node.parentPath = lexicalParent key
  nodup : node.children.Nodup
  children : ∀ child ∈ node.children, lexicalParent child = some key

def Rooted (treeNodes : TreeNodes) : Prop := ∀ key node, treeNodes.get? key = some node → Shaped key node

variable {treeNodes : TreeNodes} {showHiddenEntries : Bool} {collation : Collation} {directoryPath : Path} {entries : List ApiSftpEntry}

variable {child : Path}

namespace Rooted

theorem empty : Rooted JsMap.empty := by
  intro key node hNode
  cases hNode

section

variable (h : Rooted treeNodes)
include h

theorem set {place : Path} {node : TreeDirectoryNode} (hNode : Shaped place node) : Rooted (treeNodes.set place node) := by
  intro key found hFound
  rw [JsMap.get?_set] at hFound
  split at hFound
  · next hKey =>
    obtain rfl := Option.some.inj hFound
    exact hKey ▸ hNode
  · exact h key found hFound

theorem delete (place : Path) : Rooted (treeNodes.delete place) := by
  intro key node hNode
  rw [JsMap.get?_delete] at hNode
  split at hNode
  · cases hNode
  · exact h key node hNode

theorem nodup_getD (key : Path) : (((treeNodes.get? key).map (·.children)).getD []).Nodup := by
  cases hNode : treeNodes.get? key with
  | none => exact List.nodup_nil
  | some node => exact (h key node hNode).nodup

theorem lexicalParent_of_lists {key : Path} (hLists : Lists treeNodes key child) : lexicalParent child = some key := by
  obtain ⟨node, hNode, hChild⟩ := hLists
  exact (h key node hNode).children child hChild

theorem mergeBreadcrumb (showHiddenEntries : Bool) {parentPath : Option Path} {breadcrumb : SftpBreadcrumbItem}
    (hParent : lexicalParent breadcrumb.path = parentPath) : Rooted (mergeBreadcrumb showHiddenEntries treeNodes parentPath breadcrumb) := by
  have hAdded : Rooted (treeNodes.set breadcrumb.path (breadcrumbNode (treeNodes.get? breadcrumb.path) parentPath breadcrumb)) := by
    refine h.set ⟨rfl, hParent.symm, h.nodup_getD _, ?_⟩
    exact fun child hChild => h.lexicalParent_of_lists (mem_children_getD_iff.mp hChild)
  obtain ⟨hMerged, _⟩ | ⟨parentKey, parent, hKey, hGet, hMerged⟩ := mergeBreadcrumb_cases showHiddenEntries treeNodes parentPath breadcrumb
  · exact hMerged ▸ hAdded
  · have hOld := hAdded parentKey parent hGet
    rw [hMerged]
    refine hAdded.set ⟨hOld.path, hOld.parentPath, ?_, ?_⟩
    · dsimp only
      split
      · exact nodup_addToSet (nodup_toSet _) _
      · exact nodup_toSet _
    · have hSet : ∀ child ∈ toSet parent.children, lexicalParent child = some parentKey :=
        fun child hChild => hOld.children child (mem_toSet.mp hChild)
      intro child hChild
      dsimp only at hChild
      split at hChild
      · obtain hOldChild | rfl := mem_addToSet.mp hChild
        · exact hSet child hOldChild
        · exact hParent.trans hKey
      · exact hSet child hChild

theorem mergeBreadcrumbs (showHiddenEntries : Bool) {breadcrumbs : List SftpBreadcrumbItem} (before : List Path)
    (hCrumbs : breadcrumbPaths directoryPath = before ++ breadcrumbs.map (·.path)) :
    Rooted (mergeBreadcrumbs showHiddenEntries treeNodes before.getLast? breadcrumbs) := by
  induction breadcrumbs generalizing treeNodes before with
  | nil => exact h
  | cons breadcrumb rest ih =>
    rw [List.map_cons] at hCrumbs
    have hNext : breadcrumbPaths directoryPath = (before ++ [breadcrumb.path]) ++ rest.map (·.path) := by
      rw [hCrumbs, List.append_assoc, List.singleton_append]
    have hRest := ih (h.mergeBreadcrumb showHiddenEntries (lexicalParent_of_crumb hCrumbs)) _ hNext
    rw [List.getLast?_concat] at hRest
    exact hRest

theorem mergePathBranchIntoTree (directoryPath : Path) (showHiddenEntries : Bool) :
    Rooted (mergePathBranchIntoTree treeNodes directoryPath showHiddenEntries) := by
  have hCrumbs : breadcrumbPaths directoryPath = [] ++ (buildBreadcrumbs directoryPath).map (·.path) := by
    rw [map_path_buildBreadcrumbs, List.nil_append]
  exact h.mergeBreadcrumbs showHiddenEntries [] hCrumbs

end

end Rooted

theorem ListedIn.lexicalParent {entry : ApiSftpEntry} (h : ListedIn directoryPath entry) : lexicalParent entry.path = some directoryPath := by
  obtain ⟨before, hCrumbs⟩ := h
  rw [map_path_buildBreadcrumbs] at hCrumbs
  have hSplit : breadcrumbPaths entry.path = (before ++ [directoryPath]) ++ entry.path :: [] := by
    rw [hCrumbs, List.append_assoc, List.singleton_append]
  rw [lexicalParent_of_crumb hSplit, List.getLast?_concat]

theorem mem_directoryChildren {entry : ApiSftpEntry} (h : entry ∈ directoryChildren collation entries showHiddenEntries) : entry ∈ entries := by
  have hSorted : entry ∈ filterSftpEntriesByHiddenVisibility (sortSftpEntries collation entries) showHiddenEntries := (List.mem_filter.mp h).1
  rw [filterSftpEntriesByHiddenVisibility] at hSorted
  split at hSorted
  · exact List.mem_mergeSort.mp hSorted
  · exact List.mem_mergeSort.mp (List.mem_filter.mp hSorted).1

theorem nodup_childPaths (h : (entries.map (·.path)).Nodup) : (childPaths collation entries showHiddenEntries).Nodup := by
  have hSorted : ((sortSftpEntries collation entries).map (·.path)).Nodup := ((List.mergeSort_perm _ _).map _).nodup_iff.mpr h
  have hVisible : ((filterSftpEntriesByHiddenVisibility (sortSftpEntries collation entries) showHiddenEntries).map (·.path)).Nodup := by
    rw [filterSftpEntriesByHiddenVisibility]
    split
    · exact hSorted
    · exact hSorted.sublist (List.filter_sublist.map _)
  exact hVisible.sublist (List.filter_sublist.map _)

variable {path : Path}

theorem IsListing.lexicalParent (h : IsListing directoryPath entries)
    (hPath : path ∈ childPaths collation entries showHiddenEntries) : SftpPage.lexicalParent path = some directoryPath := by
  obtain ⟨entry, hEntry, rfl⟩ := List.mem_map.mp hPath
  exact (h.2 entry (mem_directoryChildren hEntry)).lexicalParent

theorem lexicalParent_eq_none (h : path ∉ breadcrumbPaths path) : lexicalParent path = none := by
  have hLast : (breadcrumbPaths path).getLast? ≠ some path := fun hLast => h (List.mem_of_getLast? hLast)
  rw [lexicalParent, chain, if_neg hLast]
  rfl

namespace Rooted

theorem foldl_mergeEntry (h : Rooted treeNodes) (hEntries : ∀ entry ∈ entries, lexicalParent entry.path = some directoryPath) :
    Rooted (entries.foldl (mergeEntry directoryPath) treeNodes) := by
  induction entries generalizing treeNodes with
  | nil => exact h
  | cons entry rest ih =>
    refine ih (h.set ⟨rfl, ?_, h.nodup_getD _, ?_⟩) fun later hLater => hEntries later (List.mem_cons_of_mem _ hLater)
    · exact (hEntries entry List.mem_cons_self).symm
    · exact fun child hChild => h.lexicalParent_of_lists (mem_children_getD_iff.mp hChild)

theorem mergeDirectoryEntriesIntoTree (h : Rooted treeNodes) (hListing : IsListing directoryPath entries) (collation : Collation)
    (showHiddenEntries : Bool) : Rooted (mergeDirectoryEntriesIntoTree collation treeNodes directoryPath entries showHiddenEntries) := by
  have hBranch := h.mergePathBranchIntoTree directoryPath showHiddenEntries
  have hChildren : ∀ entry ∈ directoryChildren collation entries showHiddenEntries, lexicalParent entry.path = some directoryPath :=
    fun entry hEntry => (hListing.2 entry (mem_directoryChildren hEntry)).lexicalParent
  refine foldl_mergeEntry (hBranch.set ?_) hChildren
  have hNodup : (childPaths collation entries showHiddenEntries).Nodup := nodup_childPaths hListing.1
  cases hNode : (SftpPage.mergePathBranchIntoTree treeNodes directoryPath showHiddenEntries).get? directoryPath with
  | some node =>
    have hOld := hBranch directoryPath node hNode
    exact ⟨hOld.path, hOld.parentPath, hNodup, fun child hChild => hListing.lexicalParent hChild⟩
  | none =>
    have hNew : directoryPath ∉ breadcrumbPaths directoryPath := by
      intro hCrumb
      rw [← map_path_buildBreadcrumbs] at hCrumb
      obtain ⟨node, hSome⟩ := registered_mergeBreadcrumbs.mpr (.inl hCrumb)
      rw [SftpPage.mergePathBranchIntoTree, hSome] at hNode
      cases hNode
    exact ⟨rfl, (lexicalParent_eq_none hNew).symm, hNodup, fun child hChild => hListing.lexicalParent hChild⟩

end Rooted

def Closed (treeNodes : TreeNodes) : Prop := ∀ key child, Lists treeNodes key child → Registered treeNodes child

def shownChildren (treeNodes : TreeNodes) (path : Path) : List Path :=
  match treeNodes.get? path with
  | none => []
  | some node => if node.isExpanded then node.children else []

inductive Visible (treeNodes : TreeNodes) (rootPaths : List Path) : Path → Prop
  | root {path : Path} (h : path ∈ rootPaths) : Visible treeNodes rootPaths path
  | child {parentPath path : Path} {node : TreeDirectoryNode} (h : Visible treeNodes rootPaths parentPath)
    (hNode : treeNodes.get? parentPath = some node) (hExpanded : node.isExpanded = true) (hPath : path ∈ node.children) :
    Visible treeNodes rootPaths path

def SiblingGroup (treeNodes : TreeNodes) (rootPaths group : List Path) : Prop :=
  group = rootPaths ∨ ∃ parentPath node, Visible treeNodes rootPaths parentPath ∧ treeNodes.get? parentPath = some node ∧
    node.isExpanded = true ∧ group = node.children

def Numbered (rows : List SftpVirtualTreeRow) (group : List Path) : Prop :=
  group.Sublist (rows.map (·.path)) ∧ ∀ index path, group[index]? = some path → ∀ row ∈ rows, row.path = path →
    row.positionInSet = index + 1 ∧ row.setSize = group.length

structure ListsVisible (treeNodes : TreeNodes) (rootPaths : List Path) (rows : List SftpVirtualTreeRow) : Prop where
  once : (rows.map (·.path)).Nodup
  visible : ∀ path, path ∈ rows.map (·.path) ↔ Visible treeNodes rootPaths path
  numbered : ∀ group, SiblingGroup treeNodes rootPaths group → Numbered rows group

def AreRoots (treeNodes : TreeNodes) (rootPaths : List Path) : Prop :=
  rootPaths.Nodup ∧ ∀ path ∈ rootPaths, ∃ node, treeNodes.get? path = some node ∧ node.parentPath = none

def toRow (row : Preorder.Row Path) : SftpVirtualTreeRow := ⟨row.item, row.depth, row.position, row.size⟩

theorem mem_shownChildren {parentPath : Path} : path ∈ shownChildren treeNodes parentPath ↔
    ∃ node, treeNodes.get? parentPath = some node ∧ node.isExpanded = true ∧ path ∈ node.children := by
  rw [shownChildren]
  cases treeNodes.get? parentPath with
  | none => simp
  | some node =>
    dsimp only
    split
    · next hExpanded => simp [hExpanded]
    · next hCollapsed => simp [hCollapsed]

variable {rootPaths : List Path}

theorem visible_iff : Visible treeNodes rootPaths path ↔ ∃ root ∈ rootPaths, Preorder.Below (shownChildren treeNodes) root path := by
  constructor
  · intro h
    induction h with
    | root hRoot => exact ⟨_, hRoot, .refl⟩
    | child _ hNode hExpanded hPath ih =>
      obtain ⟨root, hRoot, hBelow⟩ := ih
      exact ⟨root, hRoot, hBelow.tail (mem_shownChildren.mpr ⟨_, hNode, hExpanded, hPath⟩)⟩
  · rintro ⟨root, hRoot, hBelow⟩
    induction hBelow with
    | refl => exact .root hRoot
    | tail _ hChild ih =>
      obtain ⟨node, hNode, hExpanded, hPath⟩ := mem_shownChildren.mp hChild
      exact .child ih hNode hExpanded hPath

theorem Rooted.chain_of_shown (h : Rooted treeNodes) (parentPath : Path) :
    ∀ child ∈ shownChildren treeNodes parentPath, chain child = chain parentPath ++ [child] := by
  intro child hChild
  obtain ⟨node, hNode, _, hListed⟩ := mem_shownChildren.mp hChild
  exact chain_of_lexicalParent ((h parentPath node hNode).children child hListed)

theorem Rooted.nodup_shown (h : Rooted treeNodes) (parentPath : Path) : (shownChildren treeNodes parentPath).Nodup := by
  rw [shownChildren]
  split
  · exact List.nodup_nil
  · next node hNode =>
    split
    · exact (h parentPath node hNode).nodup
    · exact List.nodup_nil

theorem Closed.registered_of_shown (h : Closed treeNodes) {parentPath : Path} (hChild : child ∈ shownChildren treeNodes parentPath) :
    Registered treeNodes child := by
  obtain ⟨node, hNode, _, hListed⟩ := mem_shownChildren.mp hChild
  exact h parentPath child ⟨node, hNode, hListed⟩

theorem Closed.registered_of_below (h : Closed treeNodes) {root : Path} (hRoot : Registered treeNodes root)
    (hBelow : Preorder.Below (shownChildren treeNodes) root path) : Registered treeNodes path := by
  induction hBelow with
  | refl => exact hRoot
  | tail _ hChild _ => exact h.registered_of_shown hChild

theorem appendNode_eq (h : Rooted treeNodes) (hClosed : Closed treeNodes) {fuel : Nat} (hPath : Registered treeNodes path)
    (depth position size : Nat) : appendNode treeNodes fuel path depth position size =
      (Preorder.listing (shownChildren treeNodes) fuel path depth position size).map (List.map toRow) := by
  induction fuel generalizing path depth position size with
  | zero => rfl
  | succ fuel ih =>
    obtain ⟨node, hNode⟩ := hPath
    rw [appendNode, Preorder.listing, hNode]
    dsimp only
    split
    · next hExpanded =>
      have hShown : shownChildren treeNodes path = node.children := by rw [shownChildren, hNode]; exact if_pos hExpanded
      have hChildren : ∀ child ∈ node.children, ∀ index,
          appendNode treeNodes fuel child (depth + 1) (index + 1) node.children.length =
            (Preorder.listing (shownChildren treeNodes) fuel child (depth + 1) (index + 1) node.children.length).map (List.map toRow) := by
        intro child hChild index
        exact ih (hClosed path child ⟨node, hNode, hChild⟩) _ _ _
      rw [hShown, Preorder.forEach_map hChildren, (h path node hNode).path, Option.map_map, Option.map_map]
      rfl
    · next hCollapsed =>
      have hShown : shownChildren treeNodes path = [] := by rw [shownChildren, hNode]; exact if_neg hCollapsed
      rw [hShown, (h path node hNode).path]
      rfl

theorem flattenVisibleSftpTreeRows_eq (h : Rooted treeNodes) (hClosed : Closed treeNodes)
    (hRoots : AreRoots treeNodes rootPaths) (fuel : Nat) : flattenVisibleSftpTreeRows treeNodes fuel rootPaths =
      (Preorder.listingAll (shownChildren treeNodes) fuel 0 rootPaths).map (List.map toRow) := by
  refine Preorder.forEach_map ?_ 0
  intro root hRoot index
  obtain ⟨node, hNode, _⟩ := hRoots.2 root hRoot
  exact appendNode_eq h hClosed ⟨node, hNode⟩ _ _ _

theorem map_path_toRow (rows : List (Preorder.Row Path)) : (rows.map toRow).map (·.path) = rows.map (·.item) := by
  rw [List.map_map]
  rfl

section

variable (h : Rooted treeNodes) (hRoots : AreRoots treeNodes rootPaths)
include h hRoots

theorem Rooted.lexicalParent_of_root (hPath : path ∈ rootPaths) : lexicalParent path = none := by
  obtain ⟨node, hNode, hParent⟩ := hRoots.2 path hPath
  rw [← (h path node hNode).parentPath, hParent]

theorem Rooted.group_eq {group other : List Path} (hGroup : SiblingGroup treeNodes rootPaths group)
    (hOther : SiblingGroup treeNodes rootPaths other) (hPath : path ∈ group) (hOtherPath : path ∈ other) : group = other := by
  obtain rfl | ⟨parent, node, _, hNode, _, rfl⟩ := hGroup
  · obtain rfl | ⟨parent, node, _, hNode, _, rfl⟩ := hOther
    · rfl
    · have hParent := (h parent node hNode).children path hOtherPath
      rw [h.lexicalParent_of_root hRoots hPath] at hParent
      cases hParent
  · have hParent := (h parent node hNode).children path hPath
    obtain rfl | ⟨otherParent, otherNode, _, hOtherNode, _, rfl⟩ := hOther
    · rw [h.lexicalParent_of_root hRoots hOtherPath] at hParent
      cases hParent
    · have hOtherParent := (h otherParent otherNode hOtherNode).children path hOtherPath
      obtain rfl := Option.some.inj (hParent.symm.trans hOtherParent)
      rw [Option.some.inj (hNode.symm.trans hOtherNode)]

theorem Rooted.nodup_group {group : List Path} (hGroup : SiblingGroup treeNodes rootPaths group) : group.Nodup := by
  obtain rfl | ⟨parent, node, _, hNode, _, rfl⟩ := hGroup
  · exact hRoots.1
  · exact (h parent node hNode).nodup

end

theorem siblingGroup_shown {root : Path} (hRoot : root ∈ rootPaths)
    (hBelow : Preorder.Below (shownChildren treeNodes) root path) (hChild : child ∈ shownChildren treeNodes path) :
    SiblingGroup treeNodes rootPaths (shownChildren treeNodes path) := by
  obtain ⟨node, hNode, hExpanded, _⟩ := mem_shownChildren.mp hChild
  refine .inr ⟨path, node, visible_iff.mpr ⟨root, hRoot, hBelow⟩, hNode, hExpanded, ?_⟩
  rw [shownChildren, hNode]
  exact if_pos hExpanded

theorem Rooted.listsVisible (h : Rooted treeNodes) (hClosed : Closed treeNodes) (hRoots : AreRoots treeNodes rootPaths)
    {fuel : Nat} {rows : List SftpVirtualTreeRow} (hRows : flattenVisibleSftpTreeRows treeNodes fuel rootPaths = some rows) :
    ListsVisible treeNodes rootPaths rows := by
  rw [flattenVisibleSftpTreeRows_eq h hClosed hRoots] at hRows
  obtain ⟨listed, hListed, rfl⟩ := Option.map_eq_some_iff.mp hRows
  have hLead : ∀ root ∈ rootPaths, chain root = [] ++ [root] := by
    intro root hRoot
    have hNone := h.lexicalParent_of_root hRoots hRoot
    rw [lexicalParent, List.getLast?_eq_none_iff] at hNone
    rw [List.nil_append]
    exact chain_eq_singleton hNone
  refine ⟨?_, ?_, ?_⟩
  · rw [map_path_toRow]
    exact Preorder.nodup_listingAll chain h.chain_of_shown h.nodup_shown hLead hRoots.1 hListed
  · intro path
    rw [map_path_toRow, Preorder.mem_listingAll hListed, visible_iff]
  · intro group hGroup
    constructor
    · rw [map_path_toRow]
      obtain rfl | ⟨parent, node, hVisible, hNode, hExpanded, rfl⟩ := hGroup
      · exact Preorder.sublist_listingAll hListed
      · obtain ⟨root, hRoot, hBelow⟩ := visible_iff.mp hVisible
        have hShown : shownChildren treeNodes parent = node.children := by rw [shownChildren, hNode]; exact if_pos hExpanded
        exact hShown ▸ Preorder.sublist_below_listingAll hListed hRoot hBelow
    · rintro index _ hIndex row hRow rfl
      obtain ⟨source, hSource, rfl⟩ := List.mem_map.mp hRow
      have hPlaced : ∃ other, SiblingGroup treeNodes rootPaths other ∧ Preorder.Placed source other := by
        obtain hPlaced | ⟨root, hRoot, path, hBelow, hPlaced⟩ := Preorder.placed_listingAll hListed hSource
        · exact ⟨rootPaths, .inl rfl, hPlaced⟩
        · obtain ⟨_, _, hMem, _⟩ := id hPlaced
          exact ⟨_, siblingGroup_shown hRoot hBelow (List.mem_of_getElem? hMem), hPlaced⟩
      obtain ⟨other, hOther, place, hPosition, hPlace, hSize⟩ := hPlaced
      obtain rfl := h.group_eq hRoots hGroup hOther (List.mem_of_getElem? hIndex) (List.mem_of_getElem? hPlace)
      obtain ⟨hBound, _⟩ := List.getElem?_eq_some_iff.mp hIndex
      have hSame : index = place := (List.getElem?_inj hBound (h.nodup_group hRoots hGroup)).mp (hIndex.trans hPlace.symm)
      exact ⟨hSame ▸ hPosition, hSize⟩

theorem Rooted.flatten_terminates (h : Rooted treeNodes) (hClosed : Closed treeNodes) (hRoots : AreRoots treeNodes rootPaths) :
    ∃ bound, ∀ fuel, bound ≤ fuel → (flattenVisibleSftpTreeRows treeNodes fuel rootPaths).isSome := by
  let bound := (treeNodes.entries.map Prod.fst).toFinset.sup fun key => (chain key).length
  refine ⟨bound + 1, fun fuel hFuel => ?_⟩
  have hRoot : ∀ root ∈ rootPaths, ∀ index, ∃ here,
      Preorder.listing (shownChildren treeNodes) fuel root 0 (index + 1) rootPaths.length = some here := by
    intro root hRoot index
    obtain ⟨rootNode, hRootNode, _⟩ := hRoots.2 root hRoot
    have hBound : ∀ path, Preorder.Below (shownChildren treeNodes) root path → (chain path).length ≤ bound := by
      intro path hBelow
      obtain ⟨node, hNode⟩ := hClosed.registered_of_below ⟨rootNode, hRootNode⟩ hBelow
      have hMem : path ∈ (treeNodes.entries.map Prod.fst).toFinset :=
        List.mem_toFinset.mpr (List.mem_map_of_mem ((treeNodes.mem_entries_iff path node).mpr hNode))
      exact Finset.le_sup (f := fun key => (chain key).length) hMem
    exact Preorder.exists_listing chain h.chain_of_shown hBound (Nat.lt_add_right _ hFuel) _ _ _
  obtain ⟨out, hOut⟩ := Preorder.exists_forEach hRoot 0
  rw [flattenVisibleSftpTreeRows_eq h hClosed hRoots, Preorder.listingAll, hOut]
  rfl

end SftpPage
