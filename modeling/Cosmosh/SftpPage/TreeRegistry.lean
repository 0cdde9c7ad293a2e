import Cosmosh.Library.JsMap
import Cosmosh.Library.Preorder
import Cosmosh.Sftp.EntryListing
import Cosmosh.SftpPage.DirectoryState

/-! # The directory tree of an SFTP tab

The tree is a registry of nodes by path.
-/

namespace SftpPage

open Library Library.Transition
open Sftp (Collation SftpEntryType)

structure ApiSftpEntry where
  name : Text
  path : Path
  type : SftpEntryType
  isHidden : Bool
  deriving DecidableEq

structure TreeDirectoryNode where
  path : Path
  name : Text
  parentPath : Option Path
  isHidden : Bool
  children : List Path
  isExpanded : Bool
  isLoaded : Bool
  isLoading : Bool
  deriving DecidableEq

abbrev TreeNodes := JsMap Path TreeDirectoryNode

structure SftpBreadcrumbItem where
  label : Text
  path : Path
  deriving DecidableEq

def buildBreadcrumbs (directoryPath : Path) : List SftpBreadcrumbItem :=
  if directoryPath = [] ∨ directoryPath = ['.'] then [⟨['.'], ['.']⟩]
  else
    let isAbsolute := directoryPath.head? = some '/'
    let parts := (directoryPath.splitOn '/').filter (· ≠ [])
    let lead : Path := if isAbsolute then ['/'] else []
    let breadcrumbs := (if isAbsolute then [⟨['/'], ['/']⟩] else []) ++
      parts.mapIdx fun index part => ⟨part, lead ++ ['/'].intercalate (parts.take (index + 1))⟩
    if breadcrumbs = [] then [⟨directoryPath, directoryPath⟩] else breadcrumbs

def isSftpDotHiddenName (name : Text) : Bool := name.head? = some '.' ∧ name ≠ ['.'] ∧ name ≠ ['.', '.']

def resolvePathLabel (directoryPath : Path) : Text :=
  if directoryPath = [] ∨ directoryPath = ['.'] then ['.']
  else if directoryPath = ['/'] then ['/']
  else (((directoryPath.splitOn '/').filter (· ≠ [])).getLast?).getD directoryPath

/-- `new Set` with one more element, as an array. -/
def addToSet (items : List Path) (item : Path) : List Path := if item ∈ items then items else items ++ [item]

def toSet (items : List Path) : List Path := items.foldl addToSet []

def breadcrumbNode (existing : Option TreeDirectoryNode) (parentPath : Option Path) (breadcrumb : SftpBreadcrumbItem) :
    TreeDirectoryNode where
  path := breadcrumb.path
  name := (existing.map (·.name)).getD breadcrumb.label
  parentPath := parentPath
  isHidden := (existing.map (·.isHidden)).getD (isSftpDotHiddenName breadcrumb.label)
  children := (existing.map (·.children)).getD []
  isExpanded := true
  isLoaded := (existing.map (·.isLoaded)).getD false
  isLoading := (existing.map (·.isLoading)).getD false

def mergeBreadcrumb (showHiddenEntries : Bool) (next : TreeNodes) (parentPath : Option Path) (breadcrumb : SftpBreadcrumbItem) : TreeNodes :=
  let node := breadcrumbNode (next.get? breadcrumb.path) parentPath breadcrumb
  let added := next.set breadcrumb.path node
  match parentPath with
  | none => added
  | some parentPath =>
    match added.get? parentPath with
    | none => added
    | some parent =>
      let childSet := toSet parent.children
      let children := if showHiddenEntries || !node.isHidden then addToSet childSet breadcrumb.path else childSet
      added.set parentPath { parent with children := children, isExpanded := true }

def mergeBreadcrumbs (showHiddenEntries : Bool) : TreeNodes → Option Path → List SftpBreadcrumbItem → TreeNodes
  | next, _, [] => next
  | next, parentPath, breadcrumb :: rest =>
    mergeBreadcrumbs showHiddenEntries (mergeBreadcrumb showHiddenEntries next parentPath breadcrumb) (some breadcrumb.path) rest

def mergePathBranchIntoTree (previous : TreeNodes) (directoryPath : Path) (showHiddenEntries : Bool) : TreeNodes :=
  mergeBreadcrumbs showHiddenEntries previous none (buildBreadcrumbs directoryPath)

def sortSftpEntries (collation : Collation) (entries : List ApiSftpEntry) : List ApiSftpEntry :=
  entries.mergeSort fun left right =>
    if left.type = .directory ∧ right.type ≠ .directory then true
    else if left.type ≠ .directory ∧ right.type = .directory then false
    else collation.localeCompare left.name right.name ≤ 0

def filterSftpEntriesByHiddenVisibility (entries : List ApiSftpEntry) (showHiddenEntries : Bool) : List ApiSftpEntry :=
  if showHiddenEntries then entries else entries.filter fun entry => !entry.isHidden

/-- `directoryChildren` of `mergeDirectoryEntriesIntoTree`. -/
def directoryChildren (collation : Collation) (entries : List ApiSftpEntry) (showHiddenEntries : Bool) : List ApiSftpEntry :=
  (filterSftpEntriesByHiddenVisibility (sortSftpEntries collation entries) showHiddenEntries).filter (·.type = .directory)

def entryNode (existing : Option TreeDirectoryNode) (directoryPath : Path) (entry : ApiSftpEntry) : TreeDirectoryNode where
  path := entry.path
  name := entry.name
  parentPath := some directoryPath
  isHidden := entry.isHidden
  children := (existing.map (·.children)).getD []
  isExpanded := (existing.map (·.isExpanded)).getD false
  isLoaded := (existing.map (·.isLoaded)).getD false
  isLoading := (existing.map (·.isLoading)).getD false

def mergeEntry (directoryPath : Path) (next : TreeNodes) (entry : ApiSftpEntry) : TreeNodes :=
  next.set entry.path (entryNode (next.get? entry.path) directoryPath entry)

def mergeDirectoryEntriesIntoTree (collation : Collation) (previous : TreeNodes) (directoryPath : Path) (entries : List ApiSftpEntry)
    (showHiddenEntries : Bool) : TreeNodes :=
  let next := mergePathBranchIntoTree previous directoryPath showHiddenEntries
  let children := directoryChildren collation entries showHiddenEntries
  let existing := (next.get? directoryPath).getD ⟨directoryPath, resolvePathLabel directoryPath, none, false, [], true, false, false⟩
  let listed := next.set directoryPath
    { existing with children := children.map (·.path), isExpanded := true, isLoaded := true, isLoading := false }
  children.foldl (mergeEntry directoryPath) listed

def mergeResolvedDirectoryIntoTree (collation : Collation) (previous : TreeNodes) (requestedPath resolvedPath : Path)
    (entries : List ApiSftpEntry) (showHiddenEntries : Bool) : TreeNodes :=
  let next := mergeDirectoryEntriesIntoTree collation previous resolvedPath entries showHiddenEntries
  match next.get? requestedPath with
  | none => next
  | some requestedNode =>
    if requestedPath ≠ resolvedPath then
      if !requestedNode.isLoaded && requestedNode.children.isEmpty then next.delete requestedPath
      else next.set requestedPath { requestedNode with isLoading := false }
    else next

structure SftpVirtualTreeRow where
  path : Path
  depth : Nat
  positionInSet : Nat
  setSize : Nat
  deriving DecidableEq

def appendNode (treeNodes : TreeNodes) : Nat → Path → Nat → Nat → Nat → Option (List SftpVirtualTreeRow)
  | 0, _, _, _, _ => none
  | fuel + 1, nodePath, depth, positionInSet, setSize =>
    match treeNodes.get? nodePath with
    | none => some []
    | some node =>
      let row : SftpVirtualTreeRow := ⟨node.path, depth, positionInSet, setSize⟩
      if node.isExpanded then
        (Preorder.forEach (fun childPath childIndex => appendNode treeNodes fuel childPath (depth + 1) (childIndex + 1) node.children.length)
          0 node.children).map (row :: ·)
      else some [row]

def flattenVisibleSftpTreeRows (treeNodes : TreeNodes) (fuel : Nat) (rootPaths : List Path) : Option (List SftpVirtualTreeRow) :=
  Preorder.forEach (fun rootPath rootIndex => appendNode treeNodes fuel rootPath 0 (rootIndex + 1) rootPaths.length) 0 rootPaths

inductive TreeCall
  | branch (directoryPath : Path) (showHiddenEntries : Bool)
  | entries (directoryPath : Path) (entries : List ApiSftpEntry) (showHiddenEntries : Bool)
  | resolved (requestedPath resolvedPath : Path) (entries : List ApiSftpEntry) (showHiddenEntries : Bool)
  deriving DecidableEq

def ListedIn (directoryPath : Path) (entry : ApiSftpEntry) : Prop :=
  ∃ before, (buildBreadcrumbs entry.path).map (·.path) = before ++ [directoryPath, entry.path]

def IsListing (directoryPath : Path) (entries : List ApiSftpEntry) : Prop :=
  (entries.map (·.path)).Nodup ∧ ∀ entry ∈ entries, ListedIn directoryPath entry

def TreeCall.HasListing : TreeCall → Prop
  | .branch _ _ => True
  | .entries directoryPath listed _ => IsListing directoryPath listed
  | .resolved _ resolvedPath listed _ => IsListing resolvedPath listed

abbrev ListedCall := { call : TreeCall // call.HasListing }

def treeStep (collation : Collation) (treeNodes : TreeNodes) : TreeCall → TreeNodes
  | .branch directoryPath showHiddenEntries => mergePathBranchIntoTree treeNodes directoryPath showHiddenEntries
  | .entries directoryPath entries showHiddenEntries =>
    mergeDirectoryEntriesIntoTree collation treeNodes directoryPath entries showHiddenEntries
  | .resolved requestedPath resolvedPath entries showHiddenEntries =>
    mergeResolvedDirectoryIntoTree collation treeNodes requestedPath resolvedPath entries showHiddenEntries

def treeRegistry (collation : Collation) : Machine TreeNodes ListedCall where
  initial := fun treeNodes => treeNodes = JsMap.empty
  step := fun treeNodes call => treeStep collation treeNodes call.1

end SftpPage
