import Cosmosh.Library.LinkedTree
import Cosmosh.Sftp.ExtractionConfinement

/-! # The symbolic links of a staged tree

A staged tree is accepted link by link, by the text a link's target resolves to.
-/

namespace Sftp

open Library Library.JsText Library.PosixPath Library.LinkedTree Archive

def NamesPlain (node : Node) : Prop := ∀ path entry, node.at path = some entry → ∀ n ∈ path, Plain n

structure StagedTree where
  entries : List (Text × Node)
  names_plain : NamesPlain (.directory entries)

def StagedTree.node (tree : StagedTree) : Node := .directory tree.entries

def nodeType : Node → SftpEntryType
  | .file => .file
  | .link _ => .symlink
  | .directory _ => .directory

def honestHost (root : List Text) (tree : Node) : Program.Effect ArchiveAsk ArchiveAsk.Answer ArchiveError Unit :=
  fun _ q answer _ =>
    match q, answer with
    | .lstat path, .ok stats => ∀ below node, location path = root ++ below → tree.at below = some node →
      resolveSftpEntryType stats.mode = nodeType node
    | .readdir path, .ok found => ∀ below, location path = root ++ below →
      (∀ name node, tree.at (below ++ [name]) = some node → ∃ entry ∈ found, entry.filename = name) ∧
      ∀ entry ∈ found, ∃ node, tree.at (below ++ [entry.filename]) = some node ∧
        (entry.attrs.mode = none ∨ resolveSftpEntryType entry.attrs.mode = nodeType node)
    | .readlink path, .ok target => ∀ below node, location path = root ++ below → tree.at below = some node →
      node = .link target
    | _, _ => True

def StagedTree.Accepted (tree : StagedTree) (root : List Text) : Prop :=
  ∃ depth, Program.Steps (honestHost root tree.node)
    (validateStagedTree (render root false) depth (render root false) (some 0o040000), ()) (.done (), ())

def passesCheck (root : List Text) (path : List Text) (target : Text) : Prop :=
  let resolvedPath :=
    if isAbsolute target then target else Archive.resolveFrom (dirname (render (root ++ path) false)) target
  resolvedPath = render root false ∨ (render root false ++ ['/']).isPrefixOf resolvedPath = true

def LinksPass (root : List Text) (tree : Node) (path : List Text) : Prop :=
  ∀ below target, tree.at (path ++ below) = some (.link target) → passesCheck root (path ++ below) target

variable {root path : List Text}

theorem linksPass_file {tree : Node} (h : tree.at path = some .file) : LinksPass root tree path := by
  intro below target hLink
  rw [Node.at_append, h] at hLink
  cases below <;> cases hLink

variable {target : Text}

theorem linksPass_link {tree : Node} (h : tree.at path = some (.link target)) (hPasses : passesCheck root path target) :
    LinksPass root tree path := by
  intro below target' hLink
  rw [Node.at_append, h] at hLink
  cases below with
  | nil =>
    cases hLink
    rwa [List.append_nil]
  | cons name below => cases hLink

variable {entries : List (Text × Node)}

theorem linksPass_directory {tree : Node} (h : tree.at path = some (.directory entries))
    (hEntries : ∀ name node, tree.at (path ++ [name]) = some node → LinksPass root tree (path ++ [name])) : LinksPass root tree path := by
  intro below target hLink
  cases below with
  | nil =>
    rw [List.append_nil, h] at hLink
    cases hLink
  | cons name below =>
    have hSplit : path ++ name :: below = path ++ [name] ++ below := by simp
    rw [hSplit] at hLink ⊢
    have hBelow := hLink
    rw [Node.at_append] at hBelow
    obtain ⟨node, hNode, -⟩ := Option.bind_eq_some_iff.mp hBelow
    exact hEntries name node hNode below target hLink

theorem forall₂_exists_right {α β : Type} {R : α → β → Prop} {as : List α} {bs : List β}
    (h : List.Forall₂ R as bs) : ∀ a ∈ as, ∃ b ∈ bs, R a b := by
  simpa using Program.forall₂_exists_left h.flip

variable {name : Text} {node : Node}

section Validation

variable {root : List Text} {tree : Node}

abbrev Validates {α : Type} (root : List Text) (tree : Node) (after : Except ArchiveError α → Prop)
    (program : ArchiveProgram α) : Prop := Program.Safe (honestHost root tree) (fun _ _ => True) (fun outcome _ => after outcome) program ()

theorem validates_ask {q : ArchiveAsk} {after : Except ArchiveError q.Answer → Prop}
    (h : ∀ answer, honestHost root tree () q answer () → after answer) : Validates root tree after (ask q) :=
  Program.Safe.request trivial fun answer _ hAnswer => h answer hAnswer

theorem join_render (hPath : ∀ n ∈ path, Plain n) (hName : Plain name) : join (render path false) name = render (path ++ [name]) false := by
  rw [join_eq (by simp [render]) hName.nonempty,
    normalize_append_plain (isAbsolute_append (isAbsolute_render _ _) _) hName, location_render hPath]

def validateKnown (stagingRoot : Text) (depth : Nat) (targetPath : Text) (mode : Option Nat) : ArchiveProgram Unit := do
  assertOperationActive
  match resolveSftpEntryType mode with
  | .symlink => do
    let linkPath ← ask (.readlink targetPath)
    assertOperationActive
    let resolvedPath := if isAbsolute linkPath then linkPath else Archive.resolveFrom (dirname targetPath) linkPath
    if hasControlCharacters linkPath ∨
        (resolvedPath ≠ stagingRoot ∧ (stagingRoot ++ ['/']).isPrefixOf resolvedPath = false) then
      throw (.archive .unsafeEntry
        "The archive contains a symbolic link that escapes the extraction directory.".toList)
    else pure ()
  | .directory => do
    let entries ← ask (.readdir targetPath)
    assertOperationActive
    let _ ← Program.forEach (fun entry => do
      assertOperationActive
      validateStagedTree stagingRoot depth (join targetPath entry.filename) entry.attrs.mode) entries
    pure ()
  | _ => pure ()

theorem validateStagedTree_some (stagingRoot : Text) (depth : Nat) (targetPath : Text) (mode : Nat) :
    validateStagedTree stagingRoot (depth + 1) targetPath (some mode) =
      assertOperationActive.bind fun _ => validateKnown stagingRoot depth targetPath (some mode) := by
  rw [validateStagedTree]
  rfl

theorem validateStagedTree_none (stagingRoot : Text) (depth : Nat) (targetPath : Text) :
    validateStagedTree stagingRoot (depth + 1) targetPath none = assertOperationActive.bind fun _ =>
      (ask (.lstat targetPath)).bind fun stats => validateKnown stagingRoot depth targetPath stats.mode := by
  rw [validateStagedTree]
  rfl

theorem Validates.bind {α β : Type} {p : ArchiveProgram α} {f : α → ArchiveProgram β} {fact : α → Prop} {after : Except ArchiveError β → Prop}
    (h : Validates root tree (fun outcome => ∀ a, outcome = .ok a → fact a) p)
    (hOk : ∀ a, fact a → Validates root tree after (f a)) (hError : ∀ e, after (.error e)) : Validates root tree after (p.bind f) := by
  refine Program.Safe.bind h ?_ ?_
  · intro a _ hAfter
    exact hOk a (hAfter a rfl)
  · intro e _ _
    exact hError e

theorem Validates.forEach {α γ : Type} {items : List γ} {body : γ → ArchiveProgram α} {fact : γ → Prop}
    (h : ∀ x ∈ items, Validates root tree (fun outcome => ∀ a, outcome = .ok a → fact x) (body x)) :
    Validates root tree (fun outcome => ∀ results, outcome = .ok results → ∀ x ∈ items, fact x) (Program.forEach body items) := by
  have hInvariant : ∀ x ∈ items, ∀ s : Unit, True → Program.Safe (honestHost root tree) (fun _ _ => True)
      (fun outcome _ => True ∧ ∀ a, outcome = .ok a → fact x) (body x) s :=
    fun x hx _ _ => (h x hx).mono fun _ _ hAfter => ⟨trivial, hAfter⟩
  refine (Program.Safe.forEach (R := fun x _ => fact x) trivial hInvariant).mono ?_
  rintro _ _ ⟨-, hResults⟩ results rfl x hx
  obtain ⟨_, -, hFact⟩ := forall₂_exists_right (hResults results rfl) x hx
  exact hFact

theorem validates_active : Validates root tree (fun outcome => ∀ a, outcome = .ok a → True) assertOperationActive :=
  validates_ask fun _ _ _ _ => trivial

theorem validates_known (depth : Nat) (hPath : ∀ n ∈ root ++ path, Plain n)
    (hNames : ∀ name child, tree.at (path ++ [name]) = some child → Plain name) (hNode : tree.at path = some node)
    {mode : Option Nat} (hMode : resolveSftpEntryType mode = nodeType node)
    (hEntries : ∀ name child knownMode, tree.at (path ++ [name]) = some child →
      knownMode = none ∨ resolveSftpEntryType knownMode = nodeType child →
      Validates root tree (fun outcome => outcome = .ok () → LinksPass root tree (path ++ [name]))
        (validateStagedTree (render root false) depth (render (root ++ (path ++ [name])) false) knownMode)) :
    Validates root tree (fun outcome => outcome = .ok () → LinksPass root tree path)
      (validateKnown (render root false) depth (render (root ++ path) false) mode) := by
  refine validates_active.bind (fun _ _ => ?_) fun _ => nofun
  have hLocation : location (render (root ++ path) false) = root ++ path := location_render hPath false
  rw [hMode]
  cases node with
  | file => exact fun _ => linksPass_file hNode
  | link target =>
    have hRead : Validates root tree (fun outcome => ∀ linkPath, outcome = .ok linkPath → linkPath = target)
        (ask (.readlink (render (root ++ path) false))) := by
      refine validates_ask fun answer hAnswer => ?_
      rintro linkPath rfl
      have hSame := hAnswer path _ hLocation hNode
      cases hSame
      rfl
    refine hRead.bind ?_ fun _ => nofun
    rintro linkPath rfl
    refine validates_active.bind (fun _ _ => ?_) fun _ => nofun
    simp only
    generalize hResolved : (if isAbsolute linkPath = true then linkPath else
      Archive.resolveFrom (dirname (render (root ++ path) false)) linkPath) = resolvedPath
    split
    · exact nofun
    · rename_i hCheck
      intro _
      refine linksPass_link hNode ?_
      rw [not_or, not_and_or] at hCheck
      simp only [passesCheck, hResolved]
      exact hCheck.2.imp not_not.mp (by simp)
  | directory entries =>
    have hList : Validates root tree (fun outcome => ∀ found, outcome = .ok found →
        (∀ name child, tree.at (path ++ [name]) = some child → ∃ entry ∈ found, entry.filename = name) ∧
        ∀ entry ∈ found, ∃ child, tree.at (path ++ [entry.filename]) = some child ∧
          (entry.attrs.mode = none ∨ resolveSftpEntryType entry.attrs.mode = nodeType child))
        (ask (.readdir (render (root ++ path) false))) := by
      refine validates_ask fun answer hAnswer => ?_
      rintro found rfl
      exact hAnswer path hLocation
    refine hList.bind ?_ fun _ => nofun
    rintro found ⟨hAll, hFound⟩
    refine validates_active.bind (fun _ _ => ?_) fun _ => nofun
    have hLoop : Validates root tree (fun outcome => ∀ results, outcome = .ok results →
        ∀ entry ∈ found, LinksPass root tree (path ++ [entry.filename]))
        (Program.forEach (fun entry => do
          assertOperationActive
          validateStagedTree (render root false) depth (join (render (root ++ path) false) entry.filename)
            entry.attrs.mode) found) := by
      refine Validates.forEach fun entry hEntry => ?_
      obtain ⟨child, hChild, hKnown⟩ := hFound entry hEntry
      refine validates_active.bind (fun _ _ => ?_) fun _ => nofun
      rw [join_render hPath (hNames _ child hChild), List.append_assoc]
      refine (hEntries _ child _ hChild hKnown).mono fun outcome _ hPass => ?_
      rintro _ rfl
      exact hPass rfl
    refine hLoop.bind (fun _ hChecked => ?_) fun _ => nofun
    intro _
    refine linksPass_directory hNode fun name child hChild => ?_
    obtain ⟨entry, hEntry, rfl⟩ := hAll name child hChild
    exact hChecked entry hEntry

theorem validates_staged (hRoot : ∀ n ∈ root, Plain n) (hNames : NamesPlain tree) (depth : Nat)
    (hNode : tree.at path = some node) {knownMode : Option Nat} (hMode : knownMode = none ∨ resolveSftpEntryType knownMode = nodeType node) :
    Validates root tree (fun outcome => outcome = .ok () → LinksPass root tree path)
      (validateStagedTree (render root false) depth (render (root ++ path) false) knownMode) := by
  induction depth generalizing path node knownMode with
  | zero => exact nofun
  | succ depth ih =>
    have hPath : ∀ n ∈ root ++ path, Plain n := by
      intro n hn
      obtain hn | hn := List.mem_append.mp hn
      · exact hRoot n hn
      · exact hNames path node hNode n hn
    have hChild : ∀ name child, tree.at (path ++ [name]) = some child → Plain name := fun name child h =>
      hNames _ child h name (by simp)
    have hRest {mode : Option Nat} (h : resolveSftpEntryType mode = nodeType node) :=
      validates_known depth hPath hChild hNode h fun name child knownMode hAt hKnown => ih hAt hKnown
    cases knownMode with
    | some mode =>
      rw [validateStagedTree_some]
      exact validates_active.bind (fun _ _ => hRest (hMode.resolve_left nofun)) fun _ => nofun
    | none =>
      rw [validateStagedTree_none]
      refine validates_active.bind (fun _ _ => ?_) fun _ => nofun
      have hStat : Validates root tree (fun outcome => ∀ stats, outcome = .ok stats →
          resolveSftpEntryType stats.mode = nodeType node) (ask (.lstat (render (root ++ path) false))) := by
        refine validates_ask fun answer hAnswer => ?_
        rintro stats rfl
        exact hAnswer path node (location_render hPath false) hNode
      exact hStat.bind (fun _ hType => hRest hType) fun _ => nofun

end Validation

variable {tree : StagedTree}

theorem StagedTree.Accepted.linksPass (hRoot : ∀ n ∈ root, Plain n) (h : tree.Accepted root) : LinksPass root tree.node [] := by
  obtain ⟨depth, hSteps⟩ := h
  have hType : resolveSftpEntryType (some 0o040000) = .directory := by decide
  have hNode : tree.node.at [] = some tree.node := rfl
  have hSafe := validates_staged hRoot tree.names_plain depth hNode (.inr hType)
  rw [List.append_nil] at hSafe
  exact Program.Safe.steps hSafe hSteps rfl

theorem prefix_of_isPrefixOf_render {place : List Text} (hPlace : ∀ n ∈ place, Plain n) (hRoot : ∀ n ∈ root, Plain n)
    (h : (render root false ++ ['/']).isPrefixOf (render place false) = true) : root <+: place := by
  by_cases hEmpty : root = []
  · rw [hEmpty]
    exact List.nil_prefix
  obtain ⟨rest, hRest⟩ := List.isPrefixOf_iff_prefix.mp h
  rw [render_untrailed, render_untrailed, List.append_assoc, List.cons_append, List.cons.injEq] at hRest
  have hJoin : joinSegments root ++ '/' :: rest = joinSegments place := hRest.2
  have hNonempty : place ≠ [] := by
    rintro rfl
    simp [joinSegments] at hJoin
  have hSplit := splitOn_joinSegments hPlace hNonempty
  rw [← hJoin, List.splitOn_append_cons_self, splitOn_joinSegments hRoot hEmpty] at hSplit
  exact ⟨_, hSplit⟩

theorem inside_of_passesCheck {directory : List Text} (hPlain : ∀ n ∈ root ++ (directory ++ [name]), Plain n)
    (hRelative : isAbsolute target = false) (h : passesCheck root (directory ++ [name]) target) :
    root <+: lexical (root ++ directory) (target.splitOn '/') := by
  have hRoot : ∀ n ∈ root, Plain n := fun n hn => hPlain n (List.mem_append_left _ hn)
  have hDirectory : ∀ n ∈ root ++ directory, Plain n := fun n hn => hPlain n (by
    rw [← List.append_assoc]
    exact List.mem_append_left _ hn)
  have hLexical : location (render (root ++ directory) false ++ '/' :: target) =
      lexical (root ++ directory) (target.splitOn '/') := by
    rw [location, resolveSegments, foldl_pushSegment_append, location_render hDirectory]
    rfl
  have hResolved : Archive.resolveFrom (dirname (render (root ++ (directory ++ [name])) false)) target =
      render (lexical (root ++ directory) (target.splitOn '/')) false := by
    rw [← List.append_assoc, dirname_render hDirectory (hPlain name (by simp)), Archive.resolveFrom, hLexical,
      render_untrailed]
  have hPlace : ∀ n ∈ lexical (root ++ directory) (target.splitOn '/'), Plain n := hLexical ▸ location_plain _
  simp only [passesCheck, hRelative, Bool.false_eq_true, if_false, hResolved] at h
  obtain hSame | hBelow := h
  · rw [render_injective hPlace hRoot hSame]
  · exact prefix_of_isPrefixOf_render hPlace hRoot hBelow

/-- Every absolute target still names a place at or below the root once its `..` are resolved. -/
def AbsoluteLinksInside (tree : Node) (root : List Text) : Prop :=
  ∀ path target, tree.at path = some (.link target) → isAbsolute target = true → root <+: location target

theorem linksInside_of_accepted (hRoot : ∀ n ∈ root, Plain n) (hAccepted : tree.Accepted root)
    (hAbsolute : AbsoluteLinksInside tree.node root) : LinksInside tree.node root := by
  intro directory name target hLink
  have hPass : passesCheck root (directory ++ [name]) target := hAccepted.linksPass hRoot (directory ++ [name]) target hLink
  cases hTarget : isAbsolute target with
  | true =>
    rw [origin, if_pos hTarget]
    exact hAbsolute _ target hLink hTarget
  | false =>
    rw [origin, if_neg (by simp [hTarget])]
    refine inside_of_passesCheck (fun n hn => ?_) hTarget hPass
    obtain hn | hn := List.mem_append.mp hn
    · exact hRoot n hn
    · exact tree.names_plain _ _ hLink n hn

theorem linksLandInside_of_accepted (hRoot : ∀ n ∈ root, Plain n) (hAccepted : tree.Accepted root)
    (hAbsolute : AbsoluteLinksInside tree.node root) (hStraight : LinksStraight tree.node root) : LinksLandInside tree.node root :=
  linksLandInside_of_links hRoot ⟨tree.entries, rfl⟩ tree.names_plain (linksInside_of_accepted hRoot hAccepted hAbsolute)
    hStraight

/-- An accepted tree is contained just when its single links lead inside, and they do when the text that was checked
tells where they lead. -/
theorem accepted_links_stay_inside {tree : StagedTree} {root : List Text} (hRoot : ∀ n ∈ root, Plain n) (hAccepted : tree.Accepted root) :
    (Contained tree.node root ↔ LinksLandInside tree.node root) ∧
      (AbsoluteLinksInside tree.node root → LinksStraight tree.node root → LinksLandInside tree.node root) :=
  ⟨contained_iff_linksLandInside ⟨tree.entries, rfl⟩ tree.names_plain, linksLandInside_of_accepted hRoot hAccepted⟩

theorem mem_of_lookup (h : entries.lookup name = some node) : (name, node) ∈ entries := by
  obtain ⟨before, after, rfl, -⟩ := List.lookup_eq_some_iff.mp h
  simp

theorem at_child {tree : Node} (h : tree.at path = some (.directory entries)) (name : Text) :
    tree.at (path ++ [name]) = entries.lookup name := by
  rw [Node.at_append, h, Option.bind_some, Node.at]
  split
  · rename_i entry hEntry
    cases entry <;> exact hEntry.symm
  · exact Eq.symm ‹_›

theorem namesPlain_directory (h : ∀ e ∈ entries, Plain e.1 ∧ NamesPlain e.2) : NamesPlain (.directory entries) := by
  intro path node hAt
  cases path with
  | nil => simp
  | cons name path =>
    rw [Node.at] at hAt
    split at hAt
    · rename_i entry hEntry
      obtain ⟨hName, hBelow⟩ := h (name, entry) (mem_of_lookup hEntry)
      exact List.forall_mem_cons.mpr ⟨hName, hBelow path node hAt⟩
    · cases hAt

theorem namesPlain_leaf (h : ∀ entries, node ≠ .directory entries) : NamesPlain node := by
  intro path entry hAt
  cases path with
  | nil => simp
  | cons name path =>
    cases node with
    | directory entries => exact absurd rfl (h entries)
    | file => cases hAt
    | link target => cases hAt

def modeOf : Node → Nat
  | .file => 0o100644
  | .link _ => 0o120777
  | .directory _ => 0o040755

theorem resolveSftpEntryType_modeOf (node : Node) : resolveSftpEntryType (some (modeOf node)) = nodeType node := by
  cases node with
  | file => decide
  | link target => exact (by decide : resolveSftpEntryType (some 0o120777) = .symlink)
  | directory entries => exact (by decide : resolveSftpEntryType (some 0o040755) = .directory)

def entryAt (root : List Text) (tree : Node) (path : Text) : Option Node :=
  if root <+: location path then tree.at ((location path).drop root.length) else none

def treeHost (root : List Text) (tree : Node) : Unit → (q : ArchiveAsk) → Except ArchiveError q.Answer × Unit
  | _, .lstat path =>
    match entryAt root tree path with
    | some node => (.ok ⟨some (modeOf node), none, none, none, none, none⟩, ())
    | none => (.error Archive.noSuchFile, ())
  | _, .readdir path =>
    match entryAt root tree path with
    | some (.directory entries) =>
      (.ok (entries.map fun entry => ⟨entry.1, [], ⟨none, none, none, none, none, none⟩⟩), ())
    | _ => (.error Archive.noSuchFile, ())
  | _, .readlink path =>
    match entryAt root tree path with
    | some (.link target) => (.ok target, ())
    | _ => (.error Archive.noSuchFile, ())
  | _, .assertOperationActive => (.ok (), ())
  | _, _ => (.error .cancelled, ())

theorem entryAt_below {below : List Text} {tree : Node} {path : Text} (h : location path = root ++ below) :
    entryAt root tree path = tree.at below := by
  rw [entryAt, h, if_pos (List.prefix_append root below), List.drop_left]

theorem honestHost_treeHost (root : List Text) (tree : Node) (q : ArchiveAsk) :
    honestHost root tree () q (treeHost root tree () q).1 (treeHost root tree () q).2 := by
  cases q with
  | lstat path =>
    rw [treeHost]
    split
    · rename_i node hEntry
      intro below node' hLocation hAt
      rw [entryAt_below hLocation, hAt] at hEntry
      cases hEntry
      exact resolveSftpEntryType_modeOf node
    · trivial
  | readdir path =>
    rw [treeHost]
    split
    · rename_i entries hEntry
      intro below hLocation
      rw [entryAt_below hLocation] at hEntry
      constructor
      · intro name node hAt
        rw [at_child hEntry] at hAt
        exact ⟨_, List.mem_map_of_mem (mem_of_lookup hAt), rfl⟩
      · intro shown hShown
        obtain ⟨entry, hMem, rfl⟩ := List.mem_map.mp hShown
        have hFound : (entries.lookup entry.1).isSome = true := List.lookup_isSome_iff.mpr ⟨entry, hMem, by simp⟩
        obtain ⟨node, hNode⟩ := Option.isSome_iff_exists.mp hFound
        exact ⟨node, (at_child hEntry entry.1).trans hNode, .inl rfl⟩
    · trivial
  | readlink path =>
    rw [treeHost]
    split
    · rename_i target hEntry
      intro below node hLocation hAt
      rw [entryAt_below hLocation, hAt] at hEntry
      cases hEntry
      rfl
    · trivial
  | _ => trivial

theorem accepted_of_treeHost (depth : Nat) (h : (Program.run (treeHost root tree.node)
      (validateStagedTree (render root false) depth (render root false) (some 0o040000)) ()).1 = .ok ()) : tree.Accepted root := by
  refine ⟨depth, ?_⟩
  have hSteps := Program.steps_run (s := ()) (validateStagedTree (render root false) depth (render root false)
    (some 0o040000)) fun _ q => honestHost_treeHost root tree.node q
  rwa [h] at hSteps

def concreteRoot : List Text := ["h".toList, "t".toList, ".cosmosh-u".toList]

/-- `d/l` leads to the root, so what `m` names is a sibling of the root. -/
def climbingTree : StagedTree where
  entries := [("d".toList, .directory [("l".toList, .link "..".toList)]), ("m".toList, .link "d/l/../x".toList)]
  names_plain := by
    refine namesPlain_directory fun entry hEntry => ?_
    simp only [List.mem_cons, List.not_mem_nil, or_false] at hEntry
    obtain rfl | rfl := hEntry
    · refine ⟨⟨by decide, by decide, by decide, by decide⟩, namesPlain_directory fun entry hEntry => ?_⟩
      obtain rfl := List.mem_singleton.mp hEntry
      exact ⟨⟨by decide, by decide, by decide, by decide⟩, namesPlain_leaf nofun⟩
    · exact ⟨⟨by decide, by decide, by decide, by decide⟩, namesPlain_leaf nofun⟩

def singleLink (name target : Text) (h : Plain name) : StagedTree where
  entries := [(name, .link target)]
  names_plain := by
    refine namesPlain_directory fun entry hEntry => ?_
    obtain rfl := List.mem_singleton.mp hEntry
    exact ⟨h, namesPlain_leaf nofun⟩

theorem plain_m : Plain "m".toList := ⟨by decide, by decide, by decide, by decide⟩

def climbingTarget : Text := "/h/t/.cosmosh-u/../x".toList

theorem accepted_links_leave_root : (climbingTree.Accepted concreteRoot ∧ ¬ Contained climbingTree.node concreteRoot) ∧
      (singleLink "m".toList climbingTarget plain_m).Accepted concreteRoot ∧
        ¬ Contained (singleLink "m".toList climbingTarget plain_m).node concreteRoot := by
  refine ⟨⟨accepted_of_treeHost 3 (by decide), fun h => ?_⟩,
    accepted_of_treeHost 3 (by decide), fun h => ?_⟩
  · exact absurd (h 20 [] _ "m".toList rfl (by decide)) (by decide)
  · exact absurd (h 20 [] _ "m".toList rfl (by decide)) (by decide)

theorem link_singleLink {h : Plain name} {target' : Text}
    (hLink : (singleLink name target h).node.at path = some (.link target')) : path = [name] ∧ target' = target := by
  cases path with
  | nil => cases hLink
  | cons first path =>
    simp only [StagedTree.node, singleLink, Node.at, List.lookup_cons, List.lookup_nil] at hLink
    split at hLink
    · rename_i entry hEntry
      split at hEntry
      · rename_i hName
        cases hEntry
        cases path with
        | nil =>
          cases hLink
          exact ⟨by rw [beq_iff_eq.mp hName], rfl⟩
        | cons second path => cases hLink
      · cases hEntry
    · cases hLink

theorem plain_concreteRoot : ∀ n ∈ concreteRoot, Plain n := by
  simp only [concreteRoot, List.forall_mem_cons]
  exact ⟨⟨by decide, by decide, by decide, by decide⟩, ⟨by decide, by decide, by decide, by decide⟩,
    ⟨by decide, by decide, by decide, by decide⟩, by simp⟩

theorem accepted_link_stays : Contained (singleLink "m".toList "/h/t/.cosmosh-u/x".toList plain_m).node concreteRoot := by
  have hAccepted : (singleLink "m".toList "/h/t/.cosmosh-u/x".toList plain_m).Accepted concreteRoot := accepted_of_treeHost 3 (by decide)
  obtain ⟨hContained, hLand⟩ := accepted_links_stay_inside plain_concreteRoot
    hAccepted
  refine hContained.mpr (hLand ?_ ?_)
  · intro path target hLink _
    rw [(link_singleLink hLink).2]
    decide
  · intro directory name target hLink
    rw [(link_singleLink hLink).2]
    exact straight_of_descending (by decide) _

end Sftp
