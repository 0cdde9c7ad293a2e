import Cosmosh.Library.RenderedPath

/-! # Resolving paths through symbolic links

A tree of entries hangs at a root location of a file system.
-/

namespace Library.LinkedTree

open PosixPath

inductive Node
  | file
  | link (target : Text)
  | directory (entries : List (Text × Node))

def Node.at : Node → List Text → Option Node
  | node, [] => some node
  | .directory entries, name :: path =>
    match entries.lookup name with
    | some entry => entry.at path
    | none => none
  | .file, _ :: _ | .link _, _ :: _ => none

theorem Node.at_append (node : Node) (path rest : List Text) : node.at (path ++ rest) = (node.at path).bind fun entry => entry.at rest := by
  induction path generalizing node with
  | nil => cases node <;> rfl
  | cons name path ih =>
    cases node with
    | file => rfl
    | link target => rfl
    | directory entries =>
      simp only [List.cons_append, Node.at]
      split
      · exact ih _
      · rfl

theorem Node.exists_directory {node entry : Node} {path : List Text} {name : Text}
    (h : node.at (path ++ [name]) = some entry) : ∃ entries, node.at path = some (.directory entries) := by
  rw [Node.at_append] at h
  obtain ⟨parent, hParent, hEntry⟩ := Option.bind_eq_some_iff.mp h
  cases parent with
  | file => cases hEntry
  | link target => cases hEntry
  | directory entries => exact ⟨entries, hParent⟩

inductive Found
  | entry (node : Node)
  | ancestor
  | elsewhere
  | missing

def find (tree : Node) (root place : List Text) : Found :=
  if root <+: place then
    match tree.at (place.drop root.length) with
    | some node => .entry node
    | none => .missing
  else if place <+: root then .ancestor
  else .elsewhere

theorem find_below (tree : Node) (root path : List Text) {node : Node} (h : tree.at path = some node) :
    find tree root (root ++ path) = .entry node := by
  rw [find, if_pos (List.prefix_append root path), List.drop_left, h]

variable {tree : Node} {root place : List Text}

theorem exists_of_find {node : Node} (h : find tree root place = .entry node) : ∃ path, place = root ++ path ∧ tree.at path = some node := by
  rw [find] at h
  split at h
  · rename_i hBelow
    obtain ⟨path, rfl⟩ := hBelow
    rw [List.drop_left] at h
    split at h
    · rename_i hAt
      cases h
      exact ⟨path, rfl, hAt⟩
    · cases h
  · split at h
    · cases h
    · cases h

variable {segment target : Text}

theorem exists_link_of_find (hDirectory : ∃ entries, tree = .directory entries)
    (h : find tree root (place ++ [segment]) = .entry (.link target)) :
    ∃ directory, place = root ++ directory ∧ tree.at (directory ++ [segment]) = some (.link target) := by
  obtain ⟨path, hPath, hLink⟩ := exists_of_find h
  obtain rfl | ⟨directory, name, rfl⟩ := List.eq_nil_or_concat path
  · obtain ⟨entries, rfl⟩ := hDirectory
    cases hLink
  · rw [List.concat_eq_append, ← List.append_assoc] at hPath
    rw [List.concat_eq_append] at hLink
    obtain ⟨rfl, hSame⟩ := List.append_inj' hPath rfl
    cases hSame
    exact ⟨directory, rfl, hLink⟩

theorem not_comparable_of_find (h : find tree root place = .elsewhere) : ¬ root <+: place ∧ ¬ place <+: root := by
  rw [find] at h
  split at h
  · split at h
    · cases h
    · cases h
  · split at h
    · cases h
    · exact ⟨‹_›, ‹_›⟩

inductive Outcome
  | reached (place : List Text)
  | elsewhere (place : List Text)
  | failed
  | unfinished
  deriving DecidableEq

def resolve (tree : Node) (root : List Text) : Nat → List Text → List Text → Outcome
  | 0, _, _ => .unfinished
  | _ + 1, place, [] => .reached place
  | fuel + 1, place, segment :: rest =>
    if segment = [] ∨ segment = ".".toList then resolve tree root fuel place rest
    else if segment = "..".toList then resolve tree root fuel place.dropLast rest
    else
      match find tree root (place ++ [segment]) with
      | .missing => .failed
      | .elsewhere => .elsewhere (place ++ [segment])
      | .ancestor | .entry (.directory _) => resolve tree root fuel (place ++ [segment]) rest
      | .entry .file => if rest = [] then .reached (place ++ [segment]) else .failed
      | .entry (.link target) =>
        resolve tree root fuel (if isAbsolute target then [] else place) (target.splitOn '/' ++ rest)

def Outcome.within (root : List Text) : Outcome → Prop
  | .reached place => root <+: place
  | .elsewhere _ => False
  | .failed | .unfinished => True

instance (root : List Text) : DecidablePred (Outcome.within root)
  | .reached place => inferInstanceAs (Decidable (root <+: place))
  | .elsewhere _ => inferInstanceAs (Decidable False)
  | .failed | .unfinished => inferInstanceAs (Decidable True)

def Contained (tree : Node) (root : List Text) : Prop :=
  ∀ fuel start entries (path : Text), tree.at start = some (.directory entries) → "..".toList ∉ path.splitOn '/' →
    (resolve tree root fuel (root ++ start) (path.splitOn '/')).within root

def lexical (place segments : List Text) : List Text := (segments.foldl (pushSegment false) place.reverse).reverse

@[simp] theorem lexical_nil (place : List Text) : lexical place [] = place := by simp [lexical]

theorem lexical_cons (place rest : List Text) (segment : Text) :
    lexical place (segment :: rest) = lexical (pushSegment false place.reverse segment).reverse rest := by
  simp [lexical]

theorem lexical_append (place left right : List Text) : lexical place (left ++ right) = lexical (lexical place left) right := by
  simp [lexical]

theorem lexical_up (h : ∀ n ∈ place, Plain n) (rest : List Text) : lexical place ("..".toList :: rest) = lexical place.dropLast rest := by
  have hUp : pushSegment false place.reverse "..".toList = place.dropLast.reverse := by
    rw [pushSegment, if_neg (by decide), if_pos rfl]
    obtain rfl | ⟨before, last, rfl⟩ := List.eq_nil_or_concat place
    · rfl
    · rw [List.concat_eq_append] at h ⊢
      have hLast : Plain last := h last (by simp)
      rw [List.reverse_append, List.reverse_singleton, List.singleton_append, ascend, if_neg hLast.not_dotdot,
        List.dropLast_concat]
  rw [lexical_cons, hUp, List.reverse_reverse]

theorem lexical_plain (h : Plain segment) (place rest : List Text) : lexical place (segment :: rest) = lexical (place ++ [segment]) rest := by
  rw [lexical_cons, pushSegment_plain false _ h, List.reverse_cons, List.reverse_reverse]

theorem prefix_lexical {rest : List Text} (h : "..".toList ∉ rest) (place : List Text) : place <+: lexical place rest := by
  induction rest generalizing place with
  | nil => rw [lexical_nil]
  | cons segment rest ih =>
    have hRest : "..".toList ∉ rest := fun hMem => h (List.mem_cons_of_mem _ hMem)
    rw [lexical_cons, pushSegment]
    split
    · rw [List.reverse_reverse]
      exact ih hRest place
    · have hName : segment ≠ "..".toList := fun hUp => h (hUp ▸ List.mem_cons_self)
      rw [if_neg hName, List.reverse_cons, List.reverse_reverse]
      exact (List.prefix_append place [segment]).trans (ih hRest _)

/-- `..` is not met after a link, or after a place of which nothing is known. -/
def Straight (tree : Node) (root : List Text) : List Text → List Text → Prop
  | _, [] => True
  | place, segment :: rest =>
    if segment = [] ∨ segment = ".".toList then Straight tree root place rest
    else if segment = "..".toList then Straight tree root place.dropLast rest
    else
      match find tree root (place ++ [segment]) with
      | .entry (.link _) | .elsewhere => "..".toList ∉ rest
      | _ => Straight tree root (place ++ [segment]) rest

theorem straight_of_descending {rest : List Text} (h : "..".toList ∉ rest) (place : List Text) : Straight tree root place rest := by
  induction rest generalizing place with
  | nil => trivial
  | cons segment rest ih =>
    have hRest : "..".toList ∉ rest := fun hMem => h (List.mem_cons_of_mem _ hMem)
    rw [Straight]
    split
    · exact ih hRest place
    · have hName : segment ≠ "..".toList := fun hUp => h (hUp ▸ List.mem_cons_self)
      rw [if_neg hName]
      split
      · exact hRest
      · exact hRest
      · exact ih hRest _

theorem Straight.append {left right : List Text} (h : Straight tree root place left) (hRight : "..".toList ∉ right) :
    Straight tree root place (left ++ right) := by
  induction left generalizing place with
  | nil => exact straight_of_descending hRight place
  | cons segment left ih =>
    rw [Straight] at h
    rw [List.cons_append, Straight]
    split
    · rename_i hSkip
      rw [if_pos hSkip] at h
      exact ih h
    · rename_i hSkip
      rw [if_neg hSkip] at h
      split
      · rename_i hUp
        rw [if_pos hUp] at h
        exact ih h
      · rename_i hUp
        rw [if_neg hUp] at h
        split at h
        · exact fun hMem => (List.mem_append.mp hMem).elim h hRight
        · exact fun hMem => (List.mem_append.mp hMem).elim h hRight
        · exact ih h

def origin (directory : List Text) (target : Text) : List Text := if isAbsolute target then [] else directory

def LinksInside (tree : Node) (root : List Text) : Prop :=
  ∀ directory name target, tree.at (directory ++ [name]) = some (.link target) →
    root <+: lexical (origin (root ++ directory) target) (target.splitOn '/')

def LinksStraight (tree : Node) (root : List Text) : Prop :=
  ∀ directory name target, tree.at (directory ++ [name]) = some (.link target) →
    Straight tree root (origin (root ++ directory) target) (target.splitOn '/')

structure OnCourse (tree : Node) (root place segments : List Text) : Prop where
  place_plain : ∀ n ∈ place, Plain n
  no_separator : ∀ s ∈ segments, '/' ∉ s
  straight : Straight tree root place segments
  inside : root <+: lexical place segments

variable {tree : Node} {root : List Text}

theorem OnCourse.skip {rest : List Text} (h : OnCourse tree root place (segment :: rest))
    (hSkip : segment = [] ∨ segment = ".".toList) : OnCourse tree root place rest where
  place_plain := h.place_plain
  no_separator := fun s hs => h.no_separator s (List.mem_cons_of_mem _ hs)
  straight := by
    have hStraight := h.straight
    rwa [Straight, if_pos hSkip] at hStraight
  inside := by
    have hInside := h.inside
    rwa [lexical_cons, pushSegment, if_pos hSkip, List.reverse_reverse] at hInside

theorem OnCourse.up {rest : List Text} (h : OnCourse tree root place ("..".toList :: rest)) : OnCourse tree root place.dropLast rest where
  place_plain := fun n hn => h.place_plain n (List.mem_of_mem_dropLast hn)
  no_separator := fun s hs => h.no_separator s (List.mem_cons_of_mem _ hs)
  straight := by
    have hStraight := h.straight
    rwa [Straight, if_neg (by decide), if_pos rfl] at hStraight
  inside := by
    have hInside := h.inside
    rwa [lexical_up h.place_plain] at hInside

theorem OnCourse.down {rest : List Text} (h : OnCourse tree root place (segment :: rest)) (hName : Plain segment)
    (hStraight : Straight tree root (place ++ [segment]) rest) : OnCourse tree root (place ++ [segment]) rest where
  place_plain := all_plain_concat h.place_plain hName
  no_separator := fun s hs => h.no_separator s (List.mem_cons_of_mem _ hs)
  straight := hStraight
  inside := by
    have hInside := h.inside
    rwa [lexical_plain hName] at hInside

theorem OnCourse.follow {directory rest : List Text} {name : Text} (hInside : LinksInside tree root)
    (hStraight : LinksStraight tree root) (hPlain : ∀ n ∈ root ++ directory, Plain n)
    (hLink : tree.at (directory ++ [name]) = some (.link target)) (hRest : "..".toList ∉ rest) (hSeparator : ∀ s ∈ rest, '/' ∉ s) :
    OnCourse tree root (origin (root ++ directory) target) (target.splitOn '/' ++ rest) where
  place_plain := by
    rw [origin]
    split
    · simp
    · exact hPlain
  no_separator := by
    intro s hs
    obtain hs | hs := List.mem_append.mp hs
    · exact not_mem_of_mem_splitOn hs
    · exact hSeparator s hs
  straight := (hStraight directory name target hLink).append hRest
  inside := by
    rw [lexical_append]
    exact (hInside directory name target hLink).trans (prefix_lexical hRest _)

theorem OnCourse.within {segments : List Text} (hDirectory : ∃ entries, tree = .directory entries)
    (hInside : LinksInside tree root) (hStraight : LinksStraight tree root) (fuel : Nat) (h : OnCourse tree root place segments) :
    (resolve tree root fuel place segments).within root := by
  induction fuel generalizing place segments with
  | zero => trivial
  | succ fuel ih =>
    cases segments with
    | nil =>
      have hReached := h.inside
      rwa [lexical_nil] at hReached
    | cons segment rest =>
      rw [resolve]
      split
      · exact ih (h.skip ‹_›)
      · rename_i hKept
        split
        · rename_i hUp
          subst hUp
          exact ih h.up
        · rename_i hUp
          have hName : Plain segment := ⟨fun hNil => hKept (.inl hNil), fun hDot => hKept (.inr hDot), hUp,
            h.no_separator segment List.mem_cons_self⟩
          have hNext := h.straight
          rw [Straight, if_neg hKept, if_neg hUp] at hNext
          split
          · trivial
          · rename_i hFound
            rw [hFound] at hNext
            have hTarget := h.inside
            rw [lexical_plain hName] at hTarget
            have hBelow := prefix_lexical hNext (place ++ [segment])
            obtain ⟨hOutside, hAbove⟩ := not_comparable_of_find hFound
            obtain hPrefix | hPrefix := List.prefix_or_prefix_of_prefix hTarget hBelow
            · exact absurd hPrefix hOutside
            · exact absurd hPrefix hAbove
          · rename_i hFound
            rw [hFound] at hNext
            exact ih (h.down hName hNext)
          · rename_i hFound
            rw [hFound] at hNext
            exact ih (h.down hName hNext)
          · rename_i hFound
            split
            · obtain ⟨path, hPath, -⟩ := exists_of_find hFound
              exact ⟨path, hPath.symm⟩
            · trivial
          · rename_i target hFound
            rw [hFound] at hNext
            obtain ⟨directory, rfl, hLink⟩ := exists_link_of_find hDirectory hFound
            exact ih (.follow hInside hStraight h.place_plain hLink hNext
              fun s hs => h.no_separator s (List.mem_cons_of_mem _ hs))

def LinksLandInside (tree : Node) (root : List Text) : Prop :=
  ∀ fuel directory name target, tree.at (directory ++ [name]) = some (.link target) →
    (resolve tree root fuel (origin (root ++ directory) target) (target.splitOn '/')).within root

theorem linksLandInside_of_links (hRoot : ∀ n ∈ root, Plain n) (hDirectory : ∃ entries, tree = .directory entries)
    (hNames : ∀ path node, tree.at path = some node → ∀ n ∈ path, Plain n) (hInside : LinksInside tree root)
    (hStraight : LinksStraight tree root) : LinksLandInside tree root := by
  intro fuel directory name target hLink
  have hPlain : ∀ n ∈ root ++ directory, Plain n := by
    intro n hn
    obtain hn | hn := List.mem_append.mp hn
    · exact hRoot n hn
    · exact hNames _ _ hLink n (List.mem_append_left _ hn)
  have hCourse := OnCourse.follow hInside hStraight hPlain hLink List.not_mem_nil (by simp)
  rw [List.append_nil] at hCourse
  exact hCourse.within hDirectory hInside hStraight fuel

theorem resolve_link {directory : List Text} {name : Text} (hName : Plain name)
    (hLink : tree.at (directory ++ [name]) = some (.link target)) (fuel : Nat) (rest : List Text) :
    resolve tree root (fuel + 1) (root ++ directory) (name :: rest) =
      resolve tree root fuel (origin (root ++ directory) target) (target.splitOn '/' ++ rest) := by
  have hFound := find_below tree root _ hLink
  rw [← List.append_assoc] at hFound
  rw [resolve, if_neg (not_or.mpr ⟨hName.nonempty, hName.not_dot⟩), if_neg hName.not_dotdot, hFound]
  rfl

theorem Contained.linksLandInside (hNames : ∀ path node, tree.at path = some node → ∀ n ∈ path, Plain n)
    (h : Contained tree root) : LinksLandInside tree root := by
  intro fuel directory name target hLink
  obtain ⟨entries, hDirectory⟩ := Node.exists_directory hLink
  have hName : Plain name := hNames _ _ hLink name (by simp)
  have hPath := h (fuel + 1) directory entries name hDirectory
  rw [splitOn_plain hName, resolve_link hName hLink, List.append_nil] at hPath
  exact hPath fun hUp => hName.not_dotdot (List.mem_singleton.mp hUp).symm

def LandsInside (tree : Node) (root place segments : List Text) : Prop := ∀ fuel, (resolve tree root fuel place segments).within root

theorem LandsInside.rest {rest : List Text} (h : LandsInside tree root place (segment :: rest)) {place' segments' : List Text}
    (hStep : ∀ fuel, resolve tree root (fuel + 1) place (segment :: rest) = resolve tree root fuel place' segments') :
    LandsInside tree root place' segments' :=
  fun fuel => hStep fuel ▸ h (fuel + 1)

theorem landsInside_nil : LandsInside tree root place [] ↔ root <+: place := by
  constructor
  · intro h
    exact h 1
  · intro h fuel
    cases fuel with
    | zero => trivial
    | succ fuel => exact h

theorem LandsInside.append (hDirectory : ∃ entries, tree = .directory entries) (hLinks : LinksLandInside tree root) (fuel : Nat)
    {segments rest : List Text} (h : LandsInside tree root place segments) (hRest : "..".toList ∉ rest) :
    (resolve tree root fuel place (segments ++ rest)).within root := by
  induction fuel generalizing place segments rest with
  | zero => trivial
  | succ fuel ih =>
    cases segments with
    | nil =>
      have hPlace := landsInside_nil.mp h
      rw [List.nil_append]
      cases rest with
      | nil => exact hPlace
      | cons segment rest =>
        have hDescending : "..".toList ∉ rest := fun hMem => hRest (List.mem_cons_of_mem _ hMem)
        have hNext : LandsInside tree root (place ++ [segment]) [] := landsInside_nil.mpr (hPlace.trans (List.prefix_append _ _))
        rw [resolve]
        split
        · exact ih h hDescending
        · have hName : segment ≠ "..".toList := fun hUp => hRest (hUp ▸ List.mem_cons_self)
          rw [if_neg hName]
          split
          · trivial
          · rename_i hFound
            exact absurd (hPlace.trans (List.prefix_append _ _)) (not_comparable_of_find hFound).1
          · exact ih hNext hDescending
          · exact ih hNext hDescending
          · split
            · exact hPlace.trans (List.prefix_append _ _)
            · trivial
          · rename_i target hFound
            obtain ⟨directory, rfl, hLink⟩ := exists_link_of_find hDirectory hFound
            exact ih (fun fuel => hLinks fuel directory segment target hLink) hDescending
    | cons segment segments =>
      rw [List.cons_append, resolve]
      split
      · rename_i hSkip
        exact ih (h.rest fun fuel => by rw [resolve, if_pos hSkip]) hRest
      · rename_i hKept
        split
        · rename_i hUp
          exact ih (h.rest fun fuel => by rw [resolve, if_neg hKept, if_pos hUp]) hRest
        · rename_i hUp
          split
          · trivial
          · rename_i hFound
            have hHere := h 1
            rw [resolve, if_neg hKept, if_neg hUp, hFound] at hHere
            exact hHere
          · rename_i hFound
            exact ih (h.rest fun fuel => by rw [resolve, if_neg hKept, if_neg hUp, hFound]) hRest
          · rename_i hFound
            exact ih (h.rest fun fuel => by rw [resolve, if_neg hKept, if_neg hUp, hFound]) hRest
          · rename_i hFound
            split
            · obtain ⟨path, hPath, -⟩ := exists_of_find hFound
              exact ⟨path, hPath.symm⟩
            · trivial
          · rename_i target hFound
            rw [← List.append_assoc]
            refine ih (h.rest fun fuel => ?_) hRest
            rw [resolve, if_neg hKept, if_neg hUp, hFound]

theorem contained_iff_linksLandInside (hDirectory : ∃ entries, tree = .directory entries)
    (hNames : ∀ path node, tree.at path = some node → ∀ n ∈ path, Plain n) : Contained tree root ↔ LinksLandInside tree root := by
  constructor
  · exact Contained.linksLandInside hNames
  · intro hLinks fuel start entries path _ hPath
    exact LandsInside.append hDirectory hLinks fuel (landsInside_nil.mpr (List.prefix_append root start)) hPath

end Library.LinkedTree
