import Mathlib.Data.Set.Finite.Basic
import Mathlib.Data.Set.Finite.Lattice
import Cosmosh.Library.NormalizedPath

/-! # A file system with symbolic links

Entries stand at places, and a place is the list of names that leads to it from the root.
-/

namespace Library

open PosixPath

namespace FileTree

abbrev Place := List Text

inductive Entry (β : Type)
  | directory
  | file (content : β)
  | link (target : Text)
  | special

def Entry.isLeaf {β : Type} : Entry β → Bool
  | .file _ | .special => true
  | .directory | .link _ => false

end FileTree

structure FileTree (β : Type) where
  entries : FileTree.Place → Option (FileTree.Entry β)
  root : entries [] = some .directory
  parent : ∀ place name, entries (place ++ [name]) ≠ none → entries place = some .directory
  plain : ∀ place name, entries (place ++ [name]) ≠ none → Plain name

namespace FileTree

variable {β : Type}

def segments (p : Text) : List Text := (p.splitOn '/').filter fun s => s ≠ [] ∧ s ≠ ".".toList

/-- The name a path ends with. A path that ends in a separator, `.` or `..` has none, and every link in it is followed. -/
def finalName (p : Text) : Option Text := (p.splitOn '/').getLast?.bind fun s => if s ∈ [[], ".".toList, "..".toList] then none else some s

def start (directory : Place) (p : Text) : Place := if isAbsolute p then [] else directory

inductive Follows (t : FileTree β) : Place → List Text → Place → Prop
  | done (place : Place) : Follows t place [] place
  | up {place last : Place} {rest : List Text} : Follows t place.dropLast rest last → Follows t place ("..".toList :: rest) last
  | enter {place last : Place} {name : Text} {rest : List Text} : t.entries (place ++ [name]) = some .directory →
      Follows t (place ++ [name]) rest last → Follows t place (name :: rest) last
  | arrive {place : Place} {name : Text} {entry : Entry β} : t.entries (place ++ [name]) = some entry → entry.isLeaf = true →
      Follows t place [name] (place ++ [name])
  | link {place last : Place} {name target : Text} {rest : List Text} : t.entries (place ++ [name]) = some (.link target) →
      Follows t (start place target) (segments target ++ rest) last → Follows t place (name :: rest) last

inductive Names (t : FileTree β) (home : Place) (p : Text) : Place → Prop
  | entry {name : Text} {directory : Place} : finalName p = some name → Follows t (start home p) (segments p).dropLast directory →
      t.entries directory = some .directory → Names t home p (directory ++ [name])
  | reached {place : Place} : finalName p = none → Follows t (start home p) (segments p) place →
      t.entries place = some .directory → Names t home p place

structure Vacant (t : FileTree β) (directory : Place) (name : Text) : Prop where
  in_directory : t.entries directory = some .directory
  plain : Plain name
  free : t.entries (directory ++ [name]) = none

def Fresh (t : FileTree β) (home : Place) (p : Text) (place : Place) : Prop :=
  ∃ front name directory, segments p = front ++ [name] ∧ Follows t (start home p) front directory ∧ Vacant t directory name ∧
    place = directory ++ [name]

def Children (t : FileTree β) (place : Place) (names : List Text) : Prop :=
  names.Nodup ∧ ∀ name, name ∈ names ↔ t.entries (place ++ [name]) ≠ none

variable {t t' : FileTree β}

variable {place : Place} {rest : List Text}

theorem directory_of_below (hRest : rest ≠ []) (h : t.entries (place ++ rest) ≠ none) : t.entries place = some .directory := by
  induction rest using List.reverseRecOn with
  | nil => exact absurd rfl hRest
  | append_singleton rest name ih =>
    rw [← List.append_assoc] at h
    have hParent := t.parent _ _ h
    by_cases hEmpty : rest = []
    · rw [hEmpty, List.append_nil] at hParent
      exact hParent
    · exact ih hEmpty (by simp [hParent])

theorem none_below (h : t.entries place ≠ some .directory) (hRest : rest ≠ []) : t.entries (place ++ rest) = none := by
  by_contra hBelow
  exact h (directory_of_below hRest hBelow)

theorem none_from (h : t.entries place = none) (rest : List Text) : t.entries (place ++ rest) = none := by
  by_cases hRest : rest = []
  · rw [hRest, List.append_nil, h]
  · exact none_below (by simp [h]) hRest

variable {name : Text}

theorem Children.plain {names : List Text} (h : t.Children place names) (hName : name ∈ names) : Plain name :=
  t.plain place name ((h.2 name).mp hName)

variable {entry : Entry β}

theorem not_dotdot (h : t.entries (place ++ [name]) = some entry) : name ≠ "..".toList := (t.plain place name (by simp [h])).not_dotdot

variable {last : Place}

theorem Follows.unique {last' : Place} (h : Follows t place rest last) (h' : Follows t place rest last') : last = last' := by
  induction h with
  | done place => cases h' with | done => rfl
  | up _ ih =>
    cases h' with
    | up hNext => exact ih hNext
    | enter hEntry _ => exact absurd rfl (not_dotdot hEntry)
    | arrive hEntry _ => exact absurd rfl (not_dotdot hEntry)
    | link hEntry _ => exact absurd rfl (not_dotdot hEntry)
  | enter hEntry _ ih =>
    cases h' with
    | up => exact absurd rfl (not_dotdot hEntry)
    | enter _ hNext => exact ih hNext
    | arrive hEntry' hLeaf =>
      rw [hEntry] at hEntry'
      cases hEntry'
      cases hLeaf
    | link hEntry' _ =>
      rw [hEntry] at hEntry'
      cases hEntry'
  | arrive hEntry hLeaf =>
    cases h' with
    | up => exact absurd rfl (not_dotdot hEntry)
    | enter hEntry' _ =>
      rw [hEntry] at hEntry'
      cases hEntry'
      cases hLeaf
    | arrive => rfl
    | link hEntry' _ =>
      rw [hEntry] at hEntry'
      cases hEntry'
      cases hLeaf
  | link hEntry _ ih =>
    cases h' with
    | up => exact absurd rfl (not_dotdot hEntry)
    | enter hEntry' _ =>
      rw [hEntry] at hEntry'
      cases hEntry'
    | arrive hEntry' hLeaf =>
      rw [hEntry] at hEntry'
      cases hEntry'
      cases hLeaf
    | link hEntry' hNext =>
      rw [hEntry] at hEntry'
      cases hEntry'
      exact ih hNext

def Extends (t t' : FileTree β) : Prop := ∀ place entry, t.entries place = some entry → t'.entries place = some entry

theorem Extends.refl (t : FileTree β) : Extends t t := fun _ _ h => h

theorem Extends.trans {t'' : FileTree β} (h : Extends t t') (h' : Extends t' t'') : Extends t t'' :=
  fun place entry hEntry => h' place entry (h place entry hEntry)

theorem Follows.mono (hExtends : Extends t t') (h : Follows t place rest last) : Follows t' place rest last := by
  induction h with
  | done place => exact .done place
  | up _ ih => exact .up ih
  | enter hEntry _ ih => exact .enter (hExtends _ _ hEntry) ih
  | arrive hEntry hLeaf => exact .arrive (hExtends _ _ hEntry) hLeaf
  | link hEntry _ ih => exact .link (hExtends _ _ hEntry) ih

theorem Follows.append {middle : Place} {front : List Text} (h : Follows t place front middle)
    (hDirectory : t.entries middle = some .directory) (hRest : Follows t middle rest last) : Follows t place (front ++ rest) last := by
  induction h with
  | done place => exact hRest
  | up _ ih => exact .up (ih hDirectory hRest)
  | enter hEntry _ ih => exact .enter hEntry (ih hDirectory hRest)
  | arrive hEntry hLeaf =>
    rw [hEntry] at hDirectory
    cases hDirectory
    cases hLeaf
  | link hEntry _ ih =>
    have hNext := ih hDirectory hRest
    rw [List.append_assoc] at hNext
    exact .link hEntry hNext

variable {p : Text}

theorem finalName_eq_some (h : finalName p = some name) : (p.splitOn '/').getLast? = some name ∧ Plain name := by
  obtain ⟨s, hLast, hName⟩ := Option.bind_eq_some_iff.mp h
  split at hName
  · cases hName
  · rename_i hSpecial
    cases hName
    simp only [List.mem_cons, List.not_mem_nil, or_false, not_or] at hSpecial
    exact ⟨hLast, hSpecial.1, hSpecial.2.1, hSpecial.2.2, not_mem_of_mem_splitOn (List.mem_of_getLast? hLast)⟩

theorem segments_of_finalName (h : finalName p = some name) : segments p = (segments p).dropLast ++ [name] := by
  obtain ⟨hLast, hPlain⟩ := finalName_eq_some h
  obtain ⟨front, hSplit⟩ := List.getLast?_eq_some_iff.mp hLast
  have hKept : [name].filter (fun s => s ≠ [] ∧ s ≠ ".".toList) = [name] :=
    List.filter_eq_self.mpr fun n hn => List.mem_singleton.mp hn ▸ decide_eq_true ⟨hPlain.nonempty, hPlain.not_dot⟩
  rw [segments, hSplit, List.filter_append, hKept, List.dropLast_concat]

variable {home : Place}

theorem Names.unique {place' : Place} (h : Names t home p place) (h' : Names t home p place') : place = place' := by
  cases h with
  | entry hName hFollows _ =>
    cases h' with
    | entry hName' hFollows' _ =>
      rw [hName] at hName'
      cases hName'
      rw [hFollows.unique hFollows']
    | reached hNone => cases hName.symm.trans hNone
  | reached hNone hFollows _ =>
    cases h' with
    | entry hName => cases hName.symm.trans hNone
    | reached _ hFollows' _ => exact hFollows.unique hFollows'

theorem Names.mono (hExtends : Extends t t') (h : Names t home p place) : Names t' home p place := by
  cases h with
  | entry hName hFollows hDirectory => exact .entry hName (hFollows.mono hExtends) (hExtends _ _ hDirectory)
  | reached hNone hFollows hDirectory => exact .reached hNone (hFollows.mono hExtends) (hExtends _ _ hDirectory)

theorem Names.follows (h : Names t home p place) (hDirectory : t.entries place = some .directory) :
    Follows t (start home p) (segments p) place := by
  cases h with
  | entry hName hFollows hParent =>
    rw [segments_of_finalName hName]
    exact hFollows.append hParent (.enter hDirectory (.done _))
  | reached _ hFollows _ => exact hFollows

theorem Names.follows_leaf (h : Names t home p place) (hEntry : t.entries place = some entry) (hLeaf : entry.isLeaf = true) :
    Follows t (start home p) (segments p) place := by
  cases h with
  | entry hName hFollows hParent =>
    rw [segments_of_finalName hName]
    exact hFollows.append hParent (.arrive hEntry hLeaf)
  | reached _ hFollows _ => exact hFollows

structure ChildPath (p child name : Text) : Prop where
  isAbsolute : isAbsolute child = isAbsolute p
  segments : segments child = segments p ++ [name]
  finalName : finalName child = some name

variable {child : Text}

theorem ChildPath.start (h : ChildPath p child name) (home : Place) : start home child = start home p := by
  rw [FileTree.start, FileTree.start, h.isAbsolute]

theorem ChildPath.names (h : ChildPath p child name) (hFollows : Follows t (FileTree.start home p) (FileTree.segments p) place)
    (hDirectory : t.entries place = some .directory) : Names t home child (place ++ [name]) := by
  refine .entry h.finalName ?_ hDirectory
  rw [h.start, h.segments, List.dropLast_concat]
  exact hFollows

theorem segments_spell {names : List Text} (hNames : ∀ n ∈ names, n ≠ [] ∧ '/' ∉ n) (hDot : ∀ n ∈ names, ¬ (n = [] ∨ n = ".".toList))
    (absolute trailing : Bool) : FileTree.segments (spell absolute names trailing) = names := by
  by_cases hEmpty : names = []
  · subst hEmpty
    cases absolute <;> cases trailing <;> rfl
  · have hAll : names.filter (fun s => s ≠ [] ∧ s ≠ ".".toList) = names :=
      List.filter_eq_self.mpr fun n hn => decide_eq_true (not_or.mp (hDot n hn))
    rw [FileTree.segments, splitOn_spell hNames absolute trailing hEmpty, List.filter_append, List.filter_append, hAll]
    cases absolute <;> cases trailing <;> simp

theorem segments_normalize (p : Text) : FileTree.segments (normalize p) = remaining p := by
  rw [normalize_eq_spell]
  exact segments_spell (remaining_names p) (remaining_not_skipped p) _ _

theorem finalName_spell {names : List Text} (hNames : ∀ n ∈ names ++ [name], n ≠ [] ∧ '/' ∉ n) (hName : Plain name)
    (absolute : Bool) : FileTree.finalName (spell absolute (names ++ [name]) false) = some name := by
  have hSplit := splitOn_spell hNames absolute false (by simp)
  rw [if_neg Bool.false_ne_true, List.append_nil, ← List.append_assoc] at hSplit
  have hOrdinary : name ∉ [[], ".".toList, "..".toList] := by
    simp only [List.mem_cons, List.not_mem_nil, or_false, not_or]
    exact ⟨hName.nonempty, hName.not_dot, hName.not_dotdot⟩
  rw [FileTree.finalName, hSplit, List.getLast?_concat, Option.bind_some, if_neg hOrdinary]

theorem childPath_normalize (h : normalize p = p) (hName : Plain name) : ChildPath p (normalize (p ++ '/' :: name)) name := by
  have hNonempty : p ≠ [] := h ▸ normalize_ne_nil p
  have hKept := remaining_append_plain hNonempty hName
  have hSegments := segments_normalize p
  rw [h] at hSegments
  refine ⟨?_, ?_, ?_⟩
  · rw [isAbsolute_normalize, PosixPath.isAbsolute, PosixPath.isAbsolute, List.head?_append_of_ne_nil _ hNonempty]
  · rw [segments_normalize, hKept, hSegments]
  · have hNames := remaining_names (p ++ '/' :: name)
    rw [hKept] at hNames
    rw [normalize_eq_spell, hKept, hasTrailingSeparator_plain p hName]
    exact finalName_spell hNames hName _

theorem Fresh.unique {place' : Place} (h : Fresh t home p place) (h' : Fresh t home p place') : place = place' := by
  obtain ⟨front, name, directory, hSegments, hFollows, -, rfl⟩ := h
  obtain ⟨front', name', directory', hSegments', hFollows', -, rfl⟩ := h'
  obtain ⟨rfl, hName⟩ := List.append_inj' (hSegments.symm.trans hSegments') rfl
  cases hName
  rw [hFollows.unique hFollows']

theorem Fresh.free (h : Fresh t home p place) : t.entries place = none := by
  obtain ⟨_, _, _, _, _, hVacant, rfl⟩ := h
  exact hVacant.free

theorem Fresh.directory_above (h : Fresh t home p (place ++ name :: rest)) : t.entries place = some .directory := by
  obtain ⟨_, last, directory, _, _, hVacant, hPlace⟩ := h
  have hAbove : place <+: directory := by
    have hBelow : place <+: directory ++ [last] := ⟨name :: rest, hPlace⟩
    obtain hSame | hPrefix := List.prefix_concat_iff.mp hBelow
    · have hLength := congrArg List.length hPlace
      rw [← hSame, List.length_append, List.length_cons] at hLength
      omega
    · exact hPrefix
  obtain ⟨tail, rfl⟩ := hAbove
  by_cases hTail : tail = []
  · rw [← hVacant.in_directory, hTail, List.append_nil]
  · exact directory_of_below hTail (by simp [hVacant.in_directory])

theorem Fresh.follows_made (h : Fresh t home p place) (hExtends : Extends t t') (hMade : t'.entries place = some .directory) :
    Follows t' (FileTree.start home p) (FileTree.segments p) place := by
  obtain ⟨front, name, directory, hSegments, hFollows, hVacant, rfl⟩ := h
  rw [hSegments]
  exact (hFollows.mono hExtends).append (hExtends _ _ hVacant.in_directory) (.enter hMade (.done _))

theorem not_prefix_of_free {source target rest : Place} (hFree : t.entries target = none) (hSource : t.entries source ≠ none)
    (hApart : ¬ source <+: target) : ¬ target <+: source ++ rest := by
  intro hBelow
  obtain hPrefix | hPrefix := List.prefix_or_prefix_of_prefix hBelow (List.prefix_append source rest)
  · obtain ⟨tail, rfl⟩ := hPrefix
    by_cases hTail : tail = []
    · exact hApart (by rw [hTail, List.append_nil])
    · rw [directory_of_below hTail hSource] at hFree
      cases hFree
  · exact hApart hPrefix

theorem ChildPath.fresh (h : ChildPath p child name) (hFollows : Follows t (FileTree.start home p) (FileTree.segments p) place)
    (hVacant : Vacant t place name) : Fresh t home child (place ++ [name]) := by
  refine ⟨FileTree.segments p, name, place, h.segments, ?_, hVacant, rfl⟩
  rw [h.start]
  exact hFollows

def Makes (t : FileTree β) (home : Place) (p : Text) (entry : Entry β) (t' : FileTree β) : Prop :=
  ∃ place, Fresh t home p place ∧ t'.entries = Function.update t.entries place (some entry)

theorem Makes.extends (h : Makes t home p entry t') : Extends t t' := by
  obtain ⟨made, hFresh, hEntries⟩ := h
  intro place old hOld
  have hOther : place ≠ made := by
    rintro rfl
    rw [hFresh.free] at hOld
    cases hOld
  rw [hEntries, Function.update_of_ne hOther, hOld]

theorem Makes.empty (h : Makes t home p entry t') (hFresh : Fresh t home p place) (name : Text) : t'.entries (place ++ [name]) = none := by
  obtain ⟨made, hMade, hEntries⟩ := h
  rw [hFresh.unique hMade, hEntries, Function.update_of_ne (by simp), none_from hMade.free]

def Removes (t : FileTree β) (home : Place) (p : Text) (isDirectory : Bool) (t' : FileTree β) : Prop :=
  ∃ place entry, Names t home p place ∧ t.entries place = some entry ∧ (isDirectory = true ↔ entry = .directory) ∧
    (∀ name, t.entries (place ++ [name]) = none) ∧ t'.entries = Function.update t.entries place none

def empty : FileTree β where
  entries := fun place => if place = [] then some .directory else none
  root := if_pos rfl
  parent := fun place name h => absurd (if_neg (by simp)) h
  plain := fun place name h => absurd (if_neg (by simp)) h

/-- The tree that holds one more entry. -/
def put (t : FileTree β) {directory : Place} {name : Text} (h : Vacant t directory name) (entry : Entry β) : FileTree β where
  entries := Function.update t.entries (directory ++ [name]) (some entry)
  root := by rw [Function.update_of_ne (by simp), t.root]
  parent := by
    intro place child hChild
    have hDirectory : t.entries place = some .directory := by
      by_cases hMade : place ++ [child] = directory ++ [name]
      · rw [(List.append_inj' hMade rfl).1]
        exact h.in_directory
      · rw [Function.update_of_ne hMade] at hChild
        exact t.parent place child hChild
    have hOther : place ≠ directory ++ [name] := by
      rintro rfl
      rw [h.free] at hDirectory
      cases hDirectory
    rw [Function.update_of_ne hOther, hDirectory]
  plain := by
    intro place child hChild
    by_cases hMade : place ++ [child] = directory ++ [name]
    · obtain ⟨-, hName⟩ := List.append_inj' hMade rfl
      cases hName
      exact h.plain
    · rw [Function.update_of_ne hMade] at hChild
      exact t.plain place child hChild

def Finite (t : FileTree β) : Prop := Set.Finite {place | t.entries place ≠ none}

theorem finite_empty : (empty : FileTree β).Finite := by
  refine (Set.finite_singleton []).subset fun place hPlace => ?_
  by_contra hOther
  exact hPlace (if_neg hOther)

theorem Finite.put (h : t.Finite) {directory : Place} (hVacant : Vacant t directory name) (entry : Entry β) : (t.put hVacant entry).Finite := by
  refine (Set.Finite.insert (directory ++ [name]) h).subset ?_
  intro place hPlace
  by_cases hMade : place = directory ++ [name]
  · exact .inl hMade
  · refine .inr fun hNone => hPlace ?_
    exact (Function.update_of_ne hMade _ _).trans hNone

theorem Fresh.made (h : t.Finite) (hFresh : Fresh t home p place) :
    ∃ t', Makes t home p .directory t' ∧ t'.entries place = some .directory ∧ t'.Finite := by
  obtain ⟨_, name, directory, _, _, hVacant, rfl⟩ := id hFresh
  exact ⟨t.put hVacant .directory, ⟨_, hFresh, rfl⟩, Function.update_self _ _ _, h.put hVacant .directory⟩

theorem Children.perm {names names' : List Text} (h : t.Children place names) (hPerm : names.Perm names') : t.Children place names' :=
  ⟨hPerm.nodup_iff.mp h.1, fun name => hPerm.mem_iff.symm.trans (h.2 name)⟩

theorem Finite.children (h : t.Finite) (place : Place) : ∃ names, t.Children place names := by
  have hNames : Set.Finite {name | t.entries (place ++ [name]) ≠ none} := by
    refine Set.Finite.preimage (f := fun name => place ++ [name]) ?_ h
    intro name _ other _ hSame
    exact List.singleton_inj.mp (List.append_cancel_left hSame)
  exact ⟨hNames.toFinset.toList, hNames.toFinset.nodup_toList, fun name => by simp⟩

theorem Finite.children_first (h : t.Finite) (hName : t.entries (place ++ [name]) ≠ none) : ∃ names, t.Children place (name :: names) := by
  obtain ⟨names, hChildren⟩ := h.children place
  exact ⟨names.erase name, hChildren.perm (List.perm_cons_erase ((hChildren.2 name).mpr hName))⟩

end FileTree

end Library
