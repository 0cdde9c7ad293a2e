import Cosmosh.Library.FileTree

/-! # Moving one tree over another

A tree laid over another takes the place of whatever differs in kind, and leaves everything else of the other as it is.
-/

namespace Library.FileTree

variable {β : Type} {t t' t'' : FileTree β} {source target place : Place}

theorem not_prefix_of_apart (h : ¬ source <+: target) (h' : ¬ target <+: source) (rest rest' : Place) :
    ¬ source ++ rest <+: target ++ rest' := by
  intro hPrefix
  have hSource := (List.prefix_append source rest).trans hPrefix
  obtain hBelow | hBelow := List.prefix_or_prefix_of_prefix hSource (List.prefix_append target rest')
  · exact h hBelow
  · exact h' hBelow

theorem not_prefix_sibling {name other : Text} (h : name ≠ other) (place rest : Place) : ¬ place ++ [name] <+: place ++ other :: rest := by
  rw [List.prefix_append_right_inj, List.cons_prefix_cons]
  exact fun hSame => h hSame.1

theorem not_prefix_above (place : Place) (name : Text) : ¬ place ++ [name] <+: place := fun hPrefix => absurd hPrefix.length_le (by simp)

def SameBeside (places : List Place) (t t' : FileTree β) : Prop := ∀ place, (∀ p ∈ places, ¬ p <+: place) → t'.entries place = t.entries place

theorem SameBeside.refl (places : List Place) (t : FileTree β) : SameBeside places t t := fun _ _ => rfl

theorem SameBeside.trans {places : List Place} (h : SameBeside places t t') (h' : SameBeside places t' t'') : SameBeside places t t'' :=
  fun place hBeside => (h' place hBeside).trans (h place hBeside)

theorem SameBeside.weaken {places places' : List Place} (h : SameBeside places t t')
    (hBelow : ∀ p ∈ places, ∃ p' ∈ places', p' <+: p) : SameBeside places' t t' := by
  intro place hBeside
  refine h place fun p hMem hPrefix => ?_
  obtain ⟨p', hMem', hAbove⟩ := hBelow p hMem
  exact hBeside p' hMem' (hAbove.trans hPrefix)

theorem SameBeside.one {p : Place} (h : SameBeside [p] t t') (hBeside : ¬ p <+: place) : t'.entries place = t.entries place :=
  h place (List.forall_mem_singleton.mpr hBeside)

theorem SameBeside.two {p p' : Place} (h : SameBeside [p, p'] t t') (hBeside : ¬ p <+: place) (hBeside' : ¬ p' <+: place) :
    t'.entries place = t.entries place := h place (List.forall_mem_cons.mpr ⟨hBeside, List.forall_mem_singleton.mpr hBeside'⟩)

theorem Removes.sameBeside {home : Place} {p : Text} {isDirectory : Bool} (h : Removes t home p isDirectory t')
    (hNames : Names t home p place) : t'.entries place = none ∧ SameBeside [place] t t' := by
  obtain ⟨top, _, hTop, -, -, -, hEntries⟩ := h
  obtain rfl := hTop.unique hNames
  refine ⟨by rw [hEntries, Function.update_self], fun other hBeside => ?_⟩
  rw [hEntries, Function.update_of_ne]
  rintro rfl
  exact hBeside other List.mem_cons_self List.prefix_rfl

structure Relocates (t : FileTree β) (source target : Place) (t' : FileTree β) : Prop where
  apart : ¬ source <+: target
  gone : t'.entries source = none
  moved : ∀ rest, t'.entries (target ++ rest) = t.entries (source ++ rest)
  same : SameBeside [source, target] t t'

def Moves (t : FileTree β) (home : Place) (p p' : Text) (t' : FileTree β) : Prop :=
  ∃ source target, Names t home p source ∧ Names t home p' target ∧ t.entries source ≠ none ∧ Relocates t source target t'

theorem Moves.relocates {home : Place} {p p' : Text} (h : Moves t home p p' t') (hSource : Names t home p source)
    (hTarget : Names t home p' target) : Relocates t source target t' := by
  obtain ⟨_, _, hFrom, hTo, -, hMoved⟩ := h
  obtain rfl := hFrom.unique hSource
  obtain rfl := hTo.unique hTarget
  exact hMoved

section

variable {directory : Place} {name : Text} (h : Vacant t directory name) (entry : Entry β)

theorem put_entries : (t.put h entry).entries = Function.update t.entries (directory ++ [name]) (some entry) := rfl

theorem update_put : Function.update (t.put h entry).entries (directory ++ [name]) none = t.entries := by
  rw [put_entries, Function.update_idem, ← h.free, Function.update_eq_self]

theorem put_empty (other : Text) : (t.put h entry).entries (directory ++ [name] ++ [other]) = none := by
  rw [put_entries, Function.update_of_ne (by simp), none_from h.free]

theorem children_put {names : List Text} (hNames : t.Children directory names) : (t.put h entry).Children directory (name :: names) := by
  have hNew : name ∉ names := fun hOld => (hNames.2 name).mp hOld h.free
  refine ⟨List.nodup_cons.mpr ⟨hNew, hNames.1⟩, fun other => ?_⟩
  rw [List.mem_cons, hNames.2 other, put_entries]
  by_cases hOther : other = name
  · rw [hOther, Function.update_self]
    exact iff_of_true (.inl rfl) nofun
  · rw [Function.update_of_ne (by simpa using hOther)]
    exact or_iff_right hOther

theorem put_below (rest : Place) : (t.put h entry).entries (directory ++ [name] ++ rest) = if rest = [] then some entry else none := by
  split
  · subst rest
    rw [List.append_nil, put_entries, Function.update_self]
  · rename_i hRest
    rw [put_entries, Function.update_of_ne (by simpa using hRest), none_from h.free]

theorem relocates_put {directory' : Place} {other : Text} (h' : Vacant t directory' other)
    (hApart : ¬ directory ++ [name] <+: directory' ++ [other]) :
    Relocates (t.put h entry) (directory ++ [name]) (directory' ++ [other]) (t.put h' entry) where
  apart := hApart
  gone := by
    rw [put_entries, Function.update_of_ne, h.free]
    exact fun hSame => hApart (hSame ▸ List.prefix_rfl)
  moved rest := by rw [put_below, put_below]
  same place hBeside := by
    rw [put_entries, put_entries, Function.update_of_ne, Function.update_of_ne]
    · rintro rfl
      exact hBeside _ List.mem_cons_self List.prefix_rfl
    · rintro rfl
      exact hBeside _ (by simp) List.prefix_rfl

end

/-- Entries at or below `root` have each been moved to a place outside where nothing stood. -/
structure Carried (t : FileTree β) (root : Place) (moves : List (Place × Place)) (t' : FileTree β) : Prop where
  there : ∀ m ∈ moves, root <+: m.1 ∧ t.entries m.1 ≠ none
  fresh : ∀ m ∈ moves, ¬ root <+: m.2 ∧ t.entries m.2 = none
  distinct : (moves.map Prod.snd).Nodup
  moved : ∀ m ∈ moves, ∀ rest, t'.entries (m.2 ++ rest) = t.entries (m.1 ++ rest)
  kept : ∀ place, ¬ root <+: place → (∀ m ∈ moves, ¬ m.2 <+: place) → t'.entries place = t.entries place

def KeepsOutside (root : Place) (t t' : FileTree β) : Prop :=
  ∀ place, ¬ root <+: place → t.entries place ≠ none → t'.entries place = t.entries place

section

variable {root : Place} {moves : List (Place × Place)}

theorem Carried.nil (root : Place) (t : FileTree β) : Carried t root [] t :=
  ⟨List.forall_mem_nil _, List.forall_mem_nil _, List.nodup_nil, List.forall_mem_nil _, fun _ _ _ => rfl⟩

theorem Carried.keepsOutside (h : Carried t root moves t') : KeepsOutside root t t' := by
  intro place hOutside hThere
  refine h.kept place hOutside fun m hMem hPrefix => hThere ?_
  obtain ⟨rest, rfl⟩ := hPrefix
  exact none_from (h.fresh m hMem).2 rest

variable (h : Carried t root moves t') (hRoot : t.entries root ≠ none)

include h hRoot

theorem Carried.outside {m : Place × Place} (hMem : m ∈ moves) (rest : Place) : ¬ root <+: m.2 ++ rest := by
  intro hPrefix
  obtain hBelow | ⟨tail, hAbove⟩ := List.prefix_or_prefix_of_prefix hPrefix (List.prefix_append m.2 rest)
  · exact (h.fresh m hMem).1 hBelow
  · exact hRoot (hAbove ▸ none_from (h.fresh m hMem).2 tail)

theorem Carried.beside (hSame : SameBeside [root] t' t'') : Carried t root moves t'' where
  there := h.there
  fresh := h.fresh
  distinct := h.distinct
  moved m hMem rest := (hSame.one (h.outside hRoot hMem rest)).trans (h.moved m hMem rest)
  kept place hOutside hOther := (hSame.one hOutside).trans (h.kept place hOutside hOther)

theorem Carried.step (hSource : root <+: source ∧ t.entries source ≠ none)
    (hStaged : ∀ rest, t'.entries (source ++ rest) = t.entries (source ++ rest)) (hTarget : ¬ root <+: target)
    (hFree : t'.entries target = none) (hOther : ∀ m ∈ moves, ¬ m.2 <+: target) (hMoved : Relocates t' source target t'') :
    Carried t root (moves ++ [(source, target)]) t'' where
  there := List.forall_mem_append.mpr ⟨h.there, List.forall_mem_singleton.mpr hSource⟩
  fresh := by
    refine List.forall_mem_append.mpr ⟨h.fresh, List.forall_mem_singleton.mpr ⟨hTarget, ?_⟩⟩
    rw [← h.kept target hTarget hOther, hFree]
  distinct := by
    rw [List.map_append, List.nodup_append]
    refine ⟨h.distinct, List.nodup_singleton _, ?_⟩
    rintro _ hOld _ hNew rfl
    obtain ⟨m, hMem, hSame⟩ := List.mem_map.mp hOld
    exact hOther m hMem (hSame.trans (List.mem_singleton.mp hNew) ▸ List.prefix_rfl)
  moved := by
    refine List.forall_mem_append.mpr ⟨fun m hMem rest => ?_, List.forall_mem_singleton.mpr fun rest => ?_⟩
    · rw [← h.moved m hMem rest]
      refine hMoved.same.two (fun hPrefix => h.outside hRoot hMem rest (hSource.1.trans hPrefix)) fun hPrefix => ?_
      obtain ⟨tail, hAbove⟩ | hBelow := List.prefix_or_prefix_of_prefix hPrefix (List.prefix_append m.2 rest)
      · have hThere := h.moved m hMem []
        rw [List.append_nil, List.append_nil, ← hAbove, none_from hFree] at hThere
        exact (h.there m hMem).2 hThere.symm
      · exact hOther m hMem hBelow
    · rw [hMoved.moved, hStaged]
  kept place hOutside hNone := by
    have hNew := hNone (source, target) (by simp)
    rw [hMoved.same.two (fun hPrefix => hOutside (hSource.1.trans hPrefix)) hNew]
    exact h.kept place hOutside fun m hMem => hNone m (List.mem_append_left _ hMem)

end

def Replaces (t : FileTree β) (source target rest : Place) : Prop :=
  t.entries (source ++ rest) ≠ none ∧
    ¬ (t.entries (source ++ rest) = some .directory ∧ t.entries (target ++ rest) = some .directory)

theorem Replaces.top (hSource : t.entries source ≠ none) (h : ¬ (t.entries source = some .directory ∧ t.entries target = some .directory)) :
    Replaces t source target [] := by
  rw [Replaces, List.append_nil, List.append_nil]
  exact ⟨hSource, h⟩

structure Overlaid (t : FileTree β) (source target : Place) (t' : FileTree β) : Prop where
  gone : t'.entries source = none
  replaced : ∀ r rest, r <+: rest → Replaces t source target r → t'.entries (target ++ rest) = t.entries (source ++ rest)
  kept : ∀ rest, (∀ r, r <+: rest → ¬ Replaces t source target r) → t'.entries (target ++ rest) = t.entries (target ++ rest)

theorem overlaid_of_relocates (hReplaces : Replaces t source target []) (hApart : ¬ target <+: source)
    (hCleared : SameBeside [target] t t') (h : Relocates t' source target t'') : Overlaid t source target t'' := by
  refine ⟨h.gone, fun r rest _ _ => ?_, fun rest hNone => absurd hReplaces (hNone [] List.nil_prefix)⟩
  have hBeside : ¬ target <+: source ++ rest := by
    have hBelow := not_prefix_of_apart hApart h.apart [] rest
    rwa [List.append_nil] at hBelow
  rw [h.moved, hCleared.one hBeside]

theorem replaces_of_same (hSource : ∀ rest, t'.entries (source ++ rest) = t.entries (source ++ rest))
    (hTarget : ∀ rest, t'.entries (target ++ rest) = t.entries (target ++ rest)) (rest : Place) :
    Replaces t' source target rest ↔ Replaces t source target rest := by
  rw [Replaces, Replaces, hSource, hTarget]

theorem Overlaid.of_same (h : Overlaid t' source target t'') (hSource : ∀ rest, t'.entries (source ++ rest) = t.entries (source ++ rest))
    (hTarget : ∀ rest, t'.entries (target ++ rest) = t.entries (target ++ rest)) : Overlaid t source target t'' where
  gone := h.gone
  replaced r rest hPrefix hReplaces := by
    rw [h.replaced r rest hPrefix ((replaces_of_same hSource hTarget r).mpr hReplaces), hSource]
  kept rest hNone := by
    rw [h.kept rest fun r hPrefix => mt (replaces_of_same hSource hTarget r).mp (hNone r hPrefix), hTarget]

theorem Overlaid.to_same (h : Overlaid t source target t') (hSource : t''.entries source = t'.entries source)
    (hTarget : ∀ rest, t''.entries (target ++ rest) = t'.entries (target ++ rest)) : Overlaid t source target t'' where
  gone := hSource.trans h.gone
  replaced r rest hPrefix hReplaces := (hTarget rest).trans (h.replaced r rest hPrefix hReplaces)
  kept rest hNone := (hTarget rest).trans (h.kept rest hNone)

structure Merged (t : FileTree β) (source target : Place) (names : List Text) (t' : FileTree β) : Prop where
  each : ∀ name ∈ names, Overlaid t (source ++ [name]) (target ++ [name]) t'
  same : ∀ place, (∀ name ∈ names, ¬ source ++ [name] <+: place ∧ ¬ target ++ [name] <+: place) → t'.entries place = t.entries place

theorem Merged.nil (t : FileTree β) (source target : Place) : Merged t source target [] t := ⟨List.forall_mem_nil _, fun _ _ => rfl⟩

variable {names : List Text}

theorem Merged.beside (h : Merged t source target names t') : SameBeside [source, target] t t' := by
  intro place hBeside
  refine h.same place fun name _ => ⟨fun hPrefix => ?_, fun hPrefix => ?_⟩
  · exact hBeside source List.mem_cons_self ((List.prefix_append source [name]).trans hPrefix)
  · exact hBeside target (by simp) ((List.prefix_append target [name]).trans hPrefix)

section

variable (h : Merged t source target names t') (hApart : ¬ source <+: target) (hApart' : ¬ target <+: source)

include h hApart hApart'

theorem Merged.tops : t'.entries source = t.entries source ∧ t'.entries target = t.entries target := by
  refine ⟨h.same source fun name _ => ⟨fun hPrefix => ?_, fun hPrefix => ?_⟩, h.same target fun name _ => ⟨fun hPrefix => ?_, fun hPrefix => ?_⟩⟩
  · exact not_prefix_above source name hPrefix
  · exact hApart' ((List.prefix_append target [name]).trans hPrefix)
  · exact hApart ((List.prefix_append source [name]).trans hPrefix)
  · exact not_prefix_above target name hPrefix

variable {name : Text} (hName : name ∉ names) (rest : Place)

include hName

theorem Merged.same_source : t'.entries (source ++ name :: rest) = t.entries (source ++ name :: rest) := by
  refine h.same _ fun other hOther => ⟨?_, not_prefix_of_apart hApart' hApart [other] (name :: rest)⟩
  exact not_prefix_sibling (ne_of_mem_of_not_mem hOther hName) source rest

theorem Merged.same_target : t'.entries (target ++ name :: rest) = t.entries (target ++ name :: rest) := by
  refine h.same _ fun other hOther => ⟨not_prefix_of_apart hApart hApart' [other] (name :: rest), ?_⟩
  exact not_prefix_sibling (ne_of_mem_of_not_mem hOther hName) target rest

end

theorem Merged.step (h : Merged t source target names t') (hApart : ¬ source <+: target) (hApart' : ¬ target <+: source) {name : Text}
    (hName : name ∉ names) (hOverlaid : Overlaid t' (source ++ [name]) (target ++ [name]) t'')
    (hSame : SameBeside [source ++ [name], target ++ [name]] t' t'') : Merged t source target (names ++ [name]) t'' where
  each := by
    intro other hOther
    obtain hOld | hNew := List.mem_append.mp hOther
    · have hNe : name ≠ other := (ne_of_mem_of_not_mem hOld hName).symm
      refine (h.each other hOld).to_same (hSame.two ?_ ?_) fun rest => hSame.two ?_ ?_
      · exact not_prefix_sibling hNe source []
      · exact not_prefix_of_apart hApart' hApart [name] [other]
      · rw [List.append_assoc]
        exact not_prefix_of_apart hApart hApart' [name] ([other] ++ rest)
      · rw [List.append_assoc]
        exact not_prefix_sibling hNe target rest
    · obtain rfl := List.mem_singleton.mp hNew
      refine hOverlaid.of_same (fun rest => ?_) fun rest => ?_
      · rw [List.append_assoc]
        exact h.same_source hApart hApart' hName rest
      · rw [List.append_assoc]
        exact h.same_target hApart hApart' hName rest
  same := by
    intro place hBeside
    have hNew := hBeside name (by simp)
    rw [hSame.two hNew.1 hNew.2]
    exact h.same place fun other hOther => hBeside other (List.mem_append_left _ hOther)

theorem Merged.overlaid (h : Merged t source target names t') (hApart : ¬ source <+: target) (hApart' : ¬ target <+: source)
    (hNames : t.Children source names) (hSource : t.entries source = some .directory) (hTarget : t.entries target = some .directory)
    (hGone : t''.entries source = none) (hSame : SameBeside [source] t' t'') : Overlaid t source target t'' := by
  have hLater : ∀ rest, t''.entries (target ++ rest) = t'.entries (target ++ rest) := by
    intro rest
    refine hSame.one ?_
    have hBelow := not_prefix_of_apart hApart hApart' [] rest
    rwa [List.append_nil] at hBelow
  have hTop : ∀ rest, Replaces t source target [] → t''.entries (target ++ rest) = t.entries (source ++ rest) := by
    intro rest hReplaces
    rw [Replaces, List.append_nil, List.append_nil] at hReplaces
    exact absurd ⟨hSource, hTarget⟩ hReplaces.2
  have hBelow : ∀ name rest, Replaces t source target (name :: rest) ↔ Replaces t (source ++ [name]) (target ++ [name]) rest := by
    intro name rest
    rw [Replaces, Replaces, List.append_assoc, List.append_assoc, List.singleton_append]
  refine ⟨hGone, ?_, ?_⟩
  · intro r rest hPrefix hReplaces
    cases r with
    | nil => exact hTop rest hReplaces
    | cons name r =>
      obtain ⟨tail, rfl⟩ := hPrefix
      have hMem : name ∈ names := (hNames.2 name).mpr fun hNone => hReplaces.1 (by
        rw [List.append_cons]
        exact none_from hNone r)
      have hMoved := (h.each name hMem).replaced r (r ++ tail) (List.prefix_append r tail) ((hBelow name r).mp hReplaces)
      rw [List.append_assoc, List.append_assoc] at hMoved
      exact (hLater _).trans hMoved
  · intro rest hNone
    rw [hLater]
    cases rest with
    | nil =>
      rw [List.append_nil]
      exact (h.tops hApart hApart').2
    | cons name rest =>
      by_cases hMem : name ∈ names
      · have hKept := (h.each name hMem).kept rest fun r hPrefix hReplaces =>
          hNone (name :: r) (List.cons_prefix_cons.mpr ⟨rfl, hPrefix⟩) ((hBelow name r).mpr hReplaces)
        rwa [List.append_assoc] at hKept
      · exact h.same_target hApart hApart' hMem rest

end Library.FileTree
