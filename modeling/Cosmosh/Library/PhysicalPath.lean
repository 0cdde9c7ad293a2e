import Cosmosh.Library.FileTree

/-! # Physical paths

The path that spells out the place of an entry.
-/

namespace Library.FileTree

open PosixPath

variable {β : Type} {t : FileTree β} {home place : Place}

theorem plain_of_entry (h : t.entries place ≠ none) : ∀ n ∈ place, Plain n := by
  induction place using List.reverseRecOn with
  | nil => exact nofun
  | append_singleton place name ih =>
    have hParent := t.parent place name h
    exact all_plain_concat (ih (by simp [hParent])) (t.plain place name h)

theorem plain_of_some {entry : Entry β} (h : t.entries place = some entry) : ∀ n ∈ place, Plain n := plain_of_entry (by rw [h]; exact nofun)

theorem render_eq_spell (names : List Text) : render names false = spell true names false := by
  rw [render_untrailed, spell]
  split
  · rename_i hEmpty
    rw [hEmpty]
    rfl
  · simp

theorem segments_render (h : ∀ n ∈ place, Plain n) : segments (render place false) = place := by
  rw [render_eq_spell]
  exact segments_spell (fun n hn => ⟨(h n hn).nonempty, (h n hn).no_separator⟩) (fun n hn => not_or.mpr ⟨(h n hn).nonempty, (h n hn).not_dot⟩) _ _

variable {name : Text}

theorem finalName_render (h : ∀ n ∈ place ++ [name], Plain n) : finalName (render (place ++ [name]) false) = some name := by
  rw [render_eq_spell]
  exact finalName_spell (fun n hn => ⟨(h n hn).nonempty, (h n hn).no_separator⟩) (h name (by simp)) true

theorem start_render (home : Place) : start home (render place false) = [] := by
  rw [start, isAbsolute_render, if_pos rfl]

theorem follows_directories {front rest : Place} (h : t.entries (front ++ rest) = some .directory) : Follows t front rest (front ++ rest) := by
  induction rest generalizing front with
  | nil =>
    rw [List.append_nil]
    exact .done front
  | cons name rest ih =>
    rw [List.append_cons] at h ⊢
    have hBelow : t.entries (front ++ [name] ++ rest) ≠ none := by rw [h]; exact nofun
    have hEntered : t.entries (front ++ [name]) = some .directory := by
      by_cases hRest : rest = []
      · rwa [hRest, List.append_nil] at h
      · exact directory_of_below hRest hBelow
    exact .enter hEntered (ih h)

theorem follows_physical (h : t.entries place = some .directory) : Follows t [] place place := by
  have hFollows : Follows t [] place ([] ++ place) := follows_directories h
  exact hFollows

theorem names_in_directory (home : Place) (h : t.entries place = some .directory) (hName : Plain name) :
    Names t home (render (place ++ [name]) false) (place ++ [name]) := by
  have hPlain := all_plain_concat (plain_of_some h) hName
  refine .entry (finalName_render hPlain) ?_ h
  rw [segments_render hPlain, start_render, List.dropLast_concat]
  exact follows_physical h

theorem names_physical (home : Place) (h : t.entries place ≠ none) : Names t home (render place false) place := by
  obtain rfl | ⟨directory, name, rfl⟩ := List.eq_nil_or_concat' place
  · exact .reached (by decide) (.done []) t.root
  · exact names_in_directory home (t.parent directory name h) (t.plain directory name h)

theorem names_of_some (home : Place) {entry : Entry β} (h : t.entries place = some entry) : Names t home (render place false) place :=
  names_physical home (by rw [h]; exact nofun)

theorem fresh_physical (home : Place) (h : Vacant t place name) : Fresh t home (render (place ++ [name]) false) (place ++ [name]) := by
  have hPlace := plain_of_some h.in_directory
  refine ⟨place, name, place, segments_render (all_plain_concat hPlace h.plain), ?_, h, rfl⟩
  rw [start_render]
  exact follows_physical h.in_directory

variable {other : Place}

theorem place_of_names (hPlace : t.entries place = some .directory) (hName : Plain name)
    (h : Names t home (render (place ++ [name]) false) other) : other = place ++ [name] := h.unique (names_in_directory home hPlace hName)

theorem vacant_of_fresh (hPlace : t.entries place = some .directory) (hName : Plain name)
    (h : Fresh t home (render (place ++ [name]) false) other) : other = place ++ [name] ∧ Vacant t place name := by
  obtain ⟨front, last, directory, hSegments, hFollows, hVacant, rfl⟩ := h
  have hPlain := plain_of_some hPlace
  rw [segments_render (all_plain_concat hPlain hName)] at hSegments
  obtain ⟨rfl, hLast⟩ := List.append_inj' hSegments rfl
  cases hLast
  rw [start_render] at hFollows
  obtain rfl := hFollows.unique (follows_physical hPlace)
  exact ⟨rfl, hVacant⟩

def prune (t : FileTree β) (place : Place) (h : place ≠ []) : FileTree β where
  entries := fun other => if place <+: other then none else t.entries other
  root := by rw [if_neg (by rwa [List.prefix_nil]), t.root]
  parent := by
    intro other name hEntry
    have hElsewhere : ¬ place <+: other ++ [name] := by
      rintro hBelow
      rw [if_pos hBelow] at hEntry
      exact hEntry rfl
    rw [if_neg hElsewhere] at hEntry
    rw [if_neg fun hBelow => hElsewhere (hBelow.trans (List.prefix_append other [name])), t.parent other name hEntry]
  plain := by
    intro other name hEntry
    split at hEntry
    · exact absurd rfl hEntry
    · exact t.plain other name hEntry

end Library.FileTree
