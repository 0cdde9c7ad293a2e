import Cosmosh.MainProcess.LocalFileSystem

/-! # The gate in front of the temporary files

A path is accepted by where it leads, not by how it is spelled: what is accepted is the physical path of a regular file
below the root, and the physical path of such a file is accepted.
-/

namespace TemporaryFiles

open Library Library.PosixPath Library.FileTree

/-- A root as `createPrivateSftpTemporaryRoot` returns it. -/
structure TemporaryRoot where
  place : Place
  plain : ∀ n ∈ place, Plain n
  untrimmed : JsText.trim (render place false) = render place false

def TemporaryRoot.path (root : TemporaryRoot) : Text := render root.place false

variable {cwd : Place} {root : TemporaryRoot}

theorem prefix_of_isPathInsideDirectory {candidate parent : Text} (h : isPathInsideDirectory cwd candidate parent = true) :
    resolveFrom cwd parent <+: resolveFrom cwd candidate := by
  by_contra hElsewhere
  have hClimbs := relative_elsewhere hElsewhere
  simp only [isPathInsideDirectory, List.isPrefixOf_iff_prefix.mpr hClimbs, Bool.not_true, Bool.and_false, Bool.false_and, Bool.or_false,
    decide_eq_true_eq] at h
  rw [h] at hClimbs
  exact absurd (List.prefix_nil.mp hClimbs) (by decide)

variable {place : Place} {name : Text} {rest : List Text}

theorem isPathInsideDirectory_below (hPlain : ∀ n ∈ place ++ name :: rest, Plain n) (hName : ¬ "..".toList <+: name) :
    isPathInsideDirectory cwd (render (place ++ name :: rest) false) (render place false) = true := by
  have hPlace : ∀ n ∈ place, Plain n := fun n hn => hPlain n (List.mem_append_left _ hn)
  have hBelow : ∀ n ∈ name :: rest, Plain n := fun n hn => hPlain n (List.mem_append_right _ hn)
  have hRelative : relative cwd (render place false) (render (place ++ name :: rest) false) = joinSegments (name :: rest) := by
    rw [relative, resolveFrom_render hPlace, resolveFrom_render hPlain, wayBetween_below]
  have hNonempty : joinSegments (name :: rest) ≠ [] := by
    rw [ne_eq, joinSegments_eq_nil_iff hBelow]
    exact List.cons_ne_nil _ _
  have hNoDots : "..".toList.isPrefixOf (joinSegments (name :: rest)) = false := by
    rw [Bool.eq_false_iff, ne_eq, List.isPrefixOf_iff_prefix]
    exact fun hDots => hName (prefix_of_joinSegments (hBelow name List.mem_cons_self) hDots)
  have hRelativePath : isAbsolute (joinSegments (name :: rest)) = false := by
    have hJoined := isAbsolute_joinSegments (fun n hn => ⟨(hBelow n hn).nonempty, (hBelow n hn).no_separator⟩) []
    rw [List.append_nil] at hJoined
    exact Bool.eq_false_iff.mpr fun h => hNonempty (hJoined h)
  simp only [isPathInsideDirectory, hRelative, hNoDots, hRelativePath, Bool.not_false, Bool.and_true, List.length_pos_iff.mpr hNonempty, decide_true,
    Bool.or_true]

def IsPhysicalFile (t : LocalTree) (root : Place) (path : Text) : Prop :=
  ∃ place content, path = render place false ∧ t.entries place = some (.file content) ∧ root <+: place ∧
    (t.entries root = some .directory → place ≠ root)

theorem isPhysicalFile_of_answers {t : LocalTree} {path canonical : Text} {stats : Stats} {named : Place}
    {entry : Entry (List UInt8)} (hNames : Names t cwd path named) (hEntry : t.entries named = some entry)
    (hType : stats.type = fileType entry) (hFile : stats.isFile = true) (hLeads : LeadsTo t cwd path place)
    (hCanonical : canonical = render place false) (hInside : isPathInsideDirectory cwd canonical root.path = true) :
    IsPhysicalFile t root.place canonical := by
  obtain ⟨content, rfl⟩ := regular_of_isFile hType hFile
  obtain rfl := hLeads.of_names hNames hEntry nofun
  have hPlace := plain_of_some hEntry
  have hBelow := prefix_of_isPathInsideDirectory hInside
  rw [TemporaryRoot.path, hCanonical, resolveFrom_render root.plain, resolveFrom_render hPlace] at hBelow
  refine ⟨place, content, hCanonical, hEntry, hBelow, ?_⟩
  rintro hDirectory rfl
  rw [hEntry] at hDirectory
  cases hDirectory

theorem leads_physicalFile {α : Type} {s : LocalState} {path : Text} {refuse : LocalProgram α} {accept : Text → LocalProgram α}
    {after : Except LocalError α → LocalState → Prop} (hRefuse : Leads cwd after refuse s) (hError : ∀ e, after (.error e) s)
    (hAccept : ∀ canonical, IsPhysicalFile s.tree root.place canonical → Leads cwd after (accept canonical) s) :
    Leads cwd after (Program.bind (call (.lstat path)) fun stats => if !stats.isFile || stats.isSymbolicLink then refuse else
      Program.bind (call (.realpath path)) fun canonical => if !isPathInsideDirectory cwd canonical root.path then refuse else accept canonical) s := by
  refine (leads_lstat path).bind ?_ ?_
  · rintro stats s' ⟨rfl, hStats⟩
    obtain ⟨named, entry, hNames, hEntry, hType⟩ := hStats stats rfl
    split
    · exact hRefuse
    · rename_i hFile
      simp only [Bool.or_eq_true, Bool.not_eq_true', not_or, Bool.not_eq_false] at hFile
      refine (leads_realpath path).bind ?_ ?_
      · rintro canonical s' ⟨rfl, hCanonical⟩
        obtain ⟨place, hLeads, -, hRendered⟩ := hCanonical canonical rfl
        split
        · exact hRefuse
        · rename_i hInside
          rw [Bool.not_eq_true', Bool.not_eq_false] at hInside
          exact hAccept canonical (isPhysicalFile_of_answers hNames hEntry hType hFile.1 hLeads hRendered hInside)
      · rintro e s' ⟨rfl, -⟩
        exact hError e
  · rintro e s' ⟨rfl, -⟩
    exact hError e

theorem leads_resolveExistingSftpTemporaryFilePath (candidatePath : Option Text) (s : LocalState) :
    Leads cwd (fun outcome s' => s' = s ∧ ∀ path, outcome = .ok path → IsPhysicalFile s.tree root.place path)
      (resolveExistingSftpTemporaryFilePath cwd root.path candidatePath) s := by
  simp only [resolveExistingSftpTemporaryFilePath]
  split
  · exact ⟨rfl, nofun⟩
  · split
    · exact ⟨rfl, nofun⟩
    · refine leads_physicalFile ⟨rfl, nofun⟩ (fun e => ⟨rfl, nofun⟩) ?_
      intro canonical hPhysical
      refine ⟨rfl, ?_⟩
      rintro _ ⟨⟩
      exact hPhysical

theorem leads_resolveExistingUploadLocalPath (localPath : Text) (s : LocalState) :
    Leads cwd (fun outcome s' => s' = s ∧ ∀ path, outcome = .ok (some path) → IsPhysicalFile s.tree root.place path)
      (resolveExistingUploadLocalPath cwd root.path localPath) s := by
  simp only [resolveExistingUploadLocalPath]
  split
  · exact ⟨rfl, nofun⟩
  · refine leads_catchError (leads_physicalFile ⟨rfl, nofun⟩ (fun e => ⟨rfl, nofun⟩) ?_) ?_
    · intro canonical hPhysical
      refine ⟨rfl, ?_⟩
      rintro _ ⟨⟩
      exact hPhysical
    · rintro e s' ⟨rfl, -⟩
      exact ⟨rfl, nofun⟩

section

variable {α : Type} {s : LocalState}

/-- As `Leads`, where no call fails that could be answered. -/
abbrev LeadsWillingly (cwd : Place) (after : Except LocalError α → LocalState → Prop) (program : LocalProgram α) (s : LocalState) : Prop :=
  Program.Safe (Program.willing (localSystem cwd)) (fun _ _ => True) after program s

theorem leadsWillingly_catchError {after : Except LocalError α → LocalState → Prop} {program : LocalProgram α} {handler : LocalError → LocalProgram α}
    (h : LeadsWillingly cwd after program s) (hHandler : ∀ e s', after (.error e) s' → LeadsWillingly cwd after (handler e) s') :
    LeadsWillingly cwd after (program.catchError handler) s := h.catchError (fun _ _ hAfter => hAfter) hHandler

variable {content : List UInt8}

theorem leadsWillingly_physicalFile {path : Text} {refuse : LocalProgram α} {accept : Text → LocalProgram α}
    {after : Except LocalError α → LocalState → Prop} (hEntry : s.tree.entries place = some (.file content))
    (hPath : path = render place false) (hPlace : place = root.place ++ name :: rest) (hName : ¬ "..".toList <+: name)
    (hAccept : LeadsWillingly cwd after (accept (render place false)) s) :
    LeadsWillingly cwd after (Program.bind (call (.lstat path)) fun stats => if !stats.isFile || stats.isSymbolicLink then refuse else
      Program.bind (call (.realpath path)) fun canonical => if !isPathInsideDirectory cwd canonical root.path then refuse else accept canonical) s := by
  subst hPath
  have hNames := names_of_some cwd hEntry
  have hLeads := leadsTo_physical cwd hEntry nofun
  have hPlain := plain_of_some hEntry
  refine ⟨trivial, ?_⟩
  rintro (e | stats) ⟨t', staged⟩ ⟨hEffect, hWilling⟩
  · exact absurd ⟨rfl, ⟨place, _, hNames, hEntry, rfl⟩, rfl⟩ (hWilling ⟨e, rfl⟩ ⟨.regular, 0, 0, []⟩ s)
  · obtain ⟨rfl, ⟨named, entry, hNamed, hFound, hType⟩, rfl⟩ := hEffect
    obtain rfl := hNamed.unique hNames
    rw [hEntry] at hFound
    cases hFound
    have hRegular : (!stats.isFile || stats.isSymbolicLink) = false := by
      simp [Stats.isFile, Stats.isSymbolicLink, hType, fileType]
    simp only [Program.ofExcept, Program.bind, hRegular, Bool.false_eq_true, if_false]
    refine ⟨trivial, ?_⟩
    rintro (e | canonical) ⟨t', staged⟩ ⟨hEffect, hWilling⟩
    · exact absurd ⟨rfl, ⟨named, hLeads, by simp [hEntry], rfl⟩, rfl⟩ (hWilling ⟨e, rfl⟩ (render named false) s)
    · obtain ⟨rfl, ⟨found, hFound, -, rfl⟩, rfl⟩ := hEffect
      obtain rfl := hFound.unique hLeads
      have hInside : isPathInsideDirectory cwd (render found false) root.path = true := by
        rw [hPlace] at hPlain ⊢
        exact isPathInsideDirectory_below hPlain hName
      simp only [Program.ofExcept, Program.bind, hInside, Bool.not_true, Bool.false_eq_true, if_false]
      exact hAccept

theorem untrimmed_render {names : List Text} (hName : name ≠ []) (hLast : ¬ JsText.EndsInWhitespace name) :
    JsText.trim (render (names ++ [name]) false) = render (names ++ [name]) false := by
  rw [JsText.trim_eq_self_iff]
  refine ⟨?_, ?_⟩
  · rintro c ⟨⟩
    decide
  · rintro ⟨c, hc, hBlank⟩
    rw [render_concat_eq, List.getLast?_append_of_ne_nil _ (List.cons_ne_nil _ _)] at hc
    obtain ⟨first, rest, rfl⟩ := List.exists_cons_of_ne_nil hName
    exact hLast ⟨c, hc, hBlank⟩

theorem leadsWillingly_resolveExistingSftpTemporaryFilePath (hEntry : s.tree.entries place = some (.file content))
    (hPlace : place = root.place ++ name :: rest) (hName : ¬ "..".toList <+: name)
    (hTrim : JsText.trim (render place false) = render place false) : LeadsWillingly cwd (fun outcome _ => outcome = .ok (render place false))
      (resolveExistingSftpTemporaryFilePath cwd root.path (some (render place false))) s := by
  have hPlain := plain_of_some hEntry
  have hInside : isPathInsideDirectory cwd (render place false) root.path = true := by
    rw [hPlace] at hPlain ⊢
    exact isPathInsideDirectory_below hPlain hName
  have hPath : resolve cwd (JsText.trim (render place false)) = render place false := by rw [hTrim, resolve_render hPlain]
  have hNonempty : ¬ JsText.trim (render place false) = [] := by
    rw [hTrim]
    exact List.cons_ne_nil _ _
  simp only [resolveExistingSftpTemporaryFilePath, Option.getD_some]
  rw [if_neg hNonempty, if_neg (by simp [hPath, hInside])]
  exact leadsWillingly_physicalFile hEntry hPath hPlace hName rfl

theorem leadsWillingly_resolveExistingUploadLocalPath (hEntry : s.tree.entries place = some (.file content))
    (hPlace : place = root.place ++ name :: rest) (hName : ¬ "..".toList <+: name) :
    LeadsWillingly cwd (fun outcome _ => outcome = .ok (some (render place false)))
      (resolveExistingUploadLocalPath cwd root.path (render place false)) s := by
  have hPlain := plain_of_some hEntry
  have hInside : isPathInsideDirectory cwd (render place false) root.path = true := by
    rw [hPlace] at hPlain ⊢
    exact isPathInsideDirectory_below hPlain hName
  have hPath := resolve_render hPlain cwd
  simp only [resolveExistingUploadLocalPath]
  rw [if_neg (by simp [hPath, hInside])]
  refine leadsWillingly_catchError (leadsWillingly_physicalFile hEntry hPath hPlace hName rfl) ?_
  rintro e s' ⟨⟩

end

end TemporaryFiles
