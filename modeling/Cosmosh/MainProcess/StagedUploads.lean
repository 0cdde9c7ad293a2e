import Cosmosh.MainProcess.TemporaryDirectories
import Cosmosh.MainProcess.TemporaryNames

/-! # What staging adds and what a cleanup removes

A file is staged into a directory of its own, and when that fails the directory goes.
-/

namespace TemporaryFiles

open Library Library.PosixPath Library.FileTree

variable {cwd : Place} {root : TemporaryRoot} {s s' s₀ : LocalState}

def Removable (root : TemporaryRoot) (s : LocalState) (place : Place) (entry : Entry (List UInt8)) : Prop :=
  (entry ≠ .directory ∧ render place false ∈ s.stagedUploadPaths) ∨
    (entry = .directory ∧ root.place <+: place ∧ place ≠ root.place ∧ ∃ name, render (place ++ [name]) false ∈ s.stagedUploadPaths)

def OnlyStagedGone (root : TemporaryRoot) (s s' : LocalState) : Prop :=
  ∀ place entry, s.tree.entries place = some entry → s'.tree.entries place ≠ some entry → Removable root s place entry

def OnlyNewStaged (s s' : LocalState) : Prop :=
  ∀ path ∈ s'.stagedUploadPaths, path ∈ s.stagedUploadPaths ∨ ∃ place content, path = render place false ∧
    s.tree.entries place = none ∧ s'.tree.entries place = some (.file content)

theorem OnlyStagedGone.of_extends (h : Extends s.tree s'.tree) : OnlyStagedGone root s s' :=
  fun place entry hEntry hGone => absurd (h place entry hEntry) hGone

theorem OnlyNewStaged.of_eq (h : s'.stagedUploadPaths = s.stagedUploadPaths) : OnlyNewStaged s s' :=
  fun _ hPath => .inl (h ▸ hPath)

variable (path : Text)

section

variable {name dir child : Text}

theorem MadeDirectory.vacant (h : MadeDirectory root s₀ s name dir) (hChild : Plain child) : Vacant s.tree (root.place ++ [name]) child :=
  ⟨h.made, hChild, h.empty child⟩

theorem leads_copyFile {place : Place} (source : Text) (hVacant : Vacant s.tree place child) :
    Leads cwd (fun outcome s' => s'.stagedUploadPaths = s.stagedUploadPaths ∧ ∃ entry,
      s'.tree.entries = Function.update s.tree.entries (place ++ [child]) entry ∧ (outcome = .ok () → ∃ content, entry = some (.file content)))
      (call (.copyFile source (render (place ++ [child]) false))) s := by
  refine leads_call ?_ ?_
  · rintro _ t' _ ⟨_, written, content, _, _, hOpens, hEntries⟩
    obtain rfl := hOpens.vacant hVacant
    exact ⟨rfl, _, hEntries, fun _ => ⟨content, rfl⟩⟩
  · rintro e t' (rfl | ⟨written, entry, hOpens, -, hEntries⟩)
    · refine ⟨rfl, none, ?_, nofun⟩
      rw [← hVacant.free, Function.update_eq_self]
    · obtain rfl := hOpens.vacant hVacant
      exact ⟨rfl, entry, hEntries, nofun⟩

structure Copying (root : TemporaryRoot) (s₀ s : LocalState) (name : Text) : Prop where
  tree : Extends s₀.tree s.tree
  staged : s.stagedUploadPaths = s₀.stagedUploadPaths
  directory : s.tree.entries (root.place ++ [name]) = some .directory

theorem MadeDirectory.copying (h : MadeDirectory root s₀ s name dir) (hGrown : Grown s₀ s) {entry : Option (Entry (List UInt8))}
    (hEntries : s'.tree.entries = Function.update s.tree.entries (root.place ++ [name] ++ [child]) entry)
    (hStaged : s'.stagedUploadPaths = s.stagedUploadPaths) : Copying root s₀ s' name := by
  have hNew : s₀.tree.entries (root.place ++ [name] ++ [child]) = none := none_from h.new [child]
  refine ⟨?_, hStaged.trans hGrown.staged, ?_⟩
  · intro place old hOld
    have hOther : place ≠ root.place ++ [name] ++ [child] := by
      rintro rfl
      rw [hNew] at hOld
      cases hOld
    rw [hEntries, Function.update_of_ne hOther]
    exact hGrown.tree place old hOld
  · rw [hEntries, Function.update_of_ne (by simp), h.made]

theorem leads_add (s : LocalState) :
    Leads cwd (fun outcome s' => outcome = .ok () ∧ s'.tree = s.tree ∧ ∀ p ∈ s'.stagedUploadPaths, p ∈ s.stagedUploadPaths ∨ p = path) (add path) s := by
  refine Program.Safe.request (q := LocalRequest.add path) trivial ?_
  rintro (e | _) s' hEffect
  · exact hEffect.elim
  · obtain rfl := hEffect
    refine ⟨rfl, rfl, fun p hp => ?_⟩
    dsimp only at hp
    split at hp
    · exact .inl hp
    · exact (List.mem_append.mp hp).imp_right List.mem_singleton.mp

theorem Copying.leads_rm (h : Copying root s₀ s name) (hNew : s₀.tree.entries (root.place ++ [name]) = none) :
    Leads cwd (fun _ s' => Extends s₀.tree s'.tree ∧ s'.stagedUploadPaths = s₀.stagedUploadPaths)
      (call (.rm (render (root.place ++ [name]) false))) s := by
  have hNames := names_of_some cwd h.directory
  have hKept : ∀ {t' : LocalTree}, Prunes s.tree (root.place ++ [name]) t' → Extends s₀.tree t' := by
    intro t' hPrunes place entry hEntry
    have hElsewhere : ¬ root.place ++ [name] <+: place := by
      rintro ⟨rest, rfl⟩
      rw [none_from hNew] at hEntry
      cases hEntry
    rw [hPrunes.elsewhere place hElsewhere]
    exact h.tree place entry hEntry
  refine leads_call ?_ ?_
  · rintro _ t' _ (⟨rfl, -⟩ | ⟨place, hPlace, hPrunes, -⟩)
    · exact ⟨h.tree, h.staged⟩
    · obtain rfl := hPlace.unique hNames
      exact ⟨hKept hPrunes, h.staged⟩
  · rintro e t' (rfl | ⟨place, hPlace, hPrunes⟩)
    · exact ⟨h.tree, h.staged⟩
    · obtain rfl := hPlace.unique hNames
      exact ⟨hKept hPrunes, h.staged⟩

theorem leads_copyToTemporaryFile (sourcePath displayed : Text) (hMade : MadeDirectory root s₀ s name dir) (hGrown : Grown s₀ s) (hChild : Plain child) :
    Leads cwd (fun outcome s' => (∀ e, outcome = .error e → Copying root s₀ s' name) ∧
      ∀ file, outcome = .ok file → Extends s₀.tree s'.tree ∧ OnlyNewStaged s₀ s')
      (copyToTemporaryFile cwd sourcePath displayed (render (root.place ++ [name] ++ [child]) false)) s := by
  have hDirectory : ∀ n ∈ root.place ++ [name], Plain n := all_plain_concat root.plain hMade.plain
  have hNew : s₀.tree.entries (root.place ++ [name] ++ [child]) = none := none_from hMade.new [child]
  refine (leads_copyFile sourcePath (hMade.vacant hChild)).bind ?_ ?_
  · rintro _ s₁ ⟨hStaged, entry, hEntries, hCopied⟩
    obtain ⟨content, rfl⟩ := hCopied rfl
    have hCopying := hMade.copying hGrown hEntries hStaged
    have hFile : s₁.tree.entries (root.place ++ [name] ++ [child]) = some (.file content) := by rw [hEntries, Function.update_self]
    refine (leads_chmod _ _).bind ?_ ?_
    · rintro _ _ rfl
      refine (leads_stat _).bind ?_ ?_
      · rintro stagedStats _ rfl
        rw [resolve_render (all_plain_concat hDirectory hChild)]
        refine (leads_add _ _).bind ?_ ?_
        · rintro _ s₂ ⟨-, hTree, hAdded⟩
          refine ⟨nofun, fun file _ => ?_⟩
          rw [hTree]
          refine ⟨hCopying.tree, fun path hPath => ?_⟩
          obtain hOld | rfl := hAdded path hPath
          · exact .inl (hCopying.staged ▸ hOld)
          · exact .inr ⟨_, content, rfl, hNew, hTree ▸ hFile⟩
        · rintro e s₂ ⟨hOk, -⟩
          cases hOk
      · rintro e _ rfl
        exact ⟨fun _ _ => hCopying, nofun⟩
    · rintro e _ rfl
      exact ⟨fun _ _ => hCopying, nofun⟩
  · rintro e s₁ ⟨hStaged, entry, hEntries, -⟩
    exact ⟨fun _ _ => hMade.copying hGrown hEntries hStaged, nofun⟩

theorem leads_copyStagedFile (sourcePath displayed : Text) (hMade : MadeDirectory root s₀ s name dir) (hGrown : Grown s₀ s) (hChild : Plain child) :
    Leads cwd (fun _ s' => Extends s₀.tree s'.tree ∧ OnlyNewStaged s₀ s')
      (copyStagedFile cwd sourcePath displayed (render (root.place ++ [name] ++ [child]) false)) s := by
  have hDirectory : ∀ n ∈ root.place ++ [name], Plain n := all_plain_concat root.plain hMade.plain
  refine (leads_copyToTemporaryFile sourcePath displayed hMade hGrown hChild).catchError (fun file s' hAfter => hAfter.2 file rfl) ?_
  rintro e s₁ ⟨hCopying, -⟩
  have hRemoved : Leads cwd (fun _ s' => Extends s₀.tree s'.tree ∧ s'.stagedUploadPaths = s₀.stagedUploadPaths)
      (Program.catchError (call (.rm (dirname (render (root.place ++ [name] ++ [child]) false)))) fun _ => pure ()) s₁ := by
    rw [dirname_render hDirectory hChild]
    exact leads_catchError ((hCopying e rfl).leads_rm hMade.new) fun _ _ hAfter => hAfter
  refine hRemoved.bind ?_ ?_
  · exact fun _ s₂ hAfter => ⟨hAfter.1, .of_eq hAfter.2⟩
  · exact fun _ s₂ hAfter => ⟨hAfter.1, .of_eq hAfter.2⟩

theorem joinPath_sanitize {displayed : Text} (hMade : MadeDirectory root s₀ s name dir) (hDots : ¬ ComesDownToDots displayed) :
    joinPath dir (sanitizeSftpTemporaryFileName (some displayed)) =
      render (root.place ++ [name] ++ [sanitizeSftpTemporaryFileName (some displayed)]) false := by
  rw [hMade.path, joinPath_plain (all_plain_concat root.plain hMade.plain) (plain_sanitize hDots)]

theorem leads_stageSftpUploadLocalFile {sourcePath : Text} (hDots : ¬ ComesDownToDots (uploadName sourcePath)) (s : LocalState) :
    Leads cwd (fun _ s' => Extends s.tree s'.tree ∧ OnlyNewStaged s s') (stageSftpUploadLocalFile cwd root.path sourcePath) s := by
  have hSame : Extends s.tree s.tree ∧ OnlyNewStaged s s := ⟨.refl _, .of_eq rfl⟩
  have hStat : Leads cwd (fun _ s' => s' = s) (Program.catchError (call (.stat sourcePath)) fun _ =>
      throw (sftpUploadStagingRejectionError (uploadName sourcePath) .unreadable)) s :=
    (leads_stat sourcePath).catchError (fun _ _ hAfter => hAfter) fun _ _ hAfter => hAfter
  refine hStat.bind ?_ ?_
  · rintro sourceStats s rfl
    split
    · exact hSame
    · split
      · exact hSame
      · have hPath : Leads cwd (fun outcome s' => Grown s s' ∧ ∀ path, outcome = .ok path → ∃ name dir, MadeDirectory root s s' name dir ∧
            path = joinPath dir (sanitizeSftpTemporaryFileName (some (uploadName sourcePath))))
            (createSftpTemporaryFilePath cwd root.path (some (uploadName sourcePath))) s := by
          refine (leads_createPrivateSftpTemporaryDirectory s).bind ?_ fun e s' hAfter => ⟨hAfter.1, nofun⟩
          rintro dir s₁ ⟨hGrown, hMade⟩
          refine ⟨hGrown, ?_⟩
          rintro _ ⟨⟩
          obtain ⟨name, hMade⟩ := hMade dir rfl
          exact ⟨name, dir, hMade, rfl⟩
        refine hPath.bind ?_ fun e s₁ hAfter => ⟨hAfter.1.tree, .of_eq hAfter.1.staged⟩
        rintro localPath s₁ ⟨hGrown, hBuilt⟩
        obtain ⟨name, dir, hMade, rfl⟩ := hBuilt localPath rfl
        rw [joinPath_sanitize hMade hDots]
        exact leads_copyStagedFile sourcePath _ hMade hGrown (plain_sanitize hDots)
  · rintro e _ rfl
    exact hSame

end

structure Cleaning (root : TemporaryRoot) (s₀ s : LocalState) : Prop where
  kept : Extends s.tree s₀.tree
  staged : ∀ path ∈ s.stagedUploadPaths, path ∈ s₀.stagedUploadPaths
  gone : OnlyStagedGone root s₀ s

theorem Cleaning.refl (root : TemporaryRoot) (s : LocalState) : Cleaning root s s := ⟨.refl _, fun _ h => h, .of_extends (.refl _)⟩

theorem Cleaning.remove (h : Cleaning root s₀ s) {t' : LocalTree} {place : Place} {entry : Entry (List UInt8)} (hEntry : s.tree.entries place = some entry)
    (hRemovable : Removable root s₀ place entry) (hEntries : t'.entries = Function.update s.tree.entries place none) :
    Cleaning root s₀ ⟨t', s.stagedUploadPaths⟩ where
  kept := by
    intro other kept hKept
    rw [hEntries] at hKept
    have hOther : other ≠ place := by
      rintro rfl
      rw [Function.update_self] at hKept
      cases hKept
    rw [Function.update_of_ne hOther] at hKept
    exact h.kept other kept hKept
  staged := h.staged
  gone := by
    intro other old hOld hGone
    by_cases hOther : other = place
    · subst hOther
      rw [h.kept other entry hEntry] at hOld
      cases hOld
      exact hRemovable
    · refine h.gone other old hOld fun hThere => hGone ?_
      rw [hEntries, Function.update_of_ne hOther, hThere]

abbrev Steadily (cwd : Place) (root : TemporaryRoot) (s₀ : LocalState) {α : Type} (fact : α → Prop) (program : LocalProgram α) : Prop :=
  Program.Steady (localSystem cwd) (Cleaning root s₀) fact program

theorem steadily_call {q : FileRequest} {fact : q.Answer → Prop}
    (hOk : ∀ s, Cleaning root s₀ s → ∀ answer t', Answers s.tree cwd q answer → Changes s.tree cwd q answer t' →
      Cleaning root s₀ ⟨t', s.stagedUploadPaths⟩ ∧ fact answer)
    (hError : ∀ t t', ¬ Interrupts t cwd q t') : Steadily cwd root s₀ fact (call q) := by
  refine Program.Steady.request (q := LocalRequest.files q) ?_
  rintro s hCleaning (e | answer) ⟨t', staged⟩ hEffect
  · obtain ⟨rfl, rfl | hBroken⟩ := hEffect
    · exact ⟨hCleaning, nofun⟩
    · exact absurd hBroken (hError _ _)
  · obtain ⟨rfl, hAnswer, hChanges⟩ := hEffect
    obtain ⟨hKept, hFact⟩ := hOk s hCleaning answer t' hAnswer hChanges
    refine ⟨hKept, ?_⟩
    rintro _ ⟨⟩
    exact hFact

theorem steadily_lstat :
    Steadily cwd root s₀ (fun stats => ∃ place entry, Names s₀.tree cwd path place ∧ s₀.tree.entries place = some entry ∧ stats.type = fileType entry)
      (call (.lstat path)) := by
  refine steadily_call ?_ fun _ _ => id
  rintro s hCleaning stats _ ⟨place, entry, hNames, hEntry, hType⟩ rfl
  exact ⟨hCleaning, place, entry, hNames.mono hCleaning.kept, hCleaning.kept _ _ hEntry, hType⟩

theorem steadily_realpath :
    Steadily cwd root s₀ (fun canonical => ∃ place, LeadsTo s₀.tree cwd path place ∧ canonical = render place false) (call (.realpath path)) := by
  refine steadily_call ?_ fun _ _ => id
  rintro s hCleaning canonical _ ⟨place, hLeads, -, hRendered⟩ rfl
  exact ⟨hCleaning, place, ⟨hLeads.1.mono hCleaning.kept, fun hNone => hCleaning.kept _ _ (hLeads.2 hNone)⟩, hRendered⟩

theorem steadily_throw {α : Type} {fact : α → Prop} (e : LocalError) : Steadily cwd root s₀ fact (throw e) := trivial

theorem steadily_resolveExistingSftpTemporaryFilePath (candidatePath : Option Text) :
    Steadily cwd root s₀ (IsPhysicalFile s₀.tree root.place) (resolveExistingSftpTemporaryFilePath cwd root.path candidatePath) := by
  simp only [resolveExistingSftpTemporaryFilePath]
  split
  · exact steadily_throw _
  · split
    · exact steadily_throw _
    · refine (steadily_lstat _).bind ?_
      rintro stats ⟨named, entry, hNames, hEntry, hType⟩
      split
      · exact steadily_throw _
      · rename_i hFile
        simp only [Bool.or_eq_true, Bool.not_eq_true', not_or, Bool.not_eq_false] at hFile
        refine (steadily_realpath _).bind ?_
        rintro canonical ⟨place, hLeads, hRendered⟩
        split
        · exact steadily_throw _
        · rename_i hInside
          rw [Bool.not_eq_true', Bool.not_eq_false] at hInside
          exact isPhysicalFile_of_answers hNames hEntry hType hFile.1 hLeads hRendered hInside

theorem steadily_has : Steadily cwd root s₀ (fun isStaged => isStaged = true → path ∈ s₀.stagedUploadPaths) (has path) := by
  refine Program.Steady.request (q := LocalRequest.has path) ?_
  rintro s hCleaning (e | isStaged) s' hEffect
  · exact hEffect.elim
  · obtain ⟨hKnown, rfl⟩ := hEffect
    refine ⟨hCleaning, ?_⟩
    rintro _ ⟨⟩ hStaged
    rw [hKnown, decide_eq_true_eq] at hStaged
    exact hCleaning.staged path hStaged

theorem steadily_delete : Steadily cwd root s₀ (fun _ => True) (delete path) := by
  refine Program.Steady.request (q := LocalRequest.delete path) ?_
  rintro s hCleaning (e | _) s' hEffect
  · exact hEffect.elim
  · obtain rfl := hEffect
    exact ⟨⟨hCleaning.kept, fun p hp => hCleaning.staged p (List.mem_filter.mp hp).1, hCleaning.gone⟩, fun _ _ => trivial⟩

theorem steadily_unlink {path : Text} (hFile : IsPhysicalFile s₀.tree root.place path) (hStaged : path ∈ s₀.stagedUploadPaths) :
    Steadily cwd root s₀ (fun _ => True) (call (.unlink path)) := by
  refine steadily_call ?_ fun _ _ => id
  rintro s hCleaning _ t' - ⟨removed, entry, hNames, hEntry, hKind, -, hEntries⟩
  obtain ⟨place, content, rfl, hThere, -, -⟩ := hFile
  obtain rfl := (hNames.mono hCleaning.kept).unique (names_of_some cwd hThere)
  refine ⟨hCleaning.remove hEntry (.inl ⟨?_, hStaged⟩) hEntries, trivial⟩
  exact fun hDirectory => absurd (hKind.mpr hDirectory) (by decide)

theorem steadily_rmdir {directory : Place} {name : Text} (hThere : s₀.tree.entries directory = some .directory) (hInside : root.place <+: directory)
    (hBelow : directory ≠ root.place) (hStaged : render (directory ++ [name]) false ∈ s₀.stagedUploadPaths) :
    Steadily cwd root s₀ (fun _ => True) (call (.rmdir (render directory false))) := by
  refine steadily_call ?_ fun _ _ => id
  rintro s hCleaning _ t' - ⟨removed, entry, hNames, hEntry, hKind, -, hEntries⟩
  obtain rfl := (hNames.mono hCleaning.kept).unique (names_of_some cwd hThere)
  exact ⟨hCleaning.remove hEntry (.inr ⟨hKind.mp rfl, hInside, hBelow, name, hStaged⟩) hEntries, trivial⟩

theorem steadily_cleanupStagedSftpUploadFile (localPath : Text) :
    Steadily cwd root s₀ (fun _ => True) (cleanupStagedSftpUploadFile cwd root.path localPath) := by
  have hDone : ∀ u : Unit, Steadily cwd root s₀ (fun _ => True) (pure u) := fun _ => trivial
  refine Program.Steady.catchError ?_ fun _ => hDone ()
  refine (steadily_resolveExistingSftpTemporaryFilePath _).bind fun path hFile => ?_
  refine (steadily_has path).bind fun isStaged hStaged => ?_
  split
  · exact hDone ()
  · rename_i hKnown
    rw [Bool.not_eq_true', Bool.not_eq_false] at hKnown
    refine (steadily_unlink hFile (hStaged hKnown)).bind fun _ _ => ?_
    refine (steadily_delete path).bind fun _ _ => ?_
    have hRoot : resolve cwd root.path = root.path := resolve_render root.plain cwd
    rw [hRoot]
    dsimp only
    split
    · rename_i hParent
      obtain ⟨place, content, rfl, hThere, -, -⟩ := id hFile
      obtain rfl | ⟨directory, name, rfl⟩ := List.eq_nil_or_concat' place
      · rw [s₀.tree.root] at hThere
        cases hThere
      · have hDirectory := s₀.tree.parent directory name (by simp [hThere])
        have hPlain := plain_of_some hDirectory
        rw [dirname_render hPlain (s₀.tree.plain directory name (by simp [hThere]))] at hParent ⊢
        have hInside := prefix_of_isPathInsideDirectory hParent.2
        rw [TemporaryRoot.path, resolveFrom_render root.plain, resolveFrom_render hPlain] at hInside
        refine Program.Steady.catchError (steadily_rmdir hDirectory hInside ?_ (hStaged hKnown)) fun _ => hDone ()
        rintro rfl
        exact hParent.1 rfl
    · exact hDone ()

theorem cleaned_of_pool (localPaths : List Text) {pool : List (LocalProgram Unit)}
    (hSteps : Relation.ReflTransGen (Program.PoolStep (localSystem cwd)) (cleanupStagedSftpUploadFiles cwd root.path localPaths, s) (pool, s')) :
    OnlyStagedGone root s s' := by
  have hPrograms : ∀ p ∈ cleanupStagedSftpUploadFiles cwd root.path localPaths, Steadily cwd root s (fun _ => True) p := by
    intro p hp
    obtain ⟨localPath, -, rfl⟩ := List.mem_map.mp hp
    exact steadily_cleanupStagedSftpUploadFile localPath
  exact (Program.steady_pool hSteps hPrograms (.refl root s)).1.gone

end TemporaryFiles
