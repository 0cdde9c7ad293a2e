import Cosmosh.MainProcess.TemporaryGate

/-! # The directory made for one temporary file

It is new, it is empty, and it lies in the root, which is made again where it was missing.
-/

namespace TemporaryFiles

open Library Library.PosixPath Library.FileTree

variable {cwd : Place} {root : TemporaryRoot} {s s' s'' : LocalState}

structure Grown (s s' : LocalState) : Prop where
  tree : Extends s.tree s'.tree
  staged : s'.stagedUploadPaths = s.stagedUploadPaths

theorem Grown.refl (s : LocalState) : Grown s s := ⟨.refl _, rfl⟩

theorem Grown.trans (h : Grown s s') (h' : Grown s' s'') : Grown s s'' := ⟨h.tree.trans h'.tree, h'.staged.trans h.staged⟩

theorem free_of_extends {t t' : LocalTree} (h : Extends t t') {place : Place} (hFree : t'.entries place = none) : t.entries place = none := by
  by_contra hEntry
  obtain ⟨entry, hEntry⟩ := Option.ne_none_iff_exists'.mp hEntry
  rw [h _ _ hEntry] at hFree
  cases hFree

theorem leads_validateSftpTemporaryRootPath (rootPath : Text) (s : LocalState) :
    Leads cwd (fun outcome s' => s' = s ∧ ∀ canonical, outcome = .ok canonical → ∃ place, canonical = render place false ∧
      Names s.tree cwd (resolve cwd (JsText.trim rootPath)) place ∧ s.tree.entries place = some .directory)
      (validateSftpTemporaryRootPath cwd rootPath) s := by
  simp only [validateSftpTemporaryRootPath]
  split
  · exact ⟨rfl, nofun⟩
  · refine (leads_lstat _).bind ?_ ?_
    · rintro stats s ⟨rfl, hStats⟩
      obtain ⟨named, entry, hNames, hEntry, hType⟩ := hStats stats rfl
      split
      · exact ⟨rfl, nofun⟩
      · rename_i hKind
        simp only [Bool.or_eq_true, Bool.not_eq_true', not_or, Bool.not_eq_false] at hKind
        obtain rfl := directory_of_isDirectory hType hKind.1
        have hMode : Leads cwd (fun _ s' => s' = s) (Program.ofExcept (assertPrivateDirectoryMode (resolve cwd (JsText.trim rootPath)) stats.mode)) s :=
          Program.safe_ofExcept.mpr rfl
        refine hMode.bind ?_ ?_
        · rintro _ s rfl
          refine (leads_realpath _).mono ?_
          rintro outcome _ ⟨rfl, hCanonical⟩
          refine ⟨rfl, ?_⟩
          rintro canonical rfl
          obtain ⟨place, hLeads, -, rfl⟩ := hCanonical canonical rfl
          obtain rfl := hLeads.of_names hNames hEntry nofun
          exact ⟨place, rfl, hNames, hEntry⟩
        · rintro e _ rfl
          exact ⟨rfl, nofun⟩
    · rintro e _ ⟨rfl, -⟩
      exact ⟨rfl, nofun⟩

abbrev GrownToDirectory (s : LocalState) (outcome : Except LocalError Text) (s' : LocalState) : Prop :=
  Grown s s' ∧ ∀ canonical, outcome = .ok canonical → ∃ place, canonical = render place false ∧ s'.tree.entries place = some .directory

theorem leads_validateSftpTemporaryRootPath_grown {s₀ : LocalState} (rootPath : Text) (hGrown : Grown s₀ s) :
    Leads cwd (GrownToDirectory s₀) (validateSftpTemporaryRootPath cwd rootPath) s := by
  refine (leads_validateSftpTemporaryRootPath rootPath s).mono ?_
  rintro outcome _ ⟨rfl, hCanonical⟩
  refine ⟨hGrown, fun canonical hOk => ?_⟩
  obtain ⟨place, hRendered, -, hDirectory⟩ := hCanonical canonical hOk
  exact ⟨place, hRendered, hDirectory⟩

theorem leads_restoreSftpTemporaryRoot (normalizedRootPath : Text) (s : LocalState) :
    Leads cwd (GrownToDirectory s) (restoreSftpTemporaryRoot cwd normalizedRootPath) s := by
  have hMake : Leads cwd (fun _ s' => Grown s s') (Program.catchError (do
        call (.mkdir normalizedRootPath 0o700)
        pure true)
      fun error => if isFileSystemErrorWithCode error "EEXIST" then pure false else throw error) s := by
    refine leads_catchError ?_ ?_
    · refine (leads_mkdir _ _).bind ?_ ?_
      · exact fun _ _ hAfter => ⟨hAfter.1, hAfter.2⟩
      · exact fun _ _ hAfter => ⟨hAfter.1, hAfter.2⟩
    · intro e s' hGrown
      split
      · exact hGrown
      · exact hGrown
  have hMode : ∀ (createdRoot : Bool) s', Grown s s' → Leads cwd (fun _ s'' => Grown s s'')
      (hardenCreatedRoot normalizedRootPath createdRoot) s' := by
    intro createdRoot s' hGrown
    rw [hardenCreatedRoot]
    split
    · refine (leads_chmod _ _).mono ?_
      rintro _ _ rfl
      exact hGrown
    · exact hGrown
  refine hMake.bind ?_ fun e s' hGrown => ⟨hGrown, nofun⟩
  intro createdRoot s' hGrown
  refine (hMode createdRoot s' hGrown).bind ?_ fun e s' hGrown => ⟨hGrown, nofun⟩
  intro _ s'' hGrown
  exact leads_validateSftpTemporaryRootPath_grown normalizedRootPath hGrown

theorem leads_ensurePrivateSftpTemporaryRoot (s : LocalState) :
    Leads cwd (fun outcome s' => Grown s s' ∧ ∀ canonical, outcome = .ok canonical → canonical = root.path ∧
      s'.tree.entries root.place = some .directory) (ensurePrivateSftpTemporaryRoot cwd root.path) s := by
  have hTrim : JsText.trim root.path = root.path := root.untrimmed
  have hPath : resolve cwd root.path = root.path := resolve_render root.plain cwd
  simp only [ensurePrivateSftpTemporaryRoot, hTrim, hPath]
  rw [if_neg (by simp [TemporaryRoot.path, render])]
  have hValidate : Leads cwd (fun outcome s' => Grown s s' ∧ ∀ path, outcome = .ok (some path) → ∃ place, path = render place false ∧
      s'.tree.entries place = some .directory) (Program.catchError (do
        let path ← validateSftpTemporaryRootPath cwd root.path
        pure (some path))
      fun error => if isFileSystemErrorWithCode error "ENOENT" then pure none else throw error) s := by
    refine leads_catchError ?_ ?_
    · refine (leads_validateSftpTemporaryRootPath_grown root.path (.refl s)).bind ?_ ?_
      · rintro path s' ⟨hGrown, hPath⟩
        refine ⟨hGrown, ?_⟩
        rintro _ ⟨⟩
        exact hPath path rfl
      · exact fun e s' hAfter => ⟨hAfter.1, by rintro _ ⟨⟩⟩
    · intro e s' hAfter
      split
      · exact ⟨hAfter.1, by rintro _ ⟨⟩⟩
      · exact ⟨hAfter.1, by rintro _ ⟨⟩⟩
  refine hValidate.bind ?_ fun e s' hAfter => ⟨hAfter.1, by rintro _ ⟨⟩⟩
  rintro validated s' ⟨hGrown, hValidated⟩
  have hRestore : Leads cwd (GrownToDirectory s) (restoreSftpTemporaryRoot cwd root.path) s' :=
    (leads_restoreSftpTemporaryRoot root.path s').mono fun _ _ hAfter => ⟨hGrown.trans hAfter.1, hAfter.2⟩
  have hCanonical : Leads cwd (GrownToDirectory s) (canonicalOrRestored cwd root.path validated) s' := by
    cases validated with
    | none => exact hRestore
    | some path =>
      rw [canonicalOrRestored]
      split
      · exact hRestore
      · refine ⟨hGrown, ?_⟩
        rintro _ ⟨⟩
        exact hValidated path rfl
  refine hCanonical.bind ?_ fun e s' hAfter => ⟨hAfter.1, by rintro _ ⟨⟩⟩
  rintro canonical s'' ⟨hGrown, hFound⟩
  split
  · exact ⟨hGrown, by rintro _ ⟨⟩⟩
  · rename_i hSame
    refine ⟨hGrown, ?_⟩
    rintro _ ⟨⟩
    obtain ⟨place, rfl, hDirectory⟩ := hFound canonical rfl
    have hPlain := plain_of_some hDirectory
    rw [not_not] at hSame
    have hPlace := eq_of_relative_eq_nil (by rwa [resolveFrom_render hPlain]) hSame
    rw [resolveFrom_render hPlain, TemporaryRoot.path, resolveFrom_render root.plain] at hPlace
    subst hPlace
    exact ⟨rfl, hDirectory⟩

theorem plain_drawn {first suffix : Text} (hFirst : '/' ∉ first) (hLong : 2 < first.length) (hSuffix : ∀ c ∈ suffix, c.isAlphanum = true) :
    Plain (first ++ suffix) := by
  have hLength : 2 < (first ++ suffix).length := by
    rw [List.length_append]
    omega
  refine ⟨?_, ?_, ?_, ?_⟩
  · intro h
    rw [h] at hLength
    exact absurd hLength (by decide)
  · intro h
    rw [h] at hLength
    exact absurd hLength (by decide)
  · intro h
    rw [h] at hLength
    exact absurd hLength (by decide)
  · rw [List.mem_append, not_or]
    exact ⟨hFirst, fun hSeparator => absurd (hSuffix _ hSeparator) (by decide)⟩

structure MadeDirectory (root : TemporaryRoot) (s s' : LocalState) (name path : Text) : Prop where
  plain : Plain name
  no_dots : ¬ "..".toList <+: name
  new : s.tree.entries (root.place ++ [name]) = none
  made : s'.tree.entries (root.place ++ [name]) = some .directory
  empty : ∀ child, s'.tree.entries (root.place ++ [name] ++ [child]) = none
  path : path = render (root.place ++ [name]) false

theorem MadeDirectory.from (h : Grown s s') {name path : Text} (hMade : MadeDirectory root s' s'' name path) : MadeDirectory root s s'' name path :=
  { hMade with new := free_of_extends h.tree hMade.new }

theorem leads_createPrivateDirectoryOnce (s : LocalState) :
    Leads cwd (fun outcome s' => Grown s s' ∧ ∀ path, outcome = .ok path → ∃ name, MadeDirectory root s s' name path)
      (createPrivateDirectoryOnce cwd root.path) s := by
  refine (leads_ensurePrivateSftpTemporaryRoot s).bind ?_ fun e s' hAfter => ⟨hAfter.1, by rintro _ ⟨⟩⟩
  rintro canonicalRootPath s₁ ⟨hGrown₁, hRoot⟩
  obtain ⟨rfl, hDirectory⟩ := hRoot canonicalRootPath rfl
  refine (leads_mkdtemp _).bind ?_ fun e s' hAfter => ⟨hGrown₁.trans ⟨hAfter.1, hAfter.2.1⟩, by rintro _ ⟨⟩⟩
  rintro temporaryDirectoryPath s₂ ⟨hTree, hStaged, hMkdtemp⟩
  have hGrown₂ := hGrown₁.trans ⟨hTree, hStaged⟩
  obtain ⟨hMakes, suffix, -, hSuffix, hPath⟩ := hMkdtemp temporaryDirectoryPath rfl
  have hName : Plain ("file-".toList ++ suffix) := plain_drawn (by decide) (by decide) hSuffix
  rw [TemporaryRoot.path, joinPath_plain root.plain ⟨by decide, by decide, by decide, by decide⟩, render_append] at hPath
  subst hPath
  obtain ⟨place, hFresh, hEntries⟩ := id hMakes
  obtain ⟨rfl, hVacant⟩ := vacant_of_fresh hDirectory hName hFresh
  have hMade : s₂.tree.entries (root.place ++ ["file-".toList ++ suffix]) = some .directory := by
    rw [hEntries, Function.update_self]
  have hNew : MadeDirectory root s s₂ ("file-".toList ++ suffix) (render (root.place ++ ["file-".toList ++ suffix]) false) :=
    ⟨hName, by simp, free_of_extends hGrown₁.tree hVacant.free, hMade, hMakes.empty hFresh, rfl⟩
  refine (leads_chmod _ _).bind ?_ ?_
  · rintro _ _ rfl
    refine (leads_realpath _).bind ?_ ?_
    · rintro canonical _ ⟨rfl, hCanonical⟩
      obtain ⟨found, hFound, -, rfl⟩ := hCanonical canonical rfl
      obtain rfl := hFound.unique (leadsTo_physical cwd hMade (by rintro _ ⟨⟩))
      split
      · exact ⟨hGrown₂, by rintro _ ⟨⟩⟩
      · refine ⟨hGrown₂, ?_⟩
        rintro _ ⟨⟩
        exact ⟨_, hNew⟩
    · rintro e _ ⟨rfl, -⟩
      exact ⟨hGrown₂, by rintro _ ⟨⟩⟩
  · rintro e _ rfl
    exact ⟨hGrown₂, by rintro _ ⟨⟩⟩

theorem leads_createPrivateSftpTemporaryDirectory (s : LocalState) :
    Leads cwd (fun outcome s' => Grown s s' ∧ ∀ path, outcome = .ok path → ∃ name, MadeDirectory root s s' name path)
      (createPrivateSftpTemporaryDirectory cwd root.path) s := by
  refine (leads_createPrivateDirectoryOnce s).catchError (fun _ _ hAfter => hAfter) ?_
  rintro e s' ⟨hGrown, -⟩
  split
  · refine (leads_createPrivateDirectoryOnce s').mono ?_
    rintro outcome s'' ⟨hGrown', hMade⟩
    refine ⟨hGrown.trans hGrown', fun path hOk => ?_⟩
    obtain ⟨name, hMade⟩ := hMade path hOk
    exact ⟨name, hMade.from hGrown⟩
  · exact ⟨hGrown, nofun⟩

end TemporaryFiles
