import Cosmosh.Sftp.ArchiveTree

/-! # Committing an extraction beside what is there

With keep-both every staged entry is moved to a place where nothing stands.
-/

namespace Sftp.Archive

open Library Library.PosixPath Library.FileTree

section

variable {parent name : Text} (hParent : isAbsolute parent = true) (hName : Plain name)

include hParent hName

theorem join_plain : join parent name = render (location parent ++ [name]) false := by
  have hLocation := location_join_plain hParent hName
  rw [join_eq (ne_nil_of_absolute hParent) hName.nonempty] at hLocation ⊢
  have hAbsolute := isAbsolute_append hParent ('/' :: name)
  rw [location_normalize hAbsolute] at hLocation
  rw [normalize_of_absolute hAbsolute, hLocation, hasTrailingSeparator_plain parent hName]

theorem numberedSibling_join (attempt : Nat) : numberedSibling (join parent name) attempt = join parent (name ++ numberSuffix attempt) := by
  have hNumbered := plain_numbered hName.no_separator attempt
  have hSuffix : name ++ " (".toList ++ (toString attempt).toList ++ ")".toList = name ++ numberSuffix attempt := by simp [numberSuffix]
  rw [numberedSibling, join_plain hParent hName, dirname_render (location_plain parent) hName, basename_render hName, hSuffix,
    join_plain (isAbsolute_render _ _) hNumbered, location_render (location_plain parent), ← join_plain hParent hNumbered]

end

structure CommitPaths (t : RemoteTree) (home : Place) (stagingPath targetDirectory : Text) (staging target : Place) : Prop where
  absolute : isAbsolute targetDirectory = true
  normal_target : normalize targetDirectory = targetDirectory
  normal_staging : normalize stagingPath = stagingPath
  apart : ¬ staging <+: target
  staged : t.entries staging = some .directory
  there : t.entries target = some .directory
  names_staging : ∀ t', KeepsOutside staging t t' → Names t' home stagingPath staging
  names_target : ∀ t', KeepsOutside staging t t' → Names t' home targetDirectory target

structure Interrupted (t : RemoteTree) (staging : Place) (t' : RemoteTree) : Prop where
  kept : KeepsOutside staging t t'
  whole : ∀ name, t.entries (staging ++ [name]) ≠ none → ∃ place, (place = staging ++ [name] ∨ ¬ staging <+: place ∧ t.entries place = none) ∧
    ∀ rest, t'.entries (place ++ rest) = t.entries (staging ++ [name] ++ rest)

structure KeptBoth (t : RemoteTree) (home staging : Place) (sources : List Place) (paths : List Text) (t' : RemoteTree) : Prop where
  kept : KeepsOutside staging t t'
  gone : t'.entries staging = none
  nodup : paths.Nodup
  moved : ∃ moves, moves.map Prod.fst = sources ∧ List.Forall₂ (fun path m => Names t home path m.2) paths moves ∧ Carried t staging moves t'

section

variable {t u u' : RemoteTree} {home staging target : Place} {stagingPath targetDirectory path : Text} {moves : List (Place × Place)}

theorem nodup_of_names {paths : List Text} (h : List.Forall₂ (fun path m => Names t home path m.2) paths moves) (hDistinct : (moves.map Prod.snd).Nodup) :
    paths.Nodup := by
  induction h with
  | nil => exact List.nodup_nil
  | @cons path m paths moves hNames hRest ih =>
    rw [List.map_cons, List.nodup_cons] at hDistinct
    refine List.nodup_cons.mpr ⟨fun hMem => hDistinct.1 ?_, ih hDistinct.2⟩
    obtain ⟨m', hMem', hNames'⟩ := Program.forall₂_exists_left hRest.flip path hMem
    exact hNames.unique hNames' ▸ List.mem_map_of_mem hMem'

theorem interrupted_of_carried (h : Carried t staging moves u) (hRoot : t.entries staging ≠ none)
    (hLeft : ∀ name, t.entries (staging ++ [name]) ≠ none →
      (∃ m ∈ moves, ∃ rest, m.1 ++ rest = staging ++ [name]) ∨ ∀ rest, u.entries (staging ++ [name] ++ rest) = t.entries (staging ++ [name] ++ rest)) :
    Interrupted t staging u := by
  refine ⟨h.keepsOutside, fun name hName => ?_⟩
  obtain ⟨m, hMem, tail, hTail⟩ | hStaged := hLeft name hName
  · refine ⟨m.2 ++ tail, .inr ⟨h.outside hRoot hMem tail, none_from (h.fresh m hMem).2 tail⟩, fun rest => ?_⟩
    rw [List.append_assoc, h.moved m hMem, ← List.append_assoc, hTail]
  · exact ⟨staging ++ [name], .inl rfl, hStaged⟩

theorem turns_findAvailablePath (decision : ArchiveConflictResolution) {error : ArchiveError → RemoteTree → Prop} (desiredPath : Text)
    (hError : ∀ e, error e u) : Turns home decision (fun path t' => t' = u ∧ (∀ place, Names u home path place → u.entries place = none) ∧
      (path = desiredPath ∨ ∃ attempt, path = numberedSibling desiredPath attempt)) error (findAvailablePath desiredPath) u := by
  have hFirst : ∀ attempts, Turns home decision (fun path t' => t' = u ∧ (∀ place, Names u home path place → u.entries place = none) ∧
      ∃ attempt, path = numberedSibling desiredPath attempt) error (firstAvailable desiredPath attempts) u := by
    intro attempts
    induction attempts with
    | nil => exact .fail (hError _)
    | cons attempt attempts ih =>
      refine Program.Yields.bind (turns_pathExists _ hError) ?_
      rintro isThere u ⟨rfl, hFree⟩
      split
      · exact ih
      · rename_i hNone
        exact .done ⟨rfl, (if_neg hNone).mp hFree, attempt, rfl⟩
  refine Program.Yields.bind (turns_pathExists _ hError) ?_
  rintro isThere u ⟨rfl, hFree⟩
  split
  · exact (hFirst _).mono (fun _ _ hPath => ⟨hPath.1, hPath.2.1, .inr hPath.2.2⟩) fun _ _ => id
  · rename_i hNone
    exact .done ⟨rfl, (if_neg hNone).mp hFree, .inl rfl⟩

variable (h : CommitPaths t home stagingPath targetDirectory staging target)

include h

theorem CommitPaths.untouched : Interrupted t staging t :=
  interrupted_of_carried (.nil staging t) (by simp [h.staged]) fun _ _ => .inr fun _ => rfl

theorem turns_moveStaging (hFree : ∀ place, Names t home path place → t.entries place = none) :
    Turns home .keepBoth (fun paths t' => KeptBoth t home staging [staging] paths t') (fun _ t' => Interrupted t staging t')
      (moveStaging stagingPath path) t := by
  have hRoot : t.entries staging ≠ none := by simp [h.staged]
  have hMoves : ∀ u, Moves t home stagingPath path u → KeptBoth t home staging [staging] [path] u ∧ Interrupted t staging u := by
    rintro u ⟨source, place, hSource, hPlace, -, hMoved⟩
    obtain rfl := hSource.unique (h.names_staging t fun _ _ _ => rfl)
    have hCarried := (Carried.nil source t).step hRoot ⟨List.prefix_rfl, hRoot⟩ (fun _ => rfl) hMoved.apart (hFree place hPlace)
      (List.forall_mem_nil _) hMoved
    refine ⟨⟨hCarried.keepsOutside, hMoved.gone, List.nodup_singleton path, _, rfl, .cons hPlace .nil, hCarried⟩, ?_⟩
    exact interrupted_of_carried hCarried hRoot fun name _ => .inl ⟨(source, place), by simp, [name], rfl⟩
  refine turns_active (fun _ => h.untouched) (Program.Yields.bind (turns_change ?_) ?_)
  · rintro e u (rfl | hMoved)
    · exact h.untouched
    · exact (hMoves u hMoved).2
  · intro _ u hMoved
    obtain ⟨hKept, hInterrupted⟩ := hMoves u hMoved
    refine Program.Yields.bind (turns_ask (fun _ => id) fun _ => hInterrupted) ?_
    rintro _ _ ⟨rfl, -⟩
    exact .done hKept

structure Moving (t : RemoteTree) (staging target : Place) (targetDirectory : Text) (resolution : ArchiveConflictResolution)
    (done : List SftpDirectoryEntry) (paths : List Text) (moves : List (Place × Place)) (u : RemoteTree) : Prop where
  carried : Carried t staging moves u
  sources : moves.map Prod.fst = done.map fun entry => staging ++ [entry.filename]
  named : List.Forall₂ (fun path m => ∃ name, m.2 = target ++ [name] ∧ ChildPath targetDirectory path name ∧
    (resolution = .overwrite → m.1 = staging ++ [name])) paths moves
  left : ∀ place, staging <+: place → (∀ entry ∈ done, ¬ staging ++ [entry.filename] <+: place) → u.entries place = t.entries place

omit h in
theorem Moving.staging_same {resolution : ArchiveConflictResolution} {done : List SftpDirectoryEntry} {paths : List Text}
    (hMoving : Moving t staging target targetDirectory resolution done paths moves u) : u.entries staging = t.entries staging :=
  hMoving.left staging List.prefix_rfl fun entry _ => not_prefix_above staging entry.filename

variable {resolution : ArchiveConflictResolution} {done rest : List SftpDirectoryEntry} {x : SftpDirectoryEntry} {paths : List Text}
  (hMoving : Moving t staging target targetDirectory resolution done paths moves u)

include hMoving

theorem Moving.interrupted : Interrupted t staging u := by
  refine interrupted_of_carried hMoving.carried (by simp [h.staged]) fun name _ => ?_
  by_cases hDone : ∃ entry ∈ done, entry.filename = name
  · obtain ⟨entry, hMem, rfl⟩ := hDone
    have hSource : staging ++ [entry.filename] ∈ moves.map Prod.fst := hMoving.sources ▸ List.mem_map_of_mem hMem
    obtain ⟨m, hMem', hSame⟩ := List.mem_map.mp hSource
    exact .inl ⟨m, hMem', [], by rw [List.append_nil, hSame]⟩
  · refine .inr fun rest => hMoving.left _ (by simp) fun entry hMem hPrefix => ?_
    rw [List.append_assoc] at hPrefix
    exact FileTree.not_prefix_sibling (fun hSame => hDone ⟨entry, hMem, hSame⟩) staging rest hPrefix

theorem Moving.step (hNew : x.filename ∉ done.map (·.filename)) (hThere : t.entries (staging ++ [x.filename]) ≠ none) {name : Text}
    (hPath : ChildPath targetDirectory path name) (hName : resolution = .overwrite → x.filename = name) (hFree : u.entries (target ++ [name]) = none)
    (hMoved : Relocates u (staging ++ [x.filename]) (target ++ [name]) u') :
    Moving t staging target targetDirectory resolution (done ++ [x]) (paths ++ [path]) (moves ++ [(staging ++ [x.filename], target ++ [name])]) u' := by
  have hRoot : u.entries staging ≠ none := by simp [hMoving.staging_same, h.staged]
  have hOutside : ¬ staging <+: target ++ [name] := by
    intro hPrefix
    obtain hSame | hBelow := List.prefix_concat_iff.mp hPrefix
    · exact hRoot (hSame ▸ hFree)
    · exact h.apart hBelow
  have hBeside : ∀ entry ∈ done, ∀ rest, ¬ staging ++ [entry.filename] <+: staging ++ [x.filename] ++ rest := by
    intro entry hMem rest hPrefix
    rw [List.append_assoc] at hPrefix
    exact FileTree.not_prefix_sibling (fun hSame => hNew (List.mem_map.mpr ⟨entry, hMem, hSame⟩)) staging rest hPrefix
  have hOther : ∀ m ∈ moves, ¬ m.2 <+: target ++ [name] := by
    rintro m hMem hPrefix
    obtain ⟨other, -, name', hPlace, -⟩ := Program.forall₂_exists_left hMoving.named m hMem
    obtain hSame | hAbove := List.prefix_concat_iff.mp hPrefix
    · have hHere := hMoving.carried.moved m hMem []
      rw [List.append_nil, List.append_nil, hSame, hFree] at hHere
      exact (hMoving.carried.there m hMem).2 hHere.symm
    · exact not_prefix_above target name' (hPlace ▸ hAbove)
  refine ⟨?_, ?_, ?_, ?_⟩
  · exact hMoving.carried.step (by simp [h.staged]) ⟨List.prefix_append _ _, hThere⟩
      (fun rest => hMoving.left _ (by simp) fun entry hMem => hBeside entry hMem rest) hOutside hFree hOther hMoved
  · rw [List.map_append, List.map_append, hMoving.sources]
    rfl
  · exact List.rel_append hMoving.named (.cons ⟨name, rfl, hPath, fun hOver => by rw [hName hOver]⟩ .nil)
  · intro place hPlace hNone
    rw [hMoved.same.two (hNone x (by simp)) ?_]
    · exact hMoving.left place hPlace fun entry hMem => hNone entry (List.mem_append_left _ hMem)
    · intro hPrefix
      obtain ⟨tail, hAbove⟩ | hBelow := List.prefix_or_prefix_of_prefix hPrefix hPlace
      · exact hRoot (hAbove ▸ none_from hFree tail)
      · exact hOutside hBelow

theorem turns_commitEntry (depth : Nat) (hChildren : t.Children staging ((done ++ x :: rest).map (·.filename)))
    (hResolution : resolution = .keepBoth ∨ resolution = .overwrite ∧ t.entries (target ++ [x.filename]) = none) :
    Turns home .keepBoth (fun path u' => ∃ moves', Moving t staging target targetDirectory resolution (done ++ [x]) (paths ++ [path]) moves' u')
      (fun _ u' => Interrupted t staging u') (commitEntry depth stagingPath targetDirectory resolution x) u := by
  have hName : Plain x.filename := hChildren.plain (by simp)
  have hNew := Children.new hChildren
  have hThere : t.entries (staging ++ [x.filename]) ≠ none := (hChildren.2 x.filename).mp (by simp)
  have hInterrupted := hMoving.interrupted h
  have hKept := hMoving.carried.keepsOutside
  have hTarget : u.entries target = some .directory := (hKept target h.apart (by simp [h.there])).trans h.there
  have hSource : Names u home (join stagingPath x.filename) (staging ++ [x.filename]) := by
    have hStaging : u.entries staging = some .directory := hMoving.staging_same.trans h.staged
    exact (childPath_join h.normal_staging hName).1.names ((h.names_staging u hKept).follows hStaging) hStaging
  have hNamed : ∀ {path name}, ChildPath targetDirectory path name → Names u home path (target ++ [name]) := fun hPath =>
    hPath.names ((h.names_target u hKept).follows hTarget) hTarget
  have hMove : ∀ path name, ChildPath targetDirectory path name → (resolution = .overwrite → x.filename = name) →
      (∀ place, Names u home path place → u.entries place = none) →
      Turns home .keepBoth (fun path' u' => ∃ moves', Moving t staging target targetDirectory resolution (done ++ [x]) (paths ++ [path']) moves' u')
        (fun _ u' => Interrupted t staging u') (do
          assertOperationActive
          let _ ← ask (.rename (join stagingPath x.filename) path)
          pure path) u := by
    intro path name hPath hOwn hFree
    have hNext : ∀ u', Moves u home (join stagingPath x.filename) path u' →
        Moving t staging target targetDirectory resolution (done ++ [x]) (paths ++ [path]) (moves ++ [(staging ++ [x.filename], target ++ [name])]) u' :=
      fun u' hMoved => hMoving.step h hNew hThere hPath hOwn (hFree _ (hNamed hPath)) (hMoved.relocates hSource (hNamed hPath))
    refine turns_active (fun _ => hInterrupted) (Program.Yields.bind (turns_change ?_) fun _ u' hMoved => .done ⟨_, hNext u' hMoved⟩)
    rintro e u' (rfl | hMoved)
    · exact hInterrupted
    · exact (hNext u' hMoved).interrupted h
  have hDesired := (childPath_join h.normal_target hName).1
  refine turns_active (fun _ => hInterrupted) (Program.Yields.bind (turns_pathExists _ fun _ => hInterrupted) ?_)
  rintro isThere u ⟨rfl, hAnswer⟩
  cases isThere with
  | false => exact hMove _ _ hDesired (fun _ => rfl) hAnswer
  | true =>
    obtain hKeepBoth | ⟨hOver, hFree⟩ := hResolution
    · rw [if_neg (by decide), if_pos hKeepBoth]
      refine Program.Yields.bind (turns_findAvailablePath .keepBoth _ fun _ => hInterrupted) ?_
      rintro path u ⟨rfl, hFree, rfl | ⟨attempt, rfl⟩⟩
      · exact hMove _ _ hDesired (fun _ => rfl) hFree
      · rw [numberedSibling_join h.absolute hName] at hFree ⊢
        exact hMove _ _ (childPath_join h.normal_target (plain_numbered hName.no_separator attempt)).1 (by simp [hKeepBoth]) hFree
    · -- without a conflict nothing can have come to stand under the name of this entry
      obtain ⟨place, hPlace, hTaken⟩ := hAnswer
      obtain rfl := hPlace.unique (hNamed hDesired)
      have hOutside : ¬ staging <+: target ++ [x.filename] := by
        intro hPrefix
        obtain hSame | hBelow := List.prefix_concat_iff.mp hPrefix
        · rw [← hSame, h.staged] at hFree
          cases hFree
        · exact h.apart hBelow
      refine absurd ((hMoving.carried.kept _ hOutside fun m hMem hPrefix => ?_).trans hFree) hTaken
      obtain ⟨_, -, name, hPlace, -, hOwn⟩ := Program.forall₂_exists_left hMoving.named m hMem
      rw [hPlace, List.prefix_append_right_inj, List.cons_prefix_cons] at hPrefix
      have hSource : staging ++ [x.filename] ∈ moves.map Prod.fst := by
        rw [← hPrefix.1, ← hOwn hOver]
        exact List.mem_map_of_mem hMem
      rw [hMoving.sources] at hSource
      obtain ⟨entry, hMem', hSame⟩ := List.mem_map.mp hSource
      exact hNew (List.mem_map.mpr ⟨entry, hMem', List.singleton_inj.mp (List.append_cancel_left hSame)⟩)

end

section

variable {t : RemoteTree} {home staging target : Place} {stagingPath targetDirectory : Text}
  (h : CommitPaths t home stagingPath targetDirectory staging target)

include h

theorem CommitPaths.names_child {name : Text} (hName : Plain name) : Names t home (join targetDirectory name) (target ++ [name]) := by
  have hFollows := (h.names_target t fun _ _ _ => rfl).follows h.there
  exact (childPath_join h.normal_target hName).1.names hFollows h.there

theorem turns_waitForConflicts (conflicts : List ArchiveConflict) :
    Turns home .keepBoth (fun resolution t' => t' = t ∧ resolution = .keepBoth) (fun _ t' => Interrupted t staging t') (waitForConflicts conflicts) t := by
  have hAsked : Turns home .keepBoth (fun _ t' => t' = t) (fun _ t' => Interrupted t staging t') (ask (.beginConflicts conflicts)) t :=
    (turns_ask (fun _ => id) fun _ => h.untouched).mono (fun _ _ hSame => hSame.1) fun _ _ => id
  refine Program.Yields.bind hAsked ?_
  rintro _ t rfl
  have hDecision : Turns home .keepBoth (fun resolution t' => t' = t ∧ resolution = .keepBoth) (fun _ t' => t' = t) (ask .conflictDecision) t :=
    turns_ask (fun _ => id) fun _ => rfl
  refine Program.Yields.bind hDecision.attempt ?_
  rintro (e | resolution) t' ⟨hOk, hError⟩
  · obtain rfl := hError e rfl
    refine Program.Yields.bind (turns_ask (q := .endConflicts) (fun _ => id) fun _ => h.untouched) ?_
    rintro _ _ ⟨rfl, -⟩
    exact .fail h.untouched
  · obtain ⟨rfl, hKeepBoth⟩ := hOk resolution rfl
    refine Program.Yields.bind (turns_ask (q := .endConflicts) (fun _ => id) fun _ => h.untouched) ?_
    rintro _ _ ⟨rfl, -⟩
    exact .done ⟨rfl, hKeepBoth⟩

theorem turns_findConflicts {entries : List SftpDirectoryEntry} (hNames : ∀ entry ∈ entries, Plain entry.filename) :
    Turns home .keepBoth (fun found t' => t' = t ∧ (found.filterMap id = [] → ∀ entry ∈ entries, t.entries (target ++ [entry.filename]) = none))
      (fun _ t' => Interrupted t staging t') (Program.forEach (findConflict stagingPath targetDirectory) entries) t := by
  refine Program.Yields.forEach (fun (done : List SftpDirectoryEntry) found t' => t' = t ∧ (found.filterMap id = [] → ∀ entry ∈ done, t.entries (target ++ [entry.filename]) = none))
    ⟨rfl, fun _ _ hMem => absurd hMem List.not_mem_nil⟩ ?_
  rintro done x rest found rfl t ⟨rfl, hFree⟩
  refine turns_active (fun _ => h.untouched) (Program.Yields.bind (turns_pathExists _ fun _ => h.untouched) ?_)
  rintro isThere t ⟨rfl, hAnswer⟩
  refine turns_active (fun _ => h.untouched) (.done ⟨rfl, fun hNone => ?_⟩)
  rw [List.filterMap_append, List.append_eq_nil_iff] at hNone
  refine List.forall_mem_append.mpr ⟨hFree hNone.1, List.forall_mem_singleton.mpr ?_⟩
  cases isThere with
  | false => exact hAnswer _ (h.names_child (hNames x (by simp)))
  | true => simp at hNone

theorem turns_commitEach (depth : Nat) {entries : List SftpDirectoryEntry} (hChildren : t.Children staging (entries.map (·.filename))) :
    Turns home .keepBoth (fun paths t' => KeptBoth t home staging (entries.map fun entry => staging ++ [entry.filename]) paths t')
      (fun _ t' => Interrupted t staging t') (commitEach depth stagingPath targetDirectory entries) t := by
  have hPlain : ∀ entry ∈ entries, Plain entry.filename := fun entry hEntry => hChildren.plain (List.mem_map_of_mem hEntry)
  have hResolved : ∀ resolution, (resolution = .keepBoth ∨ resolution = .overwrite ∧ ∀ entry ∈ entries, t.entries (target ++ [entry.filename]) = none) →
      Turns home .keepBoth (fun paths t' => KeptBoth t home staging (entries.map fun entry => staging ++ [entry.filename]) paths t')
        (fun _ t' => Interrupted t staging t') (if resolution = .cancel then throw .cancelled else do
          let resultPaths ← Program.forEach (commitEntry depth stagingPath targetDirectory resolution) entries
          removeRemoteTree depth stagingPath
          let _ ← ask (.deleteTemporaryPath stagingPath)
          pure resultPaths) t := by
    intro resolution hResolution
    have hStart : Moving t staging target targetDirectory resolution [] [] [] t := ⟨.nil staging t, rfl, .nil, fun _ _ _ => rfl⟩
    rw [if_neg (by rintro rfl; simp at hResolution)]
    refine Program.Yields.bind (Program.Yields.forEach (fun done paths u => ∃ moves, Moving t staging target targetDirectory resolution done paths moves u)
      ⟨[], hStart⟩ ?_) ?_
    · rintro done x rest paths rfl u ⟨moves, hMoving⟩
      exact turns_commitEntry h hMoving depth hChildren (hResolution.imp_right (And.imp_right fun hFree => hFree x (by simp)))
    · rintro paths u ⟨moves, hMoving⟩
      have hRoot : t.entries staging ≠ none := by simp [h.staged]
      have hKept := hMoving.carried.keepsOutside
      -- with all entries moved it does not matter what is left of the staging directory
      have hCleared : ∀ u', SameBeside [staging] u u' → Carried t staging moves u' ∧ Interrupted t staging u' := by
        intro u' hSame
        have hCarried := hMoving.carried.beside hRoot hSame
        refine ⟨hCarried, interrupted_of_carried hCarried hRoot fun name hName => .inl ?_⟩
        obtain ⟨entry, hMem, rfl⟩ := List.mem_map.mp ((hChildren.2 name).mpr hName)
        have hSource : staging ++ [entry.filename] ∈ moves.map Prod.fst := by
          rw [hMoving.sources]
          exact List.mem_map.mpr ⟨entry, hMem, rfl⟩
        obtain ⟨m, hMem', hSame'⟩ := List.mem_map.mp hSource
        exact ⟨m, hMem', [], by rw [List.append_nil, hSame']⟩
      have hPinned : Pinned u home [staging] stagingPath staging := fun u' hSame => h.names_staging u' (hCleared u' hSame).2.kept
      refine Program.Yields.bind ((turns_removeRemoteTree depth h.normal_staging hPinned).mono (fun _ _ => id) fun _ u' hSame => (hCleared u' hSame).2) ?_
      rintro _ u' ⟨hGone, hSame⟩
      obtain ⟨hCarried, hInterrupted⟩ := hCleared u' hSame
      refine Program.Yields.bind (turns_ask (fun _ => id) fun _ => hInterrupted) ?_
      rintro _ u' ⟨rfl, -⟩
      have hNamed : List.Forall₂ (fun path m => Names t home path m.2) paths moves := hMoving.named.imp fun path m hNamed => by
        obtain ⟨name, hPlace, hPath, -⟩ := hNamed
        rw [hPlace]
        exact hPath.names ((h.names_target t fun _ _ _ => rfl).follows h.there) h.there
      exact .done ⟨hCarried.keepsOutside, hGone, nodup_of_names hNamed hCarried.distinct, moves, hMoving.sources, hNamed, hCarried⟩
  refine Program.Yields.bind (turns_findConflicts h hPlain) ?_
  rintro found t ⟨rfl, hFree⟩
  simp only
  split
  · rename_i hNone
    exact hResolved .overwrite (.inr ⟨rfl, hFree hNone⟩)
  · refine Program.Yields.bind (turns_waitForConflicts h _) ?_
    rintro resolution t ⟨rfl, hKeepBoth⟩
    exact hResolved resolution (.inl hKeepBoth)

theorem turns_commitAsDirectory (depth : Nat) (targetPath : Text) :
    Turns home .keepBoth (fun paths t' => KeptBoth t home staging [staging] paths t') (fun _ t' => Interrupted t staging t')
      (commitAsDirectory depth stagingPath targetPath) t := by
  refine Program.Yields.bind (turns_pathExists _ fun _ => h.untouched) ?_
  rintro isThere t ⟨rfl, hFree⟩
  cases isThere with
  | false => exact turns_moveStaging h hFree
  | true =>
    refine turns_active (fun _ => h.untouched) (Program.Yields.bind (turns_waitForConflicts h _) ?_)
    rintro _ t ⟨rfl, rfl⟩
    refine Program.Yields.bind (turns_findAvailablePath .keepBoth _ fun _ => h.untouched) ?_
    rintro path t ⟨rfl, hFree, -⟩
    exact turns_moveStaging h hFree

/-- With keep-both nothing that was there is modified or removed, however the commit ends. On success every source stands at
the one path reported for it; a commit that fails leaves what it has moved. -/
theorem commitExtractedEntries_keepBoth (depth : Nat) (archivePath : Text) (mode : ArchiveDestinationMode) :
    Turns home .keepBoth (fun paths t' => ∃ names, t.Children staging names ∧
      KeptBoth t home staging (if mode = .smart ∧ names.length ≠ 1 ∨ mode = .archiveNameDirectory then [staging]
        else names.map fun name => staging ++ [name]) paths t')
      (fun _ t' => Interrupted t staging t') (commitExtractedEntries depth stagingPath targetDirectory archivePath mode) t := by
  refine turns_active (fun _ => h.untouched) ?_
  refine Program.Yields.bind (turns_readdir (h.names_staging t fun _ _ _ => rfl) h.staged fun _ => h.untouched) ?_
  rintro entries t ⟨rfl, hChildren⟩
  refine turns_active (fun _ => h.untouched) (Program.Yields.mono ?_ (fun paths t' hKept => ⟨entries.map (·.filename), hChildren, hKept⟩) fun _ _ => id)
  simp only [List.length_map, List.map_map]
  by_cases hSmart : mode = .smart ∧ entries.length ≠ 1
  · rw [if_pos hSmart, if_pos (.inl hSmart)]
    refine Program.Yields.bind (turns_findAvailablePath .keepBoth _ fun _ => h.untouched) ?_
    rintro path t ⟨rfl, hFree, -⟩
    exact turns_moveStaging h hFree
  · by_cases hDirectory : mode = .archiveNameDirectory
    · rw [if_neg hSmart, if_pos (.inr hDirectory), if_pos hDirectory]
      exact turns_commitAsDirectory h depth _
    · rw [if_neg hSmart, if_neg (not_or.mpr ⟨hSmart, hDirectory⟩), if_neg hDirectory]
      exact turns_commitEach h depth hChildren

end

abbrev stagedAt : Text := render [['t'], ['s']] false

abbrev targetAt : Text := render [['t']] false

theorem vacant_target : Vacant (empty : RemoteTree) [] ['t'] := ⟨rfl, ⟨nofun, by decide, by decide, by decide⟩, rfl⟩

def targetOnly : RemoteTree := empty.put vacant_target .directory

theorem vacant_staging : Vacant targetOnly [['t']] ['s'] := ⟨rfl, ⟨nofun, by decide, by decide, by decide⟩, rfl⟩

def stagingMade : RemoteTree := targetOnly.put vacant_staging .directory

theorem vacant_taken : Vacant stagingMade [['t']] ['a'] := ⟨rfl, ⟨nofun, by decide, by decide, by decide⟩, rfl⟩

def nameTaken : RemoteTree := stagingMade.put vacant_taken (.file [])

theorem vacant_second : Vacant nameTaken [['t'], ['s']] ['b'] := ⟨rfl, ⟨nofun, by decide, by decide, by decide⟩, rfl⟩

def secondStaged : RemoteTree := nameTaken.put vacant_second (.file [1])

theorem vacant_first : Vacant secondStaged [['t'], ['s']] ['a'] := ⟨rfl, ⟨nofun, by decide, by decide, by decide⟩, rfl⟩

def bothStaged : RemoteTree := secondStaged.put vacant_first (.file [2])

theorem vacant_numbered : Vacant secondStaged [['t']] "a (2)".toList := ⟨rfl, ⟨nofun, by decide, by decide, by decide⟩, by decide⟩

def firstMoved : RemoteTree := secondStaged.put vacant_numbered (.file [2])

theorem commitPaths_bothStaged : CommitPaths bothStaged [] stagedAt targetAt [['t'], ['s']] [['t']] where
  absolute := rfl
  normal_target := by decide
  normal_staging := by decide
  apart := by decide
  staged := rfl
  there := rfl
  names_staging t' hKept := by
    have hTarget : t'.entries [['t']] = some .directory := hKept [['t']] (by decide) (Option.some_ne_none Entry.directory)
    exact names_in_directory [] hTarget vacant_staging.plain
  names_target t' _ := names_in_directory [] t'.root vacant_target.plain

theorem commitExtractedEntries_keepBoth_bothStaged : Turns [] .keepBoth (fun paths t' => ∃ names, bothStaged.Children [['t'], ['s']] names ∧
      KeptBoth bothStaged [] [['t'], ['s']] (if ArchiveDestinationMode.currentDirectory = .smart ∧ names.length ≠ 1 ∨
        ArchiveDestinationMode.currentDirectory = .archiveNameDirectory then [[['t'], ['s']]] else names.map fun name => [['t'], ['s']] ++ [name]) paths t')
    (fun _ t' => Interrupted bothStaged [['t'], ['s']] t')
    (commitExtractedEntries 1 stagedAt targetAt "/x.zip".toList .currentDirectory) bothStaged :=
  commitExtractedEntries_keepBoth commitPaths_bothStaged 1 _ .currentDirectory

abbrev Commit {α : Type} (program : ArchiveProgram α) (t : RemoteTree) (outcome : Except ArchiveError α) (t' : RemoteTree) : Prop :=
  Program.Ends (archiveTree [] .keepBoth) program t outcome t'

def missing : ArchiveError := .remote (some (.number 2)) []

theorem ends_pathExists_true (t : RemoteTree) (place : Place) {content : Bytes} (hEntry : t.entries place = some (.file content)) :
    Commit (pathExists (render place false)) t (.ok true) t :=
  .catchError_ok ((ends_lstat [] .keepBoth t place 0o100644 hEntry rfl).bind (.done _ _))

theorem ends_pathExists_false (t : RemoteTree) {directory : Place} {name : Text} (h : Vacant t directory name) :
    Commit (pathExists (render (directory ++ [name]) false)) t (.ok false) t := by
  have hMissing : Commit (ask (.lstat (render (directory ++ [name]) false))) t (.error missing) t := by
    refine .request ⟨fun _ place hNames => ?_, .inl rfl⟩
    rw [place_of_names h.in_directory h.plain hNames, h.free]
  exact .catchError_error hMissing.bind_error (.done _ _)

theorem ends_two {γ α : Type} {body : γ → ArchiveProgram α} {x y : γ} {t t' t'' : RemoteTree} {a b : α} (h : Commit (body x) t (.ok a) t')
    (h' : Commit (body y) t' (.ok b) t'') : Commit (Program.forEach body [x, y]) t (.ok [a, b]) t'' :=
  h.bind ((h'.bind (.bind (.done [] t'') (.done [b] t''))).bind (.done [a, b] t''))

def firstEntry : SftpDirectoryEntry := ⟨['a'], [], statsOfMode 0o100644⟩

def secondEntry : SftpDirectoryEntry := ⟨['b'], [], statsOfMode 0o100644⟩

theorem ends_commit_fails : Commit (commitExtractedEntries 1 stagedAt targetAt "/x.zip".toList .currentDirectory)
    bothStaged (.error .cancelled) firstMoved := by
  have hActive : ∀ t, Commit assertOperationActive t (.ok ()) t := fun t => ends_active _ _ t
  have hListed : Commit (ask (.readdir stagedAt)) bothStaged (.ok [firstEntry, secondEntry]) bothStaged := by
    refine .request ⟨⟨[['t'], ['s']], follows_physical rfl, rfl, children_put vacant_first _ (children_put vacant_second _ ?_)⟩, .inl rfl⟩
    exact ⟨List.nodup_nil, fun name => iff_of_false List.not_mem_nil (not_not_intro (put_empty vacant_staging .directory name))⟩
  have hTaken := ends_pathExists_true bothStaged [['t'], ['a']] rfl
  have hFree : ∀ t : RemoteTree, Vacant t [['t']] ['b'] → Commit (pathExists (render [['t'], ['b']] false)) t (.ok false) t := fun t h => ends_pathExists_false t h
  have hConflict : Commit (findConflict stagedAt targetAt firstEntry) bothStaged (.ok (some (toConflict (join stagedAt ['a']) (join targetAt ['a']) .file)))
      bothStaged := (hActive _).bind (hTaken.bind ((hActive _).bind (.done _ _)))
  have hNoConflict : Commit (findConflict stagedAt targetAt secondEntry) bothStaged (.ok none) bothStaged :=
    (hActive _).bind ((hFree _ ⟨rfl, vacant_second.plain, rfl⟩).bind ((hActive _).bind (.done _ _)))
  have hBegun : ∀ conflicts, Commit (ask (.beginConflicts conflicts)) bothStaged (.ok ()) bothStaged := fun _ => .request ⟨trivial, .inl rfl⟩
  have hDecided : Commit (ask .conflictDecision) bothStaged (.ok .keepBoth) bothStaged := .request ⟨rfl, .inl rfl⟩
  have hAttempt : Commit (Program.attempt (ask .conflictDecision)) bothStaged (.ok (.ok .keepBoth)) bothStaged := .catchError_ok (hDecided.bind (.done _ _))
  have hEnded : Commit (ask .endConflicts) bothStaged (.ok ()) bothStaged := .request ⟨trivial, .inl rfl⟩
  have hWaits : ∀ conflicts, Commit (waitForConflicts conflicts) bothStaged (.ok .keepBoth) bothStaged := fun conflicts =>
    (hBegun conflicts).bind (hAttempt.bind (hEnded.bind (.done _ _)))
  have hNumbered : numberedSibling (join targetAt ['a']) 2 = render ([['t']] ++ ["a (2)".toList]) false := by decide
  have hAvailable : Commit (findAvailablePath (join targetAt ['a'])) bothStaged (.ok (render [['t'], "a (2)".toList] false)) bothStaged := by
    have hNext := ends_pathExists_false bothStaged (⟨rfl, vacant_numbered.plain, rfl⟩ : Vacant bothStaged [['t']] "a (2)".toList)
    rw [← hNumbered] at hNext
    refine hTaken.bind (hNext.bind ?_)
    rw [if_neg Bool.false_ne_true, hNumbered]
    exact .done _ _
  have hMoved : Commit (ask (.rename (join stagedAt ['a']) (render [['t'], "a (2)".toList] false))) bothStaged (.ok ()) firstMoved := by
    refine .request ⟨trivial, .inl ⟨[['t'], ['s'], ['a']], [['t'], "a (2)".toList], ?_, ?_, nofun, ?_⟩⟩
    · exact names_in_directory [] (rfl : bothStaged.entries [['t'], ['s']] = some .directory) vacant_first.plain
    · exact names_in_directory [] (rfl : bothStaged.entries [['t']] = some .directory) vacant_numbered.plain
    · exact relocates_put vacant_first (.file [2]) vacant_numbered (by decide)
  have hFirst : Commit (commitEntry 1 stagedAt targetAt .keepBoth firstEntry) bothStaged
      (.ok (render [['t'], "a (2)".toList] false)) firstMoved :=
    (hActive _).bind (hTaken.bind (hAvailable.bind ((hActive _).bind (hMoved.bind (.done _ _)))))
  have hFails : Commit (ask (.rename (join stagedAt ['b']) (join targetAt ['b']))) firstMoved (.error .cancelled) firstMoved :=
    .request ⟨trivial, .inr ⟨⟨_, rfl⟩, rfl⟩⟩
  have hSecond : Commit (commitEntry 1 stagedAt targetAt .keepBoth secondEntry) firstMoved (.error .cancelled) firstMoved :=
    (hActive _).bind ((hFree _ ⟨rfl, vacant_second.plain, rfl⟩).bind ((hActive _).bind hFails.bind_error))
  have hRounds : Commit (Program.forEach (commitEntry 1 stagedAt targetAt .keepBoth) [firstEntry, secondEntry])
      bothStaged (.error .cancelled) firstMoved := hFirst.bind (hSecond.bind_error.bind_error)
  refine (hActive _).bind (hListed.bind ((hActive _).bind ((ends_two hConflict hNoConflict).bind ?_)))
  exact (hWaits _).bind hRounds.bind_error

theorem commitExtractedEntries_leaves_moved : ∃ (t t' : RemoteTree) (e : ArchiveError) (content : Bytes),
    CommitPaths t [] stagedAt targetAt [['t'], ['s']] [['t']] ∧
    Program.Ends (archiveTree [] .keepBoth) (commitExtractedEntries 1 stagedAt targetAt "/x.zip".toList .currentDirectory) t (.error e) t' ∧
    t.entries [['t'], ['s'], ['a']] = some (.file content) ∧ t.entries [['t'], "a (2)".toList] = none ∧
    t'.entries [['t'], ['s'], ['a']] = none ∧ t'.entries [['t'], "a (2)".toList] = some (.file content) :=
  ⟨bothStaged, firstMoved, .cancelled, [2], commitPaths_bothStaged, ends_commit_fails, rfl, rfl, rfl, rfl⟩

end Sftp.Archive
