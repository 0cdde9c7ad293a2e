import Cosmosh.Sftp.ArchiveTree

/-! # Merging a staged tree over what is there

Directories are merged entry by entry.
-/

namespace Sftp.Archive

open Library Library.PosixPath Library.FileTree

structure MergePaths (t : RemoteTree) (home : Place) (sourcePath targetPath : Text) (source target : Place) : Prop where
  normal_source : normalize sourcePath = sourcePath
  normal_target : normalize targetPath = targetPath
  apart : ¬ source <+: target
  apart' : ¬ target <+: source
  pinned_source : Pinned t home [source, target] sourcePath source
  pinned_target : Pinned t home [source, target] targetPath target

section

variable {home : Place} {decision : ArchiveConflictResolution} {t t' : RemoteTree} {source target : Place} {sourcePath targetPath : Text}

theorem MergePaths.child (h : MergePaths t home sourcePath targetPath source target) (hSame : SameBeside [source, target] t t')
    (hSource : t'.entries source = some .directory) (hTarget : t'.entries target = some .directory) {name : Text} (hName : Plain name) :
    MergePaths t' home (join sourcePath name) (join targetPath name) (source ++ [name]) (target ++ [name]) := by
  obtain ⟨hChildSource, hNormalSource⟩ := childPath_join h.normal_source hName
  obtain ⟨hChildTarget, hNormalTarget⟩ := childPath_join h.normal_target hName
  have hBelow : ∀ p ∈ [source ++ [name], target ++ [name]], ∃ p' ∈ [source, target], p' <+: p := by simp
  have hOther := not_prefix_of_apart h.apart h.apart' [name] []
  have hOther' := not_prefix_of_apart h.apart' h.apart [name] []
  rw [List.append_nil] at hOther hOther'
  refine ⟨hNormalSource, hNormalTarget, not_prefix_of_apart h.apart h.apart' _ _, not_prefix_of_apart h.apart' h.apart _ _, ?_, ?_⟩
  · refine h.pinned_source.child hSame hSource hChildSource hBelow ?_
    exact List.forall_mem_cons.mpr ⟨not_prefix_above source name, List.forall_mem_singleton.mpr hOther'⟩
  · refine h.pinned_target.child hSame hTarget hChildTarget hBelow ?_
    exact List.forall_mem_cons.mpr ⟨hOther, List.forall_mem_singleton.mpr (not_prefix_above target name)⟩

theorem turns_rename_over (h : MergePaths t home sourcePath targetPath source target) (hReplaces : Replaces t source target [])
    (hCleared : SameBeside [target] t t') : Turns home decision (fun _ t'' => Overlaid t source target t'' ∧ SameBeside [source, target] t t'')
      (fun _ _ => True) (ask (.rename sourcePath targetPath)) t' := by
  have hSame : SameBeside [source, target] t t' := hCleared.weaken (by simp)
  refine (turns_change fun _ _ _ => trivial).mono ?_ fun _ _ => id
  intro _ t'' hMoves
  have hMoved := hMoves.relocates (h.pinned_source t' hSame) (h.pinned_target t' hSame)
  exact ⟨overlaid_of_relocates hReplaces h.apart' hCleared hMoved, hSame.trans hMoved.same⟩

theorem turns_mergeRemoteEntry (depth : Nat) (h : MergePaths t home sourcePath targetPath source target) :
    Turns home decision (fun _ t' => Overlaid t source target t' ∧ SameBeside [source, target] t t') (fun _ _ => True)
      (mergeRemoteEntry depth sourcePath targetPath) t := by
  induction depth generalizing t sourcePath targetPath source target with
  | zero => exact Program.Yields.fail trivial
  | succ depth ih =>
    rw [mergeRemoteEntry]
    refine turns_active (fun _ => trivial) ?_
    refine Program.Yields.bind (turns_lstat h.pinned_source.names fun _ => trivial) ?_
    rintro sourceStats t ⟨rfl, sourceEntry, hSource, hSourceType⟩
    refine turns_active (fun _ => trivial) ?_
    refine Program.Yields.bind (turns_lstat h.pinned_target.names fun _ => trivial) ?_
    rintro targetStats t ⟨rfl, targetEntry, hTarget, hTargetType⟩
    refine turns_active (fun _ => trivial) ?_
    split
    · rename_i hReplaced
      refine turns_active (fun _ => trivial) ?_
      have hReplaces : Replaces t source target [] := by
        refine Replaces.top (by simp [hSource]) fun hBoth => ?_
        simp [(isDirectory_iff hSourceType).mpr (Option.some.inj (hSource.symm.trans hBoth.1)),
          (isDirectory_iff hTargetType).mpr (Option.some.inj (hTarget.symm.trans hBoth.2))] at hReplaced
      refine Program.Yields.bind ((turns_removeRemoteTree (depth + 1) h.normal_target (h.pinned_target.weaken (by simp))).mono
        (fun _ _ => id) fun _ _ _ => trivial) ?_
      rintro _ t' ⟨-, hCleared⟩
      exact turns_rename_over h hReplaces hCleared
    · rename_i hBoth
      have hDirectories : t.entries source = some .directory ∧ t.entries target = some .directory := by
        simp only [Bool.or_eq_true, Bool.not_eq_true', not_or, Bool.not_eq_false] at hBoth
        rw [hSource, hTarget, (isDirectory_iff hSourceType).mp hBoth.1, (isDirectory_iff hTargetType).mp hBoth.2]
        exact ⟨rfl, rfl⟩
      refine Program.Yields.bind (turns_readdir h.pinned_source.names hDirectories.1 fun _ => trivial) ?_
      rintro entries t ⟨rfl, hChildren⟩
      refine turns_active (fun _ => trivial) ?_
      refine Program.Yields.bind (Program.Yields.forEach (fun done _ t' => Merged t source target (done.map (·.filename)) t')
        (Merged.nil _ source target) ?_) ?_
      · rintro done x rest _ rfl t' hMerged
        have hName : Plain x.filename := hChildren.plain (by simp)
        have hNew := Children.new hChildren
        obtain ⟨hTop, hTop'⟩ := hMerged.tops h.apart h.apart'
        have hChild := h.child hMerged.beside (hTop.trans hDirectories.1) (hTop'.trans hDirectories.2) hName
        have hEntry : Turns home decision (fun _ t'' => Overlaid t' (source ++ [x.filename]) (target ++ [x.filename]) t'' ∧
            SameBeside [source ++ [x.filename], target ++ [x.filename]] t' t'') (fun _ _ => True) (do
              let childExists ← pathExists (join targetPath x.filename)
              assertOperationActive
              if childExists then mergeRemoteEntry depth (join sourcePath x.filename) (join targetPath x.filename)
                else ask (.rename (join sourcePath x.filename) (join targetPath x.filename))) t' := by
          refine Program.Yields.bind (turns_pathExists _ fun _ => trivial) ?_
          rintro isThere t' ⟨rfl, hMissing⟩
          refine turns_active (fun _ => trivial) ?_
          split
          · exact ih hChild
          · rename_i hNone
            have hFree := (if_neg hNone).mp hMissing _ hChild.pinned_target.names
            have hStaged : t'.entries (source ++ [x.filename]) ≠ none := by
              rw [hMerged.same_source h.apart h.apart' hNew []]
              exact (hChildren.2 x.filename).mp (by simp)
            exact turns_rename_over hChild (.top hStaged fun hBoth => by simp [hFree] at hBoth) (.refl _ _)
        refine turns_active (fun _ => trivial) (hEntry.mono ?_ fun _ _ => id)
        rintro _ t'' ⟨hOverlaid, hSame⟩
        rw [List.map_append]
        exact hMerged.step h.apart h.apart' hNew hOverlaid hSame
      · rintro _ t' hMerged
        refine (turns_change fun _ _ _ => trivial).mono ?_ fun _ _ => id
        intro _ t'' hRemoved
        obtain ⟨hGone, hSame⟩ := hRemoved.sameBeside (h.pinned_source t' hMerged.beside)
        exact ⟨hMerged.overlaid h.apart h.apart' hChildren hDirectories.1 hDirectories.2 hGone hSame, hMerged.beside.trans (hSame.weaken (by simp))⟩

structure MergedInto (t : RemoteTree) (source target : Place) (t' : RemoteTree) : Prop where
  staged : ∀ rest entry, t.entries (source ++ rest) = some entry → t'.entries (target ++ rest) = some entry
  unstaged : ∀ rest, t.entries (source ++ rest) = none →
    (∀ r, r <+: rest → ∀ entry, t.entries (source ++ r) = some entry → entry = .directory) → t'.entries (target ++ rest) = t.entries (target ++ rest)
  nothing_left : ∀ rest, t'.entries (source ++ rest) = none
  elsewhere : ∀ place, ¬ source <+: place → ¬ target <+: place → t'.entries place = t.entries place

theorem mergedInto_of_overlaid (hOverlaid : Overlaid t source target t') (hSame : SameBeside [source, target] t t') : MergedInto t source target t' where
  staged := by
    intro rest entry hEntry
    by_cases hReplaced : ∃ r, r <+: rest ∧ Replaces t source target r
    · obtain ⟨r, hPrefix, hReplaces⟩ := hReplaced
      exact (hOverlaid.replaced r rest hPrefix hReplaces).trans hEntry
    · have hNone : ∀ r, r <+: rest → ¬ Replaces t source target r := fun r hPrefix hReplaces => hReplaced ⟨r, hPrefix, hReplaces⟩
      have hHere := hNone rest List.prefix_rfl
      rw [Replaces, not_and_not_right] at hHere
      obtain ⟨hSource, hTarget⟩ := hHere (by simp [hEntry])
      rw [hOverlaid.kept rest hNone, hTarget, ← hEntry, hSource]
  unstaged := by
    intro rest hNone hDirectories
    by_cases hReplaced : ∃ r, r <+: rest ∧ Replaces t source target r
    · -- a staged directory can only have replaced something that had nothing below it
      obtain ⟨r, ⟨tail, rfl⟩, hStaged, hNotBoth⟩ := hReplaced
      obtain ⟨entry, hEntry⟩ := Option.ne_none_iff_exists'.mp hStaged
      obtain rfl := hDirectories r (List.prefix_append r tail) entry hEntry
      have hTail : tail ≠ [] := by
        rintro rfl
        rw [List.append_nil] at hNone
        exact hStaged hNone
      have hBelow : t.entries (target ++ r ++ tail) = none := none_below (fun hTarget => hNotBoth ⟨hEntry, hTarget⟩) hTail
      rw [hOverlaid.replaced r _ (List.prefix_append r tail) ⟨hStaged, hNotBoth⟩, hNone, ← List.append_assoc, hBelow]
    · exact hOverlaid.kept rest fun r hPrefix hReplaces => hReplaced ⟨r, hPrefix, hReplaces⟩
  nothing_left := none_from hOverlaid.gone
  elsewhere place hSource hTarget := hSame.two hSource hTarget

theorem mergeRemoteEntry_merges (depth : Nat) (h : MergePaths t home sourcePath targetPath source target) :
    Turns home decision (fun _ t' => MergedInto t source target t') (fun _ _ => True) (mergeRemoteEntry depth sourcePath targetPath) t :=
  (turns_mergeRemoteEntry depth h).mono (fun _ _ hMerged => mergedInto_of_overlaid hMerged.1 hMerged.2) fun _ _ => id

end

theorem plain_letter {c : Char} (h : c.isAlpha = true) : Plain [c] := by
  refine ⟨by simp, ?_, ?_, ?_⟩
  · rintro h'
    obtain rfl : c = '.' := by simpa using h'
    cases h
  · exact fun h' => by simpa using congrArg List.length h'
  · intro hMem
    obtain rfl := List.mem_singleton.mp hMem
    cases h

theorem vacant_root {c : Char} (h : c.isAlpha = true) : Vacant (empty : RemoteTree) [] [c] := ⟨rfl, plain_letter h, rfl⟩

def stagedFile : RemoteTree := empty.put (vacant_root (c := 's') rfl) (.file [])

theorem vacant_directory : Vacant stagedFile [] "t".toList := ⟨rfl, plain_letter rfl, rfl⟩

def besideDirectory : RemoteTree := stagedFile.put vacant_directory .directory

theorem vacant_below : Vacant besideDirectory ["t".toList] "b".toList := ⟨rfl, plain_letter rfl, rfl⟩

def besideFilledDirectory : RemoteTree := besideDirectory.put vacant_below (.file [])

def movedFile : RemoteTree := empty.put (vacant_root (c := 't') rfl) (.file [])

theorem pinned_root (t : RemoteTree) (places : List Place) {c : Char} (hName : c.isAlpha = true) (hOther : ∀ p ∈ places, p ≠ []) :
    Pinned t [] places (render [[c]] false) [[c]] :=
  pinned_physical [] t.root (plain_letter hName) fun p hp => (List.prefix_nil.not).mpr (hOther p hp)

theorem mergePaths_besideFilledDirectory : MergePaths besideFilledDirectory [] (render ["s".toList] false) (render ["t".toList] false)
    ["s".toList] ["t".toList] where
  normal_source := by decide
  normal_target := by decide
  apart := by decide
  apart' := by decide
  pinned_source := pinned_root _ _ rfl (by decide)
  pinned_target := pinned_root _ _ rfl (by decide)

theorem mergeRemoteEntry_merges_file : Turns [] .overwrite
    (fun _ t' => MergedInto besideFilledDirectory ["s".toList] ["t".toList] t') (fun _ _ => True)
    (mergeRemoteEntry 2 (render ["s".toList] false) (render ["t".toList] false)) besideFilledDirectory :=
  mergeRemoteEntry_merges 2 mergePaths_besideFilledDirectory

section

variable (t : RemoteTree) {t' : RemoteTree} (place : Place) (depth : Nat)

theorem ends_remove_file {content : Bytes} (hEntry : t.entries place = some (.file content)) (h : Function.update t.entries place none = t'.entries) :
    Program.Ends (archiveTree [] .overwrite) (removeRemoteTree (depth + 1) (render place false)) t (.ok ()) t' := by
  have hAsked := ends_lstat [] .overwrite t place 0o100644 hEntry rfl
  refine Program.Ends.bind (.catchError_ok (hAsked.bind (.done _ _))) (.request ⟨trivial, .inl ?_⟩)
  refine ⟨place, _, names_of_some [] hEntry, hEntry, by simp, fun name => ?_, h.symm⟩
  exact none_below (by simp [hEntry]) (by simp)

theorem ends_remove_directory {t'' : RemoteTree} {name : Text} {content : Bytes} (hDirectory : t.entries place = some .directory)
    (hChildren : t.Children place [name]) (hFile : t.entries (place ++ [name]) = some (.file content))
    (hPath : join (render place false) name = render (place ++ [name]) false)
    (h : Function.update t.entries (place ++ [name]) none = t'.entries) (h' : Function.update t'.entries place none = t''.entries) :
    Program.Ends (archiveTree [] .overwrite) (removeRemoteTree (depth + 2) (render place false)) t (.ok ()) t'' := by
  have hAsked := ends_lstat [] .overwrite t place 0o040755 hDirectory rfl
  have hListed : Program.Ends (archiveTree [] .overwrite) (ask (.readdir (render place false))) t (.ok [⟨name, [], statsOfMode 0o100644⟩]) t := by
    refine .request ⟨⟨place, ?_, hDirectory, hChildren⟩, .inl rfl⟩
    exact (names_of_some [] hDirectory).follows hDirectory
  have hRemoved := ends_remove_file t (place ++ [name]) depth hFile h
  rw [← hPath] at hRemoved
  have hKept : t'.entries place = some .directory := by rw [← h, Function.update_of_ne (by simp), hDirectory]
  refine Program.Ends.bind (.catchError_ok (hAsked.bind (.done _ _))) (hListed.bind ?_)
  refine Program.Ends.bind (hRemoved.bind (.bind (.done [] t') (.done [()] t'))) (.request ⟨trivial, .inl ?_⟩)
  refine ⟨place, .directory, names_of_some [] hKept, hKept, by simp, fun other => ?_, h'.symm⟩
  rw [← h]
  by_cases hOther : other = name
  · rw [hOther, Function.update_self]
  · rw [Function.update_of_ne (by simpa using hOther)]
    exact not_not.mp fun hEntry => hOther (List.mem_singleton.mp ((hChildren.2 other).mpr hEntry))

end

theorem mergeRemoteEntry_removes_unstaged : ∃ t t' : RemoteTree, ∃ sourcePath targetPath source target rest content,
    MergePaths t [] sourcePath targetPath source target ∧
    Program.Ends (archiveTree [] .overwrite) (mergeRemoteEntry 2 sourcePath targetPath) t (.ok ()) t' ∧
    t.entries (target ++ rest) = some (.file content) ∧ t.entries (source ++ rest) = none ∧
    (∀ above, above <+: rest → above ≠ rest → t.entries (target ++ above) = some .directory) ∧ t'.entries (target ++ rest) = none := by
  refine ⟨besideFilledDirectory, movedFile, _, _, _, _, ["b".toList], [], mergePaths_besideFilledDirectory, ?_, rfl, rfl, ?_, rfl⟩
  · have hActive : Program.Ends (archiveTree [] .overwrite) assertOperationActive besideFilledDirectory (.ok ()) besideFilledDirectory := ends_active _ _ _
    have hFile := ends_lstat [] .overwrite besideFilledDirectory ["s".toList] 0o100644 rfl rfl
    have hDirectory := ends_lstat [] .overwrite besideFilledDirectory ["t".toList] 0o040755 rfl rfl
    have hChildren := children_put vacant_below (.file []) ⟨List.nodup_nil, fun other => iff_of_false List.not_mem_nil (not_not_intro (put_empty vacant_directory .directory other))⟩
    have hRemoved := ends_remove_directory besideFilledDirectory ["t".toList] 0 rfl hChildren rfl (by decide) (update_put vacant_below _)
      (update_put vacant_directory _)
    refine hActive.bind (hFile.bind (hActive.bind (hDirectory.bind (hActive.bind (hActive.bind (hRemoved.bind (.request ⟨trivial, .inl ?_⟩)))))))
    refine ⟨["s".toList], ["t".toList], (pinned_root _ [] rfl nofun).names, (pinned_root _ [] rfl nofun).names, nofun, ?_⟩
    exact relocates_put (vacant_root (c := 's') rfl) (.file []) (vacant_root (c := 't') rfl) (by decide)
  · rintro above ⟨tail, hTail⟩ hNe
    have hBelow : tail ≠ [] := by
      rintro rfl
      exact hNe (by simpa using hTail)
    refine directory_of_below hBelow ?_
    rw [List.append_assoc, hTail]
    nofun

end Sftp.Archive
