import Cosmosh.Sftp.EntryCopy

/-! # Where the check before a copy is enough

The check compares two spellings, the copy follows the tree.
-/

namespace Sftp

open Library Library.PosixPath Library.FileTree

variable {home : Place} {t t' : RemoteTree}

theorem bounded_of_finite (h : t.Finite) (place : Place) : ∃ width height, Bounded t place width height := by
  refine ⟨h.toFinset.card, h.toFinset.sup List.length, ?_, ?_⟩
  · intro rest hEntry
    have hLength : (place ++ rest).length ≤ h.toFinset.sup List.length :=
      Finset.le_sup (f := List.length) ((Set.Finite.mem_toFinset h).mpr hEntry)
    rw [List.length_append] at hLength
    omega
  · intro rest names hChildren
    have hNodup : (names.map fun name => place ++ rest ++ [name]).Nodup :=
      hChildren.1.map fun name other hSame => List.singleton_inj.mp (List.append_cancel_left hSame)
    have hEntries : names.map (fun name => place ++ rest ++ [name]) ⊆ h.toFinset.toList := by
      intro other hOther
      obtain ⟨name, hName, rfl⟩ := List.mem_map.mp hOther
      exact Finset.mem_toList.mpr ((Set.Finite.mem_toFinset h).mpr ((hChildren.2 name).mp hName))
    have hLength := (List.subperm_of_subset hNodup hEntries).length_le
    rwa [List.length_map, Finset.length_toList] at hLength

def directoryStats : Stats where
  mode := some 0o040755
  uid := none
  gid := none
  size := none
  atime := none
  mtime := none

def listed (names : List Text) : List SftpDirectoryEntry := names.map fun name => ⟨name, [], directoryStats⟩

theorem childNames_listed {names : List Text} (h : ∀ name ∈ names, Plain name) : childNames (listed names) = names := by
  have hNames : (listed names).map (·.filename) = names := by
    rw [listed, List.map_map]
    exact List.map_id' names
  rw [childNames, hNames]
  refine List.filter_eq_self.mpr fun name hName => ?_
  have hPlain := h name hName
  simpa [isSpecialName] using And.intro hPlain.not_dot hPlain.not_dotdot

section

variable {α : Type} {limit k : Nat} {post : Except SftpError α → RemoteTree × Nat → Prop}

abbrev Stays (home : Place) (limit : Nat) (post : Except SftpError α → RemoteTree × Nat → Prop) (program : SftpProgram α) (c : RemoteTree × Nat) :
    Prop := Program.Safe (Program.counted (treeServer home)) (fun c _ => c.2 < limit) post program c

theorem Stays.answered {operation : String} {impact : SftpOperationImpact} {q : Request} {next : q.Answer → SftpProgram α} {answer : q.Answer}
    (h : Stays home limit post ((call operation impact q).bind next) (t, k)) (hAnswer : treeServer home t q (.ok answer) t') :
    k + 1 ≤ limit ∧ Stays home limit post (next answer) (t', k + 1) := ⟨h.1, h.2 (.ok answer) (t', k + 1) ⟨hAnswer, rfl⟩⟩

end

variable {targetPath : Text}

theorem below_of_fresh {source target : Place} (hFresh : Fresh t home targetPath target) (hSource : t.entries source ≠ none)
    (hBelow : source <+: target) : ∃ name rest, target = source ++ name :: rest := by
  obtain ⟨rest, rfl⟩ := hBelow
  cases rest with
  | nil =>
    rw [List.append_nil] at hFresh
    exact absurd hFresh.free hSource
  | cons name rest => exact ⟨name, rest, rfl⟩

variable (session : SftpLiveSession) {sourcePath : Text}

theorem depth_of_stays {limit : Nat} (depth : Nat) {k : Nat} {source target : Place}
    {post : Except SftpError Unit → RemoteTree × Nat → Prop} (hFinite : t.Finite)
    (hSourceNormal : normalize sourcePath = sourcePath) (hTargetNormal : normalize targetPath = targetPath)
    (hNames : Names t home sourcePath source) (hSource : t.entries source ≠ none) (hFresh : Fresh t home targetPath target)
    (hBelow : source <+: target) (hBound : k ≤ limit)
    (h : Stays home limit post (copyEntryRecursive session depth sourcePath targetPath) (t, k)) : k + depth ≤ limit := by
  induction depth generalizing t k sourcePath targetPath source target post with
  | zero => exact hBound
  | succ depth ih =>
    obtain ⟨name, rest, rfl⟩ := below_of_fresh hFresh hSource hBelow
    have hDirectory : t.entries source = some .directory := hFresh.directory_above
    obtain ⟨made, hMakes, hMade, hMadeFinite⟩ := hFresh.made hFinite
    have hKept := hMakes.extends
    have hEntry : made.entries (source ++ [name]) = some .directory := by
      by_cases hRest : rest = []
      · rwa [hRest] at hMade
      · refine directory_of_below hRest ?_
        simp [hMade]
    have hThere : made.entries (source ++ [name]) ≠ none := by simp [hEntry]
    obtain ⟨names, hChildren⟩ := hMadeFinite.children_first hThere
    have hPlain : Plain name := hChildren.plain List.mem_cons_self
    have hListed : childNames (listed (name :: names)) = name :: names := childNames_listed fun _ hName => hChildren.plain hName
    have hFollows := hNames.follows hDirectory
    rw [copyEntryRecursive] at h
    have hLstat : treeServer home t (.lstat sourcePath) (.ok directoryStats) t := ⟨⟨source, .directory, hNames, hDirectory, rfl⟩, rfl⟩
    obtain ⟨-, h⟩ := Stays.answered h hLstat
    rw [if_pos (by decide)] at h
    have hMkdir : treeServer home t (.mkdir targetPath directoryStats.permissionBits) (.ok ()) made := ⟨trivial, hMakes⟩
    obtain ⟨-, h⟩ := Stays.answered h hMkdir
    have hReaddir : treeServer home made (.readdir sourcePath) (.ok (listed (name :: names))) made := by
      refine ⟨⟨source, hFollows.mono hKept, hKept _ _ hDirectory, ?_⟩, rfl⟩
      rwa [hListed]
    obtain ⟨hThree, h⟩ := Stays.answered h hReaddir
    -- The first entry of the source is the one that leads to the target.
    rw [hListed, Program.forEach] at h
    obtain ⟨hSourceChild, hSourceChildNormal⟩ := childPath_joinSftpPath hSourceNormal hPlain
    obtain ⟨hTargetChild, hTargetChildNormal⟩ := childPath_joinSftpPath hTargetNormal hPlain
    have hFree : made.entries (source ++ name :: rest ++ [name]) = none := hMakes.empty hFresh name
    have hChildFresh := hTargetChild.fresh (hFresh.follows_made hKept hMade) ⟨hMade, hPlain, hFree⟩
    have hChildBelow : source ++ [name] <+: source ++ name :: rest ++ [name] := ⟨rest ++ [name], by simp⟩
    have hDeeper := ih hMadeFinite hSourceChildNormal hTargetChildNormal (hSourceChild.names (hFollows.mono hKept) (hKept _ _ hDirectory))
      (by simp [hEntry]) hChildFresh hChildBelow hThree h.front.front
    omega

theorem normalize_normalizeSftpPathInput_getD (input : Option Text) :
    normalize (normalizeSftpPathInput input) = normalizeSftpPathInput input := by
  cases input with
  | none => rfl
  | some raw => exact normalize_normalizeSftpPathInput raw

theorem normalize_copyCandidate (input : Option Text) (attempt : Nat) :
    normalize (buildSftpCopyTargetCandidate (normalizeSftpPathInput input) attempt) =
      buildSftpCopyTargetCandidate (normalizeSftpPathInput input) attempt := by
  simp only [buildSftpCopyTargetCandidate]
  split
  · exact normalize_normalizeSftpPathInput_getD input
  · have hName := plain_copyName (not_mem_basename (normalizeSftpPathInput input)) attempt
    split
    · exact normalize_plain hName
    · rename_i hParent
      by_cases hRoot : dirname (normalizeSftpPathInput input) = "/".toList
      · rw [hRoot, joinSftpPath_root, normalize_normalize]
      · rw [joinSftpPath_eq_normalize hRoot, normalize_normalize]

def CopyAdmitted (requestedSourcePath requestedTargetPath : Option Text) (attempt : Nat) : Prop :=
  isMutableSftpEntryPath (normalizeSftpPathInput requestedSourcePath) = true ∧
    isMutableSftpEntryPath (normalizeSftpPathInput requestedTargetPath) = true ∧
    isSameOrDescendantPath (normalizeSftpPathInput requestedSourcePath)
      (buildSftpCopyTargetCandidate (normalizeSftpPathInput requestedTargetPath) attempt) = false

def LeadsInto (t : RemoteTree) (home : Place) (sourcePath targetPath : Text) : Prop :=
  ∃ source target, Names t home sourcePath source ∧ t.entries source ≠ none ∧ Fresh t home targetPath target ∧ source <+: target

structure CopiesFaithfully (session : SftpLiveSession) (home : Place) (t : RemoteTree) (sourcePath targetPath : Text) : Prop where
  ends : ∃ limit, ∀ depth, Program.SendsAtMost (treeServer home) limit (copyEntryRecursive session depth sourcePath targetPath) t
  exact : ∀ depth, Leads home (fun outcome t' => outcome = .ok () → ∃ source target, Names t home sourcePath source ∧
    Fresh t home targetPath target ∧ ∀ rest, t'.entries (target ++ rest) = t.entries (source ++ rest))
    (copyEntryRecursive session depth sourcePath targetPath) t

theorem spends_of_missing (depth : Nat) (targetPath : Text) (h : ∀ source, Names t home sourcePath source → t.entries source = none) :
    Program.Spends (treeServer home) 1 (fun outcome _ => outcome ≠ .ok ()) (copyEntryRecursive session depth sourcePath targetPath) t := by
  cases depth with
  | zero => exact .fail (by rintro ⟨⟩)
  | succ depth =>
    rw [copyEntryRecursive]
    refine (spends_of_leads (leads_lstat sourcePath)).bind (m := 0) ?_ ?_
    · rintro stats t ⟨rfl, hStats⟩
      obtain ⟨place, entry, hNames, hEntry, -⟩ := hStats stats rfl
      rw [h place hNames] at hEntry
      cases hEntry
    · rintro e t' - ⟨⟩

theorem copiesFaithfully_iff (hFinite : t.Finite) (hSourceNormal : normalize sourcePath = sourcePath)
    (hTargetNormal : normalize targetPath = targetPath) :
    CopiesFaithfully session home t sourcePath targetPath ↔ ¬ LeadsInto t home sourcePath targetPath := by
  refine ⟨?_, fun hApart => ?_⟩
  · rintro ⟨⟨limit, hEnds⟩, -⟩ ⟨source, target, hNames, hSource, hFresh, hBelow⟩
    have hDepth := depth_of_stays session (limit + 1) hFinite hSourceNormal hTargetNormal hNames hSource hFresh hBelow (Nat.zero_le _)
      (hEnds (limit + 1))
    omega
  · by_cases hSource : ∃ source, Names t home sourcePath source ∧ t.entries source ≠ none
    · obtain ⟨source, hNames, hEntry⟩ := hSource
      obtain ⟨width, height, hBounded⟩ := bounded_of_finite hFinite source
      have hSpends := fun depth => spends_copyEntryRecursive session width depth hSourceNormal hTargetNormal hNames hBounded
        fun target hFresh hBelow => hApart ⟨source, target, hNames, hEntry, hFresh, hBelow⟩
      refine ⟨⟨copyCost width height, fun depth => (hSpends depth).sendsAtMost⟩, fun depth => (hSpends depth).safe.mono ?_⟩
      intro outcome t' hCopied hOk
      obtain ⟨target, hFresh, hSame⟩ := hCopied.same hOk
      exact ⟨source, target, hNames, hFresh, hSame⟩
    · have hSpends := fun depth => spends_of_missing session depth targetPath fun source hNames =>
        not_not.mp fun hEntry => hSource ⟨source, hNames, hEntry⟩
      exact ⟨⟨1, fun depth => (hSpends depth).sendsAtMost⟩, fun depth => (hSpends depth).safe.mono fun _ _ hFailed hOk => absurd hOk hFailed⟩

/-- The check is enough unless it admits a target that leads into the source all the same. -/
theorem copy_check_iff (session : SftpLiveSession) (home : Place) (hFinite : t.Finite) (requestedSourcePath requestedTargetPath : Option Text)
    (attempt : Nat) : (CopyAdmitted requestedSourcePath requestedTargetPath attempt → CopiesFaithfully session home t
        (normalizeSftpPathInput requestedSourcePath) (buildSftpCopyTargetCandidate (normalizeSftpPathInput requestedTargetPath) attempt)) ↔
      ¬ (CopyAdmitted requestedSourcePath requestedTargetPath attempt ∧ LeadsInto t home
        (normalizeSftpPathInput requestedSourcePath) (buildSftpCopyTargetCandidate (normalizeSftpPathInput requestedTargetPath) attempt)) := by
  rw [copiesFaithfully_iff session hFinite (normalize_normalizeSftpPathInput_getD _) (normalize_copyCandidate _ _), not_and]

theorem vacant_home : Vacant (FileTree.empty : RemoteTree) [] "home".toList := ⟨rfl, ⟨by decide, by decide, by decide, by decide⟩, rfl⟩

theorem vacant_d : Vacant (FileTree.empty.put vacant_home .directory) ["home".toList] "d".toList :=
  ⟨rfl, ⟨by decide, by decide, by decide, by decide⟩, rfl⟩

/-- The directory `/home/d` alone. -/
def oneDirectory : RemoteTree := (FileTree.empty.put vacant_home .directory).put vacant_d .directory

theorem finite_oneDirectory : oneDirectory.Finite := (finite_empty.put _ _).put _ _

theorem admitted_relative : CopyAdmitted (some "/home/d".toList) (some "d/copy".toList) 0 := by
  refine ⟨?_, ?_, ?_⟩ <;> decide

theorem leadsInto_relative : LeadsInto oneDirectory ["home".toList] (normalizeSftpPathInput (some "/home/d".toList))
    (buildSftpCopyTargetCandidate (normalizeSftpPathInput (some "d/copy".toList)) 0) := by
  have hSource : normalizeSftpPathInput (some "/home/d".toList) = "/home/d".toList := by decide
  have hTarget : buildSftpCopyTargetCandidate (normalizeSftpPathInput (some "d/copy".toList)) 0 = "d/copy".toList := by decide
  have hVacant : Vacant oneDirectory ["home".toList, "d".toList] "copy".toList := ⟨rfl, ⟨by decide, by decide, by decide, by decide⟩, rfl⟩
  rw [hSource, hTarget]
  refine ⟨["home".toList, "d".toList], ["home".toList, "d".toList, "copy".toList], ?_, ?_, ?_, ["copy".toList], rfl⟩
  · have hParent : Follows oneDirectory (start ["home".toList] "/home/d".toList) (segments "/home/d".toList).dropLast ["home".toList] :=
      .enter rfl (.done _)
    exact .entry (by decide) hParent rfl
  · exact nofun
  · exact ⟨["d".toList], "copy".toList, ["home".toList, "d".toList], by decide, .enter rfl (.done _), hVacant, rfl⟩

def copySession : SftpLiveSession := ⟨"s".toList, false, fun key _ => key.toList⟩

theorem relative_target_never_ends : CopyAdmitted (some "/home/d".toList) (some "d/copy".toList) 0 ∧
    ¬ CopiesFaithfully copySession ["home".toList] oneDirectory (normalizeSftpPathInput (some "/home/d".toList))
      (buildSftpCopyTargetCandidate (normalizeSftpPathInput (some "d/copy".toList)) 0) := by
  refine ⟨admitted_relative, fun hFaithful => ?_⟩
  exact (copiesFaithfully_iff copySession finite_oneDirectory (normalize_normalizeSftpPathInput_getD _) (normalize_copyCandidate _ _)).mp
    hFaithful leadsInto_relative

theorem copy_check_iff_one_directory :
    (CopyAdmitted (some "/home/d".toList) (some "/home/e".toList) 1 → CopiesFaithfully copySession ["home".toList] oneDirectory
        (normalizeSftpPathInput (some "/home/d".toList)) (buildSftpCopyTargetCandidate (normalizeSftpPathInput (some "/home/e".toList)) 1)) ↔
      ¬ (CopyAdmitted (some "/home/d".toList) (some "/home/e".toList) 1 ∧ LeadsInto oneDirectory ["home".toList]
        (normalizeSftpPathInput (some "/home/d".toList)) (buildSftpCopyTargetCandidate (normalizeSftpPathInput (some "/home/e".toList)) 1)) :=
  copy_check_iff copySession ["home".toList] finite_oneDirectory (some "/home/d".toList) (some "/home/e".toList) 1

end Sftp
