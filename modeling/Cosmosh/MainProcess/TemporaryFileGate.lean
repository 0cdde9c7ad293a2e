import Cosmosh.MainProcess.StagedUploads

/-! # Temporary files from their creation to their removal

A display name is cut to a local name, and the path is joined from it.
-/

namespace TemporaryFiles

open Library Library.PosixPath Library.FileTree

variable {cwd : Place} {root : TemporaryRoot} {s : LocalState}

def TakenBack (root : TemporaryRoot) (cwd : Place) (s : LocalState) (path : Text) : Prop :=
  ∃ place, Fresh s.tree cwd path place ∧ ∀ (later : LocalState) (content : List UInt8) (other : Place),
    later.tree.entries place = some (.file content) →
      LeadsWillingly other (fun outcome _ => outcome = .ok path) (resolveExistingSftpTemporaryFilePath other root.path (some path)) later ∧
      LeadsWillingly other (fun outcome _ => outcome = .ok (some path)) (resolveExistingUploadLocalPath other root.path path) later

structure TemporaryFileGate (name : Text) : Prop where
  resolved : ∀ (root : TemporaryRoot) (cwd : Place) (candidatePath : Option Text) (s : LocalState),
    Leads cwd (fun outcome s' => s' = s ∧ ∀ path, outcome = .ok path → IsPhysicalFile s.tree root.place path)
      (resolveExistingSftpTemporaryFilePath cwd root.path candidatePath) s
  uploaded : ∀ (root : TemporaryRoot) (cwd : Place) (localPath : Text) (s : LocalState),
    Leads cwd (fun outcome s' => s' = s ∧ ∀ path, outcome = .ok (some path) → IsPhysicalFile s.tree root.place path)
      (resolveExistingUploadLocalPath cwd root.path localPath) s
  accepted : ∀ (root : TemporaryRoot) (cwd : Place) (s : LocalState),
    Leads cwd (fun outcome s' => ∀ path, outcome = .ok path → TakenBack root cwd s' path) (createSftpTemporaryFilePath cwd root.path (some name)) s
  staged : ∀ (root : TemporaryRoot) (cwd : Place) (sourcePath : Text) (s : LocalState), uploadName sourcePath = name →
    Leads cwd (fun _ s' => OnlyStagedGone root s s' ∧ OnlyNewStaged s s') (stageSftpUploadLocalFile cwd root.path sourcePath) s
  cleaned : ∀ (root : TemporaryRoot) (cwd : Place) (localPaths : List Text) (s s' : LocalState) (pool : List (LocalProgram Unit)),
    Relation.ReflTransGen (Program.PoolStep (localSystem cwd)) (cleanupStagedSftpUploadFiles cwd root.path localPaths, s) (pool, s') →
      OnlyStagedGone root s s'

variable {name : Text}

theorem leads_createSftpTemporaryFilePath (hDots : ¬ ComesDownToDots name) (s : LocalState) :
    Leads cwd (fun outcome s' => ∀ path, outcome = .ok path → TakenBack root cwd s' path) (createSftpTemporaryFilePath cwd root.path (some name)) s := by
  refine (leads_createPrivateSftpTemporaryDirectory s).bind ?_ fun e s' _ => nofun
  rintro dir s' ⟨-, hBuilt⟩
  obtain ⟨directory, hMade⟩ := hBuilt dir rfl
  rintro path ⟨⟩
  have hChild := plain_sanitize hDots
  rw [joinPath_sanitize hMade hDots]
  refine ⟨_, fresh_physical cwd (hMade.vacant hChild), ?_⟩
  intro later content other hFile
  have hPlace : root.place ++ [directory] ++ [sanitizeSftpTemporaryFileName (some name)] =
      root.place ++ directory :: [sanitizeSftpTemporaryFileName (some name)] := List.append_assoc _ _ _
  exact ⟨leadsWillingly_resolveExistingSftpTemporaryFilePath hFile hPlace hMade.no_dots (untrimmed_render hChild.nonempty (sanitize_untrimmed name)),
    leadsWillingly_resolveExistingUploadLocalPath hFile hPlace hMade.no_dots⟩

section

abbrev CanEnd {α : Type} (cwd : Place) (program : LocalProgram α) (s : LocalState) (outcome : Except LocalError α) (s' : LocalState) : Prop :=
  Program.Ends (localSystem cwd) program s outcome s'

theorem canEnd_call {q : FileRequest} {answer : q.Answer} {t' : LocalTree} (hAnswer : Answers s.tree cwd q answer)
    (hChanges : Changes s.tree cwd q answer t') : CanEnd cwd (call q) s (.ok answer) ⟨t', s.stagedUploadPaths⟩ :=
  .request (q := LocalRequest.files q) ⟨rfl, hAnswer, hChanges⟩

theorem canEnd_refused (q : FileRequest) (e : LocalError) : CanEnd cwd (call q) s (.error e) s :=
  .request (q := LocalRequest.files q) ⟨rfl, .inl rfl⟩

theorem canEnd_validateSftpTemporaryRootPath (hRoot : s.tree.entries root.place = some .directory) :
    CanEnd cwd (validateSftpTemporaryRootPath cwd root.path) s (.ok root.path) s := by
  have hPath : resolve cwd (JsText.trim root.path) = root.path := by
    rw [TemporaryRoot.path, root.untrimmed, resolve_render root.plain]
  have hNames := names_of_some cwd hRoot
  have hLeads := leadsTo_physical cwd hRoot (by rintro _ ⟨⟩)
  simp only [validateSftpTemporaryRootPath]
  rw [if_neg (by rw [TemporaryRoot.path, root.untrimmed]; exact List.cons_ne_nil _ _)]
  refine Program.Ends.bind (a := ⟨.directory, 0o700, 0, []⟩) (canEnd_call ⟨root.place, .directory, ?_, hRoot, rfl⟩ rfl) ?_
  · rwa [hPath]
  rw [if_neg (by decide)]
  refine Program.Ends.bind (a := ()) (.done () s) ?_
  refine canEnd_call ⟨root.place, ?_, by simp [hRoot], rfl⟩ rfl
  rwa [hPath]

theorem canEnd_ensurePrivateSftpTemporaryRoot (hRoot : s.tree.entries root.place = some .directory) :
    CanEnd cwd (ensurePrivateSftpTemporaryRoot cwd root.path) s (.ok root.path) s := by
  have hTrim : JsText.trim root.path = root.path := root.untrimmed
  have hPath : resolve cwd root.path = root.path := resolve_render root.plain cwd
  have hNonempty : root.path ≠ [] := List.cons_ne_nil _ _
  simp only [ensurePrivateSftpTemporaryRoot, hTrim, hPath]
  rw [if_neg hNonempty]
  refine Program.Ends.bind (a := some root.path) (.catchError_ok (.bind (canEnd_validateSftpTemporaryRootPath hRoot) (.done _ s))) ?_
  have hCanonical : CanEnd cwd (canonicalOrRestored cwd root.path (some root.path)) s (.ok root.path) s := by
    rw [canonicalOrRestored, if_neg hNonempty]
    exact .done _ s
  have hSame : relative cwd root.path root.path = [] := by
    have hWay := wayBetween_below (resolveFrom cwd root.path) []
    rw [List.append_nil] at hWay
    rw [relative, hWay]
    rfl
  refine hCanonical.bind ?_
  rw [if_neg (by simp [hSame])]
  exact .done _ s

def drawnName : Text := "file-AAAAAA".toList

theorem plain_drawnName : Plain drawnName := ⟨by decide, by decide, by decide, by decide⟩

theorem canEnd_createPrivateSftpTemporaryDirectory (hVacant : Vacant s.tree root.place drawnName) :
    CanEnd cwd (createPrivateSftpTemporaryDirectory cwd root.path) s (.ok (render (root.place ++ [drawnName]) false))
      ⟨s.tree.put hVacant .directory, s.stagedUploadPaths⟩ := by
  have hMade : (s.tree.put hVacant .directory).entries (root.place ++ [drawnName]) = some .directory := Function.update_self _ _ _
  have hStart : joinPath root.path "file-".toList = render (root.place ++ ["file-".toList]) false :=
    joinPath_plain root.plain ⟨by decide, by decide, by decide, by decide⟩
  have hInside : isPathInsideDirectory cwd (render (root.place ++ [drawnName]) false) root.path = true :=
    isPathInsideDirectory_below (all_plain_concat root.plain plain_drawnName) (by decide)
  have hMkdtemp : CanEnd cwd (call (.mkdtemp (joinPath root.path "file-".toList))) s (.ok (render (root.place ++ [drawnName]) false))
      ⟨s.tree.put hVacant .directory, s.stagedUploadPaths⟩ := by
    refine canEnd_call ⟨"AAAAAA".toList, by decide, by decide, ?_⟩ ⟨root.place ++ [drawnName], fresh_physical cwd hVacant, rfl⟩
    rw [hStart, render_append]
    rfl
  refine .catchError_ok ?_
  refine (canEnd_ensurePrivateSftpTemporaryRoot hVacant.in_directory).bind (hMkdtemp.bind ?_)
  refine Program.Ends.bind (a := ()) (canEnd_call trivial rfl) ?_
  refine Program.Ends.bind (canEnd_call ⟨_, leadsTo_physical cwd hMade nofun, by simp [hMade], rfl⟩ rfl) ?_
  rw [if_neg (by simp [hInside])]
  exact .done _ _

theorem dirname_of_dots {above : Place} {last displayed : Text} (hRoot : root.place = above ++ [last]) (hAbove : above ≠ []) (hDots : ComesDownToDots displayed) :
    ∃ top, top ≠ [] ∧ top <+: root.place ∧
      dirname (joinPath (render (root.place ++ [drawnName]) false) (sanitizeSftpTemporaryFileName (some displayed))) = render top false := by
  have hPlain := root.plain
  obtain hName | hName := sanitize_of_comesDownToDots hDots
  · refine ⟨root.place, by simp [hRoot], List.prefix_rfl, ?_⟩
    rw [hName, joinPath_dot (all_plain_concat hPlain plain_drawnName), dirname_render hPlain plain_drawnName]
  · refine ⟨above, hAbove, hRoot ▸ List.prefix_append above [last], ?_⟩
    rw [hName, joinPath_dotdot hPlain plain_drawnName]
    rw [hRoot] at hPlain ⊢
    exact dirname_render (fun n hn => hPlain n (List.mem_append_left _ hn)) (hPlain last (by simp)) false

theorem canEnd_stageSftpUploadLocalFile {sourcePath last : Text} {above origin : Place} {content : List UInt8} (hRoot : root.place = above ++ [last])
    (hAbove : above ≠ []) (hVacant : Vacant s.tree root.place drawnName) (hSource : LeadsTo s.tree cwd sourcePath origin)
    (hFile : s.tree.entries origin = some (.file content)) (hDots : ComesDownToDots (uploadName sourcePath)) :
    ∃ e s', CanEnd cwd (stageSftpUploadLocalFile cwd root.path sourcePath) s (.error e) s' ∧ ∀ rest, s'.tree.entries (root.place ++ rest) = none := by
  obtain ⟨top, hTop, hBelow, hDirectory⟩ := dirname_of_dots hRoot hAbove hDots
  have hMade : (s.tree.put hVacant .directory).entries (root.place ++ [drawnName]) = some .directory := Function.update_self _ _ _
  have hThere : (s.tree.put hVacant .directory).entries top ≠ none := by
    obtain ⟨rest, hRest⟩ := hBelow.trans (List.prefix_append root.place [drawnName])
    intro hNone
    exact absurd ((hRest ▸ none_from hNone rest).symm.trans hMade) nofun
  refine ⟨sftpUploadStagingRejectionError (uploadName sourcePath) .unreadable,
    ⟨(s.tree.put hVacant .directory).prune top hTop, s.stagedUploadPaths⟩, ?_, ?_⟩
  · refine Program.Ends.bind (a := ⟨.regular, 0o600, 0, []⟩) (.catchError_ok (canEnd_call ⟨origin, _, hSource, hFile, rfl⟩ rfl)) ?_
    rw [if_neg (by decide), if_neg (by decide)]
    refine Program.Ends.bind ((canEnd_createPrivateSftpTemporaryDirectory hVacant).bind (.done _ _)) ?_
    -- The path is that of a directory, so the copy is refused, and the directory above goes.
    refine .catchError_error (.bind_error (canEnd_refused _ (.system "EISDIR"))) ?_
    refine Program.Ends.bind (a := ()) (.catchError_ok (canEnd_call trivial (.inr ⟨top, ?_, ⟨?_, ?_⟩, if_pos List.prefix_rfl⟩))) (.fail _ _)
    · rw [hDirectory]
      exact names_physical cwd hThere
    · intro place entry hEntry
      have hElsewhere : ¬ top <+: place := by
        intro hGone
        exact absurd ((if_pos hGone).symm.trans hEntry) nofun
      exact (if_neg hElsewhere).symm.trans hEntry
    · exact fun place hElsewhere => if_neg hElsewhere
  · exact fun rest => if_pos (hBelow.trans (List.prefix_append root.place rest))

end

def sampleRoot : TemporaryRoot where
  place := ["tmp".toList, "root".toList]
  plain := by
    intro name hName
    obtain rfl | rfl : name = "tmp".toList ∨ name = "root".toList := by simpa using hName
    · exact ⟨by decide, by decide, by decide, by decide⟩
    · exact ⟨by decide, by decide, by decide, by decide⟩
  untrimmed := by decide

def sampleDirectories : List Place := [[], ["tmp".toList], ["tmp".toList, "root".toList]]

def keptPlace : Place := ["tmp".toList, "root".toList, "kept".toList]

def sampleTree {name : Text} (hName : Plain name) : LocalTree where
  entries := fun place => if place ∈ sampleDirectories then some .directory else if place = keptPlace ∨ place = [name] then some (.file []) else none
  root := if_pos List.mem_cons_self
  parent := by
    intro place child hChild
    have hPlace : place ∈ sampleDirectories := by
      split at hChild
      · rename_i hDirectory
        have hAbove : ∀ other ∈ sampleDirectories, other.dropLast ∈ sampleDirectories := by decide
        simpa using hAbove _ hDirectory
      · split at hChild
        · rename_i hFile
          obtain hKept | hUpload := hFile
          · have hAbove : keptPlace.dropLast ∈ sampleDirectories := by decide
            simpa [← hKept] using hAbove
          · obtain rfl : place = [] := (List.append_inj' (hUpload.trans (List.nil_append [name]).symm) rfl).1
            decide
        · exact absurd rfl hChild
    rw [if_pos hPlace]
  plain := by
    intro place child hChild
    have hPlain : ∀ other ∈ ["tmp".toList, "root".toList, "kept".toList], Plain other := by
      intro other hOther
      simp only [List.mem_cons, List.not_mem_nil, or_false] at hOther
      obtain rfl | rfl | rfl := hOther
      · exact ⟨by decide, by decide, by decide, by decide⟩
      · exact ⟨by decide, by decide, by decide, by decide⟩
      · exact ⟨by decide, by decide, by decide, by decide⟩
    split at hChild
    · rename_i hDirectory
      have hNames : ∀ other ∈ sampleDirectories, ∀ n ∈ other, n ∈ ["tmp".toList, "root".toList, "kept".toList] := by decide
      exact hPlain child (hNames _ hDirectory child (by simp))
    · split at hChild
      · rename_i hFile
        obtain hKept | hUpload := hFile
        · have hNames : ∀ n ∈ keptPlace, n ∈ ["tmp".toList, "root".toList, "kept".toList] := by decide
          exact hPlain child (hNames child (by rw [← hKept]; simp))
        · obtain rfl : child = name := List.singleton_inj.mp (List.append_inj' (hUpload.trans (List.nil_append [name]).symm) rfl).2
          exact hName
      · exact absurd rfl hChild

variable {place : Place}

theorem sampleTree_directory (hName : Plain name) (h : place ∈ sampleDirectories) :
    (sampleTree hName).entries place = some .directory := if_pos h

theorem sampleTree_file (hName : Plain name) (h : place ∉ sampleDirectories) (hFile : place = keptPlace ∨ place = [name]) :
    (sampleTree hName).entries place = some (.file []) := (if_neg h).trans (if_pos hFile)

theorem sampleTree_free (hName : Plain name) (h : place ∉ sampleDirectories) (hFree : ¬ (place = keptPlace ∨ place = [name])) :
    (sampleTree hName).entries place = none := (if_neg h).trans (if_neg hFree)

theorem not_staged_of_comesDownToDots (hDots : ComesDownToDots name) : ∃ sourcePath s, uploadName sourcePath = name ∧
      ¬ Leads [] (fun _ s' => OnlyStagedGone sampleRoot s s' ∧ OnlyNewStaged s s') (stageSftpUploadLocalFile [] sampleRoot.path sourcePath) s := by
  have hPlain := plain_of_comesDownToDots hDots
  have hUpload : uploadName (render [name] false) = name := by
    have hBase : basename (render ([] ++ [name]) false) = name := basename_render hPlain false
    rw [List.nil_append] at hBase
    rw [uploadName, hBase, if_neg hPlain.nonempty]
  have hOther : name ≠ "tmp".toList := by
    rintro rfl
    obtain ⟨front, dots, middle, blank, rest, hName, hOneTwo, -⟩ := hDots
    have hDot : '.' ∈ "tmp".toList := by
      rw [hName]
      obtain rfl | rfl := hOneTwo <;> simp
    exact absurd hDot (by decide)
  have hNotDirectory : [name] ∉ sampleDirectories := by
    rw [sampleDirectories, List.mem_cons, List.mem_cons, List.mem_singleton]
    rintro (h | h | h)
    · cases h
    · exact hOther (List.singleton_inj.mp h)
    · cases h
  have hSource : (sampleTree hPlain).entries [name] = some (.file []) := sampleTree_file hPlain hNotDirectory (.inr rfl)
  have hVacant : Vacant (sampleTree hPlain) sampleRoot.place drawnName := by
    have hFree : ¬ (sampleRoot.place ++ [drawnName] = keptPlace ∨ sampleRoot.place ++ [drawnName] = [name]) := by
      rintro (h | h)
      · exact absurd h (by decide)
      · exact absurd (congrArg List.length h) (by simp [sampleRoot])
    exact ⟨sampleTree_directory hPlain (by decide), plain_drawnName, sampleTree_free hPlain (by decide) hFree⟩
  have hAbove : ["tmp".toList] ≠ [] := List.cons_ne_nil _ _
  let s : LocalState := ⟨sampleTree hPlain, []⟩
  have hLeadsTo : LeadsTo s.tree [] (render [name] false) [name] := leadsTo_physical [] hSource nofun
  refine ⟨render [name] false, s, hUpload, fun hLeads => ?_⟩
  obtain ⟨e, s', hEnds, hNone⟩ := canEnd_stageSftpUploadLocalFile rfl hAbove hVacant hLeadsTo hSource (hUpload.symm ▸ hDots)
  have hKept : (sampleTree hPlain).entries (sampleRoot.place ++ ["kept".toList]) = some (.file []) :=
    sampleTree_file hPlain (by decide) (.inl rfl)
  obtain ⟨-, hStaged⟩ | ⟨hDirectory, -⟩ := (hLeads.ends hEnds).1 _ _ hKept (by rw [hNone]; exact nofun)
  · cases hStaged
  · cases hDirectory

theorem not_temporaryFileGate (hDots : ComesDownToDots name) : ¬ TemporaryFileGate name := by
  intro hGate
  obtain ⟨sourcePath, s, hUpload, hFails⟩ := not_staged_of_comesDownToDots hDots
  exact hFails (hGate.staged sampleRoot [] sourcePath s hUpload)

/-- What is accepted is a physical file of the root, and what was made is accepted and is all that is removed, for the names
that leave more than dots. -/
theorem temporaryFileGate_iff (name : Text) : TemporaryFileGate name ↔ ¬ ComesDownToDots name := by
  constructor
  · exact fun hGate hDots => not_temporaryFileGate hDots hGate
  · intro hDots
    refine ⟨?_, ?_, ?_, ?_, ?_⟩
    · exact fun root cwd candidatePath s => leads_resolveExistingSftpTemporaryFilePath candidatePath s
    · exact fun root cwd localPath s => leads_resolveExistingUploadLocalPath localPath s
    · exact fun root cwd s => leads_createSftpTemporaryFilePath hDots s
    · rintro root cwd sourcePath s rfl
      exact (leads_stageSftpUploadLocalFile hDots s).mono fun _ _ hAfter => ⟨.of_extends hAfter.1, hAfter.2⟩
    · exact fun root cwd localPaths s s' pool hSteps => cleaned_of_pool localPaths hSteps

theorem not_temporaryFileGate_dot_nbsp : ¬ TemporaryFileGate ".\u00a0".toList :=
  not_temporaryFileGate ⟨[], ".".toList, [], '\u00a0', [], by decide, .inl rfl, nofun, ⟨by decide, by decide⟩, by decide, nofun⟩

end TemporaryFiles
