import Cosmosh.Sftp.ArchiveOperations
import Cosmosh.Sftp.PathGuard

/-! # Where an extraction writes

An extraction moves the staged entries into the requested directory.
-/

namespace Sftp.Archive

open Library Library.JsText Library.PosixPath

variable {parent name : Text}

theorem join_eq (hParent : parent ≠ []) (hName : name ≠ []) :
    join parent name = normalize (parent ++ '/' :: name) := by
  simp [join, hParent, hName, List.intercalate_cons_cons]

theorem join_nil (hParent : parent ≠ []) : join parent [] = normalize parent := by
  simp [join, hParent]

theorem ne_nil_of_absolute {p : Text} (h : isAbsolute p = true) : p ≠ [] := by
  rintro rfl
  cases h

theorem isAbsolute_append {p : Text} (h : isAbsolute p = true) (rest : Text) : isAbsolute (p ++ rest) = true := by
  obtain ⟨tail, rfl⟩ := (isAbsolute_iff p).mp h
  rfl

section

variable (hParent : isAbsolute parent = true)
include hParent

theorem exists_join_eq_render (name : Text) :
    ∃ trailing, join parent name = render (location (join parent name)) trailing := by
  have hNonempty := ne_nil_of_absolute hParent
  cases name with
  | nil =>
    rw [join_nil hNonempty, location_normalize hParent]
    exact ⟨_, normalize_of_absolute hParent⟩
  | cons c name =>
    have hAbsolute := isAbsolute_append hParent ('/' :: c :: name)
    rw [join_eq hNonempty (List.cons_ne_nil c name), location_normalize hAbsolute]
    exact ⟨_, normalize_of_absolute hAbsolute⟩

theorem isAbsolute_join (name : Text) :
    isAbsolute (join parent name) = true := by
  obtain ⟨trailing, hRender⟩ := exists_join_eq_render hParent name
  rw [hRender, isAbsolute_render]

theorem location_join (hName : '/' ∉ name) :
    location (join parent name) = (pushSegment false (location parent).reverse name).reverse := by
  have hNonempty := ne_nil_of_absolute hParent
  cases name with
  | nil => rw [join_nil hNonempty, location_normalize hParent, pushSegment_nil, List.reverse_reverse]
  | cons c name =>
    rw [join_eq hNonempty (List.cons_ne_nil c name), location_normalize (isAbsolute_append hParent _), location,
      resolveSegments, foldl_pushSegment_append, List.splitOn_eq_singleton hName]
    rfl

theorem location_join_plain (hName : Plain name) :
    location (join parent name) = location parent ++ [name] := by
  rw [location_join hParent hName.no_separator, pushSegment_plain false _ hName, List.reverse_cons,
    List.reverse_reverse]

theorem length_location_join_le (hSeparator : '/' ∉ name) (hName : ¬ Plain name) :
    (location (join parent name)).length ≤ (location parent).length := by
  rw [location_join hParent hSeparator, List.length_reverse, ← (location parent).length_reverse, pushSegment]
  split
  · exact le_rfl
  · split
    · cases (location parent).reverse with
      | nil => exact le_rfl
      | cons top rest =>
        rw [ascend]
        split <;> simp
    · rename_i hKept hUp
      exact absurd ⟨fun h => hKept (.inl h), fun h => hKept (.inr h), hUp, hSeparator⟩ hName

end

def numberSuffix (attempt : Nat) : Text := " (".toList ++ (toString attempt).toList ++ ")".toList

theorem plain_numbered (h : '/' ∉ name) (attempt : Nat) : Plain (name ++ numberSuffix attempt) := by
  refine plain_of_blank (by simp [numberSuffix]) ?_
  simp only [numberSuffix, List.mem_append, not_or]
  exact ⟨h, ⟨by decide, not_mem_toString attempt⟩, by decide⟩

theorem location_numberedSibling {names : List Text} (h : ∀ n ∈ names, Plain n) (trailing : Bool) (attempt : Nat) :
    location (numberedSibling (render names trailing) attempt) =
      names.dropLast ++ [names.getLast?.getD [] ++ numberSuffix attempt] := by
  have hSuffix (base : Text) : base ++ " (".toList ++ (toString attempt).toList ++ ")".toList =
      base ++ numberSuffix attempt := by simp [numberSuffix]
  rw [numberedSibling, hSuffix]
  obtain rfl | ⟨before, name, rfl⟩ := List.eq_nil_or_concat names
  · have hRoot : render [] trailing = ['/'] := by cases trailing <;> rfl
    have hDirectory : dirname ['/'] = ['/'] := by decide
    have hBase : basename ['/'] = [] := by decide
    rw [hRoot, hDirectory, hBase, location_join_plain rfl (plain_numbered List.not_mem_nil attempt)]
    rfl
  · rw [List.concat_eq_append] at h ⊢
    have hBefore : ∀ n ∈ before, Plain n := fun n hn => h n (List.mem_append_left _ hn)
    have hName : Plain name := h name (by simp)
    rw [dirname_render hBefore hName, basename_render hName,
      location_join_plain (isAbsolute_render _ _) (plain_numbered hName.no_separator attempt),
      location_render hBefore]
    simp

theorem location_numberedSibling_join (hParent : isAbsolute parent = true) (name : Text) (attempt : Nat) :
    location (numberedSibling (join parent name) attempt) = (location (join parent name)).dropLast ++
      [(location (join parent name)).getLast?.getD [] ++ numberSuffix attempt] := by
  obtain ⟨trailing, hRender⟩ := exists_join_eq_render hParent name
  conv_lhs => rw [hRender]
  exact location_numberedSibling (location_plain _) trailing attempt

variable {path : Text}

theorem isAbsolute_numberedSibling (h : isAbsolute path = true) (attempt : Nat) :
    isAbsolute (numberedSibling path attempt) = true := isAbsolute_join ((isAbsolute_dirname path).trans h) _

def StrictlyBelow (directory path : Text) : Prop := isAbsolute path = true ∧ ∃ rest, rest ≠ [] ∧ location path = location directory ++ rest

def AllBelow (directory : Text) (paths : List Text) : Prop := ∀ path ∈ paths, StrictlyBelow directory path

def AtOrBelow (directory path : Text) : Prop := isAbsolute path = true ∧ location directory <+: location path

variable {directory : Text}

theorem StrictlyBelow.length_lt (h : StrictlyBelow directory path) :
    (location directory).length < (location path).length := by
  obtain ⟨-, rest, hRest, hLocation⟩ := h
  rw [hLocation, List.length_append]
  have hPositive := List.length_pos_of_ne_nil hRest
  omega

theorem strictlyBelow_join (hParent : isAbsolute parent = true) (hName : Plain name) :
    StrictlyBelow parent (join parent name) :=
  ⟨isAbsolute_join hParent name, [name], List.cons_ne_nil name [], location_join_plain hParent hName⟩

theorem StrictlyBelow.child (h : StrictlyBelow directory path) (hName : Plain name) :
    StrictlyBelow directory (join path name) := by
  obtain ⟨hAbsolute, rest, -, hLocation⟩ := h
  refine ⟨isAbsolute_join hAbsolute name, rest ++ [name], by simp, ?_⟩
  rw [location_join_plain hAbsolute hName, hLocation, List.append_assoc]

theorem AtOrBelow.child (h : AtOrBelow directory path) (hName : Plain name) :
    AtOrBelow directory (join path name) := by
  refine ⟨isAbsolute_join h.1 name, ?_⟩
  rw [location_join_plain h.1 hName]
  exact h.2.trans (List.prefix_append _ _)

theorem strictlyBelow_numberedSibling (hParent : isAbsolute parent = true) (hName : Plain name) (attempt : Nat) :
    StrictlyBelow parent (numberedSibling (join parent name) attempt) := by
  refine ⟨isAbsolute_numberedSibling (isAbsolute_join hParent name) attempt, [name ++ numberSuffix attempt],
    List.cons_ne_nil _ _, ?_⟩
  rw [location_numberedSibling_join hParent, location_join_plain hParent hName]
  simp

section Confinement

/-- Any answers. A listing names entries, and the first one is that of the staging directory. With `targetStays`,
nothing from the root to the target directory is reported missing. -/
def answersWith (targetStays : Bool) (targetDirectory : Text) (entries : List SftpDirectoryEntry) :
    Program.Effect ArchiveAsk ArchiveAsk.Answer ArchiveError Bool := fun listed q answer listed' =>
  match q, answer with
  | .readdir _, .ok found =>
    (∀ entry ∈ found, Plain entry.filename) ∧ (listed = false → found = entries) ∧ listed' = true
  | .lstat path, .error error => listed' = listed ∧
    (targetStays = true → location path <+: location targetDirectory → isNoSuchFileError error = false)
  | _, _ => listed' = listed

def StaysBelow (stagingPath targetDirectory : Text) : ArchiveAsk → Prop
  | .rename sourcePath targetPath => AtOrBelow stagingPath sourcePath ∧ StrictlyBelow targetDirectory targetPath
  | .unlink path | .rmdir path => StrictlyBelow targetDirectory path ∨ AtOrBelow stagingPath path
  | .mkdir path _ => StrictlyBelow targetDirectory path
  | _ => True

def ExtractionConfined (targetStays : Bool) (depth : Nat) (stagingPath targetDirectory archivePath : Text)
    (destinationMode : ArchiveDestinationMode) (entries : List SftpDirectoryEntry) : Prop :=
  Program.Safe (answersWith targetStays targetDirectory entries) (fun _ q => StaysBelow stagingPath targetDirectory q)
    (fun outcome _ => ∀ paths, outcome = .ok paths → AllBelow targetDirectory paths)
    (commitExtractedEntries depth stagingPath targetDirectory archivePath destinationMode) false

variable {targetStays : Bool} {stagingPath targetDirectory : Text} {entries : List SftpDirectoryEntry}

variable (targetStays stagingPath targetDirectory entries) in
abbrev Confines {α : Type} (fact : α → Prop) (program : ArchiveProgram α) : Prop :=
  Program.Keeps (answersWith targetStays targetDirectory entries) (fun _ q => StaysBelow stagingPath targetDirectory q)
    (fun listed => listed = true) fact program

def anyValue {α : Type} (_ : α) : Prop := True

theorem answersWith_listed {q : ArchiveAsk} {answer : Except ArchiveError q.Answer} {listed listed' : Bool}
    (h : answersWith targetStays targetDirectory entries listed q answer listed') (hListed : listed = true) :
    listed' = true := by
  unfold answersWith at h
  split at h
  · exact h.2.2
  · exact h.1.trans hListed
  · exact h.trans hListed

theorem confines_ask {q : ArchiveAsk} (h : StaysBelow stagingPath targetDirectory q) :
    Confines targetStays stagingPath targetDirectory entries anyValue (ask q) := by
  intro listed hListed
  refine Program.Safe.request h fun answer listed' hAnswer => ?_
  exact ⟨answersWith_listed hAnswer hListed, fun _ _ => trivial⟩

theorem confines_readdir (path : Text) : Confines targetStays stagingPath targetDirectory entries
    (fun found => ∀ entry ∈ found, Plain entry.filename) (ask (.readdir path)) := by
  intro listed hListed
  refine Program.Safe.request (q := ArchiveAsk.readdir path) trivial fun answer listed' hAnswer => ?_
  refine ⟨answersWith_listed hAnswer hListed, ?_⟩
  rintro found rfl
  exact hAnswer.1

theorem confines_forEach {α γ : Type} {items : List γ} {body : γ → ArchiveProgram α}
    (h : ∀ x ∈ items, Confines targetStays stagingPath targetDirectory entries anyValue (body x)) :
    Confines targetStays stagingPath targetDirectory entries anyValue (Program.forEach body items) := Program.Keeps.forEach h

theorem confines_pathExists (path : Text) :
    Confines targetStays stagingPath targetDirectory entries anyValue (pathExists path) := by
  refine Program.Keeps.catchError (.bind (confines_ask (q := .lstat path) trivial) fun _ _ => .done trivial) ?_
  intro error
  split
  · exact .done trivial
  · exact .fail

variable {desiredPath : Text}

theorem confines_firstAvailable (h : ∀ attempt, StrictlyBelow targetDirectory (numberedSibling desiredPath attempt))
    (attempts : List Nat) :
    Confines targetStays stagingPath targetDirectory entries (StrictlyBelow targetDirectory)
      (firstAvailable desiredPath attempts) := by
  induction attempts with
  | nil => exact .fail
  | cons attempt attempts ih =>
    refine Program.Keeps.bind (confines_pathExists _) fun isTaken _ => ?_
    split
    · exact ih
    · exact .done (h attempt)

theorem confines_findAvailablePath (hTarget : isAbsolute targetDirectory = true) (hName : Plain name) :
    Confines targetStays stagingPath targetDirectory entries (StrictlyBelow targetDirectory)
      (findAvailablePath (join targetDirectory name)) := by
  refine Program.Keeps.bind (confines_pathExists _) fun isTaken _ => ?_
  split
  · exact confines_firstAvailable (strictlyBelow_numberedSibling hTarget hName) _
  · exact .done (strictlyBelow_join hTarget hName)

variable (depth : Nat)

theorem confines_removeRemoteTree (h : StrictlyBelow targetDirectory path ∨ AtOrBelow stagingPath path) :
    Confines targetStays stagingPath targetDirectory entries anyValue (removeRemoteTree depth path) := by
  induction depth generalizing path with
  | zero => exact .fail
  | succ depth ih =>
    rw [removeRemoteTree]
    refine Program.Keeps.bind (confines_ask (q := .lstat path) trivial).attempt fun stats _ => ?_
    cases stats with
    | error error =>
      simp only
      split
      · exact .done trivial
      · exact .fail
    | ok stats =>
      simp only
      split
      · exact confines_ask (q := .unlink path) h
      · refine Program.Keeps.bind (confines_readdir path) fun found hFound => ?_
        refine Program.Keeps.bind (confines_forEach fun entry hEntry => ?_)
          fun _ _ => confines_ask (q := .rmdir path) h
        exact ih (h.imp (·.child (hFound entry hEntry)) (·.child (hFound entry hEntry)))

theorem confines_mergeRemoteEntry {sourcePath targetPath : Text} (hSource : AtOrBelow stagingPath sourcePath)
    (hTarget : StrictlyBelow targetDirectory targetPath) :
    Confines targetStays stagingPath targetDirectory entries anyValue
      (mergeRemoteEntry depth sourcePath targetPath) := by
  have hActive : Confines targetStays stagingPath targetDirectory entries anyValue assertOperationActive := confines_ask trivial
  induction depth generalizing sourcePath targetPath with
  | zero => exact .fail
  | succ depth ih =>
    rw [mergeRemoteEntry]
    refine hActive.bind fun _ _ => ?_
    refine Program.Keeps.bind (confines_ask (q := .lstat sourcePath) trivial) fun sourceStats _ => ?_
    refine hActive.bind fun _ _ => ?_
    refine Program.Keeps.bind (confines_ask (q := .lstat targetPath) trivial) fun targetStats _ => ?_
    refine hActive.bind fun _ _ => ?_
    split
    · refine hActive.bind fun _ _ => ?_
      refine Program.Keeps.bind (confines_removeRemoteTree (depth + 1) (.inl hTarget)) fun _ _ => ?_
      exact confines_ask (q := .rename sourcePath targetPath) ⟨hSource, hTarget⟩
    · refine Program.Keeps.bind (confines_readdir sourcePath) fun found hFound => ?_
      refine hActive.bind fun _ _ => ?_
      refine Program.Keeps.bind (confines_forEach fun entry hEntry => ?_)
        fun _ _ => confines_ask (q := .rmdir sourcePath) (.inr hSource)
      have hName := hFound entry hEntry
      refine hActive.bind fun _ _ => ?_
      refine Program.Keeps.bind (confines_pathExists _) fun isTaken _ => ?_
      refine hActive.bind fun _ _ => ?_
      split
      · exact ih (hSource.child hName) (hTarget.child hName)
      · exact confines_ask (q := .rename _ _) ⟨hSource.child hName, hTarget.child hName⟩

theorem confines_moveStaging {resultPath : Text} (hStaging : isAbsolute stagingPath = true)
    (hResult : StrictlyBelow targetDirectory resultPath) :
    Confines targetStays stagingPath targetDirectory entries (AllBelow targetDirectory)
      (moveStaging stagingPath resultPath) := by
  refine Program.Keeps.bind (confines_ask (q := .assertOperationActive) trivial) fun _ _ => ?_
  refine Program.Keeps.bind (confines_ask (q := .rename stagingPath resultPath)
    ⟨⟨hStaging, List.prefix_rfl⟩, hResult⟩) fun _ _ => ?_
  refine Program.Keeps.bind (confines_ask (q := .deleteTemporaryPath stagingPath) trivial) fun _ _ => .done ?_
  simpa [AllBelow] using hResult

theorem confines_waitForConflicts (conflicts : List ArchiveConflict) :
    Confines targetStays stagingPath targetDirectory entries anyValue (waitForConflicts conflicts) := by
  refine Program.Keeps.bind (confines_ask (q := .beginConflicts conflicts) trivial) fun _ _ => ?_
  refine Program.Keeps.bind (confines_ask (q := .conflictDecision) trivial).attempt fun decision _ => ?_
  refine Program.Keeps.bind (confines_ask (q := .endConflicts) trivial) fun _ _ => ?_
  exact .ofExcept fun _ _ => trivial

theorem confines_commitAsDirectory (hStaging : isAbsolute stagingPath = true) (hTarget : isAbsolute targetDirectory = true)
    (hName : Plain name) :
    Confines targetStays stagingPath targetDirectory entries (AllBelow targetDirectory)
      (commitAsDirectory depth stagingPath (join targetDirectory name)) := by
  have hResult := strictlyBelow_join hTarget hName
  have hActive : Confines targetStays stagingPath targetDirectory entries anyValue assertOperationActive := confines_ask trivial
  refine Program.Keeps.bind (confines_pathExists _) fun isTaken _ => ?_
  split
  · exact confines_moveStaging hStaging hResult
  · refine hActive.bind fun _ _ => ?_
    refine Program.Keeps.bind (confines_waitForConflicts _) fun resolution _ => ?_
    cases resolution with
    | cancel => exact .fail
    | keepBoth =>
      exact Program.Keeps.bind (confines_findAvailablePath hTarget hName) fun _ hPath =>
        confines_moveStaging hStaging hPath
    | overwrite =>
      refine hActive.bind fun _ _ => ?_
      refine Program.Keeps.bind (confines_mergeRemoteEntry depth ⟨hStaging, List.prefix_rfl⟩ hResult) fun _ _ => ?_
      refine Program.Keeps.bind (confines_ask (q := .deleteTemporaryPath stagingPath) trivial) fun _ _ => .done ?_
      simpa [AllBelow] using hResult

theorem confines_findConflict (entry : SftpDirectoryEntry) : Confines targetStays stagingPath targetDirectory entries
    anyValue (findConflict stagingPath targetDirectory entry) := by
  refine Program.Keeps.bind (confines_ask (q := .assertOperationActive) trivial) fun _ _ => ?_
  refine Program.Keeps.bind (confines_pathExists _) fun isTaken _ => ?_
  exact Program.Keeps.bind (confines_ask (q := .assertOperationActive) trivial) fun _ _ => .done trivial

theorem confines_commitEntry (resolution : ArchiveConflictResolution) {entry : SftpDirectoryEntry}
    (hStaging : isAbsolute stagingPath = true) (hTarget : isAbsolute targetDirectory = true) (hName : Plain entry.filename) :
    Confines targetStays stagingPath targetDirectory entries (StrictlyBelow targetDirectory)
      (commitEntry depth stagingPath targetDirectory resolution entry) := by
  have hSource : AtOrBelow stagingPath (join stagingPath entry.filename) := AtOrBelow.child ⟨hStaging, List.prefix_rfl⟩ hName
  have hDesired := strictlyBelow_join hTarget hName
  have hActive : Confines targetStays stagingPath targetDirectory entries anyValue assertOperationActive := confines_ask trivial
  refine hActive.bind fun _ _ => ?_
  refine Program.Keeps.bind (confines_pathExists _) fun isTaken _ => ?_
  split
  · refine hActive.bind fun _ _ => ?_
    exact Program.Keeps.bind (confines_ask (q := .rename _ _) ⟨hSource, hDesired⟩) fun _ _ => .done hDesired
  · split
    · refine Program.Keeps.bind (confines_findAvailablePath hTarget hName) fun uniquePath hUnique => ?_
      refine hActive.bind fun _ _ => ?_
      exact Program.Keeps.bind (confines_ask (q := .rename _ _) ⟨hSource, hUnique⟩) fun _ _ => .done hUnique
    · refine hActive.bind fun _ _ => ?_
      exact Program.Keeps.bind (confines_mergeRemoteEntry depth hSource hDesired) fun _ _ => .done hDesired

theorem confines_chosen (hStaging : isAbsolute stagingPath = true) (hTarget : isAbsolute targetDirectory = true)
    {found : List SftpDirectoryEntry} (hFound : ∀ entry ∈ found, Plain entry.filename)
    (resolution : ArchiveConflictResolution) :
    Confines targetStays stagingPath targetDirectory entries (AllBelow targetDirectory)
      (if resolution = .cancel then throw .cancelled
      else do
        let resultPaths ← Program.forEach (commitEntry depth stagingPath targetDirectory resolution) found
        removeRemoteTree depth stagingPath
        let _ ← ask (.deleteTemporaryPath stagingPath)
        pure resultPaths) := by
  split
  · exact .fail
  · refine Program.Keeps.bind (.forEachResult fun entry hEntry =>
      confines_commitEntry depth resolution hStaging hTarget (hFound entry hEntry)) fun paths hPaths => ?_
    refine Program.Keeps.bind (confines_removeRemoteTree depth (.inr ⟨hStaging, List.prefix_rfl⟩)) fun _ _ => ?_
    exact Program.Keeps.bind (confines_ask (q := .deleteTemporaryPath stagingPath) trivial) fun _ _ => .done hPaths

theorem confines_commitEach (hStaging : isAbsolute stagingPath = true) (hTarget : isAbsolute targetDirectory = true)
    {found : List SftpDirectoryEntry} (hFound : ∀ entry ∈ found, Plain entry.filename) :
    Confines targetStays stagingPath targetDirectory entries (AllBelow targetDirectory)
      (commitEach depth stagingPath targetDirectory found) := by
  refine Program.Keeps.bind (.forEach fun entry _ => confines_findConflict entry) fun conflicts _ => ?_
  simp only
  split
  · refine confines_chosen depth hStaging hTarget hFound .overwrite
  · exact Program.Keeps.bind (confines_waitForConflicts _) fun resolution _ =>
      confines_chosen depth hStaging hTarget hFound resolution

def makesDirectory (destinationMode : ArchiveDestinationMode) (entries : List SftpDirectoryEntry) : Prop :=
  (destinationMode = .smart ∧ entries.length ≠ 1) ∨ destinationMode = .archiveNameDirectory

instance (destinationMode : ArchiveDestinationMode) (entries : List SftpDirectoryEntry) :
    Decidable (makesDirectory destinationMode entries) := inferInstanceAs (Decidable (_ ∨ _))

theorem mem_stripArchiveExtension {c : Char} (hMem : c ∈ stripArchiveExtension name) :
    c ∈ name ∨ c ∈ "archive".toList := by
  rw [stripArchiveExtension] at hMem
  split at hMem
  · exact .inl hMem
  · split at hMem
    · exact .inl hMem
    · simp only at hMem
      split at hMem
      · exact .inr hMem
      · exact .inl (List.mem_of_mem_take hMem)

theorem not_mem_archiveDirectoryName (archivePath : Text) : '/' ∉ stripArchiveExtension (basename archivePath) := by
  intro hMem
  obtain hMem | hMem := mem_stripArchiveExtension hMem
  · exact not_mem_basename archivePath hMem
  · exact absurd hMem (by decide)

theorem plain_archiveDirectoryName_iff (archivePath : Text) :
    Plain (stripArchiveExtension (basename archivePath)) ↔
      stripArchiveExtension (basename archivePath) ∉ [[], ".".toList, "..".toList] := by
  simp only [List.mem_cons, List.not_mem_nil, or_false, not_or]
  constructor
  · exact fun h => ⟨h.nonempty, h.not_dot, h.not_dotdot⟩
  · rintro ⟨hNonempty, hDot, hUp⟩
    exact ⟨hNonempty, hDot, hUp, not_mem_archiveDirectoryName archivePath⟩

theorem extractionConfined_of_plain (archivePath : Text) (destinationMode : ArchiveDestinationMode)
    (hStaging : isAbsolute stagingPath = true) (hTarget : isAbsolute targetDirectory = true)
    (hName : makesDirectory destinationMode entries → Plain (stripArchiveExtension (basename archivePath))) :
    ExtractionConfined targetStays depth stagingPath targetDirectory archivePath destinationMode entries := by
  refine ⟨trivial, ?_⟩
  rintro (error | _) listed hActive
  · exact nofun
  have hUnlisted : listed = false := hActive
  refine ⟨trivial, ?_⟩
  rintro (error | found) listed' hListing
  · exact nofun
  obtain ⟨hFound, hSame, hListed⟩ := hListing
  rw [hSame hUnlisted] at hFound ⊢
  refine Program.Keeps.reports (Program.Keeps.bind (confines_ask (q := .assertOperationActive) trivial)
    fun _ _ => ?_) hListed
  simp only
  split
  · rename_i hSmart
    exact Program.Keeps.bind (confines_findAvailablePath hTarget (hName (.inl hSmart))) fun _ hPath =>
      confines_moveStaging hStaging hPath
  · split
    · rename_i hNamed
      exact confines_commitAsDirectory depth hStaging hTarget (hName (.inr hNamed))
    · exact confines_commitEach depth hStaging hTarget hFound

section Leaving

variable {α : Type} {after : Except ArchiveError α → Bool → Prop} {listed : Bool}

variable (targetStays stagingPath targetDirectory entries) in
abbrev Admits (after : Except ArchiveError α → Bool → Prop) (program : ArchiveProgram α) (listed : Bool) : Prop :=
  Program.Safe (answersWith targetStays targetDirectory entries) (fun _ q => StaysBelow stagingPath targetDirectory q)
    after program listed

def noSuchFile : ArchiveError := .remote (some (.number 2)) []

theorem isNoSuchFileError_noSuchFile : isNoSuchFileError noSuchFile = true := by
  simp [isNoSuchFileError, noSuchFile]

theorem admits_pathExists {next : Bool → ArchiveProgram α}
    (h : Admits targetStays stagingPath targetDirectory entries after ((pathExists path).bind next) listed) :
    Admits targetStays stagingPath targetDirectory entries after (next true) listed ∧
      ((targetStays = true → ¬ location path <+: location targetDirectory) →
        Admits targetStays stagingPath targetDirectory entries after (next false) listed) := by
  obtain ⟨-, hResume⟩ := h
  refine ⟨hResume (.ok ⟨none, none, none, none, none, none⟩) listed rfl, fun hFree => ?_⟩
  have hMissing := hResume (.error noSuchFile) listed ⟨rfl, fun hStays hAbove => absurd hAbove (hFree hStays)⟩
  have hHandler : (if isNoSuchFileError noSuchFile = true then pure false else throw noSuchFile : ArchiveProgram Bool) =
      pure false := if_pos isNoSuchFileError_noSuchFile
  change Program.Safe _ _ _ ((if isNoSuchFileError noSuchFile = true then pure false else throw noSuchFile :
    ArchiveProgram Bool).bind next) _ at hMissing
  rw [hHandler] at hMissing
  exact hMissing

theorem admits_firstAvailable {next : Text → ArchiveProgram α} {attempts : List Nat}
    (hFree : ∃ attempt ∈ attempts, targetStays = true →
      ¬ location (numberedSibling desiredPath attempt) <+: location targetDirectory)
    (h : Admits targetStays stagingPath targetDirectory entries after
      ((firstAvailable desiredPath attempts).bind next) listed) :
    ∃ attempt, Admits targetStays stagingPath targetDirectory entries after
      (next (numberedSibling desiredPath attempt)) listed := by
  induction attempts with
  | nil => simp at hFree
  | cons attempt attempts ih =>
    rw [firstAvailable, Program.bind_eq, Program.bind_assoc] at h
    obtain ⟨hFound, hMissing⟩ := admits_pathExists h
    obtain ⟨free, hMem, hFree⟩ := hFree
    obtain rfl | hMem := List.mem_cons.mp hMem
    · exact ⟨free, hMissing hFree⟩
    · exact ih ⟨free, hMem, hFree⟩ hFound

theorem admits_findAvailablePath {next : Text → ArchiveProgram α} (hFree : ∃ attempt ∈ List.range' 2 9998, targetStays = true →
      ¬ location (numberedSibling desiredPath attempt) <+: location targetDirectory)
    (h : Admits targetStays stagingPath targetDirectory entries after
      ((findAvailablePath desiredPath).bind next) listed) :
    ∃ attempt, Admits targetStays stagingPath targetDirectory entries after
      (next (numberedSibling desiredPath attempt)) listed := by
  rw [findAvailablePath, Program.bind_eq, Program.bind_assoc] at h
  exact admits_firstAvailable hFree (admits_pathExists h).1

theorem strictlyBelow_of_admits_moveStaging {after : Except ArchiveError (List Text) → Bool → Prop}
    {resultPath : Text}
    (h : Admits targetStays stagingPath targetDirectory entries after (moveStaging stagingPath resultPath) listed) :
    StrictlyBelow targetDirectory resultPath := (h.2 (.ok ()) listed rfl).1.2

end Leaving

theorem exists_free_sibling (targetStays : Bool) (hParent : isAbsolute parent = true) (name target : Text) :
    ∃ attempt ∈ List.range' 2 9998, targetStays = true →
      ¬ location (numberedSibling (join parent name) attempt) <+: location target := by
  by_cases hSecond : location (numberedSibling (join parent name) 2) <+: location target
  · refine ⟨3, by simp, fun _ hThird => ?_⟩
    rw [location_numberedSibling_join hParent] at hSecond hThird
    have hPrefix := List.prefix_of_prefix_length_le hSecond hThird (by simp)
    have hSame := hPrefix.eq_of_length (by simp)
    simp only [List.append_cancel_left_eq, List.cons.injEq, and_true] at hSame
    exact absurd hSame (by decide)
  · exact ⟨2, by simp, fun _ => hSecond⟩

theorem not_strictlyBelow_numberedSibling (hDirectory : isAbsolute directory = true) (hRoot : location directory ≠ [])
    (hSeparator : '/' ∉ name) (hName : ¬ Plain name) (attempt : Nat) :
    ¬ StrictlyBelow directory (numberedSibling (join directory name) attempt) := by
  intro hBelow
  have hLength := hBelow.length_lt
  have hDesired := length_location_join_le hDirectory hSeparator hName
  have hPositive := List.length_pos_of_ne_nil hRoot
  rw [location_numberedSibling_join hDirectory, List.length_append, List.length_dropLast,
    List.length_singleton] at hLength
  omega

theorem plain_of_extractionConfined {archivePath : Text} {destinationMode : ArchiveDestinationMode}
    (hTarget : isAbsolute targetDirectory = true) (hRoot : location targetDirectory ≠ [])
    (hEntries : ∀ entry ∈ entries, Plain entry.filename) (hMakes : makesDirectory destinationMode entries)
    (h : ExtractionConfined targetStays depth stagingPath targetDirectory archivePath destinationMode entries) :
    Plain (stripArchiveExtension (basename archivePath)) := by
  by_contra hName
  have hSeparator := not_mem_archiveDirectoryName archivePath
  generalize hDirectory : stripArchiveExtension (basename archivePath) = directoryName at hName hSeparator
  have hFree := exists_free_sibling targetStays hTarget directoryName targetDirectory
  have hListed := (h.2 (.ok ()) false rfl).2 (.ok entries) true ⟨hEntries, fun _ => rfl, rfl⟩
  have hRest := hListed.2 (.ok ()) true rfl
  have hMoved : ∃ attempt, StrictlyBelow targetDirectory
      (numberedSibling (join targetDirectory directoryName) attempt) := by
    change Admits targetStays stagingPath targetDirectory entries _ (if _ then _ else if _ then _ else _) true at hRest
    rw [hDirectory] at hRest
    by_cases hSmart : destinationMode = .smart ∧ entries.length ≠ 1
    · rw [if_pos hSmart] at hRest
      obtain ⟨attempt, hMove⟩ := admits_findAvailablePath hFree hRest
      exact ⟨attempt, strictlyBelow_of_admits_moveStaging hMove⟩
    · rw [if_neg hSmart, if_pos (hMakes.resolve_left hSmart)] at hRest
      have hTaken := (admits_pathExists hRest).1
      have hDecided := ((hTaken.2 (.ok ()) true rfl).2 (.ok ()) true rfl).2 (.ok .keepBoth) true rfl
      obtain ⟨attempt, hMove⟩ := admits_findAvailablePath hFree (hDecided.2 (.ok ()) true rfl)
      exact ⟨attempt, strictlyBelow_of_admits_moveStaging hMove⟩
  obtain ⟨attempt, hBelow⟩ := hMoved
  exact not_strictlyBelow_numberedSibling hTarget hRoot hSeparator hName attempt hBelow

end Confinement

end Sftp.Archive

namespace Sftp

open Library Library.PosixPath Archive

theorem extraction_stays_below_iff (targetStays : Bool) (depth : Nat) {stagingPath targetDirectory : Text}
    (archivePath : Text) (destinationMode : ArchiveDestinationMode) {entries : List SftpDirectoryEntry}
    (hStaging : isAbsolute stagingPath = true) (hTarget : isAbsolute targetDirectory = true)
    (hRoot : location targetDirectory ≠ []) (hEntries : ∀ entry ∈ entries, Plain entry.filename) :
    ExtractionConfined targetStays depth stagingPath targetDirectory archivePath destinationMode entries ↔
      (makesDirectory destinationMode entries →
        stripArchiveExtension (basename archivePath) ∉ [[], ".".toList, "..".toList]) := by
  constructor
  · intro h hMakes
    exact (plain_archiveDirectoryName_iff archivePath).mp
      (plain_of_extractionConfined depth hTarget hRoot hEntries hMakes h)
  · intro h
    exact extractionConfined_of_plain depth archivePath destinationMode hStaging hTarget fun hMakes =>
      (plain_archiveDirectoryName_iff archivePath).mpr (h hMakes)

theorem named_archive_stays_below : ExtractionConfined true 0 "/h/t/.cosmosh-u".toList "/h/t".toList "/h/a.zip".toList
    .smart [] :=
  (extraction_stays_below_iff true 0 _ .smart (by decide) (by decide) (by decide) (by simp)).mpr
    fun _ => by decide

def emptyArchiveHost : Bool → (q : ArchiveAsk) → Except ArchiveError q.Answer × Bool
  | listed, .lstat path =>
    (if location path <+: location "/h/t".toList then .ok ⟨some 0o040755, none, none, none, none, none⟩
      else .error Archive.noSuchFile, listed)
  | _, .readdir _ => (.ok [], true)
  | listed, .assertOperationActive => (.ok (), listed)
  | listed, .rename _ _ => (.ok (), listed)
  | listed, .deleteTemporaryPath _ => (.ok (), listed)
  | listed, _ => (.error .cancelled, listed)

theorem answersWith_emptyArchiveHost (listed : Bool) (q : ArchiveAsk) :
    answersWith true "/h/t".toList [] listed q (emptyArchiveHost listed q).1 (emptyArchiveHost listed q).2 := by
  cases q with
  | lstat path =>
    by_cases hAbove : location path <+: location "/h/t".toList
    · have hAnswer : emptyArchiveHost listed (.lstat path) =
          (.ok ⟨some 0o040755, none, none, none, none, none⟩, listed) := by
        rw [emptyArchiveHost, if_pos hAbove]
      rw [hAnswer]
      rfl
    · have hAnswer : emptyArchiveHost listed (.lstat path) = (.error Archive.noSuchFile, listed) := by
        rw [emptyArchiveHost, if_neg hAbove]
      rw [hAnswer]
      exact ⟨rfl, fun _ h => absurd h hAbove⟩
  | readdir path => exact ⟨by simp, fun _ => rfl, rfl⟩
  | _ => rfl

theorem dotdot_archive_leaves_target : ¬ ExtractionConfined true 0 "/h/t/.cosmosh-u".toList "/h/t".toList
    "/h/...zip".toList .smart [] := by
  intro h
  have hReported := h.run answersWith_emptyArchiveHost ["/h (2)".toList] (by decide) _ List.mem_cons_self
  exact absurd hReported.length_lt (by decide)

end Sftp
