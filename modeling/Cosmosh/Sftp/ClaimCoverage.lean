import Cosmosh.Sftp.RemoteFootprint

/-! # Scheduled work stays within its claims

Every remote path touched on behalf of a task or of a coordinated method lies at or below one of the claims the work was
scheduled with, provided that no path normalized a second time begins or ends in white space.
-/

namespace Sftp

open Library Library.JsText Library.PosixPath

structure Anchors (claim path : Text) : Prop where
  covers : Covers claim path
  relative : isAbsolute path = false → ∀ other, Covers claim other

theorem covers_root (path : Text) : Covers "/".toList path := fun _ => List.nil_prefix

theorem anchors_of_payload (raw : Text) : Anchors (normalizeSftpTaskClaimPath raw) (normalizeSftpPathInput (some raw)) :=
  ⟨covers_of_payload raw, covers_of_relative⟩

theorem anchors_of_normalized {p : Text} (hTrim : trim p = p) (hBackslash : '\\' ∉ p) : Anchors (normalizeSftpTaskClaimPath p) p := by
  refine ⟨covers_of_normalized hTrim hBackslash, fun hRelative other => ?_⟩
  rw [normalizeSftpTaskClaimPath_of_relative (by rwa [hTrim, replaceChar_of_not_mem hBackslash])]
  exact covers_root other

theorem exists_render {input : Option Text} (h : isAbsolute (normalizeSftpPathInput input) = true) :
    ∃ names trailing, (∀ n ∈ names, Plain n) ∧ normalizeSftpPathInput input = render names trailing := by
  cases input with
  | none => cases h
  | some raw =>
    rw [isAbsolute_normalizeSftpPathInput] at h
    rw [normalizeSftpPathInput_of_absolute h, normalize_of_absolute h]
    exact ⟨_, _, location_plain _, rfl⟩

theorem exists_entry {input : Option Text} (h : isAbsolute (normalizeSftpPathInput input) = true)
    (hMutable : isMutableSftpEntryPath (normalizeSftpPathInput input) = true) :
    ∃ directory name trailing, (∀ n ∈ directory, Plain n) ∧ Plain name ∧
      normalizeSftpPathInput input = render (directory ++ [name]) trailing := by
  obtain ⟨names, trailing, hPlain, hRender⟩ := exists_render h
  obtain rfl | ⟨directory, name, rfl⟩ := List.eq_nil_or_concat names
  · rw [hRender] at hMutable
    cases trailing <;> exact absurd hMutable (by decide)
  · rw [List.concat_eq_append] at hPlain hRender
    exact ⟨directory, name, trailing, fun n hn => hPlain n (List.mem_append_left _ hn),
      hPlain name (List.mem_append_right _ List.mem_cons_self), hRender⟩

theorem joinSftpPath_of_absolute {parent : Text} (h : isAbsolute parent = true) {name : Text} (hName : Plain name) :
    joinSftpPath parent name = render (location parent ++ [name]) false := by
  by_cases hRoot : parent = "/".toList
  · rw [hRoot, joinSftpPath_root]
    exact show PosixPath.normalize ([] ++ '/' :: name) = render (location [] ++ [name]) false from
      normalize_append_plain rfl hName
  · rw [joinSftpPath_eq_normalize hRoot, normalize_append_plain _ hName]
    obtain ⟨rest, rfl⟩ := (isAbsolute_iff parent).mp h
    rfl

theorem covers_copyCandidate {claim : Text} {directory : List Text} {name : Text}
    (hDirectory : ∀ n ∈ directory, Plain n) (hName : Plain name) (h : location claim <+: directory) (trailing : Bool) (attempt : Nat) :
    Covers claim (buildSftpCopyTargetCandidate (render (directory ++ [name]) trailing) attempt) := by
  intro home
  obtain ⟨sibling, -, hSibling⟩ := copyCandidate_sibling hDirectory hName trailing attempt
  rw [hSibling home]
  exact h.trans (List.prefix_append _ _)

theorem covers_siblings {claim : Text} {requestedPath : Option Text}
    (hMutable : isMutableSftpEntryPath (normalizeSftpPathInput requestedPath) = true)
    (h : Anchors claim (dirname (normalizeSftpPathInput requestedPath))) (attempt : Nat) :
    Covers claim (buildSftpCopyTargetCandidate (normalizeSftpPathInput requestedPath) attempt) := by
  cases hAbsolute : isAbsolute (normalizeSftpPathInput requestedPath) with
  | false => exact h.relative (by rw [isAbsolute_dirname, hAbsolute]) _
  | true =>
    obtain ⟨directory, name, trailing, hDirectory, hName, hRender⟩ := exists_entry hAbsolute hMutable
    have hCovers := h.covers []
    rw [hRender, dirname_render hDirectory hName, resolveFrom_of_absolute (isAbsolute_render _ _),
      location_render hDirectory] at hCovers
    rw [hRender]
    exact covers_copyCandidate hDirectory hName hCovers trailing attempt

theorem covers_batchTarget {sourceClaim directoryClaim : Text} {source : Option Text} {directory : Option Text}
    (hSource : Anchors sourceClaim (normalizeSftpPathInput source)) (hMutable : isMutableSftpEntryPath (normalizeSftpPathInput source) = true)
    (hDirectory : Anchors directoryClaim (normalizeSftpPathInput directory))
    (hTrim : trim (joinSftpPath (normalizeSftpPathInput directory) (basename (normalizeSftpPathInput source))) =
      joinSftpPath (normalizeSftpPathInput directory) (basename (normalizeSftpPathInput source))) (attempt : Nat) :
    (∀ other, Covers sourceClaim other) ∨ Covers directoryClaim (buildSftpCopyTargetCandidate (normalizeSftpPathInput
      (some (joinSftpPath (normalizeSftpPathInput directory) (basename (normalizeSftpPathInput source))))) attempt) := by
  cases hSourceAbsolute : isAbsolute (normalizeSftpPathInput source) with
  | false => exact .inl (hSource.relative hSourceAbsolute)
  | true =>
    right
    cases hAbsolute : isAbsolute (normalizeSftpPathInput directory) with
    | false => exact hDirectory.relative hAbsolute _
    | true =>
      obtain ⟨names, name, trailing, hNames, hName, hRender⟩ := exists_entry hSourceAbsolute hMutable
      have hBase : basename (normalizeSftpPathInput source) = name := by rw [hRender, basename_render hName]
      have hJoin := joinSftpPath_of_absolute hAbsolute hName
      have hPlain := all_plain_concat (location_plain (normalizeSftpPathInput directory)) hName
      have hBackslash : '\\' ∉ joinSftpPath (normalizeSftpPathInput directory) name := by
        refine not_mem_joinSftpPath (not_mem_normalizeSftpPathInput directory) ?_
        exact hBase ▸ fun hMem => not_mem_normalizeSftpPathInput source (mem_basename hMem)
      rw [hBase] at hTrim ⊢
      have hSame : normalizeSftpPathInput (some (joinSftpPath (normalizeSftpPathInput directory) name)) =
          render (location (normalizeSftpPathInput directory) ++ [name])
            (hasTrailingSeparator (joinSftpPath (normalizeSftpPathInput directory) name)) := by
        have hRewritten : replaceChar '\\' '/' (trim (joinSftpPath (normalizeSftpPathInput directory) name)) =
            joinSftpPath (normalizeSftpPathInput directory) name := by
          rw [hTrim, replaceChar_of_not_mem hBackslash]
        have hJoined : isAbsolute (joinSftpPath (normalizeSftpPathInput directory) name) = true := by
          rw [hJoin, isAbsolute_render]
        rw [normalizeSftpPathInput_of_absolute (by rwa [hRewritten]), hRewritten, normalize_of_absolute hJoined, hJoin,
          location_render hPlain]
      rw [hSame]
      have hCovers := hDirectory.covers []
      rw [resolveFrom_of_absolute hAbsolute] at hCovers
      exact covers_copyCandidate (location_plain _) hName hCovers _ attempt

variable {input : RunSftpBatchOperationInput}

section Reserved

variable {collation : Collation} {rawClaims : List Text} {exempt : List Text → Text → Prop} {required : List Text}

def Allowed (claims : List Text) (exempt : List Text → Text → Prop) (pointed : List Text) (path : Text) : Prop :=
  (∃ c ∈ claims, Covers c path) ∨ exempt pointed path

theorem reserves_of_covers {raw path : Text} (hRaw : raw ∈ rawClaims)
    (hCovers : Covers (normalizeSftpTaskClaimPath raw) path) (hNonempty : path ≠ []) :
    Reserves (Allowed (normalizeSftpTaskClaims collation rawClaims) exempt) required path := by
  obtain ⟨c, hc, hPrefix⟩ := normalizeSftpTaskClaims_covers collation rawClaims hRaw
  refine ⟨hNonempty, fun pointed _ other hBelow => .inl ⟨c, hc, fun home => ?_⟩⟩
  exact hPrefix.trans ((hCovers home).trans (hBelow home))

theorem reserves_of_anchors {raw : Text} {path : Option Text} (hRaw : raw ∈ rawClaims)
    (h : Anchors (normalizeSftpTaskClaimPath raw) (normalizeSftpPathInput path)) :
    Reserves (Allowed (normalizeSftpTaskClaims collation rawClaims) exempt) required (normalizeSftpPathInput path) :=
  reserves_of_covers hRaw h.covers (normalizeSftpPathInput_ne_nil path)

theorem copyCandidate_ne_nil {target : Text} (h : target ≠ []) (attempt : Nat) : buildSftpCopyTargetCandidate target attempt ≠ [] := by
  simp only [buildSftpCopyTargetCandidate]
  split
  · exact h
  · split
    · simp
    · exact joinSftpPath_ne_nil _ _

def batchNormalizedAgain (input : RunSftpBatchOperationInput) : List Text :=
  (input.entries.map fun entry => normalizeSftpPathInput (some entry.path)) ++
    if input.operation = .delete then []
    else (batchTarget input).toList.flatMap fun targetDirectoryPath =>
      input.entries.map fun entry =>
        joinSftpPath targetDirectoryPath (basename (normalizeSftpPathInput (some entry.path)))

theorem within_batch {session : SftpLiveSession} (depth : Nat) (hTrim : ∀ path ∈ batchNormalizedAgain input, trim path = path)
    (hEntries : ∀ entry ∈ input.entries, ∃ raw ∈ rawClaims, Anchors (normalizeSftpTaskClaimPath raw) (normalizeSftpPathInput (some entry.path)))
    (hDirectory : ∀ directory, input.targetDirectoryPath.filter (· ≠ []) = some directory → ∃ raw ∈ rawClaims,
      Anchors (normalizeSftpTaskClaimPath raw) (normalizeSftpPathInput (some directory))) :
    Within (Allowed (normalizeSftpTaskClaims collation rawClaims) exempt) [] anything (runBatchOperationPrimitive session depth input) := by
  refine within_runBatchOperationPrimitive depth input fun entry hEntry hMutable hTarget => ?_
  obtain ⟨raw, hRaw, hAnchors⟩ := hEntries entry hEntry
  have hEntryTrim : trim (normalizeSftpPathInput (some entry.path)) = normalizeSftpPathInput (some entry.path) :=
    hTrim _ (List.mem_append_left _ (List.mem_map_of_mem hEntry))
  have hAgain : ∀ home, resolveFrom home (normalizeSftpPathInput (some (normalizeSftpPathInput (some entry.path)))) =
      resolveFrom home (normalizeSftpPathInput (some entry.path)) := fun home =>
    resolveFrom_normalizeSftpPathInput hEntryTrim (not_mem_normalizeSftpPathInput _)
      (normalizeSftpPathInput_ne_nil _) home
  refine within_runSingleBatchEntryOperation depth input.operation _ _ ?_ ?_
  · exact reserves_of_covers hRaw (fun home => hAgain home ▸ hAnchors.covers home) (normalizeSftpPathInput_ne_nil _)
  · intro hOperation attempt
    cases hFilter : input.targetDirectoryPath.filter (· ≠ []) with
    | none => exact absurd (by rw [batchTarget, hFilter]; rfl) (hTarget hOperation)
    | some directory =>
      have hBatchTarget : batchTarget input = some (normalizeSftpPathInput (some directory)) := by
        rw [batchTarget, hFilter]
        rfl
      obtain ⟨rawDirectory, hRawDirectory, hDirectoryAnchors⟩ := hDirectory directory hFilter
      have hTargetTrim := hTrim (joinSftpPath (normalizeSftpPathInput (some directory))
        (basename (normalizeSftpPathInput (some entry.path)))) (by
          rw [batchNormalizedAgain, if_neg hOperation, hBatchTarget]
          exact List.mem_append_right _ (List.mem_flatMap.mpr ⟨_, List.mem_singleton.mpr rfl,
            List.mem_map.mpr ⟨entry, hEntry, rfl⟩⟩))
      rw [hBatchTarget]
      have hNonempty := copyCandidate_ne_nil (normalizeSftpPathInput_ne_nil (some (joinSftpPath
        (normalizeSftpPathInput (some directory)) (basename (normalizeSftpPathInput (some entry.path)))))) attempt
      obtain hAll | hSibling := covers_batchTarget hAnchors hMutable hDirectoryAnchors hTargetTrim attempt
      · exact reserves_of_covers hRaw (hAll _) hNonempty
      · exact reserves_of_covers hRawDirectory hSibling hNonempty

end Reserved

inductive SftpMethod
  | listDirectory (requestedPath : Option Text)
  | getEntryDetails (requestedPaths : List Text)
  | readFilePreview (requestedPath : Option Text) (requestedMaxBytes : Option Nat)
  | writeTextFile (requestedPath : Option Text) (content : Bytes)
      (expectedRemoteSnapshot : UploadSftpFileConflictSnapshot) (overwrite : Bool)
  | downloadFile (requestedPath localPath : Option Text)
  | uploadFile (requestedPath localPath : Option Text)
      (expectedRemoteSnapshot : Option UploadSftpFileConflictSnapshot) (overwrite : Bool)
  | createFile (requestedPath : Option Text)
  | createDirectory (requestedPath : Option Text)
  | renameEntry (requestedSourcePath requestedTargetPath : Option Text)
  | copyEntry (requestedSourcePath requestedTargetPath : Option Text)
  | deleteEntry (requestedPath : Option Text) (recursive : Bool)
  | runBatchOperation (input : RunSftpBatchOperationInput)

abbrev SftpMethod.Data : SftpMethod → Type
  | .listDirectory _ => SftpDirectoryListing
  | .getEntryDetails _ => SftpEntryDetails
  | .readFilePreview .. => SftpFilePreview
  | .downloadFile .. => SftpFileDownload
  | .runBatchOperation _ => SftpBatchOperationData
  | _ => SftpOperationData

structure Execution where
  runtime : Runtime
  depth : Nat

variable (session : SftpLiveSession) (collation : Collation)

def SftpMethod.coordinated (execution : Execution) : (method : SftpMethod) → CoordinatedOperation method.Data
  | .listDirectory path => Sftp.listDirectory session collation path
  | .getEntryDetails paths => Sftp.getEntryDetails session paths
  | .readFilePreview path maxBytes => Sftp.readFilePreview session path maxBytes
  | .writeTextFile path content expected overwrite =>
    Sftp.writeTextFile session execution.runtime path content expected overwrite
  | .downloadFile path localPath => Sftp.downloadFile session path localPath
  | .uploadFile path localPath expected overwrite =>
    Sftp.uploadFile session execution.runtime path localPath expected overwrite
  | .createFile path => Sftp.createFile session path
  | .createDirectory path => Sftp.createDirectory session path
  | .renameEntry source target => Sftp.renameEntry session source target
  | .copyEntry source target => Sftp.copyEntry session execution.depth source target
  | .deleteEntry path recursive => Sftp.deleteEntry session execution.depth path recursive
  | .runBatchOperation input => Sftp.runBatchOperation session execution.depth input

inductive ScheduledWork
  | task (request : ApiSftpStartTaskRequest)
  | method (call : SftpMethod)

namespace ScheduledWork

abbrev Result : ScheduledWork → Type
  | task _ => SftpTaskRunOutcome ApiSftpTaskResult
  | method call => SftpResult call.Data

def program (execution : Execution) : (work : ScheduledWork) → SftpProgram work.Result
  | task request => executeTaskRequest session execution.runtime execution.depth request
  | method call => (call.coordinated session collation execution).run

def rawClaims (execution : Execution) : ScheduledWork → List Text
  | task request => resolveTaskRemotePaths request
  | method call => (call.coordinated session collation execution).claims

def claims (execution : Execution) (work : ScheduledWork) : List Text :=
  normalizeSftpTaskClaims collation (work.rawClaims session collation execution)

def normalizedAgain (execution : Execution) : ScheduledWork → List Text
  | task (.batch input) => batchNormalizedAgain input
  | task _ => []
  | method (.runBatchOperation input) =>
    rawClaims session collation execution (method (.runBatchOperation input)) ++ batchNormalizedAgain input
  | method call => rawClaims session collation execution (method call)

def TrimmedOnce (execution : Execution) (work : ScheduledWork) : Prop :=
  ∀ path ∈ work.normalizedAgain session collation execution, trim path = path

/-- What work touches without a claim, after the server pointed to `pointed`. -/
def Exempt (execution : Execution) (pointed : List Text) (path : Text) : ScheduledWork → Prop
  | task (.upload target _ _ _ _) => path = temporaryPathFor execution.runtime (normalizeSftpPathInput (some target))
  | method (.uploadFile target _ _ _) => path = temporaryPathFor execution.runtime (normalizeSftpPathInput target)
  | method (.writeTextFile target _ _ _) => path = temporaryPathFor execution.runtime (normalizeSftpPathInput target)
  | method (.getEntryDetails _) => path ∈ pointed
  | method (.listDirectory _) => ∃ named ∈ pointed, Below named path
  | _ => False

def Covered (execution : Execution) (work : ScheduledWork) : Prop :=
  ∀ pointed path, Touches (work.program session collation execution) pointed path →
    (∃ c ∈ work.claims session collation execution, Covers c path) ∨ work.Exempt execution pointed path

def Apart (execution : Execution) (work : ScheduledWork) (execution' : Execution) (other : ScheduledWork) : Prop :=
  ∀ pointed path pointed' path', Touches (work.program session collation execution) pointed path →
    Touches (other.program session collation execution') pointed' path' →
    ¬work.Exempt execution pointed path → ¬other.Exempt execution' pointed' path' →
    ∀ home, resolveFrom home path ≠ resolveFrom home path'

variable {session collation}

theorem apart_of_covered {execution execution' : Execution} {work other : ScheduledWork}
    (hWork : work.Covered session collation execution) (hOther : other.Covered session collation execution')
    (h : doClaimSetsConflict (work.claims session collation execution) (other.claims session collation execution') = false) :
    Apart session collation execution work execution' other := by
  intro pointed path pointed' path' hTouches hTouches' hExempt hExempt' home hSame
  obtain ⟨c, hc, hCovers⟩ := (hWork pointed path hTouches).resolve_right hExempt
  obtain ⟨d, hd, hCovers'⟩ := (hOther pointed' path' hTouches').resolve_right hExempt'
  exact no_common_location (normalizeSftpTaskClaims_canonical collation _)
    (normalizeSftpTaskClaims_canonical collation _) h hc hd (resolveFrom home path) (hCovers home)
    (hSame ▸ hCovers' home)

theorem covered_of_within {execution : Execution} {work : ScheduledWork}
    (h : Within (Allowed (work.claims session collation execution) fun pointed path =>
      work.Exempt execution pointed path) [] anything (work.program session collation execution)) :
    work.Covered session collation execution := by
  rintro pointed path ⟨q, resume, hSteps, hPath⟩
  exact Program.Keeps.admitted h (List.nil_subset _) hSteps path hPath

theorem within_outcome {α β : Type} {admitted : List Text → Text → Prop} {program : SftpProgram α} {f : α → β}
    (h : Within admitted [] anything program) : Within admitted [] anything (f <$> program) := Program.Keeps.bind h fun _ _ => .done trivial

theorem mem_batchClaims_entry (spelling : Text → Text) {entry : SftpBatchOperationEntry} (h : entry ∈ input.entries) :
    spelling entry.path ∈ batchClaims input spelling := List.mem_append_left _ (List.mem_map.mpr ⟨entry, h, rfl⟩)

theorem mem_batchClaims_directory (spelling : Text → Text) {directory : Text} (h : input.targetDirectoryPath.filter (· ≠ []) = some directory) :
    spelling directory ∈ batchClaims input spelling := List.mem_append_right _ (by rw [h]; exact List.mem_singleton.mpr rfl)

theorem reserves_payload {raw : Text} {paths : List Text} {exempt : List Text → Text → Prop} (h : raw ∈ paths) :
    Reserves (Allowed (normalizeSftpTaskClaims collation paths) exempt) [] (normalizeSftpPathInput (some raw)) :=
  reserves_of_anchors h (anchors_of_payload raw)

variable (execution : Execution)

theorem task_covered (request : ApiSftpStartTaskRequest) (h : (task request).TrimmedOnce session collation execution) :
    (task request).Covered session collation execution := by
  apply covered_of_within
  cases request with
  | createFile path => exact within_outcome (within_createFilePrimitive (reserves_payload List.mem_cons_self))
  | createDirectory path =>
    exact within_outcome (within_createDirectoryPrimitive (reserves_payload List.mem_cons_self))
  | rename sourcePath targetPath =>
    exact within_outcome (within_renameEntryPrimitive (reserves_payload List.mem_cons_self)
      fun _ => reserves_payload (List.mem_cons_of_mem _ List.mem_cons_self))
  | upload path localPath expectedSize expectedModifiedAt overwrite =>
    exact within_outcome (within_uploadFilePrimitive _ _ _ (reserves_payload List.mem_cons_self)
      fun _ _ => .inr rfl)
  | download path localPath =>
    exact within_outcome (within_downloadFilePrimitive _ (reserves_payload List.mem_cons_self))
  | batch input =>
    refine within_outcome (within_batch execution.depth h (fun entry hEntry => ?_) fun directory hDirectory => ?_)
    · exact ⟨entry.path, mem_batchClaims_entry id hEntry, anchors_of_payload entry.path⟩
    · exact ⟨directory, mem_batchClaims_directory id hDirectory, anchors_of_payload directory⟩

theorem reserves_normalized {path : Option Text} {paths : List Text} {exempt : List Text → Text → Prop}
    (hMem : normalizeSftpPathInput path ∈ paths) (hTrim : ∀ claim ∈ paths, trim claim = claim) :
    Reserves (Allowed (normalizeSftpTaskClaims collation paths) exempt) [] (normalizeSftpPathInput path) :=
  reserves_of_anchors hMem (anchors_of_normalized (hTrim _ hMem) (not_mem_normalizeSftpPathInput path))

theorem not_mem_dirname_normalized (path : Option Text) : '\\' ∉ dirname (normalizeSftpPathInput path) :=
  fun hMem => not_mem_normalizeSftpPathInput path (mem_dirname (by decide) (by decide) hMem)

theorem method_covered (call : SftpMethod) (h : (method call).TrimmedOnce session collation execution) :
    (method call).Covered session collation execution := by
  apply covered_of_within
  cases call with
  | listDirectory path =>
    exact within_listDirectoryPrimitive (reserves_normalized List.mem_cons_self h)
      fun pointed named hNamed other hBelow => .inr ⟨named, hNamed, hBelow⟩
  | getEntryDetails paths =>
    refine within_getEntryDetailsPrimitive (fun path hPath => ?_) fun pointed other hOther => .inr hOther
    have hClaims : rawClaims session collation execution (method (.getEntryDetails paths)) =
        paths.map fun path => normalizeSftpPathInput (some path) := if_pos (List.ne_nil_of_mem hPath)
    exact reserves_normalized (hClaims ▸ List.mem_map_of_mem hPath) h
  | readFilePreview path maxBytes =>
    exact within_readFilePreviewPrimitive maxBytes (reserves_normalized List.mem_cons_self h)
  | writeTextFile path content expected overwrite =>
    exact within_writeTextFilePrimitive content expected overwrite (reserves_normalized List.mem_cons_self h)
      fun _ _ => .inr rfl
  | downloadFile path localPath =>
    exact within_downloadFilePrimitive localPath (reserves_normalized List.mem_cons_self h)
  | uploadFile path localPath expected overwrite =>
    exact within_uploadFilePrimitive localPath expected overwrite (reserves_normalized List.mem_cons_self h)
      fun _ _ => .inr rfl
  | createFile path => exact within_createFilePrimitive (reserves_normalized List.mem_cons_self h)
  | createDirectory path => exact within_createDirectoryPrimitive (reserves_normalized List.mem_cons_self h)
  | renameEntry source target =>
    exact within_renameEntryPrimitive (reserves_normalized List.mem_cons_self h)
      fun _ => reserves_normalized (List.mem_cons_of_mem _ List.mem_cons_self) h
  | copyEntry source target =>
    refine within_copyEntryPrimitive execution.depth (reserves_normalized List.mem_cons_self h)
      fun hMutable attempt => ?_
    have hMem : dirname (normalizeSftpPathInput target) ∈
        rawClaims session collation execution (method (.copyEntry source target)) := List.mem_cons_of_mem _ List.mem_cons_self
    have hAnchors := anchors_of_normalized (h _ hMem) (not_mem_dirname_normalized target)
    exact reserves_of_covers hMem (covers_siblings hMutable hAnchors attempt)
      (copyCandidate_ne_nil (normalizeSftpPathInput_ne_nil target) attempt)
  | deleteEntry path recursive =>
    exact within_deleteEntryPrimitive execution.depth recursive (reserves_normalized List.mem_cons_self h)
  | runBatchOperation input =>
    have hClaims : ∀ claim ∈ rawClaims session collation execution (method (.runBatchOperation input)),
        trim claim = claim := fun claim hClaim => h claim (List.mem_append_left _ hClaim)
    have hAnchors : ∀ path : Text, normalizeSftpPathInput (some path) ∈
        rawClaims session collation execution (method (.runBatchOperation input)) →
        Anchors (normalizeSftpTaskClaimPath (normalizeSftpPathInput (some path)))
          (normalizeSftpPathInput (some path)) := fun path hMem =>
      anchors_of_normalized (hClaims _ hMem) (not_mem_normalizeSftpPathInput _)
    refine within_batch execution.depth (fun path hPath => h path (List.mem_append_right _ hPath))
      (fun entry hEntry => ?_) fun directory hDirectory => ?_
    · have hMem := mem_batchClaims_entry (fun path => normalizeSftpPathInput (some path)) hEntry
      exact ⟨_, hMem, hAnchors entry.path hMem⟩
    · have hMem := mem_batchClaims_directory (fun path => normalizeSftpPathInput (some path)) hDirectory
      exact ⟨_, hMem, hAnchors directory hMem⟩

theorem covered (work : ScheduledWork) (h : work.TrimmedOnce session collation execution) : work.Covered session collation execution := by
  cases work with
  | task request => exact task_covered execution request h
  | method call => exact method_covered execution call h

end ScheduledWork

/-- Work whose paths are not trimmed a second time stays within its claims, and work scheduled with claims
that do not conflict shares no path. -/
theorem scheduled_work_stays_within_claims (session : SftpLiveSession) (collation : Collation)
    (execution execution' : Execution) (work other : ScheduledWork)
    (hWork : work.TrimmedOnce session collation execution) (hOther : other.TrimmedOnce session collation execution') :
    work.Covered session collation execution ∧
      (doClaimSetsConflict (work.claims session collation execution) (other.claims session collation execution') = false →
        work.Apart session collation execution execution' other) := by
  have hCovered := ScheduledWork.covered execution work hWork
  exact ⟨hCovered, ScheduledWork.apart_of_covered hCovered (ScheduledWork.covered execution' other hOther)⟩

def sampleExecution : Execution where
  runtime := ⟨0, ⟨[], by simp⟩, fun _ => none⟩
  depth := 1

theorem scheduled_work_stays_within_claims_of_deletion :
    (ScheduledWork.task (.createFile "/b".toList)).Apart openedSession byName sampleExecution sampleExecution
      (.method (.deleteEntry (some "/a".toList) true)) :=
  (scheduled_work_stays_within_claims openedSession byName sampleExecution sampleExecution
    (.task (.createFile "/b".toList)) (.method (.deleteEntry (some "/a".toList) true)) (fun _ h => by cases h)
    (by
      intro path hPath
      rw [List.mem_singleton.mp (show path ∈ [normalizeSftpPathInput (some "/a".toList)] from hPath)]
      decide +kernel)).2 (by decide +kernel)

theorem steps_answer {α : Type} {q : Request} {resume : Except SftpError q.Answer → SftpProgram α}
    {pointed : List Text} (answer : Except SftpError q.Answer) (hNames : ListsNames q answer)
    {c : SftpProgram α × List Text} (h : Program.Steps anyServer (resume answer, pointedBy q answer ++ pointed) c) :
    Program.Steps anyServer (.ask q resume, pointed) c := .head (.answer ⟨hNames, rfl⟩) h

def linkStats : Stats := ⟨some 0o120777, some 0, some 0, some 1, some 0, some 0⟩

theorem touched_paths_leave_the_claims :
    (Touches ((ScheduledWork.method (.getEntryDetails ["/l".toList])).program openedSession byName sampleExecution) ["/b".toList] "/b".toList ∧
      (ScheduledWork.method (.getEntryDetails ["/l".toList])).claims openedSession byName sampleExecution = ["/l".toList]) ∧
    (Touches ((ScheduledWork.method (.listDirectory (some "/l".toList))).program openedSession byName sampleExecution)
        ["/b".toList] "/b".toList ∧ (ScheduledWork.method (.listDirectory (some "/l".toList))).claims openedSession byName sampleExecution =
        ["/l".toList]) ∧ (Touches ((ScheduledWork.task (.batch ⟨.delete, [⟨"/a /.".toList, .file⟩], none⟩)).program openedSession byName
        sampleExecution) [] "/a".toList ∧ (ScheduledWork.task (.batch ⟨.delete, [⟨"/a /.".toList, .file⟩], none⟩)).claims openedSession byName
        sampleExecution = ["/a ".toList]) ∧ ¬Covers "/l".toList "/b".toList ∧ ¬Covers "/a ".toList "/a".toList ∧
    doClaimSetsConflict ["/l".toList] ["/b".toList] = false ∧ doClaimSetsConflict ["/a ".toList] ["/a".toList] = false := by
  refine ⟨⟨?_, by decide +kernel⟩, ⟨?_, by decide +kernel⟩, ⟨?_, by decide +kernel⟩, fun h => ?_, fun h => ?_,
    by decide, by decide⟩
  · refine ⟨.stat "/b".toList, ?_, ?_, List.mem_singleton.mpr rfl⟩
    rotate_left
    · refine steps_answer (q := .sessionOpen) (.ok true) trivial ?_
      refine steps_answer (q := .lstat "/l".toList) (.ok linkStats) trivial ?_
      refine steps_answer (q := .readlink "/l".toList) (.ok "/b".toList) trivial ?_
      exact .refl
  · refine ⟨.readdir "/b".toList, ?_, ?_, List.mem_singleton.mpr rfl⟩
    rotate_left
    · refine steps_answer (q := .sessionOpen) (.ok true) trivial ?_
      refine steps_answer (q := .realpath "/l".toList) (.ok "/b".toList) trivial ?_
      exact .refl
  · refine ⟨.lstat "/a".toList, ?_, ?_, List.mem_singleton.mpr rfl⟩
    rotate_left
    · refine steps_answer (q := .sessionOpen) (.ok true) trivial ?_
      refine steps_answer (q := .sessionOpen) (.ok true) trivial ?_
      exact .refl
  · exact absurd (h []) (by decide)
  · exact absurd (h []) (by decide)

end Sftp
