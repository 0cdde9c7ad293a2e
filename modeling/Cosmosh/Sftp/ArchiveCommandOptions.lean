import Cosmosh.Sftp.ArchiveCommandLines
import Cosmosh.Sftp.ExtractionConfinement

/-! # Paths are no options

A value stands behind `--`, or is the argument of an option, or begins with `./`.
-/

namespace Sftp.Archive

open Library Library.JsText Library.PosixPath Library.Shell

def takesArgument (tool option : Text) : Bool :=
  if tool = "tar".toList then option.getLast? = some 'f' || option = "-C".toList
  else tool = "unzip".toList && (option = "-P".toList || option = "-d".toList)

/-- The tool of a command and its arguments; `exec` runs the tool in place of the shell. -/
def commandOf : List (List Piece) → Option (Text × List (List Piece))
  | [] => none
  | word :: rest =>
    if literalText? word = some "exec".toList then
      match rest with
      | [] => none
      | tool :: arguments => (literalText? tool).map fun text => (text, arguments)
    else (literalText? word).map fun text => (text, rest)

def IsOptionSafe (endsOptions : Text → Bool) (call : Call) : Prop :=
  ∀ tool arguments, commandOf call.words = some (tool, arguments) → tool ≠ "cd".toList →
    OptionSafe (takesArgument tool) (endsOptions tool) arguments

theorem isOptionSafe_of_eq {endsOptions : Text → Bool} {call : Call} {tool : Text} {arguments : List (List Piece)}
    (hCommand : commandOf call.words = some (tool, arguments)) (h : OptionSafe (takesArgument tool) (endsOptions tool) arguments) :
    IsOptionSafe endsOptions call := by
  intro tool' arguments' hCommand' _
  obtain ⟨rfl, rfl⟩ := Prod.mk.inj (Option.some.inj (hCommand.symm.trans hCommand'))
  exact h

variable (endsOptions : Text → Bool)

theorem isOptionSafe_changeDirectory (directoryPath : Text) : IsOptionSafe endsOptions (changeDirectory directoryPath) := by
  intro tool arguments hCommand hTool
  obtain ⟨rfl, -⟩ := Prod.mk.inj (Option.some.inj hCommand)
  exact absurd rfl hTool

theorem mem_of_commandOf {words arguments : List (List Piece)} {tool : Text} (h : commandOf words = some (tool, arguments))
    {word : List Piece} (hWord : word ∈ arguments) : word ∈ words := by
  cases words with
  | nil => cases h
  | cons first rest =>
    simp only [commandOf] at h
    split at h
    · cases rest with
      | nil => cases h
      | cons executed rest =>
        obtain ⟨text, -, hPair⟩ := Option.map_eq_some_iff.mp h
        obtain ⟨-, rfl⟩ := Prod.mk.inj hPair
        exact List.mem_cons_of_mem first (List.mem_cons_of_mem executed hWord)
    · obtain ⟨text, -, hPair⟩ := Option.map_eq_some_iff.mp h
      obtain ⟨-, rfl⟩ := Prod.mk.inj hPair
      exact List.mem_cons_of_mem first hWord

theorem isOptionSafe_of_rooted {call : Call} (h : ∀ argument ∈ call.arguments, argument.IsRooted) : IsOptionSafe endsOptions call := by
  intro tool arguments hCommand _ word hWord
  obtain ⟨hMem, text, hText⟩ := mem_optionWords hWord
  obtain ⟨argument, hArgument, hMem⟩ := List.mem_flatMap.mp (mem_of_commandOf hCommand hMem)
  exact (h argument hArgument).dash hMem hText

section

variable {arguments : List Argument}

theorem isRooted_nil : ∀ argument ∈ ([] : List Argument), argument.IsRooted := List.forall_mem_nil _

theorem isRooted_fixed (texts : List String) (hRest : ∀ argument ∈ arguments, argument.IsRooted) :
    ∀ argument ∈ fixed texts ++ arguments, argument.IsRooted := List.forall_mem_append.mpr ⟨List.forall_mem_map.mpr fun _ _ => trivial, hRest⟩

theorem isRooted_word {text : Text} (hRest : ∀ argument ∈ arguments, argument.IsRooted) :
    ∀ argument ∈ .fixed text :: arguments, argument.IsRooted := List.forall_mem_cons.mpr ⟨trivial, hRest⟩

theorem isRooted_value {text : Text} (h : text.head? ≠ some '-') (hRest : ∀ argument ∈ arguments, argument.IsRooted) :
    ∀ argument ∈ .value text :: arguments, argument.IsRooted := List.forall_mem_cons.mpr ⟨h, hRest⟩

theorem head?_inDirectory (name : Text) : (inDirectory name).head? ≠ some '-' := by
  rw [inDirectory, show "./".toList = ['.', '/'] by rfl]
  exact fun h => absurd (Option.some.inj h) (by decide)

theorem isRooted_names (names : List Text) : ∀ argument ∈ [Argument.values (names.map inDirectory)], argument.IsRooted :=
  List.forall_mem_singleton.mpr (List.forall_mem_map.mpr fun name _ => head?_inDirectory name)

end

theorem isOptionSafe_compressionCalls (format : ArchiveFormat) (level : ArchiveCompressionLevel)
    (directoryPath temporaryName : Text) (intermediateName : Option Text) (sourceNames tools : List Text) :
    ∀ call ∈ compressionCalls format level directoryPath temporaryName intermediateName sourceNames tools, IsOptionSafe endsOptions call := by
  have hDirectory := isOptionSafe_changeDirectory endsOptions directoryPath
  have hPack : ∀ name, IsOptionSafe endsOptions (packCall (inDirectory name) sourceNames) := fun name =>
    isOptionSafe_of_rooted endsOptions (isRooted_fixed _ (isRooted_value (head?_inDirectory name) (isRooted_fixed _ (isRooted_names _))))
  have hSqueezed : ∀ executable name output, ∀ call ∈ changeDirectory directoryPath :: packCall (inDirectory name) sourceNames ::
      squeezeCalls executable level (inDirectory name) output, IsOptionSafe endsOptions call := by
    intro executable name output
    refine List.forall_mem_cons.mpr ⟨hDirectory, List.forall_mem_cons.mpr ⟨hPack name, List.forall_mem_cons.mpr ⟨?_, ?_⟩⟩⟩
    · exact isOptionSafe_of_rooted endsOptions (isRooted_word (isRooted_word (isRooted_fixed _ (isRooted_value (head?_inDirectory name)
        isRooted_nil))))
    · exact List.forall_mem_singleton.mpr (isOptionSafe_of_rooted endsOptions (isRooted_fixed _ (isRooted_value
        (head?_inDirectory name) isRooted_nil)))
  rw [compressionCalls]
  split_ifs
  · exact List.forall_mem_cons.mpr ⟨hDirectory, List.forall_mem_singleton.mpr (hPack temporaryName)⟩
  · exact hSqueezed _ _ _
  · exact hSqueezed _ _ _
  · exact hSqueezed _ _ _
  · refine List.forall_mem_cons.mpr ⟨hDirectory, List.forall_mem_singleton.mpr (isOptionSafe_of_rooted endsOptions ?_)⟩
    exact isRooted_fixed _ (isRooted_word (isRooted_value (head?_inDirectory temporaryName) (isRooted_fixed _ (isRooted_names _))))
  · refine List.forall_mem_cons.mpr ⟨hDirectory, List.forall_mem_singleton.mpr (isOptionSafe_of_rooted endsOptions ?_)⟩
    exact isRooted_word (isRooted_fixed _ (isRooted_word (isRooted_fixed _ (isRooted_value (head?_inDirectory temporaryName)
      (isRooted_names _)))))

def HasRootedPaths : ArchiveCommand → Prop
  | .compression .. => True
  | .compressedTarExpansion _ archivePath _ => isAbsolute archivePath = true
  | .list _ archivePath _ => isAbsolute archivePath = true
  | .zipIntegrity archivePath => isAbsolute archivePath = true
  | .extraction _ archivePath stagingPath _ => isAbsolute archivePath = true ∧ isAbsolute stagingPath = true

theorem head?_of_absolute {path : Text} (h : isAbsolute path = true) : path.head? ≠ some '-' := by
  cases path with
  | nil => nofun
  | cons c path =>
    rintro ⟨⟩
    exact absurd h (by simp [isAbsolute])

theorem isOptionSafe_template {command : ArchiveCommand} (h : HasRootedPaths command) :
    ∀ call ∈ template command, IsOptionSafe endsOptions call := by
  cases command with
  | compression format level directoryPath temporaryName intermediateName sourceNames tools =>
    exact isOptionSafe_compressionCalls endsOptions format level directoryPath temporaryName intermediateName sourceNames tools
  | compressedTarExpansion format archivePath outputPath =>
    refine List.forall_mem_singleton.mpr (isOptionSafe_of_rooted endsOptions ?_)
    exact isRooted_fixed _ (isRooted_word (isRooted_fixed _ (isRooted_value (head?_of_absolute h) isRooted_nil)))
  | list format archivePath tools =>
    have hList : ∀ texts, ∀ call ∈ [Call.mk (fixed texts ++ [.value archivePath]) none], IsOptionSafe endsOptions call := fun texts =>
      List.forall_mem_singleton.mpr (isOptionSafe_of_rooted endsOptions (isRooted_fixed texts (isRooted_value (head?_of_absolute h)
        isRooted_nil)))
    rw [template, listCalls]
    split_ifs
    · exact hList _
    · exact hList _
    · exact hList _
    · exact hList _
    · exact hList _
    · refine List.forall_mem_singleton.mpr (isOptionSafe_of_rooted endsOptions ?_)
      exact isRooted_fixed _ (isRooted_word (isRooted_fixed _ (isRooted_word (isRooted_fixed _ (isRooted_value (head?_of_absolute h)
        isRooted_nil)))))
  | zipIntegrity archivePath =>
    refine List.forall_mem_singleton.mpr (isOptionSafe_of_rooted endsOptions ?_)
    exact isRooted_fixed _ (isRooted_value (by rintro ⟨⟩) (isRooted_fixed _ (isRooted_value (head?_of_absolute h) isRooted_nil)))
  | extraction format archivePath stagingPath tools =>
    have hArchive := head?_of_absolute h.1
    have hStaging := head?_of_absolute h.2
    have hExtract : ∀ option, ∀ call ∈ [Call.mk (fixed ["exec", "tar", option] ++ .value archivePath ::
        (fixed ["-C"] ++ .value stagingPath :: fixed ["--"])) none], IsOptionSafe endsOptions call := fun option =>
      List.forall_mem_singleton.mpr (isOptionSafe_of_rooted endsOptions (isRooted_fixed _ (isRooted_value hArchive
        (isRooted_fixed _ (isRooted_value hStaging (isRooted_word isRooted_nil))))))
    rw [template, extractionCalls]
    split_ifs
    · exact hExtract _
    · exact hExtract _
    · exact hExtract _
    · exact hExtract _
    · refine List.forall_mem_singleton.mpr (isOptionSafe_of_rooted endsOptions ?_)
      exact isRooted_fixed _ (isRooted_value (by rintro ⟨⟩) (isRooted_fixed _ (isRooted_value hArchive (isRooted_fixed _ (isRooted_value hStaging
        isRooted_nil)))))
    · refine List.forall_mem_singleton.mpr (isOptionSafe_of_rooted endsOptions ?_)
      exact isRooted_fixed _ (isRooted_word (isRooted_fixed _ (isRooted_word (List.forall_mem_cons.mpr ⟨List.cons_ne_nil _ _,
        isRooted_fixed _ (isRooted_value hArchive isRooted_nil)⟩))))

abbrev always : Text → Bool := fun _ => true

theorem sevenZip_cases (tools : List Text) : sevenZipExecutable tools = "7zz".toList ∨ sevenZipExecutable tools = "7z".toList := by
  rw [sevenZipExecutable]
  split
  · exact .inl rfl
  · exact .inr rfl

theorem isOptionSafe_always (command : ArchiveCommand) : ∀ call ∈ template command, IsOptionSafe always call := by
  cases command with
  | compression format level directoryPath temporaryName intermediateName sourceNames tools =>
    exact isOptionSafe_compressionCalls always format level directoryPath temporaryName intermediateName sourceNames tools
  | compressedTarExpansion format archivePath outputPath =>
    rw [template, expansionCalls]
    refine List.forall_mem_singleton.mpr ?_
    split_ifs
    · exact isOptionSafe_of_eq rfl (.of_all rfl)
    · exact isOptionSafe_of_eq rfl (.of_all rfl)
    · exact isOptionSafe_of_eq rfl (.of_all rfl)
  | list format archivePath tools =>
    rw [template, listCalls]
    split_ifs
    · exact List.forall_mem_singleton.mpr (isOptionSafe_of_eq rfl (.of_all rfl))
    · exact List.forall_mem_singleton.mpr (isOptionSafe_of_eq rfl (.of_all rfl))
    · exact List.forall_mem_singleton.mpr (isOptionSafe_of_eq rfl (.of_all rfl))
    · exact List.forall_mem_singleton.mpr (isOptionSafe_of_eq rfl (.of_all rfl))
    · exact List.forall_mem_singleton.mpr (isOptionSafe_of_eq rfl (.of_all rfl))
    · obtain hTool | hTool := sevenZip_cases tools
      · rw [hTool]
        exact List.forall_mem_singleton.mpr (isOptionSafe_of_eq rfl (.of_all rfl))
      · rw [hTool]
        exact List.forall_mem_singleton.mpr (isOptionSafe_of_eq rfl (.of_all rfl))
  | zipIntegrity archivePath => exact List.forall_mem_singleton.mpr (isOptionSafe_of_eq rfl (.of_all rfl))
  | extraction format archivePath stagingPath tools =>
    rw [template, extractionCalls]
    split_ifs
    · exact List.forall_mem_singleton.mpr (isOptionSafe_of_eq rfl (.of_all rfl))
    · exact List.forall_mem_singleton.mpr (isOptionSafe_of_eq rfl (.of_all rfl))
    · exact List.forall_mem_singleton.mpr (isOptionSafe_of_eq rfl (.of_all rfl))
    · exact List.forall_mem_singleton.mpr (isOptionSafe_of_eq rfl (.of_all rfl))
    · exact List.forall_mem_singleton.mpr (isOptionSafe_of_eq rfl (.of_all rfl))
    · have hEnd : OptionSafe (fun _ => false) true ((plainText ['-', 'o'] ++ quotedText stagingPath) ::
          plainText "--".toList :: [quotedText archivePath]) := .attached rfl (by decide) (.of_all rfl)
      have hOptions : ∀ tool, takesArgument tool = (fun _ => false) → OptionSafe (takesArgument tool) true
          (plainText "x".toList :: plainText "-bd".toList :: plainText "-y".toList :: plainText "-aoa".toList ::
            plainText ("-p".toList ++ ARCHIVE_UNSUPPORTED_PASSWORD) :: (plainText ['-', 'o'] ++ quotedText stagingPath) ::
              plainText "--".toList :: [quotedText archivePath]) := by
        intro tool hTool
        rw [hTool]
        exact (((((hEnd.fixed rfl).fixed rfl).fixed rfl).fixed rfl).fixed rfl)
      obtain hTool | hTool := sevenZip_cases tools
      · rw [hTool]
        exact List.forall_mem_singleton.mpr (isOptionSafe_of_eq rfl (hOptions _ rfl))
      · rw [hTool]
        exact List.forall_mem_singleton.mpr (isOptionSafe_of_eq rfl (hOptions _ rfl))

abbrev Runs {α : Type} (fact : α → Prop) (program : ArchiveProgram α) : Prop :=
  Program.Keeps (fun _ _ _ _ => True) (fun _ q => ∀ command, q = .exec command → HasRootedPaths command) (fun _ : Unit => True) fact program

section

variable {α β : Type} {fact : α → Prop}

theorem runs_ask {q : ArchiveAsk} (h : ∀ command, q ≠ .exec command) : Runs anyValue (ask q) := by
  intro _ _
  exact Program.Safe.request (fun command hCommand => absurd hCommand (h command)) fun _ _ _ => ⟨trivial, fun _ _ => trivial⟩

theorem runs_pure {a : α} (h : fact a) : Runs fact (pure a : ArchiveProgram α) := Program.Keeps.done h

theorem runs_throw (e : ArchiveError) : Runs fact (throw e : ArchiveProgram α) := Program.Keeps.fail

theorem runs_bind {p : ArchiveProgram β} {f : β → ArchiveProgram α} (h : Runs anyValue p) (hRest : ∀ b, Runs fact (f b)) :
    Runs fact (p >>= f) := Program.Keeps.bind h fun b _ => hRest b

theorem runs_catch {p : ArchiveProgram α} {handler : ArchiveError → ArchiveProgram α} (h : Runs fact p)
    (hHandler : ∀ e, Runs fact (handler e)) : Runs fact (tryCatch p handler) := Program.Keeps.catchError h hHandler

theorem runs_attempt {p : ArchiveProgram α} (h : Runs anyValue p) : Runs anyValue (Program.attempt p) := Program.Keeps.attempt h

theorem runs_forEach {items : List β} {body : β → ArchiveProgram α} (h : ∀ x, Runs anyValue (body x)) :
    Runs anyValue (Program.forEach body items) := Program.Keeps.forEach fun x _ => h x

end

variable (path : Text)

theorem runs_pathExists : Runs anyValue (pathExists path) := by
  refine runs_catch (runs_bind (runs_ask nofun) fun _ => runs_pure trivial) fun error => ?_
  split
  · exact runs_pure trivial
  · exact runs_throw _

theorem runs_validateArchiveHeader (format : ArchiveFormat) : Runs anyValue (validateArchiveHeader path format) := by
  have hRange : Runs anyValue (readRemoteRange path 0 512) := by
    refine runs_bind (runs_ask nofun) fun handle => runs_bind (runs_attempt (runs_ask nofun)) fun result => ?_
    exact runs_bind (runs_ask nofun) fun _ => Program.Keeps.ofExcept fun _ _ => trivial
  refine runs_bind hRange fun header => ?_
  split
  · exact runs_pure trivial
  · exact runs_throw _

theorem runs_validateStagedTree (root : Text) (depth : Nat) (path : Text) (knownMode : Option Nat) :
    Runs anyValue (validateStagedTree root depth path knownMode) := by
  induction depth generalizing path knownMode with
  | zero => exact runs_throw _
  | succ depth ih =>
    rw [validateStagedTree]
    refine runs_bind (runs_ask nofun) fun _ => ?_
    extract_lets visit
    have hVisit : ∀ mode, Runs anyValue (visit mode) := by
      intro mode
      refine runs_bind (runs_ask nofun) fun _ => ?_
      split
      · refine runs_bind (runs_ask nofun) fun linkPath => runs_bind (runs_ask nofun) fun _ => ?_
        extract_lets resolvedPath
        split
        · exact runs_throw _
        · exact runs_pure trivial
      · refine runs_bind (runs_ask nofun) fun entries => runs_bind (runs_ask nofun) fun _ => ?_
        exact runs_bind (runs_forEach fun entry => runs_bind (runs_ask nofun) fun _ => ih _ _) fun _ => runs_pure trivial
      · exact runs_pure trivial
    cases knownMode with
    | some mode => exact runs_bind (runs_pure trivial) hVisit
    | none => exact runs_bind (runs_ask nofun) fun stats => runs_bind (runs_pure trivial) hVisit

theorem runs_ensureRemoteDirectory : Runs anyValue (ensureRemoteDirectory path) := by
  have hMissing : ∀ fuel cursor, Runs anyValue (missingDirectories fuel cursor) := by
    intro fuel
    induction fuel with
    | zero => exact fun cursor => runs_pure trivial
    | succ fuel ih =>
      intro cursor
      rw [missingDirectories]
      split
      · exact runs_pure trivial
      · refine runs_bind (runs_ask nofun) fun _ => runs_bind ?_ fun found => ?_
        · refine runs_catch (runs_bind (runs_ask nofun) fun stats => runs_bind (runs_ask nofun) fun _ => ?_) fun error => ?_
          · split
            · exact runs_pure trivial
            · exact runs_throw _
          · split
            · exact runs_pure trivial
            · exact runs_throw _
        · split
          · exact runs_pure trivial
          · exact runs_bind (ih _) fun above => runs_pure trivial
  refine runs_bind (hMissing _ path) fun missingPaths => runs_bind (runs_forEach fun missingPath => ?_) fun created => runs_pure trivial
  refine runs_bind (runs_ask nofun) fun _ => runs_catch ?_ fun error => ?_
  · exact runs_bind (runs_ask nofun) fun _ => runs_bind (runs_ask nofun) fun _ => runs_pure trivial
  · refine runs_bind (runs_attempt (runs_ask nofun)) fun stats => ?_
    cases stats with
    | error e => exact runs_throw _
    | ok stats =>
      simp only
      split
      · exact runs_pure trivial
      · exact runs_throw _

variable (depth : Nat)

theorem runs_removeRemoteTree (path : Text) : Runs anyValue (removeRemoteTree depth path) := by
  induction depth generalizing path with
  | zero => exact runs_throw _
  | succ depth ih =>
    rw [removeRemoteTree]
    refine runs_bind (runs_attempt (runs_ask (by rintro _ ⟨⟩))) fun stats => ?_
    cases stats with
    | error error =>
      simp only
      split
      · exact runs_pure trivial
      · exact runs_throw _
    | ok stats =>
      simp only
      split
      · exact runs_ask (by rintro _ ⟨⟩)
      · exact runs_bind (runs_ask (by rintro _ ⟨⟩)) fun entries => runs_bind (runs_forEach fun entry => ih _) fun _ => runs_ask (by rintro _ ⟨⟩)

theorem runs_mergeRemoteEntry (sourcePath targetPath : Text) : Runs anyValue (mergeRemoteEntry depth sourcePath targetPath) := by
  induction depth generalizing sourcePath targetPath with
  | zero => exact runs_throw _
  | succ depth ih =>
    rw [mergeRemoteEntry]
    refine runs_bind (runs_ask (by rintro _ ⟨⟩)) fun _ => runs_bind (runs_ask (by rintro _ ⟨⟩)) fun sourceStats => runs_bind (runs_ask (by rintro _ ⟨⟩)) fun _ =>
      runs_bind (runs_ask (by rintro _ ⟨⟩)) fun targetStats => runs_bind (runs_ask (by rintro _ ⟨⟩)) fun _ => ?_
    split
    · exact runs_bind (runs_ask (by rintro _ ⟨⟩)) fun _ => runs_bind (runs_removeRemoteTree _ _) fun _ => runs_ask (by rintro _ ⟨⟩)
    · refine runs_bind (runs_ask (by rintro _ ⟨⟩)) fun entries => runs_bind (runs_ask (by rintro _ ⟨⟩)) fun _ => runs_bind (runs_forEach fun entry => ?_)
        fun _ => runs_ask (by rintro _ ⟨⟩)
      refine runs_bind (runs_ask (by rintro _ ⟨⟩)) fun _ => runs_bind (runs_pathExists _) fun childExists => runs_bind (runs_ask (by rintro _ ⟨⟩)) fun _ => ?_
      split
      · exact ih _ _
      · exact runs_ask (by rintro _ ⟨⟩)

theorem runs_findAvailablePath : Runs anyValue (findAvailablePath path) := by
  have hFirst : ∀ attempts, Runs anyValue (firstAvailable path attempts) := by
    intro attempts
    induction attempts with
    | nil => exact runs_throw _
    | cons attempt attempts ih =>
      refine runs_bind (runs_pathExists _) fun taken => ?_
      split
      · exact ih
      · exact runs_pure trivial
  refine runs_bind (runs_pathExists path) fun taken => ?_
  split
  · exact hFirst _
  · exact runs_pure trivial

theorem runs_moveStaging (stagingPath resultPath : Text) : Runs anyValue (moveStaging stagingPath resultPath) :=
  runs_bind (runs_ask nofun) fun _ => runs_bind (runs_ask nofun) fun _ => runs_bind (runs_ask nofun) fun _ => runs_pure trivial

theorem runs_waitForConflicts (conflicts : List ArchiveConflict) : Runs anyValue (waitForConflicts conflicts) :=
  runs_bind (runs_ask nofun) fun _ => runs_bind (runs_attempt (runs_ask nofun)) fun _ => runs_bind (runs_ask nofun) fun _ =>
    Program.Keeps.ofExcept fun _ _ => trivial

theorem runs_commitAsDirectory (stagingPath targetPath : Text) : Runs anyValue (commitAsDirectory depth stagingPath targetPath) := by
  refine runs_bind (runs_pathExists targetPath) fun taken => ?_
  split
  · exact runs_moveStaging _ _
  · refine runs_bind (runs_ask nofun) fun _ => runs_bind (runs_waitForConflicts _) fun resolution => ?_
    cases resolution with
    | cancel => exact runs_throw _
    | keepBoth => exact runs_bind (runs_findAvailablePath _) fun uniquePath => runs_moveStaging _ _
    | overwrite =>
      exact runs_bind (runs_ask nofun) fun _ => runs_bind (runs_mergeRemoteEntry _ _ _) fun _ => runs_bind (runs_ask nofun) fun _ =>
        runs_pure trivial

theorem runs_commitEach (stagingPath targetDirectory : Text) (entries : List SftpDirectoryEntry) :
    Runs anyValue (commitEach depth stagingPath targetDirectory entries) := by
  have hConflict : ∀ entry, Runs anyValue (findConflict stagingPath targetDirectory entry) := fun entry =>
    runs_bind (runs_ask nofun) fun _ => runs_bind (runs_pathExists _) fun taken => runs_bind (runs_ask nofun) fun _ => runs_pure trivial
  have hCommit : ∀ resolution entry, Runs anyValue (commitEntry depth stagingPath targetDirectory resolution entry) := by
    intro resolution entry
    refine runs_bind (runs_ask nofun) fun _ => runs_bind (runs_pathExists _) fun taken => ?_
    split
    · exact runs_bind (runs_ask nofun) fun _ => runs_bind (runs_ask nofun) fun _ => runs_pure trivial
    · split
      · exact runs_bind (runs_findAvailablePath _) fun uniquePath => runs_bind (runs_ask nofun) fun _ => runs_bind (runs_ask nofun)
          fun _ => runs_pure trivial
      · exact runs_bind (runs_ask nofun) fun _ => runs_bind (runs_mergeRemoteEntry _ _ _) fun _ => runs_pure trivial
  have hResolved : ∀ resolution : ArchiveConflictResolution, Runs anyValue (if resolution = .cancel then throw .cancelled else do
      let resultPaths ← Program.forEach (commitEntry depth stagingPath targetDirectory resolution) entries
      removeRemoteTree depth stagingPath
      let _ ← ask (.deleteTemporaryPath stagingPath)
      pure resultPaths) := by
    intro resolution
    split
    · exact runs_throw _
    · exact runs_bind (runs_forEach (hCommit resolution)) fun resultPaths => runs_bind (runs_removeRemoteTree _ _) fun _ =>
        runs_bind (runs_ask nofun) fun _ => runs_pure trivial
  refine runs_bind (runs_forEach hConflict) fun found => ?_
  simp only
  split
  · exact runs_bind (runs_pure trivial) hResolved
  · exact runs_bind (runs_waitForConflicts _) hResolved

theorem runs_commitExtractedEntries (stagingPath targetDirectory archivePath : Text) (mode : ArchiveDestinationMode) :
    Runs anyValue (commitExtractedEntries depth stagingPath targetDirectory archivePath mode) := by
  refine runs_bind (runs_ask nofun) fun _ => runs_bind (runs_ask nofun) fun entries => runs_bind (runs_ask nofun) fun _ => ?_
  extract_lets archiveDirectoryName
  split
  · exact runs_bind (runs_findAvailablePath _) fun uniquePath => runs_moveStaging _ _
  · split
    · exact runs_commitAsDirectory _ _ _
    · exact runs_commitEach _ _ _ _

theorem runs_runCheckedCommand {command : ArchiveCommand} (h : HasRootedPaths command) : Runs anyValue (runCheckedCommand command) := by
  have hExec : Runs anyValue (ask (.exec command)) := by
    intro _ _
    refine Program.Safe.request (q := ArchiveAsk.exec command) ?_ fun _ _ _ => ⟨trivial, fun _ _ => trivial⟩
    rintro _ ⟨⟩
    exact h
  refine runs_bind (runs_ask nofun) fun _ => runs_bind hExec fun result => runs_bind (runs_ask nofun) fun _ => ?_
  split
  · exact runs_pure trivial
  · exact runs_throw _

theorem runs_runCompression (sources : List Text) (targetDirectoryPath archiveName : Text) (format : ArchiveFormat)
    (level : ArchiveCompressionLevel) : Runs anyValue (runCompression sources targetDirectoryPath archiveName format level) := by
  have hSource : ∀ path, Runs anyValue (assertCompressionSource path) := by
    intro path
    refine runs_bind (runs_ask nofun) fun stats => runs_bind (runs_ask nofun) fun _ => ?_
    split
    · exact runs_throw _
    · exact runs_pure trivial
  have hInputs : ∀ sourcePaths targetDirectory targetPath, Runs anyValue (assertCompressionInputs sourcePaths targetDirectory targetPath) := by
    intro sourcePaths targetDirectory targetPath
    rw [assertCompressionInputs]
    split
    · exact runs_throw _
    · split
      · exact runs_throw _
      · refine runs_bind (runs_pathExists _) fun taken => ?_
        split
        · exact runs_throw _
        · exact runs_bind (runs_ask nofun) fun _ => runs_bind (runs_forEach hSource) fun _ => runs_pure trivial
  rw [runCompression]
  refine runs_bind (hInputs _ _ _) fun _ => runs_bind (runs_ask nofun) fun uuid => ?_
  extract_lets temporaryName temporaryPath commit pack
  have hCommit : ∀ u, Runs anyValue (commit u) := by
    intro u
    refine runs_bind (runs_ask nofun) fun _ => runs_bind (runs_ask nofun) fun _ => runs_bind (runs_pathExists _) fun taken => ?_
    split
    · exact runs_throw _
    · exact runs_bind (runs_ask nofun) fun _ => runs_bind (runs_ask nofun) fun _ => runs_bind (runs_ask nofun) fun _ => runs_pure trivial
  clear_value commit
  have hPack : ∀ intermediateName, Runs anyValue (pack intermediateName) := by
    intro intermediateName
    refine runs_bind (runs_ask nofun) fun _ => runs_bind (runs_ask nofun) fun toolSet =>
      runs_bind (runs_runCheckedCommand trivial) fun _ => ?_
    cases intermediateName with
    | some name => exact runs_bind (runs_ask nofun) hCommit
    | none => exact hCommit ()
  clear_value pack
  refine runs_bind (runs_ask nofun) fun _ => ?_
  split
  · exact runs_bind (runs_ask nofun) fun uuid => runs_bind (runs_ask nofun) fun _ => runs_bind (runs_pure trivial) hPack
  · exact runs_bind (runs_pure trivial) hPack

theorem runs_listArchiveMembers {archivePath : Text} (h : isAbsolute archivePath = true) (format : ArchiveFormat) (tools : List Text) :
    Runs anyValue (listArchiveMembers archivePath format tools) := by
  refine runs_bind (runs_runCheckedCommand h) fun result => ?_
  split
  · exact runs_throw _
  · extract_lets read
    have hRead : ∀ u, Runs anyValue (read u) := by
      intro u
      simp only [read]
      split
      · exact runs_throw _
      · exact runs_pure trivial
    clear_value read
    split
    · exact runs_bind (runs_runCheckedCommand h) fun _ => runs_bind (runs_pure trivial) hRead
    · exact runs_bind (runs_pure trivial) hRead

theorem runs_expandCompressedTar {archivePath targetDirectory : Text} (hArchive : isAbsolute archivePath = true)
    (hTarget : isAbsolute targetDirectory = true) (format : ArchiveFormat) :
    Runs (fun expanded => ∀ path ∈ expanded, isAbsolute path = true) (expandCompressedTar archivePath targetDirectory format) := by
  rw [expandCompressedTar]
  split
  · refine runs_bind (runs_ask nofun) fun uuid => ?_
    extract_lets expandedTarPath
    refine runs_bind (runs_ask nofun) fun _ => runs_bind (runs_runCheckedCommand hArchive) fun _ =>
      runs_bind (runs_validateArchiveHeader _ _) fun _ => runs_pure ?_
    rintro _ ⟨⟩
    exact isAbsolute_join hTarget _
  · exact runs_pure nofun

theorem runs_runExtraction (requestedArchivePath targetDirectoryPath : Text) (mode : ArchiveDestinationMode)
    (format : ArchiveFormat) : Runs anyValue (runExtraction depth requestedArchivePath targetDirectoryPath mode format) := by
  rw [runExtraction]
  split
  · exact runs_throw _
  · next hPaths =>
    obtain ⟨hArchive, hTarget, -⟩ : isAbsolute (normalizeRemotePath requestedArchivePath) = true ∧
        isAbsolute (normalizeRemotePath targetDirectoryPath) = true ∧ normalizeRemotePath targetDirectoryPath ≠ "/".toList := by
      simpa only [not_or, Bool.not_eq_false] using hPaths
    refine runs_bind (runs_ask nofun) fun archiveStats => ?_
    split
    · exact runs_throw _
    · refine runs_bind (runs_ensureRemoteDirectory _) fun createdDirectories => runs_bind (runs_validateArchiveHeader _ _) fun _ =>
        runs_bind (runs_ask nofun) fun toolSet => Program.Keeps.bind (runs_expandCompressedTar hArchive hTarget format)
          fun expandedTarPath hExpanded => ?_
      extract_lets extractionArchivePath extractionFormat
      have hExtraction : isAbsolute extractionArchivePath = true := by
        cases expandedTarPath with
        | none => exact hArchive
        | some path => exact hExpanded path rfl
      clear_value extractionArchivePath extractionFormat
      refine runs_bind (runs_listArchiveMembers hExtraction _ _) fun members => ?_
      split
      · exact runs_throw _
      · refine runs_bind (runs_ask nofun) fun uuid => ?_
        extract_lets stagingPath finish
        have hFinish : ∀ u, Runs anyValue (finish u) := fun u =>
          runs_bind (runs_ask nofun) fun _ => runs_bind (runs_ask nofun) fun _ => runs_bind (runs_validateStagedTree _ _ _ _) fun _ =>
            runs_bind (runs_ask nofun) fun _ => runs_bind (runs_commitExtractedEntries _ _ _ _ _) fun resultPaths =>
              runs_bind (runs_forEach fun path => runs_ask nofun) fun _ => runs_pure trivial
        clear_value finish
        refine runs_bind (runs_ask nofun) fun _ => runs_bind (runs_ask nofun) fun _ => runs_bind (runs_ask nofun) fun _ =>
          runs_bind (runs_runCheckedCommand ⟨hExtraction, isAbsolute_join hTarget _⟩) fun _ => ?_
        cases expandedTarPath with
        | none => exact hFinish ()
        | some path => exact runs_bind (runs_ask nofun) fun _ => runs_bind (runs_ask nofun) hFinish

theorem runs_operationBody (request : ArchiveOperationRequest) (format : ArchiveFormat) :
    Runs anyValue (operationBody depth request format) := by
  refine runs_bind (runs_ask nofun) fun capabilities => runs_bind (runs_ask nofun) fun isClosed => ?_
  split
  · exact runs_throw _
  · extract_lets supportedFormats
    split
    · exact runs_throw _
    · cases request with
      | compress sourcePaths targetDirectoryPath archiveName requested level => exact runs_runCompression _ _ _ _ _
      | extract archivePath targetDirectoryPath mode => exact runs_runExtraction _ _ _ _ _

/-- Every value is read back as one word. Every command reads as its template with each name and path as one word, and a tool that
ends its options at two dashes takes none of them for an option. In the commands of an operation no tool does. -/
theorem archive_commands_are_quoted :
    (∀ value, lex (quotePosixShellToken value) = some [.word (quotedText value)] ∧ literalText? (quotedText value) = some value) ∧
    (∀ command, invocations (commandLine command) = some ((template command).map Call.invocation) ∧
      ∀ call ∈ template command, IsOptionSafe always call) ∧
    ∀ depth request format, Program.Safe (fun _ _ _ _ => True) (fun _ q => ∀ command, q = .exec command →
      ∀ endsOptions, ∀ call ∈ template command, IsOptionSafe endsOptions call) (fun _ _ => True) (operationBody depth request format) () := by
  refine ⟨fun value => ⟨(spells_singleQuoted value).lex, literalText?_quotedText value⟩, fun command => ⟨?_, ?_⟩, ?_⟩
  · exact invocations_commandLine command
  · exact isOptionSafe_always command
  · intro depth request format
    refine ((runs_operationBody depth request format () trivial).weakenBefore fun _ q hRooted => ?_).mono fun _ _ _ => trivial
    exact fun command hCommand endsOptions => isOptionSafe_template endsOptions (hRooted command hCommand)

def oddPath : Text := ['/', 'h', '/', '-', 'a', '\'', 'b', '\n']

theorem odd_path_is_one_word :
    invocations (commandLine (.zipIntegrity oddPath)) = some [⟨[plainText "exec".toList, plainText "unzip".toList, plainText "-P".toList, [],
      plainText "-tqq".toList, plainText "--".toList, quotedText oddPath], []⟩] ∧
    ∀ call ∈ template (.zipIntegrity oddPath), IsOptionSafe always call :=
  ⟨(archive_commands_are_quoted.2.1 (.zipIntegrity oddPath)).1, (archive_commands_are_quoted.2.1 (.zipIntegrity oddPath)).2⟩

end Sftp.Archive
