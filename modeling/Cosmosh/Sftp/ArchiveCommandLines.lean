import Cosmosh.Library.ShellSentences
import Cosmosh.Sftp.ArchiveOperations

/-! # The command lines of archive operations

Each command is a fixed template with quoted paths in it.
-/

namespace Sftp.Archive

open Library Library.JsText Library.Shell

def quotePosixShellToken (value : Text) : Text := singleQuoted value

def ARCHIVE_UNSUPPORTED_PASSWORD : Text := "__cosmosh_encrypted_archives_are_unsupported__".toList

def numericCompressionLevel : ArchiveCompressionLevel → Nat
  | .store => 0
  | .fast => 1
  | .standard => 6
  | .maximum => 9

/-- `tools.has('7zz') ? '7zz' : '7z'` -/
def sevenZipExecutable (tools : List Text) : Text := if "7zz".toList ∈ tools then "7zz".toList else "7z".toList

def buildCompressionCommand (format : ArchiveFormat) (level : ArchiveCompressionLevel) (directoryPath temporaryName : Text)
    (intermediateName : Option Text) (sourceNames tools : List Text) : Text :=
  let cwd := quotePosixShellToken directoryPath
  let output := quotePosixShellToken ("./".toList ++ temporaryName)
  let sources := sentence (sourceNames.map fun name => quotePosixShellToken ("./".toList ++ name))
  let numericLevel := Nat.toDigits 10 (numericCompressionLevel level)
  let intermediate := quotePosixShellToken ("./".toList ++ intermediateName.getD (temporaryName ++ ".tar".toList))
  let packed (executable : Text) : Text :=
    sentence ["cd".toList, cwd, "&&".toList, "tar".toList, "-cf".toList, intermediate, "--".toList, sources, "&&".toList, executable,
      "-".toList ++ numericLevel, "-c".toList, "--".toList, intermediate, ">".toList, output, "&&".toList, "rm".toList, "-f".toList,
      "--".toList, intermediate]
  if format = .tar then
    sentence ["cd".toList, cwd, "&&".toList, "tar".toList, "-cf".toList, output, "--".toList, sources]
  else if format = .tarGzip then packed "gzip".toList
  else if format = .tarXz then packed "xz".toList
  else if format = .tarBzip2 then packed "bzip2".toList
  else if format = .zip ∧ "zip".toList ∈ tools then
    sentence ["cd".toList, cwd, "&&".toList, "zip".toList, "-q".toList, "-r".toList, "-y".toList, "-".toList ++ numericLevel, output,
      "--".toList, sources]
  else
    let executable := sevenZipExecutable tools
    sentence ["cd".toList, cwd, "&&".toList, executable, "a".toList, "-bd".toList, "-y".toList, "-mx=".toList ++ numericLevel,
      "-snl".toList, "--".toList, output, sources]

def buildCompressedTarExpansionCommand (format : ArchiveFormat) (archivePath outputPath : Text) : Text :=
  let executable := if format = .tarGzip then "gzip".toList else if format = .tarXz then "xz".toList else "bzip2".toList
  sentence ["exec".toList, executable, "-dc".toList, "--".toList, quotePosixShellToken archivePath, ">".toList,
    quotePosixShellToken outputPath]

def buildArchiveListCommand (format : ArchiveFormat) (archivePath : Text) (tools : List Text) : Text :=
  let archive := quotePosixShellToken archivePath
  if format = .tar then sentence ["exec".toList, "tar".toList, "-tf".toList, archive]
  else if format = .tarGzip then sentence ["exec".toList, "tar".toList, "-tzf".toList, archive]
  else if format = .tarXz then sentence ["exec".toList, "tar".toList, "-tJf".toList, archive]
  else if format = .tarBzip2 then sentence ["exec".toList, "tar".toList, "-tjf".toList, archive]
  else if format = .zip ∧ "unzip".toList ∈ tools then
    sentence ["exec".toList, "unzip".toList, "-Z1".toList, "--".toList, archive]
  else
    let executable := sevenZipExecutable tools
    sentence ["exec".toList, executable, "l".toList, "-slt".toList, "-p".toList ++ ARCHIVE_UNSUPPORTED_PASSWORD, "--".toList, archive]

def buildZipIntegrityCommand (archivePath : Text) : Text :=
  sentence ["exec".toList, "unzip".toList, "-P".toList, "''".toList, "-tqq".toList, "--".toList, quotePosixShellToken archivePath]

def buildExtractionCommand (format : ArchiveFormat) (archivePath stagingPath : Text) (tools : List Text) : Text :=
  let archive := quotePosixShellToken archivePath
  let staging := quotePosixShellToken stagingPath
  if format = .tar then sentence ["exec".toList, "tar".toList, "-xf".toList, archive, "-C".toList, staging, "--".toList]
  else if format = .tarGzip then sentence ["exec".toList, "tar".toList, "-xzf".toList, archive, "-C".toList, staging, "--".toList]
  else if format = .tarXz then sentence ["exec".toList, "tar".toList, "-xJf".toList, archive, "-C".toList, staging, "--".toList]
  else if format = .tarBzip2 then sentence ["exec".toList, "tar".toList, "-xjf".toList, archive, "-C".toList, staging, "--".toList]
  else if format = .zip ∧ "unzip".toList ∈ tools then
    sentence ["exec".toList, "unzip".toList, "-P".toList, "''".toList, "-qq".toList, "-n".toList, "--".toList, archive, "-d".toList,
      staging]
  else
    let executable := sevenZipExecutable tools
    sentence ["exec".toList, executable, "x".toList, "-bd".toList, "-y".toList, "-aoa".toList, "-p".toList ++ ARCHIVE_UNSUPPORTED_PASSWORD,
      "-o".toList ++ staging, "--".toList, archive]

def commandLine : ArchiveCommand → Text
  | .compression format level directoryPath temporaryName intermediateName sourceNames tools =>
    buildCompressionCommand format level directoryPath temporaryName intermediateName sourceNames tools
  | .compressedTarExpansion format archivePath outputPath => buildCompressedTarExpansionCommand format archivePath outputPath
  | .list format archivePath tools => buildArchiveListCommand format archivePath tools
  | .zipIntegrity archivePath => buildZipIntegrityCommand archivePath
  | .extraction format archivePath stagingPath tools => buildExtractionCommand format archivePath stagingPath tools

def fixed (texts : List String) : List Argument := texts.map fun text => .fixed text.toList

def inDirectory (name : Text) : Text := "./".toList ++ name

def changeDirectory (directoryPath : Text) : Call := ⟨fixed ["cd"] ++ [.value directoryPath], none⟩

def packCall (target : Text) (sourceNames : List Text) : Call :=
  ⟨fixed ["tar", "-cf"] ++ .value target :: (fixed ["--"] ++ [.values (sourceNames.map inDirectory)]), none⟩

def squeezeCalls (executable : Text) (level : ArchiveCompressionLevel) (intermediate output : Text) : List Call :=
  [⟨.fixed executable :: .fixed ("-".toList ++ Nat.toDigits 10 (numericCompressionLevel level)) :: (fixed ["-c", "--"] ++
    [.value intermediate]), some output⟩, ⟨fixed ["rm", "-f", "--"] ++ [.value intermediate], none⟩]

def zipCall (level : ArchiveCompressionLevel) (output : Text) (sourceNames : List Text) : Call :=
  ⟨fixed ["zip", "-q", "-r", "-y"] ++ .fixed ("-".toList ++ Nat.toDigits 10 (numericCompressionLevel level)) :: .value output ::
    (fixed ["--"] ++ [.values (sourceNames.map inDirectory)]), none⟩

def sevenZipCall (executable : Text) (level : ArchiveCompressionLevel) (output : Text) (sourceNames : List Text) : Call :=
  ⟨.fixed executable :: (fixed ["a", "-bd", "-y"] ++ .fixed ("-mx=".toList ++ Nat.toDigits 10 (numericCompressionLevel level)) ::
    (fixed ["-snl", "--"] ++ [.value output, .values (sourceNames.map inDirectory)])), none⟩

def compressionCalls (format : ArchiveFormat) (level : ArchiveCompressionLevel) (directoryPath temporaryName : Text)
    (intermediateName : Option Text) (sourceNames tools : List Text) : List Call :=
  let output := inDirectory temporaryName
  let intermediate := inDirectory (intermediateName.getD (temporaryName ++ ".tar".toList))
  let squeezed (executable : String) : List Call :=
    changeDirectory directoryPath :: packCall intermediate sourceNames :: squeezeCalls executable.toList level intermediate output
  if format = .tar then [changeDirectory directoryPath, packCall output sourceNames]
  else if format = .tarGzip then squeezed "gzip"
  else if format = .tarXz then squeezed "xz"
  else if format = .tarBzip2 then squeezed "bzip2"
  else if format = .zip ∧ "zip".toList ∈ tools then [changeDirectory directoryPath, zipCall level output sourceNames]
  else [changeDirectory directoryPath, sevenZipCall (sevenZipExecutable tools) level output sourceNames]

theorem buildCompressionCommand_eq (format : ArchiveFormat) (level : ArchiveCompressionLevel) (directoryPath temporaryName : Text)
    (intermediateName : Option Text) (sourceNames tools : List Text) :
    buildCompressionCommand format level directoryPath temporaryName intermediateName sourceNames tools =
      chain (compressionCalls format level directoryPath temporaryName intermediateName sourceNames tools) := by
  have hSources : (sourceNames.map fun name => quotePosixShellToken ("./".toList ++ name)) =
      (sourceNames.map inDirectory).map singleQuoted := by
    rw [List.map_map]
    rfl
  rw [buildCompressionCommand, compressionCalls, hSources]
  split_ifs <;> rfl

def expansionCalls (format : ArchiveFormat) (archivePath outputPath : Text) : List Call :=
  let executable := if format = .tarGzip then "gzip".toList else if format = .tarXz then "xz".toList else "bzip2".toList
  [⟨fixed ["exec"] ++ .fixed executable :: (fixed ["-dc", "--"] ++ [.value archivePath]), some outputPath⟩]

def listCalls (format : ArchiveFormat) (archivePath : Text) (tools : List Text) : List Call :=
  let tarList (option : String) : List Call := [⟨fixed ["exec", "tar", option] ++ [.value archivePath], none⟩]
  if format = .tar then tarList "-tf"
  else if format = .tarGzip then tarList "-tzf"
  else if format = .tarXz then tarList "-tJf"
  else if format = .tarBzip2 then tarList "-tjf"
  else if format = .zip ∧ "unzip".toList ∈ tools then [⟨fixed ["exec", "unzip", "-Z1", "--"] ++ [.value archivePath], none⟩]
  else
    [⟨fixed ["exec"] ++ .fixed (sevenZipExecutable tools) :: (fixed ["l", "-slt"] ++ .fixed ("-p".toList ++ ARCHIVE_UNSUPPORTED_PASSWORD) ::
      (fixed ["--"] ++ [.value archivePath])), none⟩]

def integrityCalls (archivePath : Text) : List Call :=
  [⟨fixed ["exec", "unzip", "-P"] ++ .value [] :: (fixed ["-tqq", "--"] ++ [.value archivePath]), none⟩]

def extractionCalls (format : ArchiveFormat) (archivePath stagingPath : Text) (tools : List Text) : List Call :=
  let tarExtract (option : String) : List Call :=
    [⟨fixed ["exec", "tar", option] ++ .value archivePath :: (fixed ["-C"] ++ .value stagingPath :: fixed ["--"]), none⟩]
  if format = .tar then tarExtract "-xf"
  else if format = .tarGzip then tarExtract "-xzf"
  else if format = .tarXz then tarExtract "-xJf"
  else if format = .tarBzip2 then tarExtract "-xjf"
  else if format = .zip ∧ "unzip".toList ∈ tools then
    [⟨fixed ["exec", "unzip", "-P"] ++ .value [] :: (fixed ["-qq", "-n", "--"] ++ .value archivePath :: (fixed ["-d"] ++
      [.value stagingPath])), none⟩]
  else
    [⟨fixed ["exec"] ++ .fixed (sevenZipExecutable tools) :: (fixed ["x", "-bd", "-y", "-aoa"] ++
      .fixed ("-p".toList ++ ARCHIVE_UNSUPPORTED_PASSWORD) :: .attached "-o".toList stagingPath ::
        (fixed ["--"] ++ [.value archivePath])), none⟩]

def template : ArchiveCommand → List Call
  | .compression format level directoryPath temporaryName intermediateName sourceNames tools =>
    compressionCalls format level directoryPath temporaryName intermediateName sourceNames tools
  | .compressedTarExpansion format archivePath outputPath => expansionCalls format archivePath outputPath
  | .list format archivePath tools => listCalls format archivePath tools
  | .zipIntegrity archivePath => integrityCalls archivePath
  | .extraction format archivePath stagingPath tools => extractionCalls format archivePath stagingPath tools

variable (command : ArchiveCommand)

theorem commandLine_eq_chain : commandLine command = chain (template command) := by
  cases command with
  | compression format level directoryPath temporaryName intermediateName sourceNames tools => exact buildCompressionCommand_eq ..
  | compressedTarExpansion format archivePath outputPath => rfl
  | list format archivePath tools =>
    rw [commandLine, template, buildArchiveListCommand, listCalls]
    split_ifs <;> rfl
  | zipIntegrity archivePath => rfl
  | extraction format archivePath stagingPath tools =>
    rw [commandLine, template, buildExtractionCommand, extractionCalls]
    split_ifs <;> rfl

def fixedWords : List String :=
  ["cd", "tar", "-cf", "--", "-c", "rm", "-f", "zip", "-q", "-r", "-y", "a", "-bd", "-snl", "exec", "-dc", "-tf", "-tzf", "-tJf", "-tjf",
    "unzip", "-Z1", "l", "-slt", "-P", "-tqq", "-xf", "-xzf", "-xJf", "-xjf", "-C", "-qq", "-n", "-d", "x", "-aoa", "-o", "gzip", "xz",
    "bzip2", "7zz", "7z"]

theorem isPlainWord_fixed : ∀ text ∈ fixedWords, IsPlainWord text.toList := by
  decide

theorem isPlainWord_level (level : ArchiveCompressionLevel) : IsPlainWord ("-".toList ++ Nat.toDigits 10 (numericCompressionLevel level)) ∧
      IsPlainWord ("-mx=".toList ++ Nat.toDigits 10 (numericCompressionLevel level)) := by
  cases level <;> decide

theorem isPlainWord_password : IsPlainWord ("-p".toList ++ ARCHIVE_UNSUPPORTED_PASSWORD) := by
  decide

theorem isPlainWord_sevenZip (tools : List Text) : IsPlainWord (sevenZipExecutable tools) := by
  rw [sevenZipExecutable]
  split
  · exact isPlainWord_fixed "7zz" (by decide)
  · exact isPlainWord_fixed "7z" (by decide)

section

variable {arguments : List Argument}

theorem isPlain_nil : ∀ argument ∈ ([] : List Argument), argument.IsPlain := List.forall_mem_nil _

theorem isPlain_word {text : Text} (h : IsPlainWord text) (hRest : ∀ argument ∈ arguments, argument.IsPlain) :
    ∀ argument ∈ .fixed text :: arguments, argument.IsPlain := List.forall_mem_cons.mpr ⟨h, hRest⟩

theorem isPlain_value {text : Text} (hRest : ∀ argument ∈ arguments, argument.IsPlain) :
    ∀ argument ∈ .value text :: arguments, argument.IsPlain := List.forall_mem_cons.mpr ⟨trivial, hRest⟩

theorem isPlain_values {texts : List Text} (hRest : ∀ argument ∈ arguments, argument.IsPlain) :
    ∀ argument ∈ .values texts :: arguments, argument.IsPlain := List.forall_mem_cons.mpr ⟨trivial, hRest⟩

theorem isPlain_fixed {texts : List String} (h : texts ⊆ fixedWords) (hRest : ∀ argument ∈ arguments, argument.IsPlain) :
    ∀ argument ∈ fixed texts ++ arguments, argument.IsPlain :=
  List.forall_mem_append.mpr ⟨List.forall_mem_map.mpr fun text hText => isPlainWord_fixed text (h hText), hRest⟩

end

theorem isPlain_changeDirectory (directoryPath : Text) : (changeDirectory directoryPath).IsPlain :=
  isPlain_fixed (by decide) (isPlain_value isPlain_nil)

theorem isPlain_packCall (target : Text) (sourceNames : List Text) : (packCall target sourceNames).IsPlain :=
  isPlain_fixed (by decide) (isPlain_value (isPlain_fixed (by decide) (isPlain_values isPlain_nil)))

theorem isPlain_squeezeCalls {executable : Text} (h : IsPlainWord executable) (level : ArchiveCompressionLevel)
    (intermediate output : Text) : ∀ call ∈ squeezeCalls executable level intermediate output, call.IsPlain := by
  refine List.forall_mem_cons.mpr ⟨?_, List.forall_mem_singleton.mpr ?_⟩
  · exact isPlain_word h (isPlain_word (isPlainWord_level level).1 (isPlain_fixed (by decide) (isPlain_value isPlain_nil)))
  · exact isPlain_fixed (by decide) (isPlain_value isPlain_nil)

theorem isPlain_zipCall (level : ArchiveCompressionLevel) (output : Text) (sourceNames : List Text) :
    (zipCall level output sourceNames).IsPlain :=
  isPlain_fixed (by decide) (isPlain_word (isPlainWord_level level).1
    (isPlain_value (isPlain_fixed (by decide) (isPlain_values isPlain_nil))))

theorem isPlain_sevenZipCall (tools : List Text) (level : ArchiveCompressionLevel) (output : Text) (sourceNames : List Text) :
    (sevenZipCall (sevenZipExecutable tools) level output sourceNames).IsPlain :=
  isPlain_word (isPlainWord_sevenZip tools) (isPlain_fixed (by decide) (isPlain_word (isPlainWord_level level).2
    (isPlain_fixed (by decide) (isPlain_value (isPlain_values isPlain_nil)))))

theorem isPlain_compressionCalls (format : ArchiveFormat) (level : ArchiveCompressionLevel) (directoryPath temporaryName : Text)
    (intermediateName : Option Text) (sourceNames tools : List Text) :
    ∀ call ∈ compressionCalls format level directoryPath temporaryName intermediateName sourceNames tools, call.IsPlain := by
  have hDirectory := isPlain_changeDirectory directoryPath
  have hSqueezed : ∀ {executable : String}, executable ∈ fixedWords → ∀ intermediate output, ∀ call ∈ changeDirectory directoryPath ::
      packCall intermediate sourceNames :: squeezeCalls executable.toList level intermediate output, call.IsPlain := by
    intro executable hExecutable intermediate output
    refine List.forall_mem_cons.mpr ⟨hDirectory, List.forall_mem_cons.mpr ⟨isPlain_packCall intermediate sourceNames, ?_⟩⟩
    exact isPlain_squeezeCalls (isPlainWord_fixed executable hExecutable) level intermediate output
  rw [compressionCalls]
  split_ifs
  · exact List.forall_mem_cons.mpr ⟨hDirectory, List.forall_mem_singleton.mpr (isPlain_packCall _ sourceNames)⟩
  · exact hSqueezed (by decide) _ _
  · exact hSqueezed (by decide) _ _
  · exact hSqueezed (by decide) _ _
  · exact List.forall_mem_cons.mpr ⟨hDirectory, List.forall_mem_singleton.mpr (isPlain_zipCall level _ sourceNames)⟩
  · exact List.forall_mem_cons.mpr ⟨hDirectory, List.forall_mem_singleton.mpr (isPlain_sevenZipCall tools level _ sourceNames)⟩

theorem isPlain_template : ∀ call ∈ template command, call.IsPlain := by
  cases command with
  | compression format level directoryPath temporaryName intermediateName sourceNames tools =>
    exact isPlain_compressionCalls format level directoryPath temporaryName intermediateName sourceNames tools
  | compressedTarExpansion format archivePath outputPath =>
    refine List.forall_mem_singleton.mpr (isPlain_fixed (by decide) (isPlain_word ?_ (isPlain_fixed (by decide) (isPlain_value isPlain_nil))))
    split_ifs
    · exact isPlainWord_fixed "gzip" (by decide)
    · exact isPlainWord_fixed "xz" (by decide)
    · exact isPlainWord_fixed "bzip2" (by decide)
  | list format archivePath tools =>
    have hList : ∀ {options : List String}, options ⊆ fixedWords →
        ∀ call ∈ [Call.mk (fixed options ++ [.value archivePath]) none], call.IsPlain := fun hOptions =>
      List.forall_mem_singleton.mpr (isPlain_fixed hOptions (isPlain_value isPlain_nil))
    rw [template, listCalls]
    split_ifs
    · exact hList (by decide)
    · exact hList (by decide)
    · exact hList (by decide)
    · exact hList (by decide)
    · exact hList (by decide)
    · exact List.forall_mem_singleton.mpr (isPlain_fixed (by decide) (isPlain_word (isPlainWord_sevenZip tools) (isPlain_fixed (by decide)
        (isPlain_word isPlainWord_password (isPlain_fixed (by decide) (isPlain_value isPlain_nil))))))
  | zipIntegrity archivePath =>
    exact List.forall_mem_singleton.mpr (isPlain_fixed (by decide) (isPlain_value (isPlain_fixed (by decide) (isPlain_value isPlain_nil))))
  | extraction format archivePath stagingPath tools =>
    have hExtract : ∀ {option : String}, option ∈ fixedWords → ∀ call ∈ [Call.mk (fixed ["exec", "tar", option] ++ .value archivePath ::
        (fixed ["-C"] ++ .value stagingPath :: fixed ["--"])) none], call.IsPlain := by
      intro option hOption
      refine List.forall_mem_singleton.mpr (isPlain_fixed ?_ (isPlain_value (isPlain_fixed (by decide) (isPlain_value ?_))))
      · exact List.cons_subset.mpr ⟨by decide, List.cons_subset.mpr ⟨by decide, List.cons_subset.mpr ⟨hOption, List.nil_subset _⟩⟩⟩
      · exact isPlain_word (isPlainWord_fixed "--" (by decide)) isPlain_nil
    rw [template, extractionCalls]
    split_ifs
    · exact hExtract (by decide)
    · exact hExtract (by decide)
    · exact hExtract (by decide)
    · exact hExtract (by decide)
    · exact List.forall_mem_singleton.mpr (isPlain_fixed (by decide) (isPlain_value (isPlain_fixed (by decide) (isPlain_value
        (isPlain_fixed (by decide) (isPlain_value isPlain_nil))))))
    · exact List.forall_mem_singleton.mpr (isPlain_fixed (by decide) (isPlain_word (isPlainWord_sevenZip tools) (isPlain_fixed (by decide)
        (isPlain_word isPlainWord_password (List.forall_mem_cons.mpr ⟨isPlainWord_fixed "-o" (by decide),
          isPlain_fixed (by decide) (isPlain_value isPlain_nil)⟩)))))

theorem template_ne_nil : template command ≠ [] := by
  cases command with
  | compression format level directoryPath temporaryName intermediateName sourceNames tools =>
    rw [template, compressionCalls]
    split_ifs <;> nofun
  | compressedTarExpansion format archivePath outputPath => nofun
  | list format archivePath tools =>
    rw [template, listCalls]
    split_ifs <;> nofun
  | zipIntegrity archivePath => nofun
  | extraction format archivePath stagingPath tools =>
    rw [template, extractionCalls]
    split_ifs <;> nofun

theorem invocations_commandLine : invocations (commandLine command) = some ((template command).map Call.invocation) := by
  rw [commandLine_eq_chain]
  exact invocations_chain (template_ne_nil command) (isPlain_template command)

end Sftp.Archive
