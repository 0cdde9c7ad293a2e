import Cosmosh.Library.EndedLines
import Cosmosh.Library.Utf16
import Cosmosh.Terminal.CommandRecency

/-! # Deleting a command from a local history file

The file is decoded, its lines are filtered, and what is left is joined and encoded again.
-/

namespace Terminal

open Library Library.CodeUnits Library.EndedLines
open Library.Utf8 (Byte WellFormed)

def keepsLine (command : Command) (line : CodeUnits) : Bool :=
  let trimmed := trim line
  if trimmed = [] then true
  else if trimmed = command then false
  else
    match zshExtendedMatch trimmed with
    | some zshCommand => trim zshCommand ≠ command
    | none => true

def deleteFromHistoryFile (original : List Byte) (command : Command) : List Byte :=
  let lines := splitLines [] (Utf16.ofBytes original)
  let keptLines := lines.filter (keepsLine command)
  Utf16.toBytes ([0x0a].intercalate keptLines)

/-- What a `history-delete` message makes of a history file. -/
def historyDelete (original : List Byte) (message : CodeUnits) : List Byte :=
  let command := trim message
  if command = [] then original else deleteFromHistoryFile original command

def withoutCommand (original : List Byte) (command : Command) : List Byte :=
  text ((endedLines 0x0d 0x0a original).filter fun line => parseTerminalHistoryLine (Utf16.ofBytes line.content) ≠ some command)

def Overlooked (command : Command) (line : CodeUnits) : Prop :=
  parseTerminalHistoryLine line = some command ∧ trim line ≠ command ∧ zshExtendedMatch (trim line) = none

def TakenWhole (command : Command) (line : CodeUnits) : Prop := trim line = command ∧ parseTerminalHistoryLine line ≠ some command

structure OnlyLinesGo (original : List Byte) (command : Command) : Prop where
  overlooked : ∀ line ∈ endedLines 0x0d 0x0a original, ¬ Overlooked command (Utf16.ofBytes line.content)
  takenWhole : ∀ line ∈ endedLines 0x0d 0x0a original, ¬ TakenWhole command (Utf16.ofBytes line.content)
  encoding : ∀ line ∈ endedLines 0x0d 0x0a original, keepsLine command (Utf16.ofBytes line.content) = true → WellFormed line.content
  ending : ∀ line ∈ endedLines 0x0d 0x0a original, keepsLine command (Utf16.ofBytes line.content) = true → line.ending ≠ [0x0d, 0x0a]
  last : (∃ line ∈ endedLines 0x0d 0x0a original, keepsLine command (Utf16.ofBytes line.content) = true) →
    ∀ last, (endedLines 0x0d 0x0a original).getLast? = some last → keepsLine command (Utf16.ofBytes last.content) = true

theorem trim_concat_whitespace (t : CodeUnits) {u : Nat} (hu : isWhitespace u = true) : trim (t ++ [u]) = trim t := by
  rw [trim, trim, List.dropWhile_append]
  split
  · next hEmpty =>
    rw [List.isEmpty_iff.mp hEmpty, List.dropWhile_cons_of_pos hu]
    rfl
  · rw [List.rdropWhile_concat_pos _ _ _ hu]

theorem parseTerminalHistoryLine_trim (line : CodeUnits) : parseTerminalHistoryLine (trim line) = parseTerminalHistoryLine line := by
  simp only [parseTerminalHistoryLine, trim_trim]

theorem keepsLine_trim (command : Command) (line : CodeUnits) : keepsLine command (trim line) = keepsLine command line := by
  simp only [keepsLine, trim_trim]

theorem nonEmpty_eq_some_iff {t command : CodeUnits} (hCommand : command ≠ []) : nonEmpty t = some command ↔ t = command := by
  rw [nonEmpty]
  split
  · next hEmpty =>
    rw [hEmpty]
    exact ⟨nofun, fun h => absurd h.symm hCommand⟩
  · rw [Option.some.injEq]

theorem zshExtendedMatch_of_head {t : CodeUnits} (h : t.head? ≠ some 0x3a) : zshExtendedMatch t = none := by
  unfold zshExtendedMatch
  split
  · exact absurd rfl h
  · rfl

theorem parseTerminalHistoryLine_of_zsh {line zshCommand : CodeUnits} (h : zshExtendedMatch (trim line) = some zshCommand) :
    parseTerminalHistoryLine line = nonEmpty (trim zshCommand) := by
  have hHead : (trim line).head? = some 0x3a := by
    by_contra hOther
    rw [zshExtendedMatch_of_head hOther] at h
    cases h
  obtain ⟨rest, hTrim⟩ := List.head?_eq_some_iff.mp hHead
  have hStart : stripStart (ofAscii ['-', ' ', 'c', 'm', 'd', ':', ' ']) (0x3a :: rest) = none := rfl
  rw [hTrim] at h
  simp only [parseTerminalHistoryLine, hTrim, hStart, h]
  rfl

theorem parseTerminalHistoryLine_of_blank {line : CodeUnits} (h : trim line = []) : parseTerminalHistoryLine line = none := by
  simp only [parseTerminalHistoryLine, h, if_true]

theorem keepsLine_eq_iff {command : Command} (hCommand : command ≠ []) (line : CodeUnits) :
    keepsLine command line = decide (parseTerminalHistoryLine line ≠ some command) ↔ ¬ Overlooked command line ∧ ¬ TakenWhole command line := by
  unfold Overlooked TakenWhole keepsLine
  dsimp only
  by_cases hBlank : trim line = []
  · rw [if_pos hBlank, parseTerminalHistoryLine_of_blank hBlank, hBlank]
    simp [hCommand.symm]
  · rw [if_neg hBlank]
    by_cases hWhole : trim line = command
    · simp [hWhole]
    · rw [if_neg hWhole]
      cases hZsh : zshExtendedMatch (trim line) with
      | some zshCommand => simp [parseTerminalHistoryLine_of_zsh hZsh, nonEmpty_eq_some_iff hCommand, hWhole]
      | none => simp [hWhole]

def lineKey (content : List Byte) : CodeUnits := trim (Utf16.ofBytes content)

def recode (content : List Byte) : List Byte := Utf8.encode (Utf8.decode content)

theorem recode_break (front back : List Byte) : recode (front ++ 0x0a :: back) = recode front ++ 0x0a :: recode back := by
  rw [recode, Utf16.decode_break front (by decide), Utf8.encode, List.flatMap_append, List.flatMap_cons,
    Utf16.utf8EncodeChar_ascii (b := 0x0a) (by decide)]
  rfl

theorem ofBytes_intercalate (contents : List (List Byte)) :
    [0x0a].intercalate (contents.map Utf16.ofBytes) = Utf16.ofBytes ([0x0a].intercalate contents) := by
  induction contents with
  | nil => rfl
  | cons content rest ih =>
    cases rest with
    | nil => simp
    | cons next rest =>
      have hBreak := Utf16.ofBytes_break content (b := 0x0a) (by decide) ([0x0a].intercalate (next :: rest))
      rw [List.map_cons, List.map_cons, List.intercalate_cons_cons, ← List.map_cons, ih, List.intercalate_cons_cons, List.append_assoc,
        List.append_assoc]
      exact hBreak.symm

theorem recode_intercalate (contents : List (List Byte)) : recode ([0x0a].intercalate contents) = [0x0a].intercalate (contents.map recode) := by
  induction contents with
  | nil => rfl
  | cons content rest ih =>
    cases rest with
    | nil => simp
    | cons next rest =>
      rw [List.map_cons, List.map_cons, List.intercalate_cons_cons, List.intercalate_cons_cons, ← List.map_cons, ← ih, List.append_assoc,
        List.append_assoc]
      exact recode_break content _

variable (original : List Byte)

theorem splitLines_ofBytes :
    splitLines [] (Utf16.ofBytes original) = (endedLines 0x0d 0x0a original).map fun line => Utf16.ofBytes line.content := by
  rw [splitLines_eq_endedLines]
  refine map_content_endedLines ?_ ?_ ?_ ?_ original
  · exact fun front back => Utf16.ofBytes_break front (b := 0x0a) (by decide) back
  · exact fun t hMem => Utf16.mem_of_mem_ofBytes (b := 0x0a) (by decide) hMem
  · exact fun front => Utf16.ofBytes_break front (b := 0x0d) (by decide) []
  · exact fun t hLast => (Utf16.getLast?_ofBytes_iff (b := 0x0d) (by decide)).mp hLast

theorem deleteFromHistoryFile_eq (command : Command) :
    deleteFromHistoryFile original command = rejoined 0x0d 0x0a lineKey (keepsLine command) recode original := by
  have hKept : (splitLines [] (Utf16.ofBytes original)).filter (keepsLine command) =
      (((endedLines 0x0d 0x0a original).filter fun line => keepsLine command (lineKey line.content)).map (·.content)).map Utf16.ofBytes := by
    rw [splitLines_ofBytes, List.filter_map, List.map_map]
    congr 1
    exact List.filter_congr fun line _ => (keepsLine_trim command (Utf16.ofBytes line.content)).symm
  rw [deleteFromHistoryFile, hKept, ofBytes_intercalate, Utf16.toBytes_ofBytes, ← recode, recode_intercalate, List.map_map]
  rfl

variable (content : List Byte)

theorem lineKey_recode : lineKey (recode content) = lineKey content := by
  rw [lineKey, Utf16.ofBytes, recode, Utf8.decode_encode, ← Utf16.ofBytes, ← lineKey]

theorem lineKey_concat_return : lineKey (content ++ [0x0d]) = lineKey content := by
  have hUnits : Utf16.ofBytes (content ++ [0x0d]) = Utf16.ofBytes content ++ [0x0d] := Utf16.ofBytes_break content (b := 0x0d) (by decide) []
  rw [lineKey, hUnits, trim_concat_whitespace _ (by decide), lineKey]

theorem recode_ne_concat_return : recode content ≠ content ++ [0x0d] := by
  intro hSame
  have hDecoded := congrArg Utf8.decode hSame
  rw [recode, Utf8.decode_encode, Utf16.decode_break content (by decide)] at hDecoded
  have hLength := congrArg List.length hDecoded
  rw [List.length_append, List.length_cons] at hLength
  omega

theorem not_mem_recode {content : List Byte} (h : 0x0a ∉ content) : 0x0a ∉ recode content := by
  intro hMem
  obtain ⟨front, back, hSplit⟩ := List.append_of_mem hMem
  have hDecoded : Utf8.decode (recode content) = Utf8.decode content := Utf8.decode_encode _
  rw [hSplit, Utf16.decode_break front (by decide)] at hDecoded
  exact h (Utf16.mem_of_mem_decode (b := 0x0a) (by decide) (hDecoded ▸ List.mem_append_right _ List.mem_cons_self))

theorem wellFormed_iff_recode {content : List Byte} : WellFormed content ↔ recode content = content := Utf8.wellFormed_iff

def isEntryOf (command : Command) (line : CodeUnits) : Bool := parseTerminalHistoryLine line = some command

theorem withoutCommand_eq (command : Command) :
    withoutCommand original command = without 0x0d 0x0a lineKey (fun line => !isEntryOf command line) original := by
  rw [withoutCommand, without]
  congr 1
  refine List.filter_congr fun line _ => ?_
  rw [isEntryOf, lineKey, parseTerminalHistoryLine_trim, decide_not]

theorem onlyLinesGo_iff {original : List Byte} {command : Command} (hCommand : command ≠ []) :
    OnlyLinesGo original command ↔ Untouched 0x0d 0x0a lineKey (keepsLine command) (fun line => !isEntryOf command line) recode original := by
  have hSame : ∀ line : Line Byte, keepsLine command (lineKey line.content) = !isEntryOf command (lineKey line.content) ↔
      ¬ Overlooked command (Utf16.ofBytes line.content) ∧ ¬ TakenWhole command (Utf16.ofBytes line.content) := by
    intro line
    rw [← keepsLine_eq_iff hCommand, isEntryOf, lineKey, keepsLine_trim, parseTerminalHistoryLine_trim, decide_not]
  constructor
  · intro h
    refine ⟨?_, ?_, ?_, ?_⟩
    · exact fun line hLine => (hSame line).mpr ⟨h.overlooked line hLine, h.takenWhole line hLine⟩
    · exact fun line hLine hKeeps => wellFormed_iff_recode.mp (h.encoding line hLine (keepsLine_trim command _ ▸ hKeeps))
    · exact fun line hLine hKeeps => h.ending line hLine (keepsLine_trim command _ ▸ hKeeps)
    · rintro ⟨line, hLine, hKeeps⟩ last hLast
      rw [lineKey, keepsLine_trim] at hKeeps ⊢
      exact h.last ⟨line, hLine, hKeeps⟩ last hLast
  · intro h
    have hKeeps : ∀ line : Line Byte, keepsLine command (Utf16.ofBytes line.content) = keepsLine command (lineKey line.content) :=
      fun line => (keepsLine_trim command _).symm
    refine ⟨?_, ?_, ?_, ?_, ?_⟩
    · exact fun line hLine => ((hSame line).mp (h.same line hLine)).1
    · exact fun line hLine => ((hSame line).mp (h.same line hLine)).2
    · exact fun line hLine hKept => wellFormed_iff_recode.mpr (h.content line hLine ((hKeeps line).symm.trans hKept))
    · exact fun line hLine hKept => h.ending line hLine ((hKeeps line).symm.trans hKept)
    · rintro ⟨line, hLine, hKept⟩ last hLast
      rw [hKeeps]
      exact h.last ⟨line, hLine, (hKeeps line).symm.trans hKept⟩ last hLast

/-- A file loses the command's lines and nothing else exactly when what stays survives decoding, splitting and joining. -/
theorem historyDelete_eq_withoutCommand_iff (original : List Byte) (message : CodeUnits) :
    historyDelete original message = withoutCommand original (trim message) ↔ trim message = [] ∨ OnlyLinesGo original (trim message) := by
  rw [historyDelete]
  split
  · next hBlank =>
    refine iff_of_true ?_ (.inl hBlank)
    have hNone : ∀ line ∈ endedLines 0x0d 0x0a original,
        decide (parseTerminalHistoryLine (Utf16.ofBytes line.content) ≠ some (trim message)) = true := by
      intro line _
      rw [hBlank]
      exact decide_eq_true fun hSome => (normal_parseTerminalHistoryLine hSome).2 rfl
    rw [withoutCommand, List.filter_eq_self.mpr hNone, text_endedLines]
  · next hCommand =>
    rw [or_iff_right hCommand, onlyLinesGo_iff hCommand, deleteFromHistoryFile_eq, withoutCommand_eq]
    constructor
    · refine untouched_of_eq lineKey_recode lineKey_concat_return recode_ne_concat_return (fun _ => not_mem_recode) rfl ?_
      rfl
    · exact eq_of_untouched lineKey_concat_return

/-- `echo –` as zsh writes it, and `ls` below. -/
def metafiedHistory : List Byte := [0x65, 0x63, 0x68, 0x6f, 0x20, 0xe2, 0x80, 0x83, 0xb3, 0x0a, 0x6c, 0x73, 0x0a]

theorem deletion_rewrites_metafied_line : historyDelete metafiedHistory [0x6c, 0x73] ≠ withoutCommand metafiedHistory (trim [0x6c, 0x73]) ∧
      historyDelete metafiedHistory [0x6c, 0x73] = [0x65, 0x63, 0x68, 0x6f, 0x20, 0xe2, 0x80, 0x83, 0xef, 0xbf, 0xbd, 0x0a] := by
  decide

end Terminal
