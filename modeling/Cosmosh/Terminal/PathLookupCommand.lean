import Cosmosh.Library.ShellLexer

/-! # The command that lists a remote directory

The login shell hands the script to `sh -lc` between single quotes, and the script puts the directory between single
quotes of its own.
-/

namespace Terminal

open Library Library.Shell

def escapeSingleQuotedForSh (value : Text) : Text := value.flatMap fun c => if c = '\'' then "'\"'\"'".toList else [c]

def maxRemoteScanEntries : Nat := 200

/-- What the script does with the entries once `dir` is set. -/
def scanEntries : Text :=
  ';' :: (" count=0; for p in \"$".toList ++
    "dir\"/* \"$dir\"/.*; do [ -e \"$p\" ] || continue; name=$\x7bp##*/\x7d; ".toList ++
    "[ \"$name\" = \".\" ] && continue; [ \"$name\" = \"..\" ] && continue; if [ -d \"$p\" ]; then ".toList ++
    "printf \"D\\t%s\\000\" \"$name\"; else printf \"F\\t%s\\000\" \"$name\"; fi; count=$((count+1)); ".toList ++
    "if [ \"$count\" -ge ".toList ++ (toString maxRemoteScanEntries).toList ++ " ]; then break; fi; done".toList)

def remotePathCommand (lookupDirectory : Text) : Text :=
  's' :: "h -lc 'set +e; dir='\"'\"'".toList ++ escapeSingleQuotedForSh lookupDirectory ++
    "'\"'\"'".toList ++ scanEntries ++ ['\'']

/-- The script that `sh -lc` receives from the login shell. -/
def innerScript? (command : Text) : Option Text :=
  match lex command with
  | some [.word shell, .word option, .word script] =>
    if literalText? shell = some "sh".toList ∧ literalText? option = some "-lc".toList then literalText? script
    else none
  | _ => none

def tokensBefore : List Token := (lex "set +e;".toList).getD []

def tokensAfter : List Token := (lex scanEntries).getD []

def InjectionFree (lookupDirectory : Text) : Prop :=
  ∃ script word value, innerScript? (remotePathCommand lookupDirectory) = some script ∧
    lex script = some (tokensBefore ++ .word word :: tokensAfter) ∧ assignment? word = some ("dir".toList, value) ∧
    literalText? value = some lookupDirectory

def assignmentName : List Piece := "dir=".toList.map (Piece.literal false)

def innerScript (lookupDirectory : Text) : Text := "set +e; dir='".toList ++ lookupDirectory ++ '\'' :: scanEntries

variable (lookupDirectory : Text)

theorem innerScript_eq : innerScript lookupDirectory = "set +e; dir='".toList ++ (lookupDirectory ++ '\'' :: scanEntries) :=
  List.append_assoc _ _ _

theorem limit_chars : (toString maxRemoteScanEntries).toList = ['2', '0', '0'] := by decide

theorem cons_congr {a b : Text} (c : Char) (h : a = b) : c :: a = c :: b := by rw [h]

theorem append_congr {a b c d : Text} (hLeft : a = c) (hRight : b = d) : a ++ b = c ++ d := by rw [hLeft, hRight]

theorem scanEntries_chars : ∃ chars, scanEntries = chars ∧ '\'' ∉ chars ∧ (lex chars).isSome ∧
    "; count=0; for p in ".toList ++ "\"$".toList <+: chars := by
  apply Exists.intro
  apply And.intro
  · exact cons_congr _ <| append_congr (append_congr (append_congr (append_congr (append_congr (append_congr
      (toList_literal rfl) (toList_literal rfl)) (toList_literal rfl)) (toList_literal rfl)) (toList_literal rfl))
      limit_chars) (toList_literal rfl)
  · refine ⟨?_, ?_, ?_⟩ <;> decide +kernel

theorem not_mem_scanEntries : '\'' ∉ scanEntries := by
  obtain ⟨chars, hChars, hQuote, -, -⟩ := scanEntries_chars
  rw [hChars]
  exact hQuote

theorem lex_scanEntries : lex scanEntries = some tokensAfter := by
  obtain ⟨chars, hChars, -, hLex, -⟩ := scanEntries_chars
  obtain ⟨tokens, hTokens⟩ := Option.isSome_iff_exists.mp hLex
  rw [tokensAfter, hChars, hTokens]
  rfl

theorem read_escaped (value : Text) (pieces : List Piece) : (Reader.quoting pieces).read (escapeSingleQuotedForSh value) =
      ([], Reader.quoting (pieces ++ quotedText value)) := by
  induction value generalizing pieces with
  | nil => simp [escapeSingleQuotedForSh, Reader.read, quotedText]
  | cons c value ih =>
    have hCons : escapeSingleQuotedForSh (c :: value) =
        (if c = '\'' then "'\"'\"'".toList else [c]) ++ escapeSingleQuotedForSh value := rfl
    have hChar : (Reader.quoting pieces).read (if c = '\'' then "'\"'\"'".toList else [c]) =
        ([], Reader.quoting (pieces ++ [.literal true c])) := by
      split
      · rename_i hc
        rw [hc]
        exact Reader.read_requoted pieces
      · rename_i hc
        exact Reader.read_quoting (by simpa using Ne.symm hc) pieces
    rw [hCons, Reader.read_append, hChar, ih]
    simp [quotedText]

theorem read_shell : start.read ('s' :: "h -lc '".toList) =
    ([.word ("sh".toList.map (Piece.literal false)), .word ("-lc".toList.map (Piece.literal false))], Reader.quoting []) := by
  decide

theorem innerScript_command : innerScript? (remotePathCommand lookupDirectory) = some (innerScript lookupDirectory) := by
  have hOpening : 's' :: "h -lc 'set +e; dir='\"'\"'".toList =
      ('s' :: "h -lc '".toList) ++ ("set +e; dir=".toList ++ "'\"'\"'".toList) := by decide
  have hSplit : remotePathCommand lookupDirectory = ('s' :: "h -lc '".toList) ++ ("set +e; dir=".toList ++
      ("'\"'\"'".toList ++ (escapeSingleQuotedForSh lookupDirectory ++ ("'\"'\"'".toList ++
        (scanEntries ++ ['\'']))))) := by
    rw [remotePathCommand, hOpening]
    simp only [List.append_assoc]
  have hRead : (start.read (remotePathCommand lookupDirectory)) =
      ([.word ("sh".toList.map (Piece.literal false)), .word ("-lc".toList.map (Piece.literal false))],
        { start with word := some (quotedText (innerScript lookupDirectory)) }) := by
    have hPieces : quotedText (innerScript lookupDirectory) = quotedText "set +e; dir=".toList ++
        [.literal true '\''] ++ quotedText lookupDirectory ++ [.literal true '\''] ++ quotedText scanEntries := by
      have hScript : "set +e; dir='".toList = "set +e; dir=".toList ++ ['\''] := by decide
      rw [innerScript_eq, hScript]
      simp [quotedText]
    have hName := Reader.read_quoting (show '\'' ∉ "set +e; dir=".toList by decide) []
    rw [hPieces, hSplit]
    exact Reader.read_parts read_shell <| Reader.read_parts hName <| Reader.read_parts (Reader.read_requoted _) <|
      Reader.read_parts (read_escaped lookupDirectory _) <| Reader.read_parts (Reader.read_requoted _) <|
      Reader.read_parts (Reader.read_quoting not_mem_scanEntries _) (Reader.read_closing _)
  have hLex : lex (remotePathCommand lookupDirectory) = some [.word ("sh".toList.map (Piece.literal false)),
      .word ("-lc".toList.map (Piece.literal false)), .word (quotedText (innerScript lookupDirectory))] := by
    rw [lex, Reader.readAll, hRead]
    rfl
  have hShell : literalText? ("sh".toList.map (Piece.literal false)) = some "sh".toList := rfl
  have hOption : literalText? ("-lc".toList.map (Piece.literal false)) = some "-lc".toList := rfl
  simp only [innerScript?, hLex, hShell, hOption, literalText?_quotedText, and_self, if_true]

theorem read_opening : start.read "set +e; dir='".toList = (tokensBefore, Reader.quoting assignmentName) := by
  decide

theorem trailer_scanEntries : Reader.Trailer scanEntries where
  separates := by
    intro w s hReading hStack hEscaped
    have hStep : (s.step ';').1 = [.word w] := by
      rw [Reader.step_of_unquoted hReading.comment hStack hReading.operator, Reader.stepUnquoted, hEscaped]
      exact hReading.wordTokens
    exact ⟨_, by rw [scanEntries, Reader.read, hStep, List.singleton_append]⟩
  no_quote := not_mem_scanEntries
  expands := by
    obtain ⟨chars, hChars, -, -, rest, hRest⟩ := scanEntries_chars
    refine ⟨"; count=0; for p in ".toList ++ "\"$".toList, rest, by rw [hChars, hRest], fun w => ?_⟩
    have hDouble := Reader.read_doubleQuoting (show ∀ c ∈ "; count=0; for p in ".toList,
      Reader.plainInDouble c = true by decide) w
    refine ⟨quotedText "; count=0; for p in ".toList ++ [.active '$'], { start with
      word := some (w ++ quotedText "; count=0; for p in ".toList ++ [.active '$']), afterDollar := true },
      ?_, ⟨by rw [List.append_assoc], rfl, rfl⟩, literalText?_concat_active _ _⟩
    rw [show ({ start with word := some w, stack := [.double] } : Reader) = Reader.doubleQuoting w from rfl,
      Reader.read_append, hDouble, Reader.read_unquoted_dollar]
    rfl

theorem scanEntries_eq : scanEntries = [';'] ++ scanEntries.tail := rfl

theorem readAll_scanEntries (w : List Piece) :
    ({ start with word := some w } : Reader).readAll scanEntries = some (.word w :: tokensAfter) := by
  have hOwn : start.readAll scanEntries = some tokensAfter := lex_scanEntries
  have hStart : start.read [';'] = ([], { start with operator := [';'] }) := rfl
  have hWord : ({ start with word := some w } : Reader).read [';'] = ([.word w], { start with operator := [';'] }) := rfl
  rw [scanEntries_eq] at hOwn ⊢
  rw [Reader.readAll_parts hStart, Option.map_eq_some_iff] at hOwn
  obtain ⟨tokens, hRest, hTokens⟩ := hOwn
  rw [Reader.readAll_parts hWord, hRest, ← hTokens]
  rfl

theorem lex_innerScript : lex (innerScript lookupDirectory) =
    ((Reader.quoting assignmentName).readAll (lookupDirectory ++ '\'' :: scanEntries)).map (tokensBefore ++ ·) := by
  rw [innerScript_eq]
  exact Reader.readAll_parts read_opening

theorem injectionFree_of_not_mem {lookupDirectory : Text} (h : '\'' ∉ lookupDirectory) : InjectionFree lookupDirectory := by
  refine ⟨innerScript lookupDirectory, assignmentName ++ quotedText lookupDirectory, quotedText lookupDirectory,
    innerScript_command lookupDirectory, ?_, rfl, literalText?_quotedText lookupDirectory⟩
  have hValue := Reader.read_parts (Reader.read_quoting h assignmentName) (Reader.read_closing _)
  have hSplit : lookupDirectory ++ '\'' :: scanEntries = (lookupDirectory ++ "'".toList) ++ scanEntries := by
    rw [List.append_assoc]
    rfl
  rw [lex_innerScript, hSplit, Reader.readAll_parts hValue, readAll_scanEntries]
  rfl

theorem not_injectionFree_of_mem {lookupDirectory : Text} (h : '\'' ∈ lookupDirectory) : ¬InjectionFree lookupDirectory := by
  rintro ⟨script, word, value, hScript, hLex, hWord, hValue⟩
  rw [innerScript_command, Option.some.injEq] at hScript
  rw [← hScript, lex_innerScript, Option.map_eq_some_iff] at hLex
  obtain ⟨tokens, hRead, hTokens⟩ := hLex
  have hTail := List.append_cancel_left hTokens
  have hStart : Reader.Reading assignmentName (Reader.quoting assignmentName) := ⟨rfl, rfl, rfl⟩
  obtain ⟨more, rest, hMore⟩ := hStart.readAll hRead
  rw [hTail, List.cons.injEq, Token.word.injEq] at hMore
  have hAssigned : assignment? word = some ("dir".toList, more) := by
    rw [hMore.1]
    rfl
  rw [hWord, Option.some.injEq, Prod.mk.injEq] at hAssigned
  rw [hAssigned.2] at hValue
  exact Reader.quote_changes_value h trailer_scanEntries assignmentName hRead (by rw [hTail, hMore.1]) hValue

/-- The lookup is free of injection exactly when the directory contains no single quote. -/
theorem injectionFree_iff (lookupDirectory : Text) : InjectionFree lookupDirectory ↔ '\'' ∉ lookupDirectory :=
  ⟨fun hFree hMem => not_injectionFree_of_mem hMem hFree, injectionFree_of_not_mem⟩

theorem directory_runs_a_command : ¬InjectionFree "/tmp/';touch x;'".toList ∧ ∃ script,
      innerScript? (remotePathCommand "/tmp/';touch x;'".toList) = some script ∧
      lex script = some (tokensBefore ++ [.word (assignmentName ++ quotedText "/tmp/".toList), .operator ";".toList,
        .word ("touch".toList.map (Piece.literal false)), .word ("x".toList.map (Piece.literal false)),
        .operator ";".toList, .word []] ++ tokensAfter) := by
  refine ⟨not_injectionFree_of_mem (by decide), innerScript "/tmp/';touch x;'".toList,
    innerScript_command _, ?_⟩
  have hPayload : (Reader.quoting assignmentName).read ("/tmp/';touch x;'".toList ++ ['\'']) =
      ([.word (assignmentName ++ quotedText "/tmp/".toList), .operator ";".toList,
        .word ("touch".toList.map (Piece.literal false)), .word ("x".toList.map (Piece.literal false)),
        .operator ";".toList], { start with word := some [] }) := by decide
  have hSplit : "/tmp/';touch x;'".toList ++ '\'' :: scanEntries =
      ("/tmp/';touch x;'".toList ++ ['\'']) ++ scanEntries := by simp
  rw [lex_innerScript, hSplit, Reader.readAll_parts hPayload, readAll_scanEntries]
  simp

end Terminal
