import Cosmosh.Terminal.PathLookupCommand

/-! # The command that deletes a line of the remote history

The string opens the script of `sh -lc` with a backslash and closes it with a single quote.
-/

namespace Terminal

open Library Library.Shell

def escapeShellSingleQuote (value : Text) : Text := value.flatMap fun c => if c = '\'' then "'\"'\"'".toList else [c]

def deletionOpening : Text := " sh -lc \\set +e; target='".toList

def deletionRest : Text :=
  '\'' :: ("; cleanup_plain()\x7b file=\"$1\"; if [ -f \"$file\" ]; then tmp=\"$file.cosmosh.$$\"; ".toList ++
    "grep -Fvx -- \"$target\" \"$file\" > \"$tmp\" 2>/dev/null && mv \"$tmp\" \"$file\"; fi; \x7d; ".toList ++
    "cleanup_zsh()\x7b file=\"$1\"; if [ -f \"$file\" ]; then tmp=\"$file.cosmosh.$$\"; ".toList ++
    "awk -v target=\"$target\" \"\x7bline=$0;cmd=line; if (match(line,/^: [0-9]+:[0-9]+;/)) ".toList ++
    "\x7bcmd=substr(line,RSTART+RLENGTH)\x7d if (cmd==target) \x7bnext\x7d print line\x7d\" ".toList ++
    "\"$file\" > \"$tmp\" 2>/dev/null && mv \"$tmp\" \"$file\"; fi; \x7d; ".toList ++
    "cleanup_plain \"$HISTFILE\"; cleanup_plain \"$HOME/.bash_history\"; cleanup_plain \"$HOME/.ash_history\"; ".toList ++
    "cleanup_plain \"$HOME/.sh_history\"; cleanup_plain \"$HOME/.mksh_history\"; ".toList ++
    "cleanup_plain \"$HOME/.ksh_history\"; cleanup_zsh \"$HOME/.zsh_history\";'".toList)

def deleteRemoteHistoryEntry (command : Text) : Option Text :=
  let normalizedCommand := JsText.trim command
  if normalizedCommand.length = 0 then none
  else some (deletionOpening ++ (escapeShellSingleQuote normalizedCommand ++ deletionRest))

/-- The login shell reads one command that hands a script to `sh -lc`, and the script sets `target` to the command. -/
def WellFormedDeletion (command : Text) : Prop :=
  ∃ line script tokens word value, deleteRemoteHistoryEntry command = some line ∧ innerScript? line = some script ∧
    lex script = some tokens ∧ .word word ∈ tokens ∧ assignment? word = some ("target".toList, value) ∧
    literalText? value = some (JsText.trim command)

theorem read_escapeShellSingleQuote (value : Text) (pieces : List Piece) :
    (Reader.quoting pieces).read (escapeShellSingleQuote value) = ([], Reader.quoting (pieces ++ quotedText value)) := read_escaped value pieces

def openingTokens : List Token :=
  [.word ("sh".toList.map (Piece.literal false)), .word ("-lc".toList.map (Piece.literal false)),
    .word (.literal true 's' :: "et".toList.map (Piece.literal false)), .word ("+e".toList.map (Piece.literal false)),
    .operator ";".toList]

theorem read_deletionOpening : start.read deletionOpening = (openingTokens, Reader.quoting ("target=".toList.map (Piece.literal false))) := by
  decide

theorem deletionRest_split : ∃ rest, deletionRest = '\'' :: ';' :: rest ∧
    (({ start with operator := [';'] } : Reader).read rest).2.stack = [.single] := by
  apply Exists.intro
  apply And.intro
  · exact cons_congr _ <| append_congr (append_congr (append_congr (append_congr (append_congr (append_congr (append_congr
      (append_congr (toList_literal rfl) (toList_literal rfl)) (toList_literal rfl)) (toList_literal rfl)) (toList_literal rfl))
      (toList_literal rfl)) (toList_literal rfl)) (toList_literal rfl)) (toList_literal rfl)
  · decide +kernel

theorem stack_deletionRest (pieces : List Piece) : ((Reader.quoting pieces).read deletionRest).2.stack = [.single] := by
  obtain ⟨rest, hRest, hStack⟩ := deletionRest_split
  have hValue : (Reader.quoting pieces).read ['\'', ';'] = ([.word pieces], { start with operator := [';'] }) := rfl
  have hSplit : '\'' :: ';' :: rest = ['\'', ';'] ++ rest := rfl
  rw [hRest, hSplit, Reader.read_append, hValue]
  exact hStack

theorem lex_deletion {command line : Text} (h : deleteRemoteHistoryEntry command = some line) : lex line = none := by
  rw [deleteRemoteHistoryEntry] at h
  split at h
  · cases h
  · cases h
    have hValue := read_escapeShellSingleQuote (JsText.trim command) ("target=".toList.map (Piece.literal false))
    rw [lex, Reader.readAll_parts read_deletionOpening, Reader.readAll_parts hValue, Reader.readAll, Reader.finish, if_neg]
    · rfl
    · rintro ⟨hEmpty, -⟩
      exact absurd ((stack_deletionRest _).symm.trans hEmpty) (List.cons_ne_nil _ _)

/-- No shell reads the string to its end, whatever the command is. -/
theorem deletion_is_never_wellFormed (command : Text) : ¬WellFormedDeletion command := by
  rintro ⟨line, script, tokens, word, value, hLine, hScript, -⟩
  rw [innerScript?, lex_deletion hLine] at hScript
  cases hScript

theorem ls_is_not_deleted : (deleteRemoteHistoryEntry "ls".toList).isSome ∧
    ((deleteRemoteHistoryEntry "ls".toList).bind lex) = none ∧ ¬WellFormedDeletion "ls".toList := by
  have hLine : deleteRemoteHistoryEntry "ls".toList = some (deletionOpening ++ (escapeShellSingleQuote "ls".toList ++ deletionRest)) := by
    have hTrim : JsText.trim "ls".toList = "ls".toList := by decide
    rw [deleteRemoteHistoryEntry, hTrim]
    rfl
  rw [hLine, Option.bind_some]
  exact ⟨Option.isSome_some, lex_deletion hLine, deletion_is_never_wellFormed _⟩

end Terminal
