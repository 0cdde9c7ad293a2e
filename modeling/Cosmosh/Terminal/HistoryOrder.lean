import Mathlib.Data.List.Dedup
import Cosmosh.Terminal.CommandRecency

/-! # The order of the remote history

Of a command that occurs more than once only the last occurrence counts.
-/

namespace Terminal

open Library Library.CodeUnits

variable {maxEntries : Nat} {deduplicated commands result : List Command} {command b c : Command}

def LastBefore (commands : List Command) (b c : Command) : Prop := ∃ after, after <:+ commands ∧ c ∈ after ∧ b ∉ after

theorem LastBefore.cons (h : LastBefore commands b c) (command : Command) : LastBefore (command :: commands) b c := by
  obtain ⟨after, hAfter, hIn, hOut⟩ := h
  exact ⟨after, hAfter.trans (List.suffix_cons command commands), hIn, hOut⟩

theorem pairwise_dedup (commands : List Command) : commands.dedup.Pairwise (LastBefore commands) := by
  induction commands with
  | nil => exact .nil
  | cons command commands ih =>
    have hTail : commands.dedup.Pairwise (LastBefore (command :: commands)) := ih.imp fun h => h.cons command
    by_cases hMem : command ∈ commands
    · rw [List.dedup_cons_of_mem hMem]
      exact hTail
    · rw [List.dedup_cons_of_notMem hMem]
      refine List.pairwise_cons.mpr ⟨fun c hc => ?_, hTail⟩
      exact ⟨commands, List.suffix_cons command commands, List.mem_dedup.mp hc, hMem⟩

theorem newestCommands_eq_take (hNodup : deduplicated.Nodup) (hRoom : deduplicated.length < maxEntries) :
    newestCommands maxEntries deduplicated commands = (deduplicated ++ commands).reverse.dedup.reverse.take maxEntries := by
  induction commands generalizing deduplicated with
  | nil =>
    rw [newestCommands, List.append_nil, (List.nodup_reverse.mpr hNodup).dedup, List.reverse_reverse,
      List.take_of_length_le hRoom.le]
  | cons command commands ih =>
    rw [newestCommands]
    split
    · next hSeen =>
      rw [ih hNodup hRoom]
      simp only [List.reverse_append, List.reverse_cons, List.append_assoc, List.singleton_append, List.dedup_append,
        List.dedup_cons_of_mem (List.mem_reverse.mpr hSeen)]
    · next hFresh =>
      have hAdded : (deduplicated ++ [command]).Nodup := List.nodup_append.mpr
        ⟨hNodup, List.nodup_singleton command, fun c hc d hd hSame => hFresh (List.mem_singleton.mp hd ▸ hSame ▸ hc)⟩
      rw [List.append_cons deduplicated command commands]
      split
      · next hFull =>
        have hSuffix : (deduplicated ++ [command]).reverse <:+ (deduplicated ++ [command] ++ commands).reverse.dedup := by
          have hReversed : (deduplicated ++ [command] ++ commands).reverse = commands.reverse ++ (deduplicated ++ [command]).reverse :=
            List.reverse_append
          rw [hReversed, List.dedup_append, (List.nodup_reverse.mpr hAdded).dedup]
          exact List.suffix_union_right _ _
        have hKept := List.reverse_prefix.mpr hSuffix
        rw [List.reverse_reverse] at hKept
        have hLength : (deduplicated ++ [command]).length = maxEntries := by
          refine Nat.le_antisymm ?_ hFull
          rw [List.length_append, List.length_singleton]
          exact hRoom
        rw [← hLength]
        exact List.prefix_iff_eq_take.mp hKept
      · next hLess => exact ih hAdded (Nat.not_le.mp hLess)

theorem parseTerminalHistoryOutput_eq_rtake (output : CodeUnits) (hRoom : 0 < maxEntries) : parseTerminalHistoryOutput output maxEntries =
      ((splitLines [] output).filterMap parseTerminalHistoryLine).dedup.rtake maxEntries := by
  rw [parseTerminalHistoryOutput, newestCommands_eq_take List.nodup_nil hRoom, List.nil_append, List.reverse_reverse,
    List.rtake_eq_reverse_take_reverse]

structure NewestDistinct (maxEntries : Nat) (commands result : List Command) : Prop where
  distinct : result.Nodup
  bounded : result.length ≤ maxEntries
  listed : ∀ c ∈ result, c ∈ commands
  ordered : result.Pairwise (LastBefore commands)
  complete : ∀ c ∈ commands, c ∉ result → result.length = maxEntries ∧ ∀ b ∈ result, LastBefore commands c b

theorem newestDistinct_rtake (maxEntries : Nat) (commands : List Command) :
    NewestDistinct maxEntries commands (commands.dedup.rtake maxEntries) := by
  have hLength : (commands.dedup.rtake maxEntries).length = min maxEntries commands.dedup.length := by
    rw [List.rtake, List.length_drop]
    omega
  have hSplit := List.take_append_drop (commands.dedup.length - maxEntries) commands.dedup
  have hOrder := pairwise_dedup commands
  rw [← hSplit, List.pairwise_append] at hOrder
  obtain ⟨-, hOrdered, hEarlier⟩ := hOrder
  refine ⟨(List.nodup_dedup commands).sublist (List.drop_sublist _ _), ?_, ?_, hOrdered, ?_⟩
  · rw [hLength]
    exact Nat.min_le_left _ _
  · exact fun c hc => List.mem_dedup.mp (List.mem_of_mem_drop hc)
  · intro c hc hDropped
    have hMem : c ∈ commands.dedup.take (commands.dedup.length - maxEntries) := by
      have hAll := List.mem_dedup.mpr hc
      rw [← hSplit] at hAll
      exact (List.mem_append.mp hAll).resolve_right hDropped
    have hSome := List.length_pos_of_mem hMem
    rw [List.length_take] at hSome
    exact ⟨by omega, hEarlier c hMem⟩

theorem history_output_newest_distinct (output : CodeUnits) (maxEntries : Nat) (hRoom : 0 < maxEntries) :
    NewestDistinct maxEntries ((splitLines [] output).filterMap parseTerminalHistoryLine) (parseTerminalHistoryOutput output maxEntries) ∧
      ∀ command ∈ parseTerminalHistoryOutput output maxEntries,
        Normal command ∧ ∃ line ∈ splitLines [] output, parseTerminalHistoryLine line = some command := by
  have hNewest := newestDistinct_rtake maxEntries ((splitLines [] output).filterMap parseTerminalHistoryLine)
  rw [← parseTerminalHistoryOutput_eq_rtake output hRoom] at hNewest
  refine ⟨hNewest, fun command hCommand => ?_⟩
  obtain ⟨line, hLine, hParsed⟩ := List.mem_filterMap.mp (hNewest.listed command hCommand)
  exact ⟨normal_parseTerminalHistoryLine hParsed, line, hLine, hParsed⟩

theorem default_history_newest_distinct :
    NewestDistinct TERMINAL_HISTORY_MAX_ENTRIES ((splitLines [] (ofAscii ['a', '\n', 'b', '\n', 'a'])).filterMap parseTerminalHistoryLine)
      (parseTerminalHistoryOutput (ofAscii ['a', '\n', 'b', '\n', 'a']) TERMINAL_HISTORY_MAX_ENTRIES) :=
  (history_output_newest_distinct (ofAscii ['a', '\n', 'b', '\n', 'a']) TERMINAL_HISTORY_MAX_ENTRIES (by decide)).1

end Terminal
