import Cosmosh.Library.UsageOrder
import Cosmosh.Terminal.RecentCommands

/-! # Which end of the recent commands is the newest

The completion engine takes the last command for the newest one.
-/

namespace Terminal

open Library Library.CodeUnits

def Normal (command : Command) : Prop := trim command = command ∧ command ≠ []

theorem normal_trim {t : CodeUnits} (h : trim t ≠ []) : Normal (trim t) := ⟨trim_trim t, h⟩

variable {command : Command}

theorem nonEmpty_trim {t : CodeUnits} (h : nonEmpty (trim t) = some command) : Normal command := by
  unfold nonEmpty at h
  split at h
  · cases h
  · next hFull =>
    obtain rfl := Option.some.inj h
    exact normal_trim hFull

theorem normal_parseTerminalHistoryLine {line : CodeUnits} (h : parseTerminalHistoryLine line = some command) : Normal command := by
  simp only [parseTerminalHistoryLine] at h
  split at h
  · cases h
  · next hFull =>
    split at h
    · cases h
    · split at h
      · exact nonEmpty_trim h
      · split at h
        · exact nonEmpty_trim h
        · split at h
          · exact nonEmpty_trim h
          · split at h
            · cases h
            · obtain rfl := Option.some.inj h
              exact normal_trim hFull

variable {maxEntries : Nat}

theorem newestCommands_spec {deduplicated : List Command} (commands : List Command) (hNodup : deduplicated.Nodup)
    (hRoom : deduplicated.length < maxEntries) : (newestCommands maxEntries deduplicated commands).Nodup ∧
      (newestCommands maxEntries deduplicated commands).length ≤ maxEntries ∧
      ∀ c ∈ newestCommands maxEntries deduplicated commands, c ∈ deduplicated ∨ c ∈ commands := by
  induction commands generalizing deduplicated with
  | nil => exact ⟨hNodup, hRoom.le, fun c hc => Or.inl hc⟩
  | cons command commands ih =>
    rw [newestCommands]
    split
    · obtain ⟨hDistinct, hBound, hFrom⟩ := ih hNodup hRoom
      refine ⟨hDistinct, hBound, fun c hc => ?_⟩
      obtain hOld | hNew := hFrom c hc
      · exact Or.inl hOld
      · exact Or.inr (List.mem_cons_of_mem command hNew)
    · next hFresh =>
      have hAdded : (deduplicated ++ [command]).Nodup := by
        rw [List.nodup_append]
        refine ⟨hNodup, List.nodup_singleton command, ?_⟩
        rintro c hc d hd rfl
        exact hFresh (List.mem_singleton.mp hd ▸ hc)
      have hMem : ∀ c ∈ deduplicated ++ [command], c ∈ deduplicated ∨ c ∈ command :: commands := by
        intro c hc
        obtain hOld | hNew := List.mem_append.mp hc
        · exact Or.inl hOld
        · exact Or.inr (List.mem_singleton.mp hNew ▸ List.mem_cons_self)
      split
      · refine ⟨hAdded, ?_, hMem⟩
        rw [List.length_append, List.length_singleton]
        omega
      · next hLess =>
        obtain ⟨hDistinct, hBound, hFrom⟩ := ih hAdded (by omega)
        refine ⟨hDistinct, hBound, fun c hc => ?_⟩
        obtain hOld | hNew := hFrom c hc
        · exact hMem c hOld
        · exact Or.inr (List.mem_cons_of_mem command hNew)

theorem parseTerminalHistoryOutput_spec (output : CodeUnits) : (parseTerminalHistoryOutput output TERMINAL_HISTORY_MAX_ENTRIES).Nodup ∧
      (parseTerminalHistoryOutput output TERMINAL_HISTORY_MAX_ENTRIES).length ≤ TERMINAL_HISTORY_MAX_ENTRIES ∧
      ∀ c ∈ parseTerminalHistoryOutput output TERMINAL_HISTORY_MAX_ENTRIES, Normal c := by
  have hRoom : ([] : List Command).length < TERMINAL_HISTORY_MAX_ENTRIES := by decide
  obtain ⟨hNodup, hBound, hFrom⟩ := newestCommands_spec
    ((splitLines [] output).filterMap parseTerminalHistoryLine).reverse List.nodup_nil hRoom
  refine ⟨List.nodup_reverse.mpr hNodup, ?_, fun c hc => ?_⟩
  · rw [parseTerminalHistoryOutput, List.length_reverse]
    exact hBound
  · obtain hNone | hLine := hFrom c (List.mem_reverse.mp hc)
    · cases hNone
    · obtain ⟨line, -, hParsed⟩ := List.mem_filterMap.mp (List.mem_reverse.mp hLine)
      exact normal_parseTerminalHistoryLine hParsed

variable {commands : List Command}

theorem appendCommands_eq {merged : List Command} (hRoom : merged.length < maxEntries) (hNodup : commands.Nodup)
    (hNormal : ∀ c ∈ commands, Normal c) :
    appendCommands maxEntries merged commands = (merged ++ commands.filter (· ∉ merged)).take maxEntries := by
  induction commands generalizing merged with
  | nil => rw [appendCommands, List.filter_nil, List.append_nil, List.take_of_length_le hRoom.le]
  | cons command commands ih =>
    obtain ⟨hFresh, hTail⟩ := List.nodup_cons.mp hNodup
    obtain ⟨hTrim, hFull⟩ := hNormal command List.mem_cons_self
    have hRest : ∀ c ∈ commands, Normal c := fun c hc => hNormal c (List.mem_cons_of_mem command hc)
    rw [appendCommands, hTrim]
    by_cases hSeen : command ∈ merged
    · rw [if_pos (Or.inr hSeen), ih hRoom hTail hRest, List.filter_cons_of_neg (by simpa using hSeen)]
    · have hNew : ¬ (command = [] ∨ command ∈ merged) := not_or.mpr ⟨hFull, hSeen⟩
      rw [if_neg hNew, List.filter_cons_of_pos (by simpa using hSeen)]
      have hLength : (merged ++ [command]).length = merged.length + 1 := by simp
      split
      · have hExact : maxEntries = (merged ++ [command]).length := by omega
        have hSplit : merged ++ command :: commands.filter (· ∉ merged) =
            (merged ++ [command]) ++ commands.filter (· ∉ merged) := by simp
        rw [hSplit, hExact, List.take_left]
      · rw [ih (by omega) hTail hRest]
        have hSame : commands.filter (· ∉ merged ++ [command]) = commands.filter (· ∉ merged) := by
          apply List.filter_congr
          intro c hc
          have hOther : c ≠ command := by
            rintro rfl
            exact hFresh hc
          simp [hOther]
        rw [hSame, List.append_assoc, List.singleton_append]

def leftOver (commands recent : List Command) : List Command :=
  (recent.filter (· ∉ commands)).take (TERMINAL_HISTORY_MAX_ENTRIES - commands.length)

variable {recent : List Command}

theorem mergeTerminalRecentCommands_eq (hNodup : commands.Nodup) (hLength : commands.length ≤ TERMINAL_HISTORY_MAX_ENTRIES)
    (hNormal : ∀ c ∈ commands, Normal c) (hRecent : recent.Nodup) (hRecentNormal : ∀ c ∈ recent, Normal c) :
    mergeTerminalRecentCommands commands recent TERMINAL_HISTORY_MAX_ENTRIES = commands ++ leftOver commands recent := by
  have hRoom : ([] : List Command).length < TERMINAL_HISTORY_MAX_ENTRIES := by decide
  have hFirst : appendCommands TERMINAL_HISTORY_MAX_ENTRIES [] commands = commands := by
    rw [appendCommands_eq hRoom hNodup hNormal]
    simp [List.take_of_length_le hLength]
  simp only [mergeTerminalRecentCommands, hFirst]
  split
  · next hLess => rw [appendCommands_eq hLess hRecent hRecentNormal, List.take_append, List.take_of_length_le hLength, leftOver]
  · have hNone : TERMINAL_HISTORY_MAX_ENTRIES - commands.length = 0 := by omega
    rw [leftOver, hNone, List.take_zero, List.append_nil]

theorem nodup_submitCommand (h : recent.Nodup) (command : Command) : (submitCommand maxEntries recent command).Nodup := by
  apply List.Nodup.sublist (List.take_sublist maxEntries _)
  rw [List.nodup_cons]
  exact ⟨by simp, h.filter _⟩

variable {c : Command}

theorem mem_of_mem_submitCommand (h : c ∈ submitCommand maxEntries recent command) : c = command ∨ c ∈ recent := by
  obtain hNew | hOld := List.mem_cons.mp (List.mem_of_mem_take h)
  · exact Or.inl hNew
  · exact Or.inr (List.mem_of_mem_filter hOld)

theorem submitCommand_of_all (h : ∀ x ∈ recent, x = command) : submitCommand TERMINAL_HISTORY_MAX_ENTRIES recent command = [command] := by
  have hNone : recent.filter (· ≠ command) = [] := by
    rw [List.filter_eq_nil_iff]
    intro x hx
    simp [h x hx]
  rw [submitCommand, hNone]
  rfl

theorem all_of_submitCommand (h : ∀ x ∈ submitCommand TERMINAL_HISTORY_MAX_ENTRIES recent command, x = c) :
    command = c ∧ ∀ x ∈ recent, x = c := by
  have hFirst : command = c := h command List.mem_cons_self
  subst hFirst
  refine ⟨rfl, fun x hx => ?_⟩
  by_contra hOther
  have hMem : x ∈ recent.filter (· ≠ command) := List.mem_filter.mpr ⟨hx, by simpa using hOther⟩
  cases hRest : recent.filter (· ≠ command) with
  | nil =>
    rw [hRest] at hMem
    cases hMem
  | cons y rest =>
    have hListed : y ∈ submitCommand TERMINAL_HISTORY_MAX_ENTRIES recent command := by
      rw [submitCommand, hRest]
      exact List.mem_cons_of_mem command List.mem_cons_self
    have hKept : y ∈ recent.filter (· ≠ command) := hRest ▸ List.mem_cons_self
    have hDiffers := (List.mem_filter.mp hKept).2
    rw [h y hListed] at hDiffers
    simp at hDiffers

def submitCommands (recent submitted : List Command) : List Command := submitted.foldl (submitCommand TERMINAL_HISTORY_MAX_ENTRIES) recent

theorem nodup_submitCommands (h : recent.Nodup) (submitted : List Command) : (submitCommands recent submitted).Nodup := by
  induction submitted generalizing recent with
  | nil => exact h
  | cons c submitted ih => exact ih (nodup_submitCommand h c)

variable {submitted : List Command}

theorem normal_submitCommands (hRecent : ∀ c ∈ recent, Normal c) (hSubmitted : ∀ c ∈ submitted, Normal c) :
    ∀ c ∈ submitCommands recent submitted, Normal c := by
  induction submitted generalizing recent with
  | nil => exact hRecent
  | cons d submitted ih =>
    apply ih
    · intro c hc
      obtain rfl | hOld := mem_of_mem_submitCommand hc
      · exact hSubmitted c List.mem_cons_self
      · exact hRecent c hOld
    · exact fun c hc => hSubmitted c (List.mem_cons_of_mem d hc)

theorem submitCommands_of_all (hNonempty : submitted ≠ []) (hRecent : ∀ x ∈ recent, x = command) (hSubmitted : ∀ d ∈ submitted, d = command) :
    submitCommands recent submitted = [command] := by
  induction submitted generalizing recent with
  | nil => exact absurd rfl hNonempty
  | cons d submitted ih =>
    obtain rfl := hSubmitted d List.mem_cons_self
    have hOne : submitCommand TERMINAL_HISTORY_MAX_ENTRIES recent d = [d] := submitCommand_of_all hRecent
    rw [submitCommands, List.foldl_cons, hOne]
    cases submitted with
    | nil => rfl
    | cons e submitted =>
      exact ih (by simp) (by simp) fun x hx => hSubmitted x (List.mem_cons_of_mem d hx)

theorem all_of_submitCommands (h : ∀ x ∈ submitCommands recent submitted, x = c) : (∀ d ∈ submitted, d = c) ∧ ∀ x ∈ recent, x = c := by
  induction submitted generalizing recent with
  | nil => exact ⟨fun d hd => absurd hd List.not_mem_nil, h⟩
  | cons d submitted ih =>
    obtain ⟨hLater, hBefore⟩ := ih h
    obtain ⟨hFirst, hRecent⟩ := all_of_submitCommand hBefore
    exact ⟨List.forall_mem_cons.mpr ⟨hFirst, hLater⟩, hRecent⟩

theorem updateInteractiveCompletionState_spec (state : TerminalInteractiveCompletionState) (inputData : CodeUnits) :
    (updateInteractiveCompletionState TERMINAL_HISTORY_MAX_ENTRIES state inputData).1.recentCommands = submitCommands state.recentCommands
        (updateInteractiveCompletionState TERMINAL_HISTORY_MAX_ENTRIES state inputData).2 ∧
    ∀ c ∈ (updateInteractiveCompletionState TERMINAL_HISTORY_MAX_ENTRIES state inputData).2, Normal c := by
  induction inputData generalizing state with
  | nil => exact ⟨rfl, fun c hc => absurd hc List.not_mem_nil⟩
  | cons char inputData ih =>
    rw [updateInteractiveCompletionState]
    split
    · exact ⟨rfl, fun c hc => absurd hc List.not_mem_nil⟩
    · split
      · obtain ⟨hRest, hNormal⟩ := ih (commitCurrentBuffer (max 1 TERMINAL_HISTORY_MAX_ENTRIES) state).1
        simp only
        rw [hRest]
        unfold commitCurrentBuffer at hNormal ⊢
        simp only at hNormal ⊢
        split
        · next hEmpty =>
          rw [if_pos hEmpty] at hNormal
          exact ⟨rfl, hNormal⟩
        · next hFull =>
          rw [if_neg hFull] at hNormal
          exact ⟨rfl, List.forall_mem_cons.mpr ⟨normal_trim hFull, hNormal⟩⟩
      · split
        · exact ih _
        · split
          · exact ih _
          · split
            · exact ih _
            · split
              · exact ih _
              · exact ih _

/-- `usage` is what is known of the last uses, and `latest` the command that has just been submitted. -/
structure CommandHistory where
  session : CommandSession
  usage : UsageOrder Command
  latest : Option Command

namespace CommandHistory

def opened : CommandHistory := ⟨CommandSession.opened, fun _ _ => False, none⟩

def step (history : CommandHistory) : CommandEvent → CommandHistory
  | .input data =>
    let updated := history.session.input data
    ⟨updated.1, updated.2.foldl UsageOrder.used history.usage, updated.2.getLast?.or history.latest⟩
  | .history none => history
  | .history (some output) =>
    ⟨history.session.syncRemoteHistory (some output),
      history.usage.reported (parseTerminalHistoryOutput output TERMINAL_HISTORY_MAX_ENTRIES), none⟩

def run (events : List CommandEvent) : CommandHistory := events.foldl step opened

structure LeastToMostRecent (history : CommandHistory) : Prop where
  nodup : history.session.completionRecentCommands.Nodup
  sorted : history.usage.Sorted history.session.completionRecentCommands
  newest : ∀ c, history.latest = some c → ∀ trigger,
    ∃ index, (consideredCommands trigger history.session.completionRecentCommands)[index]? = some c ∧
      ∀ i < (consideredCommands trigger history.session.completionRecentCommands).length, i ≠ index →
        recencyBonus (consideredCommands trigger history.session.completionRecentCommands).length i <
          recencyBonus (consideredCommands trigger history.session.completionRecentCommands).length index

def KeepsOrder (history : CommandHistory) : CommandEvent → Prop
  | .input data => ∀ c ∈ (history.session.input data).2,
    (∀ d ∈ (history.session.input data).2, d = c) ∧ ∀ x ∈ history.session.completionRecentCommands, x = c
  | .history none => True
  | .history (some output) =>
    ∀ x ∈ leftOver (parseTerminalHistoryOutput output TERMINAL_HISTORY_MAX_ENTRIES) history.session.completionRecentCommands,
      ∀ y ∈ parseTerminalHistoryOutput output TERMINAL_HISTORY_MAX_ENTRIES, ¬ history.usage x y

structure Tidy (history : CommandHistory) : Prop where
  nodup : history.session.completionRecentCommands.Nodup
  normal : ∀ c ∈ history.session.completionRecentCommands, Normal c

theorem tidy_opened : Tidy opened where
  nodup := List.nodup_nil
  normal := fun _ hc => absurd hc List.not_mem_nil

theorem input_spec (session : CommandSession) (data : CodeUnits) : (session.input data).1.completionRecentCommands =
      submitCommands session.completionRecentCommands (session.input data).2 ∧ ∀ c ∈ (session.input data).2, Normal c := by
  have hSpec := updateInteractiveCompletionState_spec
    ⟨session.completionLineBuffer, session.completionRecentCommands⟩ data
  exact hSpec

variable {history : CommandHistory}

theorem Tidy.sync (h : Tidy history) (output : CodeUnits) : (history.session.syncRemoteHistory (some output)).completionRecentCommands =
      parseTerminalHistoryOutput output TERMINAL_HISTORY_MAX_ENTRIES ++
        leftOver (parseTerminalHistoryOutput output TERMINAL_HISTORY_MAX_ENTRIES) history.session.completionRecentCommands := by
  obtain ⟨hNodup, hLength, hNormal⟩ := parseTerminalHistoryOutput_spec output
  exact mergeTerminalRecentCommands_eq hNodup hLength hNormal h.nodup h.normal

theorem mem_leftOver (h : c ∈ leftOver commands recent) : c ∈ recent ∧ c ∉ commands := by
  have hKept := List.mem_filter.mp (List.mem_of_mem_take h)
  exact ⟨hKept.1, by simpa using hKept.2⟩

theorem leftOver_sublist (commands recent : List Command) : (leftOver commands recent).Sublist recent :=
  (List.take_sublist _ _).trans List.filter_sublist

theorem Tidy.step (h : Tidy history) (event : CommandEvent) : Tidy (history.step event) := by
  cases event with
  | input data =>
    obtain ⟨hList, hNormal⟩ := input_spec history.session data
    constructor
    · rw [CommandHistory.step, hList]
      exact nodup_submitCommands h.nodup _
    · rw [CommandHistory.step, hList]
      exact normal_submitCommands h.normal hNormal
  | history stdout =>
    cases stdout with
    | none => exact h
    | some output =>
      obtain ⟨hNodup, -, hNormal⟩ := parseTerminalHistoryOutput_spec output
      constructor
      · rw [CommandHistory.step, h.sync, List.nodup_append]
        refine ⟨hNodup, h.nodup.sublist (leftOver_sublist _ _), ?_⟩
        rintro x hx y hy rfl
        exact (mem_leftOver hy).2 hx
      · rw [CommandHistory.step, h.sync]
        intro c hc
        obtain hReported | hLeft := List.mem_append.mp hc
        · exact hNormal c hReported
        · exact h.normal c (mem_leftOver hLeft).1

theorem tidy_run (events : List CommandEvent) : Tidy (run events) := by
  induction events using List.reverseRecOn with
  | nil => exact tidy_opened
  | append_singleton events event ih =>
    rw [run, List.foldl_append, List.foldl_cons, List.foldl_nil]
    exact ih.step event

theorem newest_singleton (c : Command) (trigger : CompletionTrigger) : ∃ index, (consideredCommands trigger [c])[index]? = some c ∧
      ∀ i < (consideredCommands trigger [c]).length, i ≠ index →
        recencyBonus (consideredCommands trigger [c]).length i < recencyBonus (consideredCommands trigger [c]).length index := by
  have hFew : 1 ≤ maxHistoryItems trigger := by cases trigger <;> simp [maxHistoryItems]
  have hAll : consideredCommands trigger [c] = [c] := by
    rw [consideredCommands, List.length_singleton, Nat.sub_eq_zero_of_le hFew, List.drop_zero]
  rw [hAll]
  refine ⟨0, rfl, fun i hi hOther => ?_⟩
  rw [List.length_singleton] at hi
  omega

variable {event : CommandEvent}

theorem LeastToMostRecent.step (hTidy : Tidy history) (h : LeastToMostRecent history) (hKeeps : history.KeepsOrder event) :
    LeastToMostRecent (history.step event) := by
  have hNodup := (hTidy.step event).nodup
  cases event with
  | input data =>
    obtain ⟨hList, -⟩ := input_spec history.session data
    cases hSubmitted : (history.session.input data).2 with
    | nil =>
      have hSame : (history.session.input data).1.completionRecentCommands = history.session.completionRecentCommands := by
        rw [hList, hSubmitted]
        rfl
      constructor
      · exact hNodup
      · simp only [CommandHistory.step, hSame, hSubmitted, List.foldl_nil]
        exact h.sorted
      · simp only [CommandHistory.step, hSame, hSubmitted, List.getLast?_nil, Option.none_or]
        exact h.newest
    | cons c submitted =>
      have hMem : c ∈ (history.session.input data).2 := hSubmitted ▸ List.mem_cons_self
      obtain ⟨hSubmittedAll, hRecentAll⟩ := hKeeps c hMem
      have hNonempty : (history.session.input data).2 ≠ [] := by simp [hSubmitted]
      have hOne : (history.session.input data).1.completionRecentCommands = [c] := by
        rw [hList]
        exact submitCommands_of_all hNonempty hRecentAll hSubmittedAll
      constructor
      · exact hNodup
      · simp only [CommandHistory.step, hOne]
        exact UsageOrder.Sorted.singleton c
      · intro d hd trigger
        simp only [CommandHistory.step] at hd
        have hLast : (history.session.input data).2.getLast? = some c := by
          rw [List.getLast?_eq_some_getLast hNonempty]
          exact congrArg some (hSubmittedAll _ (List.getLast_mem hNonempty))
        rw [hLast, Option.some_or] at hd
        obtain rfl := Option.some.inj hd
        simp only [CommandHistory.step, hOne]
        exact newest_singleton c trigger
  | history stdout =>
    cases stdout with
    | none => exact h
    | some output =>
      obtain ⟨hReported, -, -⟩ := parseTerminalHistoryOutput_spec output
      constructor
      · exact hNodup
      · simp only [CommandHistory.step, hTidy.sync]
        have hFresh : ∀ x ∈ leftOver (parseTerminalHistoryOutput output TERMINAL_HISTORY_MAX_ENTRIES)
            history.session.completionRecentCommands, x ∉ parseTerminalHistoryOutput output TERMINAL_HISTORY_MAX_ENTRIES :=
          fun x hx => (mem_leftOver hx).2
        rw [UsageOrder.sorted_reported_append_iff hReported hFresh]
        constructor
        · exact List.Pairwise.sublist (leftOver_sublist _ _) h.sorted
        · exact hKeeps
      · intro c hc
        cases hc

theorem LeastToMostRecent.keepsOrder (hTidy : Tidy history) (h : LeastToMostRecent (history.step event)) : history.KeepsOrder event := by
  cases event with
  | input data =>
    intro c hc
    obtain ⟨hList, -⟩ := input_spec history.session data
    obtain hNil | ⟨before, last, hConcat⟩ := List.eq_nil_or_concat (history.session.input data).2
    · rw [hNil] at hc
      cases hc
    · rw [List.concat_eq_append] at hConcat
      have hSorted := h.sorted
      simp only [CommandHistory.step, hList] at hSorted
      rw [hConcat, List.foldl_append, List.foldl_cons, List.foldl_nil] at hSorted
      have hAll : ∀ x ∈ submitCommands history.session.completionRecentCommands (before ++ [last]), x = last := by
        intro x hx
        have hFront : submitCommands history.session.completionRecentCommands (before ++ [last]) =
            last :: ((submitCommands history.session.completionRecentCommands before).filter (· ≠ last)).take
              (TERMINAL_HISTORY_MAX_ENTRIES - 1) := by
          rw [submitCommands, List.foldl_append]
          rfl
        rw [hFront] at hx hSorted
        obtain hLast | hOlder := List.mem_cons.mp hx
        · exact hLast
        · exact hSorted.cons_used hOlder
      obtain ⟨hSubmitted, hRecent⟩ := all_of_submitCommands hAll
      rw [hConcat] at hc ⊢
      obtain rfl := hSubmitted c hc
      exact ⟨hSubmitted, hRecent⟩
  | history stdout =>
    cases stdout with
    | none => exact trivial
    | some output =>
      obtain ⟨hReported, -, -⟩ := parseTerminalHistoryOutput_spec output
      have hSorted := h.sorted
      simp only [CommandHistory.step, hTidy.sync] at hSorted
      have hFresh : ∀ x ∈ leftOver (parseTerminalHistoryOutput output TERMINAL_HISTORY_MAX_ENTRIES)
          history.session.completionRecentCommands, x ∉ parseTerminalHistoryOutput output TERMINAL_HISTORY_MAX_ENTRIES :=
        fun x hx => (mem_leftOver hx).2
      rw [UsageOrder.sorted_reported_append_iff hReported hFresh] at hSorted
      exact hSorted.2

theorem leastToMostRecent_opened : LeastToMostRecent opened where
  nodup := List.nodup_nil
  sorted := List.Pairwise.nil
  newest := by
    intro c hc
    cases hc

theorem run_take_succ {events : List CommandEvent} {n : Nat} (h : events[n]? = some event) :
    run (events.take (n + 1)) = (run (events.take n)).step event := by
  rw [run, List.take_add_one, h, List.foldl_append]
  rfl

/-- The list is in order all along if and only if every event keeps it so. -/
theorem recent_commands_are_ordered_iff (events : List CommandEvent) : (∀ n, LeastToMostRecent (run (events.take n))) ↔
      ∀ n event, events[n]? = some event → (run (events.take n)).KeepsOrder event := by
  constructor
  · intro hOrdered n event hEvent
    have hNext := hOrdered (n + 1)
    rw [run_take_succ hEvent] at hNext
    exact hNext.keepsOrder (tidy_run _)
  · intro hKeeps n
    induction n with
    | zero => exact leastToMostRecent_opened
    | succ n ih =>
      cases hEvent : events[n]? with
      | none =>
        have hLength := List.getElem?_eq_none_iff.mp hEvent
        rw [List.take_of_length_le hLength] at ih
        rw [List.take_of_length_le (by omega)]
        exact ih
      | some event =>
        rw [run_take_succ hEvent]
        exact ih.step (tidy_run _) (hKeeps n event hEvent)

/-- `a` and then `b`, each with a carriage return. -/
def twoCommands : List CommandEvent := [.input [0x61, 0x0d], .input [0x62, 0x0d]]

theorem newest_command_is_ranked_last : (run twoCommands).session.completionRecentCommands = [[0x62], [0x61]] ∧
      (run twoCommands).latest = some [0x62] ∧ recencyBonus 2 0 < recencyBonus 2 1 ∧ ¬ LeastToMostRecent (run twoCommands) := by
  have hList : (run twoCommands).session.completionRecentCommands = [[0x62], [0x61]] := by decide
  have hLatest : (run twoCommands).latest = some [0x62] := by decide
  refine ⟨hList, hLatest, by decide, fun hOrdered => ?_⟩
  obtain ⟨index, hIndex, hHighest⟩ := hOrdered.newest [0x62] hLatest .typing
  rw [hList] at hIndex hHighest
  match index with
  | 0 => exact absurd (hHighest 1 (by decide) (by decide)) (by decide)
  | 1 => cases hIndex
  | n + 2 => cases hIndex

end CommandHistory

end Terminal
