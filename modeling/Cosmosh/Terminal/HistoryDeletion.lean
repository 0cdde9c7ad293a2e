import Cosmosh.Library.Transition
import Cosmosh.Terminal.CommandRecency

/-! # Deleting a command from the history while it is being synchronised

A synchronisation asks the remote side, which reads the history file at some moment, and applies the answer later.
-/

namespace Terminal

open Library Library.CodeUnits Library.Transition
open CommandHistory (input_spec mem_leftOver leftOver_sublist)

inductive HistorySync
  | idle
  | requested
  | answered (stdout : Option CodeUnits)
  deriving DecidableEq

/-- `deletions` are the normalised commands whose remote deletion is still awaited. -/
structure HistoryState where
  session : CommandSession
  historySyncTimeout : Bool
  historySync : HistorySync
  historySyncPending : Bool
  deletions : List Command
  deriving DecidableEq

/-- `remoteRead` carries what the history file holds at that moment, or nothing if the read fails. -/
inductive HistoryEvent
  | input (data : CodeUnits)
  | schedule
  | timeout
  | remoteRead (stdout : Option CodeUnits)
  | historyAnswer
  | deleteRequest (command : CodeUnits)
  | deleteAnswer (index : Nat)

namespace HistoryState

def opened : HistoryState := ⟨CommandSession.opened, false, .idle, false, []⟩

def scheduleHistorySync (s : HistoryState) : HistoryState := { s with historySyncTimeout := true }

/-- The first part of `syncRemoteHistory`. -/
def startHistorySync (s : HistoryState) : HistoryState :=
  if s.historySync = .idle then { s with historySync := .requested } else { s with historySyncPending := true }

/-- The rest of it, `finally` included. -/
def applyHistory (s : HistoryState) (stdout : Option CodeUnits) : HistoryState :=
  { s with
    session := s.session.syncRemoteHistory stdout
    historySync := .idle
    historySyncPending := false
    historySyncTimeout := s.historySyncTimeout || s.historySyncPending }

/-- The first part of `deleteRemoteHistoryEntry`. -/
def requestDeletion (s : HistoryState) (command : CodeUnits) : HistoryState :=
  if trim command = [] then s else { s with deletions := s.deletions ++ [trim command] }

def forget (session : CommandSession) (command : Command) : CommandSession :=
  ⟨session.recentCommands.filter (· ≠ command), session.completionLineBuffer,
    session.completionRecentCommands.filter (· ≠ command)⟩

def applyDeletion (s : HistoryState) (index : Nat) (command : Command) : HistoryState :=
  { s with
    session := forget s.session command
    deletions := s.deletions.eraseIdx index
    historySyncTimeout := true }

def step (s : HistoryState) : HistoryEvent → HistoryState
  | .input data => { s with session := (s.session.input data).1 }
  | .schedule => s.scheduleHistorySync
  | .timeout => if s.historySyncTimeout then startHistorySync { s with historySyncTimeout := false } else s
  | .remoteRead stdout => if s.historySync = .requested then { s with historySync := .answered stdout } else s
  | .historyAnswer =>
    match s.historySync with
    | .answered stdout => s.applyHistory stdout
    | _ => s
  | .deleteRequest command => s.requestDeletion command
  | .deleteAnswer index =>
    match s.deletions[index]? with
    | some command => s.applyDeletion index command
    | none => s

end HistoryState

open HistoryState

def historySessions : Machine HistoryState HistoryEvent where
  initial s := s = opened
  step := HistoryState.step

def reported (stdout : Option CodeUnits) : List Command :=
  (stdout.map fun output => parseTerminalHistoryOutput output TERMINAL_HISTORY_MAX_ENTRIES).getD []

def StaleAnswer (command : Command) (s : HistoryState) : Prop := ∃ stdout, s.historySync = .answered stdout ∧ command ∈ reported stdout

def keepsOut (command : Command) (s : HistoryState) : HistoryEvent → Bool
  | .input data => command ∉ (s.session.input data).2
  | .remoteRead stdout => command ∉ reported stdout
  | _ => true

def Completed (s : HistoryState) : Prop := s.historySync = .idle ∧ s.deletions = []

structure TidyCommands (s : HistoryState) : Prop where
  nodup : s.session.completionRecentCommands.Nodup
  normal : ∀ c ∈ s.session.completionRecentCommands, Normal c

theorem completions_syncRemoteHistory {session : CommandSession} (hNodup : session.completionRecentCommands.Nodup)
    (hNormal : ∀ c ∈ session.completionRecentCommands, Normal c) (output : CodeUnits) :
    (session.syncRemoteHistory (some output)).completionRecentCommands = parseTerminalHistoryOutput output TERMINAL_HISTORY_MAX_ENTRIES ++
        leftOver (parseTerminalHistoryOutput output TERMINAL_HISTORY_MAX_ENTRIES) session.completionRecentCommands := by
  obtain ⟨hDistinct, hLength, hCommands⟩ := parseTerminalHistoryOutput_spec output
  exact mergeTerminalRecentCommands_eq hDistinct hLength hCommands hNodup hNormal

variable {s : HistoryState}

theorem TidyCommands.applyHistory (h : TidyCommands s) (stdout : Option CodeUnits) : TidyCommands (s.applyHistory stdout) := by
  cases stdout with
  | none => exact ⟨h.nodup, h.normal⟩
  | some output =>
    obtain ⟨hNodup, -, hNormal⟩ := parseTerminalHistoryOutput_spec output
    have hList := completions_syncRemoteHistory h.nodup h.normal output
    constructor
    · rw [HistoryState.applyHistory, hList, List.nodup_append]
      refine ⟨hNodup, h.nodup.sublist (leftOver_sublist _ _), ?_⟩
      rintro x hx y hy rfl
      exact (mem_leftOver hy).2 hx
    · rw [HistoryState.applyHistory, hList]
      intro c hc
      obtain hReported | hLeft := List.mem_append.mp hc
      · exact hNormal c hReported
      · exact h.normal c (mem_leftOver hLeft).1

theorem TidyCommands.step (h : TidyCommands s) (event : HistoryEvent) : TidyCommands (s.step event) := by
  cases event with
  | input data =>
    obtain ⟨hList, hNormal⟩ := input_spec s.session data
    constructor
    · rw [HistoryState.step, hList]
      exact nodup_submitCommands h.nodup _
    · rw [HistoryState.step, hList]
      exact normal_submitCommands h.normal hNormal
  | schedule => exact ⟨h.nodup, h.normal⟩
  | timeout =>
    simp only [HistoryState.step, startHistorySync]
    split
    · split
      · exact ⟨h.nodup, h.normal⟩
      · exact ⟨h.nodup, h.normal⟩
    · exact h
  | remoteRead stdout =>
    simp only [HistoryState.step]
    split
    · exact ⟨h.nodup, h.normal⟩
    · exact h
  | historyAnswer =>
    simp only [HistoryState.step]
    split
    · exact h.applyHistory _
    · exact h
  | deleteRequest command =>
    simp only [HistoryState.step, requestDeletion]
    split
    · exact h
    · exact ⟨h.nodup, h.normal⟩
  | deleteAnswer index =>
    simp only [HistoryState.step]
    split
    · exact ⟨h.nodup.filter _, fun c hc => h.normal c (List.mem_of_mem_filter hc)⟩
    · exact h

theorem tidyCommands_of_reachable (h : historySessions.Reachable s) : TidyCommands s := by
  refine h.invariant ?_ fun s event _ hTidy => hTidy.step event
  rintro s rfl
  exact ⟨List.nodup_nil, fun c hc => absurd hc List.not_mem_nil⟩

structure Forgotten (command : Command) (s : HistoryState) : Prop where
  recent : command ∉ s.session.recentCommands
  completion : command ∉ s.session.completionRecentCommands
  fresh : ¬ StaleAnswer command s

theorem mem_of_mem_submitCommands {recent submitted : List Command} {c : Command}
    (h : c ∈ submitCommands recent submitted) : c ∈ recent ∨ c ∈ submitted := by
  induction submitted generalizing recent with
  | nil => exact Or.inl h
  | cons d submitted ih =>
    obtain hRecent | hLater := ih h
    · obtain rfl | hOld := mem_of_mem_submitCommand hRecent
      · exact Or.inr List.mem_cons_self
      · exact Or.inl hOld
    · exact Or.inr (List.mem_cons_of_mem d hLater)

variable {command : Command}

section

variable (hTidy : TidyCommands s) (h : Forgotten command s)
include hTidy h

theorem Forgotten.applyHistory {stdout : Option CodeUnits} (hAnswer : s.historySync = .answered stdout) :
    Forgotten command (s.applyHistory stdout) := by
  have hIdle : ¬ StaleAnswer command (s.applyHistory stdout) := by
    rintro ⟨answer, hSync, _⟩
    contradiction
  cases stdout with
  | none => exact ⟨h.recent, h.completion, hIdle⟩
  | some output =>
    have hNot : command ∉ parseTerminalHistoryOutput output TERMINAL_HISTORY_MAX_ENTRIES :=
      fun hMem => h.fresh ⟨some output, hAnswer, hMem⟩
    refine ⟨hNot, ?_, hIdle⟩
    rw [HistoryState.applyHistory, completions_syncRemoteHistory hTidy.nodup hTidy.normal, List.mem_append, not_or]
    exact ⟨hNot, fun hLeft => h.completion (mem_leftOver hLeft).1⟩

theorem Forgotten.step {event : HistoryEvent} (hEvent : keepsOut command s event = true) : Forgotten command (s.step event) := by
  cases event with
  | input data =>
    have hNot : command ∉ (s.session.input data).2 := by simpa [keepsOut] using hEvent
    refine ⟨h.recent, ?_, h.fresh⟩
    rw [HistoryState.step, (input_spec s.session data).1]
    intro hMem
    exact (mem_of_mem_submitCommands hMem).elim h.completion hNot
  | schedule => exact ⟨h.recent, h.completion, h.fresh⟩
  | timeout =>
    simp only [HistoryState.step, startHistorySync]
    split
    · split
      · refine ⟨h.recent, h.completion, ?_⟩
        rintro ⟨answer, hSync, _⟩
        contradiction
      · exact ⟨h.recent, h.completion, h.fresh⟩
    · exact h
  | remoteRead stdout =>
    have hNot : command ∉ reported stdout := by simpa [keepsOut] using hEvent
    simp only [HistoryState.step]
    split
    · refine ⟨h.recent, h.completion, ?_⟩
      rintro ⟨answer, hSync, hMem⟩
      obtain rfl := HistorySync.answered.inj hSync
      exact hNot hMem
    · exact h
  | historyAnswer =>
    simp only [HistoryState.step]
    split
    · next hAnswer => exact h.applyHistory hTidy hAnswer
    · exact h
  | deleteRequest other =>
    simp only [HistoryState.step, requestDeletion]
    split
    · exact h
    · exact ⟨h.recent, h.completion, h.fresh⟩
  | deleteAnswer index =>
    simp only [HistoryState.step]
    split
    · exact ⟨fun hMem => h.recent (List.mem_of_mem_filter hMem),
        fun hMem => h.completion (List.mem_of_mem_filter hMem), h.fresh⟩
    · exact h

theorem Forgotten.run {events : List HistoryEvent} (hEvents : historySessions.meets (keepsOut command) s events = true) :
    Forgotten command (historySessions.run s events) := by
  induction events generalizing s with
  | nil => exact h
  | cons event events ih =>
    rw [Machine.meets, Bool.and_eq_true] at hEvents
    exact ih (hTidy.step event) (h.step hTidy hEvents.1) hEvents.2

end

theorem forgotten_applyDeletion (hFresh : ¬ StaleAnswer command s) (index : Nat) : Forgotten command (s.applyDeletion index command) where
  recent hMem := by simpa using (List.mem_filter.mp hMem).2
  completion hMem := by simpa using (List.mem_filter.mp hMem).2
  fresh := hFresh

structure Listed (command : Command) (s : HistoryState) : Prop where
  recent : command ∈ s.session.recentCommands
  completion : command ∈ s.session.completionRecentCommands

theorem listed_applyHistory (hTidy : TidyCommands s) {stdout : Option CodeUnits} (hMem : command ∈ reported stdout) :
    Listed command (s.applyHistory stdout) := by
  cases stdout with
  | none => exact absurd hMem List.not_mem_nil
  | some output =>
    refine ⟨hMem, ?_⟩
    rw [HistoryState.applyHistory, completions_syncRemoteHistory hTidy.nodup hTidy.normal]
    exact List.mem_append_left _ hMem

theorem Listed.applyDeletion {other : Command} (h : Listed command s) (hOther : command ≠ other) (index : Nat) :
    Listed command (s.applyDeletion index other) where
  recent := List.mem_filter.mpr ⟨h.recent, by simpa using hOther⟩
  completion := List.mem_filter.mpr ⟨h.completion, by simpa using hOther⟩

theorem Listed.complete (h : Listed command s) (hIdle : s.historySync = .idle) (hOthers : command ∉ s.deletions) :
    ∃ events, historySessions.meets (keepsOut command) s events = true ∧
      Completed (historySessions.run s events) ∧ Listed command (historySessions.run s events) := by
  generalize hDeletions : s.deletions = deletions at hOthers
  induction deletions generalizing s with
  | nil => exact ⟨[], rfl, ⟨hIdle, hDeletions⟩, h⟩
  | cons other deletions ih =>
    obtain ⟨hFirst, hRest⟩ := not_or.mp (List.mem_cons.not.mp hOthers)
    have hStep : historySessions.step s (.deleteAnswer 0) = s.applyDeletion 0 other := by
      simp only [historySessions, HistoryState.step, hDeletions]
      rfl
    have hLeft : (s.applyDeletion 0 other).deletions = deletions := by
      rw [HistoryState.applyDeletion, hDeletions]
      rfl
    obtain ⟨events, hMeets, hCompleted, hListed⟩ := ih (h.applyDeletion hFirst 0) hIdle hLeft hRest
    refine ⟨.deleteAnswer 0 :: events, ?_, ?_, ?_⟩
    · rw [Machine.meets, hStep]
      exact (Bool.true_and _).trans hMeets
    · rwa [Machine.run_cons, hStep]
    · rwa [Machine.run_cons, hStep]

/-- A command whose deletion ends stays out of both lists while it is not submitted and the
histories that are read are without it, unless the synchronisation in flight has read it before.
Such an answer brings it back. -/
theorem deleted_command_stays_deleted {s : HistoryState} (hReachable : historySessions.Reachable s) {index : Nat}
    {command : Command} (hDelete : s.deletions[index]? = some command) : (¬ StaleAnswer command s → ∀ events,
      historySessions.meets (keepsOut command) (s.step (.deleteAnswer index)) events = true →
      command ∉ (historySessions.run (s.step (.deleteAnswer index)) events).session.recentCommands ∧
      command ∉ (historySessions.run (s.step (.deleteAnswer index)) events).session.completionRecentCommands) ∧
    (StaleAnswer command s → command ∉ s.deletions.eraseIdx index → ∃ events,
      historySessions.meets (keepsOut command) (s.step (.deleteAnswer index)) events = true ∧
      Completed (historySessions.run (s.step (.deleteAnswer index)) events) ∧
      command ∈ (historySessions.run (s.step (.deleteAnswer index)) events).session.completionRecentCommands) := by
  have hTidy := (tidyCommands_of_reachable hReachable).step (.deleteAnswer index)
  have hStep : s.step (.deleteAnswer index) = s.applyDeletion index command := by
    rw [HistoryState.step, hDelete]
  rw [hStep] at hTidy ⊢
  constructor
  · intro hFresh events hEvents
    have hForgotten := (forgotten_applyDeletion hFresh index).run hTidy hEvents
    exact ⟨hForgotten.recent, hForgotten.completion⟩
  · rintro ⟨stdout, hAnswer, hMem⟩ hOthers
    have hNext : historySessions.step (s.applyDeletion index command) .historyAnswer =
        (s.applyDeletion index command).applyHistory stdout := by
      have hSame : (s.applyDeletion index command).historySync = .answered stdout := hAnswer
      simp only [historySessions, HistoryState.step, hSame]
    have hListed : Listed command ((s.applyDeletion index command).applyHistory stdout) := listed_applyHistory hTidy hMem
    obtain ⟨events, hMeets, hCompleted, hAgain⟩ := hListed.complete rfl hOthers
    refine ⟨.historyAnswer :: events, ?_, ?_, ?_⟩
    · rw [Machine.meets, hNext]
      exact (Bool.true_and _).trans hMeets
    · rwa [Machine.run_cons, hNext]
    · rw [Machine.run_cons, hNext]
      exact hAgain.completion

section Example

theorem opened_initial : historySessions.initial opened := rfl

def commandX : Command := [0x78]

/-- The history file has `x`, the synchronisation ends, and `x` is deleted. -/
def beforeDeletion : List HistoryEvent := [.schedule, .timeout, .remoteRead (some [0x78, 0x0a]), .historyAnswer, .deleteRequest [0x78]]

def afterDeletion : List HistoryEvent := [.timeout, .remoteRead (some []), .historyAnswer]

theorem deleted_x_stays_deleted : commandX ∉ (historySessions.run ((historySessions.run opened beforeDeletion).step (.deleteAnswer 0))
      afterDeletion).session.recentCommands ∧
    commandX ∉ (historySessions.run ((historySessions.run opened beforeDeletion).step (.deleteAnswer 0))
      afterDeletion).session.completionRecentCommands := by
  have hReachable : historySessions.Reachable (historySessions.run opened beforeDeletion) :=
    Machine.Reachable.run (.start opened_initial) beforeDeletion
  have hDelete : (historySessions.run opened beforeDeletion).deletions[0]? = some commandX := by decide
  refine (deleted_command_stays_deleted hReachable hDelete).1 ?_ afterDeletion (by decide)
  rintro ⟨stdout, hAnswer, _⟩
  have hIdle : (historySessions.run opened beforeDeletion).historySync = .idle := by decide
  rw [hIdle] at hAnswer
  contradiction

def staleSynchronisation : List HistoryEvent := [.schedule, .timeout, .remoteRead (some [0x78, 0x0a]), .deleteRequest [0x78]]

/-- The answer is applied after the deletion has ended, and the next synchronisation reads an empty history. -/

theorem stale_answer_restores_command : ¬ ∀ s, historySessions.Reachable s → ∀ index command, s.deletions[index]? = some command → ∀ events,
      historySessions.meets (keepsOut command) (s.step (.deleteAnswer index)) events = true →
      Completed (historySessions.run (s.step (.deleteAnswer index)) events) →
      command ∉ (historySessions.run (s.step (.deleteAnswer index)) events).session.recentCommands ∧
      command ∉ (historySessions.run (s.step (.deleteAnswer index)) events).session.completionRecentCommands := by
  intro hAll
  have hReachable : historySessions.Reachable (historySessions.run opened staleSynchronisation) :=
    Machine.Reachable.run (.start opened_initial) staleSynchronisation
  have hOut := hAll _ hReachable 0 commandX (by decide) (.historyAnswer :: afterDeletion) (by decide)
    ⟨by decide, by decide⟩
  revert hOut
  decide

end Example

end Terminal
