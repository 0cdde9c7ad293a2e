import Cosmosh.SshPage.PaneState

/-! # What holds of every pane

Whatever arrives in whatever order: the timeline and the diagnostics stay bounded, no command id occurs
twice, a line state belongs to the current prompt, and a command that has ended has ended for good.
-/

namespace SshPage

open Library.Transition

structure PaneConsistent (pane : SshPaneState) : Prop where
  nodup : (pane.commandTimeline.map (·.commandId)).Nodup
  timeline : pane.commandTimeline.length ≤ COMMAND_TIMELINE_MAX_COUNT
  debugEvents : pane.remoteEnhancementsDebugEvents.length ≤ REMOTE_ENHANCEMENTS_DEBUG_EVENT_MAX_COUNT
  lineState : ∀ line ∈ pane.lineState, some line.promptGeneration = pane.promptGeneration

theorem length_appendBounded {α : Type} {limit : Nat} (hLimit : 0 < limit) (items : List α) (item : α) :
    (appendBounded limit items item).length ≤ limit := by
  rw [appendBounded, List.length_append, List.length_drop, List.length_singleton]
  omega

theorem appendBounded_sublist {α : Type} (limit : Nat) (items : List α) (item : α) :
    (appendBounded limit items item).Sublist (items ++ [item]) := (List.drop_sublist _ _).append (List.Sublist.refl _)

variable {commandId : String} {timeline : List SshPaneCommandLifecycle}

theorem hasCommand_iff : hasCommand commandId timeline = true ↔ commandId ∈ timeline.map (·.commandId) := by
  rw [hasCommand, List.any_eq_true, List.mem_map]
  constructor
  · rintro ⟨entry, hEntry, hId⟩
    exact ⟨entry, hEntry, of_decide_eq_true hId⟩
  · rintro ⟨entry, hEntry, hId⟩
    exact ⟨entry, hEntry, decide_eq_true hId⟩

theorem commandId_completeCommand (command : String) (exitCode durationMs receivedAt : Int) (entry : SshPaneCommandLifecycle) :
    (completeCommand command exitCode durationMs receivedAt entry).commandId = entry.commandId := rfl

theorem map_updateFirst {change : SshPaneCommandLifecycle → SshPaneCommandLifecycle}
    (hChange : ∀ entry, (change entry).commandId = entry.commandId) (timeline : List SshPaneCommandLifecycle) :
    (updateFirst commandId change timeline).map (·.commandId) = timeline.map (·.commandId) := by
  induction timeline with
  | nil => rfl
  | cons entry timeline ih =>
    rw [updateFirst]
    split
    · rw [List.map_cons, List.map_cons, hChange]
    · rw [List.map_cons, List.map_cons, ih]

theorem length_updateFirst (commandId : String) (change : SshPaneCommandLifecycle → SshPaneCommandLifecycle)
    (timeline : List SshPaneCommandLifecycle) : (updateFirst commandId change timeline).length = timeline.length := by
  induction timeline with
  | nil => rfl
  | cons entry timeline ih =>
    rw [updateFirst]
    split
    · rfl
    · rw [List.length_cons, List.length_cons, ih]

variable {entry : SshPaneCommandLifecycle}

theorem mem_updateFirst {change : SshPaneCommandLifecycle → SshPaneCommandLifecycle} (h : entry ∈ updateFirst commandId change timeline) :
    entry ∈ timeline ∨ ∃ old ∈ timeline, old.commandId = commandId ∧ entry = change old := by
  induction timeline with
  | nil => cases h
  | cons first timeline ih =>
    rw [updateFirst] at h
    split at h
    · next hFirst =>
      obtain rfl | hLater := List.mem_cons.mp h
      · exact .inr ⟨first, List.mem_cons_self, hFirst, rfl⟩
      · exact .inl (List.mem_cons_of_mem first hLater)
    · obtain rfl | hLater := List.mem_cons.mp h
      · exact .inl List.mem_cons_self
      · obtain hOld | ⟨old, hOld, hId, hSame⟩ := ih hLater
        · exact .inl (List.mem_cons_of_mem first hOld)
        · exact .inr ⟨old, List.mem_cons_of_mem first hOld, hId, hSame⟩

theorem nodup_appendBounded (limit : Nat) (h : (timeline.map (·.commandId)).Nodup) (hNew : ¬ hasCommand entry.commandId timeline = true) :
    ((appendBounded limit timeline entry).map (·.commandId)).Nodup := by
  refine List.Nodup.sublist ((appendBounded_sublist limit timeline entry).map _) ?_
  rw [List.map_append, List.nodup_append]
  refine ⟨h, List.nodup_singleton _, ?_⟩
  rintro commandId hOld other hOther rfl
  rw [List.map_singleton, List.mem_singleton] at hOther
  exact hNew (hasCommand_iff.mpr (hOther ▸ hOld))

inductive TimelineStep (receivedAt : Int) : ServerInboundMessage → List SshPaneCommandLifecycle → List SshPaneCommandLifecycle → Prop
  | same {payload timeline} : TimelineStep receivedAt payload timeline timeline
  | start {message timeline command commandId} (hEvent : message.event = .command_start command commandId) :
      TimelineStep receivedAt (.debug (.remote_shell_event message)) timeline (appendCommandStart timeline command commandId receivedAt)
  | finish {message timeline command commandId exitCode durationMs}
      (hEvent : message.event = .command_end command commandId exitCode durationMs) :
      TimelineStep receivedAt (.debug (.remote_shell_event message)) timeline
        (applyCommandEnd timeline command commandId exitCode durationMs receivedAt)

theorem timelineStep (state : SshPaneState) (payload : ServerInboundMessage) (receivedAt : Int) :
    TimelineStep receivedAt payload state.commandTimeline (reduceServerMessage state payload receivedAt).commandTimeline := by
  cases payload with
  | debug payload =>
    cases payload with
    | bootstrap_status status => exact .same
    | remote_enhancement_runtime_status status =>
      rw [reduceServerMessage]
      split <;> exact .same
    | remote_shell_event message =>
      cases hEvent : message.event with
      | command_start command commandId =>
        simp only [reduceServerMessage, hEvent, reduceRemoteShellEvent]
        exact .start hEvent
      | command_end command commandId exitCode durationMs =>
        simp only [reduceServerMessage, hEvent, reduceRemoteShellEvent]
        exact .finish hEvent
      | line_state lineLength cursorIndex promptGeneration =>
        simp only [reduceServerMessage, hEvent, reduceRemoteShellEvent]
        split <;> exact .same
      | _ =>
        simp only [reduceServerMessage, hEvent, reduceRemoteShellEvent]
        exact .same
  | _ => exact .same

theorem TimelineStep.bounded {receivedAt : Int} {payload : ServerInboundMessage} {next : List SshPaneCommandLifecycle}
    (h : TimelineStep receivedAt payload timeline next) (hNodup : (timeline.map (·.commandId)).Nodup)
    (hLength : timeline.length ≤ COMMAND_TIMELINE_MAX_COUNT) : (next.map (·.commandId)).Nodup ∧ next.length ≤ COMMAND_TIMELINE_MAX_COUNT := by
  cases h with
  | same => exact ⟨hNodup, hLength⟩
  | start hEvent =>
    rw [appendCommandStart]
    split
    · exact ⟨hNodup, hLength⟩
    · next hNew => exact ⟨nodup_appendBounded _ hNodup hNew, length_appendBounded (by decide) _ _⟩
  | finish hEvent =>
    rw [applyCommandEnd]
    split
    · constructor
      · rwa [map_updateFirst (commandId_completeCommand _ _ _ _)]
      · rwa [length_updateFirst]
    · next hNew => exact ⟨nodup_appendBounded _ hNodup hNew, length_appendBounded (by decide) _ _⟩

theorem length_debugEvents (state : SshPaneState) (payload : ServerInboundMessage) (receivedAt : Int)
    (h : state.remoteEnhancementsDebugEvents.length ≤ REMOTE_ENHANCEMENTS_DEBUG_EVENT_MAX_COUNT) :
    (reduceServerMessage state payload receivedAt).remoteEnhancementsDebugEvents.length ≤ REMOTE_ENHANCEMENTS_DEBUG_EVENT_MAX_COUNT := by
  have hAppend : ∀ payload, (appendDebugEvent state payload receivedAt).length ≤ REMOTE_ENHANCEMENTS_DEBUG_EVENT_MAX_COUNT :=
    fun payload => length_appendBounded (by decide) _ _
  cases payload with
  | debug payload =>
    cases payload with
    | bootstrap_status status => exact hAppend _
    | remote_enhancement_runtime_status status =>
      rw [reduceServerMessage]
      split <;> exact hAppend _
    | remote_shell_event message =>
      cases hEvent : message.event with
      | line_state lineLength cursorIndex promptGeneration =>
        simp only [reduceServerMessage, hEvent, reduceRemoteShellEvent]
        split <;> exact hAppend _
      | _ =>
        simp only [reduceServerMessage, hEvent, reduceRemoteShellEvent]
        exact hAppend _
  | _ => exact h

theorem lineState_reduceServerMessage (state : SshPaneState) (payload : ServerInboundMessage) (receivedAt : Int)
    (h : ∀ line ∈ state.lineState, some line.promptGeneration = state.promptGeneration) :
    ∀ line ∈ (reduceServerMessage state payload receivedAt).lineState,
      some line.promptGeneration = (reduceServerMessage state payload receivedAt).promptGeneration := by
  cases payload with
  | debug payload =>
    cases payload with
    | bootstrap_status status => exact h
    | remote_enhancement_runtime_status status =>
      rw [reduceServerMessage]
      split
      · exact h
      · nofun
    | remote_shell_event message =>
      cases hEvent : message.event with
      | prompt_ready promptGeneration =>
        simp only [reduceServerMessage, hEvent, reduceRemoteShellEvent]
        nofun
      | command_start command commandId =>
        simp only [reduceServerMessage, hEvent, reduceRemoteShellEvent]
        nofun
      | line_state lineLength cursorIndex promptGeneration =>
        simp only [reduceServerMessage, hEvent, reduceRemoteShellEvent]
        split
        · exact h
        · rintro line ⟨⟩
          rfl
      | _ =>
        simp only [reduceServerMessage, hEvent, reduceRemoteShellEvent]
        exact h
  | _ => exact h

theorem PaneConsistent.serverMessage {state : SshPaneState} (h : PaneConsistent state) (payload : ServerInboundMessage) (receivedAt : Int) :
    PaneConsistent (reduceServerMessage state payload receivedAt) := by
  obtain ⟨hNodup, hTimeline⟩ := (timelineStep state payload receivedAt).bounded h.nodup h.timeline
  exact ⟨hNodup, hTimeline, length_debugEvents state payload receivedAt h.debugEvents, lineState_reduceServerMessage state payload receivedAt h.lineState⟩

theorem paneConsistent_create : PaneConsistent createSshPaneState where
  nodup := List.nodup_nil
  timeline := Nat.zero_le _
  debugEvents := Nat.zero_le _
  lineState := nofun

def Ended (state : SshPaneStateMap) (paneId : PaneId) (commandId : String) : Prop :=
  ∃ pane ∈ state paneId, ∃ entry ∈ pane.commandTimeline, entry.commandId = commandId ∧ entry.endedAt ≠ none

def Running (state : SshPaneStateMap) (paneId : PaneId) (commandId : String) : Prop :=
  ∃ pane ∈ state paneId, ∃ entry ∈ pane.commandTimeline, entry.commandId = commandId ∧ entry.endedAt = none

def IsEndOf (paneId : PaneId) (commandId : String) (action : SshPaneStateAction) : Prop :=
  ∃ message command exitCode durationMs receivedAt,
    message.event = .command_end command commandId exitCode durationMs ∧
      action = .server_message paneId (.debug (.remote_shell_event message)) receivedAt

theorem mem_appendBounded {limit : Nat} {other : SshPaneCommandLifecycle} (h : other ∈ appendBounded limit timeline entry) :
    other ∈ timeline ∨ other = entry := by
  obtain hOld | hNew := List.mem_append.mp ((appendBounded_sublist limit timeline entry).subset h)
  · exact .inl hOld
  · exact .inr (List.mem_singleton.mp hNew)

theorem TimelineStep.mem {receivedAt : Int} {payload : ServerInboundMessage} {next : List SshPaneCommandLifecycle}
    (h : TimelineStep receivedAt payload timeline next) (hEntry : entry ∈ next) :
    entry ∈ timeline ∨ (entry.endedAt = none ∧ entry.commandId ∉ timeline.map (·.commandId)) ∨
      (entry.endedAt ≠ none ∧ ∃ message command exitCode durationMs, payload = .debug (.remote_shell_event message) ∧
        message.event = .command_end command entry.commandId exitCode durationMs) := by
  cases h with
  | same => exact .inl hEntry
  | start hEvent =>
    rw [appendCommandStart] at hEntry
    split at hEntry
    · exact .inl hEntry
    · next hNew =>
      obtain hOld | rfl := mem_appendBounded hEntry
      · exact .inl hOld
      · exact .inr (.inl ⟨rfl, fun hMem => hNew (hasCommand_iff.mpr hMem)⟩)
  | @finish message timeline command commandId exitCode durationMs hEvent =>
    rw [applyCommandEnd] at hEntry
    split at hEntry
    · obtain hOld | ⟨old, hOld, rfl, rfl⟩ := mem_updateFirst hEntry
      · exact .inl hOld
      · exact .inr (.inr ⟨nofun, message, command, exitCode, durationMs, rfl, hEvent⟩)
    · obtain hOld | rfl := mem_appendBounded hEntry
      · exact .inl hOld
      · exact .inr (.inr ⟨nofun, message, command, exitCode, durationMs, rfl, hEvent⟩)

inductive PaneStep : SshPaneStateAction → Option SshPaneState → Option SshPaneState → Prop
  | removed {action before} : PaneStep action before none
  | fresh {action before} : PaneStep action before (some createSshPaneState)
  | kept {action before} : PaneStep action before before
  | transport {action before connectionState connectionError} :
      PaneStep action before (some (reduceTransportState (before.getD createSshPaneState) connectionState connectionError))
  | message {paneId payload receivedAt before} :
      PaneStep (.server_message paneId payload receivedAt) before
        (some (reduceServerMessage (before.getD createSshPaneState) payload receivedAt))

theorem paneStep (state : SshPaneStateMap) (action : SshPaneStateAction) :
    PaneStep action (state action.paneId) (reduceSshPaneState state action action.paneId) := by
  cases action with
  | remove_pane paneId =>
    simp only [reduceSshPaneState, SshPaneStateAction.paneId, Function.update_self]
    exact .removed
  | reset_pane paneId =>
    simp only [reduceSshPaneState, SshPaneStateAction.paneId, Function.update_self]
    exact .fresh
  | ensure_pane paneId =>
    simp only [reduceSshPaneState, SshPaneStateAction.paneId]
    split
    · exact .kept
    · rw [Function.update_self]
      exact .fresh
  | transport_state paneId connectionState connectionError =>
    simp only [reduceSshPaneState, SshPaneStateAction.paneId, Function.update_self]
    exact .transport
  | server_message paneId payload receivedAt =>
    simp only [reduceSshPaneState, SshPaneStateAction.paneId, Function.update_self]
    exact .message

variable {action : SshPaneStateAction} {paneId : PaneId}

theorem reduceSshPaneState_of_ne (state : SshPaneStateMap) (h : paneId ≠ action.paneId) :
    reduceSshPaneState state action paneId = state paneId := by
  cases action with
  | ensure_pane own =>
    rw [reduceSshPaneState]
    split
    · rfl
    · exact Function.update_of_ne h _ _
  | _ => exact Function.update_of_ne h _ _

theorem PaneStep.consistent {before after : Option SshPaneState} (h : PaneStep action before after)
    (hBefore : ∀ pane ∈ before, PaneConsistent pane) : ∀ pane ∈ after, PaneConsistent pane := by
  have hOld : PaneConsistent (before.getD createSshPaneState) := by
    cases before with
    | none => exact paneConsistent_create
    | some pane => exact hBefore pane rfl
  cases h with
  | removed =>
    intro pane hPane
    cases hPane
  | fresh =>
    intro pane hPane
    rw [← Option.some.inj hPane]
    exact paneConsistent_create
  | kept => exact hBefore
  | transport =>
    intro pane hPane
    rw [← Option.some.inj hPane]
    exact ⟨hOld.nodup, hOld.timeline, hOld.debugEvents, hOld.lineState⟩
  | message =>
    intro pane hPane
    rw [← Option.some.inj hPane]
    exact hOld.serverMessage _ _

theorem PaneStep.mem {before after : Option SshPaneState} (h : PaneStep action before after) {pane : SshPaneState}
    (hPane : pane ∈ after) (hEntry : entry ∈ pane.commandTimeline) : (∃ old ∈ before, entry ∈ old.commandTimeline) ∨
      (entry.endedAt = none ∧ ∀ old ∈ before, entry.commandId ∉ old.commandTimeline.map (·.commandId)) ∨
      (entry.endedAt ≠ none ∧ IsEndOf action.paneId entry.commandId action) := by
  have hOld : entry ∈ (before.getD createSshPaneState).commandTimeline → ∃ old ∈ before, entry ∈ old.commandTimeline := by
    cases before with
    | none => nofun
    | some old => exact fun hMem => ⟨old, rfl, hMem⟩
  cases h with
  | removed => cases hPane
  | fresh =>
    rw [← Option.some.inj hPane] at hEntry
    cases hEntry
  | kept => exact .inl ⟨pane, hPane, hEntry⟩
  | transport =>
    rw [← Option.some.inj hPane] at hEntry
    exact .inl (hOld hEntry)
  | @message paneId payload receivedAt =>
    rw [← Option.some.inj hPane] at hEntry
    obtain hKept | ⟨hRunning, hNew⟩ | ⟨hEnded, message, command, exitCode, durationMs, rfl, hEvent⟩ := (timelineStep _ payload receivedAt).mem hEntry
    · exact .inl (hOld hKept)
    · refine .inr (.inl ⟨hRunning, fun old hBefore => ?_⟩)
      rw [Option.mem_def.mp hBefore] at hNew
      exact hNew
    · exact .inr (.inr ⟨hEnded, message, command, exitCode, durationMs, receivedAt, hEvent, rfl⟩)

def IsConsistent (state : SshPaneStateMap) : Prop := ∀ paneId, ∀ pane ∈ state paneId, PaneConsistent pane

variable {state : SshPaneStateMap}

theorem isConsistent_step (h : IsConsistent state) (action : SshPaneStateAction) : IsConsistent (reduceSshPaneState state action) := by
  intro paneId
  obtain rfl | hOther := eq_or_ne paneId action.paneId
  · exact (paneStep state action).consistent (h _)
  · rw [reduceSshPaneState_of_ne state hOther]
    exact h paneId

theorem isConsistent_run (actions : List SshPaneStateAction) : IsConsistent (paneStates.run initialPaneStates actions) := by
  have hReachable : paneStates.Reachable (paneStates.run initialPaneStates actions) := Machine.Reachable.run (.start rfl) actions
  refine Machine.Reachable.invariant (P := IsConsistent) ?_ (fun state action _ h => isConsistent_step h action) hReachable
  rintro _ rfl paneId pane hPane
  rw [initialPaneStates, Function.update_apply] at hPane
  split at hPane
  · rw [← Option.some.inj hPane]
    exact paneConsistent_create
  · cases hPane

theorem ended_of_step (h : Ended (reduceSshPaneState state action) paneId commandId) :
    Ended state paneId commandId ∨ IsEndOf paneId commandId action := by
  obtain ⟨pane, hPane, entry, hEntry, rfl, hEnd⟩ := h
  obtain rfl | hOther := eq_or_ne paneId action.paneId
  · obtain ⟨old, hOld, hMem⟩ | ⟨hRunning, -⟩ | ⟨-, hEvent⟩ := (paneStep state action).mem hPane hEntry
    · exact .inl ⟨old, hOld, entry, hMem, rfl, hEnd⟩
    · exact absurd hRunning hEnd
    · exact .inr hEvent
  · rw [reduceSshPaneState_of_ne state hOther] at hPane
    exact .inl ⟨pane, hPane, entry, hEntry, rfl, hEnd⟩

theorem not_ended_of_running (hState : IsConsistent state) (h : Running (reduceSshPaneState state action) paneId commandId) :
    ¬ Ended state paneId commandId := by
  rintro ⟨old, hOld, other, hOther, hId, hEnd⟩
  obtain ⟨pane, hPane, entry, hEntry, rfl, hRunning⟩ := h
  have hSame : ∀ kept ∈ state paneId, entry ∈ kept.commandTimeline → False := by
    intro kept hKept hMem
    obtain rfl := Option.mem_unique hKept hOld
    have hEqual := List.inj_on_of_nodup_map (hState paneId kept hKept).nodup hOther hMem hId
    exact hEnd (hEqual ▸ hRunning)
  obtain rfl | hNe := eq_or_ne paneId action.paneId
  · obtain ⟨kept, hKept, hMem⟩ | ⟨-, hNew⟩ | ⟨hEnded, -⟩ := (paneStep state action).mem hPane hEntry
    · exact hSame kept hKept hMem
    · exact hNew old hOld (List.mem_map.mpr ⟨other, hOther, hId⟩)
    · exact hEnded hRunning
  · rw [reduceSshPaneState_of_ne state hNe] at hPane
    exact hSame pane hPane hEntry

def Retained (state : SshPaneStateMap) (paneId : PaneId) (commandId : String) : Prop :=
  Ended state paneId commandId ∨ Running state paneId commandId

theorem ended_run (hState : IsConsistent state) (hEnded : Ended state paneId commandId) (later : List SshPaneStateAction)
    (hRetained : ∀ first rest, later = first ++ rest → Retained (paneStates.run state first) paneId commandId) :
    Ended (paneStates.run state later) paneId commandId := by
  induction later generalizing state with
  | nil => exact hEnded
  | cons action later ih =>
    have hNext := hRetained [action] later rfl
    refine ih (isConsistent_step hState action) ?_ fun first rest hLater => ?_
    · exact hNext.resolve_right fun hRunning => not_ended_of_running hState hRunning hEnded
    · exact hRetained (action :: first) rest (by rw [hLater, List.cons_append])

/-- Every state that a sequence of actions leads to, and every further action. -/
theorem pane_states_are_kept (actions : List SshPaneStateAction) : let state := paneStates.run initialPaneStates actions
    (∀ paneId, ∀ pane ∈ state paneId, PaneConsistent pane) ∧
      (∀ action paneId commandId, Ended (reduceSshPaneState state action) paneId commandId →
        Ended state paneId commandId ∨ IsEndOf paneId commandId action) ∧
      (∀ action paneId commandId, Ended state paneId commandId → ¬ Running (reduceSshPaneState state action) paneId commandId) ∧
      (∀ later paneId commandId, Ended state paneId commandId →
        (∀ first rest, later = first ++ rest → Retained (paneStates.run state first) paneId commandId) →
          Ended (paneStates.run state later) paneId commandId) ∧
      ∀ action paneId, paneId ≠ action.paneId → reduceSshPaneState state action paneId = state paneId := by
  have hState := isConsistent_run actions
  refine ⟨hState, ?_, ?_, ?_, ?_⟩
  · exact fun _ _ _ h => ended_of_step h
  · exact fun _ _ _ hEnded hRunning => not_ended_of_running hState hRunning hEnded
  · exact fun later _ _ hEnded hRetained => ended_run hState hEnded later hRetained
  · exact fun action _ hOther => reduceSshPaneState_of_ne _ hOther

end SshPage
