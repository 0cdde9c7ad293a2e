import Cosmosh.Library.Framing
import Cosmosh.Terminal.RemoteShellEvents

/-! # What the parser of remote shell events shows

The parser is in one of three modes: so many characters of the introducer matched, a payload collected, or an oversized
payload discarded.
-/

namespace Terminal

open Library

theorem suffix_singleton {α : Type} {a : α} {text : List α} : [a] <:+ text ↔ text.getLast? = some a := by
  constructor
  · rintro ⟨front, rfl⟩
    exact List.getLast?_concat
  · intro h
    obtain ⟨front, rfl⟩ := List.getLast?_eq_some_iff.mp h
    exact List.suffix_append front [a]

variable {c : CodeUnit}

theorem suffix_terminator {text : Output} : STRING_TERMINATOR <:+ text ++ [c] ↔ c = codeUnit '\\' ∧ text.getLast? = some ESCAPE := by
  constructor
  · rintro ⟨front, hFront⟩
    rw [show front ++ STRING_TERMINATOR = front ++ [ESCAPE] ++ [codeUnit '\\'] by simp [STRING_TERMINATOR]] at hFront
    obtain ⟨hText, hLast⟩ := List.append_inj' hFront rfl
    rw [← hText]
    exact ⟨(List.cons.inj hLast).1.symm, List.getLast?_concat⟩
  · rintro ⟨rfl, hLast⟩
    obtain ⟨front, rfl⟩ := List.getLast?_eq_some_iff.mp hLast
    exact ⟨front, by simp [STRING_TERMINATOR]⟩

theorem endsFrame_concat {text : Output} : endsFrame (text ++ [c]) = true ↔ c = BELL ∨ (c = codeUnit '\\' ∧ text.getLast? = some ESCAPE) := by
  rw [endsFrame, Bool.or_eq_true, List.isSuffixOf_iff_suffix, List.isSuffixOf_iff_suffix, suffix_singleton,
    suffix_terminator, List.getLast?_concat, Option.some.injEq]

theorem endsFrame_append {payload : Output} (front : Output) (h : endsFrame payload = true) : endsFrame (front ++ payload) = true := by
  rw [endsFrame, Bool.or_eq_true, List.isSuffixOf_iff_suffix, List.isSuffixOf_iff_suffix] at h ⊢
  obtain h | h := h
  · exact .inl (h.trans (List.suffix_append front payload))
  · exact .inr (h.trans (List.suffix_append front payload))

def oscFraming : Framing CodeUnit where
  head := ESCAPE
  tail := [']', '7', '7', '7', ';', 'c', 'o', 's', 'm', 'o', 's', 'h', ';'].map codeUnit
  head_notMem_tail := by decide
  ends := endsFrame
  ends_append := endsFrame_append
  size := unitBytes
  limit := REMOTE_SHELL_EVENT_OSC_PAYLOAD_MAX_BYTES

theorem introducer_oscFraming : oscFraming.introducer = COSMOSH_OSC_PREFIX := rfl

def payloadBytes (payload : Output) : Nat := (payload.map unitBytes).sum

theorem payloadBytes_append (payload : Output) (c : CodeUnit) : payloadBytes (payload ++ [c]) = payloadBytes payload + unitBytes c := by
  rw [payloadBytes, List.map_append, List.sum_append]
  rfl

def frameContent (payload : Output) : Output := payload.take (readSequencePayloadEnd payload)

theorem getLast?_introducer_append (front : Output) : (COSMOSH_OSC_PREFIX ++ front).getLast? = some ESCAPE ↔ front.getLast? = some ESCAPE := by
  cases front using List.reverseRecOn with
  | nil => decide
  | append_singleton front d _ => rw [← List.append_assoc, List.getLast?_concat, List.getLast?_concat]

section

variable (front : Output) (c : CodeUnit)

theorem endsFrame_introducer_append : endsFrame (COSMOSH_OSC_PREFIX ++ front ++ [c]) = endsFrame (front ++ [c]) := by
  rw [Bool.eq_iff_iff, endsFrame_concat, endsFrame_concat, getLast?_introducer_append]

theorem readSequencePayloadEnd_introducer_append : readSequencePayloadEnd (COSMOSH_OSC_PREFIX ++ front ++ [c]) =
      COSMOSH_OSC_PREFIX.length + readSequencePayloadEnd (front ++ [c]) := by
  have hSame : STRING_TERMINATOR.isSuffixOf (COSMOSH_OSC_PREFIX ++ front ++ [c]) =
      STRING_TERMINATOR.isSuffixOf (front ++ [c]) := by
    rw [Bool.eq_iff_iff, List.isSuffixOf_iff_suffix, List.isSuffixOf_iff_suffix, suffix_terminator,
      suffix_terminator, getLast?_introducer_append]
  rw [readSequencePayloadEnd, readSequencePayloadEnd, hSame]
  split
  · rename_i hSuffix
    have hLength := (List.isSuffixOf_iff_suffix.mp hSuffix).length_le
    rw [List.append_assoc, List.length_append]
    omega
  · rw [List.append_assoc, List.length_append, List.length_append, List.length_singleton]
    omega

theorem content_of_sequence : ((COSMOSH_OSC_PREFIX ++ front ++ [c]).take (readSequencePayloadEnd (COSMOSH_OSC_PREFIX ++ front ++ [c]))).drop
      COSMOSH_OSC_PREFIX.length = frameContent (front ++ [c]) := by
  rw [readSequencePayloadEnd_introducer_append, List.append_assoc, List.take_length_add_append, List.drop_left,
    frameContent]

end

inductive Mode
  | matching (n : Nat)
  | collecting (payload : Output)
  | discarding (sawEscape : Bool)

namespace Mode

def parser : Mode → RemoteShellEventOscParser
  | matching 0 => newParser
  | matching 1 => { newParser with pendingEscape := true }
  | matching (n + 2) => { newParser with pendingOscPrefix := some (COSMOSH_OSC_PREFIX.take (n + 2)) }
  | collecting payload =>
    { newParser with
      pendingCosmoshOsc := some (COSMOSH_OSC_PREFIX ++ payload), pendingCosmoshPayloadBytes := payloadBytes payload }
  | discarding sawEscape => { newParser with discardingOversizedCosmoshOsc := true, discardSawEscape := sawEscape }

def Valid : Mode → Prop
  | matching n => n < COSMOSH_OSC_PREFIX.length
  | collecting payload => Unfinished endsFrame payload ∧ ¬oscFraming.Oversized payload
  | discarding _ => True

def next : Mode → CodeUnit → Mode
  | matching n, c =>
    if COSMOSH_OSC_PREFIX[n]? = some c then
      if n + 1 = COSMOSH_OSC_PREFIX.length then collecting [] else matching (n + 1)
    else matching 0
  | collecting payload, c =>
    if endsFrame (payload ++ [c]) then matching 0
    else if oscFraming.Oversized (payload ++ [c]) then discarding (c = ESCAPE)
    else collecting (payload ++ [c])
  | discarding true, c => if c = codeUnit '\\' then matching 0 else discarding (c = ESCAPE)
  | discarding false, c => if c = BELL then matching 0 else discarding (c = ESCAPE)

def emits : Mode → CodeUnit → Output
  | matching n, c => if COSMOSH_OSC_PREFIX[n]? = some c then [] else COSMOSH_OSC_PREFIX.take n ++ [c]
  | _, _ => []

def completes : Mode → CodeUnit → Option Output
  | collecting payload, c => if endsFrame (payload ++ [c]) then some (frameContent (payload ++ [c])) else none
  | _, _ => none

def pending : Mode → Output
  | matching n => COSMOSH_OSC_PREFIX.take n
  | collecting payload => COSMOSH_OSC_PREFIX ++ payload
  | discarding _ => []

def read (mode : Mode) (text : Output) : Mode := text.foldl next mode

def emitted : Mode → Output → Output
  | _, [] => []
  | mode, c :: text => mode.emits c ++ emitted (mode.next c) text

def contents : Mode → Output → List Output
  | _, [] => []
  | mode, c :: text => (mode.completes c).toList ++ contents (mode.next c) text

def shown (mode : Mode) (text : Output) : Output := mode.emitted text ++ (mode.read text).pending

section

variable (mode : Mode) (first second : Output)

theorem read_append : mode.read (first ++ second) = (mode.read first).read second := List.foldl_append

theorem emitted_append : mode.emitted (first ++ second) = mode.emitted first ++ (mode.read first).emitted second := by
  induction first generalizing mode with
  | nil => rfl
  | cons c first ih =>
    rw [List.cons_append, emitted, emitted, ih, List.append_assoc]
    rfl

theorem contents_append : mode.contents (first ++ second) = mode.contents first ++ (mode.read first).contents second := by
  induction first generalizing mode with
  | nil => rfl
  | cons c first ih =>
    rw [List.cons_append, contents, contents, ih, List.append_assoc]
    rfl

theorem shown_append : mode.shown (first ++ second) = mode.emitted first ++ (mode.read first).shown second := by
  rw [shown, emitted_append, read_append, List.append_assoc]
  rfl

end

theorem Valid.next {mode : Mode} (h : mode.Valid) (c : CodeUnit) : (mode.next c).Valid := by
  cases mode with
  | matching n =>
    rw [Mode.next]
    split
    · split
      · exact ⟨unfinished_nil, by decide⟩
      · rename_i hLast
        exact show n + 1 < COSMOSH_OSC_PREFIX.length from Nat.lt_of_le_of_ne h hLast
    · exact show 0 < COSMOSH_OSC_PREFIX.length by decide
  | collecting payload =>
    rw [Mode.next]
    split
    · exact show 0 < COSMOSH_OSC_PREFIX.length by decide
    · rename_i hOpen
      split
      · trivial
      · rename_i hFits
        exact ⟨unfinished_append_singleton.mpr ⟨h.1, Bool.eq_false_iff.mpr hOpen⟩, hFits⟩
  | discarding sawEscape =>
    cases sawEscape with
    | true =>
      rw [Mode.next]
      split
      · exact show 0 < COSMOSH_OSC_PREFIX.length by decide
      · trivial
    | false =>
      rw [Mode.next]
      split
      · exact show 0 < COSMOSH_OSC_PREFIX.length by decide
      · trivial

theorem Valid.read {mode : Mode} (h : mode.Valid) (text : Output) : (mode.read text).Valid := by
  induction text generalizing mode with
  | nil => exact h
  | cons c text ih => exact ih (h.next c)

end Mode

section

variable {Event : Type} (parseRemoteShellEventPayload : Output → Option Event)

def contentEvent (content : Output) : Option Event :=
  if REMOTE_SHELL_EVENT_OSC_PAYLOAD_MAX_BYTES < byteLength content then none else parseRemoteShellEventPayload content

theorem parseCompletedOsc_introducer_append (front : Output) (c : CodeUnit) :
    parseCompletedOsc parseRemoteShellEventPayload (COSMOSH_OSC_PREFIX ++ front ++ [c]) =
      ⟨[], contentEvent parseRemoteShellEventPayload (frameContent (front ++ [c]))⟩ := by
  have hPrefix : COSMOSH_OSC_PREFIX.isPrefixOf (COSMOSH_OSC_PREFIX ++ front ++ [c]) = true := by
    rw [List.isPrefixOf_iff_prefix, List.append_assoc]
    exact List.prefix_append _ _
  rw [parseCompletedOsc, if_pos hPrefix, content_of_sequence, contentEvent]
  dsimp only
  split <;> rfl

theorem parseCompletedOsc_other {sequence : Output} (h : ¬COSMOSH_OSC_PREFIX <+: sequence) :
    parseCompletedOsc parseRemoteShellEventPayload sequence = ⟨sequence, none⟩ := by
  rw [parseCompletedOsc, if_neg]
  rwa [List.isPrefixOf_iff_prefix]

namespace ChunkState

variable (state : ChunkState Event)

def text : Output := visibleText state.frames ++ state.output

def events : List Event := eventsOf state.frames

theorem visibleText_append (first second : List (StreamFrame Event)) :
    visibleText (first ++ second) = visibleText first ++ visibleText second := List.flatMap_append

theorem eventsOf_append (first second : List (StreamFrame Event)) :
    eventsOf (first ++ second) = eventsOf first ++ eventsOf second := List.filterMap_append

theorem flushOutput_spec : state.flushOutput.parser = state.parser ∧ state.flushOutput.output = [] ∧
    visibleText state.flushOutput.frames = state.text ∧ eventsOf state.flushOutput.frames = state.events := by
  rw [flushOutput]
  split
  · rename_i hEmpty
    refine ⟨rfl, hEmpty, ?_, rfl⟩
    rw [text, hEmpty, List.append_nil]
  · refine ⟨rfl, rfl, ?_, ?_⟩
    · rw [visibleText_append]
      exact congrArg (visibleText state.frames ++ ·) (List.append_nil state.output)
    · rw [eventsOf_append]
      exact List.append_nil _

theorem appendParsedOsc_spec (parsed : ParsedOscSequence Event) : (state.appendParsedOsc parsed).parser = state.parser ∧
      (state.appendParsedOsc parsed).text = state.text ++ parsed.output ∧
      (state.appendParsedOsc parsed).events = state.events ++ parsed.event.toList := by
  rw [appendParsedOsc]
  cases hEvent : parsed.event with
  | none =>
    refine ⟨rfl, ?_, (List.append_nil _).symm⟩
    exact (List.append_assoc _ _ _).symm
  | some event =>
    obtain ⟨hParser, hOutput, hText, hEvents⟩ := flushOutput_spec { state with output := state.output ++ parsed.output }
    refine ⟨hParser, ?_, ?_⟩
    · dsimp only [text]
      rw [visibleText_append, hOutput, hText]
      simp [text, visibleText]
    · dsimp only [events]
      rw [eventsOf_append, hEvents]
      rfl

end ChunkState

theorem take_concat_prefix_iff {α : Type} {pattern : List α} {n : Nat} {c : α} (hn : n < pattern.length) :
    pattern.take n ++ [c] <+: pattern ↔ pattern[n]? = some c := by
  rw [List.getElem?_eq_getElem hn]
  constructor
  · intro h
    have hLength : (pattern.take n ++ [c]).length = n + 1 := by
      rw [List.length_append, List.length_take, List.length_singleton]
      omega
    rw [List.prefix_iff_eq_take, hLength, List.take_succ_eq_append_getElem hn] at h
    have hLast := (List.append_inj' h rfl).2
    rw [(List.cons.inj hLast).1]
  · intro h
    rw [← Option.some.inj h, ← List.take_succ_eq_append_getElem hn]
    exact List.take_prefix _ _

theorem endsFrame_take_concat {n : Nat} (h : COSMOSH_OSC_PREFIX[n + 2]? = some c) :
    endsFrame (COSMOSH_OSC_PREFIX.take (n + 2) ++ [c]) = false := by
  have hTerminators : ∀ d ∈ COSMOSH_OSC_PREFIX, d ≠ BELL ∧ d ≠ codeUnit '\\' := by decide
  obtain ⟨hBell, hBackslash⟩ := hTerminators c (List.mem_of_getElem? h)
  rw [Bool.eq_false_iff]
  intro hEnds
  obtain rfl | ⟨rfl, -⟩ := endsFrame_concat.mp hEnds
  · exact hBell rfl
  · exact hBackslash rfl

structure Follows (state state' : ChunkState Event) (mode : Mode) (output : Output) (content : Option Output) :
    Prop where
  parser : state'.parser = mode.parser
  text : state'.text = state.text ++ output
  events : state'.events = state.events ++ (content.bind (contentEvent parseRemoteShellEventPayload)).toList

section

variable {parseRemoteShellEventPayload}

section

variable (state : ChunkState Event) (mode : Mode)

theorem follows_output (output : Output) : Follows parseRemoteShellEventPayload state
      { state with parser := mode.parser, output := state.output ++ output } mode output none := by
  constructor
  · rfl
  · exact (List.append_assoc _ _ _).symm
  · exact (List.append_nil _).symm

theorem follows_silent : Follows parseRemoteShellEventPayload state { state with parser := mode.parser } mode [] none := by
  constructor
  · rfl
  · exact (List.append_nil _).symm
  · exact (List.append_nil _).symm

theorem follows_parsed (parsed : ParsedOscSequence Event) (content : Option Output)
    (h : parsed.event = content.bind (contentEvent parseRemoteShellEventPayload)) : Follows parseRemoteShellEventPayload state
      ({ state with parser := mode.parser }.appendParsedOsc parsed) mode parsed.output content := by
  obtain ⟨hParser, hText, hEvents⟩ := ChunkState.appendParsedOsc_spec { state with parser := mode.parser } parsed
  constructor
  · exact hParser
  · exact hText
  · rw [← h]
    exact hEvents

end

theorem parseChar_text (output : Output) (frames : List (StreamFrame Event)) (c : CodeUnit) :
    Follows parseRemoteShellEventPayload ⟨(Mode.matching 0).parser, output, frames⟩
      (ChunkState.parseChar parseRemoteShellEventPayload ⟨(Mode.matching 0).parser, output, frames⟩ c)
      ((Mode.matching 0).next c) ((Mode.matching 0).emits c) none := by
  by_cases hEscape : c = ESCAPE
  · subst hEscape
    exact follows_silent ⟨_, output, frames⟩ (.matching 1)
  · have hHead : COSMOSH_OSC_PREFIX[0]? ≠ some c := fun hSame => hEscape (Option.some.inj hSame).symm
    have hChar : ChunkState.parseChar parseRemoteShellEventPayload ⟨(Mode.matching 0).parser, output, frames⟩ c =
        ⟨(Mode.matching 0).parser, output ++ [c], frames⟩ := by
      show (if c = ESCAPE then _ else _) = _
      rw [if_neg hEscape]
    rw [hChar, Mode.next, Mode.emits, if_neg hHead, if_neg hHead]
    exact follows_output ⟨_, output, frames⟩ (.matching 0) [c]

theorem parseChar_escape (output : Output) (frames : List (StreamFrame Event)) (c : CodeUnit) :
    Follows parseRemoteShellEventPayload ⟨(Mode.matching 1).parser, output, frames⟩
      (ChunkState.parseChar parseRemoteShellEventPayload ⟨(Mode.matching 1).parser, output, frames⟩ c)
      ((Mode.matching 1).next c) ((Mode.matching 1).emits c) none := by
  by_cases hBracket : c = codeUnit ']'
  · subst hBracket
    exact follows_silent ⟨_, output, frames⟩ (.matching 2)
  · have hNext : COSMOSH_OSC_PREFIX[1]? ≠ some c := fun hSame => hBracket (Option.some.inj hSame).symm
    have hChar : ChunkState.parseChar parseRemoteShellEventPayload ⟨(Mode.matching 1).parser, output, frames⟩ c =
        ⟨(Mode.matching 0).parser, output ++ [ESCAPE, c], frames⟩ := by
      show (if c = codeUnit ']' then _ else _) = _
      rw [if_neg hBracket]
      rfl
    rw [hChar, Mode.next, Mode.emits, if_neg hNext, if_neg hNext]
    exact follows_output ⟨_, output, frames⟩ (.matching 0) [ESCAPE, c]

end

def afterSequence (state : ChunkState Event) : Option Output → ChunkState Event
  | none => state
  | some sequence => state.appendParsedOsc (parseCompletedOsc parseRemoteShellEventPayload sequence)

variable {parseRemoteShellEventPayload}

theorem parseChar_of_appendOscPrefixChar {pending shown : Output} {completed : Option Output} {next : RemoteShellEventOscParser}
    (output : Output) (frames : List (StreamFrame Event))
    (h : appendOscPrefixChar { newParser with pendingOscPrefix := some pending } pending c = (shown, completed, next)) :
    ChunkState.parseChar parseRemoteShellEventPayload
        ⟨{ newParser with pendingOscPrefix := some pending }, output, frames⟩ c =
      afterSequence parseRemoteShellEventPayload ⟨next, output ++ shown, frames⟩ completed := by
  simp only [ChunkState.parseChar, newParser] at h ⊢
  rw [h]
  rfl

theorem parseChar_introducer {n : Nat} (hn : n + 2 < COSMOSH_OSC_PREFIX.length) (output : Output)
    (frames : List (StreamFrame Event)) (c : CodeUnit) : Follows parseRemoteShellEventPayload ⟨(Mode.matching (n + 2)).parser, output, frames⟩
      (ChunkState.parseChar parseRemoteShellEventPayload ⟨(Mode.matching (n + 2)).parser, output, frames⟩ c)
      ((Mode.matching (n + 2)).next c) ((Mode.matching (n + 2)).emits c) none := by
  have hTake := take_concat_prefix_iff (c := c) hn
  have hLength : (COSMOSH_OSC_PREFIX.take (n + 2) ++ [c]).length = n + 2 + 1 := by
    rw [List.length_append, List.length_take, List.length_singleton]
    omega
  rw [Mode.next, Mode.emits]
  by_cases hGoesOn : COSMOSH_OSC_PREFIX[n + 2]? = some c
  · have hPrefix := hTake.mpr hGoesOn
    have hNext : COSMOSH_OSC_PREFIX.take (n + 2) ++ [c] = COSMOSH_OSC_PREFIX.take (n + 1 + 2) := by
      rw [List.prefix_iff_eq_take.mp hPrefix, hLength]
    rw [if_pos hGoesOn, if_pos hGoesOn]
    by_cases hWhole : COSMOSH_OSC_PREFIX.take (n + 2) ++ [c] = COSMOSH_OSC_PREFIX
    · have hLast : n + 2 + 1 = COSMOSH_OSC_PREFIX.length := by rw [← hLength, hWhole]
      have hAppend : appendOscPrefixChar (Mode.matching (n + 2)).parser (COSMOSH_OSC_PREFIX.take (n + 2)) c =
          ([], none, (Mode.collecting []).parser) := by
        rw [appendOscPrefixChar, if_neg (Bool.eq_false_iff.mp (endsFrame_take_concat hGoesOn)), if_pos hWhole, hWhole]
        rfl
      rw [if_pos hLast, Mode.parser, parseChar_of_appendOscPrefixChar output frames hAppend]
      exact follows_output ⟨_, output, frames⟩ (.collecting []) []
    · have hLast : n + 2 + 1 ≠ COSMOSH_OSC_PREFIX.length := by
        intro hLast
        exact hWhole (hPrefix.eq_of_length (hLength.trans hLast))
      have hAppend : appendOscPrefixChar (Mode.matching (n + 2)).parser (COSMOSH_OSC_PREFIX.take (n + 2)) c =
          ([], none, (Mode.matching (n + 1 + 2)).parser) := by
        rw [appendOscPrefixChar, if_neg (Bool.eq_false_iff.mp (endsFrame_take_concat hGoesOn)), if_neg hWhole,
          if_pos (List.isPrefixOf_iff_prefix.mpr hPrefix), hNext]
        rfl
      rw [if_neg hLast, Mode.parser, parseChar_of_appendOscPrefixChar output frames hAppend]
      exact follows_output ⟨_, output, frames⟩ (.matching (n + 1 + 2)) []
  · have hNot : ¬COSMOSH_OSC_PREFIX.take (n + 2) ++ [c] <+: COSMOSH_OSC_PREFIX := fun h => hGoesOn (hTake.mp h)
    have hOther : ¬COSMOSH_OSC_PREFIX <+: COSMOSH_OSC_PREFIX.take (n + 2) ++ [c] := by
      intro h
      have hSame := h.eq_of_length_le (by omega)
      exact hNot (hSame ▸ List.prefix_rfl)
    have hWhole : COSMOSH_OSC_PREFIX.take (n + 2) ++ [c] ≠ COSMOSH_OSC_PREFIX := by
      intro h
      rw [h] at hNot
      exact hNot List.prefix_rfl
    rw [if_neg hGoesOn, if_neg hGoesOn, Mode.parser]
    cases hEnds : endsFrame (COSMOSH_OSC_PREFIX.take (n + 2) ++ [c]) with
    | true =>
      have hAppend : appendOscPrefixChar (Mode.matching (n + 2)).parser (COSMOSH_OSC_PREFIX.take (n + 2)) c =
          ([], some (COSMOSH_OSC_PREFIX.take (n + 2) ++ [c]), (Mode.matching 0).parser) := by
        rw [appendOscPrefixChar, if_pos hEnds]
        rfl
      rw [parseChar_of_appendOscPrefixChar output frames hAppend]
      rw [afterSequence, parseCompletedOsc_other _ hOther, List.append_nil]
      exact follows_parsed ⟨_, output, frames⟩ (.matching 0) ⟨COSMOSH_OSC_PREFIX.take (n + 2) ++ [c], none⟩ none rfl
    | false =>
      have hAppend : appendOscPrefixChar (Mode.matching (n + 2)).parser (COSMOSH_OSC_PREFIX.take (n + 2)) c =
          (COSMOSH_OSC_PREFIX.take (n + 2) ++ [c], none, (Mode.matching 0).parser) := by
        rw [appendOscPrefixChar, if_neg (Bool.eq_false_iff.mp hEnds),
          if_neg hWhole, if_neg (by rwa [List.isPrefixOf_iff_prefix])]
        rfl
      rw [parseChar_of_appendOscPrefixChar output frames hAppend]
      exact follows_output ⟨_, output, frames⟩ (.matching 0) _

theorem parseChar_of_appendCosmoshOscChar {pending : Output} {payloadBytes : Nat} {completed : Option Output}
    {next : RemoteShellEventOscParser} (output : Output) (frames : List (StreamFrame Event))
    (h : appendCosmoshOscChar { newParser with pendingCosmoshOsc := some pending, pendingCosmoshPayloadBytes := payloadBytes }
      pending c = (completed, next)) :
    ChunkState.parseChar parseRemoteShellEventPayload
        ⟨{ newParser with pendingCosmoshOsc := some pending, pendingCosmoshPayloadBytes := payloadBytes }, output, frames⟩
        c =
      afterSequence parseRemoteShellEventPayload ⟨next, output, frames⟩ completed := by
  simp only [ChunkState.parseChar, newParser] at h ⊢
  rw [h]
  rfl

theorem parseChar_payload (payload output : Output) (frames : List (StreamFrame Event)) (c : CodeUnit) :
    Follows parseRemoteShellEventPayload ⟨(Mode.collecting payload).parser, output, frames⟩
      (ChunkState.parseChar parseRemoteShellEventPayload ⟨(Mode.collecting payload).parser, output, frames⟩ c)
      ((Mode.collecting payload).next c) [] ((Mode.collecting payload).completes c) := by
  have hEnds := endsFrame_introducer_append payload c
  have hBytes : REMOTE_SHELL_EVENT_OSC_PAYLOAD_MAX_BYTES < payloadBytes payload + unitBytes c ↔
      oscFraming.Oversized (payload ++ [c]) := by
    rw [← payloadBytes_append]
    exact Iff.rfl
  rw [Mode.next, Mode.completes, Mode.parser]
  by_cases hComplete : endsFrame (payload ++ [c]) = true
  · have hAppend : appendCosmoshOscChar (Mode.collecting payload).parser (COSMOSH_OSC_PREFIX ++ payload) c =
        (some (COSMOSH_OSC_PREFIX ++ payload ++ [c]), (Mode.matching 0).parser) := by
      rw [appendCosmoshOscChar, if_pos (hEnds.trans hComplete)]
      rfl
    rw [if_pos hComplete, if_pos hComplete, parseChar_of_appendCosmoshOscChar output frames hAppend, afterSequence,
      parseCompletedOsc_introducer_append]
    exact follows_parsed ⟨_, output, frames⟩ (.matching 0) ⟨[], _⟩ (some _) rfl
  · have hOpen : ¬endsFrame (COSMOSH_OSC_PREFIX ++ payload ++ [c]) = true := by rwa [hEnds]
    rw [if_neg hComplete, if_neg hComplete]
    by_cases hOversized : oscFraming.Oversized (payload ++ [c])
    · have hAppend : appendCosmoshOscChar (Mode.collecting payload).parser (COSMOSH_OSC_PREFIX ++ payload) c =
          (none, (Mode.discarding (c = ESCAPE)).parser) := by
        rw [appendCosmoshOscChar, if_neg hOpen]
        exact (if_pos (hBytes.mpr hOversized)).trans rfl
      rw [if_pos hOversized, parseChar_of_appendCosmoshOscChar output frames hAppend]
      exact follows_silent ⟨_, output, frames⟩ (.discarding (c = ESCAPE))
    · have hAppend : appendCosmoshOscChar (Mode.collecting payload).parser (COSMOSH_OSC_PREFIX ++ payload) c =
          (none, (Mode.collecting (payload ++ [c])).parser) := by
        rw [appendCosmoshOscChar, if_neg hOpen, Mode.parser, Mode.parser, payloadBytes_append, ← List.append_assoc]
        exact if_neg fun h => hOversized (hBytes.mp h)
      rw [if_neg hOversized, parseChar_of_appendCosmoshOscChar output frames hAppend]
      exact follows_silent ⟨_, output, frames⟩ (.collecting (payload ++ [c]))

theorem parseChar_discarded (sawEscape : Bool) (output : Output) (frames : List (StreamFrame Event)) (c : CodeUnit) :
    Follows parseRemoteShellEventPayload ⟨(Mode.discarding sawEscape).parser, output, frames⟩
      (ChunkState.parseChar parseRemoteShellEventPayload ⟨(Mode.discarding sawEscape).parser, output, frames⟩ c)
      ((Mode.discarding sawEscape).next c) [] none := by
  have hConsume : consumeDiscardedOscChar (Mode.discarding sawEscape).parser c =
      ((Mode.discarding sawEscape).next c).parser := by
    cases sawEscape with
    | true =>
      by_cases hBackslash : c = codeUnit '\\'
      · subst hBackslash
        rfl
      · show ({ (Mode.discarding true).parser with
          discardSawEscape := c = ESCAPE
          discardingOversizedCosmoshOsc := if c = codeUnit '\\' then false else true } : RemoteShellEventOscParser) = _
        rw [if_neg hBackslash, Mode.next, if_neg hBackslash]
        rfl
    | false =>
      by_cases hBell : c = BELL
      · subst hBell
        rfl
      · show (if c = BELL then _ else if c = ESCAPE then _ else _) = _
        rw [if_neg hBell, Mode.next, if_neg hBell]
        split
        · rename_i hEscape
          rw [decide_eq_true hEscape]
          rfl
        · rename_i hOther
          rw [decide_eq_false hOther]
  have hChar : ChunkState.parseChar parseRemoteShellEventPayload ⟨(Mode.discarding sawEscape).parser, output, frames⟩ c =
      ⟨consumeDiscardedOscChar (Mode.discarding sawEscape).parser c, output, frames⟩ := rfl
  rw [hChar, hConsume]
  exact follows_silent ⟨_, output, frames⟩ _

variable (parseRemoteShellEventPayload) in
theorem parseChar_follows {mode : Mode} (h : mode.Valid) {state : ChunkState Event} (hParser : state.parser = mode.parser)
    (c : CodeUnit) : Follows parseRemoteShellEventPayload state (state.parseChar parseRemoteShellEventPayload c)
      (mode.next c) (mode.emits c) (mode.completes c) := by
  obtain ⟨parser, output, frames⟩ := state
  cases hParser
  cases mode with
  | matching n =>
    match n, h with
    | 0, _ => exact parseChar_text output frames c
    | 1, _ => exact parseChar_escape output frames c
    | n + 2, h => exact parseChar_introducer h output frames c
  | collecting payload => exact parseChar_payload payload output frames c
  | discarding sawEscape => exact parseChar_discarded sawEscape output frames c

variable (parseRemoteShellEventPayload) in
def eventsIn (mode : Mode) (text : Output) : List Event := (mode.contents text).filterMap (contentEvent parseRemoteShellEventPayload)

theorem eventsIn_append (mode : Mode) (first second : Output) : eventsIn parseRemoteShellEventPayload mode (first ++ second) =
      eventsIn parseRemoteShellEventPayload mode first ++ eventsIn parseRemoteShellEventPayload (mode.read first) second := by
  rw [eventsIn, Mode.contents_append, List.filterMap_append]
  rfl

theorem eventsIn_cons (mode : Mode) (c : CodeUnit) (text : Output) : eventsIn parseRemoteShellEventPayload mode (c :: text) =
      ((mode.completes c).bind (contentEvent parseRemoteShellEventPayload)).toList ++
        eventsIn parseRemoteShellEventPayload (mode.next c) text := by
  rw [eventsIn, Mode.contents, List.filterMap_append]
  cases mode.completes c with
  | none => rfl
  | some content => cases hEvent : contentEvent parseRemoteShellEventPayload content <;> simp [hEvent, eventsIn]

variable (parseRemoteShellEventPayload) in
theorem foldl_parseChar {mode : Mode} (h : mode.Valid) {state : ChunkState Event} (hParser : state.parser = mode.parser)
    (text : Output) : ∃ state' : ChunkState Event, text.foldl (ChunkState.parseChar parseRemoteShellEventPayload) state = state' ∧
        state'.parser = (mode.read text).parser ∧ state'.text = state.text ++ mode.emitted text ∧
        state'.events = state.events ++ eventsIn parseRemoteShellEventPayload mode text := by
  induction text generalizing mode state with
  | nil => exact ⟨state, rfl, hParser, (List.append_nil _).symm, (List.append_nil _).symm⟩
  | cons c text ih =>
    have hChar := parseChar_follows parseRemoteShellEventPayload h hParser c
    obtain ⟨state', hRest, hParser', hText, hEvents⟩ := ih (h.next c) hChar.parser
    refine ⟨state', hRest, hParser', ?_, ?_⟩
    · rw [hText, hChar.text, List.append_assoc, Mode.emitted]
    · rw [hEvents, hChar.events, List.append_assoc, eventsIn_cons]

variable (parseRemoteShellEventPayload) in
theorem parse_spec {mode : Mode} (h : mode.Valid) (chunk : Output) :
    (parse parseRemoteShellEventPayload mode.parser chunk).2 = (mode.read chunk).parser ∧
      visibleText (parse parseRemoteShellEventPayload mode.parser chunk).1 = mode.emitted chunk ∧
      eventsOf (parse parseRemoteShellEventPayload mode.parser chunk).1 = eventsIn parseRemoteShellEventPayload mode chunk := by
  obtain ⟨state, hState, hParser, hText, hEvents⟩ :=
    foldl_parseChar parseRemoteShellEventPayload h (show (ChunkState.mk mode.parser [] []).parser = _ from rfl) chunk
  obtain ⟨hSame, -, hVisible, hSent⟩ := state.flushOutput_spec
  rw [parse, hState]
  exact ⟨hSame.trans hParser, hVisible.trans hText, hSent.trans hEvents⟩

variable (parseRemoteShellEventPayload) in
theorem parseChunks_spec {mode : Mode} (h : mode.Valid) (chunks : List Output) :
    (parseChunks parseRemoteShellEventPayload mode.parser chunks).2 = (mode.read chunks.flatten).parser ∧
      visibleText (parseChunks parseRemoteShellEventPayload mode.parser chunks).1 = mode.emitted chunks.flatten ∧
      eventsOf (parseChunks parseRemoteShellEventPayload mode.parser chunks).1 = eventsIn parseRemoteShellEventPayload mode chunks.flatten := by
  induction chunks generalizing mode with
  | nil => exact ⟨rfl, rfl, rfl⟩
  | cons chunk chunks ih =>
    obtain ⟨hParser, hText, hEvents⟩ := parse_spec parseRemoteShellEventPayload h chunk
    obtain ⟨hParser', hText', hEvents'⟩ := ih (h.read chunk)
    have hUnfold : parseChunks parseRemoteShellEventPayload mode.parser (chunk :: chunks) =
        ((parse parseRemoteShellEventPayload mode.parser chunk).1 ++
            (parseChunks parseRemoteShellEventPayload (parse parseRemoteShellEventPayload mode.parser chunk).2 chunks).1,
          (parseChunks parseRemoteShellEventPayload (parse parseRemoteShellEventPayload mode.parser chunk).2
            chunks).2) := rfl
    rw [hUnfold, hParser, List.flatten_cons]
    refine ⟨?_, ?_, ?_⟩
    · rw [hParser', Mode.read_append]
    · rw [ChunkState.visibleText_append, hText, hText', Mode.emitted_append]
    · rw [ChunkState.eventsOf_append, hEvents, hEvents', eventsIn_append]

theorem flush_mode {mode : Mode} : (flush mode.parser).1 = mode.pending := by
  cases mode with
  | matching n =>
    match n with
    | 0 => rfl
    | 1 => rfl
    | n + 2 =>
      show [] ++ COSMOSH_OSC_PREFIX.take (n + 2) ++ [] = COSMOSH_OSC_PREFIX.take (n + 2)
      rw [List.append_nil, List.nil_append]
  | collecting payload => rfl
  | discarding sawEscape => rfl

end

end Terminal
