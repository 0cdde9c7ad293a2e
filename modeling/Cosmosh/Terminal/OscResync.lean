import Cosmosh.Terminal.OscConservation

/-! # A frame behind any output

A well-formed frame is delivered, and nothing of it is shown, if the parser holds nothing back when the frame begins and
what it counts as payload is within the limit.
-/

namespace Terminal

open Library

section

variable {Event : Type} (parseRemoteShellEventPayload : Output → Option Event)

def parserAfter (chunks : List Output) : RemoteShellEventOscParser := (parseChunks parseRemoteShellEventPayload newParser chunks).2

structure WellFormedFrame (content terminator : Output) (event : Event) : Prop where
  ending : terminator = [BELL] ∨ terminator = STRING_TERMINATOR
  complete : Complete endsFrame (content ++ terminator)
  bytes : byteLength content ≤ REMOTE_SHELL_EVENT_OSC_PAYLOAD_MAX_BYTES
  decodes : parseRemoteShellEventPayload content = some event

structure Delivered (parser : RemoteShellEventOscParser) (chunks : List Output) (event : Event) : Prop where
  events : eventsOf (parseChunks parseRemoteShellEventPayload parser chunks).1 = [event]
  shown : visibleText (parseChunks parseRemoteShellEventPayload parser chunks).1 = (flush parser).1
  kept : (flush (parseChunks parseRemoteShellEventPayload parser chunks).2).1 = []

end

namespace RemoteShellEventOscParser

variable (parser : RemoteShellEventOscParser)

structure OutsidePayload : Prop where
  collecting : parser.pendingCosmoshOsc = none
  discarding : parser.discardingOversizedCosmoshOsc = false

structure HoldsNothing : Prop where
  pendingEscape : parser.pendingEscape = false
  pendingOscPrefix : parser.pendingOscPrefix = none

end RemoteShellEventOscParser

theorem outsidePayload_iff {mode : Mode} : mode.parser.OutsidePayload ↔ ∃ n, mode = .matching n := by
  constructor
  · rintro ⟨hCollecting, hDiscarding⟩
    cases mode with
    | matching n => exact ⟨n, rfl⟩
    | collecting payload => cases hCollecting
    | discarding sawEscape => cases hDiscarding
  · rintro ⟨n, rfl⟩
    match n with
    | 0 => exact ⟨rfl, rfl⟩
    | 1 => exact ⟨rfl, rfl⟩
    | n + 2 => exact ⟨rfl, rfl⟩

theorem holdsNothing_matching {n : Nat} : (Mode.matching n).parser.HoldsNothing ↔ n = 0 := by
  constructor
  · rintro ⟨hEscape, hPrefix⟩
    match n with
    | 0 => rfl
    | 1 => cases hEscape
    | n + 2 => cases hPrefix
  · rintro rfl
    exact ⟨rfl, rfl⟩

theorem frameContent_terminated {content terminator : Output}
    (h : terminator = [BELL] ∨ terminator = STRING_TERMINATOR) : frameContent (content ++ terminator) = content := by
  obtain rfl | rfl := h
  · have hBell : ¬STRING_TERMINATOR.isSuffixOf (content ++ [BELL]) = true := by
      rw [List.isSuffixOf_iff_suffix, suffix_terminator]
      rintro ⟨hBackslash, -⟩
      exact absurd hBackslash (by decide)
    rw [frameContent, readSequencePayloadEnd, if_neg hBell, List.length_append]
    exact List.take_left
  · have hSuffix : STRING_TERMINATOR.isSuffixOf (content ++ STRING_TERMINATOR) = true := by
      rw [List.isSuffixOf_iff_suffix]
      exact List.suffix_append content STRING_TERMINATOR
    rw [frameContent, readSequencePayloadEnd, if_pos hSuffix, List.length_append, Nat.add_sub_cancel]
    exact List.take_left

namespace Mode

theorem contents_complete {payload : Output} (h : Complete endsFrame payload) : (collecting []).contents payload =
      if oscFraming.Oversized payload.dropLast then [] else [frameContent payload] := by
  obtain ⟨body, c, rfl, hBody, hEnds⟩ := h.split
  obtain ⟨hRead, -, hContents⟩ := read_unfinished hBody
  have hLast : ((collecting []).read body).contents [c] = (((collecting []).read body).completes c).toList := List.append_nil _
  rw [contents_append, hContents, hLast, hRead, List.dropLast_concat]
  split
  · rfl
  · rw [completes, if_pos hEnds]
    rfl

theorem emitted_escape {n : Nat} (hn : n ≠ 0) (text : Output) : (matching n).emitted (ESCAPE :: text) =
      COSMOSH_OSC_PREFIX.take n ++ [ESCAPE] ++ ((matching n).next ESCAPE).emitted text := by
  obtain ⟨m, rfl⟩ := Nat.exists_eq_succ_of_ne_zero hn
  have hOther : COSMOSH_OSC_PREFIX[m + 1]? ≠ some ESCAPE := fun hThere =>
    oscFraming.head_notMem_tail (List.mem_of_getElem? (show oscFraming.tail[m]? = some ESCAPE from hThere))
  rw [emitted, emits, if_neg hOther]

end Mode

theorem delivered_iff_of_rest {Event : Type} {parseRemoteShellEventPayload : Output → Option Event}
    {content terminator : Output} {event : Event}
    (hFrame : WellFormedFrame parseRemoteShellEventPayload content terminator event) {chunks : List Output}
    (hChunks : chunks.flatten = COSMOSH_OSC_PREFIX ++ (content ++ terminator)) :
    Delivered parseRemoteShellEventPayload (Mode.matching 0).parser chunks event ↔ ¬oscFraming.Oversized (content ++ terminator).dropLast := by
  have hValid : (Mode.matching 0).Valid := show 0 < COSMOSH_OSC_PREFIX.length by decide
  obtain ⟨hParser, hText, hEvents⟩ := parseChunks_spec parseRemoteShellEventPayload hValid chunks
  obtain ⟨hEmitted, hRead⟩ := Mode.read_complete hFrame.complete
  have hContent : contentEvent parseRemoteShellEventPayload content = some event := by
    rw [contentEvent, if_neg (Nat.not_lt.mpr hFrame.bytes), hFrame.decodes]
  rw [hChunks] at hParser hText hEvents
  rw [Mode.emitted_append, Mode.read_introducer.1, Mode.read_introducer.2, hEmitted] at hText
  have hIntroducer : (Mode.matching 0).contents COSMOSH_OSC_PREFIX = [] := rfl
  rw [eventsIn, Mode.contents_append, hIntroducer, Mode.read_introducer.1, Mode.contents_complete hFrame.complete,
    frameContent_terminated hFrame.ending] at hEvents
  rw [Mode.read_append, Mode.read_introducer.1] at hParser
  constructor
  · rintro ⟨hSent, -, -⟩ hOversized
    rw [hEvents, if_pos hOversized] at hSent
    cases hSent
  · intro hFits
    constructor
    · rw [hEvents, if_neg hFits]
      show [content].filterMap _ = [event]
      rw [List.filterMap_cons, hContent]
      rfl
    · exact hText
    · rw [hParser, flush_mode]
      obtain ⟨-, hMode⟩ | ⟨-, hMode⟩ := hRead
      · rw [hMode]
        rfl
      · rw [hMode]
        rfl

variable {Event : Type} (parseRemoteShellEventPayload : Output → Option Event)

/-- A frame behind any output is delivered exactly if the parser holds nothing back when it begins, and what is
counted before its last character is within the limit. -/
theorem frame_is_delivered_iff {front chunks : List Output} {content terminator : Output} {event : Event}
    (hOutside : (parserAfter parseRemoteShellEventPayload front).OutsidePayload)
    (hFrame : WellFormedFrame parseRemoteShellEventPayload content terminator event)
    (hChunks : chunks.flatten = COSMOSH_OSC_PREFIX ++ (content ++ terminator)) :
    Delivered parseRemoteShellEventPayload (parserAfter parseRemoteShellEventPayload front) chunks event ↔
      (parserAfter parseRemoteShellEventPayload front).HoldsNothing ∧ ¬oscFraming.Oversized (content ++ terminator).dropLast := by
  have hValid : (Mode.matching 0).Valid := show 0 < COSMOSH_OSC_PREFIX.length by decide
  have hParser : parserAfter parseRemoteShellEventPayload front = ((Mode.matching 0).read front.flatten).parser :=
    (parseChunks_spec parseRemoteShellEventPayload hValid front).1
  have hMode := hValid.read front.flatten
  rw [hParser] at hOutside ⊢
  obtain ⟨n, hn⟩ := outsidePayload_iff.mp hOutside
  rw [hn] at hMode ⊢
  rw [holdsNothing_matching]
  by_cases hRest : n = 0
  · subst hRest
    rw [delivered_iff_of_rest hFrame hChunks]
    exact ⟨fun hFits => ⟨rfl, hFits⟩, fun h => h.2⟩
  · constructor
    · rintro ⟨-, hShown, -⟩
      obtain ⟨-, hText, -⟩ := parseChunks_spec parseRemoteShellEventPayload hMode chunks
      have hEscape : COSMOSH_OSC_PREFIX ++ (content ++ terminator) =
          ESCAPE :: (oscFraming.tail ++ (content ++ terminator)) := rfl
      rw [hText, hChunks, hEscape, Mode.emitted_escape hRest, flush_mode] at hShown
      have hLength := congrArg List.length hShown
      rw [Mode.pending, List.length_append, List.length_append, List.length_singleton] at hLength
      omega
    · rintro ⟨hZero, -⟩
      exact absurd hZero hRest

def readyContent : Output :=
  ("eyJldmVudCI6ImludGVncmF0aW9uLXJlYWR5Iiwic2hlbGwiOiJiYXNoIiwiaGVscGVyVmVyc2lvbiI6IjEiLCJwcm90b2NvbFZl" ++
    "cnNpb24iOjEsImNhcGFiaWxpdGllcyI6WyJjd2QiXSwidGltZXN0YW1wIjowfQ==").toList.map codeUnit

def decodeReady (content : Output) : Option String :=
  if content = readyContent then some "integration-ready" else none

def readyFrame : Output := COSMOSH_OSC_PREFIX ++ (readyContent ++ [BELL])

theorem readyFrame_runs : afterFrame endsFrame [] (readyContent ++ [BELL]) = some [] ∧
      byteLength readyContent ≤ REMOTE_SHELL_EVENT_OSC_PAYLOAD_MAX_BYTES ∧ ¬oscFraming.Oversized (readyContent ++ [BELL]).dropLast ∧
      visibleText (parseChunks decodeReady (parserAfter decodeReady [[ESCAPE]]) [readyFrame]).1 = ESCAPE :: readyFrame ∧
      eventsOf (parseChunks decodeReady (parserAfter decodeReady [[ESCAPE]]) [readyFrame]).1 = [] := by
  decide +kernel

theorem wellFormed_readyFrame : WellFormedFrame decodeReady readyContent [BELL] "integration-ready" := by
  obtain ⟨hComplete, hBytes, -⟩ := readyFrame_runs
  constructor
  · exact .inl rfl
  · exact hComplete
  · exact hBytes
  · exact if_pos rfl

theorem frame_is_shown_after_escape : (parserAfter decodeReady [[ESCAPE]]).OutsidePayload ∧
      WellFormedFrame decodeReady readyContent [BELL] "integration-ready" ∧
      visibleText (parseChunks decodeReady (parserAfter decodeReady [[ESCAPE]]) [readyFrame]).1 = ESCAPE :: readyFrame ∧
      ¬Delivered decodeReady (parserAfter decodeReady [[ESCAPE]]) [readyFrame] "integration-ready" := by
  obtain ⟨-, -, -, hShown, hEvents⟩ := readyFrame_runs
  refine ⟨⟨rfl, rfl⟩, wellFormed_readyFrame, hShown, ?_⟩
  rintro ⟨hSent, -, -⟩
  rw [hEvents] at hSent
  cases hSent

theorem readyFrame_is_delivered : Delivered decodeReady (parserAfter decodeReady []) [readyFrame] "integration-ready" := by
  obtain ⟨-, -, hFits, -⟩ := readyFrame_runs
  have hChunks : [readyFrame].flatten = COSMOSH_OSC_PREFIX ++ (readyContent ++ [BELL]) := List.flatten_singleton
  have hOutside : (parserAfter decodeReady []).OutsidePayload := ⟨rfl, rfl⟩
  exact (frame_is_delivered_iff decodeReady hOutside wellFormed_readyFrame hChunks).mpr ⟨⟨rfl, rfl⟩, hFits⟩

end Terminal
