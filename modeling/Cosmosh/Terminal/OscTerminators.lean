import Cosmosh.Terminal.HelperRoundTrip

/-! # The two terminators of a frame

A frame ends with a bell or with an escape character and a backslash.
-/

namespace Terminal

open Library

theorem byteLength_le_payloadBytes (payload : Output) : byteLength payload ≤ payloadBytes payload := by
  induction payload using byteLength.induct with
  | case1 => exact Nat.le_refl 0
  | case2 c => exact Nat.le_refl (unitBytes c)
  | case3 high low rest hPair ih =>
    have hHigh : unitBytes high = 3 := by
      rw [Bool.and_eq_true, isHighSurrogate, Bool.and_eq_true, decide_eq_true_eq, decide_eq_true_eq] at hPair
      rw [unitBytes, if_neg, if_neg]
      · exact fun hLess => absurd (UInt16.lt_of_le_of_lt hPair.1.1 hLess) (by decide)
      · exact fun hLess => absurd (UInt16.lt_of_le_of_lt hPair.1.1 hLess) (by decide)
    have hLow : 1 ≤ unitBytes low := by
      rw [unitBytes]
      split
      · exact Nat.le_refl 1
      · split <;> decide
    have hSum : payloadBytes (high :: low :: rest) = unitBytes high + (unitBytes low + payloadBytes rest) := rfl
    rw [byteLength, if_pos hPair, hSum, hHigh]
    omega
  | case4 high low rest hPair ih =>
    have hSum : payloadBytes (high :: low :: rest) = unitBytes high + payloadBytes (low :: rest) := rfl
    rw [byteLength, if_neg hPair, hSum]
    omega

section

variable {Event : Type} (parseRemoteShellEventPayload : Output → Option Event)

structure TreatedAlike (parser : RemoteShellEventOscParser) (bellChunks terminatorChunks : List Output) : Prop where
  events : eventsOf (parseChunks parseRemoteShellEventPayload parser bellChunks).1 =
    eventsOf (parseChunks parseRemoteShellEventPayload parser terminatorChunks).1
  bellShown : visibleText (parseChunks parseRemoteShellEventPayload parser bellChunks).1 = (flush parser).1
  terminatorShown : visibleText (parseChunks parseRemoteShellEventPayload parser terminatorChunks).1 = (flush parser).1

theorem eventsIn_frame {content terminator : Output} (hEnding : terminator = [BELL] ∨ terminator = STRING_TERMINATOR)
    (hComplete : Complete endsFrame (content ++ terminator)) :
    eventsIn parseRemoteShellEventPayload (.matching 0) (COSMOSH_OSC_PREFIX ++ (content ++ terminator)) =
      if oscFraming.Oversized (content ++ terminator).dropLast then [] else (contentEvent parseRemoteShellEventPayload content).toList := by
  have hIntroducer : (Mode.matching 0).contents COSMOSH_OSC_PREFIX = [] := rfl
  rw [eventsIn, Mode.contents_append, hIntroducer, Mode.read_introducer.1, Mode.contents_complete hComplete,
    frameContent_terminated hEnding]
  split
  · rfl
  · show [content].filterMap _ = _
    rw [List.filterMap_cons]
    cases contentEvent parseRemoteShellEventPayload content <;> rfl

theorem emitted_frame {payload : Output} (h : Complete endsFrame payload) : (Mode.matching 0).emitted (COSMOSH_OSC_PREFIX ++ payload) = [] := by
  rw [Mode.emitted_append, Mode.read_introducer.1, Mode.read_introducer.2, (Mode.read_complete h).1]
  rfl

variable {content : Output}

section

variable (h : Unfinished endsFrame content)
include h

theorem complete_bell : Complete endsFrame (content ++ [BELL]) := (complete_append_singleton h).mpr (endsFrame_concat.mpr (.inl rfl))

theorem complete_terminator : Complete endsFrame (content ++ STRING_TERMINATOR) := by
  have hEscape : Unfinished endsFrame (content ++ [ESCAPE]) := by
    rw [unfinished_append_singleton, Bool.eq_false_iff]
    refine ⟨h, fun hEnds => ?_⟩
    obtain hBell | ⟨hBackslash, -⟩ := endsFrame_concat.mp hEnds
    · exact absurd hBell (by decide)
    · exact absurd hBackslash (by decide)
  have hSplit : content ++ STRING_TERMINATOR = content ++ [ESCAPE] ++ [codeUnit '\\'] := by
    rw [List.append_assoc]
    rfl
  rw [hSplit]
  exact (complete_append_singleton hEscape).mpr (endsFrame_concat.mpr (.inr ⟨rfl, List.getLast?_concat⟩))

theorem frame_events_iff : eventsIn parseRemoteShellEventPayload (.matching 0) (COSMOSH_OSC_PREFIX ++ (content ++ [BELL])) =
        eventsIn parseRemoteShellEventPayload (.matching 0) (COSMOSH_OSC_PREFIX ++ (content ++ STRING_TERMINATOR)) ↔
      ¬(payloadBytes content = REMOTE_SHELL_EVENT_OSC_PAYLOAD_MAX_BYTES ∧ (parseRemoteShellEventPayload content).isSome) := by
  have hBell : (content ++ [BELL]).dropLast = content := List.dropLast_concat
  have hTerminator : (content ++ STRING_TERMINATOR).dropLast = content ++ [ESCAPE] := by
    rw [show content ++ STRING_TERMINATOR = content ++ [ESCAPE] ++ [codeUnit '\\'] by rw [List.append_assoc]; rfl]
    exact List.dropLast_concat
  have hCounted : oscFraming.Oversized content ↔ REMOTE_SHELL_EVENT_OSC_PAYLOAD_MAX_BYTES < payloadBytes content := Iff.rfl
  have hEscape : oscFraming.Oversized (content ++ [ESCAPE]) ↔
      REMOTE_SHELL_EVENT_OSC_PAYLOAD_MAX_BYTES < payloadBytes content + 1 := by
    rw [← show payloadBytes (content ++ [ESCAPE]) = payloadBytes content + 1 from payloadBytes_append content ESCAPE]
    exact Iff.rfl
  have hBytes := byteLength_le_payloadBytes content
  rw [eventsIn_frame parseRemoteShellEventPayload (.inl rfl) (complete_bell h),
    eventsIn_frame parseRemoteShellEventPayload (.inr rfl) (complete_terminator h), hBell, hTerminator]
  obtain hLess | hLimit | hMore := Nat.lt_trichotomy (payloadBytes content) REMOTE_SHELL_EVENT_OSC_PAYLOAD_MAX_BYTES
  · rw [if_neg (hCounted.not.mpr (by omega)), if_neg (hEscape.not.mpr (by omega))]
    exact ⟨fun _ hBoth => absurd hBoth.1 hLess.ne, fun _ => rfl⟩
  · rw [if_neg (hCounted.not.mpr (by omega)), if_pos (hEscape.mpr (by omega)), contentEvent, if_neg (by omega)]
    cases parseRemoteShellEventPayload content with
    | none => exact ⟨fun _ hBoth => Bool.noConfusion hBoth.2, fun _ => rfl⟩
    | some event => exact ⟨fun hSame => absurd hSame (List.cons_ne_nil event []), fun hNot => absurd ⟨hLimit, rfl⟩ hNot⟩
  · rw [if_pos (hCounted.mpr hMore), if_pos (hEscape.mpr (by omega))]
    exact ⟨fun _ hBoth => absurd hBoth.1 hMore.ne', fun _ => rfl⟩

end

/-- Behind any output, the two frames of a payload are treated alike exactly if the parser holds nothing back when they begin,
and the payload does not take the whole limit and hold an event. -/
theorem terminators_are_treated_alike_iff {front bellChunks terminatorChunks : List Output}
    (hOutside : (parserAfter parseRemoteShellEventPayload front).OutsidePayload) (hContent : Unfinished endsFrame content)
    (hBell : bellChunks.flatten = COSMOSH_OSC_PREFIX ++ (content ++ [BELL]))
    (hTerminator : terminatorChunks.flatten = COSMOSH_OSC_PREFIX ++ (content ++ STRING_TERMINATOR)) :
    TreatedAlike parseRemoteShellEventPayload (parserAfter parseRemoteShellEventPayload front) bellChunks terminatorChunks ↔
      (parserAfter parseRemoteShellEventPayload front).HoldsNothing ∧
        ¬(payloadBytes content = REMOTE_SHELL_EVENT_OSC_PAYLOAD_MAX_BYTES ∧ (parseRemoteShellEventPayload content).isSome) := by
  have hValid : (Mode.matching 0).Valid := show 0 < COSMOSH_OSC_PREFIX.length by decide
  have hParser : parserAfter parseRemoteShellEventPayload front = ((Mode.matching 0).read front.flatten).parser :=
    (parseChunks_spec parseRemoteShellEventPayload hValid front).1
  have hMode := hValid.read front.flatten
  rw [hParser] at hOutside ⊢
  obtain ⟨n, hn⟩ := outsidePayload_iff.mp hOutside
  rw [hn] at hMode ⊢
  rw [holdsNothing_matching]
  obtain ⟨-, hBellText, hBellEvents⟩ := parseChunks_spec parseRemoteShellEventPayload hMode bellChunks
  obtain ⟨-, hTerminatorText, hTerminatorEvents⟩ := parseChunks_spec parseRemoteShellEventPayload hMode terminatorChunks
  rw [hBell] at hBellText hBellEvents
  rw [hTerminator] at hTerminatorText hTerminatorEvents
  by_cases hRest : n = 0
  · subst hRest
    rw [← frame_events_iff parseRemoteShellEventPayload hContent]
    constructor
    · rintro ⟨hEvents, -, -⟩
      exact ⟨rfl, hBellEvents.symm.trans (hEvents.trans hTerminatorEvents)⟩
    · rintro ⟨-, hSame⟩
      constructor
      · exact hBellEvents.trans (hSame.trans hTerminatorEvents.symm)
      · exact hBellText.trans (emitted_frame (complete_bell hContent))
      · exact hTerminatorText.trans (emitted_frame (complete_terminator hContent))
  · constructor
    · rintro ⟨-, hShown, -⟩
      have hEscape : COSMOSH_OSC_PREFIX ++ (content ++ [BELL]) = ESCAPE :: (oscFraming.tail ++ (content ++ [BELL])) := rfl
      rw [hBellText, hEscape, Mode.emitted_escape hRest, flush_mode] at hShown
      have hLength := congrArg List.length hShown
      rw [Mode.pending, List.length_append, List.length_append, List.length_singleton] at hLength
      omega
    · rintro ⟨hZero, -⟩
      exact absurd hZero hRest

end

theorem object_is_treated_alike : TreatedAlike (parseRemoteShellEventPayload integerNumbers)
      (parserAfter (parseRemoteShellEventPayload integerNumbers) []) [COSMOSH_OSC_PREFIX ++ (toOutput (ascii "e30=") ++ [BELL])]
      [COSMOSH_OSC_PREFIX ++ (toOutput (ascii "e30=") ++ STRING_TERMINATOR)] :=
  (terminators_are_treated_alike_iff (parseRemoteShellEventPayload integerNumbers) ⟨rfl, rfl⟩
    (show Unfinished endsFrame (toOutput (ascii "e30=")) from rfl) List.flatten_singleton List.flatten_singleton).mpr ⟨⟨rfl, rfl⟩, fun hFull => absurd hFull.1 (by decide)⟩

def fullVersion : CodeUnits := List.replicate 5958 0x61

def fullContent : Output := helperPayload .bash fullVersion 0 .integrationReady

def fullMessage : RemoteShellEventMessage := helperMessage .bash fullVersion 0 .integrationReady

theorem length_fullJson : (helperJson .bash fullVersion 0 .integrationReady).length = 6144 := by
  have hVersion : fullVersion.length = 5958 := List.length_replicate
  have hName : (HelperCall.name .integrationReady).text.length = 17 := by decide
  have hShell : RemoteShellName.bash.text.length = 4 := by decide
  have hCapabilities : (capabilitiesJSON (HelperCapabilities .bash)).length = 73 := by decide
  have hProtocol : (Json.digits RemoteShellProtocolVersion).length = 1 := by decide
  have hTime : (Json.digits 0).length = 1 := by decide
  have hAppended : (HelperCall.appended .integrationReady).length = 0 := rfl
  have hEventKey : (ascii "\x7b\"event\":\"").length = 10 := rfl
  have hShellKey : (ascii "\",\"shell\":\"").length = 11 := rfl
  have hVersionKey : (ascii "\",\"helperVersion\":\"").length = 19 := rfl
  have hProtocolKey : (ascii "\",\"protocolVersion\":").length = 20 := rfl
  have hCapabilitiesKey : (ascii ",\"capabilities\":").length = 16 := rfl
  have hTimeKey : (ascii ",\"timestamp\":").length = 13 := rfl
  have hEnd : (ascii "\x7d").length = 1 := rfl
  simp only [helperJson, List.length_append]
  omega

theorem length_fullContent : fullContent.length = REMOTE_SHELL_EVENT_OSC_PAYLOAD_MAX_BYTES := by
  rw [fullContent, helperPayload, toOutput, List.length_map, Base64.length_encode, List.length_map, length_fullJson]
  rfl

theorem parse_fullContent : parseRemoteShellEventPayload integerNumbers fullContent = some fullMessage := by
  have hVersion : ∀ u ∈ fullVersion, isVersionUnit u = true := by
    intro u hu
    obtain rfl := List.eq_of_mem_replicate hu
    rfl
  have hNonempty : fullVersion ≠ [] := List.cons_ne_nil 0x61 (List.replicate 5957 0x61)
  have hFits : (helperJson .bash fullVersion 0 .integrationReady).length ≤ REMOTE_SHELL_EVENT_OSC_PAYLOAD_MAX_BYTES := by
    rw [length_fullJson]
    decide
  exact parseRemoteShellEventPayload_eq integerNumbers hNonempty hVersion (Nat.zero_le _) trivial (List.forall_mem_nil _) hFits

theorem full_frame_is_lost : byteLength fullContent ≤ REMOTE_SHELL_EVENT_OSC_PAYLOAD_MAX_BYTES ∧ Unfinished endsFrame fullContent ∧
      eventsOf (parseChunks (parseRemoteShellEventPayload integerNumbers) newParser
        [COSMOSH_OSC_PREFIX ++ (fullContent ++ [BELL])]).1 = [fullMessage] ∧
      eventsOf (parseChunks (parseRemoteShellEventPayload integerNumbers) newParser
        [COSMOSH_OSC_PREFIX ++ (fullContent ++ STRING_TERMINATOR)]).1 = [] := by
  have hQuiet : Quiet fullContent := quiet_helperPayload .bash fullVersion 0 .integrationReady
  have hSum : payloadBytes fullContent = REMOTE_SHELL_EVENT_OSC_PAYLOAD_MAX_BYTES := hQuiet.sum_unitBytes.trans length_fullContent
  have hEvent : contentEvent (parseRemoteShellEventPayload integerNumbers) fullContent = some fullMessage := by
    rw [contentEvent, hQuiet.byteLength_eq, length_fullContent, if_neg (Nat.lt_irrefl _), parse_fullContent]
  have hValid : (Mode.matching 0).Valid := show 0 < COSMOSH_OSC_PREFIX.length by decide
  have hEvents : ∀ output, eventsOf (parseChunks (parseRemoteShellEventPayload integerNumbers) newParser [output]).1 =
      eventsIn (parseRemoteShellEventPayload integerNumbers) (.matching 0) output := by
    intro output
    have hSpec := (parseChunks_spec (parseRemoteShellEventPayload integerNumbers) hValid [output]).2.2
    rw [List.flatten_singleton] at hSpec
    exact hSpec
  refine ⟨?_, hQuiet.unfinished, ?_, ?_⟩
  · rw [hQuiet.byteLength_eq, length_fullContent]
  · have hFits : ¬oscFraming.Oversized (fullContent ++ [BELL]).dropLast := by
      rw [List.dropLast_concat]
      exact Nat.not_lt.mpr hSum.le
    rw [hEvents, eventsIn_frame _ (.inl rfl) (complete_bell hQuiet.unfinished), if_neg hFits, hEvent]
    rfl
  · have hOver : oscFraming.Oversized (fullContent ++ STRING_TERMINATOR).dropLast := by
      rw [show fullContent ++ STRING_TERMINATOR = fullContent ++ [ESCAPE] ++ [codeUnit '\\'] by rw [List.append_assoc]; rfl,
        List.dropLast_concat]
      show REMOTE_SHELL_EVENT_OSC_PAYLOAD_MAX_BYTES < payloadBytes (fullContent ++ [ESCAPE])
      rw [payloadBytes_append, hSum]
      exact Nat.lt_succ_self _
    rw [hEvents, eventsIn_frame _ (.inr rfl) (complete_terminator hQuiet.unfinished), if_pos hOver]

def leftFrame (parser : RemoteShellEventOscParser) : Bool := parser.pendingCosmoshOsc.isNone && !parser.discardingOversizedCosmoshOsc

def collectorEnd (text : Output) : Option Nat := (afterFrame endsFrame [] text).map fun rest => text.length - rest.length

theorem leftFrame_iff {parser : RemoteShellEventOscParser} : leftFrame parser = true ↔ parser.OutsidePayload := by
  rw [leftFrame, Bool.and_eq_true, Option.isNone_iff_eq_none, Bool.not_eq_true']
  exact ⟨fun h => ⟨h.1, h.2⟩, fun h => ⟨h.collecting, h.discarding⟩⟩

section

variable {Event : Type} (parseRemoteShellEventPayload : Output → Option Event)

def leaveAt (text : Output) : Option Nat :=
  (List.range (text.length + 1)).find? fun n =>
    leftFrame (parserAfter parseRemoteShellEventPayload [COSMOSH_OSC_PREFIX ++ text.take n])

structure EndsAlike (text : Output) : Prop where
  position : leaveAt parseRemoteShellEventPayload text = collectorEnd text
  shown : ∀ rest, afterFrame endsFrame [] text = some rest → ∀ chunks, chunks.flatten = COSMOSH_OSC_PREFIX ++ text →
    visibleAfterFlush parseRemoteShellEventPayload chunks = visibleAfterFlush parseRemoteShellEventPayload [rest]

variable {text payload rest : Output}

theorem leftFrame_after (text : Output) : leftFrame (parserAfter parseRemoteShellEventPayload [COSMOSH_OSC_PREFIX ++ text]) = true ↔
      ∃ n, (Mode.collecting []).read text = .matching n := by
  have hValid : (Mode.matching 0).Valid := show 0 < COSMOSH_OSC_PREFIX.length by decide
  have hParser : parserAfter parseRemoteShellEventPayload [COSMOSH_OSC_PREFIX ++ text] =
      ((Mode.matching 0).read [COSMOSH_OSC_PREFIX ++ text].flatten).parser :=
    (parseChunks_spec parseRemoteShellEventPayload hValid [COSMOSH_OSC_PREFIX ++ text]).1
  rw [leftFrame_iff, hParser, List.flatten_singleton, Mode.read_append, Mode.read_introducer.1, outsidePayload_iff]

theorem leftFrame_unfinished (h : Unfinished endsFrame text) :
    leftFrame (parserAfter parseRemoteShellEventPayload [COSMOSH_OSC_PREFIX ++ text]) = false := by
  rw [Bool.eq_false_iff, Ne, leftFrame_after, (Mode.read_unfinished h).1]
  rintro ⟨n, hMode⟩
  split at hMode
  · cases hMode
  · cases hMode

section

variable (h : Complete endsFrame payload)
include h

theorem leftFrame_complete :
    leftFrame (parserAfter parseRemoteShellEventPayload [COSMOSH_OSC_PREFIX ++ payload]) = true ↔ ¬Swallows payload := by
  rw [leftFrame_after]
  obtain ⟨-, ⟨hSwallows, hRead⟩ | ⟨hNot, hRead⟩⟩ := Mode.read_complete h
  · rw [hRead]
    constructor
    · rintro ⟨n, hMode⟩
      cases hMode
    · exact fun hNot => absurd hSwallows hNot
  · exact ⟨fun _ => hNot, fun _ => ⟨0, hRead⟩⟩

theorem unfinished_take {n : Nat} (hn : n < payload.length) : Unfinished endsFrame (payload.take n) := by
  obtain ⟨body, c, rfl, hBody, -⟩ := h.split
  rw [List.length_append, List.length_singleton] at hn
  rw [List.take_append_of_le_length (Nat.le_of_lt_succ hn)]
  rw [← List.take_append_drop n body] at hBody
  exact hBody.of_append

theorem collectorEnd_complete (rest : Output) : collectorEnd (payload ++ rest) = some payload.length := by
  have hRest : afterFrame endsFrame [] (payload ++ rest) = some ([] ++ rest) := afterFrame_append_of_some h rest
  rw [collectorEnd, hRest, Option.map_some, List.nil_append, List.length_append, Nat.add_sub_cancel]

theorem leaveAt_complete_iff (rest : Output) :
    leaveAt parseRemoteShellEventPayload (payload ++ rest) = some payload.length ↔ ¬Swallows payload := by
  rw [leaveAt, List.find?_range_eq_some, List.take_left, leftFrame_complete parseRemoteShellEventPayload h, List.mem_range,
    List.length_append]
  constructor
  · rintro ⟨hNot, -, -⟩
    exact hNot
  · intro hNot
    refine ⟨hNot, by omega, fun n hn => ?_⟩
    rw [List.take_append_of_le_length hn.le, leftFrame_unfinished parseRemoteShellEventPayload (unfinished_take h hn)]
    rfl

end

theorem leaveAt_unfinished (h : Unfinished endsFrame text) : leaveAt parseRemoteShellEventPayload text = none := by
  rw [leaveAt, List.find?_eq_none]
  intro n _
  rw [← List.take_append_drop n text] at h
  rw [leftFrame_unfinished parseRemoteShellEventPayload h.of_append]
  exact Bool.false_ne_true

/-- Behind every introducer the frame ends where a collector without a limit ends it exactly if no payload is discarded whose
bell follows an escape character. -/
theorem discarded_frames_end_alike_iff (text : Output) : EndsAlike parseRemoteShellEventPayload text ↔
    ∀ payload rest, text = payload ++ rest → Complete endsFrame payload → ¬Swallows payload := by
  constructor
  · rintro ⟨hPosition, -⟩ payload rest rfl hPayload
    rw [collectorEnd_complete hPayload] at hPosition
    exact (leaveAt_complete_iff parseRemoteShellEventPayload hPayload rest).mp hPosition
  · intro h
    obtain hText | ⟨payload, rest, rfl, hPayload⟩ := unfinished_or_complete endsFrame text
    · constructor
      · rw [leaveAt_unfinished parseRemoteShellEventPayload hText, collectorEnd, show afterFrame endsFrame [] text = none from hText]
        rfl
      · intro rest hRest
        cases hRest.symm.trans hText
    · have hNot := h payload rest rfl hPayload
      constructor
      · rw [collectorEnd_complete hPayload]
        exact (leaveAt_complete_iff parseRemoteShellEventPayload hPayload rest).mpr hNot
      · intro rest' hRest chunks hChunks
        have hSame : afterFrame endsFrame [] (payload ++ rest) = some ([] ++ rest) := afterFrame_append_of_some hPayload rest
        obtain rfl : rest = rest' := Option.some.inj (hSame.symm.trans hRest)
        rw [visibleAfterFlush_eq, visibleAfterFlush_eq, hChunks, List.flatten_singleton]
        exact Mode.shown_complete hPayload hNot rest

end

theorem bell_behind_escape_is_missed : collectorEnd (oversizedPayload ++ [BELL, codeUnit '$']) = some 8195 ∧
      leaveAt (fun _ => some ()) (oversizedPayload ++ [BELL, codeUnit '$']) ≠ some 8195 ∧
      ¬EndsAlike (fun _ => some ()) (oversizedPayload ++ [BELL, codeUnit '$']) := by
  have hSplit : oversizedPayload ++ [BELL, codeUnit '$'] = oversizedPayload ++ [BELL] ++ [codeUnit '$'] := by
    rw [List.append_assoc]
    rfl
  have hComplete : Complete endsFrame (oversizedPayload ++ [BELL]) := complete_bell unfinished_oversizedPayload
  have hSwallows : Swallows (oversizedPayload ++ [BELL]) := swallows_concat.mpr ⟨oversized_oversizedPayload, List.getLast?_concat, rfl⟩
  have hLength : (oversizedPayload ++ [BELL]).length = 8195 := by
    rw [oversizedPayload, List.length_append, List.length_append, List.length_replicate]
    rfl
  rw [hSplit, ← hLength]
  refine ⟨collectorEnd_complete hComplete _, ?_, ?_⟩
  · intro hLeave
    exact (leaveAt_complete_iff _ hComplete _).mp hLeave hSwallows
  · rintro ⟨hPosition, -⟩
    rw [collectorEnd_complete hComplete] at hPosition
    exact (leaveAt_complete_iff _ hComplete _).mp hPosition hSwallows

end Terminal
