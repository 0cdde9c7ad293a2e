import Cosmosh.Terminal.OscStream

/-! # Which output the parser conserves

The visible text is the output without its complete and its oversized frames, at every
point of the stream, exactly where no frame begins with the character that breaks an
earlier introducer off, and no discarded frame ends in an escape character and a bell.
-/

namespace Terminal

open Library

variable {n : Nat} {payload : Output} {c : CodeUnit}

namespace Mode

theorem read_take (n : Nat) (hn : n < COSMOSH_OSC_PREFIX.length) : (matching 0).read (COSMOSH_OSC_PREFIX.take n) = matching n ∧
      (matching 0).emitted (COSMOSH_OSC_PREFIX.take n) = [] := by
  induction n with
  | zero => exact ⟨rfl, rfl⟩
  | succ n ih =>
    obtain ⟨hRead, hEmitted⟩ := ih (by omega)
    have hLess : n < COSMOSH_OSC_PREFIX.length := by omega
    have hAt : COSMOSH_OSC_PREFIX[n]? = some COSMOSH_OSC_PREFIX[n] := List.getElem?_eq_getElem hLess
    rw [List.take_succ_eq_append_getElem (by omega), read_append, emitted_append, hRead, hEmitted]
    constructor
    · show next (matching n) _ = _
      rw [next, if_pos hAt, if_neg (by omega)]
    · show [] ++ (emits (matching n) _ ++ []) = []
      rw [emits, if_pos hAt]
      rfl

theorem read_introducer : (matching 0).read COSMOSH_OSC_PREFIX = collecting [] ∧ (matching 0).emitted COSMOSH_OSC_PREFIX = [] := ⟨rfl, rfl⟩

theorem shown_take (hn : n < COSMOSH_OSC_PREFIX.length) : (matching 0).shown (COSMOSH_OSC_PREFIX.take n) = COSMOSH_OSC_PREFIX.take n := by
  obtain ⟨hRead, hEmitted⟩ := read_take n hn
  rw [shown, hRead, hEmitted]
  rfl

theorem shown_broken (hn : n < COSMOSH_OSC_PREFIX.length) (hc : COSMOSH_OSC_PREFIX[n]? ≠ some c) (rest : Output) :
    (matching 0).shown (COSMOSH_OSC_PREFIX.take n ++ c :: rest) = COSMOSH_OSC_PREFIX.take n ++ c :: (matching 0).shown rest := by
  obtain ⟨hRead, hEmitted⟩ := read_take n hn
  have hStep : (matching n).shown (c :: rest) = COSMOSH_OSC_PREFIX.take n ++ [c] ++ (matching 0).shown rest := by
    have hShown := shown_append (matching n) [c] rest
    have hEmits : (matching n).emitted [c] = COSMOSH_OSC_PREFIX.take n ++ [c] := by
      show emits (matching n) c ++ [] = _
      rw [emits, if_neg hc, List.append_nil]
    have hNext : (matching n).read [c] = matching 0 := by
      show next (matching n) c = _
      rw [next, if_neg hc]
    rw [hEmits, hNext] at hShown
    exact hShown
  rw [shown_append, hRead, hEmitted, hStep, List.append_assoc]
  rfl

theorem shown_introducer (payload : Output) : (matching 0).shown (COSMOSH_OSC_PREFIX ++ payload) = (collecting []).shown payload := by
  rw [shown_append, read_introducer.1, read_introducer.2]
  rfl

theorem read_unfinished (h : Unfinished endsFrame payload) : (collecting []).read payload =
        (if oscFraming.Oversized payload then discarding (payload.getLast? = some ESCAPE) else collecting payload) ∧
      (collecting []).emitted payload = [] ∧ (collecting []).contents payload = [] := by
  induction payload using List.reverseRecOn with
  | nil => exact ⟨rfl, rfl, rfl⟩
  | append_singleton payload c ih =>
    obtain ⟨hPayload, hOpen⟩ := unfinished_append_singleton.mp h
    obtain ⟨hRead, hEmitted, hContents⟩ := ih hPayload
    rw [read_append, emitted_append, contents_append, hRead, hEmitted, hContents, List.getLast?_concat]
    by_cases hOversized : oscFraming.Oversized payload
    · have hWhole : oscFraming.Oversized (payload ++ [c]) := hOversized.append [] [c]
      have hSame : (some c = some ESCAPE) = (c = ESCAPE) := by rw [Option.some.injEq]
      rw [if_pos hOversized, if_pos hWhole]
      refine ⟨?_, rfl, rfl⟩
      show next (discarding _) c = _
      have hNot : c ≠ BELL ∧ ¬(c = codeUnit '\\' ∧ payload.getLast? = some ESCAPE) := by
        rw [← not_or]
        intro hEnds
        rw [endsFrame_concat.mpr hEnds] at hOpen
        cases hOpen
      by_cases hEscape : payload.getLast? = some ESCAPE
      · rw [decide_eq_true hEscape, next, if_neg fun hBackslash => hNot.2 ⟨hBackslash, hEscape⟩]
        simp only [hSame]
      · rw [decide_eq_false hEscape, next, if_neg hNot.1]
        simp only [hSame]
    · rw [if_neg hOversized]
      refine ⟨?_, rfl, ?_⟩
      · show next (collecting payload) c = _
        rw [next, if_neg (Bool.eq_false_iff.mp hOpen)]
        simp only [Option.some.injEq]
      · show (completes (collecting payload) c).toList ++ [] = []
        rw [completes, if_neg (Bool.eq_false_iff.mp hOpen)]
        rfl

theorem shown_unfinished (h : Unfinished endsFrame payload) :
    (collecting []).shown payload = if oscFraming.Oversized payload then [] else COSMOSH_OSC_PREFIX ++ payload := by
  obtain ⟨hRead, hEmitted, -⟩ := read_unfinished h
  rw [shown, hRead, hEmitted]
  split <;> rfl

end Mode

def Swallows (payload : Output) : Prop := oscFraming.Oversized payload.dropLast ∧ [ESCAPE, BELL] <:+ payload

theorem swallows_concat : Swallows (payload ++ [c]) ↔ oscFraming.Oversized payload ∧ payload.getLast? = some ESCAPE ∧ c = BELL := by
  rw [Swallows, List.dropLast_concat]
  apply and_congr_right
  intro _
  constructor
  · rintro ⟨front, hFront⟩
    rw [show front ++ [ESCAPE, BELL] = front ++ [ESCAPE] ++ [BELL] by simp] at hFront
    obtain ⟨hText, hLast⟩ := List.append_inj' hFront rfl
    rw [← hText]
    exact ⟨List.getLast?_concat, (List.cons.inj hLast).1.symm⟩
  · rintro ⟨hLast, rfl⟩
    obtain ⟨front, rfl⟩ := List.getLast?_eq_some_iff.mp hLast
    exact ⟨front, by simp⟩

namespace Mode

theorem read_complete (h : Complete endsFrame payload) : (collecting []).emitted payload = [] ∧
      ((Swallows payload ∧ (collecting []).read payload = discarding false) ∨
        (¬Swallows payload ∧ (collecting []).read payload = matching 0)) := by
  obtain ⟨body, c, rfl, hBody, hEnds⟩ := h.split
  obtain ⟨hRead, hEmitted, -⟩ := read_unfinished hBody
  have hStep : (collecting []).read (body ++ [c]) = ((collecting []).read body).next c := read_append _ body [c]
  rw [emitted_append, hEmitted, hStep, hRead, swallows_concat]
  by_cases hOversized : oscFraming.Oversized body
  · rw [if_pos hOversized]
    refine ⟨rfl, ?_⟩
    by_cases hEscape : body.getLast? = some ESCAPE
    · rw [decide_eq_true hEscape, next]
      by_cases hBell : c = BELL
      · subst hBell
        exact .inl ⟨⟨hOversized, hEscape, rfl⟩, rfl⟩
      · obtain hBell' | ⟨hBackslash, -⟩ := endsFrame_concat.mp hEnds
        · exact absurd hBell' hBell
        · rw [if_pos hBackslash]
          exact .inr ⟨fun hSwallows => hBell hSwallows.2.2, rfl⟩
    · rw [decide_eq_false hEscape, next]
      obtain hBell | ⟨-, hEscape'⟩ := endsFrame_concat.mp hEnds
      · rw [if_pos hBell]
        exact .inr ⟨fun hSwallows => hEscape hSwallows.2.1, rfl⟩
      · exact absurd hEscape' hEscape
  · rw [if_neg hOversized, next, if_pos hEnds]
    exact ⟨rfl, .inr ⟨fun hSwallows => hOversized hSwallows.1, rfl⟩⟩

theorem shown_complete (h : Complete endsFrame payload) (hSwallows : ¬Swallows payload) (rest : Output) :
    (matching 0).shown (COSMOSH_OSC_PREFIX ++ (payload ++ rest)) = (matching 0).shown rest := by
  obtain ⟨hEmitted, ⟨hThere, -⟩ | ⟨-, hRead⟩⟩ := read_complete h
  · exact absurd hThere hSwallows
  · rw [shown_introducer, shown_append, hEmitted, hRead]
    rfl

theorem shown_swallowed (h : Complete endsFrame payload) (hSwallows : Swallows payload) (c : CodeUnit) :
    (matching 0).shown (COSMOSH_OSC_PREFIX ++ (payload ++ [c])) = (discarding false).shown [c] := by
  obtain ⟨hEmitted, ⟨-, hRead⟩ | ⟨hNot, -⟩⟩ := read_complete h
  · rw [shown_introducer, shown_append, hEmitted, hRead]
    rfl
  · exact absurd hSwallows hNot

end Mode

inductive Readable : Output → Prop
  | introducer {n : Nat} (hn : n < COSMOSH_OSC_PREFIX.length) : Readable (COSMOSH_OSC_PREFIX.take n)
  | broken {n : Nat} {c : CodeUnit} {rest : Output} (hn : n < COSMOSH_OSC_PREFIX.length)
      (hc : COSMOSH_OSC_PREFIX[n]? ≠ some c) (hFrame : ¬oscFraming.Removes (c :: rest)) (hRest : Readable rest) :
      Readable (COSMOSH_OSC_PREFIX.take n ++ c :: rest)
  | frame {payload rest : Output} (hPayload : Complete endsFrame payload) (hEnd : Swallows payload → rest = [])
      (hRest : Readable rest) : Readable (COSMOSH_OSC_PREFIX ++ (payload ++ rest))
  | unfinished {payload : Output} (hPayload : Unfinished endsFrame payload) : Readable (COSMOSH_OSC_PREFIX ++ payload)

def Conserved (output : Output) : Prop := ∀ front rest, output = front ++ rest → (Mode.matching 0).shown front = oscFraming.removeFrames front

variable {rest : Output}

theorem conserved_broken_iff (hn : n < COSMOSH_OSC_PREFIX.length) (hc : COSMOSH_OSC_PREFIX[n]? ≠ some c)
    (hFrame : ¬oscFraming.Removes (c :: rest)) : (Mode.matching 0).shown (COSMOSH_OSC_PREFIX.take n ++ c :: rest) =
        oscFraming.removeFrames (COSMOSH_OSC_PREFIX.take n ++ c :: rest) ↔ (Mode.matching 0).shown rest = oscFraming.removeFrames rest := by
  rw [Mode.shown_broken hn hc, ← introducer_oscFraming, Framing.removeFrames_take_append hn hc,
    Framing.removeFrames_cons hFrame, List.append_cancel_left_eq, List.cons.injEq]
  exact ⟨fun h => h.2, fun h => ⟨rfl, h⟩⟩

theorem conserved_complete_iff (h : Complete endsFrame payload) (hSwallows : ¬Swallows payload) (rest : Output) :
    (Mode.matching 0).shown (COSMOSH_OSC_PREFIX ++ (payload ++ rest)) = oscFraming.removeFrames (COSMOSH_OSC_PREFIX ++ (payload ++ rest)) ↔
      (Mode.matching 0).shown rest = oscFraming.removeFrames rest := by
  rw [Mode.shown_complete h hSwallows, ← introducer_oscFraming, Framing.removeFrames_complete h]

theorem shown_eq_of_take (hn : n < COSMOSH_OSC_PREFIX.length) :
    (Mode.matching 0).shown (COSMOSH_OSC_PREFIX.take n) = oscFraming.removeFrames (COSMOSH_OSC_PREFIX.take n) := by
  have hVisible : oscFraming.removeFrames (oscFraming.introducer.take n) = oscFraming.introducer.take n := Framing.removeFrames_take n hn
  rw [Mode.shown_take hn, ← introducer_oscFraming, hVisible]

theorem shown_eq_of_unfinished (h : Unfinished endsFrame payload) :
    (Mode.matching 0).shown (COSMOSH_OSC_PREFIX ++ payload) = oscFraming.removeFrames (COSMOSH_OSC_PREFIX ++ payload) := by
  rw [Mode.shown_introducer, Mode.shown_unfinished h, ← introducer_oscFraming]
  exact (Framing.removeFrames_unfinished h).symm

theorem shown_eq_of_complete (h : Complete endsFrame payload) :
    (Mode.matching 0).shown (COSMOSH_OSC_PREFIX ++ payload) = oscFraming.removeFrames (COSMOSH_OSC_PREFIX ++ payload) := by
  have hRemoved : oscFraming.removeFrames (oscFraming.introducer ++ (payload ++ [])) = oscFraming.removeFrames [] :=
    Framing.removeFrames_complete h []
  rw [List.append_nil, introducer_oscFraming, Framing.removeFrames_nil] at hRemoved
  rw [hRemoved, Mode.shown_introducer, Mode.shown]
  obtain ⟨hEmitted, ⟨-, hRead⟩ | ⟨-, hRead⟩⟩ := Mode.read_complete h
  · rw [hEmitted, hRead]
    rfl
  · rw [hEmitted, hRead]
    rfl

theorem front_cases {pattern text front : Output} (h : pattern ++ text = front ++ rest) :
    (∃ n < pattern.length, front = pattern.take n) ∨ ∃ more, front = pattern ++ more ∧ text = more ++ rest := by
  obtain ⟨more, hPattern, hRest⟩ | ⟨more, hFront, hText⟩ := List.append_eq_append_iff.mp h
  · exact .inr ⟨more, hPattern, hRest⟩
  · cases more with
    | nil =>
      refine .inr ⟨[], ?_, hText.symm⟩
      rw [hFront, List.append_nil, List.append_nil]
    | cons c more =>
      refine .inl ⟨front.length, ?_, ?_⟩
      · rw [hFront, List.length_append, List.length_cons]
        omega
      · rw [hFront, List.take_left]

theorem Readable.conserved {output : Output} (h : Readable output) : Conserved output := by
  induction h with
  | @introducer n hn =>
    intro front rest hOutput
    have hFront : front = COSMOSH_OSC_PREFIX.take (min front.length n) := by
      rw [← List.take_take, hOutput, List.take_left]
    rw [hFront]
    exact shown_eq_of_take (by omega)
  | @broken n c rest hn hc hFrame _ ih =>
    intro front back hOutput
    obtain ⟨m, hm, rfl⟩ | ⟨more, rfl, hMore⟩ := front_cases hOutput
    · rw [List.take_take]
      exact shown_eq_of_take (by omega)
    · cases more with
      | nil =>
        rw [List.append_nil]
        exact shown_eq_of_take hn
      | cons d more =>
        obtain ⟨rfl, hRest⟩ := List.cons.inj (show c :: rest = d :: (more ++ back) from hMore)
        have hFront : ¬oscFraming.Removes (c :: more) := by
          intro hRemoves
          have hWhole := hRemoves.append back
          rw [List.cons_append, ← hRest] at hWhole
          exact hFrame hWhole
        rw [conserved_broken_iff hn hc hFront]
        exact ih more back hRest
  | @frame payload rest hPayload hEnd _ ih =>
    intro front back hOutput
    obtain ⟨m, hm, rfl⟩ | ⟨more, rfl, hMore⟩ := front_cases hOutput
    · exact shown_eq_of_take hm
    · obtain ⟨m, hm, rfl⟩ | ⟨tail, rfl, hTail⟩ := front_cases hMore
      · obtain ⟨body, d, rfl, hBody, -⟩ := hPayload.split
        rw [List.length_append, List.length_singleton] at hm
        rw [List.take_append_of_le_length (by omega)]
        rw [← List.take_append_drop m body] at hBody
        exact shown_eq_of_unfinished hBody.of_append
      · by_cases hSwallows : Swallows payload
        · obtain ⟨rfl, -⟩ := List.append_eq_nil_iff.mp (hTail.symm.trans (hEnd hSwallows))
          rw [List.append_nil]
          exact shown_eq_of_complete hPayload
        · rw [conserved_complete_iff hPayload hSwallows]
          exact ih tail back hTail
  | @unfinished payload hPayload =>
    intro front back hOutput
    obtain ⟨m, hm, rfl⟩ | ⟨more, rfl, hMore⟩ := front_cases hOutput
    · exact shown_eq_of_take hm
    · rw [hMore] at hPayload
      exact shown_eq_of_unfinished hPayload.of_append

theorem not_conserved_of_removes (hn : n < COSMOSH_OSC_PREFIX.length) (hc : COSMOSH_OSC_PREFIX[n]? ≠ some c)
    (h : oscFraming.Removes (c :: rest)) : ¬Conserved (COSMOSH_OSC_PREFIX.take n ++ c :: rest) := by
  have hShown (front : Output) (hRemoved : oscFraming.removeFrames (c :: front) = []) :
      (Mode.matching 0).shown (COSMOSH_OSC_PREFIX.take n ++ c :: front) ≠
        oscFraming.removeFrames (COSMOSH_OSC_PREFIX.take n ++ c :: front) := by
    rw [Mode.shown_broken hn hc, ← introducer_oscFraming, Framing.removeFrames_take_append hn hc, hRemoved,
      List.append_nil]
    intro hSame
    have hLength := congrArg List.length hSame
    rw [List.length_append, List.length_cons] at hLength
    omega
  intro hConserved
  obtain ⟨payload, hPayload, hEnded⟩ := h
  obtain ⟨rfl, hRest⟩ : c = ESCAPE ∧ rest = oscFraming.tail ++ payload := List.cons.inj hPayload
  obtain hUnfinished | ⟨complete, more, hSplit, hComplete⟩ := unfinished_or_complete endsFrame payload
  · obtain hNot | hOversized := hEnded
    · exact hNot hUnfinished
    · apply hShown rest _ (hConserved _ [] (List.append_nil _).symm)
      rw [hPayload]
      exact (Framing.removeFrames_unfinished hUnfinished).trans (if_pos hOversized)
  · apply hShown (oscFraming.tail ++ complete) _ (hConserved _ more _)
    · have hRemoved : oscFraming.removeFrames (oscFraming.introducer ++ (complete ++ [])) =
          oscFraming.removeFrames [] := Framing.removeFrames_complete hComplete []
      rw [List.append_nil, Framing.removeFrames_nil] at hRemoved
      exact hRemoved
    · rw [hRest, hSplit, List.append_assoc, List.cons_append, List.append_assoc]

theorem not_conserved_of_swallows (hPayload : Complete endsFrame payload) (h : Swallows payload) (c : CodeUnit) (rest : Output) :
    ¬Conserved (COSMOSH_OSC_PREFIX ++ (payload ++ c :: rest)) := by
  intro hConserved
  have hFront := hConserved (COSMOSH_OSC_PREFIX ++ (payload ++ [c])) rest (by simp)
  have hVisible : oscFraming.removeFrames [c] = [c] := by
    rw [Framing.removeFrames_of_no_introducer, Framing.removeFrames_nil]
    intro hPrefix
    have hLength : 14 ≤ 1 := hPrefix.length_le
    omega
  have hNothing : (Mode.discarding false).shown [c] = [] := by
    show Mode.pending ((Mode.discarding false).next c) = []
    rw [Mode.next]
    split <;> rfl
  rw [Mode.shown_swallowed hPayload h, hNothing, ← introducer_oscFraming,
    Framing.removeFrames_complete hPayload, hVisible] at hFront
  cases hFront

theorem readable_of_conserved (output : Output) (h : Conserved output) : Readable output := by
  induction hLength : output.length using Nat.strong_induction_on generalizing output with
  | _ length ih =>
    subst hLength
    obtain ⟨n, hn, rfl⟩ | ⟨n, hn, c, rest, rfl, hc⟩ | ⟨payload, rfl⟩ := pattern_cases COSMOSH_OSC_PREFIX output
    · exact .introducer hn
    · have hFrame : ¬oscFraming.Removes (c :: rest) := fun hRemoves => not_conserved_of_removes hn hc hRemoves h
      refine .broken hn hc hFrame (ih rest.length ?_ rest ?_ rfl)
      · rw [List.length_append, List.length_cons]
        omega
      · rintro front back rfl
        have hFront : ¬oscFraming.Removes (c :: front) := fun hRemoves => hFrame (hRemoves.append back)
        rw [← conserved_broken_iff hn hc hFront]
        exact h _ back (by simp)
    · obtain hUnfinished | ⟨complete, rest, rfl, hComplete⟩ := unfinished_or_complete endsFrame payload
      · exact .unfinished hUnfinished
      · by_cases hSwallows : Swallows complete
        · cases rest with
          | nil => exact .frame hComplete (fun _ => rfl) (.introducer (n := 0) (by decide))
          | cons c rest => exact absurd h (not_conserved_of_swallows hComplete hSwallows c rest)
        · refine .frame hComplete (fun hThere => absurd hThere hSwallows) (ih rest.length ?_ rest ?_ rfl)
          · rw [List.length_append, List.length_append, show COSMOSH_OSC_PREFIX.length = 14 from rfl]
            omega
          · rintro front back rfl
            rw [← conserved_complete_iff hComplete hSwallows]
            exact h _ back (by simp)

theorem conserved_iff_readable (output : Output) : Conserved output ↔ Readable output := ⟨readable_of_conserved output, Readable.conserved⟩

section

variable {Event : Type} (parseRemoteShellEventPayload : Output → Option Event)

def visibleAfterFlush (chunks : List Output) : Output :=
  visibleText (parseChunks parseRemoteShellEventPayload newParser chunks).1 ++
    (flush (parseChunks parseRemoteShellEventPayload newParser chunks).2).1

def sentEvents (chunks : List Output) : List Event := eventsOf (parseChunks parseRemoteShellEventPayload newParser chunks).1

def ConservesBytes (output : Output) : Prop :=
  ∀ chunks : List Output, chunks.flatten <+: output →
    sentEvents parseRemoteShellEventPayload chunks = sentEvents parseRemoteShellEventPayload [chunks.flatten] ∧
      visibleAfterFlush parseRemoteShellEventPayload chunks = oscFraming.removeFrames chunks.flatten

variable {parseRemoteShellEventPayload}

theorem visibleAfterFlush_eq (chunks : List Output) :
    visibleAfterFlush parseRemoteShellEventPayload chunks = (Mode.matching 0).shown chunks.flatten := by
  have hValid : (Mode.matching 0).Valid := show 0 < COSMOSH_OSC_PREFIX.length by decide
  obtain ⟨hParser, hText, -⟩ := parseChunks_spec parseRemoteShellEventPayload hValid chunks
  rw [visibleAfterFlush, show newParser = (Mode.matching 0).parser from rfl, hParser, hText, flush_mode]
  rfl

theorem sentEvents_eq (chunks : List Output) : sentEvents parseRemoteShellEventPayload chunks =
      eventsIn parseRemoteShellEventPayload (.matching 0) chunks.flatten := by
  have hValid : (Mode.matching 0).Valid := show 0 < COSMOSH_OSC_PREFIX.length by decide
  exact (parseChunks_spec parseRemoteShellEventPayload hValid chunks).2.2

variable (parseRemoteShellEventPayload) in
theorem osc_output_is_conserved_iff (output : Output) : ConservesBytes parseRemoteShellEventPayload output ↔ Readable output := by
  rw [← conserved_iff_readable]
  constructor
  · rintro h front rest rfl
    have hFront : [front].flatten = front := List.append_nil front
    have hVisible := (h [front] (by rw [hFront]; exact List.prefix_append front rest)).2
    rw [visibleAfterFlush_eq, hFront] at hVisible
    exact hVisible
  · rintro h chunks ⟨rest, hRest⟩
    rw [sentEvents_eq, sentEvents_eq, visibleAfterFlush_eq, List.flatten_singleton]
    exact ⟨rfl, h _ rest hRest.symm⟩

end

def leakedOutput : Output := ESCAPE :: COSMOSH_OSC_PREFIX ++ [BELL]

def oversizedPayload : Output := List.replicate 8193 (codeUnit 'x') ++ [ESCAPE]

def lostOutput : Output := COSMOSH_OSC_PREFIX ++ (oversizedPayload ++ [BELL] ++ [codeUnit '$'])

theorem unfinished_replicate (n : Nat) : Unfinished endsFrame (List.replicate n (codeUnit 'x')) := by
  induction n with
  | zero => exact unfinished_nil
  | succ n ih =>
    rw [List.replicate_succ', unfinished_append_singleton, Bool.eq_false_iff]
    refine ⟨ih, fun hEnds => ?_⟩
    obtain hBell | ⟨hBackslash, -⟩ := endsFrame_concat.mp hEnds
    · exact absurd hBell (by decide)
    · exact absurd hBackslash (by decide)

theorem unfinished_oversizedPayload : Unfinished endsFrame oversizedPayload := by
  rw [oversizedPayload, unfinished_append_singleton, Bool.eq_false_iff]
  refine ⟨unfinished_replicate 8193, fun hEnds => ?_⟩
  obtain hBell | ⟨hBackslash, -⟩ := endsFrame_concat.mp hEnds
  · exact absurd hBell (by decide)
  · exact absurd hBackslash (by decide)

theorem oversized_oversizedPayload : oscFraming.Oversized oversizedPayload := by
  rw [Framing.Oversized, oversizedPayload, List.map_append, List.map_replicate, List.sum_append, List.sum_replicate_nat]
  decide

theorem frame_is_leaked_and_prompt_lost : visibleAfterFlush (fun _ => some ()) [leakedOutput] = leakedOutput ∧
      oscFraming.removeFrames leakedOutput = [ESCAPE] ∧ visibleAfterFlush (fun _ => some ()) [lostOutput] = [] ∧
      oscFraming.removeFrames lostOutput = [codeUnit '$'] := by
  have hBell : Complete endsFrame [BELL] := rfl
  have hComplete : Complete oscFraming.ends (oversizedPayload ++ [BELL]) := by
    refine (complete_append_singleton unfinished_oversizedPayload).mpr (endsFrame_concat.mpr ?_)
    exact .inl rfl
  have hSwallows : Swallows (oversizedPayload ++ [BELL]) := swallows_concat.mpr ⟨oversized_oversizedPayload, List.getLast?_concat, rfl⟩
  have hLost : (Mode.matching 0).shown lostOutput = [] := (Mode.shown_swallowed hComplete hSwallows (codeUnit '$')).trans rfl
  have hLeaked : oscFraming.removeFrames leakedOutput = ESCAPE :: oscFraming.removeFrames (COSMOSH_OSC_PREFIX ++ [BELL]) :=
    Framing.removeFrames_take_append (n := 1) (by decide) (by decide) _
  have hEmpty : oscFraming.removeFrames (oscFraming.introducer ++ ([BELL] ++ [])) = oscFraming.removeFrames [] :=
    Framing.removeFrames_complete hBell []
  have hPrompt : oscFraming.removeFrames (oscFraming.introducer ++ (oversizedPayload ++ [BELL] ++ [codeUnit '$'])) =
      oscFraming.removeFrames [codeUnit '$'] := Framing.removeFrames_complete hComplete _
  refine ⟨by decide, ?_, ?_, ?_⟩
  · rw [hLeaked]
    exact congrArg (ESCAPE :: ·) (hEmpty.trans Framing.removeFrames_nil)
  · rw [visibleAfterFlush_eq, List.flatten_singleton, hLost]
  · rw [lostOutput, ← introducer_oscFraming, hPrompt, Framing.removeFrames_of_ne_head (by decide),
      Framing.removeFrames_nil]

end Terminal
