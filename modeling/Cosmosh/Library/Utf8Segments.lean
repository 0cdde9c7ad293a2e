import Cosmosh.Library.Utf8

/-! # The bytes each decoded character was read from

A character of well-formed bytes stands for its own encoding, and a replacement character for at most three bytes that
are not the encoding of anything.
-/

namespace Library.Utf8

def encode (text : List Char) : List Byte := text.flatMap String.utf8EncodeChar

def WellFormed (bytes : List Byte) : Prop := ∃ text, encode text = bytes

structure Segment where
  shown : Char
  bytes : List Byte
  deriving DecidableEq

def Segment.exact (c : Char) : Segment := ⟨c, String.utf8EncodeChar c⟩

/-- `held` are the bytes of the character under way. -/
def segmentsFrom : Option Pending → List Byte → List Byte → List Segment
  | none, _, [] => []
  | some _, held, [] => [⟨replacement, held⟩]
  | none, _, b :: bytes => (lead b).1.map (⟨·, [b]⟩) ++ segmentsFrom (lead b).2 [b] bytes
  | some pending, held, b :: bytes =>
    if pending.accepts b then
      (pending.next b).1.map (⟨·, held ++ [b]⟩) ++ segmentsFrom (pending.next b).2 (held ++ [b]) bytes
    else ⟨replacement, held⟩ :: ((lead b).1.map (⟨·, [b]⟩) ++ segmentsFrom (lead b).2 [b] bytes)

def segments : List Byte → List Segment := segmentsFrom none []

theorem segmentsFrom_none (held bytes : List Byte) : segmentsFrom none held bytes = segments bytes := by
  cases bytes <;> rfl

variable {pending : Pending} {held bytes : List Byte} {b : Byte}

theorem segmentsFrom_of_refused (hRefused : pending.accepts b = false) :
    segmentsFrom (some pending) held (b :: bytes) = ⟨replacement, held⟩ :: segments (b :: bytes) := by
  rw [segmentsFrom, if_neg (by simp [hRefused])]
  rfl

theorem cases_ite {p : Prop} [Decidable p] {first second : List Char × Option Pending}
    (hFirst : (∃ c, first = ([c], none)) ∨ ∃ pending, first = ([], some pending))
    (hSecond : (∃ c, second = ([c], none)) ∨ ∃ pending, second = ([], some pending)) :
    (∃ c, (if p then first else second) = ([c], none)) ∨ ∃ pending, (if p then first else second) = ([], some pending) := by
  split
  · exact hFirst
  · exact hSecond

theorem lead_cases (b : Byte) : (∃ c, lead b = ([c], none)) ∨ ∃ pending, lead b = ([], some pending) := by
  unfold lead
  apply cases_ite (.inl ⟨_, rfl⟩)
  iterate 7 apply cases_ite (.inr ⟨_, rfl⟩)
  exact .inl ⟨_, rfl⟩

theorem Pending.next_cases (pending : Pending) (b : Byte) :
    (∃ c, pending.next b = ([c], none)) ∨ ∃ further, pending.next b = ([], some further) := by
  unfold next
  dsimp only
  split
  · exact .inl ⟨_, rfl⟩
  · exact .inr ⟨_, rfl⟩

theorem shown_segmentsFrom (state : Option Pending) (held bytes : List Byte) :
    (segmentsFrom state held bytes).map (·.shown) = decodeFrom state bytes := by
  induction bytes generalizing state held with
  | nil => cases state <;> rfl
  | cons b bytes ih =>
    cases state with
    | none =>
      simp only [segmentsFrom, decodeFrom, step, List.map_append, ih, List.map_map]
      simp [Function.comp_def]
    | some pending =>
      simp only [segmentsFrom, decodeFrom, step]
      split
      · simp [ih, Function.comp_def]
      · simp [ih, Function.comp_def]

theorem bytes_segmentsFrom (state : Option Pending) (held bytes : List Byte) :
    (segmentsFrom state held bytes).flatMap (·.bytes) = (if state.isSome then held else []) ++ bytes := by
  induction bytes generalizing state held with
  | nil => cases state <;> simp [segmentsFrom]
  | cons b bytes ih =>
    have hAnew : (segments (b :: bytes)).flatMap (·.bytes) = b :: bytes := by
      rcases lead_cases b with ⟨c, hLead⟩ | ⟨pending, hLead⟩
      · simp [segments, segmentsFrom, hLead, ih]
      · simp [segments, segmentsFrom, hLead, ih]
    cases state with
    | none => rw [segmentsFrom_none, hAnew]; rfl
    | some pending =>
      cases hAccepts : pending.accepts b with
      | false => simp [segmentsFrom_of_refused hAccepts, hAnew]
      | true =>
        rcases pending.next_cases b with ⟨c, hNext⟩ | ⟨further, hNext⟩
        · simp [segmentsFrom, hAccepts, hNext, ih]
        · simp [segmentsFrom, hAccepts, hNext, ih]

theorem shown_segments (bytes : List Byte) : (segments bytes).map (·.shown) = decode bytes :=
  shown_segmentsFrom none [] bytes

theorem bytes_segments (bytes : List Byte) : (segments bytes).flatMap (·.bytes) = bytes :=
  bytes_segmentsFrom none [] bytes

theorem segments_rest {state : Option Pending} {first : Segment} {rest : List Segment}
    (hSegments : segmentsFrom state held bytes = first :: rest) : segments (rest.flatMap (·.bytes)) = rest := by
  have hWhole : ∀ {bytes : List Byte}, segments bytes = rest → segments (rest.flatMap (·.bytes)) = rest := by
    rintro bytes rfl
    rw [bytes_segments]
  induction bytes generalizing state held with
  | nil =>
    cases state with
    | none => cases hSegments
    | some pending =>
      cases hSegments
      rfl
  | cons b bytes ih =>
    cases state with
    | none =>
      rcases lead_cases b with ⟨c, hLead⟩ | ⟨pending, hLead⟩
      · simp only [segmentsFrom, hLead, List.map_cons, List.map_nil, List.cons_append, List.nil_append,
          List.cons.injEq, segmentsFrom_none] at hSegments
        exact hWhole hSegments.2
      · simp only [segmentsFrom, hLead, List.map_nil, List.nil_append] at hSegments
        exact ih hSegments
    | some pending =>
      cases hAccepts : pending.accepts b with
      | false =>
        rw [segmentsFrom_of_refused hAccepts, List.cons.injEq] at hSegments
        exact hWhole hSegments.2
      | true =>
        rw [segmentsFrom, if_pos hAccepts] at hSegments
        rcases pending.next_cases b with ⟨c, hNext⟩ | ⟨further, hNext⟩
        · simp only [hNext, List.map_cons, List.map_nil, List.cons_append, List.nil_append, List.cons.injEq,
            segmentsFrom_none] at hSegments
          exact hWhole hSegments.2
        · simp only [hNext, List.map_nil, List.nil_append] at hSegments
          exact ih hSegments

theorem segments_suffix {front back : List Segment} (hSegments : segments bytes = front ++ back) :
    segments (back.flatMap (·.bytes)) = back := by
  induction front generalizing bytes with
  | nil =>
    rw [List.nil_append] at hSegments
    rw [← hSegments, bytes_segments]
  | cons first front ih => exact ih (segments_rest hSegments)

variable (c : Char)

theorem toNat_valid : c.toNat < 0xd800 ∨ (0xdfff < c.toNat ∧ c.toNat < 0x110000) := c.valid

theorem toNat_lt : c.toNat < 0x110000 := by
  have hValid := toNat_valid c
  omega

variable {n : Nat}

theorem toNat_ofNat (hValid : n < 0xd800 ∨ (0xdfff < n ∧ n < 0x110000)) : (Char.ofNat n).toNat = n := by
  rw [Char.ofNat, dif_pos hValid]
  rfl

theorem utf8EncodeChar_cases : (∃ a, String.utf8EncodeChar c = [a] ∧ c.toNat < 0x80 ∧ a.toNat = c.toNat) ∨
    (∃ a b, String.utf8EncodeChar c = [a, b] ∧ 0x80 ≤ c.toNat ∧ c.toNat < 0x800 ∧
      a.toNat = 0xc0 + c.toNat / 64 ∧ b.toNat = 0x80 + c.toNat % 64) ∨
    (∃ a b d, String.utf8EncodeChar c = [a, b, d] ∧ 0x800 ≤ c.toNat ∧ c.toNat < 0x10000 ∧
      a.toNat = 0xe0 + c.toNat / 4096 ∧ b.toNat = 0x80 + c.toNat / 64 % 64 ∧ d.toNat = 0x80 + c.toNat % 64) ∨
    ∃ a b d e, String.utf8EncodeChar c = [a, b, d, e] ∧ 0x10000 ≤ c.toNat ∧ c.toNat < 0x110000 ∧
      a.toNat = 0xf0 + c.toNat / 262144 ∧ b.toNat = 0x80 + c.toNat / 4096 % 64 ∧
      d.toNat = 0x80 + c.toNat / 64 % 64 ∧ e.toNat = 0x80 + c.toNat % 64 := by
  have hBound : c.toNat < 0x110000 := toNat_lt c
  have hEncode : String.utf8EncodeChar c = if c.toNat ≤ 0x7f then [UInt8.ofNat c.toNat]
      else if c.toNat ≤ 0x7ff then [UInt8.ofNat (c.toNat / 64 % 0x20 + 0xc0), UInt8.ofNat (c.toNat % 0x40 + 0x80)]
      else if c.toNat ≤ 0xffff then [UInt8.ofNat (c.toNat / 4096 % 0x10 + 0xe0),
        UInt8.ofNat (c.toNat / 64 % 0x40 + 0x80), UInt8.ofNat (c.toNat % 0x40 + 0x80)]
      else [UInt8.ofNat (c.toNat / 262144 % 0x08 + 0xf0), UInt8.ofNat (c.toNat / 4096 % 0x40 + 0x80),
        UInt8.ofNat (c.toNat / 64 % 0x40 + 0x80), UInt8.ofNat (c.toNat % 0x40 + 0x80)] := rfl
  rw [hEncode]
  split
  · exact .inl ⟨_, rfl, by omega, by rw [UInt8.toNat_ofNat']; omega⟩
  · split
    · refine .inr (.inl ⟨_, _, rfl, by omega, by omega, ?_, ?_⟩)
      · rw [UInt8.toNat_ofNat']; omega
      · rw [UInt8.toNat_ofNat']; omega
    · split
      · refine .inr (.inr (.inl ⟨_, _, _, rfl, by omega, by omega, ?_, ?_, ?_⟩))
        · rw [UInt8.toNat_ofNat']; omega
        · rw [UInt8.toNat_ofNat']; omega
        · rw [UInt8.toNat_ofNat']; omega
      · refine .inr (.inr (.inr ⟨_, _, _, _, rfl, by omega, by omega, ?_, ?_, ?_, ?_⟩))
        · rw [UInt8.toNat_ofNat']; omega
        · rw [UInt8.toNat_ofNat']; omega
        · rw [UInt8.toNat_ofNat']; omega
        · rw [UInt8.toNat_ofNat']; omega

theorem ofNat_toNat_eq {c : Char} (hValue : n = c.toNat) : Char.ofNat n = c := by
  rw [hValue, Char.ofNat_toNat]

theorem segmentsFrom_completed {c : Char} (hAccepts : pending.accepts b = true) (hLast : pending.needed = 1)
    (hValue : pending.value * 64 + (b.toNat - 0x80) = c.toNat) :
    segmentsFrom (some pending) held (b :: bytes) = ⟨c, held ++ [b]⟩ :: segments bytes := by
  rw [segmentsFrom, if_pos hAccepts, Pending.next, if_pos (by omega), ofNat_toNat_eq hValue]
  simp only [List.map_cons, List.map_nil, List.cons_append, List.nil_append, segmentsFrom_none]

theorem segmentsFrom_continued (hAccepts : pending.accepts b = true) (hMore : 1 < pending.needed) :
    segmentsFrom (some pending) held (b :: bytes) = segmentsFrom
      (some ⟨pending.value * 64 + (b.toNat - 0x80), pending.needed - 1, 0x80, 0xbf, by decide⟩) (held ++ [b]) bytes := by
  rw [segmentsFrom, if_pos hAccepts, Pending.next, if_neg (by omega)]
  rfl

variable {a : Byte}

theorem lead_one (hLow : a.toNat < 0x80) : lead a = ([Char.ofNat a.toNat], none) := by
  rw [lead]
  exact if_pos hLow

theorem lead_two (hLow : 0xc2 ≤ a.toNat) (hHigh : a.toNat ≤ 0xdf) : lead a = ([], some ⟨a.toNat - 0xc0, 1, 0x80, 0xbf, by decide⟩) := by
  simp only [lead]
  rw [if_neg (by omega), if_pos ⟨hLow, hHigh⟩]

theorem lead_three (hLow : 0xe0 ≤ a.toNat) (hHigh : a.toNat ≤ 0xef) :
    ∃ pending : Pending, lead a = ([], some pending) ∧ pending.value = a.toNat - 0xe0 ∧ pending.needed = 2 ∧
      pending.lower = (if a.toNat = 0xe0 then 0xa0 else 0x80) ∧ pending.upper = if a.toNat = 0xed then 0x9f else 0xbf := by
  simp only [lead]
  rw [if_neg (by omega), if_neg (by omega)]
  split
  · rename_i hFirst
    exact ⟨_, rfl, by simp [hFirst], rfl, by simp, by simp [hFirst]⟩
  · rename_i hFirst
    split
    · rename_i hSurrogates
      exact ⟨_, rfl, by simp [hSurrogates], rfl, by simp, by simp⟩
    · rename_i hSurrogates
      rw [if_pos (by omega)]
      exact ⟨_, rfl, rfl, rfl, by simp, by simp⟩

theorem lead_four (hLow : 0xf0 ≤ a.toNat) (hHigh : a.toNat ≤ 0xf4) :
    ∃ pending : Pending, lead a = ([], some pending) ∧ pending.value = a.toNat - 0xf0 ∧ pending.needed = 3 ∧
      pending.lower = (if a.toNat = 0xf0 then 0x90 else 0x80) ∧ pending.upper = if a.toNat = 0xf4 then 0x8f else 0xbf := by
  simp only [lead]
  rw [if_neg (by omega), if_neg (by omega), if_neg (by omega), if_neg (by omega), if_neg (by omega)]
  split
  · rename_i hFirst
    exact ⟨_, rfl, by simp [hFirst], rfl, by simp, by simp [hFirst]⟩
  · rename_i hFirst
    split
    · rename_i hLast
      exact ⟨_, rfl, by simp [hLast], rfl, by simp, by simp⟩
    · rename_i hLast
      rw [if_pos (by omega)]
      exact ⟨_, rfl, rfl, rfl, by simp, by simp⟩

theorem lead_malformed (hLow : 0x80 ≤ a.toNat) (hOutside : a.toNat < 0xc2 ∨ 0xf4 < a.toNat) : lead a = ([replacement], none) := by
  simp only [lead]
  rw [if_neg (by omega), if_neg (by omega), if_neg (by omega), if_neg (by omega), if_neg (by omega), if_neg (by omega),
    if_neg (by omega), if_neg (by omega)]

theorem Pending.accepts_iff : pending.accepts b = true ↔ pending.lower ≤ b.toNat ∧ b.toNat ≤ pending.upper := by
  simp [accepts]

theorem segments_of_lead (hLead : lead a = ([], some pending)) (bytes : List Byte) :
    segments (a :: bytes) = segmentsFrom (some pending) [a] bytes := by
  rw [segments, segmentsFrom, hLead]
  rfl

theorem segments_utf8EncodeChar_append (rest : List Byte) : segments (String.utf8EncodeChar c ++ rest) = .exact c :: segments rest := by
  have hValid := toNat_valid c
  rw [Segment.exact]
  rcases utf8EncodeChar_cases c with ⟨a, hEncode, hSize, hA⟩ | ⟨a, b, hEncode, hLow, hHigh, hA, hB⟩ |
    ⟨a, b, d, hEncode, hLow, hHigh, hA, hB, hD⟩ | ⟨a, b, d, e, hEncode, hLow, hHigh, hA, hB, hD, hE⟩
  · rw [hEncode, List.singleton_append, segments, segmentsFrom, lead_one (by omega), ofNat_toNat_eq hA,
      segmentsFrom_none]
    rfl
  · rw [hEncode, List.cons_append, List.cons_append, List.nil_append,
      segments_of_lead (lead_two (by omega) (by omega)),
      segmentsFrom_completed (c := c) (by rw [Pending.accepts_iff]; dsimp only; omega) rfl (by dsimp only; omega)]
    rfl
  · obtain ⟨pending, hLead, hValue, hNeeded, hLower, hUpper⟩ := lead_three (a := a) (by omega) (by omega)
    have hAccepts : pending.accepts b = true := by
      rw [Pending.accepts_iff, hLower, hUpper]
      constructor
      · split <;> omega
      · split <;> omega
    simp only [hEncode, List.cons_append, List.nil_append]
    rw [segments_of_lead hLead, segmentsFrom_continued hAccepts (by omega),
      segmentsFrom_completed (c := c) (by rw [Pending.accepts_iff]; dsimp only; omega)
        (by dsimp only; omega) (by dsimp only; omega)]
    rfl
  · obtain ⟨pending, hLead, hValue, hNeeded, hLower, hUpper⟩ := lead_four (a := a) (by omega) (by omega)
    have hAccepts : pending.accepts b = true := by
      rw [Pending.accepts_iff, hLower, hUpper]
      constructor
      · split <;> omega
      · split <;> omega
    simp only [hEncode, List.cons_append, List.nil_append]
    rw [segments_of_lead hLead, segmentsFrom_continued hAccepts (by omega),
      segmentsFrom_continued (by rw [Pending.accepts_iff]; dsimp only; omega) (by dsimp only; omega),
      segmentsFrom_completed (c := c) (by rw [Pending.accepts_iff]; dsimp only; omega)
        (by dsimp only; omega) (by dsimp only; omega)]
    rfl

theorem segments_encode_append (text : List Char) (rest : List Byte) : segments (encode text ++ rest) = text.map .exact ++ segments rest := by
  induction text with
  | nil => rfl
  | cons c text ih =>
    rw [encode, List.flatMap_cons, List.append_assoc, segments_utf8EncodeChar_append, ← encode, ih]
    rfl

theorem decode_encode (text : List Char) : decode (encode text) = text := by
  have hSegments := segments_encode_append text []
  rw [List.append_nil] at hSegments
  rw [← shown_segments, hSegments]
  simp [segments, segmentsFrom, Segment.exact, Function.comp_def]

theorem decode_eq_nil_iff : decode bytes = [] ↔ bytes = [] := by
  constructor
  · intro h
    rw [← shown_segments, List.map_eq_nil_iff] at h
    rw [← bytes_segments bytes, h, List.flatMap_nil]
  · rintro rfl
    rfl

theorem wellFormed_iff : WellFormed bytes ↔ encode (decode bytes) = bytes := by
  constructor
  · rintro ⟨text, rfl⟩
    rw [decode_encode]
  · exact fun hSame => ⟨decode bytes, hSame⟩

instance (bytes : List Byte) : Decidable (WellFormed bytes) := decidable_of_iff _ wellFormed_iff.symm

inductive Pending.Reads : Pending → List Byte → Prop
  | two {pending : Pending} {a : Byte} (hLow : 0xc2 ≤ a.toNat) (hHigh : a.toNat ≤ 0xdf)
      (hValue : pending.value = a.toNat - 0xc0) (hNeeded : pending.needed = 1) : Reads pending [a]
  | three {pending : Pending} {a : Byte} (hLow : 0xe0 ≤ a.toNat) (hHigh : a.toNat ≤ 0xef)
      (hValue : pending.value = a.toNat - 0xe0) (hNeeded : pending.needed = 2)
      (hLower : pending.lower = if a.toNat = 0xe0 then 0xa0 else 0x80)
      (hUpper : pending.upper = if a.toNat = 0xed then 0x9f else 0xbf) : Reads pending [a]
  | threeMore {pending : Pending} {a b : Byte} (hHead : 0xe0 ≤ a.toNat ∧ a.toNat ≤ 0xef)
      (hTail : 0x80 ≤ b.toNat ∧ b.toNat ≤ 0xbf)
      (hValue : pending.value = (a.toNat - 0xe0) * 64 + (b.toNat - 0x80)) (hNeeded : pending.needed = 1)
      (hRange : 0x20 ≤ pending.value ∧ (pending.value < 0x360 ∨ 0x37f < pending.value)) : Reads pending [a, b]
  | four {pending : Pending} {a : Byte} (hLow : 0xf0 ≤ a.toNat) (hHigh : a.toNat ≤ 0xf4)
      (hValue : pending.value = a.toNat - 0xf0) (hNeeded : pending.needed = 3)
      (hLower : pending.lower = if a.toNat = 0xf0 then 0x90 else 0x80)
      (hUpper : pending.upper = if a.toNat = 0xf4 then 0x8f else 0xbf) : Reads pending [a]
  | fourMore {pending : Pending} {a b : Byte} (hHead : 0xf0 ≤ a.toNat ∧ a.toNat ≤ 0xf4)
      (hTail : 0x80 ≤ b.toNat ∧ b.toNat ≤ 0xbf)
      (hValue : pending.value = (a.toNat - 0xf0) * 64 + (b.toNat - 0x80)) (hNeeded : pending.needed = 2)
      (hRange : 0x10 ≤ pending.value ∧ pending.value < 0x110) : Reads pending [a, b]
  | fourLast {pending : Pending} {a b d : Byte} (hHead : 0xf0 ≤ a.toNat ∧ a.toNat ≤ 0xf4)
      (hTail : 0x80 ≤ b.toNat ∧ b.toNat ≤ 0xbf) (hFurther : 0x80 ≤ d.toNat ∧ d.toNat ≤ 0xbf)
      (hValue : pending.value = ((a.toNat - 0xf0) * 64 + (b.toNat - 0x80)) * 64 + (d.toNat - 0x80))
      (hNeeded : pending.needed = 1) (hRange : 0x400 ≤ pending.value ∧ pending.value < 0x4400) :
      Reads pending [a, b, d]

theorem Pending.Reads.length_le (hReads : pending.Reads held) : held.length ≤ 3 := by
  cases hReads <;> simp

theorem utf8EncodeChar_two (hLow : 0x80 ≤ n) (hHigh : n < 0x800) (hA : a.toNat = 0xc0 + n / 64) (hB : b.toNat = 0x80 + n % 64) :
    String.utf8EncodeChar (Char.ofNat n) = [a, b] := by
  have hNat : (Char.ofNat n).toNat = n := toNat_ofNat (by omega)
  rcases utf8EncodeChar_cases (Char.ofNat n) with ⟨_, -, hSize, -⟩ | ⟨a', b', hEncode, -, -, hA', hB'⟩ |
    ⟨_, _, _, -, hSize, -⟩ | ⟨_, _, _, _, -, hSize, -⟩
  · omega
  · rw [hNat] at hA' hB'
    rw [hEncode, UInt8.toNat_inj.mp (hA'.trans hA.symm), UInt8.toNat_inj.mp (hB'.trans hB.symm)]
  · omega
  · omega

theorem utf8EncodeChar_three {d : Byte} (hLow : 0x800 ≤ n) (hHigh : n < 0x10000) (hValid : n < 0xd800 ∨ 0xdfff < n)
    (hA : a.toNat = 0xe0 + n / 4096) (hB : b.toNat = 0x80 + n / 64 % 64) (hD : d.toNat = 0x80 + n % 64) :
    String.utf8EncodeChar (Char.ofNat n) = [a, b, d] := by
  have hNat : (Char.ofNat n).toNat = n := toNat_ofNat (by omega)
  rcases utf8EncodeChar_cases (Char.ofNat n) with ⟨_, -, hSize, -⟩ | ⟨_, _, -, -, hSize, -⟩ |
    ⟨a', b', d', hEncode, -, -, hA', hB', hD'⟩ | ⟨_, _, _, _, -, hSize, -⟩
  · omega
  · omega
  · rw [hNat] at hA' hB' hD'
    rw [hEncode, UInt8.toNat_inj.mp (hA'.trans hA.symm), UInt8.toNat_inj.mp (hB'.trans hB.symm),
      UInt8.toNat_inj.mp (hD'.trans hD.symm)]
  · omega

theorem utf8EncodeChar_four {d e : Byte} (hLow : 0x10000 ≤ n) (hHigh : n < 0x110000) (hA : a.toNat = 0xf0 + n / 262144)
    (hB : b.toNat = 0x80 + n / 4096 % 64) (hD : d.toNat = 0x80 + n / 64 % 64) (hE : e.toNat = 0x80 + n % 64) :
    String.utf8EncodeChar (Char.ofNat n) = [a, b, d, e] := by
  have hNat : (Char.ofNat n).toNat = n := toNat_ofNat (by omega)
  rcases utf8EncodeChar_cases (Char.ofNat n) with ⟨_, -, hSize, -⟩ | ⟨_, _, -, -, hSize, -⟩ | ⟨_, _, _, -, -, hSize, -⟩ |
    ⟨a', b', d', e', hEncode, -, -, hA', hB', hD', hE'⟩
  · omega
  · omega
  · omega
  · rw [hNat] at hA' hB' hD' hE'
    rw [hEncode, UInt8.toNat_inj.mp (hA'.trans hA.symm), UInt8.toNat_inj.mp (hB'.trans hB.symm),
      UInt8.toNat_inj.mp (hD'.trans hD.symm), UInt8.toNat_inj.mp (hE'.trans hE.symm)]

theorem Pending.Reads.next (hReads : pending.Reads held) (hAccepts : pending.accepts b = true) :
    (∃ c, pending.next b = ([c], none) ∧ String.utf8EncodeChar c = held ++ [b]) ∨
      ∃ further, pending.next b = ([], some further) ∧ further.Reads (held ++ [b]) := by
  obtain ⟨hFrom, hTo⟩ := pending.tail
  rw [Pending.accepts_iff] at hAccepts
  rw [Pending.next]
  cases hReads with
  | two hLow hHigh hValue hNeeded =>
    rw [if_pos (by omega)]
    exact .inl ⟨_, rfl, utf8EncodeChar_two (by omega) (by omega) (by omega) (by omega)⟩
  | @three a hLow hHigh hValue hNeeded hLower hUpper =>
    rw [if_neg (by omega)]
    refine .inr ⟨_, rfl, .threeMore ⟨hLow, hHigh⟩ (by omega) (by rw [hValue]) (by dsimp only; omega) ?_⟩
    dsimp only
    rw [hLower, hUpper] at hAccepts
    split at hAccepts
    · split at hAccepts <;> omega
    · split at hAccepts <;> omega
  | threeMore hHead hTail hValue hNeeded hRange =>
    rw [if_pos (by omega)]
    exact .inl ⟨_, rfl, utf8EncodeChar_three (by omega) (by omega) (by omega) (by omega) (by omega) (by omega)⟩
  | @four a hLow hHigh hValue hNeeded hLower hUpper =>
    rw [if_neg (by omega)]
    refine .inr ⟨_, rfl, .fourMore ⟨hLow, hHigh⟩ (by omega) (by rw [hValue]) (by dsimp only; omega) ?_⟩
    dsimp only
    rw [hLower, hUpper] at hAccepts
    split at hAccepts
    · split at hAccepts <;> omega
    · split at hAccepts <;> omega
  | fourMore hHead hTail hValue hNeeded hRange =>
    rw [if_neg (by omega)]
    refine .inr ⟨_, rfl, .fourLast hHead hTail (by omega) (by rw [hValue]) (by dsimp only; omega) ?_⟩
    dsimp only
    omega
  | fourLast hHead hTail hFurther hValue hNeeded hRange =>
    rw [if_pos (by omega)]
    exact .inl ⟨_, rfl, utf8EncodeChar_four (by omega) (by omega) (by omega) (by omega) (by omega) (by omega)⟩

def Segment.Decoded (segment : Segment) : Prop := segment = .exact segment.shown ∨ (segment.shown = replacement ∧ segment.bytes.length ≤ 3)

theorem lead_reads (a : Byte) : (∃ c, lead a = ([c], none) ∧ Segment.Decoded ⟨c, [a]⟩) ∨
    ∃ pending, lead a = ([], some pending) ∧ pending.Reads [a] := by
  have hByte := a.toNat_lt
  by_cases hOne : a.toNat < 0x80
  · refine .inl ⟨_, lead_one hOne, .inl ?_⟩
    have hNat : (Char.ofNat a.toNat).toNat = a.toNat := toNat_ofNat (by omega)
    rw [Segment.exact]
    rcases utf8EncodeChar_cases (Char.ofNat a.toNat) with ⟨a', hEncode, -, hA⟩ | ⟨_, _, -, hSize, -⟩ |
      ⟨_, _, _, -, hSize, -⟩ | ⟨_, _, _, _, -, hSize, -⟩
    · rw [hEncode, UInt8.toNat_inj.mp (hA.trans hNat)]
    · omega
    · omega
    · omega
  · by_cases hTwo : 0xc2 ≤ a.toNat ∧ a.toNat ≤ 0xdf
    · exact .inr ⟨_, lead_two hTwo.1 hTwo.2, .two hTwo.1 hTwo.2 rfl rfl⟩
    · by_cases hThree : 0xe0 ≤ a.toNat ∧ a.toNat ≤ 0xef
      · obtain ⟨pending, hLead, hValue, hNeeded, hLower, hUpper⟩ := lead_three hThree.1 hThree.2
        exact .inr ⟨pending, hLead, .three hThree.1 hThree.2 hValue hNeeded hLower hUpper⟩
      · by_cases hFour : 0xf0 ≤ a.toNat ∧ a.toNat ≤ 0xf4
        · obtain ⟨pending, hLead, hValue, hNeeded, hLower, hUpper⟩ := lead_four hFour.1 hFour.2
          exact .inr ⟨pending, hLead, .four hFour.1 hFour.2 hValue hNeeded hLower hUpper⟩
        · exact .inl ⟨_, lead_malformed (by omega) (by omega), .inr ⟨rfl, by simp⟩⟩

theorem segmentsFrom_decoded {state : Option Pending} (hReads : ∀ pending, state = some pending → pending.Reads held) :
    ∀ segment ∈ segmentsFrom state held bytes, segment.Decoded := by
  induction bytes generalizing state held with
  | nil =>
    cases state with
    | none => exact nofun
    | some pending =>
      intro segment hSegment
      obtain rfl := List.mem_singleton.mp hSegment
      exact .inr ⟨rfl, (hReads pending rfl).length_le⟩
  | cons b bytes ih =>
    have hAnew : ∀ segment ∈ segments (b :: bytes), segment.Decoded := by
      rw [segments, segmentsFrom]
      rcases lead_reads b with ⟨c, hLead, hDecoded⟩ | ⟨pending, hLead, hNow⟩
      · simp only [hLead, List.map_cons, List.map_nil, List.cons_append, List.nil_append, List.forall_mem_cons]
        exact ⟨hDecoded, ih nofun⟩
      · simp only [hLead, List.map_nil, List.nil_append]
        refine ih ?_
        rintro _ ⟨⟩
        exact hNow
    cases state with
    | none => rwa [segmentsFrom_none]
    | some pending =>
      cases hAccepts : pending.accepts b with
      | false =>
        rw [segmentsFrom_of_refused hAccepts, List.forall_mem_cons]
        exact ⟨.inr ⟨rfl, (hReads pending rfl).length_le⟩, hAnew⟩
      | true =>
        rw [segmentsFrom, if_pos hAccepts]
        rcases (hReads pending rfl).next hAccepts with ⟨c, hNext, hEncode⟩ | ⟨further, hNext, hNow⟩
        · simp only [hNext, List.map_cons, List.map_nil, List.cons_append, List.nil_append, List.forall_mem_cons]
          exact ⟨.inl (by rw [Segment.exact, hEncode]), ih nofun⟩
        · simp only [hNext, List.map_nil, List.nil_append]
          refine ih ?_
          rintro _ ⟨⟩
          exact hNow

theorem segments_decoded (bytes : List Byte) : ∀ segment ∈ segments bytes, segment.Decoded := segmentsFrom_decoded nofun

end Library.Utf8
