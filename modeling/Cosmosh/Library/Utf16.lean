import Cosmosh.Library.CodeUnits
import Cosmosh.Library.Utf8Segments

/-! # Strings of code units, and those of decoded bytes

Half a surrogate pair stands for a replacement character.
-/

namespace Library.Utf16

open CodeUnits

def unitsOf (c : Char) : CodeUnits :=
  if c.toNat < 0x10000 then [c.toNat] else [0xd800 + (c.toNat - 0x10000) / 0x400, 0xdc00 + (c.toNat - 0x10000) % 0x400]

def ofText (text : List Char) : CodeUnits := text.flatMap unitsOf

def toText : CodeUnits → List Char
  | [] => []
  | [u] => [if isHighSurrogate u || isLowSurrogate u then Utf8.replacement else Char.ofNat u]
  | u :: v :: rest =>
    if isHighSurrogate u && isLowSurrogate v then Char.ofNat (0x10000 + (u - 0xd800) * 0x400 + (v - 0xdc00)) :: toText rest
    else (if isHighSurrogate u || isLowSurrogate u then Utf8.replacement else Char.ofNat u) :: toText (v :: rest)

theorem toText_unitsOf_append (c : Char) (rest : CodeUnits) : toText (unitsOf c ++ rest) = c :: toText rest := by
  have hValid := Utf8.toNat_valid c
  rw [unitsOf]
  split
  · next hShort =>
    have hPlain : (isHighSurrogate c.toNat || isLowSurrogate c.toNat) = false := by
      simp only [isHighSurrogate, isLowSurrogate, Bool.or_eq_false_iff, Bool.and_eq_false_iff, decide_eq_false_iff_not]
      omega
    have hHigh : isHighSurrogate c.toNat = false := (Bool.or_eq_false_iff.mp hPlain).1
    cases rest with
    | nil =>
      simp only [List.append_nil, toText, hPlain, Char.ofNat_toNat]
      rfl
    | cons v rest => rw [List.singleton_append, toText, hPlain, hHigh, Bool.false_and, if_neg Bool.false_ne_true, if_neg Bool.false_ne_true,
        Char.ofNat_toNat]
  · next hLong =>
    have hBelow := Utf8.toNat_lt c
    have hPair : (isHighSurrogate (0xd800 + (c.toNat - 0x10000) / 0x400) && isLowSurrogate (0xdc00 + (c.toNat - 0x10000) % 0x400)) = true := by
      simp only [isHighSurrogate, isLowSurrogate, Bool.and_eq_true, decide_eq_true_eq]
      omega
    have hValue : 0x10000 + (0xd800 + (c.toNat - 0x10000) / 0x400 - 0xd800) * 0x400 + (0xdc00 + (c.toNat - 0x10000) % 0x400 - 0xdc00) =
        c.toNat := by omega
    rw [List.cons_append, List.singleton_append, toText, hPair, if_pos rfl, hValue, Char.ofNat_toNat]

theorem toText_ofText_append (text : List Char) (rest : CodeUnits) : toText (ofText text ++ rest) = text ++ toText rest := by
  induction text with
  | nil => rfl
  | cons c text ih => rw [ofText, List.flatMap_cons, List.append_assoc, toText_unitsOf_append, ← ofText, ih, List.cons_append]

theorem toText_ofText (text : List Char) : toText (ofText text) = text := by
  have hWhole := toText_ofText_append text []
  rwa [List.append_nil, toText, List.append_nil] at hWhole

theorem ofText_append (front back : List Char) : ofText (front ++ back) = ofText front ++ ofText back := List.flatMap_append

theorem unitsOf_ascii {c : Char} (h : c.toNat < 0x80) : unitsOf c = [c.toNat] := by
  rw [unitsOf, if_pos (by omega)]

theorem eq_of_mem_unitsOf {c d : Char} (hd : d.toNat < 0x80) (h : d.toNat ∈ unitsOf c) : c = d := by
  rw [unitsOf] at h
  split at h
  · exact (Char.toNat_inj.mp (List.mem_singleton.mp h)).symm
  · next hLong =>
    rw [List.mem_cons, List.mem_singleton] at h
    omega

theorem mem_ofText_iff {text : List Char} {d : Char} (hd : d.toNat < 0x80) : d.toNat ∈ ofText text ↔ d ∈ text := by
  rw [ofText, List.mem_flatMap]
  constructor
  · rintro ⟨c, hc, hUnit⟩
    exact eq_of_mem_unitsOf hd hUnit ▸ hc
  · intro hMem
    exact ⟨d, hMem, unitsOf_ascii hd ▸ List.mem_cons_self⟩

theorem getLast?_ofText_iff {text : List Char} {d : Char} (hd : d.toNat < 0x80) :
    (ofText text).getLast? = some d.toNat ↔ text.getLast? = some d := by
  obtain rfl | ⟨front, c, rfl⟩ := List.eq_nil_or_concat' text
  · simp [ofText]
  · have hLast : ∃ units u, unitsOf c = units ++ [u] := by
      rw [unitsOf]
      split
      · exact ⟨[], _, rfl⟩
      · exact ⟨[_], _, rfl⟩
    obtain ⟨units, u, hUnits⟩ := hLast
    have hWhole : ofText (front ++ [c]) = (ofText front ++ units) ++ [u] := by
      rw [ofText_append, ofText, ofText, List.flatMap_singleton, hUnits, List.append_assoc]
    rw [hWhole, List.getLast?_concat, List.getLast?_concat, Option.some.injEq, Option.some.injEq]
    constructor
    · rintro rfl
      exact eq_of_mem_unitsOf hd (hUnits ▸ List.mem_append_right _ List.mem_cons_self)
    · rintro rfl
      have hOne := unitsOf_ascii hd
      rw [hUnits] at hOne
      exact (List.append_inj' (hOne.trans (List.nil_append _).symm) rfl).2 |> List.singleton_inj.mp

open Utf8 (Byte decode encode Segment)

/-- What `readFile` makes of the bytes. -/
def ofBytes (bytes : List Byte) : CodeUnits := ofText (decode bytes)

/-- What `writeFile` makes of a string. -/
def toBytes (units : CodeUnits) : List Byte := encode (toText units)

theorem toBytes_ofBytes (bytes : List Byte) : toBytes (ofBytes bytes) = encode (decode bytes) := by
  rw [toBytes, ofBytes, toText_ofText]

variable {b : Byte}

theorem decode_break (front : List Byte) (hb : b.toNat < 0x80) (back : List Byte) :
    decode (front ++ b :: back) = decode front ++ Char.ofNat b.toNat :: decode back := by
  have hNew : Utf8.continues (Utf8.stateAfter none front) (b :: back) = false := by
    cases Utf8.stateAfter none front with
    | none => rfl
    | some pending =>
      have hLower := pending.tail.1
      simp only [Utf8.continues, Utf8.Pending.accepts, Bool.and_eq_false_iff, decide_eq_false_iff_not]
      omega
  have hFirst : decode (b :: back) = (Utf8.lead b).1 ++ Utf8.decodeFrom (Utf8.lead b).2 back := rfl
  rw [Utf8.decode_append_of_not_continues hNew, hFirst, Utf8.lead_one hb]
  rfl

theorem utf8EncodeChar_ascii (hb : b.toNat < 0x80) : String.utf8EncodeChar (Char.ofNat b.toNat) = [b] := by
  have hValue : (Char.ofNat b.toNat).toNat = b.toNat := Utf8.toNat_ofNat (by omega)
  obtain ⟨a, hEncode, _, ha⟩ | ⟨_, _, _, hLow, _⟩ | ⟨_, _, _, _, hLow, _⟩ | ⟨_, _, _, _, _, hLow, _⟩ :=
    Utf8.utf8EncodeChar_cases (Char.ofNat b.toNat)
  · rw [hEncode, UInt8.toNat_inj.mp (ha.trans hValue)]
  · omega
  · omega
  · omega

theorem bytes_of_shown {segment : Segment} (hDecoded : segment.Decoded) (hb : b.toNat < 0x80)
    (hShown : segment.shown = Char.ofNat b.toNat) : segment.bytes = [b] := by
  obtain hExact | ⟨hReplaced, _⟩ := hDecoded
  · rw [hExact, Segment.exact, hShown, utf8EncodeChar_ascii hb]
  · have hValue : (Char.ofNat b.toNat).toNat = b.toNat := Utf8.toNat_ofNat (by omega)
    rw [← hShown, hReplaced] at hValue
    have hLarge : Utf8.replacement.toNat = 0xfffd := rfl
    omega

variable {bytes : List Byte}

theorem mem_of_mem_decode (hb : b.toNat < 0x80) (h : Char.ofNat b.toNat ∈ decode bytes) : b ∈ bytes := by
  rw [← Utf8.shown_segments] at h
  obtain ⟨segment, hSegment, hShown⟩ := List.mem_map.mp h
  rw [← Utf8.bytes_segments bytes, List.mem_flatMap]
  exact ⟨segment, hSegment, bytes_of_shown (Utf8.segments_decoded bytes segment hSegment) hb hShown ▸ List.mem_cons_self⟩

theorem getLast?_decode_iff (hb : b.toNat < 0x80) : (decode bytes).getLast? = some (Char.ofNat b.toNat) ↔ bytes.getLast? = some b := by
  constructor
  · intro h
    rw [← Utf8.shown_segments, List.getLast?_map] at h
    obtain ⟨segment, hLast, hShown⟩ := Option.map_eq_some_iff.mp h
    obtain ⟨front, hFront⟩ := List.getLast?_eq_some_iff.mp hLast
    have hMem : segment ∈ Utf8.segments bytes := hFront ▸ List.mem_append_right _ List.mem_cons_self
    rw [← Utf8.bytes_segments bytes, hFront, List.flatMap_append, List.flatMap_singleton,
      bytes_of_shown (Utf8.segments_decoded bytes segment hMem) hb hShown, List.getLast?_concat]
  · intro h
    obtain ⟨front, rfl⟩ := List.getLast?_eq_some_iff.mp h
    rw [decode_break front hb []]
    exact List.getLast?_concat

theorem toNat_ofNat_ascii (hb : b.toNat < 0x80) : (Char.ofNat b.toNat).toNat = b.toNat := Utf8.toNat_ofNat (by omega)

theorem ofBytes_break (front : List Byte) (hb : b.toNat < 0x80) (back : List Byte) :
    ofBytes (front ++ b :: back) = ofBytes front ++ b.toNat :: ofBytes back := by
  have hUnit : unitsOf (Char.ofNat b.toNat) = [b.toNat] := by rw [unitsOf_ascii (by rw [toNat_ofNat_ascii hb]; exact hb), toNat_ofNat_ascii hb]
  rw [ofBytes, decode_break front hb, ofText_append, ofText, ofText, List.flatMap_cons, hUnit, ← ofText, ← ofText]
  rfl

theorem ofBytes_ascii {units : CodeUnits} (h : ∀ u ∈ units, u < 0x80) : ofBytes (units.map Nat.toUInt8) = units := by
  induction units with
  | nil => rfl
  | cons u units ih =>
    have hUnit : u < 0x80 := h u List.mem_cons_self
    have hByte : u.toUInt8.toNat = u := by
      rw [Nat.toUInt8, UInt8.toNat_ofNat']
      omega
    have hBreak := ofBytes_break [] (b := u.toUInt8) (by omega) (units.map Nat.toUInt8)
    rw [hByte, ih fun v hv => h v (List.mem_cons_of_mem u hv)] at hBreak
    exact hBreak

theorem mem_of_mem_ofBytes (hb : b.toNat < 0x80) (h : b.toNat ∈ ofBytes bytes) : b ∈ bytes := by
  have hSmall : (Char.ofNat b.toNat).toNat < 0x80 := by rw [toNat_ofNat_ascii hb]; exact hb
  rw [← toNat_ofNat_ascii hb] at h
  exact mem_of_mem_decode hb ((mem_ofText_iff hSmall).mp h)

theorem getLast?_ofBytes_iff (hb : b.toNat < 0x80) : (ofBytes bytes).getLast? = some b.toNat ↔ bytes.getLast? = some b := by
  have hSmall : (Char.ofNat b.toNat).toNat < 0x80 := by rw [toNat_ofNat_ascii hb]; exact hb
  rw [← getLast?_decode_iff hb, ← getLast?_ofText_iff hSmall, toNat_ofNat_ascii hb, ofBytes]

end Library.Utf16
