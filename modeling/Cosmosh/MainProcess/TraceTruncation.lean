import Cosmosh.MainProcess.RequestTrace

/-! # Where a trace body is cut

The bytes of a body are cut at the bound and decoded again.
-/

namespace MainProcess.RequestTrace

open Library Library.CodeUnits

variable {maxBytes : Nat} {value : CodeUnits}

theorem truncateUtf8_append (text : List Char) (rest : CodeUnits) (count : Nat) :
    truncateUtf8 (Utf16.ofText text ++ rest) ((Utf8.encode text).length + count) = Utf16.ofText text ++ truncateUtf8 rest count := by
  have hBytes : Utf16.toBytes (Utf16.ofText text ++ rest) = Utf8.encode text ++ Utf16.toBytes rest := by
    rw [Utf16.toBytes, Utf16.toText_ofText_append, Utf8.encode, List.flatMap_append]
    rfl
  rw [truncateUtf8, hBytes, List.take_length_add_append, Utf16.ofBytes, ← Utf8.shown_segments, Utf8.segments_encode_append,
    List.map_append, Utf16.ofText_append, Utf8.shown_segments, List.map_map]
  congr 1
  exact congrArg Utf16.ofText (List.map_id text)

def CutsBetweenCharacters (value : CodeUnits) (maxBytes : Nat) : Prop :=
  ∃ text back, value = Utf16.ofText text ++ back ∧
    ((Utf8.encode text).length = maxBytes ∨ (back = [] ∧ (Utf8.encode text).length ≤ maxBytes))

theorem truncateUtf8_nil (count : Nat) : truncateUtf8 [] count = [] := by
  rw [truncateUtf8, Utf16.toBytes, Utf16.toText, Utf8.encode, List.flatMap_nil, List.take_nil]
  rfl

theorem truncateUtf8_of_cutsBetweenCharacters (h : CutsBetweenCharacters value maxBytes) :
    (Utf16.toBytes (truncateUtf8 value maxBytes)).length ≤ maxBytes ∧ truncateUtf8 value maxBytes <+: value := by
  obtain ⟨text, back, rfl, hLength⟩ := h
  have hText : truncateUtf8 (Utf16.ofText text ++ back) maxBytes = Utf16.ofText text := by
    obtain rfl | ⟨rfl, hWithin⟩ := hLength
    · have hCut := truncateUtf8_append text back 0
      rwa [Nat.add_zero, show truncateUtf8 back 0 = [] from rfl, List.append_nil] at hCut
    · obtain ⟨count, rfl⟩ := Nat.exists_eq_add_of_le hWithin
      rw [truncateUtf8_append, truncateUtf8_nil, List.append_nil]
  have hWithin : (Utf8.encode text).length ≤ maxBytes := hLength.elim le_of_eq And.right
  rw [hText, Utf16.toBytes, Utf16.toText_ofText]
  exact ⟨hWithin, List.prefix_append _ _⟩

theorem toText_eq_nil_iff {units : CodeUnits} : Utf16.toText units = [] ↔ units = [] := by
  constructor
  · intro h
    obtain _ | ⟨u, _ | ⟨v, rest⟩⟩ := units
    · rfl
    · cases h
    · rw [Utf16.toText] at h
      split at h
      · cases h
      · cases h
  · rintro rfl
    rfl

theorem truncateUtf8_eq_nil (h : truncateUtf8 value maxBytes = []) : maxBytes = 0 ∨ value = [] := by
  have hText := congrArg Utf16.toText h
  rw [truncateUtf8, Utf16.ofBytes, Utf16.toText_ofText, Utf16.toText, Utf8.decode_eq_nil_iff, List.take_eq_nil_iff,
    Utf16.toBytes] at hText
  refine hText.imp_right fun hBytes => ?_
  have hDecoded := Utf8.decode_encode (Utf16.toText value)
  rw [hBytes, eq_comm] at hDecoded
  exact toText_eq_nil_iff.mp hDecoded

theorem truncateUtf8_bounded_prefix_iff (value : CodeUnits) (maxBytes : Nat) :
    ((Utf16.toBytes (truncateUtf8 value maxBytes)).length ≤ maxBytes ∧ truncateUtf8 value maxBytes <+: value) ↔
      CutsBetweenCharacters value maxBytes := by
  constructor
  · rintro ⟨hWithin, back, hPrefix⟩
    -- the kept part is a text, so what the cut leaves of the rest shows nothing
    obtain ⟨text, hText⟩ : ∃ text, truncateUtf8 value maxBytes = Utf16.ofText text := ⟨_, rfl⟩
    rw [hText, Utf16.toBytes, Utf16.toText_ofText] at hWithin
    obtain ⟨count, rfl⟩ := Nat.exists_eq_add_of_le hWithin
    rw [hText] at hPrefix
    subst hPrefix
    rw [truncateUtf8_append, List.append_right_eq_self] at hText
    refine ⟨text, back, rfl, ?_⟩
    obtain rfl | rfl := truncateUtf8_eq_nil hText
    · exact .inl rfl
    · exact .inr ⟨rfl, Nat.le_add_right _ _⟩
  · exact truncateUtf8_of_cutsBetweenCharacters

theorem truncateUtf8_splits_character : truncateUtf8 (List.replicate (MAX_TRACE_BODY_BYTES - 1) 0x61 ++ [0xe9]) MAX_TRACE_BODY_BYTES =
        List.replicate (MAX_TRACE_BODY_BYTES - 1) 0x61 ++ [0xfffd] ∧
      (Utf16.toBytes (List.replicate (MAX_TRACE_BODY_BYTES - 1) 0x61 ++ [0xfffd])).length = MAX_TRACE_BODY_BYTES + 2 := by
  have hUnits (count : Nat) : List.replicate count 0x61 = Utf16.ofText (List.replicate count 'a') := by
    rw [Utf16.ofText, List.flatMap_replicate, show Utf16.unitsOf 'a' = [0x61] from rfl, List.flatten_replicate_singleton]
  have hBytes (count : Nat) : (Utf8.encode (List.replicate count 'a')).length = count := by
    rw [Utf8.encode, List.flatMap_replicate, show String.utf8EncodeChar 'a' = [0x61] from rfl, List.flatten_replicate_singleton,
      List.length_replicate]
  have hCut := truncateUtf8_append (List.replicate (MAX_TRACE_BODY_BYTES - 1) 'a') [0xe9] 1
  rw [hBytes, ← hUnits, show truncateUtf8 [0xe9] 1 = [0xfffd] by decide] at hCut
  refine ⟨hCut, ?_⟩
  rw [hUnits, Utf16.toBytes, Utf16.toText_ofText_append, Utf8.encode, List.flatMap_append, List.length_append, ← Utf8.encode, hBytes]
  decide

end MainProcess.RequestTrace
