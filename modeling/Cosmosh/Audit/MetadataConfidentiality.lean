import Cosmosh.Audit.MetadataSanitizer

/-! # What stored metadata tells

Nothing about what stands under sensitive names, and what is stored is JSON that fits the
limit and reads back as the value returned with it.
-/

namespace Audit

open Library Library.CodeUnits Library.Json

variable {ν : Type}

theorem isSensitiveKey_of_name {name : CodeUnits} (h : isSensitiveName name = true) : isSensitiveKey (some name) = true := by
  have hName : name ≠ [] := by
    rintro rfl
    revert h
    decide
  simp [isSensitiveKey, hName, h]

mutual

theorem redactSensitiveValue_same {left right : Json ν} (h : SameBesideSecrets left right) (key : Option CodeUnits) :
    redactSensitiveValue key left = redactSensitiveValue key right := by
  cases h with
  | same value => rfl
  | array items => simp only [redactSensitiveValue, redactItems_same items]
  | object fields => simp only [redactSensitiveValue, redactFields_same fields]

theorem redactItems_same {left right : List (Json ν)} (h : SameItems left right) : redactItems left = redactItems right := by
  cases h with
  | nil => rfl
  | cons item items => rw [redactItems, redactItems, redactSensitiveValue_same item none, redactItems_same items]

theorem redactFields_same {left right : List (CodeUnits × Json ν)} (h : SameFields left right) : redactFields left = redactFields right := by
  cases h with
  | nil => rfl
  | secret a b sensitive fields =>
    have hSecret : ∀ value : Json ν, redactSensitiveValue (some _) value = .string AUDIT_REDACTION_PLACEHOLDER :=
      fun value => by rw [redactSensitiveValue.eq_def, if_pos (isSensitiveKey_of_name sensitive)]
    rw [redactFields, redactFields, redactFields_same fields, hSecret a, hSecret b]
  | cons value fields =>
    rw [redactFields, redactFields, redactFields_same fields, redactSensitiveValue_same value]

end

def SameMetadata (left right : Option (Metadata ν)) : Prop := Option.Rel (fun left right => SameBesideSecrets left.value right.value) left right

theorem sourceValue_same {left right : Option (Metadata ν)} (h : SameMetadata left right) :
    SameBesideSecrets (sourceValue left) (sourceValue right) := by
  cases h with
  | none => exact .same _
  | @some left right hValues =>
    obtain ⟨left, hLeft⟩ := left
    obtain ⟨right, hRight⟩ := right
    simp only at hValues
    cases hValues with
    | same value => exact .same _
    | array items => exact .array items
    | object fields => exact .object fields

theorem sanitizeAuditMetadata_same (numbers : NumberText ν) {left right : Option (Metadata ν)} (h : SameMetadata left right) (maxBytes : Nat) :
    sanitizeAuditMetadata numbers left maxBytes = sanitizeAuditMetadata numbers right maxBytes := by
  have hNormalized : normalizedValue left = normalizedValue right := by
    rw [normalizedValue, normalizedValue, redactSensitiveValue_same (sourceValue_same h)]
  rw [sanitizeAuditMetadata, sanitizeAuditMetadata, hNormalized]

theorem redactFields_sublist (fields : List (CodeUnits × Json ν)) : ((redactFields fields).map Prod.fst).Sublist (fields.map Prod.fst) := by
  induction fields with
  | nil => exact List.Sublist.slnil
  | cons field fields ih =>
    rw [redactFields]
    split
    · exact ih.cons _
    · exact ih.cons_cons _

mutual

theorem distinct_redactSensitiveValue (value : Json ν) (h : value.Distinct) (key : Option CodeUnits) :
    (redactSensitiveValue key value).Distinct := by
  rw [redactSensitiveValue.eq_def]
  split
  · trivial
  · cases value with
    | array items => exact distinct_redactItems items h
    | object fields =>
      exact ⟨(redactFields_sublist fields).nodup h.1, distinct_redactFields fields h.2⟩
    | null => trivial
    | boolean => trivial
    | number => trivial
    | string => trivial

theorem distinct_redactItems : (items : List (Json ν)) → DistinctItems items → DistinctItems (redactItems items)
  | [], _ => trivial
  | item :: items, ⟨hItem, hItems⟩ => ⟨distinct_redactSensitiveValue item hItem none, distinct_redactItems items hItems⟩

theorem distinct_redactFields : (fields : List (CodeUnits × Json ν)) → DistinctFields fields → DistinctFields (redactFields fields)
  | [], _ => trivial
  | (name, value) :: fields, ⟨hValue, hFields⟩ => by
    rw [redactFields]
    split
    · exact distinct_redactFields fields hFields
    · exact ⟨distinct_redactSensitiveValue value hValue (some name), distinct_redactFields fields hFields⟩

end

theorem distinct_sourceValue (metadata : Option (Metadata ν)) : (sourceValue metadata).Distinct := by
  have hEmpty : (Json.object [] : Json ν).Distinct := ⟨List.nodup_nil, trivial⟩
  cases metadata with
  | none => exact hEmpty
  | some metadata =>
    rw [sourceValue]
    split
    · exact hEmpty
    · exact metadata.distinct

theorem distinct_normalizedValue (metadata : Option (Metadata ν)) : (normalizedValue metadata).Distinct := by
  have hSanitized := distinct_redactSensitiveValue _ (distinct_sourceValue metadata) none
  rw [normalizedValue]
  split
  · next fields hFields => rwa [hFields] at hSanitized
  · exact ⟨List.nodup_cons.mpr ⟨List.not_mem_nil, List.nodup_nil⟩, hSanitized, trivial⟩

variable (numbers : NumberText ν)

structure Stored (maxBytes : Nat) (text : CodeUnits) (value : Json ν) : Prop where
  text_eq : text = stringify numbers value
  distinct : value.Distinct
  bytes : byteLength text ≤ maxBytes

theorem quote_notice_chars : ∀ t ∈ [ofAscii "notice".toList, truncatedNotice, ofAscii "originalBytes".toList],
    (∀ u ∈ quote t, u < 0x80) ∧ (quote t).length ≤ 20 := by
  decide

variable {fullSize : Nat}

theorem bareNotice_bytes (h : fullSize < 2 ^ 53) : byteLength (stringify numbers (bareNotice numbers fullSize)) ≤ 128 := by
  have hText : stringify numbers (bareNotice numbers fullSize) = 0x7b :: (quote (ofAscii "notice".toList) ++
      0x3a :: (quote truncatedNotice ++ 0x2c :: (quote (ofAscii "originalBytes".toList) ++
        0x3a :: (numbers.toText (numbers.ofNat fullSize) ++ []))) ++ [0x7d]) := rfl
  obtain ⟨hNotice, hNoticeLength⟩ := quote_notice_chars (ofAscii "notice".toList) List.mem_cons_self
  obtain ⟨hTruncated, hTruncatedLength⟩ := quote_notice_chars truncatedNotice
    (List.mem_cons_of_mem _ List.mem_cons_self)
  obtain ⟨hOriginal, hOriginalLength⟩ := quote_notice_chars (ofAscii "originalBytes".toList)
    (List.mem_cons_of_mem _ (List.mem_cons_of_mem _ List.mem_cons_self))
  have hDigits : ∀ u ∈ digits fullSize, u < 0x80 := by
    intro u hu
    have hDigit := isDigit_of_mem_digits hu
    simp only [isDigit, Bool.and_eq_true, decide_eq_true_eq] at hDigit
    omega
  have hDigitsLength : (digits fullSize).length ≤ 16 := by
    rw [digits, ofAscii, List.length_map, Nat.length_toDigits_le_iff (by decide) (by decide)]
    omega
  rw [hText, numbers.toText_ofNat fullSize h, byteLength_of_ascii]
  · simp only [List.length_cons, List.length_append, List.length_nil]
    omega
  · simp only [List.mem_cons, List.mem_append, List.not_mem_nil, or_false]
    rintro u (rfl | (hu | rfl | hu | rfl | hu | rfl | hu) | rfl)
    all_goals first
      | exact hNotice u hu
      | exact hTruncated u hu
      | exact hOriginal u hu
      | exact hDigits u hu
      | decide

theorem nodup_noticeNames : [ofAscii "notice".toList, ofAscii "originalBytes".toList, ofAscii "preview".toList].Nodup := by
  decide

theorem distinct_bareNotice (fullSize : Nat) : (bareNotice numbers fullSize).Distinct :=
  ⟨List.Nodup.sublist (List.sublist_append_left [_, _] [_]) nodup_noticeNames, trivial, trivial, trivial⟩

theorem distinct_previewNotice (fullSize : Nat) (preview : CodeUnits) : (previewNotice numbers fullSize preview).Distinct :=
  ⟨nodup_noticeNames, trivial, trivial, trivial, trivial⟩

variable {maxBytes : Nat}

theorem stored_bareNotice (hSize : fullSize < 2 ^ 53) (hMax : 128 ≤ maxBytes) :
    Stored numbers maxBytes (stringify numbers (bareNotice numbers fullSize)) (bareNotice numbers fullSize) :=
  ⟨rfl, distinct_bareNotice numbers fullSize, (bareNotice_bytes numbers hSize).trans hMax⟩

theorem stored_shrinkPreview (hSize : fullSize < 2 ^ 53) (hMax : 128 ≤ maxBytes) (iterations : Nat) (preview : CodeUnits) :
    ∃ value, Stored numbers maxBytes (shrinkPreview numbers fullSize maxBytes iterations preview) value := by
  induction iterations generalizing preview with
  | zero => exact ⟨_, stored_bareNotice numbers hSize hMax⟩
  | succ iterations ih =>
    rw [shrinkPreview]
    split
    · next hFits => exact ⟨_, rfl, distinct_previewNotice numbers fullSize preview, hFits⟩
    · dsimp only
      split
      · exact ⟨_, stored_bareNotice numbers hSize hMax⟩
      · exact ih _

theorem stored_truncated {serialized : CodeUnits} (hLength : serialized.length ≤ MAX_STRING_LENGTH) (hMax : 128 ≤ maxBytes) :
    ∃ value, Stored numbers maxBytes (truncateSerializedMetadata numbers serialized maxBytes) value := by
  have hBytes := byteLength_le serialized
  rw [MAX_STRING_LENGTH] at hLength
  exact stored_shrinkPreview numbers (by omega) hMax _ _

theorem Stored.parse {text : CodeUnits} {value : Json ν} (h : Stored numbers maxBytes text value) : Json.parse numbers text = some value := by
  rw [h.text_eq]
  exact parse_stringify numbers h.distinct

theorem stored_serializationFailed (hMax : 128 ≤ maxBytes) :
    Stored numbers maxBytes (serializationFailed numbers).metadataJson (serializationFailed numbers).metadataValue := by
  have hText : (serializationFailed numbers).metadataJson = 0x7b :: (quote (ofAscii "notice".toList) ++
      0x3a :: (quote (ofAscii "metadata-serialization-failed".toList) ++ []) ++ [0x7d]) := rfl
  refine ⟨rfl, ⟨List.nodup_cons.mpr ⟨List.not_mem_nil, List.nodup_nil⟩, trivial, trivial⟩, le_trans ?_ hMax⟩
  rw [hText]
  decide

theorem stored_sanitizeAuditMetadata (metadata : Option (Metadata ν)) (hMax : 128 ≤ maxBytes) :
    Stored numbers maxBytes (sanitizeAuditMetadata numbers metadata maxBytes).metadataJson
      (sanitizeAuditMetadata numbers metadata maxBytes).metadataValue := by
  rw [sanitizeAuditMetadata, serialize]
  split
  · exact stored_serializationFailed numbers hMax
  · next serialized hSerialized =>
    obtain ⟨hLength, hSame⟩ := Option.ite_none_right_eq_some.mp hSerialized
    obtain rfl := Option.some.inj hSame
    split
    · next hFits => exact ⟨rfl, distinct_normalizedValue metadata, hFits⟩
    · obtain ⟨value, hStored⟩ := stored_truncated numbers hLength hMax
      simp only [hStored.parse]
      exact hStored

/-- Secrets leave no trace in what is stored, and what is stored is JSON within the limit that
reads back as the value. -/
theorem stored_metadata_is_sealed : (∀ (left right : Option (Metadata ν)) (maxBytes : Nat), SameMetadata left right →
      sanitizeAuditMetadata numbers left maxBytes = sanitizeAuditMetadata numbers right maxBytes) ∧
    ∀ (metadata : Option (Metadata ν)) (maxBytes : Nat), 128 ≤ maxBytes →
      byteLength (sanitizeAuditMetadata numbers metadata maxBytes).metadataJson ≤ maxBytes ∧
        Json.parse numbers (sanitizeAuditMetadata numbers metadata maxBytes).metadataJson =
          some (sanitizeAuditMetadata numbers metadata maxBytes).metadataValue := by
  constructor
  · exact fun left right maxBytes h => sanitizeAuditMetadata_same numbers h maxBytes
  · intro metadata maxBytes hMax
    have hStored := stored_sanitizeAuditMetadata numbers metadata hMax
    exact ⟨hStored.bytes, hStored.parse⟩

def loginMetadata (password : CodeUnits) : Metadata Int where
  value := .object [(ofAscii "port".toList, .number 22), (ofAscii "steps".toList,
    .array [.object [(ofAscii "sshPassword".toList, .string password)]])]
  distinct := by
    have hNames : [ofAscii "port".toList, ofAscii "steps".toList].Nodup := by decide
    exact ⟨hNames, trivial, ⟨⟨List.nodup_cons.mpr ⟨List.not_mem_nil, List.nodup_nil⟩, trivial, trivial⟩, trivial⟩, trivial⟩

theorem login_password_is_sealed : sanitizeAuditMetadata integers (some (loginMetadata (ofAscii ['a']))) 128 =
      sanitizeAuditMetadata integers (some (loginMetadata (ofAscii ['b', 'c']))) 128 ∧
    byteLength (sanitizeAuditMetadata integers (some (loginMetadata (ofAscii ['a']))) 128).metadataJson ≤ 128 := by
  have hSensitive : isSensitiveName (ofAscii "sshPassword".toList) = true := by decide
  refine ⟨(stored_metadata_is_sealed integers).1 _ _ _ (.some ?_), ((stored_metadata_is_sealed integers).2 _ _ le_rfl).1⟩
  exact .object (.cons (.same _) (.cons (.array (.cons (.object (.secret _ _ hSensitive .nil)) .nil)) .nil))

end Audit
