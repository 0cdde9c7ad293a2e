import Cosmosh.Settings.SettingsValues

/-! # Checked settings pass their check

Each parser accepts what it returns and returns it again, and accepts the default of its setting.
-/

namespace Settings

open Library Library.CodeUnits Library.Json

variable {platform : Platform}

variable {fields : Fields} {key : CodeUnits}

theorem lookup_of_mem (hNodup : (fields.map Prod.fst).Nodup) {value : Value} (h : (key, value) ∈ fields) : fields.lookup key = some value := by
  induction fields with
  | nil => cases h
  | cons field fields ih =>
    obtain ⟨hNew, hRest⟩ := List.nodup_cons.mp hNodup
    obtain rfl | h := List.mem_cons.mp h
    · exact List.lookup_cons_self
    · have hOther : (key == field.1) = false := by
        rw [beq_eq_false_iff_ne]
        rintro rfl
        exact hNew (List.mem_map.mpr ⟨_, h, rfl⟩)
      rw [List.lookup_cons, hOther]
      exact ih hRest h

def entries (f : CodeUnits → Option Value) (keys : List CodeUnits) : Fields := keys.filterMap fun key => (f key).map fun value => (key, value)

theorem lookup_entries (f : CodeUnits → Option Value) {keys : List CodeUnits} (h : key ∈ keys) : (entries f keys).lookup key = f key := by
  induction keys with
  | nil => cases h
  | cons first keys ih =>
    rw [entries, List.filterMap_cons]
    by_cases hSame : key = first
    · cases hFirst : f first with
      | none =>
        rw [Option.map_none, hSame, hFirst, List.lookup_eq_none_iff]
        intro field hField
        obtain ⟨other, -, hOther⟩ := List.mem_filterMap.mp hField
        obtain ⟨value, hValue, rfl⟩ := Option.map_eq_some_iff.mp hOther
        rw [bne_iff_ne]
        rintro rfl
        rw [hFirst] at hValue
        cases hValue
      | some value =>
        rw [Option.map_some, hSame, hFirst]
        exact List.lookup_cons_self
    · have hRest := ih ((List.mem_cons.mp h).resolve_left hSame)
      cases f first with
      | none => exact hRest
      | some value =>
        rw [Option.map_some, List.lookup_cons, beq_eq_false_iff_ne.mpr hSame]
        exact hRest

theorem unknown_entries (f : CodeUnits → Option Value) (keys : List CodeUnits) :
    ((entries f keys).map Prod.fst).filter (fun key => key ∉ keys) = [] := by
  rw [List.filter_eq_nil_iff]
  intro key hKey
  obtain ⟨field, hField, rfl⟩ := List.mem_map.mp hKey
  obtain ⟨key, hMem, hField⟩ := List.mem_filterMap.mp hField
  obtain ⟨value, -, rfl⟩ := Option.map_eq_some_iff.mp hField
  simpa using hMem

theorem boolean_option_keys_subset : TERMINAL_INLINE_IMAGE_BOOLEAN_OPTION_KEYS ⊆ TERMINAL_INLINE_IMAGE_OPTION_KEYS := by
  decide

theorem integer_option_keys_subset : ∀ entry ∈ TERMINAL_INLINE_IMAGE_INTEGER_OPTION_LIMITS, entry.1 ∈ TERMINAL_INLINE_IMAGE_OPTION_KEYS := by
  decide

variable {definition : SettingDefinition} {input output : Value}

theorem parseTerminalInlineImageOptionsSetting_again (h : parseTerminalInlineImageOptionsSetting definition input = .ok output) :
    parseTerminalInlineImageOptionsSetting definition output = .ok output := by
  cases input with
  | object input =>
    rw [parseTerminalInlineImageOptionsSetting] at h
    split at h
    · cases h
    split at h
    · cases h
    next hPresent =>
    split at h
    · cases h
    next hBooleans =>
    split at h
    · cases h
    next hIntegers =>
    obtain rfl := Except.ok.inj h
    have hLookup : ∀ key ∈ TERMINAL_INLINE_IMAGE_OPTION_KEYS,
        (entries (fun key => input.lookup key) TERMINAL_INLINE_IMAGE_OPTION_KEYS).lookup key = input.lookup key :=
      fun key hKey => lookup_entries _ hKey
    rw [List.find?_eq_none] at hPresent hBooleans hIntegers
    have hAgain : parseTerminalInlineImageOptionsSetting definition
        (.object (entries (fun key => input.lookup key) TERMINAL_INLINE_IMAGE_OPTION_KEYS)) =
          .ok (.object (entries (fun key => input.lookup key) TERMINAL_INLINE_IMAGE_OPTION_KEYS)) := by
      rw [parseTerminalInlineImageOptionsSetting, if_neg (not_not.mpr (unknown_entries _ _)),
        List.find?_eq_none.mpr fun key hKey => by rw [hLookup key hKey]; exact hPresent key hKey]
      simp only
      rw [List.find?_eq_none.mpr fun key hKey => by
        rw [hLookup key (boolean_option_keys_subset hKey)]
        exact hBooleans key hKey]
      simp only
      rw [List.find?_eq_none.mpr fun entry hEntry => by
        rw [hLookup entry.1 (integer_option_keys_subset entry hEntry)]
        exact hIntegers entry hEntry]
      simp only
      exact congrArg (fun fields => Except.ok (Json.object fields)) (List.filterMap_congr fun key hKey => by
        rw [hLookup key hKey])
    exact hAgain
  | null => cases h
  | boolean => cases h
  | number => cases h
  | string => cases h
  | array => cases h

structure ValidColumns (columns : List SftpDirectoryListColumnSetting) : Prop where
  nodup : (columns.map (·.id)).Nodup
  supported : ∀ column ∈ columns, isSftpDirectoryListColumnId column.id = true
  name : ∀ column ∈ columns, column.id = units "name" → column.visible = true

theorem ValidColumns.concat {columns : List SftpDirectoryListColumnSetting} (h : ValidColumns columns)
    {column : SftpDirectoryListColumnSetting} (hNew : column.id ∉ columns.map (·.id))
    (hSupported : isSftpDirectoryListColumnId column.id = true)
    (hName : column.id = units "name" → column.visible = true) : ValidColumns (columns ++ [column]) where
  nodup := by
    rw [List.map_append, List.map_singleton, List.nodup_append]
    refine ⟨h.nodup, List.nodup_cons.mpr ⟨List.not_mem_nil, List.nodup_nil⟩, ?_⟩
    rintro id hId other hOther rfl
    exact hNew (List.mem_singleton.mp hOther ▸ hId)
  supported other hOther := by
    obtain hOther | hOther := List.mem_append.mp hOther
    · exact h.supported other hOther
    · rwa [List.mem_singleton.mp hOther]
  name other hOther := by
    obtain hOther | hOther := List.mem_append.mp hOther
    · exact h.name other hOther
    · rwa [List.mem_singleton.mp hOther]

variable {parsed : List SftpDirectoryListColumnSetting}

theorem parseColumns_valid {output : List SftpDirectoryListColumnSetting} {columns : List Value} (hParsed : ValidColumns parsed)
    (h : parseColumns parsed columns = .ok output) : ValidColumns output := by
  fun_induction parseColumns parsed columns with
  | case1 parsed =>
    obtain rfl := Except.ok.inj h
    exact hParsed
  | case5 parsed rawColumn columns id visible hId hVisible hSupported hNew hName ih =>
    refine ih (hParsed.concat hNew (by simpa using hSupported) fun hSame => ?_) h
    cases visible with
    | true => rfl
    | false => exact absurd ⟨hSame, rfl⟩ hName
  | case2 => cases h
  | case3 => cases h
  | case4 => cases h
  | case6 => cases h
  | case7 => cases h

theorem column_names : (units "visible" == units "id") = false := by decide

theorem view_names : (units "columns" == units "version") = false ∧ (units "sort" == units "version") = false ∧
    (units "sort" == units "columns") = false ∧ (units "direction" == units "field") = false := by
  decide

theorem parseColumns_values {columns : List SftpDirectoryListColumnSetting} (h : ValidColumns (parsed ++ columns)) :
    parseColumns parsed (columns.map (·.value)) = .ok (parsed ++ columns) := by
  induction columns generalizing parsed with
  | nil => rw [List.append_nil]; rfl
  | cons column columns ih =>
    have hMem : column ∈ parsed ++ column :: columns := List.mem_append_right _ List.mem_cons_self
    have hNew : column.id ∉ parsed.map (·.id) := by
      have hNodup := h.nodup
      rw [List.map_append, List.nodup_append] at hNodup
      exact fun hOld => hNodup.2.2 _ hOld _ List.mem_cons_self rfl
    have hName : ¬(column.id = units "name" ∧ column.visible = false) := by
      rintro ⟨hSame, hHidden⟩
      rw [h.name column hMem hSame] at hHidden
      cases hHidden
    have hSplit : parsed ++ column :: columns = (parsed ++ [column]) ++ columns := by simp
    rw [List.map_cons, SftpDirectoryListColumnSetting.value, parseColumns]
    simp only [List.lookup_cons_self, List.lookup_cons, column_names]
    rw [if_neg (by simp [h.supported column hMem]), if_neg hNew, if_neg hName, hSplit]
    exact ih (hSplit ▸ h)

theorem missingColumns_ids (parsed : List SftpDirectoryListColumnSetting) :
    (missingColumns parsed).map (·.id) = SFTP_DIRECTORY_LIST_COLUMN_IDS.filter fun id => id ∉ parsed.map (·.id) := by
  rw [missingColumns, List.map_map]
  exact List.map_id _

theorem column_ids_nodup : SFTP_DIRECTORY_LIST_COLUMN_IDS.Nodup := by decide

theorem defaultColumn_name : (defaultColumn (units "name")).visible = true := by decide

theorem ValidColumns.complete (h : ValidColumns parsed) : ValidColumns (parsed ++ missingColumns parsed) where
  nodup := by
    rw [List.map_append, missingColumns_ids, List.nodup_append]
    refine ⟨h.nodup, column_ids_nodup.filter _, ?_⟩
    rintro id hId other hOther rfl
    simpa [hId] using (List.mem_filter.mp hOther).2
  supported column hColumn := by
    obtain hColumn | hColumn := List.mem_append.mp hColumn
    · exact h.supported column hColumn
    · obtain ⟨id, hId, rfl⟩ := List.mem_map.mp hColumn
      exact decide_eq_true (List.mem_filter.mp hId).1
  name column hColumn hName := by
    obtain hColumn | hColumn := List.mem_append.mp hColumn
    · exact h.name column hColumn hName
    · obtain ⟨id, hId, rfl⟩ := List.mem_map.mp hColumn
      obtain rfl : id = units "name" := hName
      exact defaultColumn_name

theorem missingColumns_complete (parsed : List SftpDirectoryListColumnSetting) : missingColumns (parsed ++ missingColumns parsed) = [] := by
  rw [missingColumns, List.map_eq_nil_iff, List.filter_eq_nil_iff]
  intro id hId
  rw [List.map_append, missingColumns_ids]
  simp only [List.mem_append, List.mem_filter, hId, true_and, decide_eq_true_eq, not_not]
  exact Classical.em _

theorem parseSort_again {input : Option Value} {field direction : CodeUnits} (h : parseSort input = .ok (field, direction)) :
    parseSort (some (.object [(units "field", .string field), (units "direction", .string direction)])) = .ok (field, direction) := by
  unfold parseSort at h
  split at h
  · split at h
    · split at h
      · next hSupported =>
        obtain ⟨rfl, rfl⟩ := Prod.mk.inj (Except.ok.inj h)
        simp only [parseSort, List.lookup_cons_self, List.lookup_cons, view_names.2.2.2]
        rw [if_pos hSupported]
      · cases h
    · cases h
  · cases h

theorem parseSftpDirectoryListViewSetting_again (h : parseSftpDirectoryListViewSetting definition input = .ok output) :
    parseSftpDirectoryListViewSetting definition output = .ok output := by
  unfold parseSftpDirectoryListViewSetting at h
  split at h
  · split at h
    · cases h
    · split at h
      · split at h
        · next parsedColumns sortField sortDirection hColumns hSort =>
          obtain rfl := Except.ok.inj h
          have hNone : ValidColumns [] := ⟨List.nodup_nil, by simp, by simp⟩
          have hValid := (parseColumns_valid hNone hColumns).complete
          have hParsed : parseColumns [] ((parsedColumns ++ missingColumns parsedColumns).map (·.value)) =
              .ok (parsedColumns ++ missingColumns parsedColumns) := parseColumns_values hValid
          obtain ⟨hColumnsName, hSortName, hSortColumns, -⟩ := view_names
          have hVersion : isVersionOne (some (.number (.finite 1))) = true := by decide
          simp only [directoryListView, parseSftpDirectoryListViewSetting, List.lookup_cons_self, List.lookup_cons,
            hColumnsName, hSortName, hSortColumns, hVersion, Bool.true_eq_false, if_false, hParsed,
            parseSort_again hSort, missingColumns_complete, List.append_nil]
        · cases h
        · cases h
      · cases h
  · cases h

theorem parseStringSetting_again {input : CodeUnits} (h : parseStringSetting platform definition input = .ok output) :
    ∃ text, output = .string text ∧ parseStringSetting platform definition text = .ok output := by
  unfold parseStringSetting at h ⊢
  split at h
  · split at h
    · next hZone hSupported =>
      obtain rfl := Except.ok.inj h
      exact ⟨_, rfl, by rw [trim_trim, if_pos hZone, if_pos hSupported]⟩
    · cases h
  · next hZone =>
    refine ⟨input, ?_, by rwa [if_neg hZone]⟩
    split at h
    · split at h
      · exact (Except.ok.inj h).symm
      · cases h
    · dsimp only at h
      split at h
      · cases h
      · exact (Except.ok.inj h).symm

theorem parseByDefinition_again (h : parseByDefinition platform definition input = .ok output) :
    parseByDefinition platform definition output = .ok output := by
  unfold parseByDefinition at h ⊢
  split at h
  · split at h
    · obtain rfl := Except.ok.inj h
      rfl
    · cases h
  · dsimp only at h
    split at h
    · next hWithin =>
      obtain rfl := Except.ok.inj h
      exact if_pos hWithin
    · cases h
  · split at h
    · obtain ⟨text, rfl, hText⟩ := parseStringSetting_again h
      exact hText
    · cases h
  · split at h
    · next hView =>
      rw [if_pos hView]
      exact parseSftpDirectoryListViewSetting_again h
    · next hView =>
      rw [if_neg hView]
      split at h
      · next hOptions =>
        rw [if_pos hOptions]
        exact parseTerminalInlineImageOptionsSetting_again h
      · cases h

theorem parseSettingValue_again (h : parseSettingValue platform key input = .ok output) :
    parseSettingValue platform key output = .ok output := by
  unfold parseSettingValue at h ⊢
  split at h
  · cases h
  · exact parseByDefinition_again h

theorem keys_nodup : SETTINGS_KEYS.Nodup := by decide

def Checked (platform : Platform) (fields : Fields) : Prop := ∀ setting ∈ fields, parseSettingValue platform setting.1 setting.2 = .ok setting.2

variable {value : Fields}

theorem parseSettings_ok {keys : List CodeUnits} {result : Fields} (h : parseSettings platform value keys = .ok result) :
    result.map Prod.fst = keys ∧ Checked platform result ∧ ∀ setting ∈ result, ∃ input, value.lookup setting.1 = some input ∧
        parseSettingValue platform setting.1 input = .ok setting.2 := by
  induction keys generalizing result with
  | nil =>
    obtain rfl := Except.ok.inj h
    exact ⟨rfl, List.forall_mem_nil _, List.forall_mem_nil _⟩
  | cons key keys ih =>
    rw [parseSettings] at h
    split at h
    · cases h
    · next input hInput =>
      cases hParsed : parseSettingValue platform key input with
      | error error => rw [hParsed] at h; cases h
      | ok parsed =>
        cases hRest : parseSettings platform value keys with
        | error error => rw [hParsed, hRest] at h; cases h
        | ok rest =>
          rw [hParsed, hRest] at h
          obtain rfl := Except.ok.inj h
          obtain ⟨hKeys, hChecked, hInputs⟩ := ih hRest
          refine ⟨congrArg (List.cons key) hKeys, List.forall_mem_cons.mpr ⟨parseSettingValue_again hParsed, hChecked⟩,
            List.forall_mem_cons.mpr ⟨⟨input, hInput, hParsed⟩, hInputs⟩⟩

theorem parseSettings_checked (hLookup : ∀ setting ∈ fields, value.lookup setting.1 = some setting.2)
    (hChecked : Checked platform fields) : parseSettings platform value (fields.map Prod.fst) = .ok fields := by
  induction fields with
  | nil => rfl
  | cons setting fields ih =>
    obtain ⟨hFirst, hLookups⟩ := List.forall_mem_cons.mp hLookup
    obtain ⟨hParsed, hRest⟩ := List.forall_mem_cons.mp hChecked
    rw [List.map_cons, parseSettings, hFirst]
    simp only [hParsed, ih hLookups hRest]
    rfl

theorem readSetting_checked {record : Fields} (hLookup : ∀ setting ∈ fields, value.lookup setting.1 = some setting.2)
    (hChecked : Checked platform fields) (hKeys : record.map Prod.fst = fields.map Prod.fst) :
    record.map (readSetting platform value) = fields := by
  induction fields generalizing record with
  | nil => rw [List.map_eq_nil_iff.mp hKeys]; rfl
  | cons setting fields ih =>
    cases record with
    | nil => cases hKeys
    | cons first record =>
      obtain ⟨hFirst, hLookups⟩ := List.forall_mem_cons.mp hLookup
      obtain ⟨hParsed, hRest⟩ := List.forall_mem_cons.mp hChecked
      obtain ⟨hKey, hOthers⟩ := List.cons.inj hKeys
      rw [List.map_cons, ih hLookups hRest hOthers, readSetting, hKey, hFirst]
      simp only [hParsed]

structure CheckedRecord (platform : Platform) (fields : Fields) : Prop where
  keys : fields.map Prod.fst = SETTINGS_KEYS
  checked : Checked platform fields

section

variable (h : CheckedRecord platform fields)
include h

theorem CheckedRecord.lookup : ∀ setting ∈ fields, fields.lookup setting.1 = some setting.2 :=
  fun _ hSetting => lookup_of_mem (h.keys ▸ keys_nodup) hSetting

theorem CheckedRecord.strict :
    normalizeSettingsValuesStrict platform (.object fields) = (validateProxySetting platform fields).map Json.object := by
  have hParsed := parseSettings_checked h.lookup h.checked
  have hKnown : SETTINGS_KEYS.filter (fun key => key ∉ SETTINGS_KEYS) = [] := List.filter_eq_nil_iff.mpr fun key hKey => by simpa using hKey
  rw [h.keys] at hParsed
  rw [normalizeSettingsValuesStrict]
  simp only [h.keys, hKnown, ne_eq, not_true_eq_false, if_false, hParsed]

theorem CheckedRecord.withDefaults : normalizeSettingsValuesWithDefaults platform (.object fields) = .object fields := by
  have hKeys : createDefaultSettingsRecord.map Prod.fst = fields.map Prod.fst := by
    rw [h.keys, createDefaultSettingsRecord, List.map_map]
    rfl
  rw [normalizeSettingsValuesWithDefaults, readSetting_checked h.lookup h.checked hKeys]

end

theorem strict_accepts {value : Value} (h : normalizeSettingsValuesStrict platform value = .ok output) :
    ∃ input result final, value = .object input ∧ parseSettings platform input SETTINGS_KEYS = .ok result ∧
      validateProxySetting platform result = .ok final ∧ output = .object final := by
  cases value with
  | object input =>
    rw [normalizeSettingsValuesStrict] at h
    split at h
    · cases h
    split at h
    · cases h
    · next result hResult =>
      cases hFinal : validateProxySetting platform result with
      | error error => rw [hFinal] at h; cases h
      | ok final =>
        rw [hFinal] at h
        exact ⟨input, result, final, rfl, hResult, hFinal, (Except.ok.inj h).symm⟩
  | null => cases h
  | boolean => cases h
  | number => cases h
  | string => cases h
  | array => cases h

def defaultPasses (definition : SettingDefinition) : Bool :=
  match definition.valueType, definition.defaultValue with
  | .boolean, .boolean _ => true
  | .number, .number value => isIntegerWithin definition.min definition.max value
  | .string, .string text =>
    if definition.key = units "dateTimeTimeZone" then text = units "system" && trim text = text
    else if definition.options ≠ [] then text ∈ definition.options
    else text.length ≤ definition.maxLength.getD 1000
  | .json, value =>
    if definition.key = units "sftpDirectoryListView" then
      (parseSftpDirectoryListViewSetting definition value).toOption = some value
    else
      definition.key = units "terminalInlineImageOptions" &&
        (parseTerminalInlineImageOptionsSetting definition value).toOption = some value
  | _, _ => false

theorem defaults_pass : ∀ definition ∈ SETTINGS_REGISTRY, defaultPasses definition = true := by decide

theorem ok_of_toOption {ε α : Type} {result : Except ε α} {value : α} (h : result.toOption = some value) : result = .ok value := by
  cases result with
  | error error => cases h
  | ok other => exact congrArg Except.ok (Option.some.inj h)

theorem parseByDefinition_default (h : defaultPasses definition = true) :
    parseByDefinition platform definition definition.defaultValue = .ok definition.defaultValue := by
  unfold defaultPasses at h
  unfold parseByDefinition
  split at h
  · next hType hDefault => rw [hType, hDefault]
  · next hType hDefault =>
    rw [hType, hDefault]
    exact if_pos h
  · next text hType hDefault =>
    rw [hType, hDefault]
    show parseStringSetting platform definition text = .ok (.string text)
    unfold parseStringSetting
    split at h
    · next hZone =>
      simp only [Bool.and_eq_true, decide_eq_true_eq] at h
      have hSystem : isSupportedTimeZoneSetting platform text = true := by
        rw [isSupportedTimeZoneSetting, h.2, decide_eq_true h.1, Bool.true_or]
      rw [if_pos hZone, h.2, if_pos hSystem]
    · next hZone =>
      rw [if_neg hZone]
      split at h
      · next hOptions => rw [if_pos hOptions, if_pos (of_decide_eq_true h)]
      · next hOptions => rw [if_neg hOptions]; exact if_neg (Nat.not_lt.mpr (of_decide_eq_true h))
  · next value hType =>
    rw [hType]
    simp only
    split at h
    · next hKey => rw [if_pos hKey, ok_of_toOption (of_decide_eq_true h)]
    · next hKey =>
      simp only [Bool.and_eq_true, decide_eq_true_eq] at h
      rw [if_neg hKey, if_pos h.1, ok_of_toOption h.2]
  · cases h

theorem definitionOf_mem (h : definition ∈ SETTINGS_REGISTRY) : definitionOf definition.key = some definition := by
  have hNodup : (SETTINGS_REGISTRY.map SettingDefinition.key).Nodup := keys_nodup
  rw [definitionOf]
  revert hNodup h
  generalize SETTINGS_REGISTRY = registry
  intro h hNodup
  induction registry with
  | nil => cases h
  | cons first registry ih =>
    obtain ⟨hNew, hRest⟩ := List.nodup_cons.mp hNodup
    obtain rfl | h := List.mem_cons.mp h
    · exact List.find?_cons_of_pos (decide_eq_true rfl)
    · have hOther : ¬first.key = definition.key := fun hSame => hNew (hSame ▸ List.mem_map_of_mem h)
      rw [List.find?_cons_of_neg (by simpa using hOther), ih h hRest]

theorem defaults_checked (platform : Platform) : CheckedRecord platform createDefaultSettingsRecord where
  keys := by rw [createDefaultSettingsRecord, List.map_map]; rfl
  checked setting hSetting := by
    obtain ⟨definition, hDefinition, rfl⟩ := List.mem_map.mp hSetting
    rw [parseSettingValue, definitionOf_mem hDefinition]
    exact parseByDefinition_default (defaults_pass definition hDefinition)

end Settings
