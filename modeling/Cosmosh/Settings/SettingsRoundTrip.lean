import Cosmosh.Settings.SettingsChecks

/-! # Settings that are read back

What the strict check accepts it accepts again, and the lenient reader keeps all of it, unless
the canonical form of a custom proxy URL has outgrown the limit of its setting.
-/

namespace Settings

open Library Library.CodeUnits Library.Json

variable {platform : Platform}

theorem map_fst_setSetting (fields : Fields) (key : CodeUnits) (value : Value) :
    (setSetting fields key value).map Prod.fst = fields.map Prod.fst := by
  rw [setSetting, List.map_map]
  apply List.map_congr_left
  intro setting _
  simp only [Function.comp_apply]
  split
  · next hKey => exact hKey.symm
  · rfl

variable {fields : Fields} {key : CodeUnits}

theorem mem_setSetting {value : Value} {setting : CodeUnits × Value} (h : setting ∈ setSetting fields key value) :
    setting = (key, value) ∨ setting ∈ fields ∧ setting.1 ≠ key := by
  obtain ⟨old, hOld, rfl⟩ := List.mem_map.mp h
  split
  · exact .inl rfl
  · next hKey => exact .inr ⟨hOld, hKey⟩

theorem lookup_setSetting_ne {other : CodeUnits} (value : Value) (h : other ≠ key) :
    (setSetting fields key value).lookup other = fields.lookup other := by
  induction fields with
  | nil => rfl
  | cons setting fields ih =>
    rw [setSetting, List.map_cons]
    split
    · next hKey =>
      rw [List.lookup_cons, List.lookup_cons, hKey, beq_eq_false_iff_ne.mpr h]
      exact ih
    · rw [List.lookup_cons, List.lookup_cons]
      cases other == setting.1 with
      | true => rfl
      | false => exact ih

theorem lookup_setSetting (value : Value) (h : key ∈ fields.map Prod.fst) : (setSetting fields key value).lookup key = some value := by
  induction fields with
  | nil => cases h
  | cons setting fields ih =>
    rw [setSetting, List.map_cons]
    split
    · exact List.lookup_cons_self
    · next hKey =>
      rw [List.lookup_cons, beq_eq_false_iff_ne.mpr (Ne.symm hKey)]
      exact ih ((List.mem_cons.mp h).resolve_left (Ne.symm hKey))

theorem setSetting_self {value : Value} (h : ∀ setting ∈ fields, setting.1 = key → setting.2 = value) :
    setSetting fields key value = fields := by
  rw [setSetting]
  conv_rhs => rw [← List.map_id fields]
  apply List.map_congr_left
  rintro ⟨other, old⟩ hSetting
  split
  · next hKey =>
    obtain rfl := h _ hSetting hKey
    obtain rfl := hKey
    rfl
  · rfl

structure SerializesUrls (platform : Platform) : Prop where
  reparses : ∀ {text : CodeUnits} {url : Url}, platform.parseUrl text = some url → platform.parseUrl url.href = some url
  trimmed : ∀ {text : CodeUnits} {url : Url}, platform.parseUrl text = some url → trim url.href = url.href
  ne_nil : ∀ {text : CodeUnits} {url : Url}, platform.parseUrl text = some url → url.href ≠ []

theorem validateProxyUrl_ok {value normalizedUrl : CodeUnits} (h : validateProxyUrl platform value = .ok normalizedUrl) :
    ∃ url, platform.parseUrl (trim value) = some url ∧ normalizedUrl = url.href := by
  unfold validateProxyUrl at h
  split at h
  · cases h
  split at h
  · cases h
  split at h
  · cases h
  · next url hUrl =>
    split at h
    · cases h
    · split at h
      · cases h
      · exact ⟨url, hUrl, (Except.ok.inj h).symm⟩

theorem validateProxyUrl_again (hUrls : SerializesUrls platform) {value normalizedUrl : CodeUnits}
    (h : validateProxyUrl platform value = .ok normalizedUrl) (hLength : normalizedUrl.length ≤ MAX_PROXY_URL_LENGTH) :
    validateProxyUrl platform normalizedUrl = .ok normalizedUrl := by
  obtain ⟨url, hUrl, rfl⟩ := validateProxyUrl_ok h
  unfold validateProxyUrl at h ⊢
  rw [hUrls.trimmed hUrl, if_neg (hUrls.ne_nil hUrl), if_neg (by omega), hUrls.reparses hUrl]
  split at h
  · cases h
  split at h
  · cases h
  rwa [hUrl] at h

def modeKey : CodeUnits := units "serverProxyMode"

def urlKey : CodeUnits := units "serverProxyUrl"

theorem proxy_keys : modeKey ∈ SETTINGS_KEYS ∧ urlKey ∈ SETTINGS_KEYS ∧ modeKey ≠ urlKey := by decide

theorem mode_definition : ∃ definition, definitionOf modeKey = some definition ∧ definition.valueType = .string ∧
    definition.key ≠ units "dateTimeTimeZone" ∧ units "custom" ∈ definition.options := by
  have hDefinition : ((definitionOf modeKey).map fun definition => (definition.valueType,
      decide (definition.key = units "dateTimeTimeZone"), decide (units "custom" ∈ definition.options))) =
        some (.string, false, true) := by
    decide
  obtain ⟨definition, hSome, hFields⟩ := Option.map_eq_some_iff.mp hDefinition
  obtain ⟨hType, hRest⟩ := Prod.mk.inj hFields
  obtain ⟨hKey, hOption⟩ := Prod.mk.inj hRest
  exact ⟨definition, hSome, hType, of_decide_eq_false hKey, of_decide_eq_true hOption⟩

theorem url_definition : ∃ definition, definitionOf urlKey = some definition ∧ definition.valueType = .string ∧
    definition.key ≠ units "dateTimeTimeZone" ∧ definition.options = [] ∧ definition.maxLength = some 2048 := by
  have hDefinition : ((definitionOf urlKey).map fun definition => (definition.valueType,
      decide (definition.key = units "dateTimeTimeZone"), definition.options, definition.maxLength)) =
        some (.string, false, [], some 2048) := by
    decide
  obtain ⟨definition, hSome, hFields⟩ := Option.map_eq_some_iff.mp hDefinition
  obtain ⟨hType, hRest⟩ := Prod.mk.inj hFields
  obtain ⟨hKey, hRest⟩ := Prod.mk.inj hRest
  obtain ⟨hOptions, hLength⟩ := Prod.mk.inj hRest
  exact ⟨definition, hSome, hType, of_decide_eq_false hKey, hOptions, hLength⟩

variable {input output : Value}

theorem parse_string_same {definition : SettingDefinition} (hDefinition : definitionOf key = some definition)
    (hType : definition.valueType = .string) (hZone : definition.key ≠ units "dateTimeTimeZone")
    (h : parseSettingValue platform key input = .ok output) : output = input := by
  rw [parseSettingValue, hDefinition] at h
  simp only [parseByDefinition, hType] at h
  split at h
  · unfold parseStringSetting at h
    rw [if_neg hZone] at h
    split at h
    · split at h
      · exact (Except.ok.inj h).symm
      · cases h
    · dsimp only at h
      split at h
      · cases h
      · exact (Except.ok.inj h).symm
  · cases h

theorem parse_mode_same (h : parseSettingValue platform modeKey input = .ok output) : output = input := by
  obtain ⟨definition, hDefinition, hType, hZone, -⟩ := mode_definition
  exact parse_string_same hDefinition hType hZone h

theorem parse_url_same (h : parseSettingValue platform urlKey input = .ok output) : output = input := by
  obtain ⟨definition, hDefinition, hType, hZone, -⟩ := url_definition
  exact parse_string_same hDefinition hType hZone h

theorem parse_url_iff (text : CodeUnits) :
    parseSettingValue platform urlKey (.string text) = .ok (.string text) ↔ text.length ≤ MAX_PROXY_URL_LENGTH := by
  obtain ⟨definition, hDefinition, hType, hZone, hOptions, hLength⟩ := url_definition
  rw [parseSettingValue, hDefinition]
  simp only [parseByDefinition, hType, parseStringSetting, if_neg hZone, hOptions, ne_eq, not_true_eq_false, if_false,
    hLength, Option.getD_some, MAX_PROXY_URL_LENGTH]
  split
  · next hLong => exact ⟨fun h => (by cases h), fun h => absurd hLong (by omega)⟩
  · next hShort => exact ⟨fun _ => by omega, fun _ => rfl⟩

theorem parsed_lookup {input result : Fields} (h : parseSettings platform input SETTINGS_KEYS = .ok result) (hKey : key ∈ SETTINGS_KEYS)
    (hSame : ∀ {input output : Value}, parseSettingValue platform key input = .ok output → output = input) :
    ∃ value, result.lookup key = some value ∧ input.lookup key = some value := by
  obtain ⟨hKeys, -, hInputs⟩ := parseSettings_ok h
  rw [← hKeys] at hKey
  obtain ⟨⟨_, value⟩, hSetting, rfl⟩ := List.mem_map.mp hKey
  obtain ⟨old, hOld, hParsed⟩ := hInputs _ hSetting
  obtain rfl := hSame hParsed
  exact ⟨_, lookup_of_mem (hKeys ▸ keys_nodup) hSetting, hOld⟩

theorem selectsCustomProxy_congr {a b : Fields} (h : a.lookup modeKey = b.lookup modeKey) : selectsCustomProxy a = selectsCustomProxy b := by
  rw [modeKey] at h
  rw [selectsCustomProxy, selectsCustomProxy, h]

def RoundTrips (platform : Platform) (output : Value) : Prop :=
  normalizeSettingsValuesStrict platform output = .ok output ∧ normalizeSettingsValuesWithDefaults platform output = output

def ProxyUrlFits (platform : Platform) (value : Value) : Prop :=
  ∀ input serverProxyUrl url, value = .object input → selectsCustomProxy input = true →
    input.lookup urlKey = some (.string serverProxyUrl) → platform.parseUrl (trim serverProxyUrl) = some url →
    url.href.length ≤ MAX_PROXY_URL_LENGTH

theorem roundTrips_of_checked (h : CheckedRecord platform fields) (hProxy : validateProxySetting platform fields = .ok fields) :
    RoundTrips platform (.object fields) := ⟨by rw [h.strict, hProxy]; rfl, h.withDefaults⟩

section Custom

variable {result : Fields} {serverProxyUrl : CodeUnits} {url : Url}

theorem CheckedRecord.setUrl (h : CheckedRecord platform result) (hFits : url.href.length ≤ MAX_PROXY_URL_LENGTH) :
    CheckedRecord platform (setSetting result urlKey (.string url.href)) where
  keys := by rw [map_fst_setSetting, h.keys]
  checked setting hSetting := by
    obtain rfl | ⟨hOld, -⟩ := mem_setSetting hSetting
    · exact (parse_url_iff url.href).mpr hFits
    · exact h.checked setting hOld

theorem validateProxySetting_again (hUrls : SerializesUrls platform) (hKeys : result.map Prod.fst = SETTINGS_KEYS)
    (hCustom : selectsCustomProxy result = true) (hValid : validateProxyUrl platform serverProxyUrl = .ok url.href)
    (hFits : url.href.length ≤ MAX_PROXY_URL_LENGTH) : validateProxySetting platform (setSetting result urlKey (.string url.href)) =
      .ok (setSetting result urlKey (.string url.href)) := by
  have hMode : selectsCustomProxy (setSetting result urlKey (.string url.href)) = true := by
    rw [← hCustom]
    exact selectsCustomProxy_congr (lookup_setSetting_ne _ proxy_keys.2.2)
  have hUrl : (setSetting result urlKey (.string url.href)).lookup (units "serverProxyUrl") = some (.string url.href) :=
    lookup_setSetting _ (hKeys ▸ proxy_keys.2.1)
  rw [validateProxySetting, if_pos hMode, hUrl]
  simp only [validateProxyUrl_again hUrls hValid hFits]
  refine congrArg Except.ok (setSetting_self fun setting hSetting hKey => ?_)
  obtain rfl | ⟨-, hOther⟩ := mem_setSetting hSetting
  · rfl
  · exact absurd hKey hOther

theorem not_roundTrips_of_long (hKeys : result.map Prod.fst = SETTINGS_KEYS) (hLong : ¬url.href.length ≤ MAX_PROXY_URL_LENGTH) :
    ¬RoundTrips platform (.object (setSetting result urlKey (.string url.href))) := by
  rintro ⟨hStrict, -⟩
  obtain ⟨input, again, final, hInput, hParsed, -⟩ := strict_accepts hStrict
  obtain rfl := Json.object.inj hInput
  obtain ⟨hAgain, -, hInputs⟩ := parseSettings_ok hParsed
  obtain ⟨⟨_, value⟩, hSetting, hKey⟩ := List.mem_map.mp (hAgain ▸ proxy_keys.2.1)
  obtain rfl : _ = urlKey := hKey
  obtain ⟨old, hOld, hValue⟩ := hInputs _ hSetting
  rw [lookup_setSetting _ (hKeys ▸ proxy_keys.2.1), Option.some.injEq] at hOld
  obtain rfl := hOld
  have hSame := parse_url_same hValue
  dsimp only at hSame hValue
  rw [hSame] at hValue
  exact hLong ((parse_url_iff url.href).mp hValue)

end Custom

/-- What the strict check returns round-trips exactly when the canonical URL of a custom proxy fits. -/
theorem accepted_settings_round_trip_iff (hUrls : SerializesUrls platform) {value output : Value}
    (hAccepted : normalizeSettingsValuesStrict platform value = .ok output) : RoundTrips platform output ↔ ProxyUrlFits platform value := by
  obtain ⟨input, result, final, rfl, hParsed, hProxy, rfl⟩ := strict_accepts hAccepted
  obtain ⟨hKeys, hChecked, -⟩ := parseSettings_ok hParsed
  have hRecord : CheckedRecord platform result := ⟨hKeys, hChecked⟩
  obtain ⟨mode, hResultMode, hInputMode⟩ := parsed_lookup hParsed proxy_keys.1 parse_mode_same
  obtain ⟨given, hResultUrl, hInputUrl⟩ := parsed_lookup hParsed proxy_keys.2.1 parse_url_same
  have hSelects : selectsCustomProxy input = selectsCustomProxy result := selectsCustomProxy_congr (hInputMode.trans hResultMode.symm)
  cases hCustom : selectsCustomProxy result with
  | false =>
    have hSame : final = result := by
      rw [validateProxySetting, hCustom] at hProxy
      exact (Except.ok.inj hProxy).symm
    rw [hSame]
    refine ⟨fun _ => ?_, fun _ => roundTrips_of_checked hRecord (hSame ▸ hProxy)⟩
    rintro _ _ _ ⟨⟩ hMode
    rw [hSelects, hCustom] at hMode
    cases hMode
  | true =>
    unfold validateProxySetting at hProxy
    rw [if_pos hCustom, show result.lookup (units "serverProxyUrl") = some given from hResultUrl] at hProxy
    split at hProxy
    · next serverProxyUrl hGiven =>
      obtain rfl := Option.some.inj hGiven
      split at hProxy
      · next normalizedUrl hValid =>
        obtain ⟨url, hUrl, rfl⟩ := validateProxyUrl_ok hValid
        obtain rfl := Except.ok.inj hProxy
        constructor
        · intro hTrips
          rintro _ _ other ⟨⟩ - hGivenUrl hOther
          obtain rfl := Json.string.inj (Option.some.inj (hInputUrl.symm.trans hGivenUrl))
          obtain rfl := Option.some.inj (hUrl.symm.trans hOther)
          by_contra hLong
          exact not_roundTrips_of_long hKeys hLong hTrips
        · intro hFits
          have hLength := hFits _ _ _ rfl (hSelects.trans hCustom) hInputUrl hUrl
          exact roundTrips_of_checked (hRecord.setUrl hLength)
            (validateProxySetting_again hUrls hKeys hCustom hValid hLength)
      · cases hProxy
    · cases hProxy

def customRecord (serverProxyUrl : CodeUnits) : Fields :=
  setSetting (setSetting createDefaultSettingsRecord modeKey (.string (units "custom"))) urlKey (.string serverProxyUrl)

theorem parse_custom : parseSettingValue platform modeKey (.string (units "custom")) = .ok (.string (units "custom")) := by
  obtain ⟨definition, hDefinition, hType, hZone, hOption⟩ := mode_definition
  rw [parseSettingValue, hDefinition]
  simp only [parseByDefinition, hType, parseStringSetting, if_neg hZone, if_pos (List.ne_nil_of_mem hOption), if_pos hOption]

theorem checked_customRecord {serverProxyUrl : CodeUnits} (hLength : serverProxyUrl.length ≤ MAX_PROXY_URL_LENGTH) :
    CheckedRecord platform (customRecord serverProxyUrl) where
  keys := by rw [customRecord, map_fst_setSetting, map_fst_setSetting, (defaults_checked platform).keys]
  checked setting hSetting := by
    obtain rfl | ⟨hSetting, -⟩ := mem_setSetting hSetting
    · exact (parse_url_iff _).mpr hLength
    · obtain rfl | ⟨hSetting, -⟩ := mem_setSetting hSetting
      · exact parse_custom
      · exact (defaults_checked platform).checked setting hSetting

def typedUrl (n : Nat) : CodeUnits := units "http://" ++ List.replicate n 0x5e ++ units "@proxy"

def serializedUrl (n : Nat) : CodeUnits := units "http://" ++ (List.replicate n (units "%5E")).flatten ++ units "@proxy/"

def caretUrl (n : Nat) : Url := ⟨units "http:", units "proxy", units "/", [], [], serializedUrl n⟩

def caretPlatform (n : Nat) : Platform where
  toNumber _ := .nan
  isTimeZone _ := false
  parseUrl text := if text = typedUrl n ∨ text = serializedUrl n then some (caretUrl n) else none

theorem trim_between {first last : Nat} (hFirst : isWhitespace first = false) (hLast : isWhitespace last = false)
    (middle : CodeUnits) : trim (first :: (middle ++ [last])) = first :: (middle ++ [last]) := by
  rw [trim, List.dropWhile_cons_of_neg (by simp [hFirst]), ← List.cons_append, List.rdropWhile_concat_neg _ _ _ (by simp [hLast])]

variable (n : Nat)

theorem trim_typedUrl : trim (typedUrl n) = typedUrl n := by
  have hHttp : units "http://" = 0x68 :: units "ttp://" := by decide
  have hProxy : units "@proxy" = units "@prox" ++ [0x79] := by decide
  rw [typedUrl, hHttp, hProxy, ← List.append_assoc, List.cons_append, List.cons_append, List.cons_append]
  exact trim_between (by decide) (by decide) _

theorem trim_serializedUrl : trim (serializedUrl n) = serializedUrl n := by
  have hHttp : units "http://" = 0x68 :: units "ttp://" := by decide
  have hProxy : units "@proxy/" = units "@proxy" ++ [0x2f] := by decide
  rw [serializedUrl, hHttp, hProxy, ← List.append_assoc, List.cons_append, List.cons_append, List.cons_append]
  exact trim_between (by decide) (by decide) _

theorem serializes_carets : SerializesUrls (caretPlatform n) := by
  have hUrl : ∀ {text : CodeUnits} {url : Url}, (caretPlatform n).parseUrl text = some url → caretUrl n = url := by
    intro text url h
    exact Option.some.inj (Option.ite_none_right_eq_some.mp h).2
  constructor
  · rintro text url h
    rw [← hUrl h]
    exact if_pos (.inr rfl)
  · rintro text url h
    rw [← hUrl h]
    exact trim_serializedUrl n
  · rintro text url h
    rw [← hUrl h]
    exact List.append_ne_nil_of_right_ne_nil _ (by decide)

theorem length_typedUrl : (typedUrl n).length = n + 13 := by
  have hLengths : (units "http://").length = 7 ∧ (units "@proxy").length = 6 := by decide
  rw [typedUrl, List.length_append, List.length_append, List.length_replicate, hLengths.1, hLengths.2]
  omega

theorem length_serializedUrl : (serializedUrl n).length = 3 * n + 14 := by
  have hLengths : (units "http://").length = 7 ∧ (units "@proxy/").length = 7 ∧ (units "%5E").length = 3 := by
    decide
  have hEscapes : (List.replicate n (units "%5E")).flatten.length = 3 * n := by
    induction n with
    | zero => rfl
    | succ n ih =>
      rw [List.replicate_succ, List.flatten_cons, List.length_append, ih, hLengths.2.2]
      omega
  rw [serializedUrl, List.length_append, List.length_append, hEscapes, hLengths.1, hLengths.2.1]
  omega

theorem carets_accepted {n : Nat} (h : n ≤ 2000) : normalizeSettingsValuesStrict (caretPlatform n) (.object (customRecord (typedUrl n))) =
      .ok (.object (setSetting (customRecord (typedUrl n)) urlKey (.string (serializedUrl n)))) := by
  have hLength : (typedUrl n).length ≤ MAX_PROXY_URL_LENGTH := by
    rw [length_typedUrl, MAX_PROXY_URL_LENGTH]
    omega
  have hKeys : createDefaultSettingsRecord.map Prod.fst = SETTINGS_KEYS := (defaults_checked (caretPlatform n)).keys
  have hMode : (customRecord (typedUrl n)).lookup (units "serverProxyMode") = some (.string (units "custom")) := by
    rw [customRecord]
    exact (lookup_setSetting_ne _ proxy_keys.2.2).trans (lookup_setSetting _ (hKeys ▸ proxy_keys.1))
  have hUrl : (customRecord (typedUrl n)).lookup (units "serverProxyUrl") = some (.string (typedUrl n)) :=
    lookup_setSetting _ (by rw [map_fst_setSetting, hKeys]; exact proxy_keys.2.1)
  have hCustom : selectsCustomProxy (customRecord (typedUrl n)) = true := by
    rw [selectsCustomProxy, hMode]
    exact decide_eq_true rfl
  have hParse : (caretPlatform n).parseUrl (typedUrl n) = some (caretUrl n) := if_pos (.inl rfl)
  have hFields : (caretUrl n).protocol ∈ SUPPORTED_PROXY_PROTOCOLS ∧ (caretUrl n).hostname ≠ [] ∧
      (caretUrl n).pathname = units "/" := by
    refine ⟨?_, ?_, rfl⟩
    · show units "http:" ∈ SUPPORTED_PROXY_PROTOCOLS
      decide
    · show units "proxy" ≠ []
      decide
  have hValid : validateProxyUrl (caretPlatform n) (typedUrl n) = .ok (serializedUrl n) := by
    have hSome : typedUrl n ≠ [] := List.ne_nil_of_length_pos (by rw [length_typedUrl]; omega)
    rw [validateProxyUrl, trim_typedUrl, if_neg hSome, if_neg (Nat.not_lt.mpr hLength), hParse]
    simp only [not_true_eq_false, if_false, hFields, ne_eq, false_or, and_false]
    exact if_neg (by simp [caretUrl])
  rw [(checked_customRecord hLength).strict, validateProxySetting, if_pos hCustom, hUrl]
  simp only [hValid]
  rfl

theorem short_user_round_trips : RoundTrips (caretPlatform 1)
    (.object (setSetting (customRecord (typedUrl 1)) urlKey (.string (serializedUrl 1)))) := by
  refine (accepted_settings_round_trip_iff (serializes_carets 1) (carets_accepted (by decide))).mpr ?_
  intro input serverProxyUrl url _ _ _ hUrl
  rw [← Option.some.inj (Option.ite_none_right_eq_some.mp hUrl).2]
  decide

theorem long_user_is_lost : SerializesUrls (caretPlatform 700) ∧
    normalizeSettingsValuesStrict (caretPlatform 700) (.object (customRecord (typedUrl 700))) =
      .ok (.object (setSetting (customRecord (typedUrl 700)) urlKey (.string (serializedUrl 700)))) ∧ ¬RoundTrips (caretPlatform 700)
      (.object (setSetting (customRecord (typedUrl 700)) urlKey (.string (serializedUrl 700)))) := by
  have hLength : (typedUrl 700).length ≤ MAX_PROXY_URL_LENGTH := by
    rw [length_typedUrl, MAX_PROXY_URL_LENGTH]
    omega
  have hLong : ¬(serializedUrl 700).length ≤ MAX_PROXY_URL_LENGTH := by
    rw [length_serializedUrl, MAX_PROXY_URL_LENGTH]
    omega
  have hRecord : CheckedRecord (caretPlatform 700) (customRecord (typedUrl 700)) := checked_customRecord hLength
  have hLost : ¬RoundTrips (caretPlatform 700)
      (.object (setSetting (customRecord (typedUrl 700)) urlKey (.string (caretUrl 700).href))) := not_roundTrips_of_long hRecord.keys hLong
  exact ⟨serializes_carets 700, carets_accepted (by omega), hLost⟩

end Settings
