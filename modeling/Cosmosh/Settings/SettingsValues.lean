import Cosmosh.Settings.SettingsRegistry

/-! # Checking settings

Settings are written by a strict check, which refuses a record that is wrong anywhere, and read
by a lenient one, which gives each setting that does not pass its default.
-/

namespace Settings

open Library Library.CodeUnits Library.Json

structure Url where
  protocol : CodeUnits
  hostname : CodeUnits
  pathname : CodeUnits
  search : CodeUnits
  hash : CodeUnits
  href : CodeUnits

/-- What the checks leave to the language and its runtime: `Number` of what is no number, the
time zones that can be formatted, and the URL parser. -/
structure Platform where
  toNumber : Value → JsNumber
  isTimeZone : CodeUnits → Bool
  parseUrl : CodeUnits → Option Url

inductive ErrorParam
  | text (text : CodeUnits)
  | number (number : Int)

structure SettingValidationError where
  i18nKey : String
  params : List (String × ErrorParam)
  fallbackMessage : CodeUnits

def joined (texts : List CodeUnits) : CodeUnits := List.intercalate (units ", ") texts

def decimal (n : Int) : CodeUnits := units (toString n)

def invalidOptions (definition : SettingDefinition) (fallbackDetail : CodeUnits) : SettingValidationError where
  i18nKey := "settings.validation.invalid"
  params := [("nameI18nKey", .text definition.nameI18nKey), ("key", .text definition.key)]
  fallbackMessage := definition.key ++ units " must be valid terminal inline image options. " ++ fallbackDetail

def isBoolean : Option Value → Bool
  | some (.boolean _) => true
  | _ => false

def isIntegerWithin (minimum maximum : Option Int) : JsNumber → Bool
  | .finite q => q.den = 1 && minimum.all (fun bound : Int => bound ≤ q) && maximum.all (fun bound : Int => q ≤ bound)
  | _ => false

def isOptionWithin (limits : IntegerLimits) : Option Value → Bool
  | some (.number rawValue) => isIntegerWithin (some limits.minimum) (some limits.maximum) rawValue
  | _ => false

def parseTerminalInlineImageOptionsSetting (definition : SettingDefinition) :
    Value → Except SettingValidationError Value
  | .object input =>
    let unknownKeys := (input.map Prod.fst).filter fun optionKey => optionKey ∉ TERMINAL_INLINE_IMAGE_OPTION_KEYS
    if unknownKeys ≠ [] then .error (invalidOptions definition (units "Unknown option keys: " ++ joined unknownKeys ++ units "."))
    else
      match TERMINAL_INLINE_IMAGE_OPTION_KEYS.find? fun optionKey => (input.lookup optionKey).isNone with
      | some optionKey => .error (invalidOptions definition (units "Missing required option: " ++ optionKey ++ units "."))
      | none =>
        match TERMINAL_INLINE_IMAGE_BOOLEAN_OPTION_KEYS.find? fun optionKey => !isBoolean (input.lookup optionKey) with
        | some optionKey => .error (invalidOptions definition (optionKey ++ units " must be a boolean."))
        | none =>
          match TERMINAL_INLINE_IMAGE_INTEGER_OPTION_LIMITS.find? fun (optionKey, limits) =>
              !isOptionWithin limits (input.lookup optionKey) with
          | some (optionKey, limits) =>
            .error (invalidOptions definition (optionKey ++ units " must be an integer between " ++
              decimal limits.minimum ++ units " and " ++ decimal limits.maximum ++ units "."))
          | none =>
            .ok (.object (TERMINAL_INLINE_IMAGE_OPTION_KEYS.filterMap fun optionKey =>
              (input.lookup optionKey).map fun value => (optionKey, value)))
  | _ => .error (invalidOptions definition (units "Expected a JSON object."))

def invalidView (definition : SettingDefinition) (fallbackDetail : CodeUnits) : SettingValidationError where
  i18nKey := "settings.validation.invalid"
  params := [("nameI18nKey", .text definition.nameI18nKey), ("key", .text definition.key)]
  fallbackMessage := definition.key ++ units " must be a valid SFTP directory-list view setting. " ++ fallbackDetail

def isSftpDirectoryListColumnId (id : CodeUnits) : Bool := id ∈ SFTP_DIRECTORY_LIST_COLUMN_IDS

def parseColumns (parsedColumns : List SftpDirectoryListColumnSetting) :
    List Value → Except CodeUnits (List SftpDirectoryListColumnSetting)
  | [] => .ok parsedColumns
  | .object rawColumn :: columns =>
    match rawColumn.lookup (units "id"), rawColumn.lookup (units "visible") with
    | some (.string id), some (.boolean visible) =>
      if isSftpDirectoryListColumnId id = false then
        .error (units "Every column entry must include a supported id and boolean visible flag.")
      else if id ∈ parsedColumns.map (·.id) then .error (units "Duplicate column id: " ++ id ++ units ".")
      else if id = units "name" ∧ visible = false then .error (units "The name column must stay visible.")
      else parseColumns (parsedColumns ++ [⟨id, visible⟩]) columns
    | _, _ => .error (units "Every column entry must include a supported id and boolean visible flag.")
  | _ :: _ => .error (units "Every column entry must be an object.")

def missingColumns (parsedColumns : List SftpDirectoryListColumnSetting) : List SftpDirectoryListColumnSetting :=
  (SFTP_DIRECTORY_LIST_COLUMN_IDS.filter fun id => id ∉ parsedColumns.map (·.id)).map defaultColumn

def parseSort : Option Value → Except CodeUnits (CodeUnits × CodeUnits)
  | some (.object sort) =>
    match sort.lookup (units "field"), sort.lookup (units "direction") with
    | some (.string field), some (.string direction) =>
      if isSftpDirectoryListColumnId field = true ∧ (direction = units "asc" ∨ direction = units "desc") then
        .ok (field, direction)
      else .error (units "Sort must include a supported field and asc/desc direction.")
    | _, _ => .error (units "Sort must include a supported field and asc/desc direction.")
  | _ => .error (units "Expected a sort object.")

def isVersionOne : Option Value → Bool
  | some (.number version) => version = .finite 1
  | _ => false

def parseSftpDirectoryListViewSetting (definition : SettingDefinition) : Value → Except SettingValidationError Value
  | .object input =>
    if isVersionOne (input.lookup (units "version")) = false then
      .error (invalidView definition (units "Expected version 1."))
    else
      match input.lookup (units "columns") with
      | some (.array columns) =>
        match parseColumns [] columns, parseSort (input.lookup (units "sort")) with
        | .ok parsedColumns, .ok (sortField, sortDirection) =>
          .ok (directoryListView (parsedColumns ++ missingColumns parsedColumns) sortField sortDirection)
        | .error detail, _ => .error (invalidView definition detail)
        | .ok _, .error detail => .error (invalidView definition detail)
      | _ => .error (invalidView definition (units "Expected a columns array."))
  | _ => .error (invalidView definition (units "Expected a JSON object."))

section

variable (platform : Platform)

def isSupportedTimeZoneSetting (value : CodeUnits) : Bool :=
  let normalizedValue := trim value
  decide (normalizedValue = units "system") || platform.isTimeZone normalizedValue

def keyError (definition : SettingDefinition) (i18nKey : String) (params : List (String × ErrorParam))
    (requirement : CodeUnits) : SettingValidationError where
  i18nKey := i18nKey
  params := ("nameI18nKey", .text definition.nameI18nKey) :: ("key", .text definition.key) :: params
  fallbackMessage := definition.key ++ units " must be " ++ requirement ++ units "."

def integerError (definition : SettingDefinition) : SettingValidationError :=
  match definition.min, definition.max with
  | some min, some max =>
    keyError definition "settings.validation.integerRange" [("min", .number min), ("max", .number max)]
      (units "an integer between " ++ decimal min ++ units " and " ++ decimal max)
  | _, _ => keyError definition "settings.validation.integerRequired" [] (units "an integer")

def parseStringSetting (definition : SettingDefinition) (input : CodeUnits) : Except SettingValidationError Value :=
  if definition.key = units "dateTimeTimeZone" then
    if isSupportedTimeZoneSetting platform (trim input) = true then .ok (.string (trim input))
    else
      .error (keyError definition "settings.validation.timeZoneUnsupported" []
        (units "\"system\" or a supported IANA time zone"))
  else if definition.options ≠ [] then
    if input ∈ definition.options then .ok (.string input)
    else
      .error (keyError definition "settings.validation.enumRequired" [("options", .text (joined definition.options))]
        (units "one of: " ++ joined definition.options))
  else
    let limit := definition.maxLength.getD 1000
    if limit < input.length then
      .error (keyError definition "settings.validation.maxLengthExceeded" [("limit", .number limit)]
        (decimal limit ++ units " characters or fewer"))
    else .ok (.string input)

def numberOf : Value → JsNumber
  | .number value => value
  | input => platform.toNumber input

def parseByDefinition (definition : SettingDefinition) (input : Value) : Except SettingValidationError Value :=
  match definition.valueType with
  | .boolean =>
    match input with
    | .boolean value => .ok (.boolean value)
    | _ => .error (keyError definition "settings.validation.booleanRequired" [] (units "a boolean"))
  | .number =>
    let parsed := numberOf platform input
    if isIntegerWithin definition.min definition.max parsed = true then .ok (.number parsed)
    else .error (integerError definition)
  | .string =>
    match input with
    | .string text => parseStringSetting platform definition text
    | _ => .error (keyError definition "settings.validation.stringRequired" [] (units "a string"))
  | .json =>
    if definition.key = units "sftpDirectoryListView" then parseSftpDirectoryListViewSetting definition input
    else if definition.key = units "terminalInlineImageOptions" then
      parseTerminalInlineImageOptionsSetting definition input
    else
      .error ⟨"settings.validation.unsupportedType", [("key", .text definition.key)],
        units "Unsupported JSON setting key: " ++ definition.key ++ units "."⟩

/-- `SETTINGS_DEFINITION_MAP.get` -/
def definitionOf (key : CodeUnits) : Option SettingDefinition := SETTINGS_REGISTRY.find? fun item => item.key = key

def parseSettingValue (key : CodeUnits) (input : Value) : Except SettingValidationError Value :=
  match definitionOf key with
  | none =>
    .error ⟨"settings.validation.unsupportedKey", [("key", .text key)], units "Unsupported setting key: " ++ key ++ units "."⟩
  | some definition => parseByDefinition platform definition input

def MAX_PROXY_URL_LENGTH : Nat := 2048

def SUPPORTED_PROXY_PROTOCOLS : List CodeUnits := ["http:", "https:", "socks5:"].map units

inductive ProxyUrlRejection
  | required
  | tooLong
  | invalidUrl
  | unsupportedProtocol
  | invalidPath

def validateProxyUrl (value : CodeUnits) : Except ProxyUrlRejection CodeUnits :=
  if trim value = [] then .error .required
  else if MAX_PROXY_URL_LENGTH < (trim value).length then .error .tooLong
  else
    match platform.parseUrl (trim value) with
    | none => .error .invalidUrl
    | some parsed =>
      if parsed.protocol ∉ SUPPORTED_PROXY_PROTOCOLS then .error .unsupportedProtocol
      else if parsed.hostname = [] ∨ parsed.search ≠ [] ∨ parsed.hash ≠ [] ∨
          (parsed.pathname ≠ [] ∧ parsed.pathname ≠ units "/") then
        .error .invalidPath
      else .ok parsed.href

abbrev Fields := List (CodeUnits × Value)

def createDefaultSettingsRecord : Fields := SETTINGS_REGISTRY.map fun item => (item.key, item.defaultValue)

def missingKeyError (key : CodeUnits) : SettingValidationError where
  i18nKey := "settings.validation.missingKey"
  params := [("nameI18nKey", .text (((definitionOf key).map (·.nameI18nKey)).getD key)), ("key", .text key)]
  fallbackMessage := key ++ units " is required."

def parseSettings (value : Fields) : List CodeUnits → Except SettingValidationError Fields
  | [] => .ok []
  | key :: keys =>
    match value.lookup key with
    | none => .error (missingKeyError key)
    | some input => do
      let parsed ← parseSettingValue platform key input
      let result ← parseSettings value keys
      return (key, parsed) :: result

def setSetting (result : Fields) (key : CodeUnits) (value : Value) : Fields :=
  result.map fun setting => if setting.1 = key then (key, value) else setting

def proxyUrlInvalid : SettingValidationError where
  i18nKey := "settings.validation.proxyUrlInvalid"
  params := [("key", .text (units "serverProxyUrl"))]
  fallbackMessage := units ("serverProxyUrl must be a valid http, https, or socks5 proxy URL when custom proxy mode " ++
    "is selected.")

def selectsCustomProxy (result : Fields) : Bool :=
  match result.lookup (units "serverProxyMode") with
  | some (.string mode) => mode = units "custom"
  | _ => false

def validateProxySetting (result : Fields) : Except SettingValidationError Fields :=
  if selectsCustomProxy result = true then
    match result.lookup (units "serverProxyUrl") with
    | some (.string serverProxyUrl) =>
      match validateProxyUrl platform serverProxyUrl with
      | .ok normalizedUrl => .ok (setSetting result (units "serverProxyUrl") (.string normalizedUrl))
      | .error _ => .error proxyUrlInvalid
    | _ => .error proxyUrlInvalid
  else .ok result

def normalizeSettingsValuesStrict : Value → Except SettingValidationError Value
  | .object value =>
    let unknownKeys := (value.map Prod.fst).filter fun key => key ∉ SETTINGS_KEYS
    if unknownKeys ≠ [] then
      .error ⟨"settings.validation.unknownKeys", [("keys", .text (joined unknownKeys))],
        units "Settings contain unknown keys: " ++ joined unknownKeys ++ units "."⟩
    else
      match parseSettings platform value SETTINGS_KEYS with
      | .error error => .error error
      | .ok result => (validateProxySetting platform result).map Json.object
  | _ => .error ⟨"settings.validation.notObject", [], units "Settings values must be a JSON object."⟩

def readSetting (value : Fields) (setting : CodeUnits × Value) : CodeUnits × Value :=
  match value.lookup setting.1 with
  | none => setting
  | some input =>
    match parseSettingValue platform setting.1 input with
    | .ok parsed => (setting.1, parsed)
    | .error _ => setting

def normalizeSettingsValuesWithDefaults : Value → Value
  | .object value => .object (createDefaultSettingsRecord.map (readSetting platform value))
  | _ => .object createDefaultSettingsRecord

end

end Settings
