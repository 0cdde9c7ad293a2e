import Cosmosh.Library.Json
import Cosmosh.Library.JsNumber

/-! # The settings there are

Every setting has a key, a type, a default and the limits of its type.
-/

namespace Settings

open Library Library.CodeUnits Library.Json

abbrev Value := Json JsNumber

def units (text : String) : CodeUnits := text.toUTF8.data.toList.map UInt8.toNat

inductive SettingValueType
  | string
  | number
  | boolean
  | json
  deriving DecidableEq

structure SettingDefinition where
  key : CodeUnits
  valueType : SettingValueType
  defaultValue : Value
  options : List CodeUnits
  min : Option Int
  max : Option Int
  maxLength : Option Nat

def SettingDefinition.nameI18nKey (definition : SettingDefinition) : CodeUnits := units "settings.items." ++ definition.key ++ units ".title"

def choice (key defaultValue : String) (options : List String) : SettingDefinition where
  key := units key
  valueType := .string
  defaultValue := .string (units defaultValue)
  options := options.map units
  min := none
  max := none
  maxLength := none

def text (key defaultValue : String) (maxLength : Option Nat) : SettingDefinition where
  key := units key
  valueType := .string
  defaultValue := .string (units defaultValue)
  options := []
  min := none
  max := none
  maxLength := maxLength

def toggle (key : String) (defaultValue : Bool) : SettingDefinition where
  key := units key
  valueType := .boolean
  defaultValue := .boolean defaultValue
  options := []
  min := none
  max := none
  maxLength := none

def whole (key : String) (defaultValue min max : Int) : SettingDefinition where
  key := units key
  valueType := .number
  defaultValue := .number (.finite defaultValue)
  options := []
  min := some min
  max := some max
  maxLength := none

def structured (key : String) (defaultValue : Value) : SettingDefinition where
  key := units key
  valueType := .json
  defaultValue := defaultValue
  options := []
  min := none
  max := none
  maxLength := none

def TERMINAL_INLINE_IMAGE_OPTION_KEYS : List CodeUnits :=
  ["enableSizeReports", "pixelLimit", "sixelSupport", "sixelScrolling", "sixelPaletteLimit", "sixelSizeLimit",
    "storageLimit", "showPlaceholder", "iipSupport", "iipSizeLimit"].map units

def TERMINAL_INLINE_IMAGE_BOOLEAN_OPTION_KEYS : List CodeUnits :=
  ["enableSizeReports", "sixelSupport", "sixelScrolling", "showPlaceholder", "iipSupport"].map units

structure IntegerLimits where
  minimum : Int
  maximum : Int

def TERMINAL_INLINE_IMAGE_INTEGER_OPTION_LIMITS : List (CodeUnits × IntegerLimits) :=
  [(units "pixelLimit", ⟨1, 268435456⟩), (units "sixelPaletteLimit", ⟨1, 4096⟩),
    (units "sixelSizeLimit", ⟨1, 100000000⟩), (units "storageLimit", ⟨1, 2048⟩), (units "iipSizeLimit", ⟨1, 100000000⟩)]

def DEFAULT_TERMINAL_INLINE_IMAGE_OPTIONS : Value :=
  .object [(units "enableSizeReports", .boolean true), (units "pixelLimit", .number (.finite 16777216)),
    (units "sixelSupport", .boolean true), (units "sixelScrolling", .boolean true),
    (units "sixelPaletteLimit", .number (.finite 256)), (units "sixelSizeLimit", .number (.finite 25000000)),
    (units "storageLimit", .number (.finite 128)), (units "showPlaceholder", .boolean true),
    (units "iipSupport", .boolean true), (units "iipSizeLimit", .number (.finite 20000000))]

def SFTP_DIRECTORY_LIST_COLUMN_IDS : List CodeUnits :=
  ["name", "modifiedAt", "type", "size", "accessedAt", "permissions", "permissionOctal", "mode", "uid", "gid",
    "extension", "isHidden", "path", "parentPath", "shellEscapedPath", "longname"].map units

def DEFAULT_SFTP_DIRECTORY_LIST_VISIBLE_COLUMN_IDS : List CodeUnits := ["name", "modifiedAt", "type", "size", "permissions"].map units

structure SftpDirectoryListColumnSetting where
  id : CodeUnits
  visible : Bool

def SftpDirectoryListColumnSetting.value (column : SftpDirectoryListColumnSetting) : Value :=
  .object [(units "id", .string column.id), (units "visible", .boolean column.visible)]

def defaultColumn (id : CodeUnits) : SftpDirectoryListColumnSetting := ⟨id, decide (id ∈ DEFAULT_SFTP_DIRECTORY_LIST_VISIBLE_COLUMN_IDS)⟩

def directoryListView (columns : List SftpDirectoryListColumnSetting) (field direction : CodeUnits) : Value :=
  .object [(units "version", .number (.finite 1)), (units "columns", .array (columns.map (·.value))),
    (units "sort", .object [(units "field", .string field), (units "direction", .string direction)])]

def DEFAULT_SFTP_DIRECTORY_LIST_VIEW_SETTING : Value :=
  directoryListView (SFTP_DIRECTORY_LIST_COLUMN_IDS.map defaultColumn) (units "name") (units "asc")

def SETTINGS_REGISTRY : List SettingDefinition :=
  [choice "language" "en" ["en", "zh-CN"],
    text "dateTimeTimeZone" "system" (some 100),
    choice "dateFormat" "yyyy-MM-dd" ["yyyy-MM-dd", "yyyy/MM/dd", "dd/MM/yy", "MM/dd/yyyy", "MMM d, yyyy"],
    choice "timeFormat" "HH:mm:ss" ["HH:mm:ss", "HH:mm", "h:mm:ss a", "h:mm a"],
    toggle "windowCloseConfirmationEnabled" true,
    choice "tabSwitcherSortOrder" "mostRecentlyUsed" ["mostRecentlyUsed", "tabOrder"],
    toggle "accountSyncEnabled" false,
    choice "theme" "dark" ["dark", "light", "auto"],
    toggle "terminalAltClickMovesCursor" true,
    toggle "terminalCursorBlink" true,
    text "terminalFontFamily"
      ("Consolas, \"JetBrains Mono\", \"Liberation Mono\", \"Microsoft YaHei\", " ++
        "\"SFMono-Regular\", \"PingFang SC\", monospace") (some 1000),
    whole "terminalFontSize" 15 9 36,
    whole "sshMaxRows" 10000 100 200000,
    whole "sshConnectionTimeoutSec" 45 5 180,
    toggle "sshReconnectOnFocus" false,
    choice "serverProxyMode" "system" ["off", "system", "custom"],
    text "serverProxyUrl" "" (some 2048),
    choice "sftpReconnectMode" "passive" ["passive", "active", "off"],
    choice "sftpDeleteConfirmationMode" "always" ["always", "batch", "shortcut", "off"],
    choice "sftpInternalDragDefaultAction" "ask" ["ask", "move", "copy", "link"],
    choice "sftpInternalDragModifierAction" "copy" ["ask", "move", "copy", "link"],
    toggle "sftpShowHiddenEntries" true,
    toggle "sftpDimHiddenEntries" true,
    toggle "sftpShowParentDirectoryEntry" false,
    toggle "sftpShowAddressAsText" false,
    choice "sftpAuxiliarySidebarMode" "details" ["details", "preview", "off"],
    whole "sftpTextPreviewWarningThresholdBytes" (512 * 1024) 1024 (16 * 1024 * 1024),
    whole "sftpImagePreviewWarningThresholdBytes" (4 * 1024 * 1024) 1024 (128 * 1024 * 1024),
    structured "sftpDirectoryListView" DEFAULT_SFTP_DIRECTORY_LIST_VIEW_SETTING,
    toggle "showFullServerAddress" true,
    toggle "sshTabApplyServerVisualStyle" false,
    choice "terminalCursorInactiveStyle" "outline" ["outline", "block", "bar", "underline", "none"],
    choice "terminalCursorStyle" "block" ["block", "underline", "bar"],
    text "terminalCursorWidth" "" (some 8),
    toggle "terminalCustomGlyphs" true,
    text "terminalFontWeight" "normal" (some 16),
    text "terminalFontWeightBold" "bold" (some 16),
    whole "terminalLetterSpacing" 0 (-5) 20,
    text "terminalLineHeight" "1" (some 16),
    toggle "autoSaveEnabled" true,
    toggle "remoteEnhancementsEnabled" true,
    toggle "remoteEnhancementsDebugEnabled" false,
    toggle "devToolsEnabled" false,
    toggle "userMenuDebugEntryEnabled" false,
    text "defaultServerNoteTemplate" "" (some 1000),
    toggle "terminalSelectionBarEnabled" true,
    toggle "terminalCopyOnSelectionEnabled" false,
    choice "terminalTextDropMode" "external" ["off", "always", "external"],
    toggle "terminalHardwareAccelerationEnabled" true,
    toggle "terminalInlineImagesEnabled" false,
    structured "terminalInlineImageOptions" DEFAULT_TERMINAL_INLINE_IMAGE_OPTIONS,
    toggle "terminalBracketedPasteEnabled" true,
    toggle "terminalWarnOnMultiLinePaste" true,
    toggle "terminalWarnOnLargePaste" true,
    whole "terminalLargePasteWarningThreshold" 5120 1 1000000,
    toggle "terminalWarnOnControlCharactersPaste" true,
    toggle "terminalCharacterWidthCompatibilityModeEnabled" true,
    toggle "terminalCommandTimelineEnabled" true,
    toggle "terminalWebLinksEnabled" true,
    toggle "terminalWebLinksRequireModifierKey" true,
    choice "terminalRightClickAction" "contextMenu" ["contextMenu", "paste", "copyOnSelectionElsePaste"],
    toggle "terminalRightClickSelectsWord" false,
    choice "terminalForceSelectionModifier" "off" ["off", "alt", "shift", "ctrl"],
    choice "localTerminalClipboardAccess" "off" ["off", "writeAskRead", "readWrite", "askAlways"],
    choice "terminalContextLaunchBehavior" "openDefaultLocalTerminal"
      ["openDefaultLocalTerminal", "openLocalTerminalList", "off"],
    text "defaultLocalTerminalProfile" "auto" none,
    choice "terminalSelectionSearchEngine" "google" ["google", "bing", "duckduckgo", "baidu", "custom"],
    text "terminalSelectionSearchUrlTemplate" "" (some 1000),
    toggle "terminalAutoCompleteEnabled" true,
    toggle "terminalAutoCompleteHistoryEnabled" true,
    toggle "terminalAutoCompleteBuiltInCommandsEnabled" true,
    toggle "terminalAutoCompletePathEnabled" true,
    toggle "terminalAutoCompletePasswordEnabled" true,
    choice "terminalAutoCompleteAcceptKeys" "tab" ["tab", "enter", "tabEnter"],
    whole "terminalAutoCompleteMinChars" 1 1 8,
    whole "terminalAutoCompleteMaxItems" 8 3 20,
    toggle "terminalAutoCompleteFuzzyMatch" true,
    text "terminalAutoCompletePromptRegex" "" (some 300),
    toggle "terminalDrawBoldTextInBrightColors" true,
    text "terminalScrollSensitivity" "1" (some 16),
    text "terminalFastScrollSensitivity" "5" (some 16),
    text "terminalMinimumContrastRatio" "1" (some 16),
    toggle "terminalScreenReaderMode" false,
    toggle "terminalScrollOnUserInput" true,
    whole "terminalSmoothScrollDuration" 0 0 2000,
    whole "terminalTabStopWidth" 8 1 16]

def SETTINGS_KEYS : List CodeUnits := SETTINGS_REGISTRY.map SettingDefinition.key

end Settings
