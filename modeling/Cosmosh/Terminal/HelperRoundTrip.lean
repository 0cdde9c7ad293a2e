import Cosmosh.Terminal.HelperEvents
import Cosmosh.Terminal.OscResync

/-! # From the helper to the parser

The helper puts base64 around its JSON object, and a frame around that.
-/

namespace Terminal

open Library Library.CodeUnits

section

variable {ν : Type} (numbers : Numbers ν)

variable {n : Nat}

theorem normalizeBoundedInteger_wholeNumber {maximum : Nat} (h : n ≤ maximum) (hMaximum : maximum ≤ MAX_SAFE_INTEGER) :
    normalizeBoundedInteger numbers 0 maximum (some (wholeNumber numbers n)) = some n := by
  have hSafe : n < 2 ^ 53 := Nat.lt_of_le_of_lt (h.trans hMaximum) (by decide)
  rw [wholeNumber, normalizeBoundedInteger, safeInteger?, numbers.whole_ofNat n hSafe, Option.filter_some, if_pos]
  · rw [Option.bind_some, if_neg (by omega)]
    rfl
  · rw [decide_eq_true_eq]
    omega

theorem readTimestamp_wholeNumber (h : n ≤ MAX_SAFE_INTEGER) : readTimestamp numbers (some (wholeNumber numbers n)) = some n := by
  have hSafe : n < 2 ^ 53 := Nat.lt_of_le_of_lt h (by decide)
  rw [wholeNumber, readTimestamp, safeInteger?, numbers.whole_ofNat n hSafe, Option.filter_some, if_pos]
  · rw [Option.bind_some, if_neg (by omega)]
    rfl
  · rw [decide_eq_true_eq]
    omega

theorem length_encode_pos {text : List Char} (h : text ≠ []) : 0 < (Utf8.encode text).length := by
  cases text with
  | nil => exact absurd rfl h
  | cons c text =>
    rw [Utf8.encode, List.flatMap_cons, List.length_append]
    have hChar : 0 < (String.utf8EncodeChar c).length := by
      obtain ⟨_, hEncode, _⟩ | ⟨_, _, hEncode, _⟩ | ⟨_, _, _, hEncode, _⟩ | ⟨_, _, _, _, hEncode, _⟩ := Utf8.utf8EncodeChar_cases c
      all_goals
        rw [hEncode]
        exact Nat.succ_pos _
    omega

theorem decodeBoundedBase64Utf8_base64Value {value : List Char} {maxBytes : Nat} (hNonempty : value ≠ [])
    (hBytes : (Utf8.encode value).length ≤ maxBytes) :
    decodeBoundedBase64Utf8 (ν := ν) maxBytes (some (.string (base64Value value))) = some (Utf16.ofText (withoutMark value)) := by
  have hLength : (base64Value value).length = 4 * (((Utf8.encode value).length + 2) / 3) := Base64.length_encode _
  have hPositive := length_encode_pos hNonempty
  have hDecoded : Base64.decode (base64Value value) = Utf8.encode value := Base64.decode_encode _
  have hFits : ¬ ((base64Value value).length = 0 ∨ (maxBytes + 2) / 3 * 4 + 4 < (base64Value value).length) := by omega
  have hCanonical : ¬ ((Utf8.encode value).length = 0 ∨ maxBytes < (Utf8.encode value).length ∨
      Base64.encode (Utf8.encode value) ≠ base64Value value) := by
    rintro (hEmpty | hLong | hOther)
    · omega
    · omega
    · exact hOther rfl
  rw [decodeBoundedBase64Utf8, if_neg hFits, hDecoded]
  dsimp only
  rw [if_neg hCanonical, decodeFatal, if_pos ⟨value, rfl⟩, Utf8.decode_encode]

theorem length_digits_le (h : n < 10 ^ 19) : (Json.digits n).length ≤ 19 := by
  rw [Json.digits, ofAscii, List.length_map]
  exact (Nat.length_toDigits_le_iff (by decide) (by decide)).mpr h

variable {commandId : CommandId}

theorem length_commandId_le (hStart : commandId.startedAt < 2 ^ 63) (hSequence : commandId.sequence < 2 ^ 63) : commandId.text.length ≤ 39 := by
  have hStartDigits := length_digits_le (hStart.trans (by decide : 2 ^ 63 < 10 ^ 19))
  have hSequenceDigits := length_digits_le (hSequence.trans (by decide : 2 ^ 63 < 10 ^ 19))
  have hDash : (ascii "-").length = 1 := rfl
  rw [CommandId.text, List.length_append, List.length_append]
  omega

theorem normalizeCommandId_text (hStart : commandId.startedAt < 2 ^ 63) (hSequence : commandId.sequence < 2 ^ 63) :
    normalizeCommandId (ν := ν) (some (.string commandId.text)) = some commandId.text := by
  have hLength := length_commandId_le hStart hSequence
  have hPositive : 0 < commandId.text.length := by
    rw [CommandId.text, List.length_append]
    have hDigits := List.length_pos_iff.mpr (Json.digits_ne_nil commandId.startedAt)
    omega
  have hUnits : commandId.text.all isCommandIdUnit = true := by
    rw [List.all_eq_true]
    intro u hu
    have hDigit : ∀ n, u ∈ Json.digits n → isCommandIdUnit u = true := by
      intro n hn
      rw [isCommandIdUnit, Json.isDigit_of_mem_digits hn]
      rfl
    obtain hStart | hRest := List.mem_append.mp hu
    · exact hDigit _ hStart
    · obtain hDash | hSequence := List.mem_append.mp hRest
      · obtain rfl := List.mem_singleton.mp hDash
        rfl
      · exact hDigit _ hSequence
  rw [normalizeCommandId, if_neg]
  rintro (hEmpty | hLong | hOther)
  · omega
  · omega
  · exact hOther hUnits

theorem readCommand_ofText {command : List Char} (hNonempty : command ≠ []) (hControl : ∀ c ∈ command, isControl c = false) :
    readCommand (Utf16.ofText command) = some (toOutput (Utf16.ofText command)) := by
  rw [readCommand, if_neg]
  rintro (hEmpty | hOther)
  · apply hNonempty
    rw [← Utf16.toText_ofText command, hEmpty]
    rfl
  · rw [containsAsciiControlCharacter, Utf16.toText_ofText, List.any_eq_true] at hOther
    obtain ⟨c, hc, hIs⟩ := hOther
    exact absurd (hIs.symm.trans (hControl c hc)) Bool.noConfusion

theorem readCwd_ofText {pwd : List Char} (hRoot : pwd.head? = some '/') (hNul : '\x00' ∉ pwd) :
    readCwd (Utf16.ofText (withoutMark pwd)) = some (.cwd (toOutput (Utf16.ofText pwd))) := by
  obtain ⟨rest, rfl⟩ := List.head?_eq_some_iff.mp hRoot
  have hUnmarked : withoutMark ('/' :: rest) = '/' :: rest := by rw [withoutMark, if_neg (by decide)]
  have hUnits : Utf16.ofText ('/' :: rest) = 0x2f :: Utf16.ofText rest := rfl
  rw [hUnmarked, readCwd, if_neg]
  rintro (hEmpty | hHead | hZero)
  · exact List.cons_ne_nil _ _ (hUnits.symm.trans hEmpty)
  · exact hHead rfl
  · exact hNul ((Utf16.mem_ofText_iff (d := '\x00') (by decide)).mp hZero)

/-- The event of a call, when the command name is read as `read` says. -/
def HelperCall.eventWith (read : List Char → List Char) : HelperCall → RemoteShellEvent
  | integrationReady => .integrationReady
  | cwd pwd => .cwd (toOutput (Utf16.ofText pwd))
  | commandStart command commandId => .commandStart (toOutput (Utf16.ofText (read command))) (toOutput commandId.text)
  | foregroundCommand command commandId => .foregroundCommand (toOutput (Utf16.ofText (read command))) (toOutput commandId.text)
  | commandEnd command commandId status duration =>
    .commandEnd (toOutput (Utf16.ofText (read command))) (toOutput commandId.text) status duration
  | promptReady promptGeneration => .promptReady promptGeneration
  | lineState promptGeneration lineLength cursorIndex => .lineState lineLength cursorIndex promptGeneration

def helperMessage (shell : RemoteShellName) (helperVersion : CodeUnits) (timestamp : Nat) (event : RemoteShellEvent) :
    RemoteShellEventMessage := ⟨shell, toOutput helperVersion, RemoteShellProtocolVersion, HelperCapabilities shell, timestamp, event⟩

theorem commandOf_eq {field : String → Field ν} {command : List Char} (hAccepted : HelperCall.Emitted.Accepted command commandId)
    (hField : field "commandBase64" = some (.string (base64Value command))) :
    commandOf field = some (toOutput (Utf16.ofText (withoutMark command))) := by
  obtain ⟨hNonempty, hControl, hBytes, -⟩ := hAccepted
  have hCommand : command ≠ [] := by
    rintro rfl
    exact hNonempty rfl
  have hRest : ∀ c ∈ withoutMark command, isControl c = false := by
    intro c hc
    cases command with
    | nil => exact absurd rfl hCommand
    | cons first command =>
      rw [withoutMark] at hc
      split at hc
      · exact hControl c (List.mem_cons_of_mem first hc)
      · exact hControl c hc
  rw [commandOf, hField, decodeBoundedBase64Utf8_base64Value hCommand hBytes, Option.bind_some, readCommand_ofText hNonempty hRest]

theorem commandIdOf_eq {field : String → Field ν} {command : List Char}
    (hAccepted : HelperCall.Emitted.Accepted command commandId) (hField : field "commandId" = some (.string commandId.text)) :
    commandIdOf field = some (toOutput commandId.text) := by
  obtain ⟨-, -, -, hStart, hSequence⟩ := hAccepted
  rw [commandIdOf, hField, normalizeCommandId_text hStart hSequence, Option.map_some]

section

variable {shell : RemoteShellName} {helperVersion : CodeUnits} {timestamp : Nat} {call : HelperCall}

def helperField (shell : RemoteShellName) (helperVersion : CodeUnits) (timestamp : Nat) (call : HelperCall) (name : String) : Field ν :=
  (helperFields numbers shell helperVersion timestamp call).lookup (ascii name)

theorem readNamedEvent_eq (hCall : call.Emitted shell) (hNumbers : ∀ n ∈ call.numbers, n ≤ MAX_SAFE_INTEGER) :
    readNamedEvent numbers (helperField numbers shell helperVersion timestamp call) (HelperCapabilities shell) call.name =
      some (call.eventWith withoutMark) := by
  cases call with
  | integrationReady => rfl
  | cwd pwd =>
    obtain ⟨hRoot, hNul, hBytes⟩ := hCall
    have hCapability : RemoteShellCapability.cwd ∈ HelperCapabilities shell := by cases shell <;> decide
    have hPwd : pwd ≠ [] := by
      rintro rfl
      cases hRoot
    have hField : helperField numbers shell helperVersion timestamp (.cwd pwd) "cwdBase64" = some (.string (base64Value pwd)) := rfl
    show (if RemoteShellCapability.cwd ∉ HelperCapabilities shell then none else _) = _
    rw [if_neg (not_not_intro hCapability), readEvent, hField, decodeBoundedBase64Utf8_base64Value hPwd hBytes, Option.bind_some,
      readCwd_ofText hRoot hNul]
    rfl
  | commandStart command commandId =>
    obtain ⟨hCapability, hAccepted⟩ := hCall
    show (if RemoteShellCapability.commandStart ∉ HelperCapabilities shell then none else _) = _
    rw [if_neg (not_not_intro hCapability), readEvent, commandOf_eq hAccepted rfl, commandIdOf_eq hAccepted rfl]
    rfl
  | foregroundCommand command commandId =>
    obtain ⟨hCapability, hAccepted⟩ := hCall
    show (if RemoteShellCapability.foregroundCommand ∉ HelperCapabilities shell then none else _) = _
    rw [if_neg (not_not_intro hCapability), readEvent, commandOf_eq hAccepted rfl, commandIdOf_eq hAccepted rfl]
    rfl
  | commandEnd command commandId status duration =>
    obtain ⟨hCapability, hAccepted, hStatus⟩ := hCall
    rw [HelperCall.numbers, List.forall_mem_cons, List.forall_mem_singleton] at hNumbers
    have hExit : helperField numbers shell helperVersion timestamp (.commandEnd command commandId status duration) "exitCode" =
        some (wholeNumber numbers status) := rfl
    have hDuration : helperField numbers shell helperVersion timestamp (.commandEnd command commandId status duration) "durationMs" =
        some (wholeNumber numbers duration) := rfl
    show (if RemoteShellCapability.commandEnd ∉ HelperCapabilities shell then none else _) = _
    rw [if_neg (not_not_intro hCapability), readEvent, commandOf_eq hAccepted rfl, commandIdOf_eq hAccepted rfl, hExit, hDuration,
      normalizeBoundedInteger_wholeNumber numbers hStatus (by decide),
      normalizeBoundedInteger_wholeNumber numbers hNumbers.2 (Nat.le_refl _)]
    rfl
  | promptReady promptGeneration =>
    have hCapability : RemoteShellCapability.promptReady ∈ HelperCapabilities shell := by cases shell <;> decide
    show (if RemoteShellCapability.promptReady ∉ HelperCapabilities shell then none else _) = _
    rw [if_neg (not_not_intro hCapability), readEvent]
    cases promptGeneration with
    | none => exact if_neg (hCall rfl).2
    | some promptGeneration =>
      rw [HelperCall.numbers, List.forall_mem_singleton] at hNumbers
      have hField : helperField numbers shell helperVersion timestamp (.promptReady (some promptGeneration)) "promptGeneration" =
          some (wholeNumber numbers promptGeneration) := rfl
      rw [hField, normalizeBoundedInteger_wholeNumber numbers hNumbers (Nat.le_refl _)]
      rfl
  | lineState promptGeneration lineLength cursorIndex =>
    obtain ⟨hCapability, hLength, hCursor⟩ := hCall
    rw [HelperCall.numbers, List.forall_mem_cons] at hNumbers
    have hGeneration : helperField numbers shell helperVersion timestamp (.lineState promptGeneration lineLength cursorIndex)
        "promptGeneration" = some (wholeNumber numbers promptGeneration) := rfl
    have hLine : helperField numbers shell helperVersion timestamp (.lineState promptGeneration lineLength cursorIndex)
        "lineLength" = some (wholeNumber numbers lineLength) := rfl
    have hIndex : helperField numbers shell helperVersion timestamp (.lineState promptGeneration lineLength cursorIndex)
        "cursorIndex" = some (wholeNumber numbers cursorIndex) := rfl
    show (if RemoteShellCapability.lineState ∉ HelperCapabilities shell then none else _) = _
    rw [if_neg (not_not_intro hCapability), readEvent, hGeneration, hLine, hIndex,
      normalizeBoundedInteger_wholeNumber numbers hLength (by decide),
      normalizeBoundedInteger_wholeNumber numbers (hCursor.trans hLength) (by decide),
      normalizeBoundedInteger_wholeNumber numbers hNumbers.1 (Nat.le_refl _)]
    show readLineState lineLength cursorIndex promptGeneration = _
    rw [readLineState, if_neg (Nat.not_lt.mpr hCursor)]
    rfl

theorem normalizeRemoteShellEvent_eq (hNonempty : helperVersion ≠ []) (hVersion : ∀ u ∈ helperVersion, isVersionUnit u = true)
    (hTimestamp : timestamp ≤ MAX_SAFE_INTEGER) (hCall : call.Emitted shell) (hNumbers : ∀ n ∈ call.numbers, n ≤ MAX_SAFE_INTEGER) :
    normalizeRemoteShellEvent numbers (.object (helperFields numbers shell helperVersion timestamp call)) =
      some (helperMessage shell helperVersion timestamp (call.eventWith withoutMark)) := by
  have hName : readName RemoteShellEventName.text REMOTE_SHELL_EVENT_NAMES
      (helperField numbers shell helperVersion timestamp call "event") = some call.name := by
    cases call <;> rfl
  have hShell : readName RemoteShellName.text REMOTE_SHELL_NAMES
      (helperField numbers shell helperVersion timestamp call "shell") = some shell := by
    cases shell <;> rfl
  have hRead : readHelperVersion (helperField numbers shell helperVersion timestamp call "helperVersion") = some helperVersion :=
    if_pos ⟨hNonempty, List.all_eq_true.mpr hVersion⟩
  have hProtocol : readProtocolVersion numbers (helperField numbers shell helperVersion timestamp call "protocolVersion") =
      some RemoteShellProtocolVersion := by
    show (numbers.whole (numbers.ofNat RemoteShellProtocolVersion)).bind _ = _
    rw [numbers.whole_ofNat RemoteShellProtocolVersion (by decide)]
    rfl
  have hCapabilities : normalizeCapabilities (helperField numbers shell helperVersion timestamp call "capabilities") =
      some (HelperCapabilities shell) := by
    cases shell <;> rfl
  have hTime : readTimestamp numbers (helperField numbers shell helperVersion timestamp call "timestamp") = some timestamp :=
    readTimestamp_wholeNumber numbers hTimestamp
  show normalizeFields numbers (helperField numbers shell helperVersion timestamp call) = _
  rw [normalizeFields, hName, hShell, hRead, hProtocol, hCapabilities, hTime]
  show (readNamedEvent numbers (helperField numbers shell helperVersion timestamp call) (HelperCapabilities shell) call.name).bind _ = _
  rw [readNamedEvent_eq numbers hCall hNumbers]
  rfl

end

theorem length_digits_safe (h : n ≤ MAX_SAFE_INTEGER) : (Json.digits n).length ≤ 19 := length_digits_le (Nat.lt_of_le_of_lt h (by decide))

theorem length_commandText_le {command : List Char} (h : HelperCall.Emitted.Accepted command commandId) :
    (HelperCall.commandText command commandId).length ≤ 413 := by
  obtain ⟨-, -, hBytes, hStart, hSequence⟩ := h
  have hCommand : (base64Value command).length = 4 * (((Utf8.encode command).length + 2) / 3) := Base64.length_encode _
  have hId := length_commandId_le hStart hSequence
  have hFirst : (ascii ",\"commandBase64\":\"").length = 18 := rfl
  have hSecond : (ascii "\",\"commandId\":\"").length = 15 := rfl
  have hLast : (ascii "\"").length = 1 := rfl
  have hLimit : REMOTE_SHELL_COMMAND_MAX_BYTES = 255 := rfl
  simp only [HelperCall.commandText, List.length_append]
  omega

theorem length_appended_le {shell : RemoteShellName} {call : HelperCall} (hCall : call.Emitted shell)
    (hNumbers : ∀ n ∈ call.numbers, n ≤ MAX_SAFE_INTEGER) : call.appended.length ≤ 5479 := by
  cases call with
  | integrationReady => exact Nat.zero_le _
  | cwd pwd =>
    obtain ⟨-, -, hBytes⟩ := hCall
    have hPwd : (base64Value pwd).length = 4 * (((Utf8.encode pwd).length + 2) / 3) := Base64.length_encode _
    have hFirst : (ascii ",\"cwdBase64\":\"").length = 14 := rfl
    have hLast : (ascii "\"").length = 1 := rfl
    have hLimit : REMOTE_SHELL_CWD_MAX_BYTES = 4096 := rfl
    simp only [HelperCall.appended, List.length_append]
    omega
  | commandStart command commandId => exact (length_commandText_le hCall.2).trans (by decide)
  | foregroundCommand command commandId => exact (length_commandText_le hCall.2).trans (by decide)
  | commandEnd command commandId status duration =>
    rw [HelperCall.numbers, List.forall_mem_cons, List.forall_mem_singleton] at hNumbers
    have hCommand := length_commandText_le hCall.2.1
    have hStatus := length_digits_safe hNumbers.1
    have hDuration := length_digits_safe hNumbers.2
    have hFirst : (ascii ",\"exitCode\":").length = 12 := rfl
    have hSecond : (ascii ",\"durationMs\":").length = 14 := rfl
    simp only [HelperCall.appended, List.length_append]
    omega
  | promptReady promptGeneration =>
    cases promptGeneration with
    | none => exact Nat.zero_le _
    | some promptGeneration =>
      rw [HelperCall.numbers, List.forall_mem_singleton] at hNumbers
      have hGeneration := length_digits_safe hNumbers
      have hFirst : (ascii ",\"promptGeneration\":").length = 20 := rfl
      simp only [HelperCall.appended, List.length_append]
      omega
  | lineState promptGeneration lineLength cursorIndex =>
    rw [HelperCall.numbers, List.forall_mem_cons, List.forall_mem_cons, List.forall_mem_singleton] at hNumbers
    have hGeneration := length_digits_safe hNumbers.1
    have hLength := length_digits_safe hNumbers.2.1
    have hCursor := length_digits_safe hNumbers.2.2
    have hFirst : (ascii ",\"promptGeneration\":").length = 20 := rfl
    have hSecond : (ascii ",\"lineLength\":").length = 14 := rfl
    have hThird : (ascii ",\"cursorIndex\":").length = 15 := rfl
    simp only [HelperCall.appended, List.length_append]
    omega

section

variable {shell : RemoteShellName} {helperVersion : CodeUnits} {timestamp : Nat} {call : HelperCall}

theorem name_mem (call : HelperCall) : call.name ∈ REMOTE_SHELL_EVENT_NAMES := by
  cases call <;> exact List.mem_of_elem_eq_true rfl

theorem length_name_le (call : HelperCall) : call.name.text.length ≤ 18 := by
  have hNames : ∀ name ∈ REMOTE_SHELL_EVENT_NAMES, name.text.length ≤ 18 := by decide
  exact hNames _ (name_mem call)

theorem length_helperJson_le (hVersion : helperVersion.length ≤ 200) (hTimestamp : timestamp ≤ MAX_SAFE_INTEGER)
    (hCall : call.Emitted shell) (hNumbers : ∀ n ∈ call.numbers, n ≤ MAX_SAFE_INTEGER) :
    (helperJson shell helperVersion timestamp call).length ≤ 6144 := by
  have hName : call.name.text.length ≤ 18 := length_name_le call
  have hShell : shell.text.length ≤ 4 := by cases shell <;> decide
  have hCapabilities : (capabilitiesJSON (HelperCapabilities shell)).length ≤ 93 := by cases shell <;> decide
  have hProtocol : (Json.digits RemoteShellProtocolVersion).length = 1 := by decide
  have hTime := length_digits_safe hTimestamp
  have hAppended := length_appended_le hCall hNumbers
  have hEventKey : (ascii "\x7b\"event\":\"").length = 10 := rfl
  have hShellKey : (ascii "\",\"shell\":\"").length = 11 := rfl
  have hVersionKey : (ascii "\",\"helperVersion\":\"").length = 19 := rfl
  have hProtocolKey : (ascii "\",\"protocolVersion\":").length = 20 := rfl
  have hCapabilitiesKey : (ascii ",\"capabilities\":").length = 16 := rfl
  have hTimeKey : (ascii ",\"timestamp\":").length = 13 := rfl
  have hEnd : (ascii "\x7d").length = 1 := rfl
  simp only [helperJson, List.length_append]
  omega

theorem length_helperPayload_le (hVersion : helperVersion.length ≤ 200) (hTimestamp : timestamp ≤ MAX_SAFE_INTEGER)
    (hCall : call.Emitted shell) (hNumbers : ∀ n ∈ call.numbers, n ≤ MAX_SAFE_INTEGER) :
    (helperPayload shell helperVersion timestamp call).length ≤ REMOTE_SHELL_EVENT_OSC_PAYLOAD_MAX_BYTES := by
  have hJson := length_helperJson_le hVersion hTimestamp hCall hNumbers
  have hLimit : REMOTE_SHELL_EVENT_OSC_PAYLOAD_MAX_BYTES = 8192 := rfl
  rw [helperPayload, toOutput, List.length_map, Base64.length_encode, List.length_map]
  omega

end

theorem lt_of_isPlain {u : Nat} (h : Json.isPlain u = true) : u < 0x80 := by
  simp only [Json.isPlain, Bool.and_eq_true, decide_eq_true_eq] at h
  exact h.1.1.2

theorem toNat_toOutput {units : CodeUnits} (h : ∀ u ∈ units, u < 0x80) : (toOutput units).map UInt16.toNat = units := by
  have hUnits : ∀ u ∈ units, u.toUInt16.toNat = u := by
    intro u hu
    have hUnit := h u hu
    rw [Nat.toUInt16, UInt16.toNat_ofNat']
    omega
  rw [toOutput, List.map_map]
  exact (List.map_congr_left hUnits).trans (List.map_id units)

def Quiet (payload : Output) : Prop := ∀ c ∈ payload, c ≠ BELL ∧ c ≠ ESCAPE ∧ c < 0x80

theorem quiet_of_plain {units : CodeUnits} (h : ∀ u ∈ units, Json.isPlain u = true) : Quiet (toOutput units) := by
  intro c hc
  obtain ⟨u, hu, rfl⟩ := List.mem_map.mp hc
  have hPlain := h u hu
  simp only [Json.isPlain, Bool.and_eq_true, decide_eq_true_eq] at hPlain
  have hUnit : u.toUInt16.toNat = u := by
    rw [Nat.toUInt16, UInt16.toNat_ofNat']
    omega
  refine ⟨?_, ?_, ?_⟩
  · intro hBell
    have hNat : u = BELL.toNat := hUnit.symm.trans (congrArg UInt16.toNat hBell)
    have hValue : BELL.toNat = 7 := rfl
    omega
  · intro hEscape
    have hNat : u = ESCAPE.toNat := hUnit.symm.trans (congrArg UInt16.toNat hEscape)
    have hValue : ESCAPE.toNat = 27 := rfl
    omega
  · rw [UInt16.lt_iff_toNat_lt, hUnit]
    exact hPlain.1.1.2

namespace Quiet

variable {payload : Output}

theorem unfinished (h : Quiet payload) : Unfinished endsFrame payload := by
  induction payload using List.reverseRecOn with
  | nil => exact unfinished_nil
  | append_singleton payload c ih =>
    have hPayload : Quiet payload := fun d hd => h d (List.mem_append_left [c] hd)
    rw [unfinished_append_singleton, Bool.eq_false_iff]
    refine ⟨ih hPayload, fun hEnds => ?_⟩
    obtain hBell | ⟨-, hLast⟩ := endsFrame_concat.mp hEnds
    · exact (h c (List.mem_append_right payload (List.mem_singleton_self c))).1 hBell
    · exact (hPayload ESCAPE (List.mem_of_getLast? hLast)).2.1 rfl

theorem complete (h : Quiet payload) : Complete endsFrame (payload ++ [BELL]) :=
  (complete_append_singleton h.unfinished).mpr (endsFrame_concat.mpr (.inl rfl))

theorem byteLength_eq (h : Quiet payload) : byteLength payload = payload.length := by
  induction payload using byteLength.induct with
  | case1 => rfl
  | case2 c => exact if_pos (h c List.mem_cons_self).2.2
  | case3 high low rest hPair ih =>
    have hHigh : high < 0x80 := (h high List.mem_cons_self).2.2
    rw [Bool.and_eq_true, isHighSurrogate, Bool.and_eq_true, decide_eq_true_eq, decide_eq_true_eq] at hPair
    exact absurd (UInt16.lt_of_le_of_lt hPair.1.1 hHigh) (by decide)
  | case4 high low rest hPair ih =>
    have hHigh : high < 0x80 := (h high List.mem_cons_self).2.2
    rw [byteLength, if_neg hPair, ih fun c hc => h c (List.mem_cons_of_mem high hc), unitBytes, if_pos hHigh, Nat.add_comm]
    rfl

theorem sum_unitBytes (h : Quiet payload) : (payload.map unitBytes).sum = payload.length := by
  induction payload with
  | nil => rfl
  | cons c payload ih =>
    rw [List.map_cons, List.sum_cons, ih fun d hd => h d (List.mem_cons_of_mem c hd), unitBytes, if_pos (h c List.mem_cons_self).2.2,
      List.length_cons, Nat.add_comm]

end Quiet

section

variable {shell : RemoteShellName} {helperVersion : CodeUnits} {timestamp : Nat} {call : HelperCall}

theorem ascii_appended (call : HelperCall) : ∀ u ∈ call.appended, u < 0x80 := by
  have hDigits : ∀ n, ∀ u ∈ Json.digits n, u < 0x80 := fun _ _ hu => lt_of_isPlain (plain_of_isDigit (Json.isDigit_of_mem_digits hu))
  have hValue : ∀ value, ∀ u ∈ base64Value value, u < 0x80 :=
    fun _ _ hu => lt_of_isPlain (plain_of_isBase64Unit (Base64.isBase64Unit_of_mem_encode hu))
  have hId : ∀ commandId : CommandId, ∀ u ∈ commandId.text, u < 0x80 := fun commandId u hu => lt_of_isPlain (plain_commandId commandId u hu)
  have hCommand : ∀ command commandId, ∀ u ∈ HelperCall.commandText command commandId, u < 0x80 := by
    intro command commandId
    simp only [HelperCall.commandText, List.forall_mem_append]
    exact ⟨by decide, hValue command, by decide, hId commandId, by decide⟩
  cases call with
  | integrationReady => exact List.forall_mem_nil _
  | cwd pwd =>
    simp only [HelperCall.appended, List.forall_mem_append]
    exact ⟨by decide, hValue pwd, by decide⟩
  | commandStart command commandId => exact hCommand command commandId
  | foregroundCommand command commandId => exact hCommand command commandId
  | commandEnd command commandId status duration =>
    simp only [HelperCall.appended, List.forall_mem_append]
    exact ⟨hCommand command commandId, by decide, hDigits status, by decide, hDigits duration⟩
  | promptReady promptGeneration =>
    cases promptGeneration with
    | none => exact List.forall_mem_nil _
    | some promptGeneration =>
      simp only [HelperCall.appended, List.forall_mem_append]
      exact ⟨by decide, hDigits promptGeneration⟩
  | lineState promptGeneration lineLength cursorIndex =>
    simp only [HelperCall.appended, List.forall_mem_append]
    exact ⟨by decide, hDigits promptGeneration, by decide, hDigits lineLength, by decide, hDigits cursorIndex⟩

theorem ascii_helperJson (hVersion : ∀ u ∈ helperVersion, isVersionUnit u = true) :
    ∀ u ∈ helperJson shell helperVersion timestamp call, u < 0x80 := by
  have hName : ∀ u ∈ call.name.text, u < 0x80 := by
    have hNames : ∀ name ∈ REMOTE_SHELL_EVENT_NAMES, ∀ u ∈ name.text, u < 0x80 := by decide
    exact hNames _ (name_mem call)
  have hShell : ∀ u ∈ shell.text, u < 0x80 := by cases shell <;> decide
  have hCapabilities : ∀ u ∈ capabilitiesJSON (HelperCapabilities shell), u < 0x80 := by cases shell <;> decide
  have hUnits : ∀ u ∈ helperVersion, u < 0x80 := fun u hu => lt_of_isPlain (plain_of_isVersionUnit (hVersion u hu))
  have hTime : ∀ u ∈ Json.digits timestamp, u < 0x80 :=
    fun _ hu => lt_of_isPlain (plain_of_isDigit (Json.isDigit_of_mem_digits hu))
  simp only [helperJson, List.forall_mem_append]
  exact ⟨by decide, hName, by decide, hShell, by decide, hUnits, by decide, by decide, by decide, hCapabilities, by decide, hTime,
    ascii_appended call, by decide⟩

theorem quiet_helperPayload (shell : RemoteShellName) (helperVersion : CodeUnits) (timestamp : Nat) (call : HelperCall) :
    Quiet (helperPayload shell helperVersion timestamp call) :=
  quiet_of_plain fun _ hu => plain_of_isBase64Unit (Base64.isBase64Unit_of_mem_encode hu)

theorem decoded_helperPayload (hVersion : ∀ u ∈ helperVersion, isVersionUnit u = true) :
    Utf16.ofBytes (Base64.decode ((helperPayload shell helperVersion timestamp call).map UInt16.toNat)) =
      helperJson shell helperVersion timestamp call := by
  have hUnits : ∀ u ∈ Base64.encode ((helperJson shell helperVersion timestamp call).map Nat.toUInt8), u < 0x80 :=
    fun _ hu => lt_of_isPlain (plain_of_isBase64Unit (Base64.isBase64Unit_of_mem_encode hu))
  rw [helperPayload, toNat_toOutput hUnits, Base64.decode_encode, Utf16.ofBytes_ascii (ascii_helperJson hVersion)]

theorem parseRemoteShellEventPayload_eq (hNonempty : helperVersion ≠ []) (hVersion : ∀ u ∈ helperVersion, isVersionUnit u = true)
    (hTimestamp : timestamp ≤ MAX_SAFE_INTEGER) (hCall : call.Emitted shell) (hNumbers : ∀ n ∈ call.numbers, n ≤ MAX_SAFE_INTEGER)
    (hFits : (helperJson shell helperVersion timestamp call).length ≤ REMOTE_SHELL_EVENT_OSC_PAYLOAD_MAX_BYTES) :
    parseRemoteShellEventPayload numbers (helperPayload shell helperVersion timestamp call) =
      some (helperMessage shell helperVersion timestamp (call.eventWith withoutMark)) := by
  rw [← CodeUnits.byteLength_of_ascii (ascii_helperJson hVersion)] at hFits
  rw [parseRemoteShellEventPayload, decoded_helperPayload hVersion]
  rw [if_neg (Nat.not_lt.mpr hFits), helperJson_eq numbers hVersion hTimestamp hNumbers,
    Json.parse_stringify numbers.toNumberText (distinct_helperFields numbers shell helperVersion timestamp call)]
  exact normalizeRemoteShellEvent_eq numbers hNonempty hVersion hTimestamp hCall hNumbers

end

structure RoundTrips (shell : RemoteShellName) (helperVersion : CodeUnits) (timestamp : Nat) (call : HelperCall) : Prop where
  frame : WellFormedFrame (parseRemoteShellEventPayload numbers) (helperPayload shell helperVersion timestamp call) [BELL]
    (helperMessage shell helperVersion timestamp (call.eventWith id))
  delivered : ∀ front chunks, (parserAfter (parseRemoteShellEventPayload numbers) front).OutsidePayload →
    (parserAfter (parseRemoteShellEventPayload numbers) front).HoldsNothing →
      chunks.flatten = emitRemoteShellEvent shell helperVersion timestamp call →
        Delivered (parseRemoteShellEventPayload numbers) (parserAfter (parseRemoteShellEventPayload numbers) front) chunks
          (helperMessage shell helperVersion timestamp (call.eventWith id))

def HelperCall.command : HelperCall → Option (List Char)
  | commandStart command _ | foregroundCommand command _ | commandEnd command _ _ _ => some command
  | _ => none

theorem withoutMark_eq {text : List Char} (h : text.head? ≠ some byteOrderMark) : withoutMark text = text := by
  cases text with
  | nil => rfl
  | cons c text => exact if_neg fun hMark => h (congrArg some hMark)

theorem eventWith_withoutMark {call : HelperCall} (h : ∀ command ∈ call.command, command.head? ≠ some byteOrderMark) :
    call.eventWith withoutMark = call.eventWith id := by
  have hSame : ∀ command ∈ call.command, withoutMark command = command := fun command hc => withoutMark_eq (h command hc)
  cases call with
  | commandStart command commandId => rw [HelperCall.eventWith, hSame command rfl]; rfl
  | foregroundCommand command commandId => rw [HelperCall.eventWith, hSame command rfl]; rfl
  | commandEnd command commandId status duration => rw [HelperCall.eventWith, hSame command rfl]; rfl
  | _ => rfl

theorem emitted_event_round_trips {shell : RemoteShellName} {helperVersion : CodeUnits} {timestamp : Nat} {call : HelperCall}
    (hNonempty : helperVersion ≠ []) (hVersion : ∀ u ∈ helperVersion, isVersionUnit u = true) (hLength : helperVersion.length ≤ 200)
    (hTimestamp : timestamp ≤ MAX_SAFE_INTEGER) (hCall : call.Emitted shell) (hNumbers : ∀ n ∈ call.numbers, n ≤ MAX_SAFE_INTEGER)
    (hMark : ∀ command ∈ call.command, command.head? ≠ some byteOrderMark) : RoundTrips numbers shell helperVersion timestamp call := by
  have hQuiet := quiet_helperPayload shell helperVersion timestamp call
  have hPayload := length_helperPayload_le hLength hTimestamp hCall hNumbers
  have hFrame : WellFormedFrame (parseRemoteShellEventPayload numbers) (helperPayload shell helperVersion timestamp call) [BELL]
      (helperMessage shell helperVersion timestamp (call.eventWith id)) := by
    constructor
    · exact .inl rfl
    · exact hQuiet.complete
    · rw [hQuiet.byteLength_eq]
      exact hPayload
    · have hJson := (length_helperJson_le hLength hTimestamp hCall hNumbers).trans (by decide : 6144 ≤ 8192)
      rw [parseRemoteShellEventPayload_eq numbers hNonempty hVersion hTimestamp hCall hNumbers hJson, eventWith_withoutMark hMark]
  refine ⟨hFrame, fun front chunks hOutside hNothing hChunks => ?_⟩
  apply (frame_is_delivered_iff (parseRemoteShellEventPayload numbers) hOutside hFrame hChunks).mpr
  refine ⟨hNothing, ?_⟩
  rw [List.dropLast_concat, Framing.Oversized]
  show ¬REMOTE_SHELL_EVENT_OSC_PAYLOAD_MAX_BYTES < ((helperPayload shell helperVersion timestamp call).map unitBytes).sum
  rw [hQuiet.sum_unitBytes]
  exact Nat.not_lt.mpr hPayload

end

def integerNumbers : Numbers Int where
  toNumberText := Json.integers
  whole := some
  whole_ofNat _ _ := rfl

theorem commandEnd_round_trips : RoundTrips integerNumbers .bash (ascii "0.1.0") 1700000000000
    (.commandEnd ['l', 's'] ⟨1700000000000, 1⟩ 0 25) :=
  emitted_event_round_trips integerNumbers (by decide) (by decide) (by decide) (by decide)
    ⟨by decide, ⟨by decide, by decide, by decide, by decide, by decide⟩, by decide⟩ (by decide) (by decide)

theorem not_round_trips : HelperCall.Emitted .bash (.commandEnd ['l', 's'] ⟨0, 1⟩ 0 (2 ^ 53)) ∧
      ¬RoundTrips integerNumbers .bash (ascii "0.1.0") 0 (.commandEnd ['l', 's'] ⟨0, 1⟩ 0 (2 ^ 53)) ∧
      HelperCall.Emitted .bash (.commandStart ['\ufeff', 'l', 's'] ⟨0, 1⟩) ∧
      ¬RoundTrips integerNumbers .bash (ascii "0.1.0") 0 (.commandStart ['\ufeff', 'l', 's'] ⟨0, 1⟩) := by
  have hMarked : HelperCall.Emitted .bash (.commandStart ['\ufeff', 'l', 's'] ⟨0, 1⟩) :=
    ⟨by decide, by decide, by decide, by decide, by decide, by decide⟩
  have hLong : HelperCall.Emitted .bash (.commandEnd ['l', 's'] ⟨0, 1⟩ 0 (2 ^ 53)) :=
    ⟨by decide, ⟨by decide, by decide, by decide, by decide, by decide⟩, by decide⟩
  refine ⟨hLong, ?_, hMarked, ?_⟩
  · rintro ⟨hFrame, -⟩
    have hDuration : 2 ^ 53 ≤ MAX_SAFE_INTEGER :=
      le_of_parseRemoteShellEventPayload integerNumbers hFrame.decodes (2 ^ 53) (List.mem_cons_of_mem _ (List.mem_singleton_self _))
    exact absurd hDuration (by decide)
  · rintro ⟨hFrame, -⟩
    have hJson := (length_helperJson_le (by decide : (ascii "0.1.0").length ≤ 200) (Nat.zero_le _) hMarked (List.forall_mem_nil _)).trans
      (by decide : 6144 ≤ 8192)
    have hDecoded : parseRemoteShellEventPayload integerNumbers (helperPayload .bash (ascii "0.1.0") 0 _) =
        some (helperMessage .bash (ascii "0.1.0") 0 _) :=
      parseRemoteShellEventPayload_eq integerNumbers (by decide) (by decide) (by decide) hMarked (List.forall_mem_nil _) hJson
    have hSame := congrArg RemoteShellEventMessage.event (Option.some.inj (hDecoded.symm.trans hFrame.decodes))
    have hCommand := (RemoteShellEvent.commandStart.inj hSame).1
    exact absurd hCommand (by decide)

end Terminal
