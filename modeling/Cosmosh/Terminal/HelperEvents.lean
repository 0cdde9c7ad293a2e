import Cosmosh.Terminal.RemoteShellDecoding

/-! # The events the helper emits

The helper writes a JSON object by hand.
-/

namespace Terminal

open Library Library.CodeUnits

def RemoteShellProtocolVersion : Nat := 2

def fullRemoteShellCapabilities : List RemoteShellCapability := [.cwd, .commandStart, .commandEnd, .foregroundCommand, .promptReady]

def zshRemoteShellCapabilities : List RemoteShellCapability := fullRemoteShellCapabilities ++ [.lineState]

def degradedRemoteShellCapabilities : List RemoteShellCapability := [.cwd, .promptReady]

def HelperCapabilities : RemoteShellName → List RemoteShellCapability
  | .sh | .ash => degradedRemoteShellCapabilities
  | .zsh => zshRemoteShellCapabilities
  | .bash | .fish => fullRemoteShellCapabilities

def capabilitiesJSON (capabilities : List RemoteShellCapability) : CodeUnits :=
  ascii "[" ++ ((ascii ",").intercalate (capabilities.map fun capability => ascii "\"" ++ capability.text ++ ascii "\"") ++ ascii "]")

structure CommandId where
  startedAt : Nat
  sequence : Nat
  deriving DecidableEq

def CommandId.text (commandId : CommandId) : CodeUnits := Json.digits commandId.startedAt ++ (ascii "-" ++ Json.digits commandId.sequence)

inductive HelperCall
  | integrationReady
  | cwd (pwd : List Char)
  | commandStart (command : List Char) (commandId : CommandId)
  | foregroundCommand (command : List Char) (commandId : CommandId)
  | commandEnd (command : List Char) (commandId : CommandId) (status duration : Nat)
  | promptReady (promptGeneration : Option Nat)
  | lineState (promptGeneration lineLength cursorIndex : Nat)
  deriving DecidableEq

def base64Value (value : List Char) : CodeUnits := Base64.encode (Utf8.encode value)

namespace HelperCall

def name : HelperCall → RemoteShellEventName
  | integrationReady => .integrationReady
  | cwd _ => .capability .cwd
  | commandStart _ _ => .capability .commandStart
  | foregroundCommand _ _ => .capability .foregroundCommand
  | commandEnd _ _ _ _ => .capability .commandEnd
  | promptReady _ => .capability .promptReady
  | lineState _ _ _ => .capability .lineState

def commandText (command : List Char) (commandId : CommandId) : CodeUnits :=
  ascii ",\"commandBase64\":\"" ++ (base64Value command ++ (ascii "\",\"commandId\":\"" ++ (commandId.text ++ ascii "\"")))

def appended : HelperCall → CodeUnits
  | integrationReady => []
  | cwd pwd => ascii ",\"cwdBase64\":\"" ++ (base64Value pwd ++ ascii "\"")
  | commandStart command commandId | foregroundCommand command commandId => commandText command commandId
  | commandEnd command commandId status duration =>
    commandText command commandId ++
      (ascii ",\"exitCode\":" ++ (Json.digits status ++ (ascii ",\"durationMs\":" ++ Json.digits duration)))
  | promptReady none => []
  | promptReady (some promptGeneration) => ascii ",\"promptGeneration\":" ++ Json.digits promptGeneration
  | lineState promptGeneration lineLength cursorIndex =>
    ascii ",\"promptGeneration\":" ++ (Json.digits promptGeneration ++ (ascii ",\"lineLength\":" ++
      (Json.digits lineLength ++ (ascii ",\"cursorIndex\":" ++ Json.digits cursorIndex))))

end HelperCall

section

variable (shell : RemoteShellName) (helperVersion : CodeUnits) (timestamp : Nat) (call : HelperCall)

def helperJson : CodeUnits :=
  ascii "\x7b\"event\":\"" ++ (call.name.text ++ (ascii "\",\"shell\":\"" ++ (shell.text ++ (ascii "\",\"helperVersion\":\"" ++
    (helperVersion ++ (ascii "\",\"protocolVersion\":" ++ (Json.digits RemoteShellProtocolVersion ++
      (ascii ",\"capabilities\":" ++ (capabilitiesJSON (HelperCapabilities shell) ++
        (ascii ",\"timestamp\":" ++ (Json.digits timestamp ++ (call.appended ++ ascii "\x7d"))))))))))))

def helperPayload : Output := toOutput (Base64.encode ((helperJson shell helperVersion timestamp call).map Nat.toUInt8))

/-- What is printed where the output is a terminal or a captured prompt, and `base64` is there. -/
def emitRemoteShellEvent : Output := COSMOSH_OSC_PREFIX ++ (helperPayload shell helperVersion timestamp call ++ [BELL])

end

def HelperCall.Emitted (shell : RemoteShellName) : HelperCall → Prop
  | integrationReady => True
  | cwd pwd => pwd.head? = some '/' ∧ '\x00' ∉ pwd ∧ (Utf8.encode pwd).length ≤ REMOTE_SHELL_CWD_MAX_BYTES
  | commandStart command commandId => RemoteShellCapability.commandStart ∈ HelperCapabilities shell ∧ Accepted command commandId
  | foregroundCommand command commandId => RemoteShellCapability.foregroundCommand ∈ HelperCapabilities shell ∧ Accepted command commandId
  | commandEnd command commandId status _ =>
    RemoteShellCapability.commandEnd ∈ HelperCapabilities shell ∧ Accepted command commandId ∧ status ≤ 255
  | promptReady promptGeneration =>
    -- fish writes the generation in any case, and `zsh` has to
    promptGeneration = none → shell ≠ .fish ∧ RemoteShellCapability.lineState ∉ HelperCapabilities shell
  | lineState _ lineLength cursorIndex =>
    RemoteShellCapability.lineState ∈ HelperCapabilities shell ∧ lineLength ≤ REMOTE_SHELL_LINE_LENGTH_MAX ∧ cursorIndex ≤ lineLength
where
  Accepted (command : List Char) (commandId : CommandId) : Prop :=
    withoutMark command ≠ [] ∧ (∀ c ∈ command, isControl c = false) ∧ (Utf8.encode command).length ≤ REMOTE_SHELL_COMMAND_MAX_BYTES ∧
      commandId.startedAt < 2 ^ 63 ∧ commandId.sequence < 2 ^ 63

def HelperCall.numbers : HelperCall → List Nat
  | integrationReady | cwd _ | commandStart _ _ | foregroundCommand _ _ | promptReady none => []
  | commandEnd _ _ status duration => [status, duration]
  | promptReady (some promptGeneration) => [promptGeneration]
  | lineState promptGeneration lineLength cursorIndex => [promptGeneration, lineLength, cursorIndex]

section

variable {ν : Type} (numbers : Numbers ν)

def wholeNumber (n : Nat) : Json ν := .number (numbers.ofNat n)

def commandFields (command : List Char) (commandId : CommandId) : List (CodeUnits × Json ν) :=
  [(ascii "commandBase64", .string (base64Value command)), (ascii "commandId", .string commandId.text)]

def HelperCall.fields : HelperCall → List (CodeUnits × Json ν)
  | integrationReady => []
  | cwd pwd => [(ascii "cwdBase64", .string (base64Value pwd))]
  | commandStart command commandId | foregroundCommand command commandId => commandFields command commandId
  | commandEnd command commandId status duration =>
    commandFields command commandId ++
      [(ascii "exitCode", wholeNumber numbers status), (ascii "durationMs", wholeNumber numbers duration)]
  | promptReady none => []
  | promptReady (some promptGeneration) => [(ascii "promptGeneration", wholeNumber numbers promptGeneration)]
  | lineState promptGeneration lineLength cursorIndex =>
    [(ascii "promptGeneration", wholeNumber numbers promptGeneration), (ascii "lineLength", wholeNumber numbers lineLength),
      (ascii "cursorIndex", wholeNumber numbers cursorIndex)]

def helperFields (shell : RemoteShellName) (helperVersion : CodeUnits) (timestamp : Nat) (call : HelperCall) :
    List (CodeUnits × Json ν) :=
  (ascii "event", .string call.name.text) :: (ascii "shell", .string shell.text) :: (ascii "helperVersion", .string helperVersion) ::
    (ascii "protocolVersion", wholeNumber numbers RemoteShellProtocolVersion) ::
      (ascii "capabilities", .array ((HelperCapabilities shell).map fun capability => .string capability.text)) ::
        (ascii "timestamp", wholeNumber numbers timestamp) :: call.fields numbers

theorem plain_of_isDigit {u : Nat} (h : isDigit u = true) : Json.isPlain u = true := by
  simp only [isDigit, Bool.and_eq_true, decide_eq_true_eq] at h
  simp only [Json.isPlain, Bool.and_eq_true, decide_eq_true_eq]
  omega

theorem plain_of_isVersionUnit {u : Nat} (h : isVersionUnit u = true) : Json.isPlain u = true := by
  simp only [isVersionUnit, isDigit, ofAscii, List.map_cons, List.map_nil, Bool.or_eq_true, Bool.and_eq_true, decide_eq_true_eq,
    List.mem_cons, List.not_mem_nil, or_false] at h
  simp only [Json.isPlain, Bool.and_eq_true, decide_eq_true_eq]
  have hDot : '.'.toNat = 46 := rfl
  have hLine : '_'.toNat = 95 := rfl
  have hPlus : '+'.toNat = 43 := rfl
  have hMinus : '-'.toNat = 45 := rfl
  omega

theorem plain_of_isBase64Unit {u : Nat} (h : Base64.isBase64Unit u = true) : Json.isPlain u = true := by
  simp only [Base64.isBase64Unit, isDigit, Base64.padding, Bool.or_eq_true, Bool.and_eq_true, decide_eq_true_eq,
    List.mem_cons, List.not_mem_nil, or_false] at h
  simp only [Json.isPlain, Bool.and_eq_true, decide_eq_true_eq]
  omega

theorem quote_base64Value (value : List Char) : Json.quote (base64Value value) = 0x22 :: (base64Value value ++ [0x22]) :=
  Json.quote_plain fun _ hu => plain_of_isBase64Unit (Base64.isBase64Unit_of_mem_encode hu)

theorem plain_commandId (commandId : CommandId) : ∀ u ∈ commandId.text, Json.isPlain u = true := by
  intro u hu
  obtain hStart | hRest := List.mem_append.mp hu
  · exact plain_of_isDigit (Json.isDigit_of_mem_digits hStart)
  · obtain hDash | hSequence := List.mem_append.mp hRest
    · obtain rfl := List.mem_singleton.mp hDash
      rfl
    · exact plain_of_isDigit (Json.isDigit_of_mem_digits hSequence)

theorem quote_commandId (commandId : CommandId) : Json.quote commandId.text = 0x22 :: (commandId.text ++ [0x22]) :=
  Json.quote_plain (plain_commandId commandId)

theorem stringify_wholeNumber {n : Nat} (h : n ≤ MAX_SAFE_INTEGER) :
    Json.stringify numbers.toNumberText (wholeNumber numbers n) = Json.digits n := numbers.toText_ofNat n (Nat.lt_of_le_of_lt h (by decide))

variable (shell : RemoteShellName)

theorem stringify_capabilities :
    Json.stringify numbers.toNumberText (.array ((HelperCapabilities shell).map fun capability => .string capability.text)) =
      capabilitiesJSON (HelperCapabilities shell) := by
  cases shell <;> rfl

theorem quote_shell : Json.quote shell.text = 0x22 :: (shell.text ++ [0x22]) := by
  cases shell <;> rfl

theorem appended_eq {call : HelperCall} (hNumbers : ∀ n ∈ call.numbers, n ≤ MAX_SAFE_INTEGER) :
    ((call.fields numbers).flatMap fun field => 0x2c :: (Json.quote field.1 ++ 0x3a :: Json.stringify numbers.toNumberText field.2)) =
      call.appended := by
  have hWhole : ∀ n ∈ call.numbers, Json.stringify numbers.toNumberText (wholeNumber numbers n) = Json.digits n :=
    fun n hn => stringify_wholeNumber numbers (hNumbers n hn)
  cases call with
  | integrationReady => rfl
  | cwd pwd =>
    simp only [HelperCall.fields, List.flatMap_cons, List.flatMap_nil, Json.stringify, quote_base64Value, List.append_nil]
    rfl
  | commandStart command commandId =>
    simp only [HelperCall.fields, commandFields, List.flatMap_cons, List.flatMap_nil, Json.stringify, quote_base64Value,
      quote_commandId, List.append_nil, List.append_assoc, List.cons_append]
    rfl
  | foregroundCommand command commandId =>
    simp only [HelperCall.fields, commandFields, List.flatMap_cons, List.flatMap_nil, Json.stringify, quote_base64Value,
      quote_commandId, List.append_nil, List.append_assoc, List.cons_append]
    rfl
  | commandEnd command commandId status duration =>
    simp only [HelperCall.numbers, List.forall_mem_cons] at hWhole
    simp only [HelperCall.fields, commandFields, List.flatMap_append, List.flatMap_cons, List.flatMap_nil, Json.stringify,
      quote_base64Value, quote_commandId, hWhole.1, hWhole.2.1, HelperCall.appended, HelperCall.commandText, List.append_nil,
      List.append_assoc, List.cons_append]
    rfl
  | promptReady promptGeneration =>
    cases promptGeneration with
    | none => rfl
    | some promptGeneration =>
      simp only [HelperCall.numbers, List.forall_mem_cons] at hWhole
      simp only [HelperCall.fields, List.flatMap_cons, List.flatMap_nil, hWhole.1, List.append_nil]
      rfl
  | lineState promptGeneration lineLength cursorIndex =>
    simp only [HelperCall.numbers, List.forall_mem_cons] at hWhole
    simp only [HelperCall.fields, List.flatMap_cons, List.flatMap_nil, hWhole.1, hWhole.2.1, hWhole.2.2.1, List.append_nil,
      List.append_assoc, List.cons_append]
    rfl

theorem quote_name (call : HelperCall) : Json.quote call.name.text = 0x22 :: (call.name.text ++ [0x22]) := by
  cases call <;> rfl

theorem helperJson_eq {shell : RemoteShellName} {helperVersion : CodeUnits} {timestamp : Nat} {call : HelperCall}
    (hVersion : ∀ u ∈ helperVersion, isVersionUnit u = true) (hTimestamp : timestamp ≤ MAX_SAFE_INTEGER)
    (hNumbers : ∀ n ∈ call.numbers, n ≤ MAX_SAFE_INTEGER) : helperJson shell helperVersion timestamp call =
      Json.stringify numbers.toNumberText (.object (helperFields numbers shell helperVersion timestamp call)) := by
  have hQuote : Json.quote helperVersion = 0x22 :: (helperVersion ++ [0x22]) :=
    Json.quote_plain fun u hu => plain_of_isVersionUnit (hVersion u hu)
  have hProtocol : Json.stringify numbers.toNumberText (wholeNumber numbers RemoteShellProtocolVersion) =
      Json.digits RemoteShellProtocolVersion := stringify_wholeNumber numbers (by decide)
  rw [helperFields, Json.stringify, Json.stringifyFields_cons]
  simp only [List.flatMap_cons, appended_eq numbers hNumbers, stringify_wholeNumber numbers hTimestamp, hProtocol,
    stringify_capabilities]
  simp only [Json.stringify, quote_name, quote_shell, hQuote, List.append_assoc, List.cons_append]
  rfl

theorem distinct_helperFields (helperVersion : CodeUnits) (timestamp : Nat) (call : HelperCall) :
    (Json.object (helperFields numbers shell helperVersion timestamp call)).Distinct := by
  have hCapabilities : Json.DistinctItems ((HelperCapabilities shell).map fun capability => (.string capability.text : Json ν)) := by
    cases shell <;> simp [HelperCapabilities, fullRemoteShellCapabilities, zshRemoteShellCapabilities,
      degradedRemoteShellCapabilities, Json.DistinctItems, Json.Distinct]
  have hFields : Json.DistinctFields (call.fields numbers) := by
    cases call with
    | promptReady promptGeneration => cases promptGeneration <;> simp [HelperCall.fields, Json.DistinctFields, Json.Distinct, wholeNumber]
    | _ => simp [HelperCall.fields, commandFields, Json.DistinctFields, Json.Distinct, wholeNumber]
  constructor
  · cases call with
    | promptReady promptGeneration =>
      cases promptGeneration <;>
        simp only [helperFields, HelperCall.fields, List.map_cons, List.map_nil] <;> decide
    | _ =>
      simp only [helperFields, HelperCall.fields, commandFields, List.cons_append, List.nil_append, List.map_cons, List.map_nil]
      decide
  · exact ⟨trivial, trivial, trivial, trivial, hCapabilities, trivial, hFields⟩

end

end Terminal
