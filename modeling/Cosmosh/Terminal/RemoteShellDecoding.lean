import Cosmosh.Library.Base64
import Cosmosh.Library.JsonRoundTrip
import Cosmosh.Library.Utf16
import Cosmosh.Terminal.RemoteHelperGate

/-! # Decoding the events of a remote shell

The payload of a frame is the base64 of a JSON object, and texts of the remote user stand in it in base64 once more.
-/

namespace Terminal

open Library Library.CodeUnits

structure Numbers (ν : Type) extends Json.NumberText ν where
  whole : ν → Option Int
  whole_ofNat : ∀ n < 2 ^ 53, whole (ofNat n) = some (n : Int)

def REMOTE_SHELL_CAPABILITY_MAX_COUNT : Nat := 32

def REMOTE_SHELL_CWD_MAX_BYTES : Nat := 4 * 1024

def REMOTE_SHELL_COMMAND_MAX_BYTES : Nat := 255

def REMOTE_SHELL_LINE_LENGTH_MAX : Nat := 1024 * 1024

def MAX_SAFE_INTEGER : Nat := 2 ^ 53 - 1

def ascii (text : String) : CodeUnits := ofAscii text.toList

def toOutput (units : CodeUnits) : Output := units.map Nat.toUInt16

namespace RemoteShellName

def text : RemoteShellName → CodeUnits
  | bash => ascii "bash"
  | zsh => ascii "zsh"
  | fish => ascii "fish"
  | sh => ascii "sh"
  | ash => ascii "ash"

end RemoteShellName

def REMOTE_SHELL_NAMES : List RemoteShellName := [.bash, .zsh, .fish, .sh, .ash]

namespace RemoteShellCapability

def text : RemoteShellCapability → CodeUnits
  | cwd => ascii "cwd"
  | commandStart => ascii "command-start"
  | commandEnd => ascii "command-end"
  | foregroundCommand => ascii "foreground-command"
  | promptReady => ascii "prompt-ready"
  | lineState => ascii "line-state"

end RemoteShellCapability

def REMOTE_SHELL_CAPABILITIES : List RemoteShellCapability := [.cwd, .commandStart, .commandEnd, .foregroundCommand, .promptReady, .lineState]

inductive RemoteShellEventName
  | integrationReady
  | capability (name : RemoteShellCapability)
  deriving DecidableEq

namespace RemoteShellEventName

def text : RemoteShellEventName → CodeUnits
  | integrationReady => ascii "integration-ready"
  | capability name => name.text

end RemoteShellEventName

def REMOTE_SHELL_EVENT_NAMES : List RemoteShellEventName :=
  .integrationReady :: [.promptReady, .cwd, .commandStart, .commandEnd, .foregroundCommand, .lineState].map .capability

section

variable {ν : Type} (numbers : Numbers ν)

abbrev Field (ν : Type) := Option (Json ν)

def readName {α : Type} (text : α → CodeUnits) (all : List α) : Field ν → Option α
  | some (.string name) => all.find? fun a => text a = name
  | _ => none

/-- `^[A-Za-z0-9._+-]+$` -/
def isVersionUnit (u : Nat) : Bool := isDigit u || (0x41 ≤ u && u ≤ 0x5a) || (0x61 ≤ u && u ≤ 0x7a) || u ∈ ofAscii ['.', '_', '+', '-']

def readHelperVersion : Field ν → Option CodeUnits
  | some (.string version) => if version ≠ [] ∧ version.all isVersionUnit then some version else none
  | _ => none

def readProtocolVersion : Field ν → Option Nat
  | some (.number value) => (numbers.whole value).bind fun n => if n < 1 then none else some n.toNat
  | _ => none

/-- `Number.isSafeInteger`, with the integer. -/
def safeInteger? (value : ν) : Option Int := (numbers.whole value).filter fun n => -MAX_SAFE_INTEGER ≤ n ∧ n ≤ MAX_SAFE_INTEGER

def readTimestamp : Field ν → Option Nat
  | some (.number value) => (safeInteger? numbers value).bind fun n => if n < 0 then none else some n.toNat
  | _ => none

def normalizeBoundedInteger (minimum maximum : Nat) : Field ν → Option Nat
  | some (.number value) =>
    (safeInteger? numbers value).bind fun n => if n < minimum ∨ maximum < n then none else some n.toNat
  | _ => none

def collectCapabilities (known : List RemoteShellCapability) : List (Json ν) → Option (List RemoteShellCapability)
  | [] => some known
  | item :: items => do
    let capability ← readName RemoteShellCapability.text REMOTE_SHELL_CAPABILITIES (some item)
    if capability ∈ known then none else collectCapabilities (known ++ [capability]) items

def normalizeCapabilities : Field ν → Option (List RemoteShellCapability)
  | some (.array items) =>
    if items = [] ∨ REMOTE_SHELL_CAPABILITY_MAX_COUNT < items.length then none else collectCapabilities [] items
  | _ => none

def byteOrderMark : Char := '\ufeff'

/-- `TextDecoder.decode` passes over a byte order mark at the front. -/
def withoutMark : List Char → List Char
  | c :: text => if c = byteOrderMark then text else c :: text
  | [] => []

/-- `new TextDecoder('utf-8', { fatal: true }).decode` -/
def decodeFatal (bytes : List Utf8.Byte) : Option CodeUnits :=
  if Utf8.WellFormed bytes then some (Utf16.ofText (withoutMark (Utf8.decode bytes))) else none

def decodeBoundedBase64Utf8 (maxBytes : Nat) : Field ν → Option CodeUnits
  | some (.string value) =>
    if value.length = 0 ∨ (maxBytes + 2) / 3 * 4 + 4 < value.length then none
    else
      let decodedBytes := Base64.decode value
      if decodedBytes.length = 0 ∨ maxBytes < decodedBytes.length ∨ Base64.encode decodedBytes ≠ value then none
      else decodeFatal decodedBytes
  | _ => none

/-- `^[A-Za-z0-9._:-]+$` -/
def isCommandIdUnit (u : Nat) : Bool := isDigit u || (0x41 ≤ u && u ≤ 0x5a) || (0x61 ≤ u && u ≤ 0x7a) || u ∈ ofAscii ['.', '_', ':', '-']

def normalizeCommandId : Field ν → Option CodeUnits
  | some (.string value) =>
    if value.length = 0 ∨ 128 < value.length ∨ ¬ value.all isCommandIdUnit then none else some value
  | _ => none

def isControl (c : Char) : Bool := c.toNat ≤ 0x1f || c.toNat = 0x7f

def containsAsciiControlCharacter (value : CodeUnits) : Bool := (Utf16.toText value).any isControl

def readCwd (cwd : CodeUnits) : Option RemoteShellEvent :=
  if cwd = [] ∨ cwd.head? ≠ some 0x2f ∨ 0 ∈ cwd then none else some (.cwd (toOutput cwd))

def readPromptReady (capabilities : List RemoteShellCapability) : Option Nat → Option RemoteShellEvent
  | none => if .lineState ∈ capabilities then none else some (.promptReady none)
  | some promptGeneration => some (.promptReady (some promptGeneration))

def readLineState (lineLength cursorIndex promptGeneration : Nat) : Option RemoteShellEvent :=
  if lineLength < cursorIndex then none else some (.lineState lineLength cursorIndex promptGeneration)

def readCommand (command : CodeUnits) : Option Output :=
  if command = [] ∨ containsAsciiControlCharacter command then none else some (toOutput command)

variable (field : String → Field ν)

def commandOf : Option Output := (decodeBoundedBase64Utf8 REMOTE_SHELL_COMMAND_MAX_BYTES (field "commandBase64")).bind readCommand

def commandIdOf : Option Output := (normalizeCommandId (field "commandId")).map toOutput

def readEvent (capabilities : List RemoteShellCapability) : RemoteShellCapability → Option RemoteShellEvent
  | .promptReady =>
    readPromptReady capabilities (normalizeBoundedInteger numbers 0 MAX_SAFE_INTEGER (field "promptGeneration"))
  | .cwd => (decodeBoundedBase64Utf8 REMOTE_SHELL_CWD_MAX_BYTES (field "cwdBase64")).bind readCwd
  | .lineState => do
    let lineLength ← normalizeBoundedInteger numbers 0 REMOTE_SHELL_LINE_LENGTH_MAX (field "lineLength")
    let cursorIndex ← normalizeBoundedInteger numbers 0 REMOTE_SHELL_LINE_LENGTH_MAX (field "cursorIndex")
    let promptGeneration ← normalizeBoundedInteger numbers 0 MAX_SAFE_INTEGER (field "promptGeneration")
    readLineState lineLength cursorIndex promptGeneration
  | .commandStart => return .commandStart (← commandOf field) (← commandIdOf field)
  | .foregroundCommand => return .foregroundCommand (← commandOf field) (← commandIdOf field)
  | .commandEnd => do
    let command ← commandOf field
    let commandId ← commandIdOf field
    let exitCode ← normalizeBoundedInteger numbers 0 255 (field "exitCode")
    let durationMs ← normalizeBoundedInteger numbers 0 MAX_SAFE_INTEGER (field "durationMs")
    return .commandEnd command commandId exitCode durationMs

def readNamedEvent (capabilities : List RemoteShellCapability) : RemoteShellEventName → Option RemoteShellEvent
  | .integrationReady => some .integrationReady
  | .capability capability => if capability ∉ capabilities then none else readEvent numbers field capabilities capability

def normalizeFields : Option RemoteShellEventMessage := do
  let name ← readName RemoteShellEventName.text REMOTE_SHELL_EVENT_NAMES (field "event")
  let shell ← readName RemoteShellName.text REMOTE_SHELL_NAMES (field "shell")
  let helperVersion ← readHelperVersion (field "helperVersion")
  let protocolVersion ← readProtocolVersion numbers (field "protocolVersion")
  let capabilities ← normalizeCapabilities (field "capabilities")
  let timestamp ← readTimestamp numbers (field "timestamp")
  let event ← readNamedEvent numbers field capabilities name
  return ⟨shell, toOutput helperVersion, protocolVersion, capabilities, timestamp, event⟩

def normalizeRemoteShellEvent : Json ν → Option RemoteShellEventMessage
  | .object fields => normalizeFields numbers fun name => fields.lookup (ascii name)
  | _ => none

def parseRemoteShellEventPayload (payload : Output) : Option RemoteShellEventMessage :=
  let decoded := Utf16.ofBytes (Base64.decode (payload.map UInt16.toNat))
  if REMOTE_SHELL_EVENT_OSC_PAYLOAD_MAX_BYTES < CodeUnits.byteLength decoded then none
  else (Json.parse numbers.toNumberText decoded).bind (normalizeRemoteShellEvent numbers)

def RemoteShellEvent.integers : RemoteShellEvent → List Nat
  | .commandEnd _ _ exitCode durationMs => [exitCode, durationMs]
  | .promptReady promptGeneration => promptGeneration.toList
  | .lineState lineLength cursorIndex promptGeneration => [lineLength, cursorIndex, promptGeneration]
  | _ => []

theorem normalizeBoundedInteger_le {minimum maximum n : Nat} {value : Field ν}
    (h : normalizeBoundedInteger numbers minimum maximum value = some n) : n ≤ maximum := by
  match value, h with
  | some (.number value), h =>
    obtain ⟨whole, -, hWhole⟩ := Option.bind_eq_some_iff.mp h
    split at hWhole
    · cases hWhole
    · rename_i hRange
      cases hWhole
      omega

theorem le_of_readEvent {capabilities : List RemoteShellCapability} {capability : RemoteShellCapability} {event : RemoteShellEvent}
    (h : readEvent numbers field capabilities capability = some event) : ∀ n ∈ event.integers, n ≤ MAX_SAFE_INTEGER := by
  cases capability with
  | promptReady =>
    rw [readEvent] at h
    cases hGeneration : normalizeBoundedInteger numbers 0 MAX_SAFE_INTEGER (field "promptGeneration") with
    | none =>
      rw [hGeneration, readPromptReady] at h
      split at h
      · cases h
      · cases h
        exact List.forall_mem_nil _
    | some promptGeneration =>
      rw [hGeneration] at h
      cases h
      exact List.forall_mem_singleton.mpr (normalizeBoundedInteger_le numbers hGeneration)
  | cwd =>
    obtain ⟨cwd, -, hRead⟩ := Option.bind_eq_some_iff.mp h
    rw [readCwd] at hRead
    split at hRead
    · cases hRead
    · cases hRead
      exact List.forall_mem_nil _
  | lineState =>
    obtain ⟨lineLength, hLength, hRest⟩ := Option.bind_eq_some_iff.mp h
    obtain ⟨cursorIndex, hCursor, hRest⟩ := Option.bind_eq_some_iff.mp hRest
    obtain ⟨promptGeneration, hGeneration, hRead⟩ := Option.bind_eq_some_iff.mp hRest
    rw [readLineState] at hRead
    split at hRead
    · cases hRead
    · cases hRead
      have hBound : REMOTE_SHELL_LINE_LENGTH_MAX ≤ MAX_SAFE_INTEGER := by decide
      rw [RemoteShellEvent.integers, List.forall_mem_cons, List.forall_mem_cons, List.forall_mem_singleton]
      exact ⟨(normalizeBoundedInteger_le numbers hLength).trans hBound, (normalizeBoundedInteger_le numbers hCursor).trans hBound,
        normalizeBoundedInteger_le numbers hGeneration⟩
  | commandStart =>
    obtain ⟨command, -, hRest⟩ := Option.bind_eq_some_iff.mp h
    obtain ⟨commandId, -, hRead⟩ := Option.bind_eq_some_iff.mp hRest
    cases hRead
    exact List.forall_mem_nil _
  | foregroundCommand =>
    obtain ⟨command, -, hRest⟩ := Option.bind_eq_some_iff.mp h
    obtain ⟨commandId, -, hRead⟩ := Option.bind_eq_some_iff.mp hRest
    cases hRead
    exact List.forall_mem_nil _
  | commandEnd =>
    obtain ⟨command, -, hRest⟩ := Option.bind_eq_some_iff.mp h
    obtain ⟨commandId, -, hRest⟩ := Option.bind_eq_some_iff.mp hRest
    obtain ⟨exitCode, hExit, hRest⟩ := Option.bind_eq_some_iff.mp hRest
    obtain ⟨durationMs, hDuration, hRead⟩ := Option.bind_eq_some_iff.mp hRest
    cases hRead
    rw [RemoteShellEvent.integers, List.forall_mem_cons, List.forall_mem_singleton]
    exact ⟨(normalizeBoundedInteger_le numbers hExit).trans (by decide), normalizeBoundedInteger_le numbers hDuration⟩

theorem le_of_readNamedEvent {capabilities : List RemoteShellCapability} {name : RemoteShellEventName} {event : RemoteShellEvent}
    (h : readNamedEvent numbers field capabilities name = some event) : ∀ n ∈ event.integers, n ≤ MAX_SAFE_INTEGER := by
  cases name with
  | integrationReady =>
    cases h
    exact List.forall_mem_nil _
  | capability capability =>
    rw [readNamedEvent] at h
    split at h
    · cases h
    · exact le_of_readEvent numbers field h

theorem le_of_normalizeFields {message : RemoteShellEventMessage} (h : normalizeFields numbers field = some message) :
    ∀ n ∈ message.event.integers, n ≤ MAX_SAFE_INTEGER := by
  obtain ⟨name, -, hRest⟩ := Option.bind_eq_some_iff.mp h
  obtain ⟨shell, -, hRest⟩ := Option.bind_eq_some_iff.mp hRest
  obtain ⟨helperVersion, -, hRest⟩ := Option.bind_eq_some_iff.mp hRest
  obtain ⟨protocolVersion, -, hRest⟩ := Option.bind_eq_some_iff.mp hRest
  obtain ⟨capabilities, -, hRest⟩ := Option.bind_eq_some_iff.mp hRest
  obtain ⟨timestamp, -, hRest⟩ := Option.bind_eq_some_iff.mp hRest
  obtain ⟨event, hEvent, hMessage⟩ := Option.bind_eq_some_iff.mp hRest
  cases hMessage
  exact le_of_readNamedEvent numbers field hEvent

theorem le_of_parseRemoteShellEventPayload {payload : Output} {message : RemoteShellEventMessage}
    (h : parseRemoteShellEventPayload numbers payload = some message) : ∀ n ∈ message.event.integers, n ≤ MAX_SAFE_INTEGER := by
  rw [parseRemoteShellEventPayload] at h
  split at h
  · cases h
  · obtain ⟨value, -, hRead⟩ := Option.bind_eq_some_iff.mp h
    cases value with
    | object fields => exact le_of_normalizeFields numbers (fun name => fields.lookup (ascii name)) hRead
    | _ => cases hRead

end

end Terminal
