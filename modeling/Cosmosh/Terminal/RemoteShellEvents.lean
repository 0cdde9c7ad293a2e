import Mathlib.Data.List.Basic
import Mathlib.Data.List.Infix

/-! # Events in the output of a remote shell

The helper in a remote shell writes its events into the terminal output, between an introducer and a terminator.
-/

namespace Terminal

abbrev CodeUnit := UInt16

abbrev Output := List CodeUnit

def codeUnit (c : Char) : CodeUnit := c.toNat.toUInt16

def REMOTE_SHELL_EVENT_OSC_PAYLOAD_MAX_BYTES : Nat := 8 * 1024

def ESCAPE : CodeUnit := 0x1b

def BELL : CodeUnit := 0x07

def STRING_TERMINATOR : Output := [ESCAPE, codeUnit '\\']

def COSMOSH_OSC_PREFIX : Output := ESCAPE :: [']', '7', '7', '7', ';', 'c', 'o', 's', 'm', 'o', 's', 'h', ';'].map codeUnit

/-- `Buffer.byteLength` of one code unit: half a surrogate pair counts as a replacement character. -/
def unitBytes (unit : CodeUnit) : Nat :=
  if unit < 0x80 then 1 else if unit < 0x800 then 2 else 3

def isHighSurrogate (unit : CodeUnit) : Bool := 0xd800 ≤ unit && unit < 0xdc00

def isLowSurrogate (unit : CodeUnit) : Bool := 0xdc00 ≤ unit && unit < 0xe000

/-- `Buffer.byteLength`: a surrogate pair takes four bytes. -/
def byteLength : Output → Nat
  | [] => 0
  | [unit] => unitBytes unit
  | high :: low :: rest =>
    if isHighSurrogate high && isLowSurrogate low then 4 + byteLength rest
    else unitBytes high + byteLength (low :: rest)

structure RemoteShellEventOscParser where
  pendingEscape : Bool
  pendingOscPrefix : Option Output
  pendingCosmoshOsc : Option Output
  pendingCosmoshPayloadBytes : Nat
  discardingOversizedCosmoshOsc : Bool
  discardSawEscape : Bool
  deriving DecidableEq

def newParser : RemoteShellEventOscParser := ⟨false, none, none, 0, false, false⟩

inductive StreamFrame (Event : Type)
  | output (data : Output)
  | event (event : Event)
  deriving DecidableEq

structure ParsedOscSequence (Event : Type) where
  output : Output
  event : Option Event

def endsFrame (sequence : Output) : Bool := [BELL].isSuffixOf sequence || STRING_TERMINATOR.isSuffixOf sequence

def readSequencePayloadEnd (sequence : Output) : Nat :=
  if STRING_TERMINATOR.isSuffixOf sequence then sequence.length - STRING_TERMINATOR.length else sequence.length - 1

def appendOscPrefixChar (parser : RemoteShellEventOscParser) (pending : Output) (char : CodeUnit) :
    Output × Option Output × RemoteShellEventOscParser :=
  let candidate := pending ++ [char]
  if endsFrame candidate then ([], some candidate, { parser with pendingOscPrefix := none })
  else if candidate = COSMOSH_OSC_PREFIX then
    ([], none, { parser with
      pendingOscPrefix := none, pendingCosmoshOsc := some candidate, pendingCosmoshPayloadBytes := 0 })
  else if candidate.isPrefixOf COSMOSH_OSC_PREFIX then ([], none, { parser with pendingOscPrefix := some candidate })
  else (candidate, none, { parser with pendingOscPrefix := none })

def appendCosmoshOscChar (parser : RemoteShellEventOscParser) (pending : Output) (char : CodeUnit) :
    Option Output × RemoteShellEventOscParser :=
  let sequence := pending ++ [char]
  if endsFrame sequence then
    (some sequence, { parser with pendingCosmoshOsc := none, pendingCosmoshPayloadBytes := 0 })
  else
    let payloadBytes := parser.pendingCosmoshPayloadBytes + unitBytes char
    if REMOTE_SHELL_EVENT_OSC_PAYLOAD_MAX_BYTES < payloadBytes then
      (none, { parser with
        pendingCosmoshOsc := none, pendingCosmoshPayloadBytes := 0, discardingOversizedCosmoshOsc := true
        discardSawEscape := char = ESCAPE })
    else (none, { parser with pendingCosmoshOsc := some sequence, pendingCosmoshPayloadBytes := payloadBytes })

def consumeDiscardedOscChar (parser : RemoteShellEventOscParser) (char : CodeUnit) : RemoteShellEventOscParser :=
  if parser.discardSawEscape then
    { parser with
      discardSawEscape := char = ESCAPE
      discardingOversizedCosmoshOsc := if char = codeUnit '\\' then false else parser.discardingOversizedCosmoshOsc }
  else if char = BELL then { parser with discardingOversizedCosmoshOsc := false }
  else if char = ESCAPE then { parser with discardSawEscape := true }
  else parser

section

variable {Event : Type} (parseRemoteShellEventPayload : Output → Option Event)

def parseCompletedOsc (sequence : Output) : ParsedOscSequence Event :=
  if COSMOSH_OSC_PREFIX.isPrefixOf sequence then
    let payload := (sequence.take (readSequencePayloadEnd sequence)).drop COSMOSH_OSC_PREFIX.length
    if REMOTE_SHELL_EVENT_OSC_PAYLOAD_MAX_BYTES < byteLength payload then ⟨[], none⟩
    else ⟨[], parseRemoteShellEventPayload payload⟩
  else ⟨sequence, none⟩

/-- What `parse` holds between two characters of a chunk. -/
structure ChunkState (Event : Type) where
  parser : RemoteShellEventOscParser
  output : Output
  frames : List (StreamFrame Event)

namespace ChunkState

def flushOutput (state : ChunkState Event) : ChunkState Event :=
  if state.output = [] then state
  else { state with output := [], frames := state.frames ++ [.output state.output] }

def appendParsedOsc (state : ChunkState Event) (parsed : ParsedOscSequence Event) : ChunkState Event :=
  let state := { state with output := state.output ++ parsed.output }
  match parsed.event with
  | none => state
  | some event =>
    let state := state.flushOutput
    { state with frames := state.frames ++ [.event event] }

def parseChar (state : ChunkState Event) (char : CodeUnit) : ChunkState Event :=
  let parser := state.parser
  if parser.discardingOversizedCosmoshOsc then { state with parser := consumeDiscardedOscChar parser char }
  else
    match parser.pendingCosmoshOsc, parser.pendingOscPrefix with
    | some pending, _ =>
      let (completedSequence, parser) := appendCosmoshOscChar parser pending char
      match completedSequence with
      | none => { state with parser }
      | some sequence =>
        { state with parser }.appendParsedOsc (parseCompletedOsc parseRemoteShellEventPayload sequence)
    | none, some pending =>
      let (output, completedSequence, parser) := appendOscPrefixChar parser pending char
      let state := { state with parser, output := state.output ++ output }
      match completedSequence with
      | none => state
      | some sequence => state.appendParsedOsc (parseCompletedOsc parseRemoteShellEventPayload sequence)
    | none, none =>
      if parser.pendingEscape then
        let parser := { parser with pendingEscape := false }
        if char = codeUnit ']' then { state with parser := { parser with pendingOscPrefix := some [ESCAPE, char] } }
        else { state with parser, output := state.output ++ [ESCAPE, char] }
      else if char = ESCAPE then { state with parser := { parser with pendingEscape := true } }
      else { state with output := state.output ++ [char] }

end ChunkState

def parse (parser : RemoteShellEventOscParser) (chunk : Output) :
    List (StreamFrame Event) × RemoteShellEventOscParser :=
  let state := (chunk.foldl (ChunkState.parseChar parseRemoteShellEventPayload) ⟨parser, [], []⟩).flushOutput
  (state.frames, state.parser)

def flush (parser : RemoteShellEventOscParser) : Output × RemoteShellEventOscParser :=
  ((if parser.pendingEscape then [ESCAPE] else []) ++ parser.pendingOscPrefix.getD [] ++
      parser.pendingCosmoshOsc.getD [],
    { parser with
      pendingEscape := false, pendingOscPrefix := none, pendingCosmoshOsc := none
      pendingCosmoshPayloadBytes := if parser.pendingCosmoshOsc.isSome then 0 else parser.pendingCosmoshPayloadBytes
      discardingOversizedCosmoshOsc := false, discardSawEscape := false })

def parseChunks (parser : RemoteShellEventOscParser) : List Output →
    List (StreamFrame Event) × RemoteShellEventOscParser
  | [] => ([], parser)
  | chunk :: chunks =>
    let (frames, parser) := parse parseRemoteShellEventPayload parser chunk
    let (rest, parser) := parseChunks parser chunks
    (frames ++ rest, parser)

end

variable {Event : Type}

def visibleText (frames : List (StreamFrame Event)) : Output :=
  frames.flatMap fun
    | .output data => data
    | .event _ => []

def eventsOf (frames : List (StreamFrame Event)) : List Event :=
  frames.filterMap fun
    | .output _ => none
    | .event event => some event

end Terminal
