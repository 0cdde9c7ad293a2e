import Cosmosh.Library.JsText
import Cosmosh.Library.Transition
import Cosmosh.Library.Utf8
import Cosmosh.Terminal.OscStream

/-! # From the bytes of a remote shell to text

Every chunk of an SSH channel is decoded on its own, in the terminal as well as for a bounded command.
-/

namespace Terminal

open Library Library.Utf8

def utf16 (c : Char) : Output :=
  if c.toNat < 0x10000 then [c.toNat.toUInt16]
  else [(0xd800 + (c.toNat - 0x10000) / 0x400).toUInt16, (0xdc00 + (c.toNat - 0x10000) % 0x400).toUInt16]

/-- `chunk.toString('utf8')`. -/
def decodeChunk (chunk : List Byte) : Output := (decode chunk).flatMap utf16

def utf8Length (text : Text) : Nat := (text.map Char.utf8Size).sum

/-- `settled` is what the promise was resolved with, and `received` is what the channel had brought
by then. -/
structure BoundedExec where
  maxOutputBytes : Nat
  output : Text
  outputBytes : Nat
  opened : Bool
  settled : Option (Option Text)
  received : List (List Byte)

inductive ExecEvent
  | opened (error : Bool)
  | data (chunk : List Byte)
  | error
  | close
  | timeout
  | abort

namespace BoundedExec

variable (run : BoundedExec)

def finish (result : Option Text) : BoundedExec :=
  if run.settled.isSome then run else { run with settled := some result }

def onOpened (error : Bool) : BoundedExec :=
  if run.settled.isSome then run
  else if error then run.finish none
  else { run with opened := true }

def onData (chunk : List Byte) : BoundedExec :=
  let data := decode chunk
  let run : BoundedExec := { run with
    received := if run.settled.isSome then run.received else run.received ++ [chunk]
    outputBytes := run.outputBytes + utf8Length data }
  if run.maxOutputBytes < run.outputBytes then run.finish none else { run with output := run.output ++ data }

end BoundedExec

def stepExec (run : BoundedExec) : ExecEvent → BoundedExec
  | .opened error => run.onOpened error
  | .data chunk => if run.opened then run.onData chunk else run
  | .error => if run.opened then run.finish none else run
  | .close => if run.opened then run.finish (some run.output) else run
  | .timeout => run.finish none
  | .abort => run.finish none

def executeBoundedSshCommand : Transition.Machine BoundedExec ExecEvent where
  initial run := ∃ maxOutputBytes, run = ⟨maxOutputBytes, [], 0, false, none, []⟩
  step := stepExec

theorem utf8Length_append (first second : Text) : utf8Length (first ++ second) = utf8Length first + utf8Length second := by
  simp [utf8Length]

structure Collects (run : BoundedExec) : Prop where
  output : run.settled = none → run.output = run.received.flatMap decode
  outputBytes : run.settled = none → run.outputBytes = utf8Length run.output
  bounded : run.settled = none → run.outputBytes ≤ run.maxOutputBytes
  settled : ∀ text, run.settled = some (some text) →
    text = run.received.flatMap decode ∧ utf8Length text ≤ run.maxOutputBytes

variable {run : BoundedExec}

theorem Collects.fail (h : Collects run) : Collects (run.finish none) := by
  unfold BoundedExec.finish
  split
  · exact h
  · exact ⟨nofun, nofun, nofun, nofun⟩

theorem Collects.close (h : Collects run) : Collects (run.finish (some run.output)) := by
  unfold BoundedExec.finish
  split
  · exact h
  · next hOpen =>
    have hNone : run.settled = none := Option.not_isSome_iff_eq_none.mp hOpen
    refine ⟨nofun, nofun, nofun, ?_⟩
    rintro text hText
    cases hText
    exact ⟨h.output hNone, h.outputBytes hNone ▸ h.bounded hNone⟩

theorem Collects.data (h : Collects run) (chunk : List Byte) : Collects (run.onData chunk) := by
  unfold BoundedExec.onData
  cases hSettled : run.settled with
  | some result =>
    simp only [Option.isSome_some, reduceIte]
    have hKept : ∀ text, result = some text → text = run.received.flatMap decode ∧ utf8Length text ≤ run.maxOutputBytes := by
      rintro text rfl
      exact h.settled text hSettled
    split
    · simp only [BoundedExec.finish, Option.isSome_some, reduceIte]
      exact ⟨nofun, nofun, nofun, fun text hText => hKept text (Option.some.inj hText)⟩
    · exact ⟨nofun, nofun, nofun, fun text hText => hKept text (Option.some.inj hText)⟩
  | none =>
    simp only [Option.isSome_none, Bool.false_eq_true, reduceIte]
    split
    · simp only [BoundedExec.finish, Option.isSome_none, Bool.false_eq_true, reduceIte]
      exact ⟨nofun, nofun, nofun, nofun⟩
    · next hRoom =>
      refine ⟨fun _ => ?_, fun _ => ?_, fun _ => Nat.not_lt.mp hRoom, nofun⟩
      · simp [h.output hSettled]
      · rw [utf8Length_append, h.outputBytes hSettled]

theorem Collects.step (h : Collects run) (event : ExecEvent) : Collects (stepExec run event) := by
  cases event with
  | opened error =>
    simp only [stepExec, BoundedExec.onOpened]
    split
    · exact h
    · split
      · exact h.fail
      · exact ⟨h.output, h.outputBytes, h.bounded, h.settled⟩
  | data chunk =>
    simp only [stepExec]
    split
    · exact h.data chunk
    · exact h
  | error =>
    simp only [stepExec]
    split
    · exact h.fail
    · exact h
  | close =>
    simp only [stepExec]
    split
    · exact h.close
    · exact h
  | timeout => exact h.fail
  | abort => exact h.fail

theorem collects_of_reachable (hReachable : executeBoundedSshCommand.Reachable run) : Collects run := by
  refine hReachable.invariant ?_ fun run event _ h => h.step event
  rintro _ ⟨maxOutputBytes, rfl⟩
  exact ⟨fun _ => rfl, fun _ => rfl, fun _ => Nat.zero_le _, nofun⟩

section

variable {Event : Type} (parseRemoteShellEventPayload : Output → Option Event)

structure DecodesAsOne (chunks : List (List Byte)) : Prop where
  characters : chunks.flatMap decode = decode chunks.flatten
  visible : visibleText (parseChunks parseRemoteShellEventPayload newParser (chunks.map decodeChunk)).1 =
    visibleText (parse parseRemoteShellEventPayload newParser (decodeChunk chunks.flatten)).1
  collected : ∀ run, executeBoundedSshCommand.Reachable run → run.received = chunks →
    ∀ text, run.settled = some (some text) → text = decode chunks.flatten

theorem visibleText_parseChunks (chunks : List Output) : visibleText (parseChunks parseRemoteShellEventPayload newParser chunks).1 =
      visibleText (parse parseRemoteShellEventPayload newParser chunks.flatten).1 := by
  have hValid : (Mode.matching 0).Valid := show 0 < COSMOSH_OSC_PREFIX.length by decide
  have hChunks := (parseChunks_spec parseRemoteShellEventPayload hValid chunks).2.1
  have hWhole := (parse_spec parseRemoteShellEventPayload hValid chunks.flatten).2.1
  exact hChunks.trans hWhole.symm

theorem flatten_map_decodeChunk (chunks : List (List Byte)) : (chunks.map decodeChunk).flatten = (chunks.flatMap decode).flatMap utf16 := by
  induction chunks with
  | nil => rfl
  | cons chunk chunks ih =>
    rw [List.map_cons, List.flatten_cons, ih, List.flatMap_cons, List.flatMap_append]
    rfl

/-- Text is decoded as one stream exactly if no chunk ends within a character that the next bytes
continue. -/
theorem chunks_decode_as_one_iff (chunks : List (List Byte)) :
    DecodesAsOne parseRemoteShellEventPayload chunks ↔ cutsNothing chunks = true := by
  constructor
  · intro h
    exact (decode_flatten_iff chunks).mp h.characters.symm
  · intro hCuts
    have hSame : chunks.flatMap decode = decode chunks.flatten := (decode_flatten_of_cutsNothing hCuts).symm
    constructor
    · exact hSame
    · rw [visibleText_parseChunks, flatten_map_decodeChunk, hSame]
      rfl
    · rintro run hReachable rfl text hText
      rw [((collects_of_reachable hReachable).settled text hText).1, hSame]

end

def euroChunks : List (List Byte) := [[0xe2, 0x82], [0xac]]

theorem cut_character_is_replaced : visibleText (parseChunks (fun _ => (none : Option Unit)) newParser (euroChunks.map decodeChunk)).1 =
        [0xfffd, 0xfffd] ∧ visibleText (parse (fun _ => (none : Option Unit)) newParser (decodeChunk euroChunks.flatten)).1 = [0x20ac] ∧
      ¬DecodesAsOne (fun _ => (none : Option Unit)) euroChunks := by
  have hShown : visibleText (parseChunks (fun _ => (none : Option Unit)) newParser (euroChunks.map decodeChunk)).1 =
        [0xfffd, 0xfffd] ∧
      visibleText (parse (fun _ => (none : Option Unit)) newParser (decodeChunk euroChunks.flatten)).1 = [0x20ac] := by
    decide
  refine ⟨hShown.1, hShown.2, ?_⟩
  intro h
  have hVisible := h.visible
  rw [hShown.1, hShown.2] at hVisible
  cases hVisible

end Terminal
