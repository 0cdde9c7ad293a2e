import Cosmosh.Terminal.RecentCommands

/-! # How typed input is cut into chunks

Of each chunk only what stands before its first escape character is read.
-/

namespace Terminal

open Library

variable {maxEntries : Nat} {state : TerminalInteractiveCompletionState}

def typedPart (chunk : CodeUnits) : CodeUnits := chunk.takeWhile (· ≠ 0x1b)

def updateWithChunks (maxEntries : Nat) :
    TerminalInteractiveCompletionState → List CodeUnits → TerminalInteractiveCompletionState × List Command
  | state, [] => (state, [])
  | state, chunk :: chunks =>
    let updated := updateInteractiveCompletionState maxEntries state chunk
    let rest := updateWithChunks maxEntries updated.1 chunks
    (rest.1, updated.2 ++ rest.2)

theorem typedPart_cons {u : Nat} (h : u ≠ 0x1b) (rest : CodeUnits) : typedPart (u :: rest) = u :: typedPart rest := by
  rw [typedPart, List.takeWhile_cons, if_pos (decide_eq_true h), typedPart]

theorem update_typedPart_append (chunk back : CodeUnits) :
    updateInteractiveCompletionState maxEntries state (typedPart chunk ++ back) =
      let updated := updateInteractiveCompletionState maxEntries state chunk
      let rest := updateInteractiveCompletionState maxEntries updated.1 back
      (rest.1, updated.2 ++ rest.2) := by
  induction chunk generalizing state with
  | nil => rfl
  | cons char chunk ih =>
    by_cases hEscape : char = 0x1b
    · subst hEscape
      rfl
    · rw [typedPart_cons hEscape, List.cons_append, updateInteractiveCompletionState, updateInteractiveCompletionState,
        if_neg hEscape, if_neg hEscape]
      split
      · simp only [ih, List.append_assoc]
      · split
        · exact ih
        · split
          · exact ih
          · split
            · exact ih
            · split
              · exact ih
              · exact ih

theorem updateWithChunks_eq (chunks : List CodeUnits) :
    updateWithChunks maxEntries state chunks = updateInteractiveCompletionState maxEntries state (chunks.flatMap typedPart) := by
  induction chunks generalizing state with
  | nil => rfl
  | cons chunk chunks ih => rw [updateWithChunks, List.flatMap_cons, update_typedPart_append, ih]

inductive Key
  | character (u : Nat) (h : u ≠ 0x1b)
  | sequence (rest : CodeUnits)

def Key.text : Key → CodeUnits
  | character u _ => [u]
  | sequence rest => 0x1b :: rest

def Key.isCharacter : Key → Bool
  | character _ _ => true
  | sequence _ => false

def SequencesLast (keys : List Key) : Prop := ∀ key ∈ keys.dropWhile Key.isCharacter, key.isCharacter = false

instance (keys : List Key) : Decidable (SequencesLast keys) :=
  inferInstanceAs (Decidable (∀ key ∈ keys.dropWhile Key.isCharacter, key.isCharacter = false))

theorem typedPart_text (key : Key) : typedPart key.text = if key.isCharacter then key.text else [] := by
  cases key with
  | character u h => exact typedPart_cons h []
  | sequence rest => rfl

theorem flatMap_typedPart_of_sequences {keys : List Key} (h : ∀ key ∈ keys, key.isCharacter = false) :
    keys.flatMap (fun key => typedPart key.text) = [] := by
  rw [List.flatMap_eq_nil_iff]
  intro key hKey
  rw [typedPart_text, h key hKey]
  rfl

theorem typedPart_flatMap {keys : List Key} (h : SequencesLast keys) :
    typedPart (keys.flatMap Key.text) = keys.flatMap fun key => typedPart key.text := by
  induction keys with
  | nil => rfl
  | cons key keys ih =>
    cases key with
    | character u hPlain =>
      rw [List.flatMap_cons, List.flatMap_cons, ← ih h]
      exact (typedPart_cons hPlain _).trans (congrArg (· ++ _) (typedPart_cons hPlain []).symm)
    | sequence rest => exact (flatMap_typedPart_of_sequences h).symm

theorem whole_key_chunks_read_every_key (maxEntries : Nat) (state : TerminalInteractiveCompletionState) (chunks : List (List Key))
    (h : ∀ keys ∈ chunks, SequencesLast keys) :
    updateWithChunks maxEntries state (chunks.map fun keys => keys.flatMap Key.text) =
      updateWithChunks maxEntries state (chunks.flatten.map Key.text) := by
  rw [updateWithChunks_eq, updateWithChunks_eq, List.flatMap_map, List.flatMap_map, ← List.flatMap_id, List.flatMap_assoc]
  exact congrArg _ (List.flatMap_congr fun keys hKeys => typedPart_flatMap (h keys hKeys))

/-- `l`, the arrow up and the return key, in two chunks. -/
def lineWithArrow : List (List Key) := [[.character 0x6c (by decide), .sequence [0x5b, 0x41]], [.character 0x0d (by decide)]]

theorem arrow_behind_a_character_is_ignored :
    updateWithChunks 200 ⟨[], []⟩ (lineWithArrow.map fun keys => keys.flatMap Key.text) =
      updateWithChunks 200 ⟨[], []⟩ (lineWithArrow.flatten.map Key.text) :=
  whole_key_chunks_read_every_key 200 ⟨[], []⟩ lineWithArrow (by decide)

end Terminal
