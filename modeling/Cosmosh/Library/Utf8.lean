import Mathlib.Data.List.Basic

/-! # Decoding UTF-8 with replacement characters

The decoder of the encoding standard: a sequence that breaks off gives one replacement character, and the byte that
broke it is read anew.
-/

namespace Library.Utf8

abbrev Byte := UInt8

def replacement : Char := '\ufffd'

structure Pending where
  value : Nat
  needed : Nat
  lower : Nat
  upper : Nat
  tail : 0x80 ≤ lower ∧ upper ≤ 0xbf

def lead (b : Byte) : List Char × Option Pending :=
  let byte := b.toNat
  if byte < 0x80 then ([Char.ofNat byte], none)
  else if 0xc2 ≤ byte ∧ byte ≤ 0xdf then ([], some ⟨byte - 0xc0, 1, 0x80, 0xbf, by decide⟩)
  else if byte = 0xe0 then ([], some ⟨0, 2, 0xa0, 0xbf, by decide⟩)
  else if byte = 0xed then ([], some ⟨0xd, 2, 0x80, 0x9f, by decide⟩)
  else if 0xe1 ≤ byte ∧ byte ≤ 0xef then ([], some ⟨byte - 0xe0, 2, 0x80, 0xbf, by decide⟩)
  else if byte = 0xf0 then ([], some ⟨0, 3, 0x90, 0xbf, by decide⟩)
  else if byte = 0xf4 then ([], some ⟨4, 3, 0x80, 0x8f, by decide⟩)
  else if 0xf1 ≤ byte ∧ byte ≤ 0xf3 then ([], some ⟨byte - 0xf0, 3, 0x80, 0xbf, by decide⟩)
  else ([replacement], none)

namespace Pending

def accepts (pending : Pending) (b : Byte) : Bool := pending.lower ≤ b.toNat && b.toNat ≤ pending.upper

def next (pending : Pending) (b : Byte) : List Char × Option Pending :=
  let value := pending.value * 64 + (b.toNat - 0x80)
  if pending.needed ≤ 1 then ([Char.ofNat value], none)
  else ([], some ⟨value, pending.needed - 1, 0x80, 0xbf, by decide⟩)

end Pending

def step : Option Pending → Byte → List Char × Option Pending
  | none, b => lead b
  | some pending, b => if pending.accepts b then pending.next b else (replacement :: (lead b).1, (lead b).2)

def finish : Option Pending → List Char
  | none => []
  | some _ => [replacement]

def decodeFrom : Option Pending → List Byte → List Char
  | state, [] => finish state
  | state, b :: bytes => (step state b).1 ++ decodeFrom (step state b).2 bytes

def decode : List Byte → List Char := decodeFrom none

def stateAfter : Option Pending → List Byte → Option Pending
  | state, [] => state
  | state, b :: bytes => stateAfter (step state b).2 bytes

def continues : Option Pending → List Byte → Bool
  | some pending, b :: _ => pending.accepts b
  | _, _ => false

def cutsNothing : List (List Byte) → Bool
  | [] => true
  | chunk :: chunks => !continues (stateAfter none chunk) chunks.flatten && cutsNothing chunks

theorem lead_of_accepts {pending : Pending} {b : Byte} (h : pending.accepts b = true) : lead b = ([replacement], none) := by
  obtain ⟨hLower, hUpper⟩ := pending.tail
  simp only [Pending.accepts, Bool.and_eq_true, decide_eq_true_eq] at h
  unfold lead
  simp only
  rw [if_neg (by omega), if_neg (by omega), if_neg (by omega), if_neg (by omega), if_neg (by omega), if_neg (by omega),
    if_neg (by omega), if_neg (by omega)]

theorem decodeFrom_of_not_continues {state : Option Pending} {bytes : List Byte} (h : continues state bytes = false) :
    decodeFrom state bytes = finish state ++ decode bytes := by
  cases state with
  | none => rfl
  | some pending =>
    cases bytes with
    | nil => rfl
    | cons b bytes =>
      have hRefused : pending.accepts b = false := h
      simp [decodeFrom, decode, step, finish, hRefused]

theorem length_decodeFrom_le (state : Option Pending) (bytes : List Byte) :
    (decodeFrom state bytes).length ≤ (finish state ++ decode bytes).length ∧
      (continues state bytes = true → (decodeFrom state bytes).length < (finish state ++ decode bytes).length) := by
  induction bytes generalizing state with
  | nil =>
    cases state with
    | none => exact ⟨Nat.le_refl _, nofun⟩
    | some pending => exact ⟨Nat.le_refl _, nofun⟩
  | cons b bytes ih =>
    have hLess : continues state (b :: bytes) = true →
        (decodeFrom state (b :: bytes)).length < (finish state ++ decode (b :: bytes)).length := by
      intro hContinues
      cases state with
      | none => cases hContinues
      | some pending =>
        have hAccepts : pending.accepts b = true := hContinues
        have hAnew : decode (b :: bytes) = replacement :: decode bytes := by
          simp [decode, decodeFrom, step, lead_of_accepts hAccepts]
        have hRest := (ih (pending.next b).2).1
        rw [hAnew]
        simp only [decodeFrom, step, hAccepts, reduceIte, finish, List.length_append, List.length_cons, List.length_nil]
        unfold Pending.next at hRest ⊢
        simp only at hRest ⊢
        split at hRest
        · next hLast =>
          rw [if_pos hLast]
          simp only [finish, List.nil_append, List.length_singleton] at hRest ⊢
          omega
        · next hMore =>
          rw [if_neg hMore]
          simp only [finish, List.singleton_append, List.length_cons, List.length_nil] at hRest ⊢
          omega
    refine ⟨?_, hLess⟩
    cases hContinues : continues state (b :: bytes) with
    | true => exact Nat.le_of_lt (hLess hContinues)
    | false =>
      exact (decodeFrom_of_not_continues hContinues ▸ Nat.le_refl _)

theorem decodeFrom_append (state : Option Pending) (front : List Byte) :
    ∃ emitted, (∀ bytes, decodeFrom state (front ++ bytes) = emitted ++ decodeFrom (stateAfter state front) bytes) ∧
      decodeFrom state front = emitted ++ finish (stateAfter state front) := by
  induction front generalizing state with
  | nil => exact ⟨[], fun _ => rfl, rfl⟩
  | cons b front ih =>
    obtain ⟨emitted, hAppend, hFront⟩ := ih (step state b).2
    refine ⟨(step state b).1 ++ emitted, ?_, ?_⟩
    · intro bytes
      rw [List.cons_append, decodeFrom, hAppend, List.append_assoc]
      rfl
    · rw [decodeFrom, hFront, List.append_assoc]
      rfl

theorem decode_append_of_not_continues {front back : List Byte} (h : continues (stateAfter none front) back = false) :
    decode (front ++ back) = decode front ++ decode back := by
  obtain ⟨emitted, hAppend, hFront⟩ := decodeFrom_append none front
  rw [decode, hAppend, decodeFrom_of_not_continues h, ← List.append_assoc, ← hFront, decode]

theorem length_decode_append_le (front back : List Byte) : (decode (front ++ back)).length ≤ (decode front).length + (decode back).length ∧
      (continues (stateAfter none front) back = true → (decode (front ++ back)).length < (decode front).length + (decode back).length) := by
  obtain ⟨emitted, hAppend, hFront⟩ := decodeFrom_append none front
  obtain ⟨hLe, hLess⟩ := length_decodeFrom_le (stateAfter none front) back
  have hWhole : (decode (front ++ back)).length =
      emitted.length + (decodeFrom (stateAfter none front) back).length := by
    rw [decode, hAppend, List.length_append]
  have hParts : (decode front).length = emitted.length + (finish (stateAfter none front)).length := by
    rw [decode, hFront, List.length_append]
  rw [List.length_append] at hLe hLess
  rw [hWhole, hParts]
  constructor
  · omega
  · intro hContinues
    have hStrict := hLess hContinues
    omega

theorem length_decode_chunks (chunks : List (List Byte)) : (decode chunks.flatten).length ≤ (chunks.flatMap decode).length ∧
      (cutsNothing chunks = false → (decode chunks.flatten).length < (chunks.flatMap decode).length) := by
  induction chunks with
  | nil => exact ⟨Nat.le_refl _, nofun⟩
  | cons chunk chunks ih =>
    obtain ⟨hLe, hLess⟩ := length_decode_append_le chunk chunks.flatten
    obtain ⟨ihLe, ihLess⟩ := ih
    rw [List.flatten_cons, List.flatMap_cons, List.length_append]
    constructor
    · omega
    · intro hCuts
      cases hContinues : continues (stateAfter none chunk) chunks.flatten with
      | true =>
        have hStrict := hLess hContinues
        omega
      | false =>
        have hRest : cutsNothing chunks = false := by simpa [cutsNothing, hContinues] using hCuts
        have hStrict := ihLess hRest
        omega

theorem decode_flatten_of_cutsNothing {chunks : List (List Byte)} (h : cutsNothing chunks = true) :
    decode chunks.flatten = chunks.flatMap decode := by
  induction chunks with
  | nil => rfl
  | cons chunk chunks ih =>
    simp only [cutsNothing, Bool.and_eq_true, Bool.not_eq_true'] at h
    rw [List.flatten_cons, List.flatMap_cons, decode_append_of_not_continues h.1, ih h.2]

theorem decode_flatten_iff (chunks : List (List Byte)) : decode chunks.flatten = chunks.flatMap decode ↔ cutsNothing chunks = true := by
  constructor
  · intro hSame
    cases hCuts : cutsNothing chunks with
    | true => rfl
    | false =>
      have hLess := (length_decode_chunks chunks).2 hCuts
      rw [hSame] at hLess
      exact absurd hLess (Nat.lt_irrefl _)
  · exact decode_flatten_of_cutsNothing

end Library.Utf8
