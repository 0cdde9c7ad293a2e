import Cosmosh.Library.CodeUnits

/-! # JSON texts of ECMAScript values

`JSON.stringify` and `JSON.parse` over UTF-16 code units.
-/

namespace Library

inductive Json (ν : Type)
  | null
  | boolean (value : Bool)
  | number (value : ν)
  | string (text : CodeUnits)
  | array (items : List (Json ν))
  | object (fields : List (CodeUnits × Json ν))

namespace Json

open CodeUnits

def digits (n : Nat) : CodeUnits := ofAscii (Nat.toDigits 10 n)

def isNumberUnit (u : Nat) : Bool := isDigit u || u ∈ ofAscii ['-', '+', '.', 'e', 'E']

structure NumberText (ν : Type) where
  toText : ν → CodeUnits
  ofText : CodeUnits → Option ν
  ofNat : Nat → ν
  units : ∀ n, ∀ u ∈ toText n, isNumberUnit u = true
  ne_nil : ∀ n, toText n ≠ []
  ofText_toText : ∀ n, ofText (toText n) = some n
  toText_ofNat : ∀ n < 2 ^ 53, toText (ofNat n) = digits n

section

variable {ν : Type} [DecidableEq ν]

mutual

def same : Json ν → Json ν → Bool
  | null, null => true
  | boolean a, boolean b => a = b
  | number a, number b => a = b
  | string a, string b => a = b
  | array a, array b => sameItems a b
  | object a, object b => sameFields a b
  | _, _ => false

def sameItems : List (Json ν) → List (Json ν) → Bool
  | [], [] => true
  | a :: as, b :: bs => same a b && sameItems as bs
  | _, _ => false

def sameFields : List (CodeUnits × Json ν) → List (CodeUnits × Json ν) → Bool
  | [], [] => true
  | (name, a) :: as, (name', b) :: bs => decide (name = name') && same a b && sameFields as bs
  | _, _ => false

end

mutual

theorem eq_of_same : (a b : Json ν) → same a b = true → a = b
  | null, null, _ => rfl
  | boolean _, boolean _, h => congrArg boolean (of_decide_eq_true h)
  | number _, number _, h => congrArg number (of_decide_eq_true h)
  | string _, string _, h => congrArg string (of_decide_eq_true h)
  | array a, array b, h => congrArg array (eq_of_sameItems a b h)
  | object a, object b, h => congrArg object (eq_of_sameFields a b h)

theorem eq_of_sameItems : (a b : List (Json ν)) → sameItems a b = true → a = b
  | [], [], _ => rfl
  | a :: as, b :: bs, h => by
    rw [sameItems, Bool.and_eq_true] at h
    rw [eq_of_same a b h.1, eq_of_sameItems as bs h.2]

theorem eq_of_sameFields : (a b : List (CodeUnits × Json ν)) → sameFields a b = true → a = b
  | [], [], _ => rfl
  | (name, a) :: as, (name', b) :: bs, h => by
    rw [sameFields, Bool.and_eq_true, Bool.and_eq_true, decide_eq_true_eq] at h
    rw [h.1.1, eq_of_same a b h.1.2, eq_of_sameFields as bs h.2]

end

mutual

theorem same_self : (a : Json ν) → same a a = true
  | null => rfl
  | boolean _ => decide_eq_true rfl
  | number _ => decide_eq_true rfl
  | string _ => decide_eq_true rfl
  | array items => sameItems_self items
  | object fields => sameFields_self fields

theorem sameItems_self : (items : List (Json ν)) → sameItems items items = true
  | [] => rfl
  | item :: items => by rw [sameItems, same_self item, sameItems_self items, Bool.and_self]

theorem sameFields_self : (fields : List (CodeUnits × Json ν)) → sameFields fields fields = true
  | [] => rfl
  | (name, value) :: fields => by
    rw [sameFields, same_self value, sameFields_self fields, decide_eq_true rfl, Bool.and_self, Bool.and_self]

end

instance : DecidableEq (Json ν) := fun a b =>
  decidable_of_iff (same a b = true) ⟨eq_of_same a b, fun h => h ▸ same_self a⟩

end

def hexUnit (d : Nat) : Nat := if d < 10 then 0x30 + d else 0x57 + d

def hexValue? (u : Nat) : Option Nat :=
  if isDigit u then some (u - 0x30)
  else if 0x61 ≤ u ∧ u ≤ 0x66 then some (u - 0x57)
  else if 0x41 ≤ u ∧ u ≤ 0x46 then some (u - 0x37)
  else none

def unicodeEscape (u : Nat) : CodeUnits := [0x5c, 0x75, hexUnit (u / 4096), hexUnit (u / 256 % 16), hexUnit (u / 16 % 16), hexUnit (u % 16)]

def shortEscapes : List (Nat × Nat) := [(0x08, 0x62), (0x09, 0x74), (0x0a, 0x6e), (0x0c, 0x66), (0x0d, 0x72), (0x22, 0x22), (0x5c, 0x5c)]

def quoteUnit (u : Nat) : CodeUnits :=
  match shortEscapes.lookup u with
  | some letter => [0x5c, letter]
  | none => if u < 0x20 ∨ isHighSurrogate u = true ∨ isLowSurrogate u = true then unicodeEscape u else [u]

def quoteUnits : CodeUnits → CodeUnits
  | [] => []
  | [u] => quoteUnit u
  | u :: v :: rest =>
    if isHighSurrogate u = true ∧ isLowSurrogate v = true then u :: v :: quoteUnits rest
    else quoteUnit u ++ quoteUnits (v :: rest)

def quote (text : CodeUnits) : CodeUnits := 0x22 :: (quoteUnits text ++ [0x22])

def readHex (a b c d : Nat) : Option Nat := do
  return (((← hexValue? a) * 16 + (← hexValue? b)) * 16 + (← hexValue? c)) * 16 + (← hexValue? d)

def unescape? (letter : Nat) : Option Nat := ((0x2f, 0x2f) :: shortEscapes).findSome? fun (u, l) => if l = letter then some u else none

def readString : CodeUnits → Option (CodeUnits × CodeUnits)
  | [] => none
  | u :: rest =>
    if u = 0x22 then some ([], rest)
    else if u = 0x5c then
      match rest with
      | [] => none
      | letter :: rest =>
        if letter = 0x75 then
          match rest with
          | a :: b :: c :: d :: rest => do
            let (text, after) ← readString rest
            return ((← readHex a b c d) :: text, after)
          | _ => none
        else do
          let (text, after) ← readString rest
          return ((← unescape? letter) :: text, after)
    else if u < 0x20 then none
    else (readString rest).map fun (text, after) => (u :: text, after)

variable {ν : Type} (numbers : NumberText ν)

mutual

def stringify : Json ν → CodeUnits
  | null => ofAscii ['n', 'u', 'l', 'l']
  | boolean true => ofAscii ['t', 'r', 'u', 'e']
  | boolean false => ofAscii ['f', 'a', 'l', 's', 'e']
  | number value => numbers.toText value
  | string text => quote text
  | array items => 0x5b :: (stringifyItems items ++ [0x5d])
  | object fields => 0x7b :: (stringifyFields fields ++ [0x7d])

def stringifyItems : List (Json ν) → CodeUnits
  | [] => []
  | item :: items => stringify item ++ if items.isEmpty then [] else 0x2c :: stringifyItems items

def stringifyFields : List (CodeUnits × Json ν) → CodeUnits
  | [] => []
  | (name, value) :: fields =>
    quote name ++ 0x3a :: (stringify value ++ if fields.isEmpty then [] else 0x2c :: stringifyFields fields)

end

def isSpace (u : Nat) : Bool := u ∈ [0x20, 0x09, 0x0a, 0x0d]

def skipSpace (text : CodeUnits) : CodeUnits := text.dropWhile isSpace

def readNumber (text : CodeUnits) : Option (Json ν × CodeUnits) :=
  (numbers.ofText (text.takeWhile isNumberUnit)).map fun value => (number value, text.dropWhile isNumberUnit)

def readLiteral (text : CodeUnits) : Option (Json ν × CodeUnits) :=
  [null, boolean true, boolean false].findSome? fun value =>
    (stripStart (stringify numbers value) text).map fun rest => (value, rest)

def setField (fields : List (CodeUnits × Json ν)) (field : CodeUnits × Json ν) : List (CodeUnits × Json ν) :=
  if field.1 ∈ fields.map Prod.fst then fields.map fun old => if old.1 = field.1 then field else old
  else fields ++ [field]

def ofEntries (fields : List (CodeUnits × Json ν)) : Json ν := object (fields.foldl setField [])

mutual

def parseValue : Nat → CodeUnits → Option (Json ν × CodeUnits)
  | 0, _ => none
  | fuel + 1, text =>
    match skipSpace text with
    | [] => none
    | u :: rest =>
      if u = 0x22 then (readString rest).map fun (text, after) => (string text, after)
      else if u = 0x5b then
        if (skipSpace rest).head? = some 0x5d then some (array [], (skipSpace rest).tail)
        else (parseItems fuel rest).map fun (items, after) => (array items, after)
      else if u = 0x7b then
        if (skipSpace rest).head? = some 0x7d then some (ofEntries [], (skipSpace rest).tail)
        else (parseFields fuel rest).map fun (fields, after) => (ofEntries fields, after)
      else if isNumberUnit u then readNumber numbers (u :: rest)
      else readLiteral numbers (u :: rest)

def parseItems : Nat → CodeUnits → Option (List (Json ν) × CodeUnits)
  | 0, _ => none
  | fuel + 1, text => do
    let (item, rest) ← parseValue fuel text
    match skipSpace rest with
    | [] => none
    | u :: rest =>
      if u = 0x2c then (parseItems fuel rest).map fun (items, after) => (item :: items, after)
      else if u = 0x5d then some ([item], rest)
      else none

def parseFields : Nat → CodeUnits → Option (List (CodeUnits × Json ν) × CodeUnits)
  | 0, _ => none
  | fuel + 1, text =>
    match skipSpace text with
    | [] => none
    | u :: rest =>
      if u = 0x22 then do
        let (name, rest) ← readString rest
        match skipSpace rest with
        | [] => none
        | u :: rest =>
          if u = 0x3a then do
            let (value, rest) ← parseValue fuel rest
            match skipSpace rest with
            | [] => none
            | u :: rest =>
              if u = 0x2c then (parseFields fuel rest).map fun (fields, after) => ((name, value) :: fields, after)
              else if u = 0x7d then some ([(name, value)], rest)
              else none
          else none
      else none

end

def parse (text : CodeUnits) : Option (Json ν) :=
  match parseValue numbers (2 * text.length + 2) text with
  | some (value, rest) => if skipSpace rest = [] then some value else none
  | none => none

end Json

end Library
