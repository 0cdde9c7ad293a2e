import Cosmosh.Library.Json

/-! # Reading JSON texts back -/

namespace Library.Json

open CodeUnits

theorem hexValue?_hexUnit : ∀ d < 16, hexValue? (hexUnit d) = some d := by decide

variable {u : Nat}

theorem readHex_unicodeEscape (h : u < 0x10000) :
    readHex (hexUnit (u / 4096)) (hexUnit (u / 256 % 16)) (hexUnit (u / 16 % 16)) (hexUnit (u % 16)) = some u := by
  have hValue : ((u / 4096 * 16 + u / 256 % 16) * 16 + u / 16 % 16) * 16 + u % 16 = u := by omega
  rw [readHex, hexValue?_hexUnit _ (by omega), hexValue?_hexUnit _ (by omega), hexValue?_hexUnit _ (by omega),
    hexValue?_hexUnit _ (by omega)]
  exact congrArg some hValue

theorem readString_plain (hQuote : u ≠ 0x22) (hBackslash : u ≠ 0x5c) (hControl : ¬u < 0x20) (rest : CodeUnits) :
    readString (u :: rest) = (readString rest).map fun (text, after) => (u :: text, after) := by
  rw [readString.eq_def]
  simp only [if_neg hQuote, if_neg hBackslash, if_neg hControl]

theorem readString_quote (rest : CodeUnits) : readString (0x22 :: rest) = some ([], rest) := by
  rw [readString.eq_def]
  rfl

theorem readString_unicodeEscape (h : u < 0x10000) (rest : CodeUnits) :
    readString (unicodeEscape u ++ rest) = (readString rest).map fun (text, after) => (u :: text, after) := by
  have hRead : readString (unicodeEscape u ++ rest) = (do
      let (text, after) ← readString rest
      return ((← readHex (hexUnit (u / 4096)) (hexUnit (u / 256 % 16)) (hexUnit (u / 16 % 16)) (hexUnit (u % 16))) ::
        text, after)) := rfl
  rw [hRead, readHex_unicodeEscape h]
  cases readString rest <;> rfl

theorem readString_short {letter : Nat} (h : shortEscapes.lookup u = some letter) (rest : CodeUnits) :
    readString (0x5c :: letter :: rest) = (readString rest).map fun (text, after) => (u :: text, after) := by
  have hLetters : ∀ pair ∈ shortEscapes, pair.2 ≠ 0x75 ∧ unescape? pair.2 = some pair.1 := by decide
  obtain ⟨front, back, hPair, -⟩ := List.lookup_eq_some_iff.mp h
  obtain ⟨hLetter, hUnescape⟩ := hLetters (u, letter) (hPair ▸ List.mem_append_right _ List.mem_cons_self)
  rw [readString.eq_def]
  simp only [if_neg (show ¬(0x5c : Nat) = 0x22 by decide), if_true, if_neg hLetter, hUnescape]
  cases readString rest <;> rfl

theorem readString_quoteUnit (u : Nat) (rest : CodeUnits) :
    readString (quoteUnit u ++ rest) = (readString rest).map fun (text, after) => (u :: text, after) := by
  rw [quoteUnit]
  split
  · next letter hLookup => exact readString_short hLookup rest
  · next hLookup =>
    split
    · next hEscape =>
      apply readString_unicodeEscape
      simp only [isHighSurrogate, isLowSurrogate, Bool.and_eq_true, decide_eq_true_eq] at hEscape
      omega
    · next hPlain =>
      apply readString_plain
      · rintro rfl
        cases hLookup
      · rintro rfl
        cases hLookup
      · exact fun hControl => hPlain (.inl hControl)

theorem readString_quoteUnits (text rest : CodeUnits) : readString (quoteUnits text ++ 0x22 :: rest) = some (text, rest) := by
  fun_induction quoteUnits text with
  | case1 => exact readString_quote rest
  | case2 u => rw [readString_quoteUnit, readString_quote, Option.map_some]
  | case3 u v text hPair ih =>
    simp only [isHighSurrogate, isLowSurrogate, Bool.and_eq_true, decide_eq_true_eq] at hPair
    rw [List.cons_append, List.cons_append, readString_plain (by omega) (by omega) (by omega),
      readString_plain (by omega) (by omega) (by omega), ih]
    rfl
  | case4 u v text hPair ih => rw [List.append_assoc, readString_quoteUnit, ih, Option.map_some]

def isPlain (u : Nat) : Bool := 0x20 ≤ u && u < 0x80 && u ≠ 0x22 && u ≠ 0x5c

theorem quoteUnits_plain {text : CodeUnits} (h : ∀ u ∈ text, isPlain u = true) : quoteUnits text = text := by
  have hUnit : ∀ u, isPlain u = true → quoteUnit u = [u] ∧ isHighSurrogate u = false := by
    intro u hPlain
    have hLookup : shortEscapes.lookup u = none := by
      have hNone : ∀ pair ∈ shortEscapes, isPlain pair.1 = false := by decide
      rw [List.lookup_eq_none_iff]
      intro pair hPair
      rw [bne_iff_ne]
      rintro rfl
      exact absurd (hPlain.symm.trans (hNone pair hPair)) Bool.noConfusion
    simp only [isPlain, Bool.and_eq_true, decide_eq_true_eq] at hPlain
    obtain ⟨⟨⟨hLow, hHigh⟩, hQuote⟩, hBackslash⟩ := hPlain
    have hNotHigh : isHighSurrogate u = false := by
      simp only [isHighSurrogate, Bool.and_eq_false_iff, decide_eq_false_iff_not]
      omega
    have hNotLow : isLowSurrogate u = false := by
      simp only [isLowSurrogate, Bool.and_eq_false_iff, decide_eq_false_iff_not]
      omega
    refine ⟨?_, hNotHigh⟩
    rw [quoteUnit, hLookup, if_neg]
    rw [hNotHigh, hNotLow]
    rintro (hControl | hSurrogate | hSurrogate)
    · omega
    · exact Bool.noConfusion hSurrogate
    · exact Bool.noConfusion hSurrogate
  fun_induction quoteUnits text with
  | case1 => rfl
  | case2 u => exact (hUnit u (h u List.mem_cons_self)).1
  | case3 u v text hPair ih =>
    exact absurd (hPair.1.symm.trans (hUnit u (h u List.mem_cons_self)).2) Bool.noConfusion
  | case4 u v text hPair ih =>
    rw [(hUnit u (h u List.mem_cons_self)).1, ih fun w hw => h w (List.mem_cons_of_mem u hw)]
    rfl

theorem quote_plain {text : CodeUnits} (h : ∀ u ∈ text, isPlain u = true) : quote text = 0x22 :: (text ++ [0x22]) := by
  rw [quote, quoteUnits_plain h]

variable {ν : Type}

mutual

def Distinct : Json ν → Prop
  | array items => DistinctItems items
  | object fields => (fields.map Prod.fst).Nodup ∧ DistinctFields fields
  | _ => True

def DistinctItems : List (Json ν) → Prop
  | [] => True
  | item :: items => item.Distinct ∧ DistinctItems items

def DistinctFields : List (CodeUnits × Json ν) → Prop
  | [] => True
  | (_, value) :: fields => value.Distinct ∧ DistinctFields fields

end

theorem foldl_setField (front back : List (CodeUnits × Json ν)) (h : ((front ++ back).map Prod.fst).Nodup) :
    back.foldl setField front = front ++ back := by
  induction back generalizing front with
  | nil => rw [List.foldl_nil, List.append_nil]
  | cons field back ih =>
    have hNew : field.1 ∉ front.map Prod.fst := by
      rw [List.map_append, List.nodup_append] at h
      exact fun hOld => h.2.2 _ hOld _ List.mem_cons_self rfl
    rw [List.foldl_cons, setField, if_neg hNew, ih _ (by simpa using h), List.append_assoc]
    rfl

theorem ofEntries_of_nodup {fields : List (CodeUnits × Json ν)} (h : (fields.map Prod.fst).Nodup) : ofEntries fields = object fields := by
  rw [ofEntries, foldl_setField [] fields h, List.nil_append]

theorem skipSpace_of_not (h : isSpace u = false) (rest : CodeUnits) : skipSpace (u :: rest) = u :: rest :=
  List.dropWhile_cons_of_neg (by simp [h])

def Ends (rest : CodeUnits) : Prop := ∀ u ∈ rest.head?, isNumberUnit u = false

variable (numbers : NumberText ν)

theorem readNumber_toText (value : ν) {rest : CodeUnits} (hRest : Ends rest) :
    readNumber numbers (numbers.toText value ++ rest) = some (number value, rest) := by
  have hStop : ∀ u tail, rest = u :: tail → ¬isNumberUnit u = true := by
    rintro u tail rfl
    rw [hRest u rfl]
    exact Bool.false_ne_true
  have hTake : rest.takeWhile isNumberUnit = [] ∧ rest.dropWhile isNumberUnit = rest := by
    cases rest with
    | nil => exact ⟨rfl, rfl⟩
    | cons u tail =>
      exact ⟨List.takeWhile_cons_of_neg (hStop u tail rfl), List.dropWhile_cons_of_neg (hStop u tail rfl)⟩
  rw [readNumber, List.takeWhile_append_of_pos (numbers.units value), List.dropWhile_append_of_pos (numbers.units value),
    hTake.1, hTake.2, List.append_nil, numbers.ofText_toText, Option.map_some]

theorem toText_cons (value : ν) : ∃ u text, numbers.toText value = u :: text ∧ isNumberUnit u = true := by
  obtain ⟨u, text, hText⟩ := List.exists_cons_of_ne_nil (numbers.ne_nil value)
  exact ⟨u, text, hText, numbers.units value u (hText ▸ List.mem_cons_self)⟩

theorem not_special_of_isNumberUnit (h : isNumberUnit u = true) : isSpace u = false ∧ u ≠ 0x22 ∧ u ≠ 0x5b ∧ u ≠ 0x7b ∧ u ≠ 0x5d ∧ u ≠ 0x7d := by
  have hUnits : ∀ u < 0x80, isNumberUnit u = true →
      isSpace u = false ∧ u ≠ 0x22 ∧ u ≠ 0x5b ∧ u ≠ 0x7b ∧ u ≠ 0x5d ∧ u ≠ 0x7d := by decide
  refine hUnits u ?_ h
  simp only [isNumberUnit, isDigit, ofAscii, Bool.or_eq_true] at h
  obtain h | h := h
  · simp only [Bool.and_eq_true, decide_eq_true_eq] at h
    omega
  · have hAscii : ∀ u ∈ List.map Char.toNat ['-', '+', '.', 'e', 'E'], u < 0x80 := by decide
    exact hAscii u (of_decide_eq_true h)

theorem stringify_cons (value : Json ν) : ∃ u text, stringify numbers value = u :: text ∧ isSpace u = false ∧ u ≠ 0x5d := by
  cases value with
  | null => exact ⟨_, _, rfl, by decide, by decide⟩
  | boolean value => cases value <;> exact ⟨_, _, rfl, by decide, by decide⟩
  | number value =>
    obtain ⟨u, text, hText, hUnit⟩ := toText_cons numbers value
    obtain ⟨hSpace, -, -, -, hBracket, -⟩ := not_special_of_isNumberUnit hUnit
    exact ⟨u, text, hText, hSpace, hBracket⟩
  | string text => exact ⟨_, _, rfl, by decide, by decide⟩
  | array items => exact ⟨_, _, rfl, by decide, by decide⟩
  | object fields => exact ⟨_, _, rfl, by decide, by decide⟩

theorem skipSpace_stringify (value : Json ν) (rest : CodeUnits) :
    skipSpace (stringify numbers value ++ rest) = stringify numbers value ++ rest := by
  obtain ⟨u, text, hText, hSpace, -⟩ := stringify_cons numbers value
  rw [hText, List.cons_append, skipSpace_of_not hSpace]

theorem length_stringify_pos (value : Json ν) : 0 < (stringify numbers value).length := by
  obtain ⟨u, text, hText, -⟩ := stringify_cons numbers value
  rw [hText]
  exact Nat.succ_pos _

theorem readLiteral_null (rest : CodeUnits) : readLiteral numbers (stringify numbers null ++ rest) = some (null, rest) := rfl

theorem readLiteral_boolean (value : Bool) (rest : CodeUnits) :
    readLiteral numbers (stringify numbers (boolean value) ++ rest) = some (boolean value, rest) := by
  cases value <;> rfl

theorem Ends.of_unit (h : isNumberUnit u = false) (rest : CodeUnits) : Ends (u :: rest) := by
  intro u' hHead
  rw [← Option.some.inj hHead]
  exact h

mutual

theorem parseValue_stringify (value : Json ν) (hDistinct : value.Distinct) {rest : CodeUnits} (hRest : Ends rest)
    {fuel : Nat} (hFuel : 2 * (stringify numbers value).length ≤ fuel) :
    parseValue numbers fuel (stringify numbers value ++ rest) = some (value, rest) := by
  have hPos := length_stringify_pos numbers value
  obtain _ | fuel := fuel
  · omega
  rw [parseValue, skipSpace_stringify numbers value]
  cases value with
  | null => exact readLiteral_null numbers rest
  | boolean value =>
    cases value with
    | true => exact readLiteral_boolean numbers true rest
    | false => exact readLiteral_boolean numbers false rest
  | number value =>
    obtain ⟨u, text, hText, hUnit⟩ := toText_cons numbers value
    obtain ⟨-, hQuote, hBracket, hBrace, -, -⟩ := not_special_of_isNumberUnit hUnit
    have hRead := readNumber_toText numbers value hRest
    simp only [stringify, hText, List.cons_append] at hRead ⊢
    rw [if_neg hQuote, if_neg hBracket, if_neg hBrace, if_pos hUnit, hRead]
  | string text =>
    simp only [stringify, quote, List.cons_append, List.append_assoc, if_true, List.nil_append]
    rw [readString_quoteUnits, Option.map_some]
  | array items =>
    simp only [stringify, List.cons_append, List.append_assoc, List.nil_append, List.length_cons, List.length_append,
      List.length_nil] at hFuel ⊢
    rw [if_neg (by decide), if_pos trivial]
    cases items with
    | nil => rfl
    | cons item items =>
      obtain ⟨u, text, hText, hSpace, hBracket⟩ := stringify_cons numbers item
      have hHead : (skipSpace (stringifyItems numbers (item :: items) ++ 0x5d :: rest)).head? ≠ some 0x5d := by
        rw [stringifyItems, hText, List.cons_append, List.cons_append, skipSpace_of_not hSpace]
        exact fun hSame => hBracket (Option.some.inj hSame)
      rw [if_neg hHead, parseItems_stringifyItems _ (List.cons_ne_nil item items) hDistinct (by omega), Option.map_some]
  | object fields =>
    obtain ⟨hNodup, hFields⟩ := hDistinct
    simp only [stringify, List.cons_append, List.append_assoc, List.nil_append, List.length_cons, List.length_append,
      List.length_nil] at hFuel ⊢
    rw [if_neg (by decide), if_neg (by decide), if_pos trivial]
    cases fields with
    | nil => rfl
    | cons field fields =>
      have hHead : (skipSpace (stringifyFields numbers (field :: fields) ++ 0x7d :: rest)).head? ≠ some 0x7d := by
        simp only [stringifyFields, quote, List.cons_append]
        rw [skipSpace_of_not (by decide)]
        exact fun hSame => absurd (Option.some.inj hSame) (by decide)
      rw [if_neg hHead, parseFields_stringifyFields _ (List.cons_ne_nil field fields) hFields (by omega), Option.map_some,
        ofEntries_of_nodup hNodup]
termination_by sizeOf value

theorem parseItems_stringifyItems (items : List (Json ν)) (hItems : items ≠ []) (hDistinct : DistinctItems items)
    {rest : CodeUnits} {fuel : Nat} (hFuel : 2 * (stringifyItems numbers items).length + 1 ≤ fuel) :
    parseItems numbers fuel (stringifyItems numbers items ++ 0x5d :: rest) = some (items, rest) := by
  obtain _ | fuel := fuel
  · omega
  cases items with
  | nil => exact absurd rfl hItems
  | cons item items =>
    obtain ⟨hItem, hOthers⟩ := hDistinct
    rw [stringifyItems, List.length_append] at hFuel
    rw [parseItems, stringifyItems, List.append_assoc]
    cases items with
    | nil =>
      simp only [List.isEmpty_nil, if_true, List.length_nil, List.nil_append] at hFuel ⊢
      rw [parseValue_stringify item hItem (Ends.of_unit (by decide) _) (by omega)]
      rfl
    | cons next items =>
      simp only [List.isEmpty_cons, Bool.false_eq_true, if_false, List.length_cons, List.cons_append] at hFuel ⊢
      rw [parseValue_stringify item hItem (Ends.of_unit (by decide) _) (by omega)]
      simp only [Option.bind_eq_bind, Option.bind_some, skipSpace_of_not (show isSpace 0x2c = false by decide), if_true]
      rw [parseItems_stringifyItems _ (List.cons_ne_nil next items) hOthers (by omega), Option.map_some]
termination_by sizeOf items

theorem parseFields_stringifyFields : (fields : List (CodeUnits × Json ν)) → fields ≠ [] → DistinctFields fields →
    ∀ {rest : CodeUnits} {fuel : Nat}, 2 * (stringifyFields numbers fields).length + 1 ≤ fuel →
      parseFields numbers fuel (stringifyFields numbers fields ++ 0x7d :: rest) = some (fields, rest)
  | [], hSome, _, _, _, _ => absurd rfl hSome
  | (name, value) :: fields, _, ⟨hValue, hOthers⟩, rest, fuel, hFuel => by
    obtain _ | fuel := fuel
    · omega
    simp only [stringifyFields, List.length_append, List.length_cons] at hFuel
    simp only [parseFields, stringifyFields, quote, List.append_assoc, List.cons_append, List.nil_append,
      skipSpace_of_not (show isSpace 0x22 = false by decide), if_true, readString_quoteUnits, Option.bind_eq_bind,
      Option.bind_some, skipSpace_of_not (show isSpace 0x3a = false by decide)]
    cases fields with
    | nil =>
      simp only [List.isEmpty_nil, if_true, List.length_nil, List.nil_append] at hFuel ⊢
      rw [parseValue_stringify value hValue (Ends.of_unit (by decide) _) (by omega)]
      rfl
    | cons next fields =>
      simp only [List.isEmpty_cons, Bool.false_eq_true, if_false, List.length_cons, List.cons_append] at hFuel ⊢
      rw [parseValue_stringify value hValue (Ends.of_unit (by decide) _) (by omega)]
      simp only [Option.bind_some, skipSpace_of_not (show isSpace 0x2c = false by decide), if_true]
      rw [parseFields_stringifyFields _ (List.cons_ne_nil next fields) hOthers (by omega), Option.map_some]
termination_by fields => sizeOf fields

end

theorem parse_stringify {value : Json ν} (h : value.Distinct) : parse numbers (stringify numbers value) = some value := by
  have hEnd : Ends [] := by
    rintro u ⟨⟩
  have hRead := parseValue_stringify numbers value h hEnd
    (Nat.le_add_right (2 * (stringify numbers value).length) 2)
  rw [List.append_nil] at hRead
  rw [parse, hRead]
  rfl

theorem stringifyFields_cons (name : CodeUnits) (value : Json ν) (fields : List (CodeUnits × Json ν)) :
    stringifyFields numbers ((name, value) :: fields) = quote name ++ 0x3a :: (stringify numbers value ++
      fields.flatMap fun field => 0x2c :: (quote field.1 ++ 0x3a :: stringify numbers field.2)) := by
  induction fields generalizing name value with
  | nil => rfl
  | cons next fields ih =>
    obtain ⟨nextName, nextValue⟩ := next
    rw [stringifyFields, ih nextName nextValue, List.flatMap_cons, List.isEmpty_cons, if_neg Bool.false_ne_true]
    simp only [List.cons_append, List.append_assoc]

theorem isDigit_of_mem_digits {n : Nat} (h : u ∈ digits n) : isDigit u = true := by
  obtain ⟨c, hc, rfl⟩ := List.mem_map.mp h
  have hDigit : c.isDigit = true := Nat.isDigit_of_mem_toDigits (by decide) (by decide) hc
  simp only [Char.isDigit, Bool.and_eq_true, decide_eq_true_eq] at hDigit
  have hLower : 48 ≤ c.toNat := hDigit.1
  have hUpper : c.toNat ≤ 57 := hDigit.2
  simp [isDigit, hLower, hUpper]

theorem isNumberUnit_of_isDigit (h : isDigit u = true) : isNumberUnit u = true := by
  rw [isNumberUnit, h, Bool.true_or]

theorem digits_ne_nil (n : Nat) : digits n ≠ [] := by
  rw [digits, ofAscii, Ne, List.map_eq_nil_iff]
  exact Nat.toDigits_ne_nil

def readDigits (text : CodeUnits) : Option Nat :=
  let n := Nat.ofDigitChars 10 (text.map Char.ofNat) 0
  if digits n = text then some n else none

theorem readDigits_digits (n : Nat) : readDigits (digits n) = some n := by
  have hValue : Nat.ofDigitChars 10 ((digits n).map Char.ofNat) 0 = n := by
    rw [digits, ofAscii, List.map_map, show Char.ofNat ∘ Char.toNat = id from funext Char.ofNat_toNat, List.map_id]
    exact Nat.ofDigitChars_ten_toDigits
  simp only [readDigits, hValue, if_true]

def readInteger (text : CodeUnits) : Option Int :=
  match stripStart [0x2d] text with
  | some magnitude => (readDigits magnitude).map fun n => -n
  | none => (readDigits text).map fun n => n

def integerText : Int → CodeUnits
  | .ofNat n => digits n
  | .negSucc n => 0x2d :: digits (n + 1)

theorem readInteger_integerText (n : Int) : readInteger (integerText n) = some n := by
  cases n with
  | ofNat n =>
    have hSign : stripStart [0x2d] (digits n) = none := by
      rw [stripStart, if_neg]
      intro hPrefix
      obtain ⟨rest, hRest⟩ := List.isPrefixOf_iff_prefix.mp hPrefix
      have hMinus := isDigit_of_mem_digits (n := n) (u := 0x2d) (hRest ▸ List.mem_cons_self)
      cases hMinus
    rw [integerText, readInteger, hSign]
    simp only [readDigits_digits]
    rfl
  | negSucc n =>
    have hSign : stripStart [0x2d] (0x2d :: digits (n + 1)) = some (digits (n + 1)) := rfl
    rw [integerText, readInteger, hSign]
    simp only [readDigits_digits]
    rfl

def integers : NumberText Int where
  toText := integerText
  ofText := readInteger
  ofNat n := n
  units n u hu := by
    cases n with
    | ofNat n => exact isNumberUnit_of_isDigit (isDigit_of_mem_digits hu)
    | negSucc n =>
      obtain rfl | hu := List.mem_cons.mp hu
      · decide
      · exact isNumberUnit_of_isDigit (isDigit_of_mem_digits hu)
  ne_nil n := by
    cases n with
    | ofNat n => exact digits_ne_nil n
    | negSucc n => exact List.cons_ne_nil _ _
  ofText_toText := readInteger_integerText
  toText_ofNat n _ := rfl

end Library.Json
