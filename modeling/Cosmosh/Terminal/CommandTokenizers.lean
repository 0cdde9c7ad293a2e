import Cosmosh.Terminal.CompletionEngine

/-! # The two tokenizers of a command line

What follows a `cd` is read by a scanner of its own, which takes every backslash between double quotes away.
-/

namespace Terminal

open Library Library.CodeUnits

/-- One round of the inner loop of `splitCommandTokens`. -/
def splitUnit (quote : Option TokenQuote) (char : Nat) (next : Option Nat) : CodeUnits × Option TokenQuote × Bool :=
  match quote with
  | some .single => if char = 0x27 then ([], none, false) else ([char], some .single, false)
  | some .double =>
    if char = 0x22 then ([], none, false)
    else
      match next with
      | none => ([char], some .double, false)
      | some escaped => if char = 0x5c then ([escaped], some .double, true) else ([char], some .double, false)
  | none =>
    if char = 0x27 then ([], some .single, false)
    else if char = 0x22 then ([], some .double, false)
    else
      match next with
      | none => ([char], none, false)
      | some escaped => if char = 0x5c then ([escaped], none, true) else ([char], none, false)

def splitTokens : CodeUnits → Option TokenQuote → CodeUnits → List CodeUnits
  | token, _, [] => (nonEmpty token).toList
  | token, quote, char :: rest =>
    if quote = none ∧ isWhitespace char = true then (nonEmpty token).toList ++ splitTokens [] none rest
    else
      match splitUnit quote char rest.head?, rest with
      | (units, quote, true), _ :: rest => splitTokens (token ++ units) quote rest
      | (units, quote, _), rest => splitTokens (token ++ units) quote rest

def splitCommandTokens (command : CodeUnits) : List CodeUnits := splitTokens [] none command

def quoteAfter (quote : Option TokenQuote) (char : Nat) : Option TokenQuote :=
  match quote with
  | some .single => if char = 0x27 then none else some .single
  | some .double => if char = 0x22 then none else some .double
  | none => if char = 0x27 then some .single else if char = 0x22 then some .double else none

/-- The units a backslash can quote between double quotes: `"`, `\`, `$` and the back quote. -/
def isQuotable (u : Nat) : Bool := u = 0x22 || u = 0x5c || u = 0x24 || u = 0x60

def lostBackslashes : Option TokenQuote → CodeUnits → Nat
  | _, [] => 0
  | _, [_] => 0
  | quote, char :: next :: rest =>
    if char = 0x5c ∧ quote ≠ some .single then
      (if quote = some .double ∧ isQuotable next = false then 1 else 0) + lostBackslashes quote rest
    else lostBackslashes (quoteAfter quote char) (next :: rest)

variable {token : Option OpenToken} {quote : Option TokenQuote} {char next : Nat} {rest units : CodeUnits}

def valueOf (token : Option OpenToken) : CodeUnits := (token.map OpenToken.value).getD []

def values (cursor : Nat) (token : Option OpenToken) (text : CodeUnits) : List CodeUnits :=
  ((parseTokens .posix cursor token text).map (·.value)).filter (· ≠ [])

theorem splitUnit_plain {next : Option Nat} (h : next = none ∨ ¬(char = 0x5c ∧ quote ≠ some .single)) :
    ∃ units, splitUnit quote char next = (units, quoteAfter quote char, false) ∧
      consume .posix quote char next = (units, quoteAfter quote char, false) := by
  obtain _ | _ | _ := quote
  · simp only [splitUnit, consume, quoteAfter, true_or, and_true, true_and]
    split
    · exact ⟨_, rfl, rfl⟩
    · split
      · exact ⟨_, rfl, rfl⟩
      · obtain rfl | hPlain := h
        · exact ⟨_, rfl, rfl⟩
        · have hOther : char ≠ 0x5c := fun hEscape => hPlain ⟨hEscape, by decide⟩
          simp only [hOther, if_false]
          cases next <;> exact ⟨_, rfl, rfl⟩
  · simp only [splitUnit, consume, quoteAfter, reduceCtorEq, false_and, if_false]
    split <;> exact ⟨_, rfl, rfl⟩
  · simp only [splitUnit, consume, quoteAfter, true_and, reduceCtorEq, false_and, if_false]
    split
    · exact ⟨_, rfl, rfl⟩
    · obtain rfl | hPlain := h
      · exact ⟨_, rfl, rfl⟩
      · have hOther : char ≠ 0x5c := fun hEscape => hPlain ⟨hEscape, by decide⟩
        simp only [hOther, false_and, if_false]
        cases next <;> exact ⟨_, rfl, rfl⟩

theorem splitUnit_escape (hQuote : quote ≠ some .single) : splitUnit quote 0x5c (some next) = ([next], quote, true) := by
  obtain _ | _ | _ := quote
  · rfl
  · exact absurd rfl hQuote
  · rfl

theorem consume_escape (hQuote : quote ≠ some .single) (h : ¬(quote = some .double ∧ isQuotable next = false)) :
    consume .posix quote 0x5c (some next) = ([next], quote, true) := by
  obtain _ | _ | _ := quote
  · rfl
  · exact absurd rfl hQuote
  · have hQuotable : isQuotable next = true := by simpa using h
    simp only [isQuotable, Bool.or_eq_true, decide_eq_true_eq, or_assoc] at hQuotable
    simp only [consume, true_and, hQuotable, if_true]
    rfl

theorem consume_unquotable (h : isQuotable next = false) (after : Option Nat) :
    consume .posix (some .double) 0x5c (some next) = ([0x5c], some .double, false) ∧
      consume .posix (some .double) next after = ([next], some .double, false) := by
  simp only [isQuotable, Bool.or_eq_false_iff, decide_eq_false_iff_not] at h
  obtain ⟨⟨⟨hQuote, hEscape⟩, hDollar⟩, hBack⟩ := h
  constructor
  · simp [consume, hQuote, hEscape, hDollar, hBack]
  · cases after <;> simp [consume, hQuote, hEscape]

variable {word : CodeUnits}

theorem splitTokens_blank (hQuote : quote = none) (hSpace : isWhitespace char = true) :
    splitTokens word quote (char :: rest) = (nonEmpty word).toList ++ splitTokens [] none rest := by
  conv_lhs => unfold splitTokens
  rw [if_pos ⟨hQuote, hSpace⟩]

theorem splitTokens_one {after : Option TokenQuote} (hInside : ¬(quote = none ∧ isWhitespace char = true))
    (hSplit : splitUnit quote char rest.head? = (units, after, false)) :
    splitTokens word quote (char :: rest) = splitTokens (word ++ units) after rest := by
  conv_lhs => unfold splitTokens
  rw [if_neg hInside, hSplit]

theorem splitTokens_two {after : Option TokenQuote} (hInside : ¬(quote = none ∧ isWhitespace char = true))
    (hSplit : splitUnit quote char (some next) = (units, after, true)) :
    splitTokens word quote (char :: next :: rest) = splitTokens (word ++ units) after rest := by
  conv_lhs => unfold splitTokens
  rw [if_neg hInside, List.head?_cons, hSplit]

theorem values_nil (cursor : Nat) (token : Option OpenToken) : values cursor token [] = (nonEmpty (valueOf token)).toList := by
  rw [values, parseTokens]
  cases token with
  | none => rfl
  | some opened =>
    show [opened.value].filter (· ≠ []) = (nonEmpty opened.value).toList
    rw [nonEmpty]
    split
    · next hEmpty =>
      rw [hEmpty]
      rfl
    · next hFull =>
      rw [List.filter_cons_of_pos (by simpa using hFull)]
      rfl

theorem values_blank (cursor : Nat) (hQuote : token.bind OpenToken.quote = none) (hSpace : isWhitespace char = true) :
    values cursor token (char :: rest) = (nonEmpty (valueOf token)).toList ++ values (cursor + 1) none rest := by
  have hClosed := values_nil cursor token
  rw [values, parseTokens] at hClosed
  rw [values, parseTokens, if_pos ⟨hQuote, hSpace⟩, List.map_append, List.filter_append, hClosed]
  rfl

theorem opened_at (token : Option OpenToken) (cursor : Nat) : token.bind OpenToken.quote = (token.getD ⟨cursor, [], none⟩).quote ∧
    valueOf token = (token.getD ⟨cursor, [], none⟩).value := by
  cases token <;> exact ⟨rfl, rfl⟩

theorem values_one (cursor : Nat) (hInside : ¬(token.bind OpenToken.quote = none ∧ isWhitespace char = true))
    (hConsume : consume .posix (token.bind OpenToken.quote) char rest.head? = (units, quote, false)) :
    ∃ opened : OpenToken, opened.value = valueOf token ++ units ∧ opened.quote = quote ∧
      values cursor token (char :: rest) = values (cursor + 1) (some opened) rest := by
  obtain ⟨hSame, hValue⟩ := opened_at token cursor
  rw [hSame] at hConsume
  refine ⟨⟨(token.getD ⟨cursor, [], none⟩).start, valueOf token ++ units, quote⟩, rfl, rfl, ?_⟩
  rw [values, parseTokens, if_neg hInside, hValue]
  simp only [hConsume]
  rfl

theorem values_two (cursor : Nat) (hInside : ¬(token.bind OpenToken.quote = none ∧ isWhitespace char = true))
    (hConsume : consume .posix (token.bind OpenToken.quote) char (some next) = (units, quote, true)) :
    ∃ opened : OpenToken, opened.value = valueOf token ++ units ∧ opened.quote = quote ∧
      values cursor token (char :: next :: rest) = values (cursor + 2) (some opened) rest := by
  obtain ⟨hSame, hValue⟩ := opened_at token cursor
  rw [hSame] at hConsume
  refine ⟨⟨(token.getD ⟨cursor, [], none⟩).start, valueOf token ++ units, quote⟩, rfl, rfl, ?_⟩
  rw [values, parseTokens, if_neg hInside, hValue]
  simp only [List.head?_cons, hConsume]
  rfl

/-- From an open token that is longer by `extra` units on the engine's side. -/
def Compares (quote : Option TokenQuote) (text : CodeUnits) : Prop :=
  ∀ cursor token word extra, token.bind OpenToken.quote = quote → (valueOf token).length = word.length + extra →
    (values cursor token text).flatten.length = (splitTokens word quote text).flatten.length + extra + lostBackslashes quote text ∧
    (lostBackslashes quote text = 0 → valueOf token = word → values cursor token text = splitTokens word quote text)

theorem length_flatten_kept (word : CodeUnits) (words : List CodeUnits) :
    ((nonEmpty word).toList ++ words).flatten.length = word.length + words.flatten.length := by
  rw [nonEmpty]
  split
  · next hEmpty => simp [hEmpty]
  · simp

theorem compares_nil (quote : Option TokenQuote) : Compares quote [] := by
  intro cursor token word extra _ hLength
  rw [values_nil, splitTokens, lostBackslashes]
  have hLeft := length_flatten_kept (valueOf token) []
  have hRight := length_flatten_kept word []
  rw [List.append_nil] at hLeft hRight
  rw [hLeft, hRight, hLength]
  exact ⟨rfl, fun _ hSame => by rw [hSame]⟩

theorem compares_plain (h : rest.head? = none ∨ ¬(char = 0x5c ∧ quote ≠ some .single))
    (hLost : lostBackslashes quote (char :: rest) = lostBackslashes (quoteAfter quote char) rest)
    (ih : Compares (quoteAfter quote char) rest) : Compares quote (char :: rest) := by
  rintro cursor token word extra rfl hLength
  rw [hLost]
  by_cases hSpace : token.bind OpenToken.quote = none ∧ isWhitespace char = true
  · have hQuote : quoteAfter (token.bind OpenToken.quote) char = none := by
      rw [hSpace.1, quoteAfter, if_neg, if_neg]
      · rintro rfl
        cases hSpace.2
      · rintro rfl
        cases hSpace.2
    rw [hQuote] at ih ⊢
    obtain ⟨hSum, hSame⟩ := ih (cursor + 1) none [] 0 rfl rfl
    rw [values_blank cursor hSpace.1 hSpace.2, splitTokens_blank hSpace.1 hSpace.2, length_flatten_kept, length_flatten_kept, hSum, hLength]
    refine ⟨by omega, fun hNone hWord => ?_⟩
    rw [hWord, hSame hNone rfl]
  · obtain ⟨units, hSplit, hConsume⟩ := splitUnit_plain h
    obtain ⟨opened, hValue, hQuote, hValues⟩ := values_one cursor hSpace hConsume
    rw [hValues, splitTokens_one hSpace hSplit]
    have hOpened : valueOf (some opened) = valueOf token ++ units := hValue
    obtain ⟨hSum, hSame⟩ := ih (cursor + 1) (some opened) (word ++ units) extra hQuote
      (by rw [hOpened, List.length_append, List.length_append, hLength]; omega)
    exact ⟨hSum, fun hNone hWord => hSame hNone (by rw [hOpened, hWord])⟩

theorem compares_escape (hQuote : quote ≠ some .single) (ih : Compares quote rest) : Compares quote (0x5c :: next :: rest) := by
  rintro cursor token word extra rfl hLength
  have hInside : ¬(token.bind OpenToken.quote = none ∧ isWhitespace 0x5c = true) := fun hSpace => by cases hSpace.2
  rw [lostBackslashes, if_pos ⟨rfl, hQuote⟩, splitTokens_two hInside (splitUnit_escape hQuote)]
  by_cases hUnquotable : token.bind OpenToken.quote = some .double ∧ isQuotable next = false
  · obtain ⟨hDouble, hPlain⟩ := hUnquotable
    rw [if_pos ⟨hDouble, hPlain⟩]
    obtain ⟨hEscape, hNext⟩ := consume_unquotable hPlain rest.head?
    have hFirst : consume .posix (token.bind OpenToken.quote) 0x5c (next :: rest).head? = ([0x5c], some .double, false) := by
      rw [hDouble]
      exact hEscape
    obtain ⟨first, hFirstValue, hFirstQuote, hOne⟩ := values_one cursor hInside hFirst
    have hBind : (some first).bind OpenToken.quote = some .double := hFirstQuote
    have hSecond : consume .posix ((some first).bind OpenToken.quote) next rest.head? = ([next], some .double, false) := by
      rw [hBind]
      exact hNext
    obtain ⟨second, hSecondValue, hSecondQuote, hTwo⟩ := values_one (cursor + 1) (fun hSpace => by cases hBind.symm.trans hSpace.1) hSecond
    have hValue : valueOf (some second) = valueOf token ++ [0x5c] ++ [next] := hSecondValue.trans (congrArg (· ++ [next]) hFirstValue)
    rw [hOne, hTwo]
    obtain ⟨hSum, -⟩ := ih (cursor + 1 + 1) (some second) (word ++ [next]) (extra + 1) (hSecondQuote.trans hDouble.symm) (by
      simp only [hValue, List.length_append, List.length_singleton, hLength]
      omega)
    exact ⟨by omega, fun hNone => by omega⟩
  · rw [if_neg hUnquotable, Nat.zero_add]
    obtain ⟨opened, hValue, hOpenedQuote, hValues⟩ := values_two cursor hInside (consume_escape hQuote hUnquotable)
    have hOpened : valueOf (some opened) = valueOf token ++ [next] := hValue
    rw [hValues]
    obtain ⟨hSum, hSame⟩ := ih (cursor + 2) (some opened) (word ++ [next]) extra hOpenedQuote
      (by rw [hOpened, List.length_append, List.length_append, hLength]; omega)
    exact ⟨hSum, fun hNone hWord => hSame hNone (by rw [hOpened, hWord])⟩

theorem compares (quote : Option TokenQuote) (text : CodeUnits) : Compares quote text := by
  induction quote, text using lostBackslashes.induct with
  | case1 quote => exact compares_nil quote
  | case2 quote char => exact compares_plain (.inl rfl) (by rw [lostBackslashes, lostBackslashes]) (compares_nil _)
  | case3 quote char next rest hEscape ih =>
    obtain ⟨rfl, hQuote⟩ := hEscape
    exact compares_escape hQuote ih
  | case4 quote char next rest hPlain ih => exact compares_plain (.inr hPlain) (by rw [lostBackslashes, if_neg hPlain]) ih

theorem tokenizers_agree_iff (command : CodeUnits) :
    ((parseCommandTokens command .posix).map (·.value)).filter (· ≠ []) = splitCommandTokens command ↔
      lostBackslashes none command = 0 := by
  obtain ⟨hSum, hSame⟩ := compares none command 0 none [] 0 rfl rfl
  constructor
  · intro hAgree
    rw [show values 0 none command = splitTokens [] none command from hAgree] at hSum
    omega
  · exact fun hNone => hSame hNone rfl

end Terminal
