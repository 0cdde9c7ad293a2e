import Cosmosh.Library.ShellWords
import Cosmosh.Terminal.CompletionEngine

/-! # What a history item leaves of its command

An item that replaces the whole line is the command itself.
-/

namespace Terminal

open Library Library.CodeUnits Library.ShellWords

def TokenQuote.asQuote : TokenQuote → Quote
  | .single => .single
  | .double => .double

inductive OpensWord : Option OpenToken → Place → Prop
  | between : OpensWord none .between
  | inside {token : OpenToken} {marks : List Mark} (hValue : marks.map Mark.unit = token.value) :
    OpensWord (some token) (.inside (token.quote.map TokenQuote.asQuote) marks)

variable {significant : Nat → Bool}

variable (significant) in
theorem consume_posix (quote : Option TokenQuote) (u : Nat) (next : Option Nat) :
    ∃ added, bite significant (quote.map TokenQuote.asQuote) u next =
        (added, (consume .posix quote u next).2.1.map TokenQuote.asQuote, (consume .posix quote u next).2.2) ∧
      added.map Mark.unit = (consume .posix quote u next).1 := by
  obtain _ | ⟨_ | _⟩ := quote
  · simp only [Option.map_none, bite, consume]
    by_cases hSingle : u = 0x27
    · simp [hSingle, TokenQuote.asQuote]
    · by_cases hDouble : u = 0x22
      · simp [hDouble, TokenQuote.asQuote]
      · cases next with
        | none => simp [hSingle, hDouble, mark]
        | some v => by_cases hLast : u = 0x5c <;> simp [hSingle, hDouble, hLast, mark]
  · simp only [Option.map_some, TokenQuote.asQuote, bite, consume]
    by_cases hSingle : u = 0x27 <;> simp [hSingle, mark, TokenQuote.asQuote]
  · simp only [Option.map_some, TokenQuote.asQuote, bite, consume]
    by_cases hDouble : u = 0x22
    · simp [hDouble]
    · cases next with
      | none => simp [hDouble, mark, TokenQuote.asQuote]
      | some v =>
        have hEscapable : isEscapable v = true ↔ v = 0x22 ∨ v = 0x5c ∨ v = 0x24 ∨ v = 0x60 := by simp [isEscapable]
        simp only [hEscapable]
        by_cases hEscape : u = 0x5c ∧ (v = 0x22 ∨ v = 0x5c ∨ v = 0x24 ∨ v = 0x60)
        · simp [hEscape, mark, TokenQuote.asQuote]
        · simp [hDouble, hEscape, mark, TokenQuote.asQuote]

variable {token : Option OpenToken} {place : Place}

theorem OpensWord.quote (h : OpensWord token place) : place.quote = (token.bind OpenToken.quote).map TokenQuote.asQuote := by
  cases h <;> rfl

theorem OpensWord.quote_eq_none_iff (h : OpensWord token place) : place.quote = none ↔ token.bind OpenToken.quote = none := by
  rw [h.quote, Option.map_eq_none_iff]

theorem OpensWord.ended (h : OpensWord token place) (cursor : Nat) (ending : Ending) :
    ((token.map (·.close cursor)).toList).map ParsedCommandToken.value = (place.ended ending).map Word.text := by
  cases h with
  | between => rfl
  | inside hValue =>
    simp only [Option.map_some, Option.toList_some, Place.ended, List.map_cons, List.map_nil, OpenToken.close, Word.text, hValue]

variable {u : Nat}

theorem OpensWord.separator (h : OpensWord token place) (hQuote : place.quote = none) (hu : isWhitespace u = true)
    (cursor : Nat) (rest : CodeUnits) : parseTokens .posix cursor token (u :: rest) =
      (token.map (·.close cursor)).toList ++ parseTokens .posix (cursor + 1) none rest := by
  conv_lhs => unfold parseTokens
  rw [if_pos ⟨h.quote_eq_none_iff.mp hQuote, hu⟩]

def OpenToken.after (cursor : Nat) (token : Option OpenToken) (u : Nat) (next : Option Nat) : OpenToken :=
  let token := token.getD ⟨cursor, [], none⟩
  let consumed := consume .posix token.quote u next
  ⟨token.start, token.value ++ consumed.1, consumed.2.1⟩

variable {added : List Mark} {quote : Option Quote}

theorem OpensWord.step (h : OpensWord token place) {next : Option Nat} {both : Bool}
    (hBite : bite significant place.quote u next = (added, quote, both)) (cursor : Nat) :
    (consume .posix (token.getD ⟨cursor, [], none⟩).quote u next).2.2 = both ∧
      OpensWord (some (OpenToken.after cursor token u next)) (.inside quote (place.marks ++ added)) := by
  have hQuote : place.quote = (token.getD ⟨cursor, [], none⟩).quote.map TokenQuote.asQuote := by cases h <;> rfl
  have hMarks : place.marks.map Mark.unit = (token.getD ⟨cursor, [], none⟩).value := by
    cases h with
    | between => rfl
    | inside hValue => exact hValue
  obtain ⟨added', hSame, hValue⟩ := consume_posix significant (token.getD ⟨cursor, [], none⟩).quote u next
  rw [← hQuote, hBite, Prod.mk.injEq, Prod.mk.injEq] at hSame
  obtain ⟨rfl, rfl, rfl⟩ := hSame
  refine ⟨rfl, .inside ?_⟩
  rw [List.map_append, hMarks, hValue]
  rfl

theorem OpensWord.not_separator (h : OpensWord token place) (hSeparator : ¬(place.quote = none ∧ isWhitespace u = true)) :
    ¬(token.bind OpenToken.quote = none ∧ isWhitespace u = true) := by
  rw [← h.quote_eq_none_iff]
  exact hSeparator

variable {rest : CodeUnits}

theorem OpensWord.one (h : OpensWord token place) (hSeparator : ¬(place.quote = none ∧ isWhitespace u = true))
    (hBite : bite significant place.quote u rest.head? = (added, quote, false)) (cursor : Nat) : parseTokens .posix cursor token (u :: rest) =
      parseTokens .posix (cursor + 1) (some (OpenToken.after cursor token u rest.head?)) rest := by
  have hBoth := (h.step hBite cursor).1
  conv_lhs => unfold parseTokens
  rw [if_neg (h.not_separator hSeparator)]
  simp only
  rw [OpenToken.after]
  split
  · next hConsume =>
    rw [hConsume] at hBoth
    cases hBoth
  · next hConsume => rw [hConsume]

theorem OpensWord.two (h : OpensWord token place) {v : Nat} (hSeparator : ¬(place.quote = none ∧ isWhitespace u = true))
    (hBite : bite significant place.quote u (some v) = (added, quote, true)) (cursor : Nat) : parseTokens .posix cursor token (u :: v :: rest) =
      parseTokens .posix (cursor + 2) (some (OpenToken.after cursor token u (some v))) rest := by
  have hBoth := (h.step hBite cursor).1
  conv_lhs => unfold parseTokens
  rw [if_neg (h.not_separator hSeparator)]
  simp only [List.head?_cons]
  rw [OpenToken.after]
  generalize consume .posix (token.getD ⟨cursor, [], none⟩).quote u (some v) = consumed at hBoth ⊢
  obtain ⟨units, after, both⟩ := consumed
  obtain rfl : both = true := hBoth
  rfl

variable (significant) in
theorem OpensWord.values {token : Option OpenToken} {place : Place} (h : OpensWord token place) (cursor : Nat) (text : CodeUnits) :
    (parseTokens .posix cursor token text).map ParsedCommandToken.value = (words significant place text).map Word.text := by
  induction place, text using reading_induction significant generalizing token cursor with
  | nil place =>
    rw [parseTokens, words]
    exact h.ended cursor _
  | separator place u rest hQuote hu ih =>
    rw [h.separator hQuote hu, words_separator hQuote hu, List.map_append, List.map_append, h.ended cursor, ih .between]
  | one place u rest added quote hSeparator hBite ih =>
    rw [h.one hSeparator hBite, words_one hSeparator hBite]
    exact ih (h.step hBite cursor).2 _
  | two place u v rest added quote hSeparator hBite ih =>
    rw [h.two hSeparator hBite, words_two hSeparator hBite]
    exact ih (h.step hBite cursor).2 _

variable (significant) in
def Leads (place : Place) (text : CodeUnits) (count : Nat) : Prop :=
  ∀ rest, ∃ front : List Word, front.length = count ∧ words significant place (text ++ rest) = front ++ words significant .between rest

theorem Leads.nil : Leads significant .between [] 0 := fun _ => ⟨[], rfl, rfl⟩

theorem length_ended (place : Place) (ending ending' : Ending) : (place.ended ending).length = (place.ended ending').length := by
  cases place <;> rfl

variable {text : CodeUnits}

theorem Leads.separator {count : Nat} (hQuote : place.quote = none) (hu : isWhitespace u = true) (h : Leads significant .between text count) :
    Leads significant place (u :: text) ((place.ended .closed).length + count) := by
  intro rest
  obtain ⟨front, rfl, hFront⟩ := h rest
  refine ⟨place.ended (endingBefore (u :: (text ++ rest))) ++ front, ?_, ?_⟩
  · rw [List.length_append, length_ended place _ .closed]
  · rw [List.cons_append, words_separator hQuote hu, hFront, List.append_assoc]

theorem Leads.one {count : Nat} (hSeparator : ¬(place.quote = none ∧ isWhitespace u = true)) (hText : text ≠ [])
    (hBite : bite significant place.quote u text.head? = (added, quote, false))
    (h : Leads significant (.inside quote (place.marks ++ added)) text count) : Leads significant place (u :: text) count := by
  intro rest
  obtain ⟨front, hLength, hFront⟩ := h rest
  have hHead : (text ++ rest).head? = text.head? := by
    cases text with
    | nil => exact absurd rfl hText
    | cons => rfl
  exact ⟨front, hLength, by rw [List.cons_append, words_one hSeparator (hHead ▸ hBite), hFront]⟩

theorem Leads.two {v : Nat} {count : Nat} (hSeparator : ¬(place.quote = none ∧ isWhitespace u = true))
    (hBite : bite significant place.quote u (some v) = (added, quote, true))
    (h : Leads significant (.inside quote (place.marks ++ added)) text count) : Leads significant place (u :: v :: text) count := by
  intro rest
  obtain ⟨front, hLength, hFront⟩ := h rest
  exact ⟨front, hLength, by rw [List.cons_append, List.cons_append, words_two hSeparator hBite, hFront]⟩

section

variable (h : OpensWord token place) (cursor : Nat)
include h

theorem length_parseTokens (text : CodeUnits) : (parseTokens .posix cursor token text).length = (words significant place text).length := by
  rw [← List.length_map (f := ParsedCommandToken.value), h.values significant cursor text, List.length_map]

theorem length_ended_of_follows (ending : Ending) : ((token.map (·.close cursor)).toList).length = (place.ended ending).length := by
  cases h <;> rfl

theorem OpensWord.lastStart (text : CodeUnits) {last : ParsedCommandToken}
    (hLast : (parseTokens .posix cursor token text).getLast? = some last) :
    (∃ t, token = some t ∧ (parseTokens .posix cursor token text).length = 1 ∧ last.start = t.start) ∨
      ∃ n, last.start = cursor + n ∧ (token.isSome = true → 0 < n) ∧ n ≤ text.length ∧
        Leads significant place (text.take n) ((parseTokens .posix cursor token text).length - 1) := by
  induction place, text using reading_induction significant generalizing token cursor with
  | nil place =>
    rw [parseTokens] at hLast ⊢
    cases token with
    | none => cases hLast
    | some t =>
      obtain rfl := Option.some.inj hLast
      exact .inl ⟨t, rfl, rfl, rfl⟩
  | separator place u rest hQuote hu ih =>
    rw [h.separator hQuote hu] at hLast ⊢
    rw [List.getLast?_append] at hLast
    cases hRest : (parseTokens .posix (cursor + 1) none rest).getLast? with
    | none =>
      rw [List.getLast?_eq_none_iff] at hRest
      rw [hRest] at hLast ⊢
      cases token with
      | none => cases hLast
      | some t =>
        obtain rfl := Option.some.inj hLast
        exact .inl ⟨t, rfl, rfl, rfl⟩
    | some found =>
      rw [hRest] at hLast
      obtain rfl := Option.some.inj hLast
      obtain ⟨t, hNone, -⟩ | ⟨n, hStart, -, hLength, hLeads⟩ := ih .between (cursor + 1) hRest
      · cases hNone
      · refine .inr ⟨n + 1, by omega, fun _ => Nat.succ_pos n, by rw [List.length_cons]; omega, ?_⟩
        have hSome : 0 < (parseTokens .posix (cursor + 1) none rest).length := by
          rw [List.length_pos_iff]
          rintro hNil
          rw [hNil] at hRest
          cases hRest
        have hCount : (((token.map (·.close cursor)).toList) ++ parseTokens .posix (cursor + 1) none rest).length - 1 =
            (place.ended .closed).length + ((parseTokens .posix (cursor + 1) none rest).length - 1) := by
          rw [List.length_append, length_ended_of_follows h cursor .closed]
          omega
        rw [hCount]
        exact hLeads.separator hQuote hu
  | one place u rest added quote hSeparator hBite ih =>
    rw [h.one hSeparator hBite] at hLast ⊢
    obtain ⟨t, hToken, hLength, hStart⟩ | ⟨n, hStart, hPos, hLength, hLeads⟩ := ih (h.step hBite cursor).2 (cursor + 1) hLast
    · obtain rfl := Option.some.inj hToken
      cases token with
      | some t => exact .inl ⟨t, rfl, hLength, hStart⟩
      | none =>
        refine .inr ⟨0, hStart, nofun, Nat.zero_le _, ?_⟩
        cases h
        rw [hLength]
        exact .nil
    · refine .inr ⟨n + 1, by omega, fun _ => Nat.succ_pos n, by rw [List.length_cons]; omega, ?_⟩
      have hn := hPos rfl
      have hHead : (rest.take n).head? = rest.head? := by rw [List.head?_take, if_neg (by omega)]
      have hSome : rest.take n ≠ [] := by
        rw [ne_eq, List.take_eq_nil_iff]
        rintro (hZero | hNil)
        · omega
        · rw [hNil, List.length_nil] at hLength
          omega
      exact hLeads.one hSeparator hSome (hHead ▸ hBite)
  | two place u v rest added quote hSeparator hBite ih =>
    rw [h.two hSeparator hBite] at hLast ⊢
    obtain ⟨t, hToken, hLength, hStart⟩ | ⟨n, hStart, hPos, hLength, hLeads⟩ := ih (h.step hBite cursor).2 (cursor + 2) hLast
    · obtain rfl := Option.some.inj hToken
      cases token with
      | some t => exact .inl ⟨t, rfl, hLength, hStart⟩
      | none =>
        refine .inr ⟨0, hStart, nofun, Nat.zero_le _, ?_⟩
        cases h
        rw [hLength]
        exact .nil
    · refine .inr ⟨n + 2, by omega, fun _ => by omega, by rw [List.length_cons, List.length_cons]; omega, ?_⟩
      exact hLeads.two hSeparator hBite

end

theorem words_inside_ne_nil (place : Place) (text : CodeUnits) (h : place ≠ .between) : words significant place text ≠ [] := by
  induction place, text using reading_induction significant with
  | nil place =>
    cases place with
    | between => exact absurd rfl h
    | inside quote marks => nofun
  | separator place u rest hQuote hu ih =>
    rw [words_separator hQuote hu]
    cases place with
    | between => exact absurd rfl h
    | inside quote marks => nofun
  | one place u rest added quote hSeparator hBite ih =>
    rw [words_one hSeparator hBite]
    exact ih nofun
  | two place u v rest added quote hSeparator hBite ih =>
    rw [words_two hSeparator hBite]
    exact ih nofun

theorem leads_of_no_words (place : Place) (text : CodeUnits) (h : words significant place text = []) :
    Leads significant place text 0 ∧ ∀ u ∈ text, isWhitespace u = true := by
  induction place, text using reading_induction significant with
  | nil place =>
    cases place with
    | between => exact ⟨.nil, List.forall_mem_nil _⟩
    | inside quote marks => cases h
  | separator place u rest hQuote hu ih =>
    rw [words_separator hQuote hu] at h
    obtain ⟨hEnded, hRest⟩ := List.append_eq_nil_iff.mp h
    obtain ⟨hLeads, hBlank⟩ := ih hRest
    have hLength : (place.ended .closed).length = 0 := by
      rw [length_ended place .closed (endingBefore (u :: rest)), hEnded]
      rfl
    have hSeparator := hLeads.separator hQuote hu
    rw [hLength] at hSeparator
    exact ⟨hSeparator, List.forall_mem_cons.mpr ⟨hu, hBlank⟩⟩
  | one place u rest added quote hSeparator hBite ih =>
    rw [words_one hSeparator hBite] at h
    exact absurd h (words_inside_ne_nil _ _ nofun)
  | two place u v rest added quote hSeparator hBite ih =>
    rw [words_two hSeparator hBite] at h
    exact absurd h (words_inside_ne_nil _ _ nofun)

theorem endsInWhitespace_cons (hRest : rest ≠ []) : endsInWhitespace (u :: rest) = endsInWhitespace rest := by
  cases rest with
  | nil => exact absurd rfl hRest
  | cons v rest => rw [endsInWhitespace, List.getLast?_cons_cons, endsInWhitespace]

theorem endsInWhitespace_of_blank (hText : text ≠ []) (hBlank : ∀ u ∈ text, isWhitespace u = true) : endsInWhitespace text = true := by
  rw [endsInWhitespace, List.getLast?_eq_some_getLast hText]
  exact hBlank _ (List.getLast_mem hText)

theorem OpensWord.lastEnd (h : OpensWord token place) (cursor : Nat) (text : CodeUnits) {last : ParsedCommandToken}
    (hLast : (parseTokens .posix cursor token text).getLast? = some last) : last.end ≤ cursor + text.length ∧
      (last.end < cursor + text.length → Leads significant place text (parseTokens .posix cursor token text).length) ∧
      (endsInWhitespace text = false → last.end = cursor + text.length) := by
  induction place, text using reading_induction significant generalizing token cursor with
  | nil place =>
    rw [parseTokens] at hLast
    cases token with
    | none => cases hLast
    | some t =>
      obtain rfl := Option.some.inj hLast
      exact ⟨Nat.le_refl _, fun hShort => absurd hShort (Nat.lt_irrefl _), fun _ => rfl⟩
  | separator place u rest hQuote hu ih =>
    rw [h.separator hQuote hu] at hLast ⊢
    rw [List.getLast?_append] at hLast
    rw [List.length_append, length_ended_of_follows h cursor .closed, List.length_cons]
    cases hRest : (parseTokens .posix (cursor + 1) none rest).getLast? with
    | none =>
      rw [List.getLast?_eq_none_iff] at hRest
      have hNoWords : words significant .between rest = [] := by
        rw [← List.length_eq_zero_iff, ← length_parseTokens .between (cursor + 1), hRest]
        rfl
      obtain ⟨hLeads, hBlank⟩ := leads_of_no_words _ _ hNoWords
      rw [hRest] at hLast ⊢
      cases token with
      | none => cases hLast
      | some t =>
        obtain rfl := Option.some.inj hLast
        refine ⟨Nat.le_add_right _ _, fun _ => hLeads.separator hQuote hu, fun hEnd => ?_⟩
        rw [endsInWhitespace_of_blank (List.cons_ne_nil u rest) (List.forall_mem_cons.mpr ⟨hu, hBlank⟩)] at hEnd
        cases hEnd
    | some found =>
      rw [hRest] at hLast
      obtain rfl := Option.some.inj hLast
      obtain ⟨hBound, hLeads, hFull⟩ := ih .between (cursor + 1) hRest
      have hText : rest ≠ [] := by
        rintro rfl
        cases hRest
      refine ⟨by omega, fun hShort => (hLeads (by omega)).separator hQuote hu, fun hEnd => ?_⟩
      have hHere := hFull (endsInWhitespace_cons hText ▸ hEnd)
      omega
  | one place u rest added quote hSeparator hBite ih =>
    rw [h.one hSeparator hBite] at hLast ⊢
    obtain ⟨hBound, hLeads, hFull⟩ := ih (h.step hBite cursor).2 (cursor + 1) hLast
    rw [List.length_cons]
    cases rest with
    | nil =>
      have hEnd := hFull rfl
      rw [List.length_nil] at hEnd ⊢
      exact ⟨by omega, fun hShort => by omega, fun _ => by omega⟩
    | cons v rest =>
      refine ⟨by omega, fun hShort => ?_, fun hEnd => ?_⟩
      · exact (hLeads (by omega)).one hSeparator (List.cons_ne_nil v rest) hBite
      · have hHere := hFull (endsInWhitespace_cons (List.cons_ne_nil v rest) ▸ hEnd)
        omega
  | two place u v rest added quote hSeparator hBite ih =>
    rw [h.two hSeparator hBite] at hLast ⊢
    obtain ⟨hBound, hLeads, hFull⟩ := ih (h.step hBite cursor).2 (cursor + 2) hLast
    rw [List.length_cons, List.length_cons]
    refine ⟨by omega, fun hShort => (hLeads (by omega)).two hSeparator hBite, fun hEnd => ?_⟩
    have hHere : last.end = cursor + 2 + rest.length := by
      cases rest with
      | nil => exact hFull rfl
      | cons w rest =>
        refine hFull ?_
        rw [← endsInWhitespace_cons (List.cons_ne_nil w rest), ← endsInWhitespace_cons (List.cons_ne_nil v _)]
        exact hEnd
    omega

def currentToken (linePrefix : CodeUnits) : CurrentToken := resolveCurrentToken linePrefix (parseCommandTokens linePrefix .posix)

def typedBare (linePrefix : CodeUnits) : Bool :=
  match (parseCommandTokens linePrefix .posix).getLast? with
  | none => true
  | some last =>
    if endsInWhitespace linePrefix then last.end < linePrefix.length else last.end - last.start = last.value.length

variable (significant) in
theorem leads_kept {linePrefix : CodeUnits} (hTyped : typedBare linePrefix = true) (hIndex : (currentToken linePrefix).tokenIndex ≠ 0) :
    Leads significant .between (linePrefix.take (linePrefix.length - (currentToken linePrefix).token.length))
      (currentToken linePrefix).tokenIndex := by
  rw [currentToken, resolveCurrentToken] at hIndex ⊢
  rw [typedBare] at hTyped
  split at hIndex
  · exact absurd rfl hIndex
  · next hBlank =>
    rw [if_neg hBlank]
    cases hLast : (parseCommandTokens linePrefix .posix).getLast? with
    | none =>
      rw [hLast] at hIndex
      exact absurd rfl hIndex
    | some last =>
      rw [hLast] at hTyped
      obtain ⟨hBound, hLeads, hFull⟩ := OpensWord.between.lastEnd  0 linePrefix hLast
      simp only at hTyped ⊢
      split at hTyped
      · next hSpace =>
        rw [if_pos hSpace, List.length_nil, Nat.sub_zero, List.take_length]
        exact hLeads (by simpa using hTyped)
      · next hSpace =>
        have hEnd := hFull (Bool.eq_false_iff.mpr hSpace)
        have hLength : last.end - last.start = last.value.length := by simpa using hTyped
        rw [if_neg hSpace]
        obtain ⟨t, hNone, -⟩ | ⟨n, hStart, -, hn, hLeads⟩ := OpensWord.between.lastStart  0 linePrefix hLast
        · cases hNone
        · have hKept : linePrefix.length - last.value.length = n := by omega
          rw [hKept]
          exact hLeads

def keptValues (values : List CodeUnits) : List CodeUnits := (values.map trim).filter (· ≠ [])

variable (significant) in
theorem tokenizeCommand_posix (line : CodeUnits) : tokenizeCommand line .posix = keptValues ((wordsOf significant line).map Word.text) := by
  rw [wordsOf, ← OpensWord.between.values significant 0 line, tokenizeCommand, keptValues, parseCommandTokens, List.map_map]
  rfl

def lengths (values : List CodeUnits) : Nat := (values.map fun value => value.length + 1).sum

theorem lengths_cons (value : CodeUnits) (values : List CodeUnits) : lengths (value :: values) = value.length + 1 + lengths values := rfl

theorem length_trim_le (t : CodeUnits) : (trim t).length ≤ t.length :=
  (List.rdropWhile_prefix _ _).length_le.trans (List.dropWhile_suffix _).length_le

theorem eq_trim_of_length {t : CodeUnits} (h : t.length ≤ (trim t).length) : trim t = t := by
  have hSublist : (trim t).Sublist t := (List.rdropWhile_prefix _ _).sublist.trans (List.dropWhile_suffix _).sublist
  exact hSublist.eq_of_length_le h

theorem keptValues_cons (value : CodeUnits) (values : List CodeUnits) :
    keptValues (value :: values) = if trim value = [] then keptValues values else trim value :: keptValues values := by
  by_cases h : trim value = [] <;> simp [keptValues, h]

variable {values : List CodeUnits}

theorem lengths_drop_lt {index : Nat} (h : index < values.length) : lengths (values.drop (index + 1)) < lengths (values.drop index) := by
  rw [List.drop_eq_getElem_cons h, lengths_cons]
  omega

section

variable (values : List CodeUnits) (index : Nat)

theorem lengths_drop_le : lengths (values.drop (index + 1)) ≤ lengths (values.drop index) := by
  obtain hIndex | hIndex := Nat.lt_or_ge index values.length
  · exact (lengths_drop_lt hIndex).le
  · rw [List.drop_eq_nil_of_le (Nat.le_succ_of_le hIndex)]
    exact Nat.zero_le _

theorem lengths_keptValues_le : lengths ((keptValues values).drop index) ≤ lengths (values.drop index) := by
  induction values generalizing index with
  | nil => exact Nat.le_refl _
  | cons value values ih =>
    rw [keptValues_cons]
    cases index with
    | zero =>
      have hRest := ih 0
      have hTrim := length_trim_le value
      split <;> simp only [List.drop_zero, lengths_cons] at hRest ⊢ <;> omega
    | succ index =>
      have hRest := ih index
      have hDrop := lengths_drop_le (keptValues values) index
      split <;> simp only [List.drop_succ_cons] <;> omega

theorem keptValues_of_lengths_le (hIndex : index < (keptValues values).length)
    (h : lengths (values.drop index) ≤ lengths ((keptValues values).drop index)) :
    (∀ value ∈ values, trim value ≠ []) ∧ ∀ value ∈ values.drop index, trim value = value := by
  induction values generalizing index with
  | nil => cases hIndex
  | cons value values ih =>
    rw [keptValues_cons] at h hIndex
    cases index with
    | zero =>
      have hRest := lengths_keptValues_le values 0
      have hTrim := length_trim_le value
      split at h
      · simp only [List.drop_zero, lengths_cons] at h hRest
        omega
      · next hKept =>
        simp only [List.drop_zero, lengths_cons] at h hRest
        have hSame : trim value = value := eq_trim_of_length (by omega)
        cases hValues : keptValues values with
        | nil =>
          have hEmpty : values = [] := by
            cases values with
            | nil => rfl
            | cons next values =>
              rw [hValues, lengths_cons] at h
              simp only [lengths, List.map_nil, List.sum_nil] at h
              omega
          subst hEmpty
          simpa using ⟨hKept, hSame⟩
        | cons next kept =>
          obtain ⟨hNonempty, hTrimmed⟩ := ih 0 (by rw [hValues]; exact Nat.succ_pos _) (by simp only [List.drop_zero]; omega)
          exact ⟨List.forall_mem_cons.mpr ⟨hKept, hNonempty⟩, List.forall_mem_cons.mpr ⟨hSame, hTrimmed⟩⟩
    | succ index =>
      have hRest := lengths_keptValues_le values index
      by_cases hKept : trim value = []
      · rw [if_pos hKept] at h hIndex
        rw [List.drop_succ_cons] at h
        have hDrop := lengths_drop_lt (Nat.lt_of_succ_lt hIndex)
        omega
      · rw [if_neg hKept] at h hIndex
        rw [List.drop_succ_cons, List.drop_succ_cons] at h
        obtain ⟨hNonempty, hTrimmed⟩ := ih index (Nat.lt_of_succ_lt_succ hIndex) h
        exact ⟨List.forall_mem_cons.mpr ⟨hKept, hNonempty⟩, hTrimmed⟩

end

variable (significant) in
def StandsUnquoted (command : CodeUnits) (index : Nat) : Prop :=
  (∀ w ∈ wordsOf significant command, trim w.text ≠ []) ∧ Bare ((wordsOf significant command).drop index)

instance (command : CodeUnits) (index : Nat) : Decidable (StandsUnquoted significant command index) := inferInstanceAs (Decidable (_ ∧ _))

theorem trim_nil : trim [] = [] := rfl

theorem trim_of_no_whitespace {t : CodeUnits} (h : ∀ u ∈ t, isWhitespace u = false) : trim t = t := by
  have hStart : t.dropWhile isWhitespace = t := by
    cases t with
    | nil => rfl
    | cons u t => exact List.dropWhile_cons_of_neg (by simp [h u List.mem_cons_self])
  rw [trim, hStart, List.rdropWhile_eq_self_iff]
  intro hText
  simp [h _ (List.getLast_mem hText)]

theorem keptValues_of_nonblank (h : ∀ value ∈ values, trim value ≠ []) : keptValues values = values.map trim := by
  rw [keptValues, List.filter_eq_self]
  intro value hValue
  obtain ⟨original, hOriginal, rfl⟩ := List.mem_map.mp hValue
  simpa using h original hOriginal

theorem drop_map_trim (index : Nat) (h : ∀ value ∈ values.drop index, trim value = value) :
    (values.map trim).drop index = values.drop index := by
  rw [← List.map_drop]
  exact (List.map_congr_left h).trans (List.map_id _)

theorem text_ne_nil {w : Word} (h : trim w.text ≠ []) : w.text ≠ [] := by
  intro hText
  rw [hText] at h
  exact h trim_nil

theorem kept_of_words_inserted {ws : List Word} {index : Nat} (hIndex : index < (keptValues (ws.map Word.text)).length)
    (hRead : wordsOf significant (joinWords ((keptValues (ws.map Word.text)).drop index)) = ws.drop index) :
    (∀ w ∈ ws, trim w.text ≠ []) ∧ (keptValues (ws.map Word.text)).drop index = (ws.drop index).map Word.text := by
  have hRoom := room_words_le significant .between (joinWords ((keptValues (ws.map Word.text)).drop index))
  rw [← wordsOf, hRead] at hRoom
  have hJoined : (joinWords ((keptValues (ws.map Word.text)).drop index)).length + 1 =
      lengths ((keptValues (ws.map Word.text)).drop index) := by
    rw [List.drop_eq_getElem_cons hIndex]
    exact length_joinWords _ _
  have hWords : room (ws.drop index) = lengths ((ws.map Word.text).drop index) := by
    rw [← List.map_drop, lengths, List.map_map, room]
    simp [Function.comp_def, Word.text]
  have hMarks : Place.between.marks.length = 0 := rfl
  obtain ⟨hNonblank, hTrimmed⟩ := keptValues_of_lengths_le (ws.map Word.text) index hIndex (by omega)
  refine ⟨fun w hw => hNonblank _ (List.mem_map_of_mem hw), ?_⟩
  rw [keptValues_of_nonblank hNonblank, drop_map_trim index hTrimmed, List.map_drop]

theorem words_inserted_iff (hSyntax : ∀ u, isSyntax u = true → significant u = true) (command : CodeUnits) (index : Nat)
    (hIndex : index < (tokenizeCommand command .posix).length) :
    wordsOf significant (joinWords ((tokenizeCommand command .posix).drop index)) = (wordsOf significant command).drop index ↔
      StandsUnquoted significant command index := by
  have hSimple : Simple ((wordsOf significant command).drop index) :=
    (simple_words hSyntax .between command fun _ => List.forall_mem_nil _).drop index
  rw [tokenizeCommand_posix significant] at hIndex ⊢
  constructor
  · intro hRead
    obtain ⟨hNonblank, hKept⟩ := kept_of_words_inserted hIndex hRead
    rw [hKept] at hRead
    exact ⟨hNonblank, bare_of_words_joined hSimple (fun w hw => text_ne_nil (hNonblank w (List.mem_of_mem_drop hw))) hRead⟩
  · rintro ⟨hNonblank, hBare⟩
    have hValues : ∀ value ∈ (wordsOf significant command).map Word.text, trim value ≠ [] := List.forall_mem_map.mpr hNonblank
    have hTrimmed : ∀ value ∈ ((wordsOf significant command).map Word.text).drop index, trim value = value := by
      rw [← List.map_drop]
      refine List.forall_mem_map.mpr fun w hw => trim_of_no_whitespace ?_
      exact (endsBare_text hSimple (fun w hw => (hBare w hw).1) w hw).no_whitespace
    rw [keptValues_of_nonblank hValues, drop_map_trim index hTrimmed, ← List.map_drop, wordsOf]
    exact words_joined_text hSimple hBare fun w hw => text_ne_nil (hNonblank w (List.mem_of_mem_drop hw))

section Items

variable {toLowerCase : CodeUnits → CodeUnits} {specs : List TerminalCommandSpec}

variable {item : TerminalCompletionItem}

theorem mem_of_addItems {items : List TerminalCompletionItem} {target : JsMap CodeUnits TerminalCompletionItem}
    {label : CodeUnits} (h : (items.foldl addItemWithBestScore target).get? label = some item) :
    target.get? label = some item ∨ (item ∈ items ∧ item.label = label) := by
  induction items generalizing target with
  | nil => exact .inl h
  | cons next items ih =>
    obtain hBefore | ⟨hItem, hLabel⟩ := ih h
    · have hSet : (target.set next.label next).get? label = some item →
          target.get? label = some item ∨ (item ∈ next :: items ∧ item.label = label) := by
        intro hSet
        rw [JsMap.get?_set] at hSet
        split at hSet
        · next hLabel =>
          obtain rfl := Option.some.inj hSet
          exact .inr ⟨List.mem_cons_self, hLabel.symm⟩
        · exact .inl hSet
      rw [addItemWithBestScore] at hBefore
      split at hBefore
      · exact hSet hBefore
      · split at hBefore
        · exact hSet hBefore
        · exact .inl hBefore
    · exact .inr ⟨List.mem_cons_of_mem _ hItem, hLabel⟩

structure Replaces (context : HistoryContext) (command : CodeUnits) (item : TerminalCompletionItem) : Prop where
  deleted : item.replacePrefixLength =
    some (if context.currentTokenIndex = 0 then context.normalizedLinePrefix.length else context.currentTokenValue.length)
  inserted : item.insertText =
    if context.currentTokenIndex = 0 then command
    else joinWords ((tokenizeCommand command .posix).drop context.currentTokenIndex)
  current : context.currentTokenIndex ≠ 0 → context.currentTokenIndex < (tokenizeCommand command .posix).length

theorem replaces_of_toHistoryItem {command : CodeUnits} {context : HistoryContext} {index totalCommands : Nat}
    (h : toHistoryItem toLowerCase command context .posix index totalCommands = some item) : Replaces context item.label item := by
  simp only [toHistoryItem, Option.ite_none_left_eq_some, Option.some.injEq] at h
  obtain ⟨-, -, -, hCurrent, -, rfl⟩ := h
  refine ⟨rfl, rfl, fun hIndex => ?_⟩
  by_contra hLength
  refine hCurrent ⟨hIndex, ?_⟩
  rw [List.getD_eq_getElem?_getD, List.getElem?_eq_none (Nat.le_of_not_lt hLength)]
  rfl

theorem replaces_of_historyItems {recentCommands : List Command} {request : TerminalCompletionRequest} {command : CodeUnits}
    (h : (historyItems toLowerCase specs .posix recentCommands request).get? command = some item) :
    Replaces (historyContext toLowerCase specs .posix request) command item := by
  simp only [historyItems] at h
  split at h
  · cases h
  · obtain hNone | ⟨hItem, rfl⟩ := mem_of_addItems h
    · cases hNone
    · obtain ⟨⟨original, index⟩, -, hSome⟩ := List.mem_filterMap.mp hItem
      exact replaces_of_toHistoryItem hSome

end Items

theorem normalizedLinePrefix_dispatch (linePrefix : CodeUnits) (fuzzyMatch includeHistory : Bool) (trigger : CompletionTrigger) :
    (dispatchCompletionRequest linePrefix fuzzyMatch includeHistory trigger).normalizedLinePrefix = linePrefix := by
  rw [TerminalCompletionRequest.normalizedLinePrefix, dispatchCompletionRequest]
  simp

variable (significant) in
def KeepsWords (linePrefix command : CodeUnits) (item : TerminalCompletionItem) : Prop :=
  (wordsOf significant (nextLinePrefix linePrefix 0 item)).drop (currentToken linePrefix).tokenIndex =
    (wordsOf significant command).drop (currentToken linePrefix).tokenIndex

/-- An item for the first token keeps all words. An item for a later one keeps them if the rest of the command stands
unquoted and the typed token is replaced in full; with such a token, only then. -/
theorem history_item_keeps_words (hSyntax : ∀ u, isSyntax u = true → significant u = true) (toLowerCase : CodeUnits → CodeUnits)
    (specs : List TerminalCommandSpec) (recentCommands : List Command) (linePrefix : CodeUnits) (fuzzyMatch includeHistory : Bool)
    (trigger : CompletionTrigger) (command : CodeUnits) (item : TerminalCompletionItem)
    (hOffered : (historyItems toLowerCase specs .posix recentCommands
      (dispatchCompletionRequest linePrefix fuzzyMatch includeHistory trigger)).get? command = some item) :
    ((currentToken linePrefix).tokenIndex = 0 ∨
        typedBare linePrefix = true ∧ StandsUnquoted significant command (currentToken linePrefix).tokenIndex →
      KeepsWords significant linePrefix command item) ∧ (typedBare linePrefix = true → KeepsWords significant linePrefix command item →
      (currentToken linePrefix).tokenIndex = 0 ∨ StandsUnquoted significant command (currentToken linePrefix).tokenIndex) := by
  have hReplaces := replaces_of_historyItems hOffered
  have hIndex : (historyContext toLowerCase specs .posix
      (dispatchCompletionRequest linePrefix fuzzyMatch includeHistory trigger)).currentTokenIndex =
        (currentToken linePrefix).tokenIndex := by
    rw [historyContext, normalizedLinePrefix_dispatch, currentToken]
  have hValue : (historyContext toLowerCase specs .posix
      (dispatchCompletionRequest linePrefix fuzzyMatch includeHistory trigger)).currentTokenValue =
        (currentToken linePrefix).token := by
    rw [historyContext, normalizedLinePrefix_dispatch, currentToken]
  have hPrefix : (historyContext toLowerCase specs .posix
      (dispatchCompletionRequest linePrefix fuzzyMatch includeHistory trigger)).normalizedLinePrefix = linePrefix := by
    rw [historyContext, normalizedLinePrefix_dispatch]
  obtain ⟨hDeleted, hInserted, hCurrent⟩ := hReplaces
  rw [hIndex, hPrefix, hValue] at hDeleted
  rw [hIndex] at hInserted hCurrent
  by_cases hFirst : (currentToken linePrefix).tokenIndex = 0
  · have hWhole : KeepsWords significant linePrefix command item := by
      rw [KeepsWords, nextLinePrefix, hDeleted, hInserted, if_pos hFirst, if_pos hFirst, Option.getD_some, Nat.sub_self,
        List.take_zero, List.nil_append]
    exact ⟨fun _ => hWhole, fun _ _ => .inl hFirst⟩
  · have hIff (hTyped : typedBare linePrefix = true) :
        KeepsWords significant linePrefix command item ↔ StandsUnquoted significant command (currentToken linePrefix).tokenIndex := by
      obtain ⟨front, hLength, hFront⟩ := leads_kept significant hTyped hFirst item.insertText
      rw [KeepsWords, nextLinePrefix, hDeleted, if_neg hFirst, Option.getD_some, wordsOf, hFront, ← hLength, List.drop_left, hLength,
        hInserted, if_neg hFirst]
      exact words_inserted_iff hSyntax command _ (hCurrent hFirst)
    constructor
    · rintro (hZero | ⟨hTyped, hUnquoted⟩)
      · exact absurd hZero hFirst
      · exact (hIff hTyped).mpr hUnquoted
    · exact fun hTyped hKeeps => .inr ((hIff hTyped).mp hKeeps)

theorem needsQuoting_of_isSyntax (h : isSyntax u = true) : needsQuoting u = true := by
  rw [needsQuoting, h]
  rfl

def offered (command linePrefix : List Char) : Option TerminalCompletionItem :=
  (historyItems toAsciiLower [] .posix [ofAscii command]
    (dispatchCompletionRequest (ofAscii linePrefix) true true .typing)).get? (ofAscii command)

def quotedCommand : List Char := ['g', ' ', '"', 'a', ' ', 'b', '"', ' ', 'c']

def plainCommand : List Char := ['g', ' ', 'a', 'b', ' ', 'c']

theorem offered_items :
    (offered quotedCommand ['g', ' ']).map (nextLinePrefix (ofAscii ['g', ' ']) 0) = some (ofAscii ['g', ' ', 'a', ' ', 'b', ' ', 'c']) ∧
      (offered plainCommand ['g', ' ', '"', 'a']).map (nextLinePrefix (ofAscii ['g', ' ', '"', 'a']) 0) =
        some (ofAscii ['g', ' ', '"', 'a', 'b', ' ', 'c']) ∧ (offered plainCommand ['g', ' ', 'a']).isSome = true := by
  decide +kernel

theorem history_item_changes_words : (∃ item, offered quotedCommand ['g', ' '] = some item ∧
      ¬KeepsWords needsQuoting (ofAscii ['g', ' ']) (ofAscii quotedCommand) item) ∧
    ∃ item, offered plainCommand ['g', ' ', '"', 'a'] = some item ∧
      ¬KeepsWords needsQuoting (ofAscii ['g', ' ', '"', 'a']) (ofAscii plainCommand) item := by
  obtain ⟨hQuoted, hTyped, -⟩ := offered_items
  constructor
  · obtain ⟨item, hItem, hLine⟩ := Option.map_eq_some_iff.mp hQuoted
    refine ⟨item, hItem, ?_⟩
    rw [KeepsWords, hLine]
    decide +kernel
  · obtain ⟨item, hItem, hLine⟩ := Option.map_eq_some_iff.mp hTyped
    refine ⟨item, hItem, ?_⟩
    rw [KeepsWords, hLine]
    decide +kernel

theorem history_item_keeps_plain_words : ∃ item, offered plainCommand ['g', ' ', 'a'] = some item ∧
      KeepsWords needsQuoting (ofAscii ['g', ' ', 'a']) (ofAscii plainCommand) item := by
  obtain ⟨item, hItem⟩ := Option.isSome_iff_exists.mp offered_items.2.2
  refine ⟨item, hItem, (history_item_keeps_words (fun _ => needsQuoting_of_isSyntax) _ _ _ _ _ _ _ _ _ hItem).1 (.inr ?_)⟩
  decide +kernel

end Terminal
