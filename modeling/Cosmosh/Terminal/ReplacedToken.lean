import Cosmosh.Terminal.HistorySuggestions

/-! # The text a suggestion replaces

The engine answers with the length of the value of the current token, and the renderer deletes so many characters of the
line.
-/

namespace Terminal

open Library Library.CodeUnits

def isQuoteMark (mode : TerminalTokenizerMode) (u : Nat) : Bool := u = 0x22 || (u = 0x27 && (mode = .posix || mode = .powershell))

def Verbatim (mode : TerminalTokenizerMode) (raw : CodeUnits) : Prop :=
  (∀ u ∈ raw, isQuoteMark mode u = false) ∧ (mode = .posix → 0x5c ∉ raw.dropLast)

instance (mode : TerminalTokenizerMode) (raw : CodeUnits) : Decidable (Verbatim mode raw) :=
  inferInstanceAs (Decidable ((∀ u ∈ raw, isQuoteMark mode u = false) ∧ (mode = .posix → 0x5c ∉ raw.dropLast)))

def rawCurrentToken (mode : TerminalTokenizerMode) (linePrefix : CodeUnits) : CodeUnits :=
  match (parseCommandTokens linePrefix mode).getLast? with
  | some token => if token.end = linePrefix.length then linePrefix.drop token.start else []
  | none => []

def answeredPrefixLength (mode : TerminalTokenizerMode) (linePrefix : CodeUnits) : Nat :=
  (resolveCurrentToken linePrefix (parseCommandTokens linePrefix mode)).replacePrefixLength

structure CoversRawToken (mode : TerminalTokenizerMode) (linePrefix : CodeUnits) (item : TerminalCompletionItem) : Prop where
  deleted : item.replacePrefixLength.getD (answeredPrefixLength mode linePrefix) = (rawCurrentToken mode linePrefix).length
  accepted : nextLinePrefix linePrefix (answeredPrefixLength mode linePrefix) item =
    linePrefix.take (linePrefix.length - (rawCurrentToken mode linePrefix).length) ++ item.insertText

variable {more : CodeUnits}

theorem Verbatim.of_append {mode : TerminalTokenizerMode} {raw : CodeUnits} (h : Verbatim mode (raw ++ more)) : Verbatim mode raw := by
  refine ⟨fun u hu => h.1 u (List.mem_append_left more hu), fun hPosix hMem => h.2 hPosix ?_⟩
  rcases List.eq_nil_or_concat more with rfl | ⟨front, last, rfl⟩
  · rwa [List.append_nil]
  · rw [List.concat_eq_append, ← List.append_assoc, List.dropLast_concat]
    exact List.mem_append_left front (List.dropLast_subset raw hMem)

def Reads (mode : TerminalTokenizerMode) (token : OpenToken) (raw text : CodeUnits) : Prop :=
  (token.value.length = raw.length ∧ token.quote = none ∧ Verbatim mode raw ∧ (∀ u ∈ raw, isWhitespace u = false) ∧
      (text ≠ [] → mode = .posix → 0x5c ∉ raw)) ∨
    (token.value.length < raw.length ∧ ¬Verbatim mode raw)

theorem length_ite_le {condition : Prop} [Decidable condition] {a b : CodeUnits × Option TokenQuote × Bool} (ha : a.1.length ≤ 1)
    (hb : b.1.length ≤ 1) : (if condition then a else b).1.length ≤ 1 := by
  split
  · exact ha
  · exact hb

variable (mode : TerminalTokenizerMode)

theorem length_consume_le (quote : Option TokenQuote) (char : Nat) (next : Option Nat) : (consume mode quote char next).1.length ≤ 1 := by
  have hNothing : ([] : CodeUnits).length ≤ 1 := Nat.zero_le 1
  have hUnit : ∀ u : Nat, [u].length ≤ 1 := fun _ => Nat.le_refl 1
  match quote, next with
  | some .single, _ => exact length_ite_le (hUnit _) (length_ite_le hNothing (hUnit _))
  | some .double, none => exact length_ite_le hNothing (hUnit _)
  | some .double, some _ => exact length_ite_le hNothing (length_ite_le (hUnit _) (length_ite_le (hUnit _) (hUnit _)))
  | none, none => exact length_ite_le hNothing (length_ite_le hNothing (hUnit _))
  | none, some _ => exact length_ite_le hNothing (length_ite_le hNothing (length_ite_le (hUnit _) (hUnit _)))

theorem consume_without_next (quote : Option TokenQuote) (char : Nat) : (consume mode quote char none).2.2 = false := by
  obtain _ | _ | _ := quote
  · rw [consume]
    split_ifs <;> rfl
  · rw [consume, if_neg (by rintro ⟨-, -, ⟨⟩⟩)]
    split_ifs <;> rfl
  · rw [consume]
    split_ifs <;> rfl

theorem consume_cases (char : Nat) (next : Option Nat) :
    (isQuoteMark mode char = true ∧ ∃ quote, consume mode none char next = ([], quote, false)) ∨
      (mode = .posix ∧ char = 0x5c ∧ ∃ escaped, next = some escaped ∧ consume mode none char next = ([escaped], none, true)) ∨
      (isQuoteMark mode char = false ∧ (next ≠ none → mode = .posix → char ≠ 0x5c) ∧ consume mode none char next = ([char], none, false)) := by
  by_cases hSingle : char = 0x27 ∧ (mode = .posix ∨ mode = .powershell)
  · refine .inl ⟨?_, _, if_pos hSingle⟩
    obtain ⟨rfl, hMode⟩ := hSingle
    rw [isQuoteMark, Bool.or_eq_true, Bool.and_eq_true, Bool.or_eq_true]
    simpa using hMode
  · by_cases hDouble : char = 0x22
    · exact .inl ⟨by rw [isQuoteMark, hDouble]; rfl, _, (if_neg hSingle).trans (if_pos hDouble)⟩
    · have hMark : isQuoteMark mode char = false := by
        rw [isQuoteMark, Bool.or_eq_false_iff]
        refine ⟨decide_eq_false hDouble, ?_⟩
        rw [Bool.eq_false_iff]
        simpa using hSingle
      cases next with
      | none => exact .inr (.inr ⟨hMark, fun hNone => absurd rfl hNone, (if_neg hSingle).trans (if_neg hDouble)⟩)
      | some escaped =>
        by_cases hBackslash : mode = .posix ∧ char = 0x5c
        · exact .inr (.inl ⟨hBackslash.1, hBackslash.2, escaped, rfl,
            ((if_neg hSingle).trans (if_neg hDouble)).trans (if_pos hBackslash)⟩)
        · exact .inr (.inr ⟨hMark, fun _ hPosix hChar => hBackslash ⟨hPosix, hChar⟩,
            ((if_neg hSingle).trans (if_neg hDouble)).trans (if_neg hBackslash)⟩)

section

variable {mode : TerminalTokenizerMode} {token : OpenToken} {raw : CodeUnits} {char : Nat} {rest : CodeUnits}

variable {units : CodeUnits}

theorem Reads.lost (hLength : token.value.length < raw.length) (hLost : ¬Verbatim mode raw) (hUnits : units.length ≤ 1)
    (hMore : more ≠ []) (quote : Option TokenQuote) (text : CodeUnits) :
    Reads mode ⟨token.start, token.value ++ units, quote⟩ (raw ++ more) text := by
  refine .inr ⟨?_, fun hAll => hLost hAll.of_append⟩
  show (token.value ++ units).length < (raw ++ more).length
  have hPositive := List.length_pos_iff.mpr hMore
  rw [List.length_append, List.length_append]
  omega

theorem Reads.one (h : Reads mode token raw (char :: rest)) (hToken : ¬(token.quote = none ∧ isWhitespace char = true))
    {quote : Option TokenQuote} (hConsume : consume mode token.quote char rest.head? = (units, quote, false)) :
    Reads mode ⟨token.start, token.value ++ units, quote⟩ (raw ++ [char]) rest := by
  obtain ⟨hLength, hQuote, hVerbatim, hBlank, hBackslash⟩ | ⟨hLength, hLost⟩ := h
  · rw [hQuote] at hConsume hToken
    have hChar : isWhitespace char = false := by
      rw [Bool.eq_false_iff]
      exact fun hBlank => hToken ⟨rfl, hBlank⟩
    obtain ⟨hMark, quote', hRound⟩ | ⟨-, -, escaped, -, hRound⟩ | ⟨hMark, hNext, hRound⟩ := consume_cases mode char rest.head?
    · rw [hRound] at hConsume
      cases hConsume
      refine .inr ⟨?_, fun hAll => ?_⟩
      · show (token.value ++ []).length < (raw ++ [char]).length
        rw [List.append_nil, List.length_append, hLength]
        exact Nat.lt_succ_self raw.length
      · have hOther := hAll.1 char (List.mem_append_right raw (List.mem_singleton_self char))
        rw [hMark] at hOther
        cases hOther
    · rw [hRound] at hConsume
      cases hConsume
    · rw [hRound] at hConsume
      cases hConsume
      refine .inl ⟨?_, rfl, ⟨?_, ?_⟩, ?_, ?_⟩
      · show (token.value ++ [char]).length = (raw ++ [char]).length
        rw [List.length_append, List.length_append, hLength]
      · exact List.forall_mem_append.mpr ⟨hVerbatim.1, List.forall_mem_singleton.mpr hMark⟩
      · rw [List.dropLast_concat]
        exact hBackslash (List.cons_ne_nil char rest)
      · exact List.forall_mem_append.mpr ⟨hBlank, List.forall_mem_singleton.mpr hChar⟩
      · intro hRest hPosix hMem
        have hSome : rest.head? ≠ none := fun hNone => hRest (List.head?_eq_none_iff.mp hNone)
        obtain hBefore | hLast := List.mem_append.mp hMem
        · exact hBackslash (List.cons_ne_nil char rest) hPosix hBefore
        · exact hNext hSome hPosix (List.mem_singleton.mp hLast).symm
  · have hUnits := length_consume_le mode token.quote char rest.head?
    rw [hConsume] at hUnits
    exact .lost hLength hLost hUnits (List.cons_ne_nil char []) quote rest

theorem Reads.two {escaped : Nat} (h : Reads mode token raw (char :: escaped :: rest)) {quote : Option TokenQuote}
    (hConsume : consume mode token.quote char (some escaped) = (units, quote, true)) :
    Reads mode ⟨token.start, token.value ++ units, quote⟩ (raw ++ [char, escaped]) rest := by
  have hUnits := length_consume_le mode token.quote char (some escaped)
  rw [hConsume] at hUnits
  obtain ⟨hLength, hQuote, -⟩ | ⟨hLength, hLost⟩ := h
  · rw [hQuote] at hConsume
    obtain ⟨-, quote', hRound⟩ | ⟨hPosix, hBackslash, -⟩ | ⟨-, -, hRound⟩ := consume_cases mode char (some escaped)
    · rw [hRound] at hConsume
      cases hConsume
    · refine .inr ⟨?_, fun hAll => hAll.2 hPosix ?_⟩
      · show (token.value ++ units).length < (raw ++ [char, escaped]).length
        rw [List.length_append, List.length_append, hLength]
        exact Nat.add_lt_add_left (Nat.lt_of_le_of_lt hUnits (Nat.lt_succ_self 1)) raw.length
      · rw [show raw ++ [char, escaped] = raw ++ [char] ++ [escaped] by rw [List.append_assoc]; rfl, List.dropLast_concat, hBackslash]
        exact List.mem_append_right raw (List.mem_singleton_self 0x5c)
    · rw [hRound] at hConsume
      cases hConsume
  · exact .lost hLength hLost hUnits (List.cons_ne_nil char [escaped]) quote rest

end

section

variable {mode : TerminalTokenizerMode}

structure ReachesCursor (mode : TerminalTokenizerMode) (line : CodeUnits) (last : ParsedCommandToken) : Prop where
  ending : last.end = line.length
  starts : last.start < line.length
  value : (last.value.length = (line.drop last.start).length ∧ Verbatim mode (line.drop last.start) ∧
      ∀ u ∈ line.drop last.start, isWhitespace u = false) ∨
    (last.value.length < (line.drop last.start).length ∧ ¬Verbatim mode (line.drop last.start))

variable {front : CodeUnits}

theorem drop_front {n : Nat} (h : n ≤ front.length) : (front ++ more).drop n = front.drop n ++ more := List.drop_append_of_le_length h

theorem length_concat {cursor : Nat} (h : front.length = cursor) : (front ++ more).length = cursor + more.length := by
  rw [List.length_append, h]

theorem Reads.opening {cursor : Nat} {token : Option OpenToken} {text : CodeUnits} (hFront : front.length = cursor)
    (hToken : ∀ opened ∈ token, opened.start < cursor ∧ Reads mode opened (front.drop opened.start) text) :
    (token.getD ⟨cursor, [], none⟩).start ≤ cursor ∧
      Reads mode (token.getD ⟨cursor, [], none⟩) (front.drop (token.getD ⟨cursor, [], none⟩).start) text := by
  cases token with
  | some opened => exact ⟨(hToken opened rfl).1.le, (hToken opened rfl).2⟩
  | none =>
    refine ⟨Nat.le_refl cursor, .inl ⟨?_, rfl, ?_, ?_, ?_⟩⟩
    all_goals simp only [Option.getD_none, ← hFront, List.drop_length]
    · exact ⟨List.forall_mem_nil _, fun _ => List.not_mem_nil⟩
    · exact List.forall_mem_nil _
    · exact fun _ _ => List.not_mem_nil

theorem bind_quote (token : Option OpenToken) (cursor : Nat) : token.bind OpenToken.quote = (token.getD ⟨cursor, [], none⟩).quote := by
  cases token <;> rfl

variable (cursor : Nat)

theorem blank_of_no_token (token : Option OpenToken) (text : CodeUnits) (h : parseTokens mode cursor token text = []) :
    token = none ∧ ∀ u ∈ text, isWhitespace u = true := by
  induction cursor, token, text using parseTokens.induct mode with
  | case1 cursor token =>
    rw [parseTokens] at h
    cases token with
    | none => exact ⟨rfl, List.forall_mem_nil _⟩
    | some opened => cases h
  | case2 cursor token char rest hSpace ih =>
    rw [parseTokens, if_pos hSpace] at h
    obtain ⟨hClosed, hRest⟩ := List.append_eq_nil_iff.mp h
    refine ⟨?_, List.forall_mem_cons.mpr ⟨hSpace.2, (ih hRest).2⟩⟩
    cases token with
    | none => rfl
    | some opened => cases hClosed
  | case3 cursor token char hSpace opened units quote head rest hConsume ih =>
    rw [parseTokens, if_neg hSpace] at h
    simp only [opened] at hConsume
    simp only [hConsume] at h
    cases (ih h).1
  | case4 cursor token char hSpace opened units quote both rest hOne hConsume ih =>
    rw [parseTokens, if_neg hSpace] at h
    simp only [opened] at hConsume
    simp only [hConsume] at h
    cases (ih h).1

theorem last_token (token : Option OpenToken) (text : CodeUnits) : ∀ front : CodeUnits, front.length = cursor →
    (∀ opened ∈ token, opened.start < cursor ∧ Reads mode opened (front.drop opened.start) text) →
      ∀ last, (parseTokens mode cursor token text).getLast? = some last →
        ReachesCursor mode (front ++ text) last ∨ (last.end < cursor + text.length ∧ endsInWhitespace text = true) := by
  induction cursor, token, text using parseTokens.induct mode with
  | case1 cursor token =>
    intro front hFront hToken last hLast
    rw [parseTokens] at hLast
    cases token with
    | none => cases hLast
    | some opened =>
      obtain rfl := Option.some.inj hLast
      obtain ⟨hStart, hReads⟩ := hToken opened rfl
      rw [List.append_nil]
      refine .inl ⟨hFront.symm, hFront.symm ▸ hStart, ?_⟩
      obtain ⟨hLength, -, hVerbatim, hBlank, -⟩ | hLost := hReads
      · exact .inl ⟨hLength, hVerbatim, hBlank⟩
      · exact .inr hLost
  | case2 cursor token char rest hSpace ih =>
    intro front hFront hToken last hLast
    rw [parseTokens, if_pos hSpace, List.getLast?_append] at hLast
    cases hRest : (parseTokens mode (cursor + 1) none rest).getLast? with
    | none =>
      rw [hRest] at hLast
      obtain ⟨-, hBlank⟩ := blank_of_no_token (cursor + 1) none rest (List.getLast?_eq_none_iff.mp hRest)
      cases token with
      | none => cases hLast
      | some opened =>
        obtain rfl := Option.some.inj hLast
        refine .inr ⟨?_, endsInWhitespace_of_blank (List.cons_ne_nil char rest) (List.forall_mem_cons.mpr ⟨hSpace.2, hBlank⟩)⟩
        show cursor < cursor + (rest.length + 1)
        omega
    | some found =>
      rw [hRest] at hLast
      obtain rfl := Option.some.inj hLast
      obtain hReaches | ⟨hEnd, hBlank⟩ := ih (front ++ [char]) (length_concat hFront) (fun opened hNone => by cases hNone) found hRest
      · rw [List.append_assoc] at hReaches
        exact .inl hReaches
      · refine .inr ⟨?_, ?_⟩
        · rw [List.length_cons]
          omega
        · rw [endsInWhitespace_cons, hBlank]
          rintro rfl
          cases hRest
  | case3 cursor token char hSpace opened units quote head rest hConsume ih =>
    intro front hFront hToken last hLast
    obtain ⟨hStart, hReads⟩ := Reads.opening hFront hToken
    rw [parseTokens, if_neg hSpace] at hLast
    simp only [opened] at hConsume
    simp only [hConsume] at hLast
    have hRound := hReads.two hConsume
    rw [← drop_front (hFront ▸ hStart)] at hRound
    obtain hReaches | ⟨hEnd, hBlank⟩ := ih (front ++ [char, head]) (length_concat hFront)
      (fun _ hSome => Option.some.inj hSome ▸ ⟨Nat.lt_add_right 1 (Nat.lt_succ_of_le hStart), hRound⟩) last hLast
    · rw [List.append_assoc] at hReaches
      exact .inl hReaches
    · refine .inr ⟨?_, ?_⟩
      · rw [List.length_cons, List.length_cons]
        omega
      · rw [endsInWhitespace_cons (List.cons_ne_nil head rest), endsInWhitespace_cons, hBlank]
        rintro rfl
        cases hBlank
  | case4 cursor token char hSpace opened units quote both rest hOne hConsume ih =>
    intro front hFront hToken last hLast
    obtain ⟨hStart, hReads⟩ := Reads.opening hFront hToken
    have hBoth : both = false := by
      cases rest with
      | nil =>
        have hOnly := consume_without_next mode opened.quote char
        rw [List.head?_nil] at hConsume
        rw [hConsume] at hOnly
        exact hOnly
      | cons head rest =>
        rw [Bool.eq_false_iff]
        exact hOne head rest rfl
    rw [parseTokens, if_neg hSpace] at hLast
    simp only [opened] at hConsume
    simp only [hConsume] at hLast
    rw [hBoth] at hConsume
    have hRound := hReads.one (by rwa [← bind_quote]) hConsume
    rw [← drop_front (hFront ▸ hStart)] at hRound
    obtain hReaches | ⟨hEnd, hBlank⟩ := ih (front ++ [char]) (length_concat hFront)
      (fun _ hSome => Option.some.inj hSome ▸ ⟨Nat.lt_succ_of_le hStart, hRound⟩) last hLast
    · rw [List.append_assoc] at hReaches
      exact .inl hReaches
    · refine .inr ⟨?_, ?_⟩
      · rw [List.length_cons]
        omega
      · rw [endsInWhitespace_cons, hBlank]
        rintro rfl
        cases hBlank

theorem starts_le (bound cursor : Nat) (token : Option OpenToken) (text : CodeUnits) : bound ≤ cursor →
    (∀ opened ∈ token, bound ≤ opened.start) → ∀ parsed ∈ parseTokens mode cursor token text, bound ≤ parsed.start := by
  induction cursor, token, text using parseTokens.induct mode with
  | case1 cursor token =>
    intro _ hToken parsed hParsed
    rw [parseTokens, Option.mem_toList] at hParsed
    obtain ⟨opened, hOpened, rfl⟩ := Option.map_eq_some_iff.mp hParsed
    exact hToken opened hOpened
  | case2 cursor token char rest hSpace ih =>
    intro hBound hToken parsed hParsed
    rw [parseTokens, if_pos hSpace] at hParsed
    obtain hClosed | hRest := List.mem_append.mp hParsed
    · obtain ⟨opened, hOpened, rfl⟩ := Option.map_eq_some_iff.mp (Option.mem_toList.mp hClosed)
      exact hToken opened hOpened
    · exact ih (Nat.le_succ_of_le hBound) (fun opened hNone => by cases hNone) parsed hRest
  | case3 cursor token char hSpace opened units quote head rest hConsume ih =>
    intro hBound hToken parsed hParsed
    have hOpened : bound ≤ opened.start := by
      cases token with
      | none => exact hBound
      | some before => exact hToken before rfl
    rw [parseTokens, if_neg hSpace] at hParsed
    simp only [opened] at hConsume
    simp only [hConsume] at hParsed
    exact ih (Nat.le_add_right_of_le hBound) (fun _ hSome => Option.some.inj hSome ▸ hOpened) parsed hParsed
  | case4 cursor token char hSpace opened units quote both rest hOne hConsume ih =>
    intro hBound hToken parsed hParsed
    have hOpened : bound ≤ opened.start := by
      cases token with
      | none => exact hBound
      | some before => exact hToken before rfl
    rw [parseTokens, if_neg hSpace] at hParsed
    simp only [opened] at hConsume
    simp only [hConsume] at hParsed
    exact ih (Nat.le_succ_of_le hBound) (fun _ hSome => Option.some.inj hSome ▸ hOpened) parsed hParsed

theorem first_token (token : Option OpenToken) (text : CodeUnits) : ∀ opened ∈ token,
    (parseTokens mode cursor token text).head?.map ParsedCommandToken.start = some opened.start := by
  induction cursor, token, text using parseTokens.induct mode with
  | case1 cursor token =>
    rintro opened ⟨⟩
    rfl
  | case2 cursor token char rest hSpace ih =>
    rintro opened ⟨⟩
    rw [parseTokens, if_pos hSpace]
    rfl
  | case3 cursor token char hSpace opened units quote head rest hConsume ih =>
    rintro before ⟨⟩
    rw [parseTokens, if_neg hSpace]
    simp only [opened] at hConsume
    simp only [hConsume]
    have hFirst := ih _ rfl
    exact hFirst
  | case4 cursor token char hSpace opened units quote both rest hOne hConsume ih =>
    rintro before ⟨⟩
    rw [parseTokens, if_neg hSpace]
    simp only [opened] at hConsume
    simp only [hConsume]
    have hFirst := ih _ rfl
    exact hFirst
variable (mode) in
theorem first_token_of_not_blank (cursor : Nat) {char : Nat} (hChar : isWhitespace char = false) (rest : CodeUnits) :
    (parseTokens mode cursor none (char :: rest)).head?.map ParsedCommandToken.start = some cursor := by
  rw [parseTokens, if_neg fun hSpace => Bool.eq_false_iff.mp hChar hSpace.2]
  simp only [Option.getD_none]
  split
  · exact first_token _ _ _ _ rfl
  · exact first_token _ _ _ _ rfl

theorem trim_eq_nil_iff (t : CodeUnits) : trim t = [] ↔ ∀ u ∈ t, isWhitespace u = true := by
  have hKept : ∀ kept : CodeUnits, kept.rdropWhile isWhitespace = [] ↔ ∀ u ∈ kept, isWhitespace u = true := fun kept =>
    List.rdropWhile_eq_nil_iff
  rw [trim, hKept]
  constructor
  · intro hBlank u hu
    rw [← List.takeWhile_append_dropWhile (p := isWhitespace) (l := t)] at hu
    obtain hTaken | hDropped := List.mem_append.mp hu
    · exact List.mem_takeWhile_imp hTaken
    · exact hBlank u hDropped
  · exact fun hBlank u hu => hBlank u (List.dropWhile_suffix isWhitespace |>.subset hu)

theorem no_token_of_blank (text : CodeUnits) (h : ∀ u ∈ text, isWhitespace u = true) : parseTokens mode cursor none text = [] := by
  induction text generalizing cursor with
  | nil => rw [parseTokens]; rfl
  | cons char rest ih =>
    rw [parseTokens, if_pos ⟨rfl, h char List.mem_cons_self⟩, ih (cursor + 1) fun u hu => h u (List.mem_cons_of_mem char hu)]
    rfl

variable (mode) in
theorem parseCommandTokens_eq_nil_iff (linePrefix : CodeUnits) : parseCommandTokens linePrefix mode = [] ↔ trim linePrefix = [] := by
  rw [trim_eq_nil_iff]
  exact ⟨fun hNone => (blank_of_no_token 0 none linePrefix hNone).2, no_token_of_blank 0 linePrefix⟩

variable {linePrefix : CodeUnits}

theorem reaches_cursor {last : ParsedCommandToken} (hLast : (parseCommandTokens linePrefix mode).getLast? = some last) :
    ReachesCursor mode linePrefix last ∨ (last.end < linePrefix.length ∧ endsInWhitespace linePrefix = true) := by
  have hToken := last_token 0 none linePrefix [] rfl (fun opened hNone => by cases hNone) last hLast
  rwa [List.nil_append, Nat.zero_add] at hToken

theorem ReachesCursor.rawCurrentToken {last : ParsedCommandToken} (h : ReachesCursor mode linePrefix last)
    (hLast : (parseCommandTokens linePrefix mode).getLast? = some last) : rawCurrentToken mode linePrefix = linePrefix.drop last.start := by
  rw [Terminal.rawCurrentToken, hLast]
  exact if_pos h.ending

theorem verbatim_nil (mode : TerminalTokenizerMode) : Verbatim mode [] := ⟨List.forall_mem_nil _, fun _ => List.not_mem_nil⟩

theorem answered_length_iff (mode : TerminalTokenizerMode) (linePrefix : CodeUnits) :
    answeredPrefixLength mode linePrefix = (rawCurrentToken mode linePrefix).length ↔ Verbatim mode (rawCurrentToken mode linePrefix) := by
  rw [answeredPrefixLength, resolveCurrentToken]
  cases hLast : (parseCommandTokens linePrefix mode).getLast? with
  | none =>
    have hNone := (parseCommandTokens_eq_nil_iff mode linePrefix).mp (List.getLast?_eq_none_iff.mp hLast)
    rw [if_pos hNone, rawCurrentToken, hLast]
    exact iff_of_true rfl (verbatim_nil mode)
  | some last =>
    have hSome : trim linePrefix ≠ [] := by
      rw [ne_eq, ← parseCommandTokens_eq_nil_iff mode, ← List.getLast?_eq_none_iff, hLast]
      exact Option.some_ne_none last
    rw [if_neg hSome]
    obtain hReaches | ⟨hEnd, hBlank⟩ := reaches_cursor hLast
    · rw [hReaches.rawCurrentToken hLast]
      show (if endsInWhitespace linePrefix = true then _ else _ : CurrentToken).replacePrefixLength = _ ↔ _
      have hRaw : linePrefix.drop last.start ≠ [] := by
        rw [ne_eq, List.drop_eq_nil_iff, Nat.not_le]
        exact hReaches.starts
      split
      · next hBlank =>
        refine iff_of_false (fun hZero => hRaw (List.length_eq_zero_iff.mp hZero.symm)) ?_
        obtain ⟨-, -, hNoBlank⟩ | ⟨-, hLost⟩ := hReaches.value
        · rw [endsInWhitespace, Option.any_eq_true] at hBlank
          obtain ⟨final, hFinal, hSpace⟩ := hBlank
          have hMem : final ∈ linePrefix.drop last.start := by
            refine List.mem_of_getLast? ?_
            rw [List.getLast?_drop, if_neg (Nat.not_le.mpr hReaches.starts)]
            exact hFinal
          rw [hNoBlank final hMem] at hSpace
          cases hSpace
        · exact hLost
      · obtain ⟨hLength, hVerbatim, -⟩ | ⟨hLength, hLost⟩ := hReaches.value
        · exact iff_of_true hLength hVerbatim
        · exact iff_of_false hLength.ne hLost
    · have hRaw : rawCurrentToken mode linePrefix = [] := by
        rw [rawCurrentToken, hLast]
        exact if_neg hEnd.ne
      rw [hRaw]
      show (if endsInWhitespace linePrefix = true then _ else _ : CurrentToken).replacePrefixLength = _ ↔ _
      rw [if_pos hBlank]
      exact iff_of_true rfl (verbatim_nil mode)

def TypesFirstToken (mode : TerminalTokenizerMode) (linePrefix : CodeUnits) : Prop :=
  endsInWhitespace linePrefix = false ∧ (parseCommandTokens linePrefix mode).length = 1

instance (mode : TerminalTokenizerMode) (linePrefix : CodeUnits) : Decidable (TypesFirstToken mode linePrefix) :=
  inferInstanceAs (Decidable (endsInWhitespace linePrefix = false ∧ (parseCommandTokens linePrefix mode).length = 1))

theorem whole_line_iff (h : TypesFirstToken mode linePrefix) :
    linePrefix.length = (rawCurrentToken mode linePrefix).length ↔ ∀ u ∈ linePrefix.head?, isWhitespace u = false := by
  obtain ⟨hBlank, hLength⟩ := h
  obtain ⟨first, hTokens⟩ := List.length_eq_one_iff.mp hLength
  have hLast : (parseCommandTokens linePrefix mode).getLast? = some first := by
    rw [hTokens]
    rfl
  obtain hReaches | ⟨-, hSpace⟩ := reaches_cursor hLast
  · rw [hReaches.rawCurrentToken hLast, List.length_drop]
    have hStarts := hReaches.starts
    cases linePrefix with
    | nil => cases hTokens
    | cons char rest =>
      rw [List.head?_cons]
      constructor
      · rintro hWhole u ⟨⟩
        rw [Bool.eq_false_iff]
        intro hSpace
        have hFirst : first ∈ parseTokens mode 1 none rest := by
          have hMem : first ∈ parseCommandTokens (char :: rest) mode := by
            rw [hTokens]
            exact List.mem_singleton_self first
          rw [parseCommandTokens, parseTokens, if_pos ⟨rfl, hSpace⟩] at hMem
          exact hMem
        have hLate := starts_le 1 1 none rest (Nat.le_refl 1) (fun opened hNone => by cases hNone) first hFirst
        omega
      · intro hChar
        have hFirst := first_token_of_not_blank mode 0 (hChar char rfl) rest
        rw [parseCommandTokens] at hTokens
        rw [hTokens] at hFirst
        have hStart : first.start = 0 := Option.some.inj hFirst
        rw [hStart, Nat.sub_zero]
  · rw [hBlank] at hSpace
    cases hSpace

theorem coversRawToken_iff (linePrefix : CodeUnits) (item : TerminalCompletionItem) : CoversRawToken mode linePrefix item ↔
    item.replacePrefixLength.getD (answeredPrefixLength mode linePrefix) = (rawCurrentToken mode linePrefix).length := by
  refine ⟨CoversRawToken.deleted, fun hDeleted => ⟨hDeleted, ?_⟩⟩
  rw [nextLinePrefix, hDeleted]

variable {toLowerCase : CodeUnits → CodeUnits} {specs : List TerminalCommandSpec} {recentCommands : List Command}
  {request : TerminalCompletionRequest} {label : CodeUnits} {item : TerminalCompletionItem}

theorem length_of_toHistoryItem {command : CodeUnits} {context : HistoryContext} {index totalCommands : Nat}
    (h : toHistoryItem toLowerCase command context mode index totalCommands = some item) : item.replacePrefixLength =
      some (if context.currentTokenIndex = 0 then context.normalizedLinePrefix.length else context.currentTokenValue.length) := by
  simp only [toHistoryItem, Option.ite_none_left_eq_some, Option.some.injEq] at h
  obtain ⟨-, -, -, -, -, rfl⟩ := h
  rfl

theorem length_of_historyItems (h : (historyItems toLowerCase specs mode recentCommands request).get? label = some item) :
    item.replacePrefixLength = some (if TypesFirstToken mode request.normalizedLinePrefix then request.normalizedLinePrefix.length
      else answeredPrefixLength mode request.normalizedLinePrefix) := by
  simp only [historyItems] at h
  split at h
  · cases h
  · next hQuery =>
    obtain hNone | ⟨hItem, -⟩ := mem_of_addItems h
    · cases hNone
    · obtain ⟨⟨command, index⟩, -, hSome⟩ := List.mem_filterMap.mp hItem
      rw [length_of_toHistoryItem hSome, Option.some.injEq]
      have hTyped : trim request.normalizedLinePrefix ≠ [] := by
        intro hBlank
        refine hQuery (.inl ?_)
        show request.normalizedLinePrefix.dropWhile isWhitespace = []
        rw [List.dropWhile_eq_nil_iff]
        exact (trim_eq_nil_iff request.normalizedLinePrefix).mp hBlank
      have hTokens : parseCommandTokens request.normalizedLinePrefix mode ≠ [] := by
        rw [ne_eq, parseCommandTokens_eq_nil_iff]
        exact hTyped
      have hPositive := List.length_pos_iff.mpr hTokens
      simp only [historyContext, answeredPrefixLength, TypesFirstToken, resolveCurrentToken, if_neg hTyped,
        List.getLast?_eq_some_getLast hTokens]
      cases hSpace : endsInWhitespace request.normalizedLinePrefix with
      | true =>
        simp only [if_true, reduceCtorEq, false_and, if_false, List.length_nil]
        rw [if_neg hPositive.ne']
      | false =>
        simp only [Bool.false_eq_true, if_false, true_and]
        congr 1
        rw [eq_iff_iff]
        omega

end

/-- Where the length of a suggestion is that of the raw token: no quotation mark is taken away and no backslash quotes. A command of the
history for the first token replaces the blanks before it too. -/
theorem suggestion_covers_raw_token_iff (mode : TerminalTokenizerMode) (toLowerCase : CodeUnits → CodeUnits)
    (specs : List TerminalCommandSpec) (recentCommands : List Command) (request : TerminalCompletionRequest)
    (label : CodeUnits) (item : TerminalCompletionItem) :
    (item.replacePrefixLength = none → (CoversRawToken mode request.normalizedLinePrefix item ↔
      Verbatim mode (rawCurrentToken mode request.normalizedLinePrefix))) ∧
    ((historyItems toLowerCase specs mode recentCommands request).get? label = some item →
      (CoversRawToken mode request.normalizedLinePrefix item ↔
        if TypesFirstToken mode request.normalizedLinePrefix then ∀ u ∈ request.normalizedLinePrefix.head?, isWhitespace u = false
        else Verbatim mode (rawCurrentToken mode request.normalizedLinePrefix))) := by
  constructor
  · intro hNone
    rw [coversRawToken_iff, hNone]
    exact answered_length_iff mode request.normalizedLinePrefix
  · intro hOffered
    rw [coversRawToken_iff, length_of_historyItems hOffered, Option.getD_some]
    split
    · next hFirst => exact whole_line_iff hFirst
    · exact answered_length_iff mode request.normalizedLinePrefix

def suggestedFile : TerminalCompletionItem := ⟨[], ofAscii ['a', 'b'], ofAscii ['a', 'b'], none, none, none, .runtime, .path, 1⟩

theorem open_quote_stays : answeredPrefixLength .posix (ofAscii ['c', 'a', 't', ' ', '"', 'a']) = 1 ∧
      rawCurrentToken .posix (ofAscii ['c', 'a', 't', ' ', '"', 'a']) = ofAscii ['"', 'a'] ∧
      nextLinePrefix (ofAscii ['c', 'a', 't', ' ', '"', 'a']) 1 suggestedFile = ofAscii ['c', 'a', 't', ' ', '"', 'a', 'b'] ∧
      ¬CoversRawToken .posix (ofAscii ['c', 'a', 't', ' ', '"', 'a']) suggestedFile := by
  refine ⟨by decide +kernel, by decide +kernel, by decide +kernel, fun hCovers => ?_⟩
  have hDeleted := hCovers.deleted
  revert hDeleted
  decide +kernel

theorem plain_token_is_covered : CoversRawToken .posix (ofAscii ['g', ' ', 'a']) suggestedFile ∧
      ∃ item, offered plainCommand ['g', ' ', 'a'] = some item ∧ CoversRawToken .posix (ofAscii ['g', ' ', 'a']) item := by
  obtain ⟨item, hItem⟩ := Option.isSome_iff_exists.mp offered_items.2.2
  have hBoth := fun item => suggestion_covers_raw_token_iff .posix toAsciiLower [] [ofAscii plainCommand]
    (dispatchCompletionRequest (ofAscii ['g', ' ', 'a']) true true .typing) (ofAscii plainCommand) item
  simp only [normalizedLinePrefix_dispatch] at hBoth
  exact ⟨((hBoth suggestedFile).1 rfl).mpr (by decide +kernel), item, hItem, ((hBoth item).2 hItem).mpr (by decide +kernel)⟩

end Terminal
