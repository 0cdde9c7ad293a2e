import Cosmosh.Library.CodeUnits

/-! # The words of a command line

White space separates words unless a backslash or quotes keep it.
-/

namespace Library.ShellWords

open CodeUnits

inductive Quote
  | single
  | double
  deriving DecidableEq

structure Mark where
  unit : Nat
  quoted : Bool
  deriving DecidableEq

inductive Ending
  | closed
  | lineBreak
  | unclosed
  deriving DecidableEq

structure Word where
  marks : List Mark
  ending : Ending
  deriving DecidableEq

def Word.text (w : Word) : CodeUnits := w.marks.map Mark.unit

def Word.Unquoted (w : Word) : Prop := ∀ m ∈ w.marks, m.quoted = false

instance (w : Word) : Decidable w.Unquoted := inferInstanceAs (Decidable (∀ m ∈ w.marks, m.quoted = false))

def isSyntax (u : Nat) : Bool := isWhitespace u || u = 0x27 || u = 0x22 || u = 0x5c

def isEscapable (u : Nat) : Bool := u ∈ [0x22, 0x5c, 0x24, 0x60]

def needsQuoting (u : Nat) : Bool :=
  isSyntax u || u ∈ ofAscii ['|', '&', ';', '<', '>', '(', ')', '$', '\x60', '*', '?', '[', '#', '~', '=', '%']

inductive Place
  | between
  | inside (quote : Option Quote) (marks : List Mark)

namespace Place

def quote : Place → Option Quote
  | between => none
  | inside quote _ => quote

def marks : Place → List Mark
  | between => []
  | inside _ marks => marks

def ended (ending : Ending) : Place → List Word
  | between => []
  | inside _ marks => [⟨marks, ending⟩]

end Place

def endingBefore (after : CodeUnits) : Ending := if 0x0a ∈ after.takeWhile isWhitespace then .lineBreak else .closed

section Reading

variable (significant : Nat → Bool)

def mark (quoted : Bool) (u : Nat) : Mark := ⟨u, quoted && significant u⟩

def bite (quote : Option Quote) (u : Nat) (next : Option Nat) : List Mark × Option Quote × Bool :=
  match quote with
  | some .single => if u = 0x27 then ([], none, false) else ([mark significant true u], some .single, false)
  | some .double =>
    if u = 0x22 then ([], none, false)
    else
      match next with
      | some v =>
        if u = 0x5c ∧ isEscapable v = true then ([mark significant true v], some .double, true)
        else ([mark significant true u], some .double, false)
      | none => ([mark significant true u], some .double, false)
  | none =>
    if u = 0x27 then ([], some .single, false)
    else if u = 0x22 then ([], some .double, false)
    else
      match next with
      | some v =>
        if u = 0x5c then ([mark significant true v], none, true) else ([mark significant false u], none, false)
      | none => ([mark significant false u], none, false)

def words : Place → CodeUnits → List Word
  | place, [] => place.ended (if place.quote = none then .closed else .unclosed)
  | place, u :: rest =>
    if place.quote = none ∧ isWhitespace u = true then place.ended (endingBefore (u :: rest)) ++ words .between rest
    else
      match bite significant place.quote u rest.head?, rest with
      | (added, quote, true), _ :: rest => words (.inside quote (place.marks ++ added)) rest
      | (added, quote, _), rest => words (.inside quote (place.marks ++ added)) rest

def wordsOf (line : CodeUnits) : List Word := words significant .between line

end Reading

section Facts

variable {significant : Nat → Bool}

variable (significant) in
inductive Bites : Option Quote → Nat → Option Nat → List Mark × Option Quote × Bool → Prop
  | opens {u : Nat} {next : Option Nat} (q : Quote) : Bites none u next ([], some q, false)
  | closes {u : Nat} {next : Option Nat} (q : Quote) : Bites (some q) u next ([], none, false)
  | escapes {quote : Option Quote} {u : Nat} (v : Nat) : Bites quote u (some v) ([mark significant true v], quote, true)
  | quoted {u : Nat} {next : Option Nat} (q : Quote) : Bites (some q) u next ([mark significant true u], some q, false)
  | plain {u : Nat} {next : Option Nat} (hSingle : u ≠ 0x27) (hDouble : u ≠ 0x22) (hLast : u = 0x5c → next = none) :
    Bites none u next ([mark significant false u], none, false)

variable (significant) in
theorem bites (quote : Option Quote) (u : Nat) (next : Option Nat) : Bites significant quote u next (bite significant quote u next) := by
  unfold bite
  split
  · split
    · exact .closes _
    · exact .quoted _
  · split
    · exact .closes _
    · split
      · split
        · exact .escapes _
        · exact .quoted _
      · exact .quoted _
  · split
    · exact .opens _
    · next hSingle =>
      split
      · exact .opens _
      · next hDouble =>
        split
        · split
          · exact .escapes _
          · next hLast => exact .plain hSingle hDouble fun h => absurd h hLast
        · exact .plain hSingle hDouble fun _ => rfl

variable {quote : Option Quote} {u : Nat} {added : List Mark}

theorem bite_none {quote' : Option Quote} {both : Bool} (h : bite significant quote u none = (added, quote', both)) : both = false := by
  have hBites : Bites significant quote u none (added, quote', both) := h ▸ bites significant quote u none
  cases hBites <;> rfl

theorem bite_both {quote' : Option Quote} {v : Nat} (h : bite significant quote u (some v) = (added, quote', true)) :
    added = [mark significant true v] := by
  have hBites : Bites significant quote u (some v) (added, quote', true) := h ▸ bites significant quote u (some v)
  cases hBites
  rfl

variable {place : Place}

theorem words_separator (hQuote : place.quote = none) (hu : isWhitespace u = true) (rest : CodeUnits) :
    words significant place (u :: rest) = place.ended (endingBefore (u :: rest)) ++ words significant .between rest := by
  conv_lhs => unfold words
  rw [if_pos ⟨hQuote, hu⟩]

theorem words_one {rest : CodeUnits} (hSeparator : ¬(place.quote = none ∧ isWhitespace u = true))
    (hBite : bite significant place.quote u rest.head? = (added, quote, false)) :
    words significant place (u :: rest) = words significant (.inside quote (place.marks ++ added)) rest := by
  conv_lhs => unfold words
  rw [if_neg hSeparator, hBite]

theorem words_two {v : Nat} {rest : CodeUnits} (hSeparator : ¬(place.quote = none ∧ isWhitespace u = true))
    (hBite : bite significant place.quote u (some v) = (added, quote, true)) :
    words significant place (u :: v :: rest) = words significant (.inside quote (place.marks ++ added)) rest := by
  conv_lhs => unfold words
  rw [if_neg hSeparator, List.head?_cons, hBite]

variable (significant) in
theorem reading_induction {P : Place → CodeUnits → Prop} (nil : ∀ place, P place [])
    (separator : ∀ place u rest, place.quote = none → isWhitespace u = true → P .between rest → P place (u :: rest))
    (one : ∀ place u rest added quote, ¬(place.quote = none ∧ isWhitespace u = true) →
      bite significant place.quote u rest.head? = (added, quote, false) → P (.inside quote (place.marks ++ added)) rest → P place (u :: rest))
    (two : ∀ place u v rest added quote, ¬(place.quote = none ∧ isWhitespace u = true) →
      bite significant place.quote u (some v) = (added, quote, true) → P (.inside quote (place.marks ++ added)) rest →
      P place (u :: v :: rest)) (place : Place) (text : CodeUnits) : P place text := by
  induction hLength : text.length using Nat.strongRecOn generalizing place text with
  | ind length ih =>
    cases text with
    | nil => exact nil place
    | cons u rest =>
      rw [List.length_cons] at hLength
      by_cases hSeparator : place.quote = none ∧ isWhitespace u = true
      · exact separator place u rest hSeparator.1 hSeparator.2 (ih rest.length (by omega) _ _ rfl)
      · obtain ⟨added, quote, both, hBite⟩ : ∃ added quote both, bite significant place.quote u rest.head? = (added, quote, both) :=
          ⟨_, _, _, rfl⟩
        cases both with
        | false => exact one place u rest added quote hSeparator hBite (ih rest.length (by omega) _ _ rfl)
        | true =>
          cases rest with
          | nil => cases bite_none hBite
          | cons v rest =>
            rw [List.length_cons] at hLength
            exact two place u v rest added quote hSeparator hBite (ih rest.length (by omega) _ _ rfl)

def BareText (t : CodeUnits) : Prop := ∀ u ∈ t, isSyntax u = false

def EndsBare (t : CodeUnits) : Prop := BareText t ∨ ∃ front, t = front ++ [0x5c] ∧ BareText front

def Simple : List Word → Prop
  | [] => True
  | [w] => w.Unquoted → EndsBare w.text
  | w :: ws => (w.Unquoted → BareText w.text) ∧ Simple ws

variable {ws : List Word}

theorem Simple.cons {w : Word} (h : w.Unquoted → BareText w.text) (hRest : Simple ws) : Simple (w :: ws) := by
  cases ws with
  | nil => exact fun hUnquoted => .inl (h hUnquoted)
  | cons => exact ⟨h, hRest⟩

theorem Simple.tail {w : Word} (h : Simple (w :: ws)) : Simple ws := by
  cases ws with
  | nil => trivial
  | cons => exact h.2

theorem Simple.drop (h : Simple ws) (n : Nat) : Simple (ws.drop n) := by
  induction n generalizing ws with
  | zero => exact h
  | succ n ih =>
    cases ws with
    | nil => exact h
    | cons w ws => exact ih h.tail

def unquotedMark (u : Nat) : Mark := ⟨u, false⟩

theorem unquoted_append {marks : List Mark} (h : ∀ m ∈ marks ++ added, m.quoted = false) :
    (∀ m ∈ marks, m.quoted = false) ∧ ∀ m ∈ added, m.quoted = false := List.forall_mem_append.mp h

theorem bareText_append {a b : CodeUnits} (ha : BareText a) (hb : BareText b) : BareText (a ++ b) := List.forall_mem_append.mpr ⟨ha, hb⟩

theorem bareText_singleton (h : isSyntax u = false) : BareText [u] := List.forall_mem_singleton.mpr h

def Plain (marks : List Mark) : Prop := (∀ m ∈ marks, m.quoted = false) → BareText (marks.map Mark.unit)

theorem plain_mark_true (hSyntax : ∀ u, isSyntax u = true → significant u = true) (u : Nat) : Plain [mark significant true u] := by
  intro hUnquoted
  have hInsignificant : significant u = false := by simpa [mark] using hUnquoted
  have hu : isSyntax u = false := by
    cases hu : isSyntax u with
    | false => rfl
    | true => exact (hSyntax u hu).symm.trans hInsignificant
  exact bareText_singleton hu

theorem Plain.append {marks : List Mark} (h : Plain marks) (hAdded : Plain added) : Plain (marks ++ added) := by
  intro hUnquoted
  obtain ⟨hMarks, hRest⟩ := unquoted_append hUnquoted
  rw [List.map_append]
  exact bareText_append (h hMarks) (hAdded hRest)

theorem isSyntax_eq_false (hWhitespace : isWhitespace u = false) (hSingle : u ≠ 0x27) (hDouble : u ≠ 0x22) (hLast : u ≠ 0x5c) :
    isSyntax u = false := by
  simp [isSyntax, hWhitespace, hSingle, hDouble, hLast]

theorem simple_ended (h : Plain place.marks) (ending : Ending) (hRest : Simple ws) : Simple (place.ended ending ++ ws) := by
  cases place with
  | between => exact hRest
  | inside quote marks => exact Simple.cons h hRest

theorem simple_words (hSyntax : ∀ u, isSyntax u = true → significant u = true) (place : Place) (text : CodeUnits)
    (h : Plain place.marks) : Simple (words significant place text) := by
  induction place, text using reading_induction significant with
  | nil place =>
    rw [words, ← List.append_nil (place.ended _)]
    exact simple_ended h _ trivial
  | separator place u rest hQuote hu ih =>
    rw [words_separator hQuote hu]
    exact simple_ended h _ (ih fun _ => List.forall_mem_nil _)
  | two place u v rest added quote hSeparator hBite ih =>
    rw [words_two hSeparator hBite]
    refine ih (h.append ?_)
    rw [bite_both hBite]
    exact plain_mark_true hSyntax v
  | one place u rest added quote hSeparator hBite ih =>
    rw [words_one hSeparator hBite]
    generalize place.quote = before at hBite hSeparator
    generalize hNext : rest.head? = next at hBite
    have hBites : Bites significant before u next (added, quote, false) := hBite ▸ bites significant _ _ _
    cases hBites with
    | opens => exact ih (h.append fun _ => List.forall_mem_nil _)
    | closes => exact ih (h.append fun _ => List.forall_mem_nil _)
    | quoted => exact ih (h.append (plain_mark_true hSyntax u))
    | plain hSingle hDouble hLast =>
      have hWhitespace : isWhitespace u = false := by simpa using hSeparator
      by_cases hu : u = 0x5c
      · have hEnd : rest = [] := List.head?_eq_none_iff.mp (hNext.trans (hLast hu))
        rw [hEnd, words]
        intro hUnquoted
        obtain ⟨hMarks, -⟩ := unquoted_append hUnquoted
        refine .inr ⟨_, ?_, h hMarks⟩
        rw [Word.text, List.map_append, hu]
        rfl
      · refine ih (h.append fun _ => bareText_singleton ?_)
        exact isSyntax_eq_false hWhitespace hSingle hDouble hu

def room (ws : List Word) : Nat := (ws.map fun w => w.marks.length + 1).sum

@[simp] theorem room_append (a b : List Word) : room (a ++ b) = room a + room b := by simp [room]

theorem room_ended_le (place : Place) (ending : Ending) : room (place.ended ending) ≤ place.marks.length + 1 := by
  cases place with
  | between => exact Nat.zero_le _
  | inside quote marks => exact Nat.le_refl _

theorem length_added {next : Option Nat} {out : List Mark × Option Quote × Bool} (h : Bites significant quote u next out) :
    out.1.length ≤ 1 := by
  cases h <;> simp

variable (significant) in
theorem room_words_le (place : Place) (text : CodeUnits) : room (words significant place text) ≤ place.marks.length + text.length + 1 := by
  induction place, text using reading_induction significant with
  | nil place => exact room_ended_le place _
  | separator place u rest hQuote hu ih =>
    rw [words_separator hQuote hu, room_append, List.length_cons]
    have hEnded := room_ended_le place (endingBefore (u :: rest))
    have hMarks : Place.between.marks.length = 0 := rfl
    omega
  | two place u v rest added quote hSeparator hBite ih =>
    have hAdded := length_added (hBite ▸ bites significant place.quote u (some v))
    rw [words_two hSeparator hBite]
    simp only [Place.marks, List.length_append, List.length_cons] at ih hAdded ⊢
    omega
  | one place u rest added quote hSeparator hBite ih =>
    have hAdded := length_added (hBite ▸ bites significant place.quote u rest.head?)
    rw [words_one hSeparator hBite]
    simp only [Place.marks, List.length_append, List.length_cons] at ih hAdded ⊢
    omega

variable (significant) in
theorem unquoted_of_room (place : Place) (text : CodeUnits) (hQuote : place.quote = none) (hMarks : ∀ m ∈ place.marks, m.quoted = false)
    (hRoom : place.marks.length + text.length + 1 ≤ room (words significant place text)) :
    ∀ w ∈ words significant place text, w.Unquoted ∧ w.ending ≠ .unclosed := by
  induction place, text using reading_induction significant with
  | nil place =>
    rw [words, if_pos hQuote]
    cases place with
    | between => exact List.forall_mem_nil _
    | inside quote marks => exact List.forall_mem_singleton.mpr ⟨hMarks, nofun⟩
  | separator place u rest _ hu ih =>
    rw [words_separator hQuote hu, room_append, List.length_cons] at hRoom
    rw [words_separator hQuote hu]
    have hRest := room_words_le significant .between rest
    have hBetween : Place.between.marks.length = 0 := rfl
    cases place with
    | between =>
      have hEnded : room (Place.between.ended (endingBefore (u :: rest))) = 0 := rfl
      omega
    | inside quote marks =>
      have hEnded : room ((Place.inside quote marks).ended (endingBefore (u :: rest))) = marks.length + 1 := rfl
      have hLength : (Place.inside quote marks).marks.length = marks.length := rfl
      refine List.forall_mem_append.mpr ⟨List.forall_mem_singleton.mpr ⟨hMarks, ?_⟩, ?_⟩
      · simp only [endingBefore]
        split <;> nofun
      · exact ih rfl (List.forall_mem_nil _) (by omega)
  | two place u v rest added quote hSeparator hBite ih =>
    rw [words_two hSeparator hBite] at hRoom
    have hRest := room_words_le significant (.inside quote (place.marks ++ added)) rest
    have hAdded := length_added (hBite ▸ bites significant place.quote u (some v))
    simp only [Place.marks, List.length_append, List.length_cons] at hRest hRoom hAdded
    omega
  | one place u rest added quote hSeparator hBite ih =>
    rw [words_one hSeparator hBite] at hRoom ⊢
    have hRest := room_words_le significant (.inside quote (place.marks ++ added)) rest
    rw [hQuote] at hBite
    generalize rest.head? = next at hBite
    have hBites : Bites significant none u next (added, quote, false) := hBite ▸ bites significant _ _ _
    simp only [Place.marks, List.length_append, List.length_cons] at hRest hRoom
    cases hBites with
    | opens =>
      simp only [List.length_nil] at hRest hRoom
      omega
    | plain hSingle hDouble hLast =>
      refine ih rfl (List.forall_mem_append.mpr ⟨hMarks, List.forall_mem_singleton.mpr rfl⟩) ?_
      simp only [Place.marks, List.length_append, List.length_singleton] at hRoom ⊢
      omega

def joinWords (ts : List CodeUnits) : CodeUnits := List.intercalate [0x20] ts

def Spelled : List CodeUnits → Prop
  | [] => True
  | [t] => t ≠ [] ∧ EndsBare t
  | t :: ts => (t ≠ [] ∧ BareText t) ∧ Spelled ts

def plainWord (t : CodeUnits) : Word := ⟨t.map unquotedMark, .closed⟩

theorem bite_bare (h : isSyntax u = false) (next : Option Nat) : bite significant none u next = ([unquotedMark u], none, false) := by
  simp only [isSyntax, Bool.or_eq_false_iff, decide_eq_false_iff_not] at h
  obtain ⟨⟨⟨-, hSingle⟩, hDouble⟩, hLast⟩ := h
  simp only [bite, if_neg hSingle, if_neg hDouble, if_neg hLast]
  cases next <;> rfl

theorem not_separator (h : isSyntax u = false) (place : Place) : ¬(place.quote = none ∧ isWhitespace u = true) := by
  rintro ⟨-, hu⟩
  simp [isSyntax, hu] at h

variable {t : CodeUnits}

theorem words_bare (h : BareText t) (marks : List Mark) (rest : CodeUnits) :
    words significant (.inside none marks) (t ++ rest) = words significant (.inside none (marks ++ t.map unquotedMark)) rest := by
  induction t generalizing marks with
  | nil => simp
  | cons u t ih =>
    obtain ⟨hu, hText⟩ := List.forall_mem_cons.mp h
    rw [List.cons_append, words_one (not_separator hu _) (bite_bare hu _), ih hText]
    simp [Place.marks]

theorem words_start (hText : t ≠ []) (h : BareText t) (rest : CodeUnits) :
    words significant .between (t ++ rest) = words significant (.inside none (t.map unquotedMark)) rest := by
  cases t with
  | nil => exact absurd rfl hText
  | cons u t =>
    obtain ⟨hu, hBare⟩ := List.forall_mem_cons.mp h
    rw [List.cons_append, words_one (not_separator hu _) (bite_bare hu _), words_bare hBare]
    rfl

theorem words_last (hText : t ≠ []) (h : EndsBare t) : words significant .between t = [plainWord t] := by
  obtain hBare | ⟨front, rfl, hBare⟩ := h
  · rw [← List.append_nil t, words_start hText hBare, List.append_nil]
    rfl
  · cases front with
    | nil => rfl
    | cons u front =>
      rw [words_start (List.cons_ne_nil u front) hBare, plainWord, List.map_append]
      rfl

theorem isWhitespace_of_bare (h : isSyntax u = false) : isWhitespace u = false := by
  simp only [isSyntax, Bool.or_eq_false_iff] at h
  exact h.1.1.1

theorem endingBefore_blank {text : CodeUnits} (h : ∀ u ∈ text.head?, isWhitespace u = false) : endingBefore (0x20 :: text) = .closed := by
  have hBlank : isWhitespace 0x20 = true := rfl
  rw [endingBefore, List.takeWhile_cons_of_pos hBlank]
  cases text with
  | nil => rfl
  | cons u text =>
    rw [List.takeWhile_cons_of_neg (by simp [h u rfl])]
    rfl

theorem EndsBare.head (h : EndsBare t) : ∀ u ∈ t.head?, isWhitespace u = false := by
  intro u hu
  obtain hBare | ⟨front, rfl, hBare⟩ := h
  · exact isWhitespace_of_bare (hBare u (List.mem_of_mem_head? hu))
  · cases front with
    | nil =>
      obtain rfl := Option.some.inj hu
      rfl
    | cons v front =>
      obtain rfl := Option.some.inj hu
      exact isWhitespace_of_bare (hBare v List.mem_cons_self)

theorem joinWords_cons (t next : CodeUnits) (ts : List CodeUnits) : joinWords (t :: next :: ts) = t ++ 0x20 :: joinWords (next :: ts) := by
  simp [joinWords, List.intercalate]

theorem Spelled.head {ts : List CodeUnits} (h : Spelled ts) : ∀ u ∈ (joinWords ts).head?, isWhitespace u = false := by
  match ts, h with
  | [], _ => nofun
  | [t], h =>
    have hJoin : joinWords [t] = t := by simp [joinWords]
    rw [hJoin]
    exact h.2.head
  | t :: next :: ts, h =>
    rw [joinWords_cons]
    cases t with
    | nil => exact absurd rfl h.1.1
    | cons v t => exact EndsBare.head (t := v :: t) (.inl h.1.2)

theorem words_joined {ts : List CodeUnits} (h : Spelled ts) : words significant .between (joinWords ts) = ts.map plainWord := by
  match ts, h with
  | [], _ => rfl
  | [t], h =>
    have hJoin : joinWords [t] = t := by simp [joinWords]
    rw [hJoin, words_last h.1 h.2]
    rfl
  | t :: next :: ts, h =>
    have hBlank : isWhitespace 0x20 = true := rfl
    have hQuote : (Place.inside none (t.map unquotedMark)).quote = none := rfl
    rw [joinWords_cons, words_start h.1.1 h.1.2, words_separator hQuote hBlank, endingBefore_blank h.2.head, words_joined h.2]
    rfl

theorem length_joinWords (t : CodeUnits) (ts : List CodeUnits) :
    (joinWords (t :: ts)).length + 1 = ((t :: ts).map fun t => t.length + 1).sum := by
  induction ts generalizing t with
  | nil => simp [joinWords]
  | cons next ts ih =>
    have hRest := ih next
    rw [joinWords_cons, List.length_append, List.length_cons, List.map_cons, List.sum_cons]
    omega

theorem EndsBare.no_whitespace (h : EndsBare t) : ∀ u ∈ t, isWhitespace u = false := by
  obtain hBare | ⟨front, rfl, hBare⟩ := h
  · exact fun u hu => isWhitespace_of_bare (hBare u hu)
  · exact List.forall_mem_append.mpr ⟨fun u hu => isWhitespace_of_bare (hBare u hu), List.forall_mem_singleton.mpr rfl⟩

def Bare (ws : List Word) : Prop := ∀ w ∈ ws, w.Unquoted ∧ w.ending = .closed

instance (ws : List Word) : Decidable (Bare ws) := inferInstanceAs (Decidable (∀ w ∈ ws, w.Unquoted ∧ w.ending = .closed))

theorem plainWord_text {w : Word} (hUnquoted : w.Unquoted) (hEnding : w.ending = .closed) : plainWord w.text = w := by
  obtain ⟨marks, ending⟩ := w
  obtain rfl : ending = .closed := hEnding
  have hMarks : (marks.map Mark.unit).map unquotedMark = marks := by
    rw [List.map_map]
    refine (List.map_congr_left fun m hm => ?_).trans (List.map_id marks)
    have hQuoted := hUnquoted m hm
    obtain ⟨unit, quoted⟩ := m
    obtain rfl : quoted = false := hQuoted
    rfl
  rw [plainWord, Word.text, hMarks]

theorem endsBare_text (h : Simple ws) (hUnquoted : ∀ w ∈ ws, w.Unquoted) : ∀ w ∈ ws, EndsBare w.text := by
  induction ws with
  | nil => exact List.forall_mem_nil _
  | cons w ws ih =>
    obtain ⟨hw, hRest⟩ := List.forall_mem_cons.mp hUnquoted
    refine List.forall_mem_cons.mpr ⟨?_, ih h.tail hRest⟩
    cases ws with
    | nil => exact h hw
    | cons => exact .inl (h.1 hw)

theorem spelled_text (h : Simple ws) (hUnquoted : ∀ w ∈ ws, w.Unquoted) (hText : ∀ w ∈ ws, w.text ≠ []) : Spelled (ws.map Word.text) := by
  induction ws with
  | nil => trivial
  | cons w ws ih =>
    obtain ⟨hw, hRest⟩ := List.forall_mem_cons.mp hUnquoted
    obtain ⟨hwText, hRestText⟩ := List.forall_mem_cons.mp hText
    have hSpelled := ih h.tail hRest hRestText
    cases ws with
    | nil => exact ⟨hwText, h hw⟩
    | cons => exact ⟨⟨hwText, h.1 hw⟩, hSpelled⟩

theorem words_joined_text (h : Simple ws) (hBare : Bare ws) (hText : ∀ w ∈ ws, w.text ≠ []) :
    words significant .between (joinWords (ws.map Word.text)) = ws := by
  rw [words_joined (spelled_text h (fun w hw => (hBare w hw).1) hText), List.map_map]
  refine (List.map_congr_left fun w hw => ?_).trans (List.map_id ws)
  exact plainWord_text (hBare w hw).1 (hBare w hw).2

theorem bare_of_words_joined (h : Simple ws) (hText : ∀ w ∈ ws, w.text ≠ [])
    (hRead : words significant .between (joinWords (ws.map Word.text)) = ws) : Bare ws := by
  cases ws with
  | nil => exact List.forall_mem_nil _
  | cons w ws =>
    have hRoom : (joinWords ((w :: ws).map Word.text)).length + 1 = room (w :: ws) := by
      rw [List.map_cons, length_joinWords, ← List.map_cons, List.map_map, room]
      simp [Function.comp_def, Word.text]
    have hUnquoted := unquoted_of_room significant .between (joinWords ((w :: ws).map Word.text)) rfl
      (List.forall_mem_nil _) (by rw [hRead, ← hRoom]; simp [Place.marks])
    rw [hRead] at hUnquoted
    rw [words_joined (spelled_text h (fun w hw => (hUnquoted w hw).1) hText)] at hRead
    intro v hv
    refine ⟨(hUnquoted v hv).1, ?_⟩
    rw [← hRead] at hv
    obtain ⟨t, -, rfl⟩ := List.mem_map.mp hv
    rfl

end Facts

end Library.ShellWords
