import Mathlib.Data.List.Infix

/-! # Lines of a text

A text splits into lines at a newline.
-/

namespace Library

section

variable {α : Type} [DecidableEq α] (newline : α)

def lines : List α → List (List α)
  | [] => []
  | c :: t =>
    if c = newline then [] :: lines t
    else
      match lines t with
      | [] => [[c]]
      | line :: more => (c :: line) :: more

def completed : List α → List (List α)
  | [] => []
  | c :: t =>
    if c = newline then [] :: completed t
    else
      match completed t with
      | [] => []
      | line :: more => (c :: line) :: more

def afterNewline (t : List α) : List α := (t.dropWhile (· ≠ newline)).tail

@[simp] theorem lines_newline (t : List α) : lines newline (newline :: t) = [] :: lines newline t := by
  rw [lines, if_pos rfl]

@[simp] theorem completed_newline (t : List α) : completed newline (newline :: t) = [] :: completed newline t := by
  rw [completed, if_pos rfl]

variable {t : List α}

theorem exists_lines (h : t ≠ []) : ∃ line more, lines newline t = line :: more := by
  obtain ⟨c, t, rfl⟩ := List.exists_cons_of_ne_nil h
  rw [lines]
  split
  · exact ⟨_, _, rfl⟩
  · split <;> exact ⟨_, _, rfl⟩

variable {newline}

variable {c : α} {line : List α} {more : List (List α)}

theorem lines_cons (hc : c ≠ newline) (h : lines newline t = line :: more) : lines newline (c :: t) = (c :: line) :: more := by
  rw [lines, if_neg hc, h]

theorem lines_singleton (hc : c ≠ newline) : lines newline [c] = [[c]] := by
  rw [lines, if_neg hc]
  rfl

theorem completed_cons (hc : c ≠ newline) (h : completed newline t = line :: more) : completed newline (c :: t) = (c :: line) :: more := by
  rw [completed, if_neg hc, h]

theorem completed_cons_nil (hc : c ≠ newline) (h : completed newline t = []) : completed newline (c :: t) = [] := by
  rw [completed, if_neg hc, h]

theorem mem_of_mem_lines (h : line ∈ lines newline t) (hc : c ∈ line) : c ∈ t := by
  induction t generalizing line with
  | nil => cases h
  | cons d t ih =>
    by_cases hd : d = newline
    · subst hd
      rw [lines_newline] at h
      obtain rfl | hLater := List.mem_cons.mp h
      · cases hc
      · exact List.mem_cons_of_mem d (ih hLater hc)
    · by_cases ht : t = []
      · subst ht
        rw [lines_singleton hd] at h
        rwa [List.mem_singleton.mp h] at hc
      · obtain ⟨first, more, hLines⟩ := exists_lines newline ht
        rw [hLines] at ih
        rw [lines_cons hd hLines] at h
        obtain rfl | hLater := List.mem_cons.mp h
        · obtain rfl | hRest := List.mem_cons.mp hc
          · exact List.mem_cons_self
          · exact List.mem_cons_of_mem d (ih List.mem_cons_self hRest)
        · exact List.mem_cons_of_mem d (ih (List.mem_cons_of_mem first hLater) hc)

theorem length_completed (t : List α) : (completed newline t).length = t.count newline := by
  induction t with
  | nil => rfl
  | cons c t ih =>
    by_cases hc : c = newline
    · subst hc
      rw [completed_newline, List.length_cons, ih, List.count_cons_self]
    · rw [List.count_cons_of_ne hc, ← ih]
      cases hRest : completed newline t with
      | nil => rw [completed_cons_nil hc hRest]
      | cons line more => rw [completed_cons hc hRest, List.length_cons, List.length_cons]

theorem completed_append_of_not_mem (t : List α) {a : List α} (ha : newline ∉ a) : completed newline (t ++ a) = completed newline t := by
  have hNone : completed newline a = [] := by
    rw [← List.length_eq_zero_iff, length_completed]
    exact List.count_eq_zero.mpr ha
  induction t with
  | nil => exact hNone
  | cons c t ih => rw [List.cons_append, completed, ih, completed]

theorem lines_prefix_completed (t : List α) : lines newline t <+: completed newline (t ++ [newline]) := by
  induction t with
  | nil => exact List.nil_prefix
  | cons c t ih =>
    rw [List.cons_append]
    by_cases hc : c = newline
    · subst hc
      rw [lines_newline, completed_newline]
      exact (List.prefix_append_right_inj [[]]).mpr ih
    · cases t with
      | nil =>
        rw [lines_singleton hc, List.nil_append, completed_cons hc (completed_newline newline [])]
        exact List.prefix_append _ _
      | cons d t =>
        obtain ⟨line, more, hLines⟩ := exists_lines newline (List.cons_ne_nil d t)
        rw [hLines] at ih
        obtain ⟨rest, hRest⟩ := ih
        rw [lines_cons hc hLines, completed_cons hc hRest.symm]
        exact List.prefix_append _ rest

theorem lines_append_newline (front : List α) : lines newline (front ++ [newline]) = completed newline (front ++ [newline]) := by
  induction front with
  | nil => rw [List.nil_append, lines_newline, completed_newline, lines, completed]
  | cons c front ih =>
    rw [List.cons_append]
    by_cases hc : c = newline
    · subst hc
      rw [lines_newline, completed_newline, ih]
    · obtain ⟨line, more, hLines⟩ := exists_lines newline (List.concat_ne_nil newline front)
      rw [lines_cons hc hLines, completed_cons hc (ih ▸ hLines)]

theorem length_completed_lt_lines (hc : c ≠ newline) (front : List α) :
    (completed newline (front ++ [c])).length < (lines newline (front ++ [c])).length := by
  induction front with
  | nil =>
    rw [List.nil_append, lines_singleton hc, completed_cons_nil hc rfl]
    exact Nat.zero_lt_one
  | cons d front ih =>
    rw [List.cons_append]
    by_cases hd : d = newline
    · subst hd
      rw [lines_newline, completed_newline]
      exact Nat.succ_lt_succ ih
    · obtain ⟨line, more, hLines⟩ := exists_lines newline (List.concat_ne_nil c front)
      rw [lines_cons hd hLines]
      cases hCompleted : completed newline (front ++ [c]) with
      | nil =>
        rw [completed_cons_nil hd hCompleted]
        exact Nat.succ_pos _
      | cons first rest =>
        rw [hLines, hCompleted] at ih
        rwa [completed_cons hd hCompleted]

theorem lines_sublist_completed_iff (t : List α) :
    (lines newline t).Sublist (completed newline t) ↔ t = [] ∨ ∃ front, t = front ++ [newline] := by
  constructor
  · intro h
    obtain rfl | ⟨front, c, rfl⟩ := List.eq_nil_or_concat' t
    · exact .inl rfl
    · by_cases hc : c = newline
      · subst hc
        exact .inr ⟨front, rfl⟩
      · exact absurd h.length_le (Nat.not_le.mpr (length_completed_lt_lines hc front))
  · rintro (rfl | ⟨front, rfl⟩)
    · exact List.Sublist.refl _
    · rw [lines_append_newline]

theorem completed_append_sublist_iff (t a : List α) : (completed newline (t ++ a)).Sublist (completed newline t) ↔ newline ∉ a := by
  constructor
  · intro h hMem
    have hLength := h.length_le
    have hCount := List.count_pos_iff.mpr hMem
    rw [length_completed, length_completed, List.count_append] at hLength
    omega
  · intro ha
    rw [completed_append_of_not_mem t ha]

@[simp] theorem afterNewline_newline (t : List α) : afterNewline newline (newline :: t) = t := by simp [afterNewline]

theorem afterNewline_cons (hc : c ≠ newline) (t : List α) : afterNewline newline (c :: t) = afterNewline newline t := by
  simp [afterNewline, hc]

theorem tail_lines (t : List α) : (lines newline t).tail = lines newline (afterNewline newline t) := by
  induction t with
  | nil => rfl
  | cons c t ih =>
    by_cases hc : c = newline
    · subst hc
      rw [lines_newline, afterNewline_newline, List.tail_cons]
    · rw [afterNewline_cons hc, ← ih]
      cases t with
      | nil => rw [lines_singleton hc]; rfl
      | cons d t =>
        obtain ⟨line, more, hLines⟩ := exists_lines newline (List.cons_ne_nil d t)
        rw [lines_cons hc hLines, hLines, List.tail_cons, List.tail_cons]

theorem afterNewline_of_not_mem (h : newline ∉ t) : afterNewline newline t = [] := by
  induction t with
  | nil => rfl
  | cons c t ih =>
    obtain ⟨hc, ht⟩ := not_or.mp (mt List.mem_cons.mpr h)
    rw [afterNewline_cons (Ne.symm hc), ih ht]

theorem afterNewline_append (t a : List α) :
    afterNewline newline (t ++ a) = if newline ∈ t then afterNewline newline t ++ a else afterNewline newline a := by
  induction t with
  | nil => rfl
  | cons c t ih =>
    by_cases hc : c = newline
    · subst hc
      rw [if_pos List.mem_cons_self, List.cons_append, afterNewline_newline, afterNewline_newline]
    · have hMem : newline ∈ c :: t ↔ newline ∈ t := by simp [Ne.symm hc]
      rw [List.cons_append, afterNewline_cons hc, afterNewline_cons hc, ih]
      simp only [hMem]

theorem afterNewline_map_some (t : List α) : afterNewline (some newline) (t.map some) = (afterNewline newline t).map some := by
  induction t with
  | nil => rfl
  | cons c t ih =>
    by_cases hc : c = newline
    · subst hc
      rw [List.map_cons, afterNewline_newline, afterNewline_newline]
    · rw [List.map_cons, afterNewline_cons hc, afterNewline_cons (fun hSame => hc (Option.some.inj hSame)), ih]

section

def isWhole (gap : α) (line : List α) : Bool := decide (gap ∉ line)

@[simp] theorem isWhole_iff {gap : α} : isWhole gap line = true ↔ gap ∉ line := decide_eq_true_iff

variable {gap : α}

theorem takeWhile_lines (hGap : gap ≠ newline) (ht : gap ∉ t) (z : List α) :
    (lines newline (t ++ gap :: z)).takeWhile (isWhole gap) = completed newline t := by
  induction t with
  | nil =>
    rw [List.nil_append, completed, lines, if_neg hGap]
    split <;> simp
  | cons c t ih =>
    obtain ⟨hc, ht⟩ := not_or.mp (mt List.mem_cons.mpr ht)
    have ih := ih ht
    rw [List.cons_append]
    by_cases hNewline : c = newline
    · subst hNewline
      rw [lines_newline, completed_newline, List.takeWhile_cons_of_pos (by simp), ih]
    · obtain ⟨line, more, hLines⟩ := exists_lines newline (List.append_ne_nil_of_right_ne_nil t (List.cons_ne_nil gap z))
      rw [hLines] at ih
      rw [lines_cons hNewline hLines]
      by_cases hLine : gap ∈ line
      · rw [List.takeWhile_cons_of_neg (by simpa using hLine)] at ih
        rw [List.takeWhile_cons_of_neg (by simp [hLine]), completed_cons_nil hNewline ih.symm]
      · rw [List.takeWhile_cons_of_pos (by simpa using hLine)] at ih
        rw [List.takeWhile_cons_of_pos (by simp [hLine, hc]), completed_cons hNewline ih.symm]

theorem dropWhile_lines (hGap : gap ≠ newline) (ht : gap ∉ t) (z : List α) :
    ∃ line, gap ∈ line ∧ (lines newline (t ++ gap :: z)).dropWhile (isWhole gap) = line :: lines newline (afterNewline newline z) := by
  induction t with
  | nil =>
    obtain ⟨line, more, hLines⟩ := exists_lines newline (List.cons_ne_nil gap z)
    have hTail : (lines newline (gap :: z)).tail = lines newline (afterNewline newline (gap :: z)) := tail_lines (gap :: z)
    rw [hLines, List.tail_cons, afterNewline_cons hGap] at hTail
    subst hTail
    have hLine : gap ∈ line := by
      rw [lines, if_neg hGap] at hLines
      split at hLines
      · obtain ⟨rfl, -⟩ := List.cons.inj hLines
        exact List.mem_cons_self
      · obtain ⟨rfl, -⟩ := List.cons.inj hLines
        exact List.mem_cons_self
    exact ⟨line, hLine, by rw [List.nil_append, hLines, List.dropWhile_cons_of_neg (by simpa using hLine)]⟩
  | cons c t ih =>
    obtain ⟨hc, ht⟩ := not_or.mp (mt List.mem_cons.mpr ht)
    obtain ⟨line, hLine, hDrop⟩ := ih ht
    rw [List.cons_append]
    by_cases hNewline : c = newline
    · subst hNewline
      rw [lines_newline, List.dropWhile_cons_of_pos (by simp)]
      exact ⟨line, hLine, hDrop⟩
    · obtain ⟨first, more, hLines⟩ := exists_lines newline (List.append_ne_nil_of_right_ne_nil t (List.cons_ne_nil gap z))
      rw [hLines] at hDrop
      rw [lines_cons hNewline hLines]
      by_cases hFirst : gap ∈ first
      · rw [List.dropWhile_cons_of_neg (by simpa using hFirst)] at hDrop
        cases hDrop
        exact ⟨c :: line, List.mem_cons_of_mem c hLine, List.dropWhile_cons_of_neg (by simp [hLine])⟩
      · rw [List.dropWhile_cons_of_pos (by simpa using hFirst)] at hDrop
        rw [List.dropWhile_cons_of_pos (by simp [hFirst, hc])]
        exact ⟨line, hLine, hDrop⟩

variable {breaks : List α}

theorem length_filter_lines_append (hBreaks : gap ∉ breaks) (z : List α) :
    breaks.count newline + ((lines newline z).filter (isWhole gap)).length ≤ ((lines newline (breaks ++ z)).filter (isWhole gap)).length := by
  induction breaks with
  | nil => simp
  | cons c breaks ih =>
    obtain ⟨hc, hBreaks⟩ := not_or.mp (mt List.mem_cons.mpr hBreaks)
    have ih := ih hBreaks
    rw [List.cons_append]
    by_cases hNewline : c = newline
    · subst hNewline
      rw [lines_newline, List.count_cons_self, List.filter_cons_of_pos (by simp), List.length_cons]
      omega
    · rw [List.count_cons_of_ne hNewline]
      refine ih.trans ?_
      cases hText : breaks ++ z with
      | nil => exact Nat.zero_le _
      | cons d rest =>
        obtain ⟨line, more, hLines⟩ := exists_lines newline (List.cons_ne_nil d rest)
        have hWhole : isWhole gap (c :: line) = isWhole gap line := by simp [isWhole, hc]
        rw [lines_cons hNewline hLines, hLines, List.filter_cons, List.filter_cons, hWhole]
        split <;> exact Nat.le_refl _

theorem lines_append_of_not_mem (hBreaks : newline ∉ breaks) {z : List α} (h : lines newline z = line :: more) :
    lines newline (breaks ++ z) = (breaks ++ line) :: more := by
  induction breaks with
  | nil => exact h
  | cons c breaks ih =>
    obtain ⟨hc, hBreaks⟩ := not_or.mp (mt List.mem_cons.mpr hBreaks)
    exact lines_cons (Ne.symm hc) (ih hBreaks)

theorem lines_of_not_mem {a : List α} (ha : newline ∉ a) (hNonempty : a ≠ []) : lines newline a = [a] := by
  obtain rfl | ⟨front, c, rfl⟩ := List.eq_nil_or_concat' a
  · exact absurd rfl hNonempty
  · obtain ⟨hFront, hLast⟩ := not_or.mp (mt List.mem_append.mpr ha)
    have hc : c ≠ newline := fun hc => hLast (hc ▸ List.mem_singleton_self c)
    exact lines_append_of_not_mem hFront (lines_singleton hc)

theorem filter_lines_sublist_iff (hBreaks : gap ∉ breaks) (z : List α) :
    ((lines newline (breaks ++ z)).filter (isWhole gap)).Sublist ((lines newline z).filter (isWhole gap)) ↔
      breaks = [] ∨ (newline ∉ breaks ∧ ∃ line ∈ (lines newline z).head?, gap ∈ line) := by
  constructor
  · intro h
    have hLength := (length_filter_lines_append hBreaks z).trans h.length_le
    have hNone : newline ∉ breaks := List.count_eq_zero.mp (by omega)
    by_cases hEmpty : breaks = []
    · exact .inl hEmpty
    · refine .inr ⟨hNone, ?_⟩
      by_cases hz : z = []
      · subst hz
        rw [List.append_nil, lines_of_not_mem hNone hEmpty, List.filter_cons_of_pos (by simpa using hBreaks)] at h
        cases h
      · obtain ⟨line, more, hLines⟩ := exists_lines newline hz
        refine ⟨line, by rw [hLines]; rfl, ?_⟩
        by_contra hLine
        rw [lines_append_of_not_mem hNone hLines, hLines, List.filter_cons_of_pos (by simp [hLine, hBreaks]),
          List.filter_cons_of_pos (by simpa using hLine)] at h
        have hSame := h.eq_of_length (by rw [List.length_cons, List.length_cons])
        exact hEmpty (List.append_left_eq_self.mp (List.cons.inj hSame).1)
  · rintro (rfl | ⟨hNone, line, hHead, hLine⟩)
    · exact List.Sublist.refl _
    · obtain ⟨more, hLines⟩ := List.head?_eq_some_iff.mp hHead
      rw [lines_append_of_not_mem hNone hLines, hLines, List.filter_cons_of_neg (by simp [hLine]), List.filter_cons_of_neg (by simp [hLine])]

end

end

end Library
