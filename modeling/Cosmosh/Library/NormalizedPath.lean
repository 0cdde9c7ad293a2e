import Cosmosh.Library.RenderedPath

/-! # What remains of a path

Normalizing keeps some of the segments of a path and writes them as a path again.
-/

namespace Library.PosixPath

/-- The segments that are kept; only a relative path may keep a `..`, at its start. -/
def remaining (p : Text) : List Text := resolveSegments (!isAbsolute p) (p.splitOn '/')

def spell (absolute : Bool) (names : List Text) (trailing : Bool) : Text :=
  if names = [] then (if absolute then "/".toList else if trailing then "./".toList else ".".toList)
  else (if absolute then ['/'] else []) ++ (joinSegments names ++ if trailing then ['/'] else [])

theorem pushSegment_cases (allow : Bool) (stack : List Text) (segment : Text) :
    pushSegment allow stack segment = stack ∨ pushSegment allow stack segment = stack.tail ∨
      pushSegment allow stack segment = segment :: stack := by
  rw [pushSegment]
  split
  · exact .inl rfl
  · split
    · rename_i hUp
      subst hUp
      cases stack with
      | nil => cases allow <;> simp [ascend]
      | cons top rest =>
        rw [ascend]
        split
        · split
          · exact .inr (.inr rfl)
          · exact .inl rfl
        · exact .inr (.inl rfl)
    · exact .inr (.inr rfl)

def Settled (allow : Bool) : List Text → Prop
  | [] => True
  | top :: rest => pushSegment allow rest top = top :: rest ∧ Settled allow rest

variable {allow : Bool}

variable {stack : List Text}

section

variable (h : Settled allow stack)
include h

theorem Settled.foldl : stack.reverse.foldl (pushSegment allow) [] = stack := by
  induction stack with
  | nil => rfl
  | cons top rest ih => rw [List.reverse_cons, List.foldl_append, ih h.2, List.foldl_cons, List.foldl_nil, h.1]

theorem Settled.push (segment : Text) : Settled allow (pushSegment allow stack segment) := by
  obtain hKept | hPopped | hPushed := pushSegment_cases allow stack segment
  · rw [hKept]
    exact h
  · rw [hPopped]
    cases stack with
    | nil => trivial
    | cons top rest => exact h.2
  · rw [hPushed]
    exact ⟨hPushed, h⟩

theorem Settled.foldl_push (segments : List Text) : Settled allow (segments.foldl (pushSegment allow) stack) := by
  induction segments generalizing stack with
  | nil => exact h
  | cons segment segments ih => exact ih (h.push segment)

theorem Settled.not_skipped : ∀ n ∈ stack, ¬ (n = [] ∨ n = ".".toList) := by
  induction stack with
  | nil => simp
  | cons top rest ih =>
    refine List.forall_mem_cons.mpr ⟨fun hSkip => ?_, ih h.2⟩
    have hTop := h.1
    rw [pushSegment, if_pos hSkip] at hTop
    exact List.cons_ne_self top rest hTop.symm

end

theorem resolveSegments_resolveSegments (segments : List Text) :
    resolveSegments allow (resolveSegments allow segments) = resolveSegments allow segments := by
  have hSettled : Settled allow (segments.foldl (pushSegment allow) []) := Settled.foldl_push (show Settled allow [] from trivial) segments
  rw [resolveSegments, resolveSegments, hSettled.foldl]

variable (p : Text)

theorem remaining_names : ∀ n ∈ remaining p, n ≠ [] ∧ '/' ∉ n := resolveSegments_all_no_separator _ p

theorem remaining_not_skipped : ∀ n ∈ remaining p, ¬ (n = [] ∨ n = ".".toList) := by
  have hSettled : Settled (!isAbsolute p) ((p.splitOn '/').foldl (pushSegment (!isAbsolute p)) []) :=
    Settled.foldl_push (show Settled _ [] from trivial) _
  exact fun n hn => hSettled.not_skipped n (List.mem_reverse.mp hn)

variable {name : Text}

theorem remaining_append_plain {p : Text} (h : p ≠ []) (hName : Plain name) : remaining (p ++ '/' :: name) = remaining p ++ [name] := by
  have hAbsolute : isAbsolute (p ++ '/' :: name) = isAbsolute p := by
    rw [isAbsolute, isAbsolute, List.head?_append_of_ne_nil _ h]
  rw [remaining, hAbsolute, resolveSegments, List.splitOn_append_cons_self, splitOn_plain hName, List.foldl_append, List.foldl_cons,
    List.foldl_nil, pushSegment_plain _ _ hName, List.reverse_cons]
  rfl

theorem joinSegments_ne_nil {names : List Text} (h : ∀ n ∈ names, n ≠ [] ∧ '/' ∉ n) (hNames : names ≠ []) : joinSegments names ≠ [] := by
  intro hEmpty
  have hSplit := List.splitOn_intercalate '/' (fun n hn => (h n hn).2) hNames
  rw [← joinSegments, hEmpty, List.splitOn_nil] at hSplit
  exact (h [] (hSplit ▸ List.mem_singleton_self _)).1 rfl

theorem normalize_eq_spell : normalize p = spell (isAbsolute p) (remaining p) (hasTrailingSeparator p) := by
  by_cases hEmpty : p = []
  · rw [hEmpty]
    rfl
  · rw [normalize, if_neg hEmpty, spell, ← remaining]
    dsimp only
    by_cases hNames : remaining p = []
    · rw [if_pos hNames, if_pos (by rw [hNames]; rfl)]
    · rw [if_neg hNames, if_neg (joinSegments_ne_nil (remaining_names p) hNames)]
      cases isAbsolute p <;> cases hasTrailingSeparator p <;> simp

theorem head?_joinSegments (h : name ≠ []) (names : List Text) : (joinSegments (name :: names)).head? = name.head? := by
  obtain ⟨c, tail, rfl⟩ := List.exists_cons_of_ne_nil h
  cases names with
  | nil => rw [joinSegments_singleton]
  | cons second names =>
    rw [joinSegments, List.intercalate_cons_cons]
    rfl

theorem getLast?_joinSegments (h : name ≠ []) (names : List Text) : (joinSegments (names ++ [name])).getLast? = name.getLast? := by
  by_cases hNames : names = []
  · rw [hNames, List.nil_append, joinSegments_singleton]
  · obtain ⟨front, c, rfl⟩ := (List.eq_nil_or_concat name).resolve_left h
    rw [joinSegments_append hNames (List.cons_ne_nil _ _), joinSegments_singleton, List.concat_eq_append, ← List.cons_append, ← List.append_assoc,
      List.getLast?_concat, List.getLast?_concat]

section

variable {names : List Text} (h : ∀ n ∈ names, n ≠ [] ∧ '/' ∉ n) (absolute trailing : Bool)
include h

theorem isAbsolute_spell : isAbsolute (spell absolute names trailing) = absolute := by
  rw [spell]
  split
  · cases absolute <;> cases trailing <;> rfl
  · rename_i hNames
    cases absolute with
    | true => rfl
    | false =>
      rw [Bool.eq_false_iff]
      intro hRoot
      exact joinSegments_ne_nil h hNames (isAbsolute_joinSegments h _ hRoot)

section

variable (hNames : names ≠ [])
include hNames

theorem head?_spell : (spell absolute names trailing).head? = if absolute then some '/' else names.head?.bind List.head? := by
  obtain ⟨name, rest, rfl⟩ := List.exists_cons_of_ne_nil hNames
  obtain ⟨hNonempty, -⟩ := h name List.mem_cons_self
  rw [spell, if_neg hNames]
  cases absolute with
  | true => rfl
  | false =>
    have hHead := head?_joinSegments hNonempty rest
    have hJoined := joinSegments_ne_nil h hNames
    rw [if_neg Bool.false_ne_true, List.nil_append, List.head?_append_of_ne_nil _ hJoined, hHead]
    rfl

theorem getLast?_spell : (spell absolute names trailing).getLast? = if trailing then some '/' else names.getLast?.bind List.getLast? := by
  obtain ⟨front, name, rfl⟩ := (List.eq_nil_or_concat names).resolve_left hNames
  rw [List.concat_eq_append] at h hNames ⊢
  obtain ⟨hNonempty, -⟩ := h name (by simp)
  rw [spell, if_neg hNames]
  cases trailing with
  | true => rw [if_pos rfl, if_pos rfl, ← List.append_assoc, List.getLast?_concat]
  | false =>
    have hJoined := joinSegments_ne_nil h hNames
    rw [if_neg Bool.false_ne_true, List.append_nil, List.getLast?_append_of_ne_nil _ hJoined, getLast?_joinSegments hNonempty, List.getLast?_concat]
    rfl

theorem hasTrailingSeparator_spell : hasTrailingSeparator (spell absolute names trailing) = trailing := by
  rw [hasTrailingSeparator, getLast?_spell h absolute trailing hNames]
  cases trailing with
  | true => rfl
  | false =>
    rw [if_neg Bool.false_ne_true, decide_eq_false_iff_not]
    intro hSlash
    obtain ⟨name, hLast, hChar⟩ := Option.bind_eq_some_iff.mp hSlash
    exact (h name (List.mem_of_getLast? hLast)).2 (List.mem_of_getLast? hChar)

theorem splitOn_spell :
    (spell absolute names trailing).splitOn '/' = (if absolute then [[]] else []) ++ names ++ if trailing then [[]] else [] := by
  have hSplit := List.splitOn_intercalate '/' (fun n hn => (h n hn).2) hNames
  have hBody : (joinSegments names ++ if trailing then ['/'] else []).splitOn '/' = names ++ if trailing then [[]] else [] := by
    cases trailing with
    | true => rw [if_pos rfl, if_pos rfl, List.splitOn_append_cons_self, joinSegments, hSplit, List.splitOn_nil]
    | false => rw [if_neg Bool.false_ne_true, if_neg Bool.false_ne_true, List.append_nil, List.append_nil, joinSegments, hSplit]
  rw [spell, if_neg hNames]
  cases absolute with
  | true => rw [if_pos rfl, if_pos rfl, List.singleton_append, splitOn_cons_separator, hBody, List.append_assoc, List.singleton_append]
  | false => rw [if_neg Bool.false_ne_true, if_neg Bool.false_ne_true, List.nil_append, List.nil_append, hBody]

end

theorem remaining_spell (hSettled : resolveSegments (!absolute) names = names) : remaining (spell absolute names trailing) = names := by
  by_cases hNames : names = []
  · subst hNames
    cases absolute <;> cases trailing <;> rfl
  · rw [remaining, isAbsolute_spell h absolute trailing, splitOn_spell h absolute trailing hNames, resolveSegments, List.foldl_append,
      List.foldl_append]
    have hFront : (if absolute then [([] : Text)] else []).foldl (pushSegment (!absolute)) [] = [] := by cases absolute <;> rfl
    have hBack : ∀ stack, (if trailing then [([] : Text)] else []).foldl (pushSegment (!absolute)) stack = stack := by
      intro stack
      cases trailing <;> simp
    rw [hFront, hBack]
    exact hSettled

end

theorem normalize_separators : normalize ('/' :: '/' :: p) = normalize ('/' :: p) := by
  have hRemaining : remaining ('/' :: '/' :: p) = remaining ('/' :: p) := by
    have hAbsolute : ∀ q, isAbsolute ('/' :: q) = true := fun _ => rfl
    rw [remaining, remaining, hAbsolute, hAbsolute, splitOn_cons_separator, resolveSegments, resolveSegments, List.foldl_cons, pushSegment_nil]
  have hTrailing : hasTrailingSeparator ('/' :: '/' :: p) = hasTrailingSeparator ('/' :: p) := by
    rw [hasTrailingSeparator, hasTrailingSeparator, List.getLast?_cons_cons]
  rw [normalize_eq_spell, normalize_eq_spell, hRemaining, hTrailing]
  rfl

theorem normalize_spell {names : List Text} (hNames : ∀ n ∈ names, n ≠ [] ∧ '/' ∉ n) {absolute : Bool} (trailing : Bool)
    (hSettled : resolveSegments (!absolute) names = names) : normalize (spell absolute names trailing) = spell absolute names trailing := by
  rw [normalize_eq_spell, remaining_spell hNames _ _ hSettled, isAbsolute_spell hNames]
  by_cases hNone : names = []
  · rw [hNone]
    cases absolute <;> cases trailing <;> rfl
  · rw [hasTrailingSeparator_spell hNames _ _ hNone]

theorem normalize_normalize : normalize (normalize p) = normalize p := by
  rw [normalize_eq_spell p]
  exact normalize_spell (remaining_names p) _ (resolveSegments_resolveSegments _)

theorem normalize_plain (h : Plain name) : normalize name = name := by
  have hNames : ∀ n ∈ [name], n ≠ [] ∧ '/' ∉ n := fun n hn => List.mem_singleton.mp hn ▸ ⟨h.nonempty, h.no_separator⟩
  have hSettled : resolveSegments (!false) [name] = [name] := by
    rw [resolveSegments, List.foldl_cons, List.foldl_nil, pushSegment_plain _ _ h, List.reverse_singleton]
  have hSpelled : spell false [name] false = name := by simp [spell, joinSegments]
  have hNormal := normalize_spell hNames false hSettled
  rwa [hSpelled] at hNormal

section

variable {q : Char → Bool} (hSeparator : q '/' = false)
include hSeparator

theorem countP_joinSegments (names : List Text) : (joinSegments names).countP q = (names.map (List.countP q)).sum := by
  induction names with
  | nil => rfl
  | cons name names ih =>
    cases names with
    | nil => simp
    | cons second names =>
      have hRest : (joinSegments (second :: names)).countP q = ((second :: names).map (List.countP q)).sum := ih
      rw [joinSegments, List.intercalate_cons_cons, List.countP_append, List.countP_append, ← joinSegments, hRest, List.map_cons, List.sum_cons,
        List.countP_singleton, hSeparator]
      simp

omit hSeparator in
theorem countP_foldl_pushSegment (allow : Bool) (segments stack : List Text) :
    ((segments.foldl (pushSegment allow) stack).map (List.countP q)).sum ≤
      (stack.map (List.countP q)).sum + (segments.map (List.countP q)).sum := by
  induction segments generalizing stack with
  | nil => simp
  | cons segment segments ih =>
    have hStep : ((pushSegment allow stack segment).map (List.countP q)).sum ≤ (stack.map (List.countP q)).sum + segment.countP q := by
      obtain hKept | hPopped | hPushed := pushSegment_cases allow stack segment
      · rw [hKept]
        omega
      · rw [hPopped]
        cases stack with
        | nil => simp
        | cons top rest =>
          rw [List.tail_cons, List.map_cons, List.sum_cons]
          omega
      · rw [hPushed, List.map_cons, List.sum_cons]
        omega
    have hRest := ih (pushSegment allow stack segment)
    rw [List.foldl_cons, List.map_cons, List.sum_cons]
    omega

theorem countP_normalize_le (hDot : q '.' = false) (p : Text) : (normalize p).countP q ≤ p.countP q := by
  have hAll : p.countP q = ((p.splitOn '/').map (List.countP q)).sum := by
    rw [← countP_joinSegments hSeparator, joinSegments, List.intercalate_splitOn]
  have hKept : ((remaining p).map (List.countP q)).sum ≤ p.countP q := by
    have hFold := countP_foldl_pushSegment (q := q) (!isAbsolute p) (p.splitOn '/') []
    rw [remaining, resolveSegments, List.map_reverse, List.sum_reverse, hAll]
    simpa using hFold
  have hSlash : ∀ b : Bool, (if b then ['/'] else []).countP q = 0 := by
    intro b
    cases b <;> simp [hSeparator]
  rw [normalize_eq_spell, spell]
  split
  · cases isAbsolute p <;> cases hasTrailingSeparator p <;> simp [hSeparator, hDot]
  · rw [List.countP_append, List.countP_append, hSlash, hSlash, countP_joinSegments hSeparator]
    omega

end

end Library.PosixPath
