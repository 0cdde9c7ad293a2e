import Mathlib.Data.List.Infix
import Cosmosh.Library.JsText

/-! # The `path.posix` functions on separator-delimited names

`normalize`, `dirname`, `basename` and `extname` follow the documented behaviour of the Node module.
-/

namespace Library.PosixPath

def isAbsolute (p : Text) : Bool := p.head? = some '/'

def hasTrailingSeparator (p : Text) : Bool := p.getLast? = some '/'

/-- A `..` met after the reversed list of the segments kept so far. -/
def ascend (allowAboveRoot : Bool) : List Text → List Text
  | [] => if allowAboveRoot then ["..".toList] else []
  | top :: rest =>
    if top = "..".toList then (if allowAboveRoot then "..".toList :: top :: rest else top :: rest)
    else rest

def pushSegment (allowAboveRoot : Bool) (stack : List Text) (segment : Text) : List Text :=
  if segment = [] ∨ segment = ".".toList then stack
  else if segment = "..".toList then ascend allowAboveRoot stack
  else segment :: stack

def resolveSegments (allowAboveRoot : Bool) (segments : List Text) : List Text := (segments.foldl (pushSegment allowAboveRoot) []).reverse

def joinSegments (segments : List Text) : Text := ['/'].intercalate segments

def normalize (p : Text) : Text :=
  if p = [] then ".".toList
  else
    let body := joinSegments (resolveSegments (!isAbsolute p) (p.splitOn '/'))
    if body = [] then
      if isAbsolute p then "/".toList
      else if hasTrailingSeparator p then "./".toList else ".".toList
    else
      let body := if hasTrailingSeparator p then body ++ ['/'] else body
      if isAbsolute p then '/' :: body else body

def dirname (p : Text) : Text :=
  match p with
  | [] => ".".toList
  | first :: body =>
    match (body.reverse.dropWhile (· = '/')).dropWhile (· ≠ '/') with
    | [] => if first = '/' then "/".toList else ".".toList
    | _ :: before => if first = '/' ∧ before = [] then "//".toList else first :: before.reverse

def basename (p : Text) : Text := ((p.reverse.dropWhile (· = '/')).takeWhile (· ≠ '/')).reverse

def extname (p : Text) : Text :=
  let base := basename p
  match base.reverse.dropWhile (· ≠ '.') with
  | [] => []
  | _ :: stem =>
    if stem = [] ∨ base = "..".toList then []
    else '.' :: (base.reverse.takeWhile (· ≠ '.')).reverse

/-- The entries an absolute path names one after the other, `.` and `..` resolved. -/
def location (p : Text) : List Text := resolveSegments false (p.splitOn '/')

structure Plain (name : Text) : Prop where
  nonempty : name ≠ []
  not_dot : name ≠ ".".toList
  not_dotdot : name ≠ "..".toList
  no_separator : '/' ∉ name

def render (entries : List Text) (trailing : Bool) : Text := '/' :: (joinSegments entries ++ if trailing && !entries.isEmpty then ['/'] else [])

variable (allow : Bool)

@[simp] theorem pushSegment_nil (stack : List Text) : pushSegment allow stack [] = stack := by
  simp [pushSegment]

variable {name : Text}

theorem pushSegment_plain (stack : List Text) (h : Plain name) : pushSegment allow stack name = name :: stack := by
  rw [pushSegment, if_neg (not_or.mpr ⟨h.nonempty, h.not_dot⟩), if_neg h.not_dotdot]

variable {names : List Text}

theorem foldl_pushSegment_plain (h : ∀ n ∈ names, Plain n) (stack : List Text) :
    names.foldl (pushSegment allow) stack = names.reverse ++ stack := by
  induction names generalizing stack with
  | nil => rfl
  | cons name names ih =>
    rw [List.foldl_cons, pushSegment_plain allow stack (h name List.mem_cons_self),
      ih (fun n hn => h n (List.mem_cons_of_mem _ hn)), List.reverse_cons, List.append_assoc]
    rfl

variable {segment : Text}

theorem not_mem_of_mem_splitOn {separator : Char} {p : Text} (h : segment ∈ p.splitOn separator) : separator ∉ segment := by
  induction p generalizing segment with
  | nil =>
    rw [List.splitOn_nil, List.mem_singleton] at h
    simp [h]
  | cons c p ih =>
    rw [List.splitOn_cons_eq_if_modifyHead] at h
    split at h
    · rcases List.mem_cons.mp h with rfl | h
      · simp
      · exact ih h
    · rename_i hc
      cases hSplit : p.splitOn separator with
      | nil => exact absurd hSplit (List.splitOn_ne_nil separator p)
      | cons head tail =>
        rw [hSplit, List.modifyHead_cons] at h
        rcases List.mem_cons.mp h with rfl | h
        · have hHead : separator ∉ head := ih (hSplit ▸ List.mem_cons_self)
          simp only [List.mem_cons, not_or]
          exact ⟨fun hEq => hc (beq_iff_eq.mpr hEq.symm), hHead⟩
        · exact ih (hSplit ▸ List.mem_cons_of_mem _ h)

variable {stack : List Text}

theorem pushSegment_all_plain (hStack : ∀ n ∈ stack, Plain n) (hSegment : '/' ∉ segment) : ∀ n ∈ pushSegment false stack segment, Plain n := by
  rw [pushSegment]
  split
  · exact hStack
  · split
    · cases stack with
      | nil => simp [ascend]
      | cons top rest =>
        rw [ascend, if_neg (hStack top List.mem_cons_self).not_dotdot]
        exact fun n hn => hStack n (List.mem_cons_of_mem _ hn)
    · rename_i hSkip hUp
      intro n hn
      rcases List.mem_cons.mp hn with rfl | hn
      · exact ⟨fun h => hSkip (.inl h), fun h => hSkip (.inr h), hUp, hSegment⟩
      · exact hStack n hn

theorem foldl_pushSegment_all_plain {segments : List Text} (hStack : ∀ n ∈ stack, Plain n) (hSegments : ∀ s ∈ segments, '/' ∉ s) :
    ∀ n ∈ segments.foldl (pushSegment false) stack, Plain n := by
  induction segments generalizing stack with
  | nil => exact hStack
  | cons segment segments ih =>
    exact ih (pushSegment_all_plain hStack (hSegments segment List.mem_cons_self))
      (fun s hs => hSegments s (List.mem_cons_of_mem _ hs))

variable (p : Text)

theorem location_plain : ∀ n ∈ location p, Plain n := by
  intro n hn
  rw [location, resolveSegments, List.mem_reverse] at hn
  exact foldl_pushSegment_all_plain (by simp) (fun s hs => not_mem_of_mem_splitOn hs) n hn

theorem splitOn_plain (h : Plain name) : name.splitOn '/' = [name] := List.splitOn_eq_singleton h.no_separator

theorem foldl_pushSegment_append (q : Text) : ((p ++ '/' :: q).splitOn '/').foldl (pushSegment false) [] =
      (q.splitOn '/').foldl (pushSegment false) (location p).reverse := by
  rw [List.splitOn_append_cons_self, List.foldl_append, location, resolveSegments, List.reverse_reverse]

theorem location_append_plain (h : Plain name) : location (p ++ '/' :: name) = location p ++ [name] := by
  rw [location, resolveSegments, foldl_pushSegment_append, splitOn_plain h, List.foldl_cons,
    List.foldl_nil, pushSegment_plain false _ h, List.reverse_cons, List.reverse_reverse]

theorem location_append_separator : location (p ++ ['/']) = location p := by
  rw [location, resolveSegments, foldl_pushSegment_append p [], List.splitOn_nil]
  simp

@[simp] theorem location_root : location ['/'] = [] := rfl

theorem splitOn_joinSegments (h : ∀ n ∈ names, Plain n) (hNonempty : names ≠ []) : (joinSegments names).splitOn '/' = names :=
  List.splitOn_intercalate '/' (fun n hn => (h n hn).no_separator) hNonempty

theorem joinSegments_eq_nil_iff (h : ∀ n ∈ names, Plain n) : joinSegments names = [] ↔ names = [] := by
  constructor
  · intro hEmpty
    by_contra hNonempty
    have hSplit := splitOn_joinSegments h hNonempty
    rw [hEmpty, List.splitOn_nil] at hSplit
    exact (h [] (hSplit ▸ List.mem_singleton_self _)).nonempty rfl
  · rintro rfl
    rfl

theorem joinSegments_append {rest : List Text} (hNames : names ≠ []) (hRest : rest ≠ []) :
    joinSegments (names ++ rest) = joinSegments names ++ '/' :: joinSegments rest := by
  induction names with
  | nil => exact absurd rfl hNames
  | cons first names ih =>
    obtain ⟨next, tail, rfl⟩ := List.exists_cons_of_ne_nil hRest
    cases names with
    | nil => simp [joinSegments, List.intercalate_cons_cons]
    | cons second names =>
      have hStep := ih (by simp)
      simp only [joinSegments, List.cons_append, List.intercalate_cons_cons] at hStep ⊢
      rw [hStep]
      simp

@[simp] theorem joinSegments_singleton (name : Text) : joinSegments [name] = name := by
  simp [joinSegments]

theorem splitOn_cons_separator : ('/' :: p).splitOn '/' = [] :: p.splitOn '/' := by
  rw [List.splitOn_cons_eq_if_modifyHead, if_pos (by simp)]

theorem location_cons_joinSegments (h : ∀ n ∈ names, Plain n) : location ('/' :: joinSegments names) = names := by
  rw [location, resolveSegments, splitOn_cons_separator, List.foldl_cons, pushSegment_nil]
  by_cases hNonempty : names = []
  · subst hNonempty
    rfl
  · rw [splitOn_joinSegments h hNonempty, foldl_pushSegment_plain false h, List.append_nil,
      List.reverse_reverse]

theorem location_render (h : ∀ n ∈ names, Plain n) (trailing : Bool) : location (render names trailing) = names := by
  rw [render]
  split
  · rw [← List.cons_append, location_append_separator, location_cons_joinSegments h]
  · rw [List.append_nil, location_cons_joinSegments h]

@[simp] theorem isAbsolute_render (names : List Text) (trailing : Bool) : isAbsolute (render names trailing) = true := rfl

theorem isAbsolute_iff : isAbsolute p = true ↔ ∃ rest, p = '/' :: rest := by
  cases p <;> simp [isAbsolute, eq_comm]

theorem render_untrailed (names : List Text) : render names false = '/' :: joinSegments names := by
  simp [render]

theorem render_injective {a b : List Text} (ha : ∀ n ∈ a, Plain n) (hb : ∀ n ∈ b, Plain n) (h : render a false = render b false) : a = b := by
  have hLocation := congrArg location h
  rwa [location_render ha, location_render hb] at hLocation

theorem normalize_of_absolute {p : Text} (h : isAbsolute p = true) : normalize p = render (location p) (hasTrailingSeparator p) := by
  obtain ⟨rest, rfl⟩ := (isAbsolute_iff p).mp h
  rw [normalize, if_neg (by simp)]
  simp only [h, Bool.not_true, if_true]
  have hPlain := location_plain ('/' :: rest)
  rw [← location, render]
  by_cases hEmpty : location ('/' :: rest) = []
  · simp [hEmpty, joinSegments]
  · rw [if_neg (by rwa [joinSegments_eq_nil_iff hPlain])]
    cases hasTrailingSeparator ('/' :: rest) <;> simp [hEmpty]

theorem location_normalize {p : Text} (h : isAbsolute p = true) : location (normalize p) = location p := by
  rw [normalize_of_absolute h, location_render (location_plain p)]

theorem pushSegment_all_no_separator {allow : Bool} (hStack : ∀ n ∈ stack, n ≠ [] ∧ '/' ∉ n) (hSegment : '/' ∉ segment) :
    ∀ n ∈ pushSegment allow stack segment, n ≠ [] ∧ '/' ∉ n := by
  have hKeep : ∀ s : Text, s ≠ [] → '/' ∉ s → ∀ n ∈ s :: stack, n ≠ [] ∧ '/' ∉ n := by
    intro s hNonempty hNoSeparator n hn
    rcases List.mem_cons.mp hn with rfl | hn
    · exact ⟨hNonempty, hNoSeparator⟩
    · exact hStack n hn
  rw [pushSegment]
  split
  · exact hStack
  · rename_i hSkip
    split
    · cases stack with
      | nil => cases allow <;> simp [ascend]
      | cons top rest =>
        rw [ascend]
        split
        · cases allow
          · exact hStack
          · exact hKeep "..".toList (by decide) (by decide)
        · exact fun n hn => hStack n (List.mem_cons_of_mem _ hn)
    · exact hKeep segment (fun h => hSkip (.inl h)) hSegment

theorem resolveSegments_all_no_separator (p : Text) : ∀ n ∈ resolveSegments allow (p.splitOn '/'), n ≠ [] ∧ '/' ∉ n := by
  have hFold : ∀ (segments stack : List Text), (∀ n ∈ stack, n ≠ [] ∧ '/' ∉ n) →
      (∀ s ∈ segments, '/' ∉ s) →
      ∀ n ∈ segments.foldl (pushSegment allow) stack, n ≠ [] ∧ '/' ∉ n := by
    intro segments
    induction segments with
    | nil => exact fun _ hStack _ => hStack
    | cons segment segments ih =>
      intro stack hStack hSegments
      exact ih _ (pushSegment_all_no_separator hStack (hSegments segment List.mem_cons_self))
        (fun s hs => hSegments s (List.mem_cons_of_mem _ hs))
  intro n hn
  exact hFold _ [] (by simp) (fun s hs => not_mem_of_mem_splitOn hs) n (List.mem_reverse.mp hn)

theorem isAbsolute_joinSegments (h : ∀ n ∈ names, n ≠ [] ∧ '/' ∉ n) (rest : Text) :
    isAbsolute (joinSegments names ++ rest) = true → joinSegments names = [] := by
  cases names with
  | nil => exact fun _ => rfl
  | cons name names =>
    obtain ⟨hNonempty, hNoSeparator⟩ := h name List.mem_cons_self
    obtain ⟨c, tail, rfl⟩ := List.exists_cons_of_ne_nil hNonempty
    intro hAbsolute
    cases names <;>
      simp [isAbsolute, joinSegments, List.intercalate_cons_cons] at hAbsolute hNoSeparator <;>
      exact absurd hAbsolute.symm hNoSeparator.1

theorem isAbsolute_normalize : isAbsolute (normalize p) = isAbsolute p := by
  cases hAbsolute : isAbsolute p with
  | true => rw [normalize_of_absolute hAbsolute, isAbsolute_render]
  | false =>
    rw [normalize]
    split
    · rfl
    · simp only [hAbsolute, Bool.not_false, Bool.false_eq_true, if_false]
      have hNames := resolveSegments_all_no_separator true p
      split
      · split <;> rfl
      · rename_i hBody
        rw [Bool.eq_false_iff]
        intro hRoot
        apply hBody
        split at hRoot
        · exact isAbsolute_joinSegments hNames ['/'] hRoot
        · exact isAbsolute_joinSegments hNames [] (by rwa [List.append_nil])

theorem dropWhile_separator_reverse (h : '/' ∉ name) (hNonempty : name ≠ []) (before : Text) (trailing : Bool) :
    ((before ++ name ++ if trailing then ['/'] else []).reverse.dropWhile (· = '/')) = name.reverse ++ before.reverse := by
  have hStop : (name.reverse ++ before.reverse).dropWhile (· = '/') = name.reverse ++ before.reverse := by
    obtain ⟨c, tail, hReverse⟩ := List.exists_cons_of_ne_nil (l := name.reverse) (by simpa using hNonempty)
    have hc : c ≠ '/' := by
      rintro rfl
      exact h (List.mem_reverse.mp (hReverse ▸ List.mem_cons_self))
    rw [hReverse, List.cons_append, List.dropWhile_cons_of_neg (by simpa using hc)]
  cases trailing
  · simpa using hStop
  · simpa using hStop

theorem span_separator_reverse (h : '/' ∉ name) (rest : Text) : (name.reverse ++ '/' :: rest).dropWhile (· ≠ '/') = '/' :: rest ∧
      (name.reverse ++ '/' :: rest).takeWhile (· ≠ '/') = name.reverse := by
  have hAll : ∀ c ∈ name.reverse, decide (c ≠ '/') = true := by
    intro c hc
    simpa using fun hEq : c = '/' => h (hEq ▸ List.mem_reverse.mp hc)
  constructor
  · rw [List.dropWhile_append_of_pos hAll, List.dropWhile_cons_of_neg (by simp)]
  · rw [List.takeWhile_append_of_pos hAll, List.takeWhile_cons_of_neg (by simp), List.append_nil]

theorem render_concat (name : Text) (trailing : Bool) : render (names ++ [name]) trailing =
      (if names = [] then [] else render names false) ++ '/' :: name ++ if trailing then ['/'] else [] := by
  rw [render]
  by_cases hEmpty : names = []
  · subst hEmpty
    cases trailing <;> simp [joinSegments]
  · rw [if_neg hEmpty, joinSegments_append hEmpty (List.cons_ne_nil name []), render]
    cases trailing <;> simp

theorem render_not_trailing (h : ∀ n ∈ names, Plain n) (hNonempty : names ≠ []) (trailing : Bool) :
    (render names trailing).rdropWhile (· = '/') = render names false := by
  obtain ⟨before, name, rfl⟩ := (List.eq_nil_or_concat names).resolve_left hNonempty
  have hPlain := h name (by simp)
  obtain ⟨start, last, hName⟩ := (List.eq_nil_or_concat name).resolve_left hPlain.nonempty
  have hLast : last ≠ '/' := by
    rintro rfl
    exact hPlain.no_separator (by simp [hName])
  rw [List.concat_eq_append] at hName ⊢
  rw [render_concat, render_concat, hName]
  generalize (if before = [] then ([] : Text) else render before false) = front
  have hStop : (front ++ '/' :: (start ++ [last])).rdropWhile (· = '/') = front ++ '/' :: (start ++ [last]) := by
    have hSplit : front ++ '/' :: (start ++ [last]) = (front ++ '/' :: start) ++ [last] := by simp
    rw [hSplit, List.rdropWhile_concat_neg _ _ _ (by simpa using hLast)]
  cases trailing with
  | false => simpa using hStop
  | true =>
    simp only [if_true, Bool.false_eq_true, if_false, List.append_nil]
    rw [List.rdropWhile_concat_pos _ _ _ (by simp)]
    exact hStop

theorem basename_render (h : Plain name) (trailing : Bool) : basename (render (names ++ [name]) trailing) = name := by
  rw [render_concat, basename]
  generalize (if names = [] then ([] : Text) else render names false) = before
  have hSplit : before ++ '/' :: name ++ (if trailing then ['/'] else []) =
      (before ++ ['/']) ++ name ++ if trailing then ['/'] else [] := by simp
  rw [hSplit, dropWhile_separator_reverse h.no_separator h.nonempty, List.reverse_append]
  have hTake := (span_separator_reverse h.no_separator before.reverse).2
  simp only [List.reverse_cons, List.reverse_nil, List.nil_append, List.singleton_append]
  rw [hTake, List.reverse_reverse]

theorem dirname_render (hNames : ∀ n ∈ names, Plain n) (h : Plain name) (trailing : Bool) :
    dirname (render (names ++ [name]) trailing) = render names false := by
  rw [render_concat]
  by_cases hEmpty : names = []
  · subst hEmpty
    have hDrop := dropWhile_separator_reverse h.no_separator h.nonempty [] trailing
    have hNone : name.reverse.dropWhile (· ≠ '/') = [] := by
      rw [List.dropWhile_eq_nil_iff]
      intro c hc
      simpa using fun hEq : c = '/' => h.no_separator (hEq ▸ List.mem_reverse.mp hc)
    simp only [if_true, List.nil_append, List.cons_append, dirname]
    rw [List.nil_append] at hDrop
    rw [hDrop, List.reverse_nil, List.append_nil, hNone]
    rfl
  · obtain ⟨c, tail, hJoin⟩ := List.exists_cons_of_ne_nil
      (mt (joinSegments_eq_nil_iff hNames).mp hEmpty)
    have hRender : render names false = '/' :: c :: tail := by
      rw [render, hJoin]
      simp
    have hSplit : (c :: tail) ++ '/' :: name ++ (if trailing then ['/'] else []) =
        ((c :: tail) ++ ['/']) ++ name ++ if trailing then ['/'] else [] := by simp
    rw [if_neg hEmpty, hRender]
    simp only [List.cons_append] at hSplit ⊢
    rw [dirname, hSplit]
    have hDrop := dropWhile_separator_reverse h.no_separator h.nonempty ((c :: tail) ++ ['/']) trailing
    simp only [List.cons_append] at hDrop
    rw [hDrop]
    have hSpan := (span_separator_reverse h.no_separator (c :: tail).reverse).1
    have hReverse : (c :: (tail ++ ['/'])).reverse = '/' :: (c :: tail).reverse := by simp
    rw [hReverse, hSpan]
    simp

end Library.PosixPath
