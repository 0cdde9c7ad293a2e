import Cosmosh.Library.PosixPath

/-! # Following a path from a working directory

A relative path is resolved against the entries of the working directory.
-/

namespace Library.PosixPath

/-- The reversed entries reached from the reversed entries `stack` along `p`. -/
def walk (stack : List Text) (p : Text) : List Text := (p.splitOn '/').foldl (pushSegment false) stack

def startFor (home : List Text) (p : Text) : List Text := if isAbsolute p then [] else home.reverse

def resolveFrom (home : List Text) (p : Text) : List Text := (walk (startFor home p) p).reverse

variable (stack : List Text)

theorem walk_append (p q : Text) : walk stack (p ++ '/' :: q) = walk (walk stack p) q := by
  rw [walk, List.splitOn_append_cons_self, List.foldl_append, walk, walk]

@[simp] theorem walk_nil : walk stack [] = stack := by simp [walk]

@[simp] theorem walk_dot : walk stack ".".toList = stack := by
  have hSplit : ".".toList.splitOn '/' = [".".toList] := List.splitOn_eq_singleton (by decide)
  rw [walk, hSplit]
  simp [pushSegment]

theorem walk_separator_cons (p : Text) : walk stack ('/' :: p) = walk stack p := by
  simpa using walk_append stack [] p

theorem walk_separator_concat (p : Text) : walk stack (p ++ ['/']) = walk stack p := by
  simpa using walk_append stack p []

variable {separators : Text}

theorem walk_separators (p : Text) (h : ∀ c ∈ separators, c = '/') : walk stack (p ++ separators) = walk stack p := by
  induction separators generalizing p with
  | nil => rw [List.append_nil]
  | cons c separators ih =>
    obtain rfl : c = '/' := h c List.mem_cons_self
    have hSplit : p ++ '/' :: separators = (p ++ ['/']) ++ separators := by simp
    rw [hSplit, ih _ (fun d hd => h d (List.mem_cons_of_mem _ hd)), walk_separator_concat]

variable {name : Text}

theorem walk_name (h : '/' ∉ name) : walk stack name = pushSegment false stack name := by
  rw [walk, List.splitOn_eq_singleton h]
  rfl

theorem walk_plain (h : Plain name) : walk stack name = name :: stack := by
  rw [walk_name stack h.no_separator, pushSegment_plain false stack h]

variable {p : Text}

theorem resolveFrom_of_absolute (h : isAbsolute p = true) (home : List Text) : resolveFrom home p = location p := by
  rw [resolveFrom, startFor, if_pos h, walk, location, resolveSegments]

structure Kept (segment : Text) : Prop where
  nonempty : segment ≠ []
  not_dot : segment ≠ ".".toList
  no_separator : '/' ∉ segment

theorem pushSegment_all_kept {stack : List Text} {segment : Text} (hStack : ∀ n ∈ stack, Kept n)
    (hSegment : '/' ∉ segment) : ∀ n ∈ pushSegment true stack segment, Kept n := by
  have hUp : Kept "..".toList := ⟨by decide, by decide, by decide⟩
  rw [pushSegment]
  split
  · exact hStack
  · rename_i hSkip
    split
    · cases stack with
      | nil => simpa [ascend] using hUp
      | cons top rest =>
        rw [ascend]
        split
        · exact List.forall_mem_cons.mpr ⟨hUp, hStack⟩
        · exact fun n hn => hStack n (List.mem_cons_of_mem _ hn)
    · exact List.forall_mem_cons.mpr ⟨⟨fun h => hSkip (.inl h), fun h => hSkip (.inr h), hSegment⟩, hStack⟩

theorem foldl_pushSegment_true {climbed : List Text} (hClimbed : ∀ n ∈ climbed, Kept n) (stack : List Text) (segment : Text) :
    (pushSegment true climbed segment).reverse.foldl (pushSegment false) stack =
      pushSegment false (climbed.reverse.foldl (pushSegment false) stack) segment := by
  rw [pushSegment]
  split
  · rename_i hSkip
    rw [pushSegment, if_pos hSkip]
  · split
    · rename_i hUp
      subst hUp
      cases climbed with
      | nil => rfl
      | cons top rest =>
        rw [ascend]
        split
        · rw [if_pos rfl, List.reverse_cons, List.foldl_append]
          rfl
        · rename_i hTop
          have hKept := hClimbed top List.mem_cons_self
          have hPush := pushSegment_plain false (rest.reverse.foldl (pushSegment false) stack)
            ⟨hKept.nonempty, hKept.not_dot, hTop, hKept.no_separator⟩
          rw [List.reverse_cons, List.foldl_append, List.foldl_cons, List.foldl_nil, hPush, pushSegment,
            if_neg (by decide), if_pos rfl, ascend, if_neg hTop]
    · rw [List.reverse_cons, List.foldl_append, List.foldl_cons, List.foldl_nil]

theorem foldl_resolveSegments {segments climbed : List Text} (hClimbed : ∀ n ∈ climbed, Kept n)
    (hSegments : ∀ s ∈ segments, '/' ∉ s) (stack : List Text) :
    (segments.foldl (pushSegment true) climbed).reverse.foldl (pushSegment false) stack =
      segments.foldl (pushSegment false) (climbed.reverse.foldl (pushSegment false) stack) := by
  induction segments generalizing climbed with
  | nil => rfl
  | cons segment segments ih =>
    obtain ⟨hSegment, hRest⟩ := List.forall_mem_cons.mp hSegments
    rw [List.foldl_cons, ih (pushSegment_all_kept hClimbed hSegment) hRest,
      foldl_pushSegment_true hClimbed, List.foldl_cons]

theorem walk_joinSegments {names : List Text} (h : ∀ n ∈ names, '/' ∉ n) (stack : List Text) :
    walk stack (joinSegments names) = names.foldl (pushSegment false) stack := by
  by_cases hEmpty : names = []
  · subst hEmpty
    exact walk_nil stack
  · rw [walk, joinSegments, List.splitOn_intercalate '/' h hEmpty]

theorem walk_resolveSegments (p : Text) (stack : List Text) :
    walk stack (joinSegments (resolveSegments true (p.splitOn '/'))) = walk stack p := by
  rw [walk_joinSegments (fun n hn => (resolveSegments_all_no_separator true p n hn).2)]
  exact foldl_resolveSegments (by simp) (fun s hs => not_mem_of_mem_splitOn hs) stack

theorem walk_normalize_of_relative (h : isAbsolute p = false) (stack : List Text) : walk stack (normalize p) = walk stack p := by
  rw [normalize]
  split
  · rename_i hEmpty
    rw [hEmpty, walk_dot, walk_nil]
  · simp only [h, Bool.not_false, Bool.false_eq_true, if_false]
    have hWalk := walk_resolveSegments p stack
    split
    · rename_i hBody
      rw [hBody, walk_nil] at hWalk
      rw [← hWalk]
      split
      · exact (walk_separator_concat stack ".".toList).trans (walk_dot stack)
      · exact walk_dot stack
    · split
      · rw [walk_separator_concat, hWalk]
      · exact hWalk

theorem resolveFrom_normalize (home : List Text) (p : Text) : resolveFrom home (normalize p) = resolveFrom home p := by
  cases hAbsolute : isAbsolute p with
  | true =>
    rw [resolveFrom_of_absolute (by rw [isAbsolute_normalize, hAbsolute]), location_normalize hAbsolute,
      resolveFrom_of_absolute hAbsolute]
  | false =>
    rw [resolveFrom, startFor, isAbsolute_normalize, hAbsolute, walk_normalize_of_relative hAbsolute,
      resolveFrom, startFor, hAbsolute]

theorem dropWhile_separators (h : ∀ c ∈ separators, c = '/') (hName : '/' ∉ name) (hNonempty : name ≠ []) (before : Text) :
    (before ++ name ++ separators).reverse.dropWhile (· = '/') = name.reverse ++ before.reverse := by
  obtain ⟨c, tail, hReverse⟩ := List.exists_cons_of_ne_nil (l := name.reverse) (by simpa using hNonempty)
  have hc : c ≠ '/' := by
    rintro rfl
    exact hName (List.mem_reverse.mp (hReverse ▸ List.mem_cons_self))
  rw [List.reverse_append, List.dropWhile_append_of_pos (by simpa using h), List.reverse_append, hReverse,
    List.cons_append, List.dropWhile_cons_of_neg (by simpa using hc)]

variable {before : Text}

theorem span_name (hName : '/' ∉ name) (hBefore : before = [] ∨ ∃ front, before = front ++ ['/']) :
    (name.reverse ++ before.reverse).takeWhile (· ≠ '/') = name.reverse ∧
      (name.reverse ++ before.reverse).dropWhile (· ≠ '/') = before.reverse := by
  obtain rfl | ⟨front, rfl⟩ := hBefore
  · have hAll : ∀ c ∈ name.reverse, decide (c ≠ '/') = true := by
      intro c hc
      simpa using fun hEq : c = '/' => hName (hEq ▸ List.mem_reverse.mp hc)
    constructor
    · rw [List.reverse_nil, List.append_nil, List.takeWhile_eq_self_iff]
      exact hAll
    · rw [List.reverse_nil, List.append_nil, List.dropWhile_eq_nil_iff]
      exact hAll
  · rw [List.reverse_append, List.reverse_singleton, List.singleton_append]
    exact (span_separator_reverse hName front.reverse).symm

theorem not_mem_basename (path : Text) : '/' ∉ basename path := by
  intro hMem
  rw [basename, List.mem_reverse] at hMem
  have hStop := List.mem_takeWhile_imp hMem
  simp at hStop

theorem basename_cut (hName : '/' ∉ name) (hNonempty : name ≠ []) (hSeparators : ∀ c ∈ separators, c = '/')
    (hBefore : before = [] ∨ ∃ front, before = front ++ ['/']) : basename (before ++ name ++ separators) = name := by
  rw [basename, dropWhile_separators hSeparators hName hNonempty, (span_name hName hBefore).1,
    List.reverse_reverse]

theorem basename_separators (h : ∀ c ∈ p, c = '/') : basename p = [] := by
  have hDrop : p.reverse.dropWhile (· = '/') = [] := by
    rw [List.dropWhile_eq_nil_iff]
    simpa using h
  rw [basename, hDrop]
  rfl

theorem exists_cut (p : Text) : ∃ before name separators : Text, p = before ++ name ++ separators ∧ '/' ∉ name ∧ (∀ c ∈ separators, c = '/') ∧
      (before = [] ∨ (∃ front, before = front ++ ['/']) ∧ name ≠ []) := by
  induction p using List.reverseRecOn with
  | nil => exact ⟨[], [], [], rfl, by simp, by simp, .inl rfl⟩
  | append_singleton p c ih =>
    obtain ⟨before, name, separators, rfl, hName, hSeparators, hBefore⟩ := ih
    by_cases hc : c = '/'
    · refine ⟨before, name, separators ++ [c], by simp, hName, ?_, hBefore⟩
      simpa [or_imp, forall_and] using ⟨hSeparators, hc⟩
    · by_cases hEmpty : separators = []
      · subst hEmpty
        refine ⟨before, name ++ [c], [], by simp, ?_, by simp, hBefore.imp_right fun h => ⟨h.1, by simp⟩⟩
        simpa [hName] using fun hEq => hc hEq.symm
      · obtain ⟨front, last, rfl⟩ := (List.eq_nil_or_concat separators).resolve_left hEmpty
        obtain rfl : last = '/' := hSeparators last (by simp)
        refine ⟨before ++ name ++ front ++ ['/'], [c], [], by simp, ?_, by simp, .inr ⟨⟨_, rfl⟩, by simp⟩⟩
        simpa using fun hEq => hc hEq.symm

theorem isAbsolute_dirname (p : Text) : isAbsolute (dirname p) = isAbsolute p := by
  cases p with
  | nil => rfl
  | cons first body =>
    rw [dirname]
    split
    · split
      · rename_i hFirst
        subst hFirst
        rfl
      · rename_i hFirst
        simp [isAbsolute, hFirst]
    · split
      · rename_i hRoot
        rw [hRoot.1]
        rfl
      · simp [isAbsolute]

theorem dirname_ne_nil (p : Text) : dirname p ≠ [] := by
  intro hEmpty
  cases p with
  | nil => exact absurd hEmpty (by decide)
  | cons first body =>
    rw [dirname] at hEmpty
    split at hEmpty
    · split at hEmpty <;> cases hEmpty
    · split at hEmpty <;> cases hEmpty

theorem eq_of_dirname_eq_self (h : dirname p = p) : p = ".".toList ∨ p = "/".toList := by
  cases p with
  | nil => exact absurd h (by decide)
  | cons first body =>
    rw [dirname] at h
    split at h
    · split at h
      · exact .inr h.symm
      · exact .inl h.symm
    · rename_i c before hCut
      have hCutLength : before.length + 1 ≤ body.length := by
        have hOuter := (List.dropWhile_suffix (l := body.reverse.dropWhile (· = '/')) (· ≠ '/')).length_le
        have hInner := (List.dropWhile_suffix (l := body.reverse) (· = '/')).length_le
        rw [hCut, List.length_cons] at hOuter
        rw [List.length_reverse] at hInner
        omega
      have hLength := congrArg List.length h
      split at hLength
      · rename_i hRoot
        rw [if_pos hRoot] at h
        have hBody : ['/'] = body := (List.cons.inj (show ['/', '/'] = first :: body from h)).2
        rw [← hBody] at hCut
        exact absurd hCut (by simp)
      · simp only [List.length_cons, List.length_reverse] at hLength
        omega

theorem walk_dirname (first : Char) (hName : '/' ∉ name) (hSeparators : ∀ c ∈ separators, c = '/')
    (hBefore : before = [] ∨ (∃ front, before = front ++ ['/']) ∧ name ≠ []) : walk stack (dirname (first :: (before ++ name ++ separators))) =
      if before = [] then stack else walk stack (first :: before) := by
  have hCut : ((before ++ name ++ separators).reverse.dropWhile (· = '/')).dropWhile (· ≠ '/') =
      before.reverse := by
    by_cases hEmpty : name = []
    · obtain rfl : before = [] := hBefore.resolve_right fun h => h.2 hEmpty
      subst hEmpty
      have hDrop : separators.reverse.dropWhile (· = '/') = [] := by
        rw [List.dropWhile_eq_nil_iff]
        simpa using hSeparators
      simp only [List.nil_append, hDrop]
      rfl
    · rw [dropWhile_separators hSeparators hName hEmpty, (span_name hName (hBefore.imp_right And.left)).2]
  rw [dirname, hCut]
  obtain rfl | ⟨⟨front, rfl⟩, -⟩ := hBefore
  · rw [if_pos rfl]
    simp only [List.reverse_nil]
    split
    · exact walk_separator_cons stack []
    · exact walk_dot stack
  · have hNotEmpty : front ++ ['/'] ≠ [] := by simp
    rw [if_neg hNotEmpty, List.reverse_append, List.reverse_singleton, List.singleton_append]
    dsimp only
    rw [List.reverse_reverse, ← List.cons_append, walk_separator_concat]
    split
    · rename_i hRoot
      obtain ⟨rfl, hFront⟩ := hRoot
      rw [List.reverse_eq_nil_iff.mp hFront, walk_separator_cons, walk_nil]
      exact (walk_separator_cons stack ['/']).trans (walk_separator_cons stack [])
    · rfl

theorem pushSegment_cons_separator {stack : List Text} (hBefore : ∃ front, before = front ++ ['/']) (hName : '/' ∉ name) :
    walk stack (before ++ name) = pushSegment false (walk stack before) name := by
  obtain ⟨front, rfl⟩ := hBefore
  rw [walk_separator_concat, List.append_assoc, List.singleton_append, walk_append, walk_name _ hName]

theorem walk_eq_pushSegment (p : Text) : walk stack p = pushSegment false (walk stack (dirname p)) (basename p) := by
  cases p with
  | nil =>
    rw [walk_nil]
    exact (walk_dot stack).symm
  | cons first body =>
    obtain ⟨before, name, separators, rfl, hName, hSeparators, hBefore⟩ := exists_cut body
    rw [walk_dirname stack first hName hSeparators hBefore]
    obtain rfl | ⟨⟨front, rfl⟩, hNonempty⟩ := hBefore
    · rw [if_pos rfl, List.nil_append]
      by_cases hFirst : first = '/'
      · subst hFirst
        rw [walk_separator_cons, walk_separators stack name hSeparators, walk_name stack hName]
        by_cases hEmpty : name = []
        · subst hEmpty
          rw [List.nil_append, basename_separators (by simpa using hSeparators)]
        · have hBase : basename (['/'] ++ name ++ separators) = name := basename_cut hName hEmpty hSeparators (.inr ⟨[], rfl⟩)
          rw [List.append_assoc, List.singleton_append] at hBase
          rw [hBase]
      · have hWhole : '/' ∉ first :: name := by simpa [hName] using fun hEq => hFirst hEq.symm
        have hBase : basename ([] ++ (first :: name) ++ separators) = first :: name := basename_cut hWhole (by simp) hSeparators (.inl rfl)
        rw [List.nil_append, List.cons_append] at hBase
        rw [hBase, ← List.cons_append, walk_separators stack _ hSeparators, walk_name stack hWhole]
    · have hBase : basename (first :: (front ++ ['/']) ++ name ++ separators) = name :=
        basename_cut hName hNonempty hSeparators (.inr ⟨first :: front, rfl⟩)
      simp only [List.cons_append] at hBase ⊢
      rw [hBase, if_neg (by simp), ← List.cons_append, walk_separators stack _ hSeparators]
      exact pushSegment_cons_separator ⟨first :: front, rfl⟩ hName

theorem resolveFrom_eq_pushSegment (home : List Text) (p : Text) :
    (resolveFrom home p).reverse = pushSegment false (resolveFrom home (dirname p)).reverse (basename p) := by
  simp only [resolveFrom, startFor, isAbsolute_dirname, List.reverse_reverse]
  exact walk_eq_pushSegment _ p

theorem pushSegment_ne_cons {stack : List Text} {segment : Text} (h : segment.length < name.length) :
    name :: stack ≠ pushSegment false stack segment := by
  intro hEq
  rw [pushSegment] at hEq
  split at hEq
  · exact absurd (congrArg List.length hEq) (by simp)
  · split at hEq
    · cases stack with
      | nil => exact absurd hEq (List.cons_ne_nil name [])
      | cons top rest =>
        rw [ascend] at hEq
        have hLength := congrArg List.length hEq
        split at hLength
        · simp at hLength
        · simp only [List.length_cons] at hLength
          omega
    · rw [List.cons.injEq] at hEq
      rw [hEq.1] at h
      omega

end Library.PosixPath
