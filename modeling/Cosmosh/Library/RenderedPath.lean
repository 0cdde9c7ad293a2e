import Cosmosh.Library.WorkingDirectory

/-! # Rendered, resolved and relative paths -/

variable {name : Text} {directory : List Text}

namespace Library.PosixPath

variable {c : Char}

theorem mem_render_iff (h : c ≠ '/') (names : List Text) : c ∈ render names false ↔ ∃ n ∈ names, c ∈ n := by
  have hJoin : c ∈ joinSegments names ↔ ∃ n ∈ names, c ∈ n := by
    induction names with
    | nil => simp [joinSegments]
    | cons first names ih =>
      cases names with
      | nil => simp
      | cons second names =>
        rw [joinSegments, List.intercalate_cons_cons, List.mem_append, List.mem_append]
        rw [joinSegments] at ih
        rw [ih]
        simp [h]
  rw [render_untrailed, List.mem_cons, hJoin]
  simp [h]

variable {p : Text}

theorem mem_of_mem_splitOn {segment : Text} (hSegment : segment ∈ p.splitOn '/') (hc : c ∈ segment) : c ∈ p := by
  have hJoin : joinSegments (p.splitOn '/') = p := List.intercalate_splitOn '/'
  have hSeparator : c ≠ '/' := by
    rintro rfl
    exact not_mem_of_mem_splitOn hSegment hc
  have hRender := (mem_render_iff hSeparator (p.splitOn '/')).mpr ⟨segment, hSegment, hc⟩
  rw [render_untrailed, hJoin, List.mem_cons] at hRender
  exact hRender.resolve_left hSeparator

theorem mem_foldl_pushSegment {segments stack : List Text} (h : name ∈ segments.foldl (pushSegment false) stack) :
    name ∈ segments ∨ name ∈ stack := by
  induction segments generalizing stack with
  | nil => exact .inr h
  | cons segment segments ih =>
    obtain hMem | hMem := ih h
    · exact .inl (List.mem_cons_of_mem segment hMem)
    · rw [pushSegment] at hMem
      split at hMem
      · exact .inr hMem
      · split at hMem
        · cases stack with
          | nil => cases hMem
          | cons top rest =>
            rw [ascend] at hMem
            split at hMem
            · exact .inr hMem
            · exact .inr (List.mem_cons_of_mem top hMem)
        · obtain rfl | hMem := List.mem_cons.mp hMem
          · exact .inl List.mem_cons_self
          · exact .inr hMem

theorem mem_of_mem_normalize (h : isAbsolute p = true) (hc : c ≠ '/') (hMem : c ∈ normalize p) : c ∈ p := by
  rw [normalize_of_absolute h, render] at hMem
  have hMem : c ∈ render (location p) false := by
    rw [render_untrailed]
    split at hMem
    · simpa [hc] using hMem
    · simpa [hc] using hMem
  obtain ⟨name, hName, hIn⟩ := (mem_render_iff hc _).mp hMem
  rw [location, resolveSegments, List.mem_reverse] at hName
  obtain hSegment | hEmpty := mem_foldl_pushSegment hName
  · exact mem_of_mem_splitOn hSegment hIn
  · cases hEmpty

theorem hasTrailingSeparator_plain (front : Text) (h : Plain name) : hasTrailingSeparator (front ++ '/' :: name) = false := by
  obtain ⟨start, last, hName⟩ := (List.eq_nil_or_concat name).resolve_left h.nonempty
  have hLast : last ≠ '/' := by
    rintro rfl
    exact h.no_separator (by simp [hName])
  rw [hName, List.concat_eq_append, ← List.cons_append, ← List.append_assoc, hasTrailingSeparator,
    List.getLast?_concat]
  simpa using hLast

theorem normalize_append_plain {front : Text} (hFront : isAbsolute (front ++ ['/']) = true) (h : Plain name) :
    normalize (front ++ '/' :: name) = render (location front ++ [name]) false := by
  have hAbsolute : isAbsolute (front ++ '/' :: name) = true := by
    cases front with
    | nil => rfl
    | cons c rest => exact hFront
  rw [normalize_of_absolute hAbsolute, location_append_plain front h, hasTrailingSeparator_plain front h]

theorem all_plain_concat (hDirectory : ∀ n ∈ directory, Plain n) (h : Plain name) : ∀ n ∈ directory ++ [name], Plain n := by
  intro n hn
  obtain hn | hn := List.mem_append.mp hn
  · exact hDirectory n hn
  · exact List.mem_singleton.mp hn ▸ h

def parentPrefix (directory : List Text) : Text := if directory = [] then [] else render directory false

theorem render_concat_eq (directory : List Text) (name : Text) :
    render (directory ++ [name]) false = parentPrefix directory ++ '/' :: name := by
  rw [render_concat, parentPrefix]
  simp

theorem location_parentPrefix (h : ∀ n ∈ directory, Plain n) : location (parentPrefix directory) = directory := by
  rw [parentPrefix]
  split
  · rename_i hEmpty
    rw [hEmpty]
    rfl
  · exact location_render h false

theorem isAbsolute_parentPrefix (directory : List Text) (rest : Text) : isAbsolute (parentPrefix directory ++ '/' :: rest) = true := by
  rw [parentPrefix]
  split
  · rfl
  · rfl

theorem mem_foldl_resolve {allow : Bool} {segments stack : List Text} (h : name ∈ segments.foldl (pushSegment allow) stack) :
    name ∈ segments ∨ name ∈ stack ∨ name = "..".toList := by
  induction segments generalizing stack with
  | nil => exact .inr (.inl h)
  | cons segment segments ih =>
    obtain hMem | hMem | hUp := ih h
    · exact .inl (List.mem_cons_of_mem segment hMem)
    · have hStep : name = segment ∨ name ∈ stack ∨ name = "..".toList := by
        rw [pushSegment] at hMem
        split at hMem
        · exact .inr (.inl hMem)
        · split at hMem
          · cases stack with
            | nil => cases allow <;> simp_all [ascend]
            | cons top rest =>
              rw [ascend] at hMem
              split at hMem
              · split at hMem <;> simp_all
              · exact .inr (.inl (List.mem_cons_of_mem top hMem))
          · obtain rfl | hMem := List.mem_cons.mp hMem
            · exact .inl rfl
            · exact .inr (.inl hMem)
      obtain rfl | hRest := hStep
      · exact .inl List.mem_cons_self
      · exact .inr hRest
    · exact .inr (.inr hUp)

theorem mem_normalize (hSeparator : c ≠ '/') (hDot : c ≠ '.') (h : c ∈ normalize p) : c ∈ p := by
  have hBody : c ∈ joinSegments (resolveSegments (!isAbsolute p) (p.splitOn '/')) → c ∈ p := by
    intro hMem
    obtain ⟨name, hName, hIn⟩ := (mem_render_iff hSeparator _).mp
      (show c ∈ render _ false by rw [render_untrailed]; exact List.mem_cons_of_mem '/' hMem)
    rw [resolveSegments, List.mem_reverse] at hName
    obtain hSegment | hNil | rfl := mem_foldl_resolve hName
    · exact mem_of_mem_splitOn hSegment hIn
    · cases hNil
    · simp [hDot] at hIn
  simp only [normalize] at h
  split at h
  · simp [hDot] at h
  · split at h
    · split at h
      · simp [hSeparator] at h
      · split at h
        · simp [hSeparator, hDot] at h
        · simp [hDot] at h
    · apply hBody
      split at h <;> split at h <;> simpa [hSeparator] using h

theorem normalize_ne_nil (p : Text) : normalize p ≠ [] := by
  simp only [normalize]
  split
  · decide
  · split
    · split
      · decide
      · split <;> decide
    · rename_i hBody
      split <;> split <;> simp [hBody]

theorem mem_dirname (hSeparator : c ≠ '/') (hDot : c ≠ '.') (h : c ∈ dirname p) : c ∈ p := by
  cases p with
  | nil => simp [dirname, hDot] at h
  | cons first body =>
    rw [dirname] at h
    split at h
    · split at h
      · simp [hSeparator] at h
      · simp [hDot] at h
    · rename_i top before hSplit
      split at h
      · simp [hSeparator] at h
      · obtain rfl | hMem := List.mem_cons.mp h
        · exact List.mem_cons_self
        · refine List.mem_cons_of_mem first (List.mem_reverse.mp ?_)
          have hSuffix : (top :: before) <:+ body.reverse := by
            rw [← hSplit]
            exact (List.dropWhile_suffix _).trans (List.dropWhile_suffix _)
          exact hSuffix.subset (List.mem_cons_of_mem top (List.mem_reverse.mp hMem))

theorem mem_basename (h : c ∈ basename p) : c ∈ p := by
  rw [basename, List.mem_reverse] at h
  exact List.mem_reverse.mp ((List.dropWhile_suffix _).subset ((List.takeWhile_prefix _).subset h))

/-- Wherever the working directory is, `path` leads to where `front` leads or below. -/
def Below (front path : Text) : Prop := ∀ home, resolveFrom home front <+: resolveFrom home path

theorem Below.refl (p : Text) : Below p p := fun _ => List.prefix_rfl

theorem Below.trans {a b c : Text} (hab : Below a b) (hbc : Below b c) : Below a c :=
  fun home => (hab home).trans (hbc home)

end Library.PosixPath

namespace Library.PosixPath

/-- `path.resolve` of one argument; `directory` is the working directory. -/
def resolve (directory : List Text) (p : Text) : Text := render (resolveFrom directory p) false

/-- `path.join` of two arguments -/
def joinPath (directory name : Text) : Text :=
  match [directory, name].filter (· ≠ []) with
  | [] => ".".toList
  | parts => normalize (['/'].intercalate parts)

def commonLength : List Text → List Text → Nat
  | a :: as, b :: bs => if a = b then commonLength as bs + 1 else 0
  | _, _ => 0

def wayBetween (origin target : List Text) : List Text :=
  List.replicate (origin.length - commonLength origin target) "..".toList ++ target.drop (commonLength origin target)

/-- `path.relative` -/
def relative (directory : List Text) (origin target : Text) : Text :=
  joinSegments (wayBetween (resolveFrom directory origin) (resolveFrom directory target))

variable {names : List Text}

theorem resolveFrom_render (h : ∀ n ∈ names, Plain n) (directory : List Text) : resolveFrom directory (render names false) = names := by
  rw [resolveFrom_of_absolute (isAbsolute_render names false), location_render h]

theorem resolve_render (h : ∀ n ∈ names, Plain n) (directory : List Text) : resolve directory (render names false) = render names false := by
  rw [resolve, resolveFrom_render h]

theorem commonLength_le (origin target : List Text) : commonLength origin target ≤ origin.length := by
  induction origin generalizing target with
  | nil => exact Nat.zero_le _
  | cons a origin ih =>
    cases target with
    | nil => exact Nat.zero_le _
    | cons b target =>
      rw [commonLength]
      split
      · exact Nat.succ_le_succ (ih target)
      · exact Nat.zero_le _

theorem commonLength_eq_iff {origin target : List Text} : commonLength origin target = origin.length ↔ origin <+: target := by
  induction origin generalizing target with
  | nil => exact iff_of_true rfl (List.nil_prefix)
  | cons a origin ih =>
    cases target with
    | nil => simp [commonLength]
    | cons b target =>
      rw [commonLength, List.cons_prefix_cons, ← ih, List.length_cons]
      split
      · rename_i hSame
        simp [hSame]
      · rename_i hOther
        simp [hOther]

theorem wayBetween_below (origin rest : List Text) : wayBetween origin (origin ++ rest) = rest := by
  rw [wayBetween, commonLength_eq_iff.mpr (List.prefix_append origin rest), Nat.sub_self, List.drop_left]
  rfl

theorem wayBetween_elsewhere {origin target : List Text} (h : ¬ origin <+: target) : ∃ rest, wayBetween origin target = "..".toList :: rest := by
  have hLess : commonLength origin target < origin.length :=
    Nat.lt_of_le_of_ne (commonLength_le origin target) fun hSame => h (commonLength_eq_iff.mp hSame)
  obtain ⟨climbs, hClimbs⟩ : ∃ climbs, origin.length - commonLength origin target = climbs + 1 := ⟨_, (Nat.sub_add_cancel (by omega)).symm⟩
  exact ⟨_, by rw [wayBetween, hClimbs, List.replicate_succ, List.cons_append]⟩

theorem joinSegments_starts_with (name : Text) (rest : List Text) : name <+: joinSegments (name :: rest) := by
  cases rest with
  | nil => rw [joinSegments_singleton]
  | cons next rest =>
    rw [joinSegments, List.intercalate_cons_cons, List.append_assoc]
    exact List.prefix_append name _

theorem relative_elsewhere {origin target : Text} (h : ¬ resolveFrom directory origin <+: resolveFrom directory target) :
    "..".toList <+: relative directory origin target := by
  obtain ⟨rest, hWay⟩ := wayBetween_elsewhere h
  rw [relative, hWay]
  exact joinSegments_starts_with _ rest

theorem prefix_of_joinSegments (hName : Plain name) {rest : List Text} (h : "..".toList <+: joinSegments (name :: rest)) :
    "..".toList <+: name := by
  obtain hShort | hLong := List.prefix_or_prefix_of_prefix (joinSegments_starts_with name rest) h
  · match name, hName, hShort with
    | [], hName, _ => exact absurd rfl hName.nonempty
    | [c], hName, hShort =>
      obtain rfl : c = '.' := (List.cons_prefix_cons.mp hShort).1
      exact absurd rfl hName.not_dot
    | c :: d :: name, _, hShort => exact (hShort.eq_of_length_le (by simp)) ▸ List.prefix_rfl
  · exact hLong

theorem eq_of_relative_eq_nil {origin target : Text} (hTarget : ∀ n ∈ resolveFrom directory target, Plain n)
    (h : relative directory origin target = []) : resolveFrom directory target = resolveFrom directory origin := by
  have hBelow : resolveFrom directory origin <+: resolveFrom directory target := by
    by_contra hElsewhere
    have hClimbs := relative_elsewhere hElsewhere
    rw [h] at hClimbs
    exact absurd (List.prefix_nil.mp hClimbs) (by decide)
  obtain ⟨rest, hRest⟩ := hBelow
  rw [relative, ← hRest, wayBetween_below, joinSegments_eq_nil_iff fun n hn => hTarget n (hRest ▸ List.mem_append_right _ hn)] at h
  rw [← hRest, h, List.append_nil]

theorem joinPath_render (names : List Text) (h : name ≠ []) :
    joinPath (render names false) name = normalize (render names false ++ '/' :: name) := by
  have hParts : [render names false, name].filter (· ≠ []) = [render names false, name] := by
    simp [render, h]
  rw [joinPath, hParts]
  simp

theorem joinPath_plain (hNames : ∀ n ∈ names, Plain n) (h : Plain name) :
    joinPath (render names false) name = render (names ++ [name]) false := by
  rw [joinPath_render names h.nonempty, normalize_append_plain rfl h, location_render hNames]

theorem location_append_special (p : Text) (h : '/' ∉ name) :
    location (p ++ '/' :: name) = (pushSegment false (location p).reverse name).reverse := by
  rw [location, resolveSegments, foldl_pushSegment_append, List.splitOn_eq_singleton h, location, resolveSegments, List.reverse_reverse]
  rfl

theorem joinPath_dot (hNames : ∀ n ∈ names, Plain n) : joinPath (render names false) ".".toList = render names false := by
  have hTrailing : hasTrailingSeparator (render names false ++ "/.".toList) = false := by simp [hasTrailingSeparator]
  rw [joinPath_render names (by decide), normalize_of_absolute rfl, location_append_special _ (by decide), location_render hNames]
  exact (congrArg₂ render (List.reverse_reverse names) hTrailing)

theorem joinPath_dotdot (hNames : ∀ n ∈ names, Plain n) (hName : Plain name) :
    joinPath (render (names ++ [name]) false) "..".toList = render names false := by
  have hTrailing : hasTrailingSeparator (render (names ++ [name]) false ++ "/..".toList) = false := by simp [hasTrailingSeparator]
  have hUp : pushSegment false (names ++ [name]).reverse "..".toList = names.reverse := by
    rw [List.reverse_concat]
    exact if_neg hName.not_dotdot
  rw [joinPath_render _ (by decide), normalize_of_absolute rfl, location_append_special _ (by decide), location_render (all_plain_concat hNames hName), hUp]
  exact (congrArg₂ render (List.reverse_reverse names) hTrailing)

theorem render_append (names : List Text) (name rest : Text) : render (names ++ [name]) false ++ rest = render (names ++ [name ++ rest]) false := by
  rw [render_concat_eq, render_concat_eq, List.append_assoc, List.cons_append]

end Library.PosixPath
