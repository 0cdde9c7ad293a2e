import Cosmosh.MainProcess.TemporaryRoot

/-! # The local name of a temporary file

Dots and spaces at the end of the name go first, white space around it goes after that.
-/

namespace TemporaryFiles

open Library Library.PosixPath

def IsKeptBlank (c : Char) : Prop := JsText.isWhitespace c = true ∧ 32 ≤ c.toNat

def ComesDownToDots (name : Text) : Prop :=
  ∃ front dots middle blank rest, name = front ++ dots ++ middle ++ blank :: rest ∧ (dots = ".".toList ∨ dots = "..".toList) ∧
    (∀ c ∈ front ++ middle, IsKeptBlank c) ∧ IsKeptBlank blank ∧ blank ≠ ' ' ∧ ∀ c ∈ rest, c = '.' ∨ c = ' '

def replaceUnsafe (name : Text) : Text := name.map fun c => if isUnsafeCharacter c then '_' else c

def isDotOrSpace (c : Char) : Bool := c = '.' || c = ' '

theorem sanitizeSftpTemporaryFileName_eq (name : Text) :
    sanitizeSftpTemporaryFileName (some name) = if JsText.trim ((replaceUnsafe name).rdropWhile isDotOrSpace) = [] then "download".toList
      else JsText.trim ((replaceUnsafe name).rdropWhile isDotOrSpace) := rfl

theorem isUnsafeCharacter_of_keptBlank {c : Char} (h : IsKeptBlank c) : isUnsafeCharacter c = false := by
  obtain ⟨hBlank, hHigh⟩ := h
  have hLow : ¬ c.toNat < 32 := Nat.not_lt.mpr hHigh
  have hListed : c ∉ ['<', '>', ':', '"', '/', '\\', '|', '?', '*'] := by
    intro hMem
    simp only [List.mem_cons, List.not_mem_nil, or_false] at hMem
    obtain rfl | rfl | rfl | rfl | rfl | rfl | rfl | rfl | rfl := hMem <;> exact absurd hBlank (by decide)
  simp [isUnsafeCharacter, hLow, hListed]

variable {name : Text}

theorem replaceUnsafe_eq_self (h : ∀ c ∈ name, isUnsafeCharacter c = false) : replaceUnsafe name = name := by
  have hSame : ∀ c ∈ name, (if isUnsafeCharacter c then '_' else c) = id c := by
    intro c hc
    rw [h c hc]
    rfl
  rw [replaceUnsafe, List.map_congr_left hSame, List.map_id]

theorem not_unsafe_of_not_mem (h : '_' ∉ replaceUnsafe name) : ∀ c ∈ name, isUnsafeCharacter c = false := by
  intro c hc
  rw [Bool.eq_false_iff]
  intro hUnsafe
  refine h (List.mem_map.mpr ⟨c, hc, ?_⟩)
  rw [if_pos hUnsafe]

theorem not_mem_replaceUnsafe {c : Char} (hUnsafe : isUnsafeCharacter c = true) (hOther : c ≠ '_') (name : Text) : c ∉ replaceUnsafe name := by
  rw [replaceUnsafe, List.mem_map]
  rintro ⟨d, -, hd⟩
  split at hd
  · exact hOther hd.symm
  · rename_i hSafe
    exact hSafe (hd ▸ hUnsafe)

theorem exists_trim (t : Text) : ∃ front back, t = front ++ JsText.trim t ++ back ∧ ∀ c ∈ front ++ back, JsText.isWhitespace c = true := by
  refine ⟨t.takeWhile JsText.isWhitespace, (JsText.trimStart t).rtakeWhile JsText.isWhitespace, ?_, ?_⟩
  · rw [List.append_assoc, JsText.trim, JsText.trimEnd, List.rdropWhile_append_rtakeWhile, JsText.trimStart, List.takeWhile_append_dropWhile]
  · intro c hc
    obtain hFront | hBack := List.mem_append.mp hc
    · exact List.mem_takeWhile_imp hFront
    · exact List.mem_rtakeWhile_imp hBack

theorem trim_of_dots {front dots back : Text} (hDots : dots = ".".toList ∨ dots = "..".toList)
    (hBlank : ∀ c ∈ front ++ back, JsText.isWhitespace c = true) : JsText.trim (front ++ dots ++ back) = dots := by
  have hFront : ∀ c ∈ front, JsText.isWhitespace c = true := fun c hc => hBlank c (List.mem_append_left _ hc)
  have hBack : JsText.trimEnd back = [] := List.rdropWhile_eq_nil_iff.mpr fun c hc => hBlank c (List.mem_append_right _ hc)
  obtain rfl | rfl := hDots
  · have hStart : JsText.trimStart (front ++ ".".toList ++ back) = '.' :: back := by
      rw [JsText.trimStart, List.append_assoc, List.dropWhile_append_of_pos hFront]
      rfl
    rw [JsText.trim, hStart, ← List.nil_append ('.' :: back), JsText.trimEnd_append_cons [] (by decide), hBack]
    rfl
  · have hStart : JsText.trimStart (front ++ "..".toList ++ back) = ['.'] ++ '.' :: back := by
      rw [JsText.trimStart, List.append_assoc, List.dropWhile_append_of_pos hFront]
      rfl
    rw [JsText.trim, hStart, JsText.trimEnd_append_cons ['.'] (by decide), hBack]
    rfl

theorem sanitize_of_comesDownToDots (h : ComesDownToDots name) :
    sanitizeSftpTemporaryFileName (some name) = ".".toList ∨ sanitizeSftpTemporaryFileName (some name) = "..".toList := by
  obtain ⟨front, dots, middle, blank, rest, rfl, hDots, hKept, hBlank, hSpace, hRest⟩ := h
  have hSafe : ∀ c ∈ front ++ dots ++ middle ++ blank :: rest, isUnsafeCharacter c = false := by
    have hDot : ∀ c ∈ dots, c = '.' := by
      obtain rfl | rfl := hDots <;> simp
    intro c hc
    simp only [List.mem_append, List.mem_cons] at hc
    obtain ((hc | hc) | hc) | rfl | hc := hc
    · exact isUnsafeCharacter_of_keptBlank (hKept c (List.mem_append_left _ hc))
    · exact hDot c hc ▸ by decide
    · exact isUnsafeCharacter_of_keptBlank (hKept c (List.mem_append_right _ hc))
    · exact isUnsafeCharacter_of_keptBlank hBlank
    · obtain rfl | rfl := hRest c hc <;> decide
  have hEnd : isDotOrSpace blank = false := by
    have hDot : blank ≠ '.' := by
      rintro rfl
      exact absurd hBlank.1 (by decide)
    simp [isDotOrSpace, hDot, hSpace]
  have hDropped : (front ++ dots ++ middle ++ blank :: rest).rdropWhile isDotOrSpace = front ++ dots ++ (middle ++ [blank]) := by
    have hNone : rest.reverse.dropWhile isDotOrSpace = [] := by
      rw [List.dropWhile_eq_nil_iff]
      intro c hc
      obtain rfl | rfl := hRest c (List.mem_reverse.mp hc) <;> rfl
    rw [List.rdropWhile, List.reverse_append, List.reverse_cons, List.append_assoc, List.dropWhile_append, hNone]
    simp [hEnd]
  have hTrim : JsText.trim (front ++ dots ++ (middle ++ [blank])) = dots := by
    refine trim_of_dots hDots fun c hc => ?_
    simp only [List.mem_append, List.mem_singleton] at hc
    obtain hc | hc | rfl := hc
    · exact (hKept c (List.mem_append_left _ hc)).1
    · exact (hKept c (List.mem_append_right _ hc)).1
    · exact hBlank.1
  rw [sanitizeSftpTemporaryFileName_eq, replaceUnsafe_eq_self hSafe, hDropped, hTrim]
  obtain rfl | rfl := hDots
  · exact .inl rfl
  · exact .inr rfl

theorem comesDownToDots_of_sanitize
    (h : sanitizeSftpTemporaryFileName (some name) = ".".toList ∨ sanitizeSftpTemporaryFileName (some name) = "..".toList) :
    ComesDownToDots name := by
  have hDots : JsText.trim ((replaceUnsafe name).rdropWhile isDotOrSpace) = ".".toList ∨
      JsText.trim ((replaceUnsafe name).rdropWhile isDotOrSpace) = "..".toList := by
    rw [sanitizeSftpTemporaryFileName_eq] at h
    split at h
    · exact absurd h (by decide)
    · exact h
  generalize hDotsName : JsText.trim ((replaceUnsafe name).rdropWhile isDotOrSpace) = dots at hDots
  obtain ⟨front, back, hParts, hBlank⟩ := exists_trim ((replaceUnsafe name).rdropWhile isDotOrSpace)
  have hWhole := List.rdropWhile_append_rtakeWhile (l := replaceUnsafe name) (p := isDotOrSpace)
  have hRest : ∀ c ∈ (replaceUnsafe name).rtakeWhile isDotOrSpace, c = '.' ∨ c = ' ' := by
    intro c hc
    simpa [isDotOrSpace] using List.mem_rtakeWhile_imp hc
  generalize (replaceUnsafe name).rtakeWhile isDotOrSpace = rest at hWhole hRest
  rw [hDotsName] at hParts
  have hDotChars : ∀ c ∈ dots, c = '.' := by
    obtain rfl | rfl := hDots <;> simp
  -- What is left before the white space is cut ends in white space itself.
  obtain ⟨middle, blank, rfl⟩ : ∃ middle blank, back = middle ++ [blank] := by
    obtain rfl | ⟨middle, blank, rfl⟩ := List.eq_nil_or_concat' back
    · rw [List.append_nil] at hParts
      have hNonempty : (replaceUnsafe name).rdropWhile isDotOrSpace ≠ [] := by
        rw [hParts]
        obtain rfl | rfl := hDots <;> simp
      refine absurd ?_ (List.rdropWhile_last_not isDotOrSpace _ hNonempty)
      have hLast : ((replaceUnsafe name).rdropWhile isDotOrSpace).getLast hNonempty = '.' := by
        simp only [hParts]
        obtain rfl | rfl := hDots <;> simp
      rw [hLast]
      rfl
    · exact ⟨middle, blank, rfl⟩
  have hLastBlank : isDotOrSpace blank = false := by
    have hNonempty : (replaceUnsafe name).rdropWhile isDotOrSpace ≠ [] := by
      rw [hParts]
      simp
    have hLast := List.rdropWhile_last_not isDotOrSpace _ hNonempty
    simp only [hParts] at hLast
    simpa using hLast
  rw [hParts] at hWhole
  have hSafe : ∀ c ∈ name, isUnsafeCharacter c = false := by
    refine not_unsafe_of_not_mem fun hMem => ?_
    rw [← hWhole] at hMem
    simp only [List.mem_append, List.mem_singleton] at hMem
    obtain ((hMem | hMem) | hMem | hMem) | hMem := hMem
    · exact absurd (hBlank _ (List.mem_append_left _ hMem)) (by decide)
    · exact absurd (hDotChars _ hMem) (by decide)
    · exact absurd (hBlank _ (List.mem_append_right _ (List.mem_append_left _ hMem))) (by decide)
    · exact absurd (hBlank _ (List.mem_append_right _ (List.mem_append_right _ (List.mem_singleton.mpr hMem)))) (by decide)
    · exact absurd (hRest _ hMem) (by decide)
  rw [replaceUnsafe_eq_self hSafe] at hWhole
  have hKept : ∀ c ∈ name, JsText.isWhitespace c = true → IsKeptBlank c := by
    intro c hc hWhite
    refine ⟨hWhite, ?_⟩
    have hHigh := hSafe c hc
    simp only [isUnsafeCharacter, Bool.or_eq_false_iff, decide_eq_false_iff_not, Nat.not_lt] at hHigh
    exact hHigh.1
  refine ⟨front, dots, middle, blank, rest, by rw [← hWhole]; simp, hDots, ?_, ?_, ?_, hRest⟩
  · intro c hc
    refine hKept c ?_ (hBlank c ?_)
    · rw [← hWhole]
      obtain hc | hc := List.mem_append.mp hc <;> simp [hc]
    · obtain hc | hc := List.mem_append.mp hc <;> simp [hc]
  · refine hKept blank ?_ (hBlank blank (by simp))
    rw [← hWhole]
    simp
  · rintro rfl
    cases hLastBlank

theorem sanitize_no_separator (name : Text) : '/' ∉ sanitizeSftpTemporaryFileName (some name) := by
  rw [sanitizeSftpTemporaryFileName_eq]
  split
  · decide
  · intro hMem
    have hDropped := (JsText.trim_sublist _).mem hMem
    have hReplaced : '/' ∈ replaceUnsafe name := (List.rdropWhile_prefix isDotOrSpace _).mem hDropped
    exact not_mem_replaceUnsafe (by decide) (by decide) name hReplaced

theorem sanitize_nonempty (name : Text) : sanitizeSftpTemporaryFileName (some name) ≠ [] := by
  rw [sanitizeSftpTemporaryFileName_eq]
  split
  · decide
  · assumption

theorem plain_sanitize (h : ¬ ComesDownToDots name) : Plain (sanitizeSftpTemporaryFileName (some name)) :=
  ⟨sanitize_nonempty name, fun hDot => h (comesDownToDots_of_sanitize (.inl hDot)), fun hDots => h (comesDownToDots_of_sanitize (.inr hDots)),
    sanitize_no_separator name⟩

theorem sanitize_untrimmed (name : Text) : ¬ JsText.EndsInWhitespace (sanitizeSftpTemporaryFileName (some name)) := by
  rw [sanitizeSftpTemporaryFileName_eq]
  split
  · decide
  · rw [← JsText.trimEnd_eq_self_iff]
    exact List.rdropWhile_idempotent _ _

theorem plain_of_comesDownToDots (h : ComesDownToDots name) : Plain name := by
  obtain ⟨front, dots, middle, blank, rest, rfl, hDots, hKept, hBlank, -, hRest⟩ := h
  have hNotDot : blank ≠ '.' := by
    rintro rfl
    exact absurd hBlank.1 (by decide)
  have hMem : blank ∈ front ++ dots ++ middle ++ blank :: rest := by simp
  refine ⟨by simp, ?_, ?_, ?_⟩
  · intro hSame
    rw [hSame] at hMem
    exact hNotDot (by simpa using hMem)
  · intro hSame
    rw [hSame] at hMem
    exact hNotDot (by simpa using hMem)
  · simp only [List.mem_append, List.mem_cons, not_or]
    refine ⟨⟨⟨?_, ?_⟩, ?_⟩, ?_, ?_⟩
    · exact fun hc => absurd (hKept _ (List.mem_append_left _ hc)).1 (by decide)
    · obtain rfl | rfl := hDots <;> decide
    · exact fun hc => absurd (hKept _ (List.mem_append_right _ hc)).1 (by decide)
    · rintro rfl
      exact absurd hBlank.1 (by decide)
    · exact fun hc => absurd (hRest _ hc) (by decide)

end TemporaryFiles
