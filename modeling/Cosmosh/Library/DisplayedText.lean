import Cosmosh.Library.Utf8Segments

/-! # The bytes behind a displayed text

An editor splits a text into lines at line feeds, carriage returns and pairs of both, and joins them with line feeds.
-/

namespace Library.DisplayedText

open Utf8

def splitLines : List Char → List (List Char)
  | [] => [[]]
  | '\r' :: '\n' :: rest => [] :: splitLines rest
  | '\r' :: rest => [] :: splitLines rest
  | '\n' :: rest => [] :: splitLines rest
  | c :: rest => (splitLines rest).modifyHead (c :: ·)

def joinLines (lines : List (List Char)) : List Char := ['\n'].intercalate lines

def displayed : List Char → List Char
  | [] => []
  | '\r' :: '\n' :: rest => '\n' :: displayed rest
  | '\r' :: rest => '\n' :: displayed rest
  | c :: rest => c :: displayed rest

theorem splitLines_ne_nil (text : List Char) : splitLines text ≠ [] := by
  fun_induction splitLines text with
  | case1 => simp
  | case2 => simp
  | case3 => simp
  | case4 => simp
  | case5 c rest _ _ _ ih => simpa using ih

theorem joinLines_cons (line : List Char) {lines : List (List Char)} (hLines : lines ≠ []) :
    joinLines (line :: lines) = line ++ '\n' :: joinLines lines := by
  obtain ⟨second, further, rfl⟩ := List.exists_cons_of_ne_nil hLines
  simp [joinLines, List.intercalate]

theorem joinLines_modifyHead (c : Char) {lines : List (List Char)} (hLines : lines ≠ []) :
    joinLines (lines.modifyHead (c :: ·)) = c :: joinLines lines := by
  obtain ⟨first, further, rfl⟩ := List.exists_cons_of_ne_nil hLines
  cases further with
  | nil => simp [joinLines, List.intercalate]
  | cons second further => simp [joinLines_cons]

theorem joinLines_splitLines (text : List Char) : joinLines (splitLines text) = displayed text := by
  fun_induction splitLines text with
  | case1 => rfl
  | case2 rest ih =>
    rw [joinLines_cons _ (splitLines_ne_nil rest), ih, displayed]
    rfl
  | case3 rest hSingle ih =>
    rw [joinLines_cons _ (splitLines_ne_nil rest), ih, displayed]
    · rfl
    · exact hSingle
  | case4 rest ih =>
    rw [joinLines_cons _ (splitLines_ne_nil rest), ih, displayed]
    · rfl
    · simp
    · simp
  | case5 c rest hPair hReturn hFeed ih =>
    rw [joinLines_modifyHead c (splitLines_ne_nil rest), ih, displayed]
    · exact hPair
    · exact hReturn

variable {text : List Char}

theorem displayed_of_no_return (hText : '\r' ∉ text) : displayed text = text := by
  fun_induction displayed text with
  | case1 => rfl
  | case2 => simp at hText
  | case3 => simp at hText
  | case4 c rest _ _ ih => rw [ih fun hRest => hText (List.mem_cons_of_mem c hRest)]

theorem no_return_displayed (text : List Char) : '\r' ∉ displayed text := by
  fun_induction displayed text with
  | case1 => simp
  | case2 rest ih => simpa using ih
  | case3 rest _ ih => simpa using ih
  | case4 c rest hPair hReturn ih =>
    simp only [List.mem_cons, not_or]
    exact ⟨fun hSame => hReturn hSame.symm, ih⟩

def mergeBreaks : List Segment → List Segment
  | [] => []
  | [last] => [if last.shown = '\r' then ⟨'\n', last.bytes⟩ else last]
  | first :: second :: rest =>
    if first.shown = '\r' then
      if second.shown = '\n' then ⟨'\n', first.bytes ++ second.bytes⟩ :: mergeBreaks rest
      else ⟨'\n', first.bytes⟩ :: mergeBreaks (second :: rest)
    else first :: mergeBreaks (second :: rest)

def pieces (bytes : List Byte) : List Segment := mergeBreaks (segments bytes)

def bytesOf (pieces : List Segment) : List Byte := pieces.flatMap (·.bytes)

def shownBy (pieces : List Segment) : List Char := pieces.map (·.shown)

theorem shown_mergeBreaks (list : List Segment) : shownBy (mergeBreaks list) = displayed (list.map (·.shown)) := by
  fun_induction mergeBreaks list with
  | case1 => rfl
  | case2 last =>
    split
    · rename_i hReturn
      simp [shownBy, hReturn, displayed]
    · rename_i hOther
      rw [List.map_singleton, displayed_of_no_return (by simpa using Ne.symm hOther)]
      rfl
  | case3 first second rest hReturn hFeed ih =>
    simp only [List.map_cons, hReturn, hFeed, displayed, ← ih]
    rfl
  | case4 first second rest hReturn hOther ih =>
    simp only [List.map_cons, hReturn] at ih ⊢
    rw [displayed, ← ih]
    · rfl
    · intro further hCons
      exact hOther (List.cons.inj hCons).1
  | case5 first second rest hOther ih =>
    rw [List.map_cons, displayed, ← ih]
    · rfl
    · intro further hReturn
      exact absurd hReturn hOther
    · exact hOther

theorem bytes_mergeBreaks (list : List Segment) : bytesOf (mergeBreaks list) = bytesOf list := by
  fun_induction mergeBreaks list with
  | case1 => rfl
  | case2 last => split <;> rfl
  | case3 first second rest _ _ ih => simp only [bytesOf, List.flatMap_cons, List.append_assoc] at ih ⊢; rw [ih]
  | case4 first second rest _ _ ih => simp only [bytesOf, List.flatMap_cons] at ih ⊢; rw [ih]
  | case5 first second rest _ ih => simp only [bytesOf, List.flatMap_cons] at ih ⊢; rw [ih]

variable (bytes : List Byte)

theorem shown_pieces : shownBy (pieces bytes) = displayed (decode bytes) := by
  rw [pieces, shown_mergeBreaks, shown_segments]

theorem bytes_pieces : bytesOf (pieces bytes) = bytes := by
  rw [pieces, bytes_mergeBreaks]
  exact bytes_segments bytes

variable {list : List Segment}

theorem mergeBreaks_rest {first : Segment} {rest : List Segment} (hMerged : mergeBreaks list = first :: rest) :
    ∃ front back, list = front ++ back ∧ mergeBreaks back = rest := by
  cases list with
  | nil => cases hMerged
  | cons head tail =>
    cases tail with
    | nil =>
      rw [mergeBreaks, List.cons.injEq] at hMerged
      exact ⟨[head], [], rfl, hMerged.2⟩
    | cons second tail =>
      rw [mergeBreaks] at hMerged
      split at hMerged
      · split at hMerged
        · exact ⟨[head, second], tail, rfl, (List.cons.inj hMerged).2⟩
        · exact ⟨[head], second :: tail, rfl, (List.cons.inj hMerged).2⟩
      · exact ⟨[head], second :: tail, rfl, (List.cons.inj hMerged).2⟩

theorem mergeBreaks_suffix {front back : List Segment} (hMerged : mergeBreaks list = front ++ back) :
    ∃ before after, list = before ++ after ∧ mergeBreaks after = back := by
  induction front generalizing list with
  | nil => exact ⟨[], list, rfl, hMerged⟩
  | cons first front ih =>
    obtain ⟨passed, left, rfl, hLeft⟩ := mergeBreaks_rest hMerged
    obtain ⟨before, after, rfl, hAfter⟩ := ih hLeft
    exact ⟨passed ++ before, after, by rw [List.append_assoc], hAfter⟩

theorem pieces_suffix {bytes : List Byte} {front back : List Segment} (hPieces : pieces bytes = front ++ back) :
    pieces (bytesOf back) = back := by
  obtain ⟨before, after, hSegments, rfl⟩ := mergeBreaks_suffix hPieces
  rw [bytes_mergeBreaks, pieces, bytesOf, segments_suffix hSegments]

theorem mergeBreaks_exact_append (hText : '\r' ∉ text) (list : List Segment) :
    mergeBreaks (text.map .exact ++ list) = text.map .exact ++ mergeBreaks list := by
  induction text with
  | nil => rfl
  | cons c text ih =>
    have hFirst : c ≠ '\r' := fun hSame => hText (hSame ▸ List.mem_cons_self)
    have hRest := ih fun hMem => hText (List.mem_cons_of_mem c hMem)
    rw [List.map_cons, List.cons_append, List.cons_append, ← hRest]
    cases text.map Segment.exact ++ list with
    | nil => simp [mergeBreaks, Segment.exact, hFirst]
    | cons second rest => exact if_neg hFirst

theorem pieces_encode_append (hText : '\r' ∉ text) (rest : List Byte) : pieces (encode text ++ rest) = text.map .exact ++ pieces rest := by
  rw [pieces, segments_encode_append, mergeBreaks_exact_append hText]
  rfl

def Plain (bytes : List Byte) : Prop := WellFormed bytes ∧ 0x0d ∉ bytes

instance (bytes : List Byte) : Decidable (Plain bytes) := inferInstanceAs (Decidable (WellFormed bytes ∧ 0x0d ∉ bytes))

def bytesBefore (bytes : List Byte) (position : Nat) : List Byte := bytesOf ((pieces bytes).take position)

def bytesFrom (bytes : List Byte) (position : Nat) : List Byte := bytesOf ((pieces bytes).drop position)

def replaceBytes (bytes : List Byte) (start stop : Nat) (inserted : List Char) : List Byte :=
  bytesBefore bytes start ++ encode inserted ++ bytesFrom bytes stop

theorem return_mem_utf8EncodeChar {c : Char} (hReturn : 0x0d ∈ String.utf8EncodeChar c) : c = '\r' := by
  have hByte : (0x0d : Byte).toNat = 0x0d := rfl
  have hNat : c.toNat = 0x0d := by
    rcases utf8EncodeChar_cases c with ⟨a, hEncode, hSize, hA⟩ | ⟨a, b, hEncode, hLow, hHigh, hA, hB⟩ |
      ⟨a, b, d, hEncode, hLow, hHigh, hA, hB, hD⟩ | ⟨a, b, d, e, hEncode, hLow, hHigh, hA, hB, hD, hE⟩
    · rw [hEncode, List.mem_singleton] at hReturn
      subst hReturn
      omega
    · simp only [hEncode, List.mem_cons, List.not_mem_nil, or_false] at hReturn
      rcases hReturn with rfl | rfl <;> omega
    · simp only [hEncode, List.mem_cons, List.not_mem_nil, or_false] at hReturn
      rcases hReturn with rfl | rfl | rfl <;> omega
    · simp only [hEncode, List.mem_cons, List.not_mem_nil, or_false] at hReturn
      rcases hReturn with rfl | rfl | rfl | rfl <;> omega
  rw [← Char.ofNat_toNat c, hNat]

theorem return_mem_encode : 0x0d ∈ encode text ↔ '\r' ∈ text := by
  rw [encode, List.mem_flatMap]
  constructor
  · rintro ⟨c, hMem, hReturn⟩
    exact return_mem_utf8EncodeChar hReturn ▸ hMem
  · intro hMem
    exact ⟨'\r', hMem, by decide⟩

theorem mergeBreaks_decoded (hDecoded : ∀ segment ∈ list, segment.Decoded) :
    ∀ piece ∈ mergeBreaks list, piece.Decoded ∨ 0x0d ∈ piece.bytes := by
  have hReturnByte : ∀ segment : Segment, segment.Decoded → segment.shown = '\r' → 0x0d ∈ segment.bytes := by
    rintro segment (hExact | ⟨hReplacement, -⟩) hReturn
    · rw [hExact, hReturn]
      decide
    · exact absurd (hReplacement.symm.trans hReturn) (by decide)
  fun_induction mergeBreaks list with
  | case1 => exact nofun
  | case2 last =>
    have hLast := hDecoded last List.mem_cons_self
    intro piece hPiece
    obtain rfl := List.mem_singleton.mp hPiece
    split
    · rename_i hReturn
      exact .inr (hReturnByte last hLast hReturn)
    · exact .inl hLast
  | case3 first second rest hReturn hFeed ih =>
    obtain ⟨hFirst, -, hRest⟩ := List.forall_mem_cons.mp hDecoded |>.imp_right List.forall_mem_cons.mp
    exact List.forall_mem_cons.mpr ⟨.inr (List.mem_append_left _ (hReturnByte first hFirst hReturn)), ih hRest⟩
  | case4 first second rest hReturn hOther ih =>
    obtain ⟨hFirst, hRest⟩ := List.forall_mem_cons.mp hDecoded
    exact List.forall_mem_cons.mpr ⟨.inr (hReturnByte first hFirst hReturn), ih hRest⟩
  | case5 first second rest hOther ih =>
    obtain ⟨hFirst, hRest⟩ := List.forall_mem_cons.mp hDecoded
    exact List.forall_mem_cons.mpr ⟨.inl hFirst, ih hRest⟩

theorem pieces_decoded : ∀ piece ∈ pieces bytes, piece.Decoded ∨ 0x0d ∈ piece.bytes := mergeBreaks_decoded (segments_decoded bytes)

theorem length_bytes_le_of_decoded {piece : Segment} (hDecoded : piece.Decoded) :
    piece.bytes.length ≤ (String.utf8EncodeChar piece.shown).length := by
  rcases hDecoded with hExact | ⟨hReplacement, hLength⟩
  · rw [hExact]
    exact Nat.le_refl _
  · rw [hReplacement]
    exact hLength

theorem length_bytesOf_le (hPieces : ∀ piece ∈ list, piece.Decoded ∨ 0x0d ∈ piece.bytes) (hReturn : 0x0d ∉ bytesOf list) :
    (bytesOf list).length ≤ (encode (shownBy list)).length := by
  induction list with
  | nil => exact Nat.le_refl _
  | cons piece list ih =>
    obtain ⟨hPiece, hRest⟩ := List.forall_mem_cons.mp hPieces
    rw [bytesOf, List.flatMap_cons, List.mem_append, not_or] at hReturn
    have hList := ih hRest hReturn.2
    have hHere := length_bytes_le_of_decoded (hPiece.resolve_right hReturn.1)
    rw [bytesOf, encode, shownBy] at hList ⊢
    simp only [List.map_cons, List.flatMap_cons, List.length_append]
    omega

theorem plain_iff : Plain (encode text) ↔ '\r' ∉ text :=
  ⟨fun hPlain => mt return_mem_encode.mpr hPlain.2, fun hText => ⟨⟨text, rfl⟩, mt return_mem_encode.mp hText⟩⟩

theorem no_return_of_mem_pieces {bytes : List Byte} (hPart : list ⊆ pieces bytes) : '\r' ∉ shownBy list := by
  intro hReturn
  obtain ⟨piece, hPiece, hShown⟩ := List.mem_map.mp hReturn
  refine no_return_displayed (decode bytes) ?_
  rw [← shown_pieces]
  exact List.mem_map.mpr ⟨piece, hPart hPiece, hShown⟩

theorem bytesBefore_of_plain {bytes : List Byte} {position : Nat} (hPlain : Plain (bytesBefore bytes position)) :
    encode (shownBy ((pieces bytes).take position)) = bytesBefore bytes position := by
  obtain ⟨⟨text, hText⟩, hReturn⟩ := hPlain
  have hNone : '\r' ∉ text := plain_iff.mp ⟨⟨text, rfl⟩, hText ▸ hReturn⟩
  have hSplit := (List.take_append_drop position (pieces bytes)).symm
  have hBytes : bytes = bytesBefore bytes position ++ bytesFrom bytes position := by
    rw [bytesBefore, bytesFrom, bytesOf, bytesOf, ← List.flatMap_append, List.take_append_drop]
    exact (bytes_pieces bytes).symm
  have hPieces : pieces bytes = text.map .exact ++ (pieces bytes).drop position := by
    conv_lhs => rw [hBytes, ← hText, pieces_encode_append hNone, bytesFrom, pieces_suffix hSplit]
  have hFront : (pieces bytes).take position = text.map .exact := List.append_cancel_right (hSplit.symm.trans hPieces)
  rw [hFront, ← hText]
  simp [shownBy, Segment.exact, Function.comp_def]

theorem bytesFrom_of_plain {bytes : List Byte} {position : Nat} (hPlain : Plain (bytesFrom bytes position)) :
    encode (shownBy ((pieces bytes).drop position)) = bytesFrom bytes position := by
  obtain ⟨⟨text, hText⟩, hReturn⟩ := hPlain
  have hNone : '\r' ∉ text := plain_iff.mp ⟨⟨text, rfl⟩, hText ▸ hReturn⟩
  have hBack : (pieces bytes).drop position = text.map .exact := by
    rw [← pieces_suffix (List.take_append_drop position (pieces bytes)).symm, ← bytesFrom, ← hText,
      ← List.append_nil (encode text), pieces_encode_append hNone]
    exact List.append_nil _
  rw [hBack, ← hText]
  simp [shownBy, Segment.exact, Function.comp_def]

theorem encode_append (front back : List Char) : encode (front ++ back) = encode front ++ encode back := List.flatMap_append

theorem encode_edit_eq_iff (start stop : Nat) (inserted : List Char) :
    encode ((displayed (decode bytes)).take start ++ displayed inserted ++ (displayed (decode bytes)).drop stop) =
        replaceBytes bytes start stop inserted ↔ Plain (bytesBefore bytes start) ∧ Plain (bytesFrom bytes stop) ∧ '\r' ∉ inserted := by
  have hShown : displayed (decode bytes) = shownBy (pieces bytes) := (shown_pieces bytes).symm
  have hTake : (displayed (decode bytes)).take start = shownBy ((pieces bytes).take start) := by
    rw [hShown, shownBy, shownBy, List.map_take]
  have hDrop : (displayed (decode bytes)).drop stop = shownBy ((pieces bytes).drop stop) := by
    rw [hShown, shownBy, shownBy, List.map_drop]
  rw [hTake, hDrop, replaceBytes, encode_append, encode_append]
  constructor
  · intro hSame
    have hFront : '\r' ∉ shownBy ((pieces bytes).take start) := no_return_of_mem_pieces (List.take_subset ..)
    have hBack : '\r' ∉ shownBy ((pieces bytes).drop stop) := no_return_of_mem_pieces (List.drop_subset ..)
    have hReturn : 0x0d ∉ bytesBefore bytes start ++ encode inserted ++ bytesFrom bytes stop := by
      rw [← hSame]
      simp only [List.mem_append, not_or, return_mem_encode]
      exact ⟨⟨hFront, no_return_displayed inserted⟩, hBack⟩
    simp only [List.mem_append, not_or, return_mem_encode] at hReturn
    obtain ⟨⟨hBefore, hInserted⟩, hFrom⟩ := hReturn
    rw [displayed_of_no_return hInserted] at hSame
    have hDecoded := pieces_decoded bytes
    have hBeforeLe := length_bytesOf_le (fun piece hPiece => hDecoded piece (List.take_subset _ _ hPiece)) hBefore
    have hFromLe := length_bytesOf_le (fun piece hPiece => hDecoded piece (List.drop_subset _ _ hPiece)) hFrom
    have hLength := congrArg List.length hSame
    simp only [List.length_append] at hLength
    rw [← bytesBefore] at hBeforeLe
    rw [← bytesFrom] at hFromLe
    obtain ⟨hHead, hTail⟩ := List.append_inj hSame (by simp only [List.length_append]; omega)
    exact ⟨⟨⟨_, List.append_inj_left hHead (by omega)⟩, hBefore⟩, ⟨⟨_, hTail⟩, hFrom⟩, hInserted⟩
  · rintro ⟨hBefore, hFrom, hInserted⟩
    rw [displayed_of_no_return hInserted, bytesBefore_of_plain hBefore, bytesFrom_of_plain hFrom]

end Library.DisplayedText
