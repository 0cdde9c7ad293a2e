import Mathlib.Data.List.Infix
import Cosmosh.Library.CodeUnits

/-! # Lines with their endings

A text is its lines, each with what ended it; the last has no ending.
-/

namespace Library.EndedLines

structure Line (α : Type) where
  content : List α
  ending : List α
  deriving DecidableEq

section

variable {α : Type} [DecidableEq α] (cr lf : α)

def endLine (raw : List α) : Line α :=
  if raw.getLast? = some cr then ⟨raw.dropLast, [cr, lf]⟩ else ⟨raw, [lf]⟩

def endAll : List (List α) → List (Line α)
  | [] => []
  | [last] => [⟨last, []⟩]
  | raw :: next :: more => endLine cr lf raw :: endAll (next :: more)

def endedLines (t : List α) : List (Line α) := endAll cr lf (t.splitOn lf)

def text (lines : List (Line α)) : List α := lines.flatMap fun line => line.content ++ line.ending

variable {cr lf}

theorem endedLines_of_not_mem {t : List α} (h : lf ∉ t) : endedLines cr lf t = [⟨t, []⟩] := by
  rw [endedLines, List.splitOn_eq_singleton h]
  rfl

theorem endedLines_break {raw : List α} (h : lf ∉ raw) (rest : List α) :
    endedLines cr lf (raw ++ lf :: rest) = endLine cr lf raw :: endedLines cr lf rest := by
  obtain ⟨next, more, hRest⟩ := List.exists_cons_of_ne_nil (List.splitOn_ne_nil lf rest)
  rw [endedLines, List.splitOn_append_cons_self, List.splitOn_eq_singleton h, endedLines, hRest]
  rfl

theorem breakInduction (lf : α) {P : List α → Prop} (hPlain : ∀ t, lf ∉ t → P t) (hBreak : ∀ raw rest, lf ∉ raw → P rest → P (raw ++ lf :: rest))
    (t : List α) : P t := by
  induction hLength : t.length using Nat.strong_induction_on generalizing t with
  | h n ih =>
    by_cases hMem : lf ∈ t
    · obtain ⟨raw, rest, rfl, hRaw⟩ := List.eq_append_cons_of_mem hMem
      refine hBreak raw rest hRaw (ih rest.length ?_ rest rfl)
      rw [← hLength, List.length_append, List.length_cons]
      omega
    · exact hPlain t hMem

theorem endLine_cases (cr lf : α) (raw : List α) : (∃ front, raw = front ++ [cr] ∧ endLine cr lf raw = ⟨front, [cr, lf]⟩) ∨
      (raw.getLast? ≠ some cr ∧ endLine cr lf raw = ⟨raw, [lf]⟩) := by
  rw [endLine]
  split
  · next hLast =>
    obtain ⟨front, rfl⟩ := List.getLast?_eq_some_iff.mp hLast
    exact .inl ⟨front, rfl, by rw [List.dropLast_concat]⟩
  · next hLast => exact .inr ⟨hLast, rfl⟩

theorem text_endedLines (t : List α) : text (endedLines cr lf t) = t := by
  induction t using breakInduction lf with
  | hPlain t h =>
    rw [endedLines_of_not_mem h]
    simp [text]
  | hBreak raw rest h ih =>
    rw [endedLines_break h, text, List.flatMap_cons, ← text, ih]
    obtain ⟨front, rfl, hEnd⟩ | ⟨_, hEnd⟩ := endLine_cases cr lf raw <;> simp [hEnd]

theorem exists_pieces (cr lf : α) (t : List α) : ∃ (raws : List (List α)) (last : List α), (∀ raw ∈ raws, lf ∉ raw) ∧ lf ∉ last ∧
    endedLines cr lf t = raws.map (endLine cr lf) ++ [⟨last, []⟩] := by
  induction t using breakInduction lf with
  | hPlain t h => exact ⟨[], t, nofun, h, endedLines_of_not_mem h⟩
  | hBreak raw rest h ih =>
    obtain ⟨raws, last, hRaws, hLast, hLines⟩ := ih
    refine ⟨raw :: raws, last, ?_, hLast, by rw [endedLines_break h, hLines]; rfl⟩
    rintro other (_ | ⟨_, hOther⟩)
    · exact h
    · exact hRaws other hOther

omit [DecidableEq α] in
theorem intercalate_concat (raws : List (List α)) (last : List α) : [lf].intercalate (raws ++ [last]) = raws.flatMap (· ++ [lf]) ++ last := by
  induction raws with
  | nil => simp
  | cons raw raws ih =>
    rw [List.cons_append, List.intercalate_cons_of_ne_nil (List.concat_ne_nil last raws), ih, List.flatMap_cons]
    simp

theorem intercalate_injective {first second : List (List α)} (hFirst : ∀ piece ∈ first, lf ∉ piece) (hSecond : ∀ piece ∈ second, lf ∉ piece)
    (hFirstSome : first ≠ []) (hSecondSome : second ≠ []) (h : [lf].intercalate first = [lf].intercalate second) : first = second := by
  rw [← List.splitOn_intercalate lf hFirst hFirstSome, h, List.splitOn_intercalate lf hSecond hSecondSome]

theorem text_map_endLine (raws : List (List α)) (rest : List (Line α)) :
    text (raws.map (endLine cr lf) ++ rest) = raws.flatMap (· ++ [lf]) ++ text rest := by
  induction raws with
  | nil => rfl
  | cons raw raws ih =>
    rw [List.map_cons, List.cons_append, text, List.flatMap_cons, ← text, ih, List.flatMap_cons, List.append_assoc]
    obtain ⟨front, rfl, hEnd⟩ | ⟨_, hEnd⟩ := endLine_cases cr lf raw <;> simp [hEnd]

section Rejoining

variable {κ : Type} {key : List α → κ} {keeps wanted : κ → Bool} {g : List α → List α}

def rejoined (cr lf : α) (key : List α → κ) (keeps : κ → Bool) (g : List α → List α) (t : List α) : List α :=
  [lf].intercalate (((endedLines cr lf t).filter fun line => keeps (key line.content)).map fun line => g line.content)

def without (cr lf : α) (key : List α → κ) (wanted : κ → Bool) (t : List α) : List α :=
  text ((endedLines cr lf t).filter fun line => wanted (key line.content))

structure Untouched (cr lf : α) (key : List α → κ) (keeps wanted : κ → Bool) (g : List α → List α) (t : List α) : Prop where
  same : ∀ line ∈ endedLines cr lf t, keeps (key line.content) = wanted (key line.content)
  content : ∀ line ∈ endedLines cr lf t, keeps (key line.content) = true → g line.content = line.content
  ending : ∀ line ∈ endedLines cr lf t, keeps (key line.content) = true → line.ending ≠ [cr, lf]
  last : (∃ line ∈ endedLines cr lf t, keeps (key line.content) = true) →
    ∀ last, (endedLines cr lf t).getLast? = some last → keeps (key last.content) = true

def Line.raw (cr lf : α) (line : Line α) : List α := if line.ending = [cr, lf] then line.content ++ [cr] else line.content

theorem raw_endLine (raw : List α) : (endLine cr lf raw).raw cr lf = raw := by
  obtain ⟨front, rfl, hEnd⟩ | ⟨_, hEnd⟩ := endLine_cases cr lf raw
  · rw [hEnd, Line.raw, if_pos rfl]
  · rw [hEnd, Line.raw, if_neg (by simp)]

theorem map_raw_pieces (raws : List (List α)) (last : List α) :
    (raws.map (endLine cr lf) ++ [(⟨last, []⟩ : Line α)]).map (Line.raw cr lf) = raws ++ [last] := by
  have hRaws : (raws.map (endLine cr lf)).map (Line.raw cr lf) = raws := by
    rw [List.map_map]
    exact (List.map_congr_left fun raw _ => raw_endLine raw).trans (List.map_id raws)
  rw [List.map_append, hRaws, List.map_singleton, Line.raw, if_neg (by simp)]

variable (hKey : ∀ t, key (g t) = key t) (hCr : ∀ t, key (t ++ [cr]) = key t) (hOther : ∀ t, g t ≠ t ++ [cr])
  (hClean : ∀ t, lf ∉ t → lf ∉ g t) (hKeepsBlank : keeps (key []) = true) (hWantedBlank : wanted (key []) = true)

include hCr in
theorem key_raw (line : Line α) : key (line.raw cr lf) = key line.content := by
  rw [Line.raw]
  split
  · exact hCr _
  · rfl

include hCr in
theorem map_raw_filter (keeps : κ → Bool) (lines : List (Line α)) : (lines.filter fun line => keeps (key line.content)).map (Line.raw cr lf) =
      (lines.map (Line.raw cr lf)).filter fun raw => keeps (key raw) := by
  rw [List.filter_map]
  congr 1
  exact List.filter_congr fun line _ => by rw [Function.comp_apply, key_raw hCr]

include hCr in
theorem without_eq {t last : List α} {raws : List (List α)} (hLines : endedLines cr lf t = raws.map (endLine cr lf) ++ [⟨last, []⟩]) :
    without cr lf key wanted t =
      [lf].intercalate (raws.filter (fun raw => wanted (key raw)) ++ [if wanted (key last) = true then last else []]) := by
  have hRaws : (raws.map (endLine cr lf)).filter (fun line => wanted (key line.content)) =
      (raws.filter fun raw => wanted (key raw)).map (endLine cr lf) := by
    rw [List.filter_map]
    congr 1
    exact List.filter_congr fun raw _ => by rw [Function.comp_apply, ← key_raw hCr (endLine cr lf raw), raw_endLine]
  rw [without, hLines, List.filter_append, hRaws, text_map_endLine, intercalate_concat]
  congr 1
  split
  · next hLast => simp [hLast, text]
  · next hLast => simp [hLast, text]

omit [DecidableEq α] in
include hKey in
theorem map_key_kept (lines : List (Line α)) : ((lines.filter fun line => keeps (key line.content)).map fun line => g line.content).map key =
      (lines.map fun line => key line.content).filter keeps := by
  rw [List.map_map, List.filter_map]
  exact List.map_congr_left fun line _ => hKey line.content

theorem eq_of_filter_eq {items : List κ} (h : items.filter keeps = items.filter wanted) : ∀ item ∈ items, keeps item = wanted item := by
  intro item hItem
  rw [Bool.eq_iff_iff]
  constructor
  · intro hKeeps
    exact (List.mem_filter.mp (h ▸ List.mem_filter.mpr ⟨hItem, hKeeps⟩)).2
  · intro hWanted
    exact (List.mem_filter.mp (h.symm ▸ List.mem_filter.mpr ⟨hItem, hWanted⟩)).2

theorem filter_concat_ne [DecidableEq κ] {items : List κ} {item blank : κ} (hKeeps : keeps blank = true) (hWanted : wanted blank = true)
    (hItem : wanted item = false) : (items ++ [item]).filter keeps ≠ items.filter wanted ++ [blank] := by
  intro h
  have hOther : item ≠ blank := by
    rintro rfl
    cases hWanted.symm.trans hItem
  have hCount := congrArg (List.count blank) h
  have hNew : List.count blank [item] = 0 := List.count_eq_zero_of_not_mem fun hMem => hOther (List.mem_singleton.mp hMem).symm
  rw [List.count_filter hKeeps, List.count_append, List.count_append, List.count_filter hWanted, List.count_singleton_self, hNew] at hCount
  exact Nat.succ_ne_self _ hCount.symm

theorem not_mem_content {t : List α} {line : Line α} (h : line ∈ endedLines cr lf t) : lf ∉ line.content := by
  obtain ⟨raws, last, hRaws, hLast, hLines⟩ := exists_pieces cr lf t
  rw [hLines, List.mem_append, List.mem_map, List.mem_singleton] at h
  obtain ⟨raw, hRaw, rfl⟩ | rfl := h
  · obtain ⟨front, rfl, hEnd⟩ | ⟨_, hEnd⟩ := endLine_cases cr lf raw
    · rw [hEnd]
      exact fun hMem => hRaws _ hRaw (List.mem_append_left _ hMem)
    · rw [hEnd]
      exact hRaws raw hRaw
  · exact hLast

include hCr in
theorem map_key_content {t last : List α} {raws : List (List α)} (hLines : endedLines cr lf t = raws.map (endLine cr lf) ++ [⟨last, []⟩]) :
    (endedLines cr lf t).map (fun line => key line.content) = raws.map key ++ [key last] := by
  have hRaw : (endedLines cr lf t).map (fun line => key line.content) = ((endedLines cr lf t).map (Line.raw cr lf)).map key := by
    rw [List.map_map]
    exact List.map_congr_left fun line _ => (key_raw hCr line).symm
  rw [hRaw, hLines, map_raw_pieces, List.map_append, List.map_singleton]

include hOther in
theorem content_of_raw {line : Line α} (h : g line.content = line.raw cr lf) : g line.content = line.content ∧ line.ending ≠ [cr, lf] := by
  rw [Line.raw] at h
  split at h
  · exact absurd h (hOther _)
  · next hEnding => exact ⟨h, hEnding⟩

omit [DecidableEq α] in
theorem not_mem_wanted {raws : List (List α)} {last : List α} (hRaws : ∀ raw ∈ raws, lf ∉ raw) (hLast : lf ∉ last) :
    ∀ piece ∈ raws.filter (fun raw => wanted (key raw)) ++ [if wanted (key last) = true then last else []], lf ∉ piece := by
  intro piece hPiece
  obtain hRaw | hEnd := List.mem_append.mp hPiece
  · exact hRaws piece (List.mem_filter.mp hRaw).1
  · obtain rfl := List.mem_singleton.mp hEnd
    split
    · exact hLast
    · exact List.not_mem_nil

include hCr hKeepsBlank in
theorem untouched_of_none {t : List α} (hNone : ∀ line ∈ endedLines cr lf t, keeps (key line.content) = false)
    (h : without cr lf key wanted t = []) : Untouched cr lf key keeps wanted g t := by
  obtain ⟨raws, last, hRaws, hLast, hLines⟩ := exists_pieces cr lf t
  have hLastMem : (⟨last, []⟩ : Line α) ∈ endedLines cr lf t := by
    rw [hLines]
    exact List.mem_append_right _ List.mem_cons_self
  rw [without_eq hCr hLines] at h
  have hBlank : ∀ piece ∈ [([] : List α)], lf ∉ piece := fun piece hPiece => List.mem_singleton.mp hPiece ▸ List.not_mem_nil
  have hEmpty := intercalate_injective hBlank (not_mem_wanted hRaws hLast) (List.cons_ne_nil _ _) (List.concat_ne_nil _ _)
    (List.intercalate_singleton.trans h.symm)
  obtain ⟨hUnwanted, hEnd⟩ := List.append_inj' (show [] ++ [[]] = _ from hEmpty) rfl
  have hLastUnwanted : wanted (key last) = false := by
    rw [Bool.eq_false_iff]
    intro hWantedLast
    rw [if_pos hWantedLast] at hEnd
    obtain rfl := List.singleton_inj.mp hEnd
    cases (hNone _ hLastMem).symm.trans hKeepsBlank
  have hKeys : ∀ k ∈ raws.map key ++ [key last], wanted k = false := by
    intro k hk
    obtain hRaw | hLastKey := List.mem_append.mp hk
    · obtain ⟨raw, hMem, rfl⟩ := List.mem_map.mp hRaw
      exact Bool.eq_false_iff.mpr (List.filter_eq_nil_iff.mp hUnwanted.symm raw hMem)
    · exact List.mem_singleton.mp hLastKey ▸ hLastUnwanted
  refine ⟨?_, ?_, ?_, ?_⟩
  · intro line hLine
    have hKeyMem : key line.content ∈ raws.map key ++ [key last] := map_key_content hCr hLines ▸ List.mem_map_of_mem hLine
    rw [hNone line hLine, hKeys _ hKeyMem]
  · exact fun line hLine hKeeps => absurd ((hNone line hLine).symm.trans hKeeps) Bool.false_ne_true
  · exact fun line hLine hKeeps => absurd ((hNone line hLine).symm.trans hKeeps) Bool.false_ne_true
  · rintro ⟨line, hLine, hKeeps⟩
    cases (hNone line hLine).symm.trans hKeeps

include hKey hCr hOther hClean hKeepsBlank hWantedBlank in
theorem untouched_of_eq [DecidableEq κ] {t : List α} (h : rejoined cr lf key keeps g t = without cr lf key wanted t) :
    Untouched cr lf key keeps wanted g t := by
  obtain ⟨raws, last, hRaws, hLast, hLines⟩ := exists_pieces cr lf t
  have hGetLast : (endedLines cr lf t).getLast? = some ⟨last, []⟩ := by rw [hLines, List.getLast?_concat]
  have hLastMem : (⟨last, []⟩ : Line α) ∈ endedLines cr lf t := List.mem_of_getLast? hGetLast
  have hKept : ∀ piece ∈ ((endedLines cr lf t).filter fun line => keeps (key line.content)).map fun line => g line.content, lf ∉ piece := by
    intro piece hPiece
    obtain ⟨line, hLine, rfl⟩ := List.mem_map.mp hPiece
    exact hClean _ (not_mem_content (List.mem_filter.mp hLine).1)
  by_cases hNone : ((endedLines cr lf t).filter fun line => keeps (key line.content)) = []
  · rw [rejoined, hNone] at h
    exact untouched_of_none hCr hKeepsBlank (fun line hLine => Bool.eq_false_iff.mpr (List.filter_eq_nil_iff.mp hNone line hLine)) h.symm
  · rw [rejoined, without_eq hCr hLines] at h
    have hPieces := intercalate_injective hKept (not_mem_wanted hRaws hLast) (fun hEmpty => hNone (List.map_eq_nil_iff.mp hEmpty))
      (List.concat_ne_nil _ _) h
    have hFiltered := congrArg (List.map key) hPieces
    rw [map_key_kept hKey, map_key_content hCr hLines, List.map_append, List.map_singleton] at hFiltered
    have hFilterKey : (raws.filter fun raw => wanted (key raw)).map key = (raws.map key).filter wanted := by
      rw [List.filter_map]
      rfl
    rw [hFilterKey] at hFiltered
    cases hWantedLast : wanted (key last) with
    | false =>
      rw [if_neg (by simp [hWantedLast])] at hFiltered
      exact absurd hFiltered (filter_concat_ne hKeepsBlank hWantedBlank hWantedLast)
    | true =>
      rw [if_pos hWantedLast] at hFiltered hPieces
      have hSameKeys : ∀ k ∈ raws.map key ++ [key last], keeps k = wanted k := by
        refine eq_of_filter_eq (hFiltered.trans ?_)
        rw [List.filter_append, List.filter_singleton, hWantedLast]
        rfl
      have hSame : ∀ line ∈ endedLines cr lf t, keeps (key line.content) = wanted (key line.content) := fun line hLine =>
        hSameKeys _ (map_key_content hCr hLines ▸ List.mem_map_of_mem hLine)
      have hRaw : (raws.filter fun raw => wanted (key raw)) ++ [last] =
          ((endedLines cr lf t).filter fun line => keeps (key line.content)).map (Line.raw cr lf) := by
        rw [List.filter_congr hSame, map_raw_filter hCr, hLines, map_raw_pieces, List.filter_append, List.filter_singleton, hWantedLast]
        rfl
      have hLineRaw := List.map_inj_left.mp (hPieces.trans hRaw)
      have hContent : ∀ line ∈ endedLines cr lf t, keeps (key line.content) = true →
          g line.content = line.content ∧ line.ending ≠ [cr, lf] := fun line hLine hKeeps =>
        content_of_raw hOther (hLineRaw line (List.mem_filter.mpr ⟨hLine, hKeeps⟩))
      refine ⟨hSame, fun line hLine hKeeps => (hContent line hLine hKeeps).1, fun line hLine hKeeps => (hContent line hLine hKeeps).2, ?_⟩
      rintro - final hFinal
      obtain rfl := Option.some.inj (hGetLast.symm.trans hFinal)
      rw [hSame _ hLastMem]
      exact hWantedLast

include hCr in
theorem eq_of_untouched {t : List α} (h : Untouched cr lf key keeps wanted g t) : rejoined cr lf key keeps g t = without cr lf key wanted t := by
  obtain ⟨raws, last, hRaws, hLast, hLines⟩ := exists_pieces cr lf t
  have hGetLast : (endedLines cr lf t).getLast? = some ⟨last, []⟩ := by rw [hLines, List.getLast?_concat]
  have hLastMem : (⟨last, []⟩ : Line α) ∈ endedLines cr lf t := List.mem_of_getLast? hGetLast
  by_cases hSome : ∃ line ∈ endedLines cr lf t, keeps (key line.content) = true
  · have hWantedLast : wanted (key last) = true := (h.same _ hLastMem).symm.trans (h.last hSome _ hGetLast)
    have hRaw : (((endedLines cr lf t).filter fun line => keeps (key line.content)).map fun line => g line.content) =
        ((endedLines cr lf t).filter fun line => wanted (key line.content)).map (Line.raw cr lf) := by
      rw [← List.filter_congr h.same]
      apply List.map_congr_left
      intro line hLine
      obtain ⟨hMem, hKeeps⟩ := List.mem_filter.mp hLine
      rw [h.content line hMem hKeeps, Line.raw, if_neg (h.ending line hMem hKeeps)]
    rw [rejoined, hRaw, map_raw_filter hCr, without_eq hCr hLines, hLines, map_raw_pieces, if_pos hWantedLast, List.filter_append,
      List.filter_singleton, hWantedLast]
    rfl
  · have hNone : ((endedLines cr lf t).filter fun line => keeps (key line.content)) = [] :=
      List.filter_eq_nil_iff.mpr fun line hLine hKeeps => hSome ⟨line, hLine, hKeeps⟩
    rw [rejoined, without, ← List.filter_congr h.same, hNone]
    rfl

end Rejoining

theorem map_content_endedLines {β : Type} [DecidableEq β] {cr' lf' : β} {f : List α → List β}
    (hBreak : ∀ front back, f (front ++ lf :: back) = f front ++ lf' :: f back) (hLf : ∀ t, lf' ∈ f t → lf ∈ t)
    (hCr : ∀ front, f (front ++ [cr]) = f front ++ [cr']) (hLast : ∀ t, (f t).getLast? = some cr' → t.getLast? = some cr) (t : List α) :
    (endedLines cr' lf' (f t)).map (·.content) = (endedLines cr lf t).map fun line => f line.content := by
  induction t using breakInduction lf with
  | hPlain t h =>
    rw [endedLines_of_not_mem h, endedLines_of_not_mem fun hMem => h (hLf t hMem)]
    rfl
  | hBreak raw rest h ih =>
    have hContent : (endLine cr' lf' (f raw)).content = f (endLine cr lf raw).content := by
      obtain ⟨front, rfl, hEnd⟩ | ⟨hOther, hEnd⟩ := endLine_cases cr lf raw
      · rw [hEnd, hCr, endLine, if_pos List.getLast?_concat, List.dropLast_concat]
      · rw [hEnd, endLine, if_neg fun hSame => hOther (hLast raw hSame)]
    rw [hBreak, endedLines_break h, endedLines_break fun hMem => h (hLf raw hMem), List.map_cons, List.map_cons, ih, hContent]

end

open CodeUnits (splitLines)

theorem splitLines_cons {line t : CodeUnits} {u : Nat} (hu : 0x0a ≠ u) (hPair : u = 0x0d → t.head? ≠ some 0x0a) :
    splitLines line (u :: t) = splitLines (line ++ [u]) t := by
  rw [splitLines]
  · exact fun hSame => hu hSame.symm
  · rintro rest rfl rfl
    exact hPair rfl rfl

theorem splitLines_append {raw : CodeUnits} (h : 0x0a ∉ raw) (line : CodeUnits) {rest : CodeUnits}
    (hPair : raw.getLast? = some 0x0d → rest.head? ≠ some 0x0a) : splitLines line (raw ++ rest) = splitLines (line ++ raw) rest := by
  induction raw generalizing line with
  | nil => rw [List.nil_append, List.append_nil]
  | cons u raw ih =>
    obtain ⟨hu, hRaw⟩ := not_or.mp (List.mem_cons.not.mp h)
    cases raw with
    | nil => rw [List.singleton_append, splitLines_cons hu fun hReturn => hPair (by rw [hReturn]; rfl)]
    | cons v raw =>
      have hNext : u = 0x0d → (v :: raw ++ rest).head? ≠ some 0x0a := by
        rintro - hHead
        exact hRaw (Option.some.inj hHead ▸ List.mem_cons_self)
      rw [List.cons_append, splitLines_cons hu hNext, ih hRaw _ fun hLast => hPair (by rw [List.getLast?_cons_cons]; exact hLast),
        List.append_assoc, List.singleton_append]

theorem splitLines_of_not_mem {t : CodeUnits} (h : 0x0a ∉ t) (line : CodeUnits) : splitLines line t = [line ++ t] := by
  have hWhole : splitLines line (t ++ []) = splitLines (line ++ t) [] := splitLines_append h line nofun
  rwa [List.append_nil] at hWhole

theorem splitLines_break {raw : CodeUnits} (h : 0x0a ∉ raw) (line rest : CodeUnits) :
    splitLines line (raw ++ 0x0a :: rest) = (line ++ (endLine 0x0d 0x0a raw).content) :: splitLines [] rest := by
  obtain ⟨front, rfl, hEnd⟩ | ⟨hOther, hEnd⟩ := endLine_cases 0x0d 0x0a raw
  · have hFront : 0x0a ∉ front := fun hMem => h (List.mem_append_left _ hMem)
    rw [hEnd, List.append_assoc, List.singleton_append, splitLines_append hFront line fun _ => by simp, splitLines]
  · rw [hEnd, splitLines_append h line fun hReturn => absurd hReturn hOther, splitLines]

theorem splitLines_eq_endedLines (t : CodeUnits) : splitLines [] t = (endedLines 0x0d 0x0a t).map (·.content) := by
  induction t using breakInduction 0x0a with
  | hPlain t h =>
    rw [splitLines_of_not_mem h, endedLines_of_not_mem h]
    rfl
  | hBreak raw rest h ih =>
    rw [splitLines_break h, endedLines_break h, ih]
    rfl

end Library.EndedLines
