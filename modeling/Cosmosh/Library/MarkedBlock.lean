import Mathlib.Data.List.DropRight
import Mathlib.Tactic.ByContra
import Cosmosh.Library.Markers

/-! # Blocks between markers

A block stands on lines of its own between two markers.
-/

namespace Library

structure Markers (α : Type) where
  start : List α
  stop : List α
  newline : α
  isBreak : α → Bool
  isMarker_start : IsMarker start
  isMarker_stop : IsMarker stop
  same_head : start.head? = stop.head?
  stop_not_in_start : ¬ stop <:+: start
  newline_not_mem_start : newline ∉ start
  newline_not_mem_stop : newline ∉ stop
  break_newline : isBreak newline = true
  break_head : ∀ c ∈ start.head?, isBreak c = false

namespace Markers

variable {α : Type} (m : Markers α)

structure Free (t : List α) : Prop where
  start : ¬ m.start <:+: t
  stop : ¬ m.stop <:+: t

def block (b : List α) : List α := m.start ++ m.newline :: (b ++ (m.stop ++ [m.newline]))

theorem separate_newline {p : List α} (h : m.newline ∉ p) (t : List α) : Separate p (m.newline :: t) := by
  intro c hc hMem
  cases hc
  exact h (List.mem_of_mem_tail hMem)

theorem separate_stop (t : List α) : Separate m.stop (m.start ++ t) := by
  intro c hc
  rw [List.head?_append_of_ne_nil _ m.isMarker_start.nonempty, m.same_head] at hc
  exact m.isMarker_stop.head c hc

theorem separate_start (t : List α) : Separate m.start (m.stop ++ t) := by
  intro c hc
  rw [List.head?_append_of_ne_nil _ m.isMarker_stop.nonempty, ← m.same_head] at hc
  exact m.isMarker_start.head c hc

theorem not_infix_cons_newline {p t : List α} (hp : p ≠ []) (hNewline : m.newline ∉ p) (h : ¬ p <:+: t) : ¬ p <:+: m.newline :: t := by
  rw [List.infix_cons_iff]
  refine not_or.mpr ⟨fun hPrefix => ?_, h⟩
  obtain ⟨c, rest, rfl⟩ := List.exists_cons_of_ne_nil hp
  have hc : c = m.newline := (List.cons_prefix_cons.mp hPrefix).1
  exact hNewline (hc ▸ List.mem_cons_self)

variable {s : List α}

theorem not_infix_append_newline {p : List α} (hp : p ≠ []) (hNewline : m.newline ∉ p) (h : ¬ p <:+: s) : ¬ p <:+: s ++ [m.newline] := by
  rw [infix_append_iff hp (m.separate_newline hNewline [])]
  refine not_or.mpr ⟨h, m.not_infix_cons_newline hp hNewline ?_⟩
  rw [List.infix_nil]
  exact hp

theorem Free.append_newline (h : m.Free s) : m.Free (s ++ [m.newline]) :=
  ⟨m.not_infix_append_newline m.isMarker_start.nonempty m.newline_not_mem_start h.start,
    m.not_infix_append_newline m.isMarker_stop.nonempty m.newline_not_mem_stop h.stop⟩

variable {front b : List α}

theorem stop_not_in_front (hFront : ¬ m.stop <:+: front) (hb : m.Free b) : ¬ m.stop <:+: front ++ (m.start ++ m.newline :: b) := by
  rw [infix_append_iff m.isMarker_stop.nonempty (m.separate_stop _),
    infix_append_iff m.isMarker_stop.nonempty (m.separate_newline m.newline_not_mem_stop b)]
  exact not_or.mpr ⟨hFront, not_or.mpr ⟨m.stop_not_in_start,
    m.not_infix_cons_newline m.isMarker_stop.nonempty m.newline_not_mem_stop hb.stop⟩⟩

theorem block_ne_nil (b : List α) : m.block b ≠ [] := by
  rw [block, ← List.length_pos_iff, List.length_append, List.length_cons]
  omega

theorem Free.append_separator {separator : List α → List α} (hSeparator : ∀ s, separator s = [] ∨ separator s = [m.newline])
    (h : m.Free s) (t : List α) : m.Free (s ++ separator t) := by
  obtain hNone | hNewline := hSeparator t
  · rwa [hNone, List.append_nil]
  · rw [hNewline]
    exact h.append_newline

variable [DecidableEq α]

def region (s : List α) : Option (List α × List α) :=
  match cut m.start s, cut m.stop s with
  | some (before, _), some (upTo, after) => if before.length < upTo.length then some (before, after) else none
  | _, _ => none

theorem cut_stop_block (hFront : ¬ m.stop <:+: front) (hb : m.Free b) (t : List α) :
    cut m.stop (front ++ (m.block b ++ t)) = some (front ++ (m.start ++ m.newline :: b), m.newline :: t) := by
  have hText : front ++ (m.block b ++ t) = (front ++ (m.start ++ m.newline :: b)) ++ (m.stop ++ m.newline :: t) := by
    simp [block]
  rw [hText]
  exact m.isMarker_stop.cut_of_not_infix (m.stop_not_in_front hFront hb) _

theorem cut_start_block (hFront : ¬ m.start <:+: front) (t : List α) :
    ∃ after, cut m.start (front ++ (m.block b ++ t)) = some (front, after) := by
  have hText : front ++ (m.block b ++ t) = front ++ (m.start ++ (m.newline :: (b ++ (m.stop ++ [m.newline])) ++ t)) := by
    simp [block]
  rw [hText]
  exact ⟨_, m.isMarker_start.cut_of_not_infix hFront _⟩

theorem region_block (hFront : m.Free front) (hb : m.Free b) (t : List α) :
    m.region (front ++ (m.block b ++ t)) = some (front, m.newline :: t) := by
  obtain ⟨after, hStart⟩ := m.cut_start_block (b := b) hFront.start t
  have hLength : front.length < (front ++ (m.start ++ m.newline :: b)).length := by
    rw [List.length_append, List.length_append, List.length_cons]
    omega
  rw [region, hStart, m.cut_stop_block hFront.stop hb t]
  exact if_pos hLength

theorem region_eq_some {before after : List α} (h : m.region s = some (before, after)) :
    ∃ inside, s = before ++ (m.start ++ (inside ++ (m.stop ++ after))) ∧ m.Free before ∧ ¬ m.stop <:+: before ++ (m.start ++ inside) := by
  rw [region] at h
  split at h
  · next x rest u y hStart hStop =>
    split at h
    · next hLess =>
      cases h
      obtain ⟨hText, hBefore⟩ := cut_eq_some m.isMarker_start.nonempty hStart
      obtain ⟨hText', hUpTo⟩ := cut_eq_some m.isMarker_stop.nonempty hStop
      have hInfix : m.start <:+: u := by
        -- otherwise the start comes behind what stands before the end
        by_contra hNot
        rw [hText', cut_append hNot (m.separate_start after), Option.map_eq_some_iff] at hStart
        obtain ⟨⟨front, back⟩, -, hSame⟩ := hStart
        cases hSame
        rw [List.length_append] at hLess
        omega
      cases hInner : cut m.start u with
      | none => exact absurd hInfix ((cut_eq_none m.isMarker_start.nonempty).mp hInner)
      | some pair =>
        obtain ⟨front, inside⟩ := pair
        have hSame := m.isMarker_start.cut_append_of_some hInner (m.stop ++ after)
        rw [← hText', hStart, Option.some_inj] at hSame
        cases hSame
        obtain ⟨hu, -⟩ := cut_eq_some m.isMarker_start.nonempty hInner
        refine ⟨inside, by rw [hText', hu]; simp, ⟨hBefore, fun hStopInside => hUpTo ?_⟩, hu ▸ hUpTo⟩
        rw [hu]
        exact hStopInside.trans (List.prefix_append _ _).isInfix
    · cases h
  · cases h

theorem region_eq_none (h : m.region s = none) : m.Free s ∨ (∃ before after, cut m.start s = some (before, after) ∧ cut m.stop s = none) ∨
      ∃ upTo after, cut m.stop s = some (upTo, after) ∧ ∀ before rest, cut m.start s = some (before, rest) → upTo.length ≤ before.length := by
  rw [region] at h
  cases hStop : cut m.stop s with
  | none =>
    cases hStart : cut m.start s with
    | none => exact .inl ⟨(cut_eq_none m.isMarker_start.nonempty).mp hStart, (cut_eq_none m.isMarker_stop.nonempty).mp hStop⟩
    | some pair => exact .inr (.inl ⟨pair.1, pair.2, rfl, rfl⟩)
  | some pair =>
    obtain ⟨upTo, after⟩ := pair
    refine .inr (.inr ⟨upTo, after, rfl, fun before rest hStart => ?_⟩)
    rw [hStart, hStop] at h
    by_contra hLess
    dsimp only at h
    rw [if_pos (by omega)] at h
    cases h

section

variable (separator : List α → List α)

def replaceBlock (s b : List α) : List α :=
  match m.region s with
  | some (before, after) => before ++ (m.block b ++ after.dropWhile m.isBreak)
  | none => s ++ (separator s ++ m.block b)

def Ordered (s : List α) : Prop := m.Free s ∨ (m.region s).isSome

theorem Free.region (h : m.Free s) : m.region s = none := by
  rw [Markers.region, (cut_eq_none m.isMarker_start.nonempty).mpr h.start]

variable {separator} (hSeparator : ∀ s, separator s = [] ∨ separator s = [m.newline])

include hSeparator

theorem replaceBlock_replaceBlock (h : m.Ordered s) (hb : m.Free b) (c : List α) :
    m.replaceBlock separator (m.replaceBlock separator s b) c = m.replaceBlock separator s c := by
  have hBreak : ∀ t : List α, (m.newline :: t.dropWhile m.isBreak).dropWhile m.isBreak = t.dropWhile m.isBreak := by
    intro t
    rw [List.dropWhile_cons_of_pos m.break_newline, List.dropWhile_idempotent]
  obtain hFree | hPlace := h
  · have hFirst : ∀ d, m.replaceBlock separator s d = (s ++ separator s) ++ (m.block d ++ []) := by
      intro d
      rw [replaceBlock, hFree.region, List.append_nil, List.append_assoc]
    have hRegion := m.region_block (hFree.append_separator m hSeparator s) hb []
    have hEnd := hBreak []
    rw [List.dropWhile_nil] at hEnd
    rw [hFirst b, replaceBlock, hRegion, hFirst c]
    dsimp only
    rw [hEnd]
  · obtain ⟨⟨before, after⟩, hRegion⟩ := Option.isSome_iff_exists.mp hPlace
    obtain ⟨inside, -, hBefore, -⟩ := m.region_eq_some hRegion
    have hFirst : ∀ d, m.replaceBlock separator s d = before ++ (m.block d ++ after.dropWhile m.isBreak) := by
      intro d
      rw [replaceBlock, hRegion]
    rw [hFirst b, replaceBlock, m.region_block hBefore hb, hFirst c]
    dsimp only
    rw [hBreak]

theorem replaceBlock_unstable (h : ¬ m.Ordered s) (hb : m.Free b) :
    m.replaceBlock separator (m.replaceBlock separator s b) b ≠ m.replaceBlock separator s b := by
  obtain ⟨hNotFree, hNoPlace⟩ := not_or.mp h
  have hRegion : m.region s = none := by simpa using hNoPlace
  have hFirst : m.replaceBlock separator s b = s ++ (separator s ++ m.block b) := by rw [replaceBlock, hRegion]
  intro hSame
  have hLength := congrArg List.length hSame
  have hBlock := List.length_pos_iff.mpr (m.block_ne_nil b)
  obtain hFree | ⟨before, after, hStart, hStop⟩ | ⟨upTo, after, hStop, hOrder⟩ := m.region_eq_none hRegion
  · exact hNotFree hFree
  · have hNoStop := (cut_eq_none m.isMarker_stop.nonempty).mp hStop
    have hText : m.replaceBlock separator s b = (s ++ separator s) ++ (m.block b ++ []) := by
      rw [hFirst, List.append_nil, List.append_assoc]
    have hFront : ¬ m.stop <:+: s ++ separator s := by
      obtain hNone | hNewline := hSeparator s
      · rwa [hNone, List.append_nil]
      · rw [hNewline]
        exact m.not_infix_append_newline m.isMarker_stop.nonempty m.newline_not_mem_stop hNoStop
    have hShort : before.length < s.length := by
      have hStartLength := List.length_pos_iff.mpr m.isMarker_start.nonempty
      rw [(cut_eq_some m.isMarker_start.nonempty hStart).1, List.length_append, List.length_append]
      omega
    have hPlace : m.region (m.replaceBlock separator s b) = some (before, [m.newline]) := by
      rw [region, hText, m.cut_stop_block hFront hb, List.append_assoc, m.isMarker_start.cut_append_of_some hStart]
      refine if_pos ?_
      rw [List.length_append, List.length_append]
      omega
    rw [replaceBlock, hPlace, hFirst] at hLength
    simp only [List.dropWhile_cons_of_pos m.break_newline, List.dropWhile_nil, List.append_nil, List.length_append] at hLength
    omega
  · have hPlace : m.region (m.replaceBlock separator s b) = none := by
      rw [region, hFirst, m.isMarker_stop.cut_append_of_some hStop]
      cases hStart : cut m.start (s ++ (separator s ++ m.block b)) with
      | none => rfl
      | some pair =>
        obtain ⟨before, rest⟩ := pair
        refine if_neg (Nat.not_lt.mpr ?_)
        cases hOwn : cut m.start s with
        | none =>
          have hSeparate : Separate m.start (separator s ++ m.block b) := by
            obtain hNone | hNewline := hSeparator s
            · rw [hNone]
              exact m.isMarker_start.separate _
            · rw [hNewline]
              exact m.separate_newline m.newline_not_mem_start _
          have hNoStart := (cut_eq_none m.isMarker_start.nonempty).mp hOwn
          rw [cut_append hNoStart hSeparate, Option.map_eq_some_iff] at hStart
          obtain ⟨⟨front, back⟩, -, hSame⟩ := hStart
          cases hSame
          rw [(cut_eq_some m.isMarker_stop.nonempty hStop).1, List.length_append, List.length_append]
          omega
        | some own =>
          obtain ⟨ownBefore, ownRest⟩ := own
          rw [m.isMarker_start.cut_append_of_some hOwn, Option.some_inj] at hStart
          cases hStart
          exact hOrder _ _ hOwn
    rw [replaceBlock, hPlace, hFirst] at hLength
    simp only [List.length_append] at hLength
    omega

end

end Markers

end Library
