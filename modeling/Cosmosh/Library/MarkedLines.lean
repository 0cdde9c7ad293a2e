import Cosmosh.Library.MarkedBlock
import Cosmosh.Library.TextLines

/-! # Lines and blocks of a marked text -/

namespace Library.Markers

variable {α : Type} (m : Markers α)

theorem not_prefix_break {p : List α} (hHead : p.head? = m.start.head?) (hp : p ≠ []) {c : α} (hc : m.isBreak c = true) (s : List α) :
    ¬ p <+: c :: s := by
  obtain ⟨d, rest, rfl⟩ := List.exists_cons_of_ne_nil hp
  intro hPrefix
  obtain ⟨rfl, -⟩ := List.cons_prefix_cons.mp hPrefix
  have hOther := m.break_head d (hHead ▸ rfl)
  rw [hOther] at hc
  cases hc

variable [DecidableEq α]

def masked (s : List α) : List (Option α) :=
  match _hStop : cut m.stop s with
  | none => s.map some
  | some (upTo, after) =>
    (match cutLast m.start upTo with
      | some (before, _) => before.map some ++ [none]
      | none => (upTo ++ m.stop).map some) ++ masked after
termination_by s.length
decreasing_by
  have hLength := List.length_pos_iff.mpr m.isMarker_stop.nonempty
  rw [(cut_eq_some m.isMarker_stop.nonempty _hStop).1, List.length_append, List.length_append]
  omega

theorem masked_of_none {s : List α} (h : cut m.stop s = none) : m.masked s = s.map some := by
  rw [masked]
  split
  · rfl
  · next hStop => rw [h] at hStop; cases hStop

theorem masked_of_some {s upTo after : List α} (h : cut m.stop s = some (upTo, after)) : m.masked s = (match cutLast m.start upTo with
        | some (before, _) => before.map some ++ [none]
        | none => (upTo ++ m.stop).map some) ++ m.masked after := by
  rw [masked]
  split
  · next hStop => rw [h] at hStop; cases hStop
  · next hStop =>
    rw [h] at hStop
    cases hStop
    rfl

theorem masked_break {c : α} (hc : m.isBreak c = true) (s : List α) : m.masked (c :: s) = some c :: m.masked s := by
  have hStop : cut m.stop (c :: s) = (cut m.stop s).map fun pair => (c :: pair.1, pair.2) := by
    rw [cut, if_neg (m.not_prefix_break m.same_head.symm m.isMarker_stop.nonempty hc s)]
  cases hCut : cut m.stop s with
  | none => rw [m.masked_of_none hCut, m.masked_of_none (by rw [hStop, hCut]; rfl), List.map_cons]
  | some pair =>
    obtain ⟨upTo, after⟩ := pair
    rw [hCut, Option.map_some] at hStop
    rw [m.masked_of_some hCut, m.masked_of_some hStop, cutLast]
    cases cutLast m.start upTo with
    | none =>
      dsimp only
      rw [if_neg (m.not_prefix_break rfl m.isMarker_start.nonempty hc upTo)]
      rfl
    | some pair => rfl

theorem masked_append_breaks {breaks : List α} (h : ∀ c ∈ breaks, m.isBreak c = true) (s : List α) :
    m.masked (breaks ++ s) = breaks.map some ++ m.masked s := by
  induction breaks with
  | nil => rfl
  | cons c breaks ih =>
    obtain ⟨hc, hBreaks⟩ := List.forall_mem_cons.mp h
    rw [List.cons_append, m.masked_break hc, ih hBreaks, List.map_cons, List.cons_append]

theorem masked_block {front b : List α} (hFront : m.Free front) (hb : m.Free b) (t : List α) :
    m.masked (front ++ (m.block b ++ t)) = front.map some ++ none :: some m.newline :: m.masked t := by
  have hInside : ¬ m.start <:+: m.newline :: b := m.not_infix_cons_newline m.isMarker_start.nonempty m.newline_not_mem_start hb.start
  rw [m.masked_of_some (m.cut_stop_block hFront.stop hb t), m.isMarker_start.cutLast_of_not_infix hInside, m.masked_break m.break_newline,
    List.append_assoc]
  rfl

theorem Free.masked {s : List α} (h : m.Free s) : m.masked s = s.map some :=
  m.masked_of_none ((cut_eq_none m.isMarker_stop.nonempty).mpr h.stop)

def linesBefore (s : List α) : List (List (Option α)) := (lines (some m.newline) (m.masked s)).takeWhile (isWhole none)

def linesAfter (s : List α) : List (List (Option α)) := ((lines (some m.newline) (m.masked s)).dropWhile (isWhole none)).filter (isWhole none)

structure KeepsLines (s r : List α) : Prop where
  before : (m.linesBefore s).Sublist (m.linesBefore r)
  after : (m.linesAfter s).Sublist (m.linesAfter r)

section

variable {m}

theorem linesBefore_of_masked {s t : List α} {z : List (Option α)} (h : m.masked s = t.map some ++ none :: z) :
    m.linesBefore s = completed (some m.newline) (t.map some) := by
  rw [linesBefore, h, takeWhile_lines (Option.some_ne_none m.newline).symm (by simp)]

theorem linesAfter_of_masked {s t : List α} {z : List (Option α)} (h : m.masked s = t.map some ++ none :: z) :
    m.linesAfter s = (lines (some m.newline) (afterNewline (some m.newline) z)).filter (isWhole none) := by
  have hGap : none ≠ some m.newline := (Option.some_ne_none m.newline).symm
  have hClean : none ∉ t.map some := by simp
  obtain ⟨line, hLine, hDrop⟩ := dropWhile_lines hGap hClean z
  rw [linesAfter, h, hDrop, List.filter_cons_of_neg (by simp [hLine])]

theorem Free.not_mem_line {s : List α} (h : m.Free s) : ∀ line ∈ lines (some m.newline) (m.masked s), none ∉ line := by
  intro line hLine hNone
  have hMem := mem_of_mem_lines hLine hNone
  rw [h.masked, List.mem_map] at hMem
  obtain ⟨c, -, hc⟩ := hMem
  cases hc

theorem Free.linesBefore {s : List α} (h : m.Free s) : m.linesBefore s = lines (some m.newline) (s.map some) := by
  rw [Markers.linesBefore, List.takeWhile_eq_self_iff.mpr]
  · rw [h.masked]
  · exact fun line hLine => isWhole_iff.mpr (h.not_mem_line line hLine)

theorem Free.linesAfter {s : List α} (h : m.Free s) : m.linesAfter s = [] := by
  rw [Markers.linesAfter, List.dropWhile_eq_nil_iff.mpr, List.filter_nil]
  exact fun line hLine => isWhole_iff.mpr (h.not_mem_line line hLine)

end

def upToLastStart (s : List α) : List α :=
  match cut m.stop s with
  | none => s
  | some (upTo, _) =>
    match cutLast m.start upTo with
    | none => upTo
    | some (before, _) => before

def BreaksKept (after : List α) : Prop :=
  let breaks := afterNewline m.newline (after.takeWhile m.isBreak)
  breaks = [] ∨ (m.newline ∉ breaks ∧
    ∃ line ∈ (lines (some m.newline) (m.masked (after.dropWhile m.isBreak))).head?, none ∈ line)

def Settled (separator : List α → List α) (s : List α) : Prop :=
  match m.region s with
  | none => m.Free s ∧ (separator s = [] → s = [] ∨ ∃ front, s = front ++ [m.newline])
  | some (before, after) => m.newline ∉ (m.upToLastStart s).drop before.length ∧ m.BreaksKept after

theorem masked_of_region {s before after : List α} (h : m.region s = some (before, after)) :
    ∃ more, m.upToLastStart s = before ++ more ∧ m.masked s = (before ++ more).map some ++ none :: m.masked after := by
  obtain ⟨inside, hText, hBefore, hInside⟩ := m.region_eq_some h
  have hStop : cut m.stop s = some (before ++ (m.start ++ inside), after) := by
    have hParts : s = (before ++ (m.start ++ inside)) ++ (m.stop ++ after) := by
      rw [hText, List.append_assoc, List.append_assoc]
    rw [hParts]
    exact m.isMarker_stop.cut_of_not_infix hInside after
  cases hStart : cutLast m.start (m.start ++ inside) with
  | none => exact absurd (List.prefix_append m.start inside).isInfix ((cutLast_eq_none m.isMarker_start.nonempty).mp hStart)
  | some pair =>
    obtain ⟨more, rest⟩ := pair
    have hLast := cutLast_append_of_some hStart before
    refine ⟨more, ?_, ?_⟩
    · rw [upToLastStart, hStop]
      dsimp only
      rw [hLast]
    · rw [m.masked_of_some hStop, hLast, List.append_assoc]
      rfl

theorem keepsLines_placed_iff {s before after : List α} (h : m.region s = some (before, after)) {b : List α} (hb : m.Free b) :
    m.KeepsLines s (before ++ (m.block b ++ after.dropWhile m.isBreak)) ↔
      m.newline ∉ (m.upToLastStart s).drop before.length ∧ m.BreaksKept after := by
  obtain ⟨inside, -, hFree, -⟩ := m.region_eq_some h
  obtain ⟨more, hUpTo, hOld⟩ := m.masked_of_region h
  have hNew := m.masked_block hFree hb (after.dropWhile m.isBreak)
  have hBefore : (m.linesBefore s).Sublist (m.linesBefore (before ++ (m.block b ++ after.dropWhile m.isBreak))) ↔ m.newline ∉ more := by
    rw [linesBefore_of_masked hOld, linesBefore_of_masked hNew, List.map_append, completed_append_sublist_iff]
    simp
  have hAfter : (m.linesAfter s).Sublist (m.linesAfter (before ++ (m.block b ++ after.dropWhile m.isBreak))) ↔ m.BreaksKept after := by
    have hBreaks : ∀ c ∈ after.takeWhile m.isBreak, m.isBreak c = true := fun c hc => List.mem_takeWhile_imp hc
    have hMasked := m.masked_append_breaks hBreaks (after.dropWhile m.isBreak)
    rw [List.takeWhile_append_dropWhile] at hMasked
    rw [linesAfter_of_masked hOld, linesAfter_of_masked hNew, hMasked, afterNewline_newline, afterNewline_append, BreaksKept,
      afterNewline_map_some]
    split
    · next hMem =>
      rw [filter_lines_sublist_iff (by simp), List.map_eq_nil_iff]
      simp only [List.mem_map, Option.some_inj, exists_eq_right]
    · next hMem =>
      have hNone : m.newline ∉ after.takeWhile m.isBreak := fun hNewline => hMem (List.mem_map_of_mem hNewline)
      rw [afterNewline_of_not_mem hNone, ← tail_lines]
      exact iff_of_true ((List.tail_sublist _).filter _) (.inl rfl)
  rw [hUpTo, List.drop_left]
  constructor
  · intro hKeeps
    exact ⟨hBefore.mp hKeeps.before, hAfter.mp hKeeps.after⟩
  · rintro ⟨hMore, hKept⟩
    exact ⟨hBefore.mpr hMore, hAfter.mpr hKept⟩

section

variable {separator : List α → List α} (hSeparator : ∀ s, separator s = [] ∨ separator s = [m.newline])

include hSeparator

theorem keepsLines_free_iff {s : List α} (hs : m.Free s) {b : List α} (hb : m.Free b) :
    m.KeepsLines s (s ++ (separator s ++ m.block b)) ↔ (separator s = [] → s = [] ∨ ∃ front, s = front ++ [m.newline]) := by
  have hText : s ++ (separator s ++ m.block b) = (s ++ separator s) ++ (m.block b ++ []) := by simp
  have hNew := m.masked_block (hs.append_separator m hSeparator s) hb []
  have hAfter : (m.linesAfter s).Sublist (m.linesAfter (s ++ (separator s ++ m.block b))) := by
    rw [hs.linesAfter]
    exact List.nil_sublist _
  have hBefore : (m.linesBefore s).Sublist (m.linesBefore (s ++ (separator s ++ m.block b))) ↔
      (lines (some m.newline) (s.map some)).Sublist (completed (some m.newline) ((s ++ separator s).map some)) := by
    rw [hText, linesBefore_of_masked hNew, hs.linesBefore]
  have hKeeps : m.KeepsLines s (s ++ (separator s ++ m.block b)) ↔
      (lines (some m.newline) (s.map some)).Sublist (completed (some m.newline) ((s ++ separator s).map some)) := by
    rw [← hBefore]
    exact ⟨fun hBoth => hBoth.before, fun hOne => ⟨hOne, hAfter⟩⟩
  rw [hKeeps]
  obtain hNone | hNewline := hSeparator s
  · rw [hNone, List.append_nil, lines_sublist_completed_iff, List.map_eq_nil_iff]
    have hEnds : (∃ front, s.map some = front ++ [some m.newline]) ↔ ∃ front, s = front ++ [m.newline] := by
      constructor
      · rintro ⟨front, hFront⟩
        obtain ⟨a, c, rfl, -, hc⟩ := List.map_eq_append_iff.mp hFront
        obtain ⟨d, rfl, hd⟩ := List.map_eq_singleton_iff.mp hc
        exact ⟨a, by rw [Option.some.inj hd]⟩
      · rintro ⟨front, rfl⟩
        exact ⟨front.map some, List.map_append⟩
    rw [hEnds]
    exact ⟨fun h _ => h, fun h => h rfl⟩
  · rw [hNewline, List.map_append]
    exact iff_of_true (lines_prefix_completed _).sublist (fun hNil => absurd hNil (List.cons_ne_nil _ _))

theorem replaceBlock_iff (s : List α) {b : List α} (hb : m.Free b) (c : List α) :
    (m.replaceBlock separator (m.replaceBlock separator s b) b = m.replaceBlock separator s b ∧
      m.replaceBlock separator (m.replaceBlock separator s b) c = m.replaceBlock separator s c ∧
      m.KeepsLines s (m.replaceBlock separator s b)) ↔ m.Settled separator s := by
  have hKeeps : m.Ordered s → (m.KeepsLines s (m.replaceBlock separator s b) ↔ m.Settled separator s) := by
    intro hOrdered
    cases hRegion : m.region s with
    | none =>
      have hFree : m.Free s := hOrdered.resolve_right (by rw [hRegion]; nofun)
      rw [replaceBlock, Settled, hRegion]
      exact (m.keepsLines_free_iff hSeparator hFree hb).trans (and_iff_right hFree).symm
    | some pair =>
      obtain ⟨before, after⟩ := pair
      rw [replaceBlock, Settled, hRegion]
      exact m.keepsLines_placed_iff hRegion hb
  constructor
  · rintro ⟨hStable, -, hLines⟩
    by_cases hOrdered : m.Ordered s
    · exact (hKeeps hOrdered).mp hLines
    · exact absurd hStable (m.replaceBlock_unstable hSeparator hOrdered hb)
  · intro hSettled
    have hOrdered : m.Ordered s := by
      cases hRegion : m.region s with
      | none =>
        rw [Settled, hRegion] at hSettled
        exact .inl hSettled.1
      | some pair => exact .inr (by rw [hRegion]; rfl)
    exact ⟨m.replaceBlock_replaceBlock hSeparator hOrdered hb b, m.replaceBlock_replaceBlock hSeparator hOrdered hb c,
      (hKeeps hOrdered).mpr hSettled⟩

end

end Library.Markers

namespace Library.Markers

variable {α : Type} [DecidableEq α] (m : Markers α)

def blocks (s : List α) : List (List α) :=
  match _hStop : cut m.stop s with
  | none => []
  | some (upTo, after) => ((cutLast m.start upTo).map Prod.snd).toList ++ blocks after
termination_by s.length
decreasing_by
  have hLength := List.length_pos_iff.mpr m.isMarker_stop.nonempty
  rw [(cut_eq_some m.isMarker_stop.nonempty _hStop).1, List.length_append, List.length_append]
  omega

theorem blocks_of_none {s : List α} (h : cut m.stop s = none) : m.blocks s = [] := by
  rw [blocks]
  split
  · rfl
  · next hStop => rw [h] at hStop; cases hStop

theorem blocks_of_some {s upTo after : List α} (h : cut m.stop s = some (upTo, after)) :
    m.blocks s = ((cutLast m.start upTo).map Prod.snd).toList ++ m.blocks after := by
  rw [blocks]
  split
  · next hStop => rw [h] at hStop; cases hStop
  · next hStop =>
    rw [h] at hStop
    cases hStop
    rfl

theorem blocks_break {c : α} (hc : m.isBreak c = true) (s : List α) : m.blocks (c :: s) = m.blocks s := by
  have hStop : cut m.stop (c :: s) = (cut m.stop s).map fun pair => (c :: pair.1, pair.2) := by
    rw [cut, if_neg (m.not_prefix_break m.same_head.symm m.isMarker_stop.nonempty hc s)]
  cases hCut : cut m.stop s with
  | none => rw [m.blocks_of_none hCut, m.blocks_of_none (by rw [hStop, hCut]; rfl)]
  | some pair =>
    obtain ⟨upTo, after⟩ := pair
    rw [hCut, Option.map_some] at hStop
    rw [m.blocks_of_some hCut, m.blocks_of_some hStop, cutLast]
    cases cutLast m.start upTo with
    | none =>
      dsimp only
      rw [if_neg (m.not_prefix_break rfl m.isMarker_start.nonempty hc upTo)]
    | some pair => rfl

theorem blocks_dropWhile (s : List α) : m.blocks (s.dropWhile m.isBreak) = m.blocks s := by
  induction s with
  | nil => rfl
  | cons c s ih =>
    by_cases hc : m.isBreak c = true
    · rw [List.dropWhile_cons_of_pos hc, ih, m.blocks_break hc]
    · rw [List.dropWhile_cons_of_neg hc]

theorem blocks_append_block {b : List α} (hb : m.Free b) (t s : List α) :
    m.blocks (s ++ (m.block b ++ t)) = m.blocks s ++ (m.newline :: b) :: m.blocks t := by
  cases hStop : cut m.stop s with
  | none =>
    have hFront := (cut_eq_none m.isMarker_stop.nonempty).mp hStop
    have hInside : ¬ m.start <:+: m.newline :: b := m.not_infix_cons_newline m.isMarker_start.nonempty m.newline_not_mem_start hb.start
    rw [m.blocks_of_none hStop, m.blocks_of_some (m.cut_stop_block hFront hb t), m.isMarker_start.cutLast_of_not_infix hInside,
      m.blocks_break m.break_newline]
    rfl
  | some pair =>
    obtain ⟨upTo, after⟩ := pair
    have hAgain := m.isMarker_stop.cut_append_of_some hStop (m.block b ++ t)
    rw [m.blocks_of_some hStop, m.blocks_of_some hAgain, blocks_append_block hb t after, List.append_assoc]
termination_by s.length
decreasing_by
  have hLength := List.length_pos_iff.mpr m.isMarker_stop.nonempty
  rw [(cut_eq_some m.isMarker_stop.nonempty hStop).1, List.length_append, List.length_append]
  omega

theorem blocks_append_newline (s : List α) : m.blocks (s ++ [m.newline]) = m.blocks s := by
  cases hStop : cut m.stop s with
  | none =>
    have hFront := (cut_eq_none m.isMarker_stop.nonempty).mp hStop
    have hBoth := m.not_infix_append_newline m.isMarker_stop.nonempty m.newline_not_mem_stop hFront
    rw [m.blocks_of_none hStop, m.blocks_of_none ((cut_eq_none m.isMarker_stop.nonempty).mpr hBoth)]
  | some pair =>
    obtain ⟨upTo, after⟩ := pair
    rw [m.blocks_of_some hStop, m.blocks_of_some (m.isMarker_stop.cut_append_of_some hStop [m.newline]), blocks_append_newline after]
termination_by s.length
decreasing_by
  have hLength := List.length_pos_iff.mpr m.isMarker_stop.nonempty
  rw [(cut_eq_some m.isMarker_stop.nonempty hStop).1, List.length_append, List.length_append]
  omega

theorem Free.blocks {s : List α} (h : m.Free s) : m.blocks s = [] := m.blocks_of_none ((cut_eq_none m.isMarker_stop.nonempty).mpr h.stop)

theorem free_of_mem_blocks {s b : List α} (h : b ∈ m.blocks s) : m.Free b := by
  cases hStop : cut m.stop s with
  | none =>
    rw [m.blocks_of_none hStop] at h
    cases h
  | some pair =>
    obtain ⟨upTo, after⟩ := pair
    rw [m.blocks_of_some hStop] at h
    obtain hFirst | hLater := List.mem_append.mp h
    · rw [Option.mem_toList, Option.map_eq_some_iff] at hFirst
      obtain ⟨⟨before, inside⟩, hLast, rfl⟩ := hFirst
      obtain ⟨-, hUpTo⟩ := cut_eq_some m.isMarker_stop.nonempty hStop
      refine ⟨not_infix_of_cutLast m.isMarker_start.nonempty hLast, fun hInfix => hUpTo ?_⟩
      rw [cutLast_eq_some hLast]
      exact hInfix.trans ((List.suffix_append m.start inside).trans (List.suffix_append before _)).isInfix
    · exact free_of_mem_blocks hLater
termination_by s.length
decreasing_by
  have hLength := List.length_pos_iff.mpr m.isMarker_stop.nonempty
  rw [(cut_eq_some m.isMarker_stop.nonempty hStop).1, List.length_append, List.length_append]
  omega

def otherBlocks (s : List α) : List (List α) :=
  match m.region s with
  | some (_, after) => m.blocks after
  | none => m.blocks s

section

variable {separator : List α → List α} (hSeparator : ∀ s, separator s = [] ∨ separator s = [m.newline])

include hSeparator

theorem blocks_replaceBlock_iff (s : List α) {b : List α} (hb : m.Free b) :
    m.blocks (m.replaceBlock separator s b) = [m.newline :: b] ↔ m.otherBlocks s = [] := by
  rw [replaceBlock, otherBlocks]
  cases hRegion : m.region s with
  | none =>
    have hSeparated : m.blocks (s ++ separator s) = m.blocks s := by
      obtain hNone | hNewline := hSeparator s
      · rw [hNone, List.append_nil]
      · rw [hNewline, m.blocks_append_newline]
    have hText : s ++ (separator s ++ m.block b) = (s ++ separator s) ++ (m.block b ++ []) := by simp
    have hEmpty : m.blocks [] = [] := m.blocks_of_none rfl
    dsimp only
    rw [hText, m.blocks_append_block hb, hSeparated, hEmpty]
    constructor
    · intro hOne
      have hLength := congrArg List.length hOne
      simp only [List.length_append, List.length_cons] at hLength
      exact List.length_eq_zero_iff.mp (by omega)
    · intro hNone
      rw [hNone, List.nil_append]
  | some pair =>
    obtain ⟨before, after⟩ := pair
    obtain ⟨inside, -, hBefore, -⟩ := m.region_eq_some hRegion
    dsimp only
    rw [m.blocks_append_block hb, hBefore.blocks, m.blocks_dropWhile, List.nil_append, List.cons.injEq]
    exact and_iff_right rfl

theorem replaceBlock_replaceBlock_iff (s : List α) {b : List α} (hb : m.Free b) :
    m.replaceBlock separator (m.replaceBlock separator s b) b = m.replaceBlock separator s b ↔ m.Ordered s := by
  constructor
  · intro hSame
    by_contra hOrdered
    exact m.replaceBlock_unstable hSeparator hOrdered hb hSame
  · exact fun hOrdered => m.replaceBlock_replaceBlock hSeparator hOrdered hb b

end

def Placed (s b : List α) : Prop := ∃ front back, m.Free front ∧ back.dropWhile m.isBreak = back ∧ s = front ++ (m.block b ++ back)

theorem replaceBlock_eq_self_iff (separator : List α → List α) (s : List α) {b : List α} (hb : m.Free b) :
    m.replaceBlock separator s b = s ↔ m.Placed s b := by
  constructor
  · intro hSame
    rw [replaceBlock] at hSame
    cases hRegion : m.region s with
    | none =>
      rw [hRegion] at hSame
      have hNil := List.append_right_eq_self.mp hSame
      exact absurd (List.append_eq_nil_iff.mp hNil).2 (m.block_ne_nil b)
    | some pair =>
      obtain ⟨before, after⟩ := pair
      obtain ⟨inside, -, hBefore, -⟩ := m.region_eq_some hRegion
      rw [hRegion] at hSame
      exact ⟨before, after.dropWhile m.isBreak, hBefore, List.dropWhile_idempotent _ _, hSame.symm⟩
  · rintro ⟨front, back, hFront, hBack, rfl⟩
    rw [replaceBlock, m.region_block hFront hb]
    dsimp only
    rw [List.dropWhile_cons_of_pos m.break_newline, hBack]

end Library.Markers
