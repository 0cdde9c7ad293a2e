import Mathlib.Algebra.GroupWithZero.Nat
import Mathlib.Data.List.Basic
import Mathlib.Data.List.Infix

/-! # Frames in a text

A frame is an introducer and a payload that ends with the first prefix that `ends` accepts.
-/

namespace Library

variable {α : Type}

variable {payload text : List α} {c : α}

section Ends

variable (ends : List α → Bool)

/-- The text behind the first end, where `read` has been read before. -/
def afterFrame (read : List α) : List α → Option (List α)
  | [] => none
  | c :: text => if ends (read ++ [c]) then some text else afterFrame (read ++ [c]) text

theorem afterFrame_cons (read : List α) (c : α) (text : List α) : afterFrame ends read (c :: text) =
    if ends (read ++ [c]) then some text else afterFrame ends (read ++ [c]) text := rfl

def Unfinished (payload : List α) : Prop := afterFrame ends [] payload = none

def Complete (payload : List α) : Prop := afterFrame ends [] payload = some []

variable {ends}

variable {read : List α}

theorem afterFrame_append_of_none (h : afterFrame ends read payload = none) (text : List α) :
    afterFrame ends read (payload ++ text) = afterFrame ends (read ++ payload) text := by
  induction payload generalizing read with
  | nil => rw [List.append_nil, List.nil_append]
  | cons c payload ih =>
    rw [afterFrame_cons] at h
    rw [List.cons_append, afterFrame_cons]
    split at h
    · cases h
    · rename_i hEnds
      rw [if_neg hEnds, ih h, List.append_assoc]
      rfl

variable {rest : List α}

theorem afterFrame_append_of_some (h : afterFrame ends read payload = some rest) (text : List α) :
    afterFrame ends read (payload ++ text) = some (rest ++ text) := by
  induction payload generalizing read with
  | nil => cases h
  | cons c payload ih =>
    rw [afterFrame_cons] at h
    rw [List.cons_append, afterFrame_cons]
    split at h
    · rename_i hEnds
      rw [if_pos hEnds, Option.some.inj h]
    · rename_i hEnds
      rw [if_neg hEnds, ih h]

theorem length_afterFrame (h : afterFrame ends read payload = some rest) : rest.length < payload.length := by
  induction payload generalizing read with
  | nil => cases h
  | cons c payload ih =>
    rw [afterFrame_cons] at h
    rw [List.length_cons]
    split at h
    · rw [Option.some.inj h]
      omega
    · have hRest := ih h
      omega

@[simp] theorem unfinished_nil : Unfinished ends [] := rfl

theorem unfinished_append_singleton : Unfinished ends (payload ++ [c]) ↔ Unfinished ends payload ∧ ends (payload ++ [c]) = false := by
  change afterFrame ends [] _ = none ↔ afterFrame ends [] _ = none ∧ _
  cases hPayload : afterFrame ends [] payload with
  | none =>
    rw [afterFrame_append_of_none hPayload, List.nil_append, afterFrame_cons]
    cases ends (payload ++ [c]) <;> simp [afterFrame]
  | some rest =>
    rw [afterFrame_append_of_some hPayload]
    constructor
    · nofun
    · rintro ⟨h, -⟩
      cases h

theorem complete_append_singleton (h : Unfinished ends payload) : Complete ends (payload ++ [c]) ↔ ends (payload ++ [c]) = true := by
  change afterFrame ends [] _ = some [] ↔ _
  rw [afterFrame_append_of_none h, List.nil_append, afterFrame_cons]
  cases ends (payload ++ [c]) <;> simp [afterFrame]

theorem Unfinished.of_append (h : Unfinished ends (payload ++ text)) : Unfinished ends payload := by
  change afterFrame ends [] _ = none at h ⊢
  cases hPayload : afterFrame ends [] payload with
  | none => rfl
  | some rest =>
    rw [afterFrame_append_of_some hPayload] at h
    cases h

theorem afterFrame_split (h : afterFrame ends read text = some rest) :
    ∃ payload, text = payload ++ rest ∧ afterFrame ends read payload = some [] := by
  induction text generalizing read with
  | nil => cases h
  | cons c text ih =>
    rw [afterFrame_cons] at h
    split at h
    · rename_i hEnds
      refine ⟨[c], by rw [Option.some.inj h]; rfl, ?_⟩
      rw [afterFrame_cons, if_pos hEnds]
    · rename_i hEnds
      obtain ⟨payload, hText, hPayload⟩ := ih h
      refine ⟨c :: payload, by rw [hText]; rfl, ?_⟩
      rw [afterFrame_cons, if_neg hEnds]
      exact hPayload

variable (ends) in
theorem unfinished_or_complete (text : List α) : Unfinished ends text ∨ ∃ payload rest, text = payload ++ rest ∧ Complete ends payload := by
  cases hText : afterFrame ends [] text with
  | none => exact .inl hText
  | some rest =>
    obtain ⟨payload, hSplit, hComplete⟩ := afterFrame_split hText
    exact .inr ⟨payload, rest, hSplit, hComplete⟩

theorem Complete.split (h : Complete ends payload) : ∃ body c, payload = body ++ [c] ∧ Unfinished ends body ∧ ends (body ++ [c]) = true := by
  induction payload using List.reverseRecOn with
  | nil => cases h
  | append_singleton body c _ =>
    obtain hBody | ⟨front, rest, rfl, hFront⟩ := unfinished_or_complete ends body
    · exact ⟨body, c, rfl, hBody, (complete_append_singleton hBody).mp h⟩
    · change afterFrame ends [] _ = some [] at h
      rw [List.append_assoc, afterFrame_append_of_some hFront] at h
      simp at h

end Ends

theorem pattern_cases [DecidableEq α] (pattern text : List α) : (∃ n < pattern.length, text = pattern.take n) ∨
      (∃ n < pattern.length, ∃ c rest, text = pattern.take n ++ c :: rest ∧ pattern[n]? ≠ some c) ∨ ∃ body, text = pattern ++ body := by
  induction pattern generalizing text with
  | nil => exact .inr (.inr ⟨text, rfl⟩)
  | cons p pattern ih =>
    cases text with
    | nil => exact .inl ⟨0, Nat.zero_lt_succ _, rfl⟩
    | cons c text =>
      by_cases hHead : p = c
      · subst hHead
        obtain ⟨n, hn, rfl⟩ | ⟨n, hn, c, rest, rfl, hc⟩ | ⟨body, rfl⟩ := ih text
        · exact .inl ⟨n + 1, Nat.succ_lt_succ hn, rfl⟩
        · exact .inr (.inl ⟨n + 1, Nat.succ_lt_succ hn, c, rest, rfl, hc⟩)
        · exact .inr (.inr ⟨body, rfl⟩)
      · refine .inr (.inl ⟨0, Nat.zero_lt_succ _, c, text, rfl, ?_⟩)
        rintro ⟨⟩
        exact hHead rfl

structure Framing (α : Type) where
  head : α
  tail : List α
  head_notMem_tail : head ∉ tail
  ends : List α → Bool
  ends_append : ∀ {payload : List α} (front : List α), ends payload = true → ends (front ++ payload) = true
  size : α → Nat
  limit : Nat

namespace Framing

variable (framing : Framing α)

def introducer : List α := framing.head :: framing.tail

def Oversized (payload : List α) : Prop := framing.limit < (payload.map framing.size).sum

instance (payload : List α) : Decidable (framing.Oversized payload) :=
  inferInstanceAs (Decidable (framing.limit < (payload.map framing.size).sum))

def Removes (text : List α) : Prop :=
  ∃ payload, text = framing.introducer ++ payload ∧ (¬Unfinished framing.ends payload ∨ framing.Oversized payload)

section

variable {framing}

theorem Oversized.append (h : framing.Oversized payload) (front rest : List α) : framing.Oversized (front ++ (payload ++ rest)) := by
  rw [Oversized] at h ⊢
  rw [List.map_append, List.map_append, List.sum_append, List.sum_append]
  omega

theorem unfinished_of_append {front : List α} (h : Unfinished framing.ends (front ++ text)) : Unfinished framing.ends text := by
  obtain hText | ⟨payload, rest, rfl, hComplete⟩ := unfinished_or_complete framing.ends text
  · exact hText
  · obtain ⟨body, c, rfl, -, hEnds⟩ := hComplete.split
    rw [← List.append_assoc, ← List.append_assoc] at h
    have hNot := (unfinished_append_singleton.mp h.of_append).2
    rw [List.append_assoc, framing.ends_append front hEnds] at hNot
    cases hNot

theorem Removes.append (h : framing.Removes text) (rest : List α) : framing.Removes (text ++ rest) := by
  obtain ⟨payload, rfl, hPayload⟩ := h
  refine ⟨payload ++ rest, List.append_assoc _ _ _, ?_⟩
  obtain hEnded | hOversized := hPayload
  · exact .inl fun hUnfinished => hEnded hUnfinished.of_append
  · exact .inr (hOversized.append [] rest)

end

variable [DecidableEq α]

def removeFrames : List α → List α
  | [] => []
  | c :: text =>
    if framing.introducer.isPrefixOf (c :: text) then
      match _hAfter : afterFrame framing.ends [] (text.drop framing.tail.length) with
      | some rest => removeFrames rest
      | none => if framing.Oversized (text.drop framing.tail.length) then [] else c :: text
    else c :: removeFrames text
  termination_by text => text.length
  decreasing_by
  · have hLength := length_afterFrame _hAfter
    rw [List.length_drop] at hLength
    rw [List.length_cons]
    omega
  · simp

variable {framing}

theorem removeFrames_nil : framing.removeFrames [] = [] := by rw [removeFrames]

theorem removeFrames_complete (h : Complete framing.ends payload) (rest : List α) :
    framing.removeFrames (framing.introducer ++ (payload ++ rest)) = framing.removeFrames rest := by
  have hPrefix : framing.introducer.isPrefixOf (framing.head :: (framing.tail ++ (payload ++ rest))) = true := by
    rw [List.isPrefixOf_iff_prefix]
    exact ⟨payload ++ rest, rfl⟩
  have hDrop : (framing.tail ++ (payload ++ rest)).drop framing.tail.length = payload ++ rest := List.drop_left
  have hAfter : afterFrame framing.ends [] (payload ++ rest) = some rest := afterFrame_append_of_some h rest
  show framing.removeFrames (framing.head :: (framing.tail ++ (payload ++ rest))) = _
  rw [removeFrames, if_pos hPrefix]
  split
  · rename_i found hFound
    rw [hDrop, hAfter] at hFound
    rw [Option.some.inj hFound]
  · rename_i hNone
    rw [hDrop, hAfter] at hNone
    cases hNone

theorem removeFrames_unfinished (h : Unfinished framing.ends payload) : framing.removeFrames (framing.introducer ++ payload) =
      if framing.Oversized payload then [] else framing.introducer ++ payload := by
  have hPrefix : framing.introducer.isPrefixOf (framing.head :: (framing.tail ++ payload)) = true := by
    rw [List.isPrefixOf_iff_prefix]
    exact ⟨payload, rfl⟩
  have hDrop : (framing.tail ++ payload).drop framing.tail.length = payload := List.drop_left
  show framing.removeFrames (framing.head :: (framing.tail ++ payload)) = _
  rw [removeFrames, if_pos hPrefix]
  split
  · rename_i found hFound
    rw [hDrop, h] at hFound
    cases hFound
  · rw [hDrop]
    rfl

theorem removeFrames_of_no_introducer (h : ¬framing.introducer <+: c :: text) :
    framing.removeFrames (c :: text) = c :: framing.removeFrames text := by
  rw [removeFrames, if_neg]
  rwa [List.isPrefixOf_iff_prefix]

theorem removeFrames_of_ne_head (h : c ≠ framing.head) (text : List α) : framing.removeFrames (c :: text) = c :: framing.removeFrames text := by
  apply removeFrames_of_no_introducer
  rintro ⟨rest, hRest⟩
  exact h (List.cons.inj hRest).1.symm

theorem removeFrames_append_of_notMem {front : List α} (h : framing.head ∉ front) (text : List α) :
    framing.removeFrames (front ++ text) = front ++ framing.removeFrames text := by
  induction front with
  | nil => rfl
  | cons c front ih =>
    rw [List.mem_cons, not_or] at h
    rw [List.cons_append, removeFrames_of_ne_head (Ne.symm h.1), ih h.2]
    rfl

theorem removeFrames_of_unfinished (h : Unfinished framing.ends text) (hSize : ¬framing.Oversized text) : framing.removeFrames text = text := by
  induction text with
  | nil => exact removeFrames_nil
  | cons c text ih =>
    by_cases hPrefix : framing.introducer <+: c :: text
    · obtain ⟨payload, hPayload⟩ := hPrefix
      rw [← hPayload] at h hSize ⊢
      have hFits : ¬framing.Oversized payload := by
        intro hOversized
        have hWhole := hOversized.append framing.introducer []
        rw [List.append_nil] at hWhole
        exact hSize hWhole
      rw [removeFrames_unfinished (unfinished_of_append h), if_neg hFits]
    · have hFits : ¬framing.Oversized text := by
        intro hOversized
        have hWhole := hOversized.append [c] []
        rw [List.append_nil] at hWhole
        exact hSize hWhole
      rw [removeFrames_of_no_introducer hPrefix, ih (unfinished_of_append (show Unfinished framing.ends ([c] ++ text) from h)) hFits]

theorem removeFrames_cons (h : ¬framing.Removes (c :: text)) : framing.removeFrames (c :: text) = c :: framing.removeFrames text := by
  by_cases hPrefix : framing.introducer <+: c :: text
  · obtain ⟨payload, hPayload⟩ := hPrefix
    have hUnfinished : Unfinished framing.ends payload := by
      by_contra hEnded
      exact h ⟨payload, hPayload.symm, .inl hEnded⟩
    have hFits : ¬framing.Oversized payload := fun hOversized => h ⟨payload, hPayload.symm, .inr hOversized⟩
    have hText : text = framing.tail ++ payload := (List.cons.inj hPayload).2.symm
    rw [← hPayload, removeFrames_unfinished hUnfinished, if_neg hFits, hPayload, hText,
      removeFrames_append_of_notMem framing.head_notMem_tail, removeFrames_of_unfinished hUnfinished hFits]
  · exact removeFrames_of_no_introducer hPrefix

theorem removeFrames_take_append {n : Nat} (hn : n < framing.introducer.length) (hc : framing.introducer[n]? ≠ some c) (rest : List α) :
    framing.removeFrames (framing.introducer.take n ++ c :: rest) = framing.introducer.take n ++ framing.removeFrames (c :: rest) := by
  cases n with
  | zero => rfl
  | succ n =>
    have hTail : framing.head ∉ framing.tail.take n := fun hMem => framing.head_notMem_tail (List.mem_of_mem_take hMem)
    have hHead : ¬framing.introducer <+: framing.head :: (framing.tail.take n ++ c :: rest) := by
      rintro ⟨body, hBody⟩
      have hTails : framing.tail ++ body = framing.tail.take n ++ c :: rest := (List.cons.inj hBody).2
      have hLength : n < framing.tail.length := by
        rw [introducer, List.length_cons] at hn
        omega
      have hTake : (framing.tail.take n).length = n := by
        rw [List.length_take]
        omega
      have hAt := congrArg (fun text => text[n]?) hTails
      simp only [List.getElem?_append_left hLength] at hAt
      rw [List.getElem?_append_right hTake.le, hTake, Nat.sub_self] at hAt
      exact hc hAt
    show framing.removeFrames (framing.head :: (framing.tail.take n ++ c :: rest)) = _
    rw [removeFrames_of_no_introducer hHead, removeFrames_append_of_notMem hTail]
    rfl

theorem removeFrames_take (n : Nat) (hn : n < framing.introducer.length) :
    framing.removeFrames (framing.introducer.take n) = framing.introducer.take n := by
  cases n with
  | zero => exact removeFrames_nil
  | succ n =>
    have hTail : framing.head ∉ framing.tail.take n := fun hMem => framing.head_notMem_tail (List.mem_of_mem_take hMem)
    have hHead : ¬framing.introducer <+: framing.head :: framing.tail.take n := by
      intro hPrefix
      have hLength := hPrefix.length_le
      rw [introducer, List.length_cons] at hn
      rw [introducer, List.length_cons, List.length_cons, List.length_take] at hLength
      omega
    show framing.removeFrames (framing.head :: framing.tail.take n) = _
    have hRest := removeFrames_append_of_notMem hTail []
    rw [List.append_nil, removeFrames_nil, List.append_nil] at hRest
    rw [removeFrames_of_no_introducer hHead, hRest]
    rfl

end Framing

end Library
