import Mathlib.Data.List.Basic

/-! # Tokens between separators, with their positions -/

namespace Library.SpacedTokens

variable {α : Type} (blank : α → Bool)

structure Token (α : Type) where
  value : List α
  start : Nat
  deriving DecidableEq

def pending (start : Nat) : List α → List (Token α)
  | [] => []
  | u :: word => [⟨u :: word, start⟩]

/-- The tokens of a text, after `word` was read from `start` on. -/
def tokensAfter (start : Nat) (word : List α) : List α → List (Token α)
  | [] => pending start word
  | u :: rest =>
    if blank u then pending start word ++ tokensAfter (start + word.length + 1) [] rest else tokensAfter start (word ++ [u]) rest

def tokens (text : List α) : List (Token α) := tokensAfter blank 0 [] text

variable {blank} {start : Nat} {word : List α}

theorem pending_of_nonempty (h : word ≠ []) : pending start word = [⟨word, start⟩] := by
  cases word with
  | nil => exact absurd rfl h
  | cons u word => rfl

theorem eq_of_mem_pending {token : Token α} (h : token ∈ pending start word) : token = ⟨word, start⟩ := by
  cases word with
  | nil => cases h
  | cons u word => exact List.mem_singleton.mp h

theorem tokensAfter_append {more : List α} (h : ∀ u ∈ more, blank u = false) (rest : List α) :
    tokensAfter blank start word (more ++ rest) = tokensAfter blank start (word ++ more) rest := by
  induction more generalizing word with
  | nil => rw [List.nil_append, List.append_nil]
  | cons u more ih =>
    rw [List.cons_append, tokensAfter, h u List.mem_cons_self, if_neg Bool.false_ne_true, ih fun v hv => h v (List.mem_cons_of_mem u hv),
      List.append_assoc, List.singleton_append]

theorem tokens_append_blank {u : α} (hWord : ∀ v ∈ word, blank v = false) (hNonempty : word ≠ []) (hBlank : blank u = true) (rest : List α) :
    tokens blank (word ++ u :: rest) = ⟨word, 0⟩ :: tokensAfter blank (word.length + 1) [] rest := by
  rw [tokens, tokensAfter_append hWord, List.nil_append, tokensAfter, if_pos hBlank, pending_of_nonempty hNonempty, Nat.zero_add,
    List.singleton_append]

theorem start_le {token : Token α} {text : List α} (h : token ∈ tokensAfter blank start word text) : start ≤ token.start := by
  induction text generalizing start word with
  | nil =>
    obtain rfl := eq_of_mem_pending h
    exact Nat.le_refl _
  | cons u text ih =>
    rw [tokensAfter] at h
    split at h
    · obtain hWord | hLater := List.mem_append.mp h
      · obtain rfl := eq_of_mem_pending hWord
        exact Nat.le_refl _
      · have hStart := ih hLater
        omega
    · exact ih h

theorem tokensAfter_first (hWord : word ≠ []) (text : List α) :
    ∃ value later, tokensAfter blank start word text = ⟨value, start⟩ :: later ∧ ∀ token ∈ later, start < token.start := by
  induction text generalizing word with
  | nil => exact ⟨word, [], pending_of_nonempty hWord, nofun⟩
  | cons u text ih =>
    rw [tokensAfter]
    split
    · refine ⟨word, _, by rw [pending_of_nonempty hWord, List.singleton_append], fun token hToken => ?_⟩
      have hStart := start_le hToken
      omega
    · exact ih (by simp)

theorem tokensAfter_cons_of_not_blank {u : α} (h : blank u = false) (text : List α) :
    ∃ value later, tokensAfter blank start [] (u :: text) = ⟨value, start⟩ :: later ∧ ∀ token ∈ later, start < token.start := by
  rw [tokensAfter, h, if_neg Bool.false_ne_true]
  exact tokensAfter_first (by simp) text

theorem values_shift (start start' : Nat) (word text : List α) :
    (tokensAfter blank start word text).map Token.value = (tokensAfter blank start' word text).map Token.value := by
  induction text generalizing start start' word with
  | nil => cases word <;> rfl
  | cons u text ih =>
    rw [tokensAfter, tokensAfter]
    split
    · rw [List.map_append, List.map_append, ih _ (start' + word.length + 1)]
      cases word <;> rfl
    · exact ih _ _ _

end Library.SpacedTokens
