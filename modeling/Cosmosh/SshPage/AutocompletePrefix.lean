import Cosmosh.Library.CodeUnits
import Cosmosh.Library.Overlap

/-! # The command prefix of a completion request

What the terminal shows of a command may lag behind what was typed, and what was typed since the last escape sequence
may be only the end of the command.
-/

namespace SshPage

open Library

structure AutocompleteCommandPrefixResolveOptions where
  localPrefixNeedsRenderedContext : Option Bool

def overlapFrom (renderedCommandPrefix localCommandPrefix : CodeUnits) : Nat → Nat
  | 0 => 0
  | overlapLength + 1 =>
    if (localCommandPrefix.take (overlapLength + 1)).isSuffixOf renderedCommandPrefix then overlapLength + 1
    else overlapFrom renderedCommandPrefix localCommandPrefix overlapLength

def resolveRenderedLocalPrefixOverlap (renderedCommandPrefix localCommandPrefix : CodeUnits) : Nat :=
  overlapFrom renderedCommandPrefix localCommandPrefix (min renderedCommandPrefix.length localCommandPrefix.length)

def resolveAutocompleteCommandPrefix (renderedCommandPrefix : CodeUnits) (localCommandPrefix : Option CodeUnits)
    (options : Option AutocompleteCommandPrefixResolveOptions) : CodeUnits :=
  match localCommandPrefix with
  | none => renderedCommandPrefix
  | some localCommandPrefix =>
    if (options.bind (·.localPrefixNeedsRenderedContext)).getD false = false then localCommandPrefix
    else if renderedCommandPrefix.length = 0 then localCommandPrefix
    else if localCommandPrefix.length = 0 then renderedCommandPrefix
    else if localCommandPrefix.isSuffixOf renderedCommandPrefix then renderedCommandPrefix
    else if renderedCommandPrefix.isPrefixOf localCommandPrefix then localCommandPrefix
    else
      renderedCommandPrefix ++
        localCommandPrefix.drop (resolveRenderedLocalPrefixOverlap renderedCommandPrefix localCommandPrefix)

variable {rendered typed : CodeUnits}

theorem longestOverlap_overlapFrom {bound : Nat} (hBound : bound ≤ typed.length) (hAll : ∀ k, Overlaps rendered typed k → k ≤ bound) :
    LongestOverlap rendered typed (overlapFrom rendered typed bound) := by
  induction bound with
  | zero => exact ⟨overlaps_zero _ _, hAll⟩
  | succ bound ih =>
    rw [overlapFrom]
    split
    · next hSuffix => exact ⟨⟨hBound, List.isSuffixOf_iff_suffix.mp hSuffix⟩, hAll⟩
    · next hSuffix =>
      apply ih (Nat.le_of_succ_le hBound)
      intro k hOverlaps
      obtain hLess | rfl := Nat.lt_or_eq_of_le (hAll k hOverlaps)
      · exact Nat.le_of_lt_succ hLess
      · exact absurd (List.isSuffixOf_iff_suffix.mpr hOverlaps.2) hSuffix

theorem longestOverlap_resolved (rendered typed : CodeUnits) :
    LongestOverlap rendered typed (resolveRenderedLocalPrefixOverlap rendered typed) :=
  longestOverlap_overlapFrom (Nat.min_le_right _ _) fun _ hOverlaps => Nat.le_min.mpr ⟨hOverlaps.le_front, hOverlaps.1⟩

theorem resolve_joins (rendered typed : CodeUnits) : ∃ n, LongestOverlap rendered typed n ∧
      resolveAutocompleteCommandPrefix rendered (some typed) (some ⟨some true⟩) = rendered ++ typed.drop n := by
  simp only [resolveAutocompleteCommandPrefix, Option.bind_some, Option.getD_some, Bool.true_eq_false, if_false]
  split
  · next hEmpty =>
    obtain rfl := List.length_eq_zero_iff.mp hEmpty
    exact ⟨0, ⟨overlaps_zero _ _, fun k hOverlaps => hOverlaps.le_front⟩, rfl⟩
  split
  · next hEmpty =>
    obtain rfl := List.length_eq_zero_iff.mp hEmpty
    exact ⟨0, ⟨overlaps_zero _ _, fun k hOverlaps => hOverlaps.1⟩, by simp⟩
  split
  · next hSuffix =>
    refine ⟨typed.length, ⟨⟨Nat.le_refl _, ?_⟩, fun k hOverlaps => hOverlaps.1⟩, by simp⟩
    rw [List.take_length]
    exact List.isSuffixOf_iff_suffix.mp hSuffix
  split
  · next hPrefix =>
    obtain ⟨rest, rfl⟩ := List.isPrefixOf_iff_prefix.mp hPrefix
    refine ⟨rendered.length, ⟨⟨by simp, ?_⟩, fun k hOverlaps => hOverlaps.le_front⟩, by simp⟩
    rw [List.take_left]
  · exact ⟨_, longestOverlap_resolved rendered typed, rfl⟩

structure ShortestJoin (rendered typed resolved : CodeUnits) : Prop where
  begins : rendered <+: resolved
  ends : typed <:+ resolved
  shortest : ∀ text, rendered <+: text → typed <:+ text → resolved.length ≤ text.length
  only : ∀ text, rendered <+: text → typed <:+ text → text.length = resolved.length → text = resolved
  overlap : ∃ n, LongestOverlap rendered typed n ∧ resolved = rendered ++ typed.drop n

theorem resolved_prefix_is_shortest_join (rendered typed : CodeUnits) :
    ShortestJoin rendered typed (resolveAutocompleteCommandPrefix rendered (some typed) (some ⟨some true⟩)) := by
  obtain ⟨n, hLongest, hResolved⟩ := resolve_joins rendered typed
  rw [hResolved]
  exact {
    begins := List.prefix_append _ _
    ends := hLongest.overlaps.suffix
    shortest := fun text hFront hBack => (hLongest.shortest hFront hBack).1
    only := fun text hFront hBack => (hLongest.shortest hFront hBack).2
    overlap := ⟨n, hLongest, rfl⟩ }

/-- A prefix that has been joined is left as it is. -/
theorem resolve_joined_prefix (rendered typed : CodeUnits) :
    resolveAutocompleteCommandPrefix rendered (some (resolveAutocompleteCommandPrefix rendered (some typed) (some ⟨some true⟩)))
        (some ⟨some true⟩) =
      resolveAutocompleteCommandPrefix rendered (some typed) (some ⟨some true⟩) := by
  obtain ⟨n, -, hFirst⟩ := resolve_joins rendered typed
  rw [hFirst]
  obtain ⟨m, hLongest, hAgain⟩ := resolve_joins rendered (rendered ++ typed.drop n)
  have hWhole : Overlaps rendered (rendered ++ typed.drop n) rendered.length := by
    refine ⟨by simp, ?_⟩
    rw [List.take_left]
  have hLength : m = rendered.length := Nat.le_antisymm hLongest.overlaps.le_front (hLongest.longest _ hWhole)
  rw [hAgain, hLength, List.drop_left]

end SshPage
