import Cosmosh.Library.NormalizedPath
import Cosmosh.Sftp.EntryOperations
import Cosmosh.Sftp.ListingRoundTrip

/-! # Where paths lead, and which are refused -/

variable (raw : Text)

namespace Sftp

open Library Library.JsText Library.PosixPath

theorem normalizeSftpPathInput_ne_nil (input : Option Text) : normalizeSftpPathInput input ≠ [] := by
  simp only [normalizeSftpPathInput]
  split
  · decide
  · split
    · decide
    · assumption

theorem not_mem_normalizeSftpPathInput (input : Option Text) : '\\' ∉ normalizeSftpPathInput input := by
  simp only [normalizeSftpPathInput]
  split
  · decide
  · split
    · decide
    · exact fun hMem => not_mem_replaceChar (by decide) _ (mem_normalize (by decide) (by decide) hMem)

theorem joinSftpPath_ne_nil (parent name : Text) : joinSftpPath parent name ≠ [] := by
  rw [joinSftpPath]
  split <;> exact normalize_ne_nil _

variable {name : Text}

theorem not_mem_joinSftpPath {parent : Text} (hParent : '\\' ∉ parent) (hName : '\\' ∉ name) : '\\' ∉ joinSftpPath parent name := by
  have hJoined : '\\' ∉ parent ++ '/' :: name := by simp [hParent, hName]
  rw [joinSftpPath]
  split
  · split
    · exact fun hMem => by simpa [hName] using mem_normalize (by decide) (by decide) hMem
    · exact fun hMem => hJoined (mem_normalize (by decide) (by decide) hMem)
  · exact fun hMem => hJoined (mem_normalize (by decide) (by decide) hMem)

theorem resolveFrom_normalizeSftpPathInput {p : Text} (hTrim : trim p = p) (hBackslash : '\\' ∉ p) (hNonempty : p ≠ []) (home : List Text) :
    resolveFrom home (normalizeSftpPathInput (some p)) = resolveFrom home p := by
  simp only [normalizeSftpPathInput, Option.getD_some, hTrim, replaceChar_of_not_mem hBackslash]
  split
  · rename_i hMarker
    rw [hMarker.resolve_left hNonempty]
  · rw [if_neg (normalize_ne_nil p), resolveFrom_normalize]

def Covers (claim path : Text) : Prop := ∀ home, location claim <+: resolveFrom home path

theorem covers_of_payload : Covers (normalizeSftpTaskClaimPath raw) (normalizeSftpPathInput (some raw)) := by
  intro home
  cases hAbsolute : isAbsolute (replaceChar '\\' '/' (trim raw)) with
  | false =>
    rw [normalizeSftpTaskClaimPath_of_relative hAbsolute]
    exact List.nil_prefix
  | true =>
    rw [normalizeSftpTaskClaimPath_of_absolute hAbsolute, location_render (location_plain _),
      normalizeSftpPathInput_of_absolute hAbsolute, resolveFrom_normalize, resolveFrom_of_absolute hAbsolute]

theorem covers_of_normalized {p : Text} (hTrim : trim p = p) (hBackslash : '\\' ∉ p) : Covers (normalizeSftpTaskClaimPath p) p := by
  intro home
  have hSame : replaceChar '\\' '/' (trim p) = p := by rw [hTrim, replaceChar_of_not_mem hBackslash]
  cases hAbsolute : isAbsolute p with
  | false =>
    rw [normalizeSftpTaskClaimPath_of_relative (by rwa [hSame])]
    exact List.nil_prefix
  | true =>
    rw [normalizeSftpTaskClaimPath_of_absolute (by rwa [hSame]), hSame, location_render (location_plain p),
      resolveFrom_of_absolute hAbsolute]

theorem covers_of_relative {raw : Text} (h : isAbsolute (normalizeSftpPathInput (some raw)) = false) (path : Text) :
    Covers (normalizeSftpTaskClaimPath raw) path := by
  intro home
  rw [isAbsolute_normalizeSftpPathInput] at h
  rw [normalizeSftpTaskClaimPath_of_relative h]
  exact List.nil_prefix

theorem below_joinSftpPath {parent : Text} (hParent : parent ≠ []) (hName : Plain name) : Below parent (joinSftpPath parent name) := by
  intro home
  have hJoin := resolveFrom_joinSftpPath home hParent name
  rw [walk_plain _ hName, List.reverse_eq_cons_iff, List.reverse_reverse] at hJoin
  rw [hJoin]
  exact List.prefix_append _ _

theorem not_mem_extname (h : '/' ∉ name) : '/' ∉ extname name := by
  intro hMem
  rw [extname] at hMem
  split at hMem
  · cases hMem
  · split at hMem
    · cases hMem
    · obtain hEq | hMem := List.mem_cons.mp hMem
      · exact absurd hEq (by decide)
      · exact h (mem_basename (List.mem_reverse.mp ((List.takeWhile_prefix _).subset (List.mem_reverse.mp hMem))))

theorem plain_of_blank (hBlank : ' ' ∈ name) (h : '/' ∉ name) : Plain name := by
  refine ⟨?_, ?_, ?_, h⟩
  · rintro rfl
    cases hBlank
  · rintro rfl
    exact absurd hBlank (by decide)
  · rintro rfl
    exact absurd hBlank (by decide)

theorem plain_copyName (h : '/' ∉ name) (attempt : Nat) :
    Plain ((if extname name ≠ [] then name.take (name.length - (extname name).length) else name) ++ " copy".toList ++
      (if attempt > 1 then ' ' :: (toString attempt).toList else []) ++ extname name) := by
  have hNoStem : '/' ∉ (if extname name ≠ [] then name.take (name.length - (extname name).length) else name) := by
    split
    · exact fun hMem => h (List.mem_of_mem_take hMem)
    · exact h
  have hNoSuffix : '/' ∉ (if attempt > 1 then ' ' :: (toString attempt).toList else []) := by
    split
    · simpa using not_mem_toString attempt
    · simp
  refine plain_of_blank (by simp) ?_
  simp only [List.mem_append, not_or]
  exact ⟨⟨⟨hNoStem, by decide⟩, hNoSuffix⟩, not_mem_extname h⟩

theorem copyCandidate_sibling {directory : List Text} (hDirectory : ∀ n ∈ directory, Plain n) (h : Plain name) (trailing : Bool)
    (attempt : Nat) : ∃ sibling, Plain sibling ∧ ∀ home, resolveFrom home
      (buildSftpCopyTargetCandidate (render (directory ++ [name]) trailing) attempt) = directory ++ [sibling] := by
  simp only [buildSftpCopyTargetCandidate, dirname_render hDirectory h, basename_render h]
  split
  · refine ⟨name, h, fun home => ?_⟩
    rw [resolveFrom_of_absolute (isAbsolute_render _ _), location_render (all_plain_concat hDirectory h)]
  · have hMarker : render directory false ≠ ".".toList := by
      rw [render_untrailed]
      simp
    rw [if_neg hMarker]
    have hSibling := plain_copyName h.no_separator attempt
    refine ⟨_, hSibling, fun home => ?_⟩
    rw [joinSftpPath_render hDirectory hSibling, resolveFrom_of_absolute (isAbsolute_render _ _),
      location_render (all_plain_concat hDirectory hSibling)]

end Sftp

namespace Sftp

open Library Library.JsText Library.PosixPath

/-- The path as it is handed to `normalize`. -/
def slashed (raw : Text) : Text := replaceChar '\\' '/' (trim raw)

def NamesHere (raw : Text) : Prop := remaining (slashed raw) = []

def NamesEntry (raw : Text) : Prop := ∃ name, (remaining (slashed raw)).getLast? = some name ∧ name ≠ "..".toList

theorem normalizeSftpPathInput_eq : normalizeSftpPathInput (some raw) = normalize (slashed raw) := by
  rw [normalizeSftpPathInput, Option.getD_some]
  dsimp only
  split
  · rename_i hMarker
    obtain hEmpty | hDot := hMarker
    · rw [slashed, hEmpty]
      rfl
    · rw [slashed, hDot]
      rfl
  · rw [if_neg (normalize_ne_nil _), slashed]

theorem isMutableSftpEntryPath_spell {names : List Text} (hNames : ∀ n ∈ names, n ≠ [] ∧ '/' ∉ n) {absolute trailing : Bool}
    (hSettled : resolveSegments (!absolute) names = names) :
    isMutableSftpEntryPath (spell absolute names trailing) = true ↔ names ≠ [] ∨ absolute = false ∧ trailing = true := by
  by_cases hNone : names = []
  · subst hNone
    cases absolute <;> cases trailing <;> simp [spell, isMutableSftpEntryPath]
  · refine ⟨fun _ => .inl hNone, fun _ => ?_⟩
    have hKept := remaining_spell hNames absolute trailing hSettled
    rw [isMutableSftpEntryPath, decide_eq_true_eq]
    refine ⟨?_, ?_, ?_⟩
    · intro hPath
      rw [hPath] at hKept
      exact hNone hKept.symm
    · intro hPath
      rw [hPath] at hKept
      exact hNone hKept.symm
    · intro hPath
      rw [hPath] at hKept
      exact hNone hKept.symm

theorem isMutableSftpEntryPath_normalize : isMutableSftpEntryPath (normalizeSftpPathInput (some raw)) = true ↔
    ¬ NamesHere raw ∨ isAbsolute (slashed raw) = false ∧ hasTrailingSeparator (slashed raw) = true := by
  rw [normalizeSftpPathInput_eq, normalize_eq_spell]
  exact isMutableSftpEntryPath_spell (remaining_names _) (resolveSegments_resolveSegments _)

def refusesPath (session : SftpLiveSession) : SftpProgram SftpOperationResult :=
  withOpenSession (pure (refused session "errors.sftp.pathRequired"))

structure Guarded (session : SftpLiveSession) (raw : Text) : Prop where
  rejected : NamesHere raw → isMutableSftpEntryPath (normalizeSftpPathInput (some raw)) = false
  deletes_nothing : NamesHere raw → ∀ depth recursive, deleteEntryPrimitive session depth (some raw) recursive = refusesPath session
  renames_nothing : NamesHere raw → ∀ other, renameEntryPrimitive session (some raw) other = refusesPath session ∧
    renameEntryPrimitive session other (some raw) = refusesPath session
  accepted : NamesEntry raw → isMutableSftpEntryPath (normalizeSftpPathInput (some raw)) = true

theorem guarded_of_rejected {session : SftpLiveSession} {raw : Text}
    (h : NamesHere raw → isMutableSftpEntryPath (normalizeSftpPathInput (some raw)) = false) : Guarded session raw where
  rejected := h
  deletes_nothing := by
    intro hHere depth recursive
    rw [deleteEntryPrimitive, withMutablePath, h hHere]
    rfl
  renames_nothing := by
    intro hHere other
    rw [renameEntryPrimitive, renameEntryPrimitive, withMutablePaths, withMutablePaths, h hHere]
    simp [refusesPath]
  accepted := by
    rintro ⟨name, hLast, -⟩
    refine (isMutableSftpEntryPath_normalize raw).mpr (.inl fun hHere => ?_)
    rw [hHere] at hLast
    cases hLast

/-- The guard misses one spelling: a relative path that comes back to where it starts and ends in a separator. -/
theorem guarded_iff (session : SftpLiveSession) (raw : Text) :
    Guarded session raw ↔ ¬ (NamesHere raw ∧ isAbsolute (slashed raw) = false ∧ hasTrailingSeparator (slashed raw) = true) := by
  constructor
  · rintro hGuarded ⟨hHere, hSpelling⟩
    have hMutable := (isMutableSftpEntryPath_normalize raw).mpr (.inr hSpelling)
    rw [hGuarded.rejected hHere] at hMutable
    cases hMutable
  · intro hMissed
    refine guarded_of_rejected fun hHere => Bool.eq_false_iff.mpr fun hMutable => ?_
    obtain hElsewhere | hSpelling := (isMutableSftpEntryPath_normalize raw).mp hMutable
    · exact hElsewhere hHere
    · exact hMissed ⟨hHere, hSpelling⟩

theorem trailing_dot_is_mutable : NamesHere "./".toList ∧ isMutableSftpEntryPath (normalizeSftpPathInput (some "./".toList)) = true ∧
    ∀ session, ¬ Guarded session "./".toList := by
  have hHere : NamesHere "./".toList := by
    rw [NamesHere]
    decide
  have hMutable : isMutableSftpEntryPath (normalizeSftpPathInput (some "./".toList)) = true := by decide
  refine ⟨hHere, hMutable, fun session hGuarded => ?_⟩
  have hRejected := hGuarded.rejected hHere
  rw [hMutable] at hRejected
  cases hRejected

def TrimmedEdges (raw : Text) : Prop :=
  (isAbsolute (slashed raw) = true ∨ ∀ name ∈ (remaining (slashed raw)).head?, ∀ c ∈ name.head?, isWhitespace c = false) ∧
    (hasTrailingSeparator (slashed raw) = true ∨ ∀ name ∈ (remaining (slashed raw)).getLast?, ¬ EndsInWhitespace name)

theorem trim_spell_iff {names : List Text} (hNames : ∀ n ∈ names, n ≠ [] ∧ '/' ∉ n) (absolute trailing : Bool) :
    trim (spell absolute names trailing) = spell absolute names trailing ↔
      (absolute = true ∨ ∀ name ∈ names.head?, ∀ c ∈ name.head?, isWhitespace c = false) ∧
        (trailing = true ∨ ∀ name ∈ names.getLast?, ¬ EndsInWhitespace name) := by
  by_cases hNone : names = []
  · subst hNone
    cases absolute <;> cases trailing <;> simp [spell] <;> decide
  · have hSlash : isWhitespace '/' = false := by decide
    rw [trim_eq_self_iff, EndsInWhitespace, head?_spell hNames absolute trailing hNone, getLast?_spell hNames absolute trailing hNone]
    refine and_congr ?_ ?_
    · cases absolute with
      | true => simp [hSlash]
      | false =>
        simp only [Bool.false_eq_true, if_false, false_or, Option.mem_def, Option.bind_eq_some_iff]
        refine ⟨fun h name hName c hc => h c ⟨name, hName, hc⟩, ?_⟩
        rintro h c ⟨name, hName, hc⟩
        exact h name hName c hc
    · cases trailing with
      | true => simp [hSlash]
      | false =>
        simp only [Bool.false_eq_true, if_false, false_or, Option.mem_def, Option.bind_eq_some_iff, EndsInWhitespace]
        constructor
        · rintro h name hName ⟨c, hc, hBlank⟩
          exact h ⟨c, ⟨name, hName, hc⟩, hBlank⟩
        · rintro h ⟨c, ⟨name, hName, hc⟩, hBlank⟩
          exact h name hName ⟨c, hc, hBlank⟩

theorem normalizeSftpPathInput_again : normalizeSftpPathInput (some (normalizeSftpPathInput (some raw))) = normalizeSftpPathInput (some raw) ↔
      trim (normalizeSftpPathInput (some raw)) = normalizeSftpPathInput (some raw) := by
  have hBackslash := not_mem_normalizeSftpPathInput (some raw)
  have hSlashed : slashed (normalizeSftpPathInput (some raw)) = trim (normalizeSftpPathInput (some raw)) :=
    replaceChar_of_not_mem fun hMem => hBackslash ((trim_sublist _).subset hMem)
  rw [normalizeSftpPathInput_eq (normalizeSftpPathInput (some raw)), hSlashed]
  constructor
  · intro hAgain
    by_contra hTrim
    have hKept := countP_normalize_le (q := isWhitespace) (by decide) (by decide) (trim (normalizeSftpPathInput (some raw)))
    have hLost := countP_trim_lt hTrim
    rw [hAgain] at hKept
    omega
  · intro hTrim
    rw [hTrim, normalizeSftpPathInput_eq, normalize_normalize]

structure SameTwice (raw : Text) : Prop where
  idempotent : normalizeSftpPathInput (some (normalizeSftpPathInput (some raw))) = normalizeSftpPathInput (some raw)
  same_entry : ∀ home, resolveFrom home (normalizeSftpPathInput (some (normalizeSftpPathInput (some raw)))) =
    resolveFrom home (normalizeSftpPathInput (some raw))

theorem sameTwice_iff (raw : Text) : SameTwice raw ↔ TrimmedEdges raw := by
  have hEdges : trim (normalizeSftpPathInput (some raw)) = normalizeSftpPathInput (some raw) ↔ TrimmedEdges raw := by
    rw [normalizeSftpPathInput_eq, normalize_eq_spell, TrimmedEdges]
    exact trim_spell_iff (remaining_names _) _ _
  rw [← hEdges, ← normalizeSftpPathInput_again]
  exact ⟨fun h => h.idempotent, fun h => ⟨h, fun home => by rw [h]⟩⟩

theorem trailing_blank_is_trimmed : normalizeSftpPathInput (some "a /.".toList) = "a ".toList ∧
    normalizeSftpPathInput (some "a ".toList) = "a".toList ∧ ¬ SameTwice "a /.".toList := by
  have hOnce : normalizeSftpPathInput (some "a /.".toList) = "a ".toList := by decide
  have hTwice : normalizeSftpPathInput (some "a ".toList) = "a".toList := by decide
  refine ⟨hOnce, hTwice, fun hSame => ?_⟩
  have hAgain := hSame.idempotent
  rw [hOnce, hTwice] at hAgain
  exact absurd hAgain (by decide)

end Sftp
