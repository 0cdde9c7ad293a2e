import Cosmosh.RemoteBootstrap.Installation

/-! # When an installation converges

A finished run is always reported and never repeated.
-/

namespace RemoteBootstrap

open Library Library.Utf8 Library.JsText

theorem isSpace_of_version {c : Char} (h : (c.isAlphanum || decide (c ∈ ['.', '_', '+', '-'])) = true) : isSpace c = false := by
  have hList : ∀ d ∈ ['\t', '\n', '\x0b', '\x0c', '\r', ' ', '\u0085', '\u00a0', '\u1680', '\u2028', '\u2029', '\u202f', '\u205f', '\u3000'],
      (d.isAlphanum || decide (d ∈ ['.', '_', '+', '-'])) = false := by decide
  have hSmall : c.toNat < 0x2000 := by
    have hMarks : ∀ d ∈ ['.', '_', '+', '-'], d.toNat < 0x2000 := by decide
    obtain hLetter | hMark := Bool.or_eq_true_iff.mp h
    · have hGraphic := isAlphanum_graphic hLetter
      exact hGraphic.2.trans (by decide)
    · exact hMarks c (of_decide_eq_true hMark)
  rw [isSpace, Bool.or_eq_false_iff]
  constructor
  · refine decide_eq_false fun hMem => ?_
    rw [hList c hMem] at h
    cases h
  · simp only [Bool.and_eq_false_iff, decide_eq_false_iff_not]
    exact .inl (by omega)

namespace Installer

variable (i : Installer)

theorem version_ne_nil : i.version ≠ [] := by
  have hValid := i.version_valid
  rw [versionPattern, Bool.and_eq_true] at hValid
  exact of_decide_eq_true hValid.1

theorem readVersion_written : readVersion (encode (i.version ++ ['\n'])) = i.version := by
  have hValid := i.version_valid
  rw [versionPattern, Bool.and_eq_true, List.all_eq_true] at hValid
  have hSpace : ∀ c ∈ i.version, isSpace c = false := fun c hc => isSpace_of_version (hValid.2 c hc)
  obtain ⟨c, rest, hVersion⟩ := List.exists_cons_of_ne_nil i.version_ne_nil
  have hFront : (i.version ++ ['\n']).dropWhile isSpace = i.version ++ ['\n'] := by
    rw [hVersion, List.cons_append, List.dropWhile_cons_of_neg]
    rw [hSpace c (hVersion ▸ List.mem_cons_self)]
    exact Bool.false_ne_true
  have hBack : (i.version ++ ['\n']).rdropWhile isSpace = i.version := by
    rw [List.rdropWhile_concat_pos _ _ _ (by decide), List.rdropWhile_eq_self_iff]
    intro hNonempty
    rw [hSpace _ (List.getLast_mem hNonempty)]
    exact Bool.false_ne_true
  rw [readVersion, decode_encode, trimSpace, hFront, hBack]

theorem hook_in_replaced (existing : List Byte) :
    markerStart <:+: replaceMarkedBlock existing i.hook ∧ i.hook <:+: replaceMarkedBlock existing i.hook ∧
      markerEnd <:+: replaceMarkedBlock existing i.hook := by
  have hBlock : bootstrapMarkers.block i.hook <:+: replaceMarkedBlock existing i.hook := by
    rw [replaceMarkedBlock_eq, Markers.replaceBlock]
    split
    · next before after _ => exact ⟨before, after.dropWhile bootstrapMarkers.isBreak, by rw [List.append_assoc]⟩
    · exact ⟨existing ++ separator existing, [], by rw [List.append_nil, List.append_assoc]⟩
  refine ⟨List.IsInfix.trans ?_ hBlock, List.IsInfix.trans ?_ hBlock, List.IsInfix.trans ?_ hBlock⟩
  · exact ⟨[], _, rfl⟩
  · exact ⟨markerStart ++ [0x0a], markerEnd ++ [0x0a], by simp [Markers.block, bootstrapMarkers]⟩
  · exact ⟨markerStart ++ 0x0a :: i.hook, [0x0a], by simp [Markers.block, bootstrapMarkers]⟩

theorem hasCurrentHook_nextContent (file : ProfileFile) (existing : Option (List Byte)) :
    i.hasCurrentHook (some (i.nextContent (.profile file) existing)) = true := by
  rw [hasCurrentHook, nextContent]
  by_cases hFish : i.shell = .fish
  · simp only [hFish, if_true]
    exact decide_eq_true List.infix_rfl
  · obtain ⟨hStart, hHook, hEnd⟩ := i.hook_in_replaced (existing.getD [])
    simp only [hFish, if_false, hStart, hHook, hEnd, decide_true, Bool.and_self]

def isCurrentFile : InstalledFile → Option (List Byte) → Bool
  | .binary, content => content = some i.executable
  | .helper, content => content = some (i.buildHelper i.shell i.version)
  | .profile _, content => i.hasCurrentHook content
  | .version, content => i.hasVersion content

theorem isCurrentFile_nextContent (file : InstalledFile) (existing : Option (List Byte)) :
    i.isCurrentFile file (some (i.nextContent file existing)) = true := by
  cases file with
  | binary => exact decide_eq_true rfl
  | helper => exact decide_eq_true rfl
  | profile file => exact i.hasCurrentHook_nextContent file existing
  | version => exact decide_eq_true (congrArg some i.readVersion_written)

variable (files : InstalledFiles)

theorem nodup_resolveProfilePaths : (i.resolveProfilePaths files).Nodup := by
  rw [resolveProfilePaths]
  cases i.shell with
  | bash =>
    dsimp only
    split
    · decide
    · split <;> decide
  | _ => exact List.nodup_singleton _

theorem nodup_writeOrder : (i.writeOrder files).Nodup := by
  have hProfiles : ((i.resolveProfilePaths files).map InstalledFile.profile).Nodup :=
    (i.nodup_resolveProfilePaths files).map fun _ _ hSame => InstalledFile.profile.inj hSame
  rw [writeOrder, List.nodup_append, List.nodup_append]
  refine ⟨by decide, ⟨hProfiles, List.nodup_singleton _, ?_⟩, ?_⟩
  · intro file hFile other hOther
    obtain ⟨_, -, rfl⟩ := List.mem_map.mp hFile
    rw [List.mem_singleton.mp hOther]
    nofun
  · rintro file hFile _ hOther rfl
    obtain hProfile | hVersion := List.mem_append.mp hOther
    · obtain ⟨_, -, rfl⟩ := List.mem_map.mp hProfile
      simp at hFile
    · rw [List.mem_singleton.mp hVersion] at hFile
      simp at hFile

def rewriting (files : InstalledFiles) : Rewriting InstalledFile (List Byte) where
  order := i.writeOrder files
  nodup := i.nodup_writeOrder files
  next := i.nextContent
  isCurrent := i.isCurrentFile
  current_next := i.isCurrentFile_nextContent

theorem resolveProfilePaths_writeAll {done rest : List InstalledFile} (hOrder : i.writeOrder files = done ++ rest) :
    i.resolveProfilePaths ((i.rewriting files).writeAll done files) = i.resolveProfilePaths files := by
  have hDone : done.Nodup := (List.nodup_append.mp (hOrder ▸ i.nodup_writeOrder files)).1
  have hSome : ∀ file, (files file).isSome = true → ((i.rewriting files).writeAll done files file).isSome = true := by
    intro file hFile
    rw [Rewriting.writeAll_apply _ hDone]
    split
    · rfl
    · exact hFile
  have hOther : ∀ file, file ∉ i.writeOrder files → (i.rewriting files).writeAll done files file = files file := by
    intro file hFile
    rw [Rewriting.writeAll_apply _ hDone, if_neg fun hMem => hFile (hOrder ▸ List.mem_append_left rest hMem)]
  cases hShell : i.shell with
  | bash =>
    by_cases hProfile : (files (.profile .bash_profile)).isSome = true
    · simp only [resolveProfilePaths, hShell, hProfile, hSome _ hProfile, if_true]
    · have hNotProfile : .profile .bash_profile ∉ i.writeOrder files := by
        simp only [writeOrder, resolveProfilePaths, hShell, hProfile, Bool.false_eq_true, if_false]
        split <;> decide
      by_cases hLogin : (files (.profile .bash_login)).isSome = true
      · simp only [resolveProfilePaths, hShell, hOther _ hNotProfile, hProfile, hLogin, hSome _ hLogin, if_true]
      · have hNotLogin : .profile .bash_login ∉ i.writeOrder files := by
          simp only [writeOrder, resolveProfilePaths, hShell, hProfile, hLogin]
          decide
        simp only [resolveProfilePaths, hShell, hOther _ hNotProfile, hOther _ hNotLogin]
  | _ => simp only [resolveProfilePaths, hShell]

variable {other : InstalledFiles}

theorem upToDate_iff {files : InstalledFiles} (h : i.resolveProfilePaths other = i.resolveProfilePaths files) :
    (i.rewriting files).upToDate other = true ↔ i.isCurrentInstallation other = true := by
  have hHelper : i.helperMatches i.version other = decide (other .helper = some (i.buildHelper i.shell i.version)) := by
    rw [helperMatches, decide_eq_true i.version_ne_nil, Bool.true_and]
  have hOrder : (i.rewriting files).order = [.binary, .helper] ++ ((i.resolveProfilePaths other).map InstalledFile.profile ++ [.version]) := by
    rw [h]
    rfl
  rw [Rewriting.upToDate_iff, hOrder, isCurrentInstallation, hHelper, profileHasCurrentHook]
  simp only [List.forall_mem_append, List.forall_mem_cons, List.forall_mem_map, Bool.and_eq_true, List.all_eq_true]
  constructor
  · rintro ⟨⟨hBinary, hSame, -⟩, hProfiles, hVersion, -⟩
    exact ⟨⟨⟨hVersion, hBinary⟩, hSame⟩, hProfiles⟩
  · rintro ⟨⟨⟨hVersion, hBinary⟩, hSame⟩, hProfiles⟩
    exact ⟨⟨hBinary, hSame, nofun⟩, hProfiles, hVersion, nofun⟩

theorem run_eq (h : i.resolveProfilePaths other = i.resolveProfilePaths files) (limit : Nat) :
    (i.run limit other).1 = (i.rewriting files).run limit other := by
  have hOrder : i.writeOrder other = i.writeOrder files := by rw [writeOrder, writeOrder, h]
  rw [run, Rewriting.run]
  by_cases hCurrent : i.isCurrentInstallation other = true
  · rw [if_pos hCurrent, if_pos ((i.upToDate_iff h).mpr hCurrent)]
  · rw [if_neg hCurrent, if_neg (mt (i.upToDate_iff h).mp hCurrent), hOrder]
    rfl

theorem final_eq (h : i.resolveProfilePaths other = i.resolveProfilePaths files) : i.final other = (i.rewriting files).runAll other := by
  have hOrder : i.writeOrder other = i.writeOrder files := by rw [writeOrder, writeOrder, h]
  rw [final, i.run_eq files h, hOrder]
  exact (i.rewriting files).run_of_le (Nat.le_refl _) other

theorem resolveProfilePaths_run (limit : Nat) (files : InstalledFiles) :
    i.resolveProfilePaths (i.run limit files).1 = i.resolveProfilePaths files := by
  rw [i.run_eq files rfl, Rewriting.run]
  split
  · rfl
  · exact i.resolveProfilePaths_writeAll files (List.take_append_drop limit _).symm

theorem status_of_current {files : InstalledFiles} (h : i.isCurrentInstallation files = true) :
    (i.status files).installed = true ∧ (i.status files).version = i.version := by
  simp only [isCurrentInstallation, Bool.and_eq_true] at h
  obtain ⟨⟨⟨hVersion, hBinary⟩, hHelper⟩, hProfiles⟩ := h
  have hBinary : files .binary = some i.executable := of_decide_eq_true hBinary
  have hVersion : (files .version).map readVersion = some i.version := of_decide_eq_true hVersion
  simp only [status, hVersion, hBinary, Option.getD_some, hHelper, hProfiles, Option.isSome_some, Bool.and_true,
    i.version_ne_nil, ne_eq, not_false_eq_true, decide_true, and_self]

theorem current_of_finished {limit : Nat} {files : InstalledFiles} (h : (i.run limit files).2 ≠ .failed) :
    i.isCurrentInstallation (i.run limit files).1 = true := by
  rw [← i.upToDate_iff (i.resolveProfilePaths_run limit files), i.run_eq files rfl]
  by_cases hCurrent : i.isCurrentInstallation files = true
  · have hDate : (i.rewriting files).upToDate files = true := (i.upToDate_iff rfl).mpr hCurrent
    rwa [Rewriting.run, if_pos hDate]
  · have hEnough : (i.rewriting files).order.length ≤ limit := by
      rw [run, if_neg hCurrent] at h
      by_contra hFew
      exact h (if_neg hFew)
    rw [(i.rewriting files).run_of_le hEnough]
    exact (i.rewriting files).upToDate_runAll files

theorem run_of_current {files : InstalledFiles} (h : i.isCurrentInstallation files = true) (limit : Nat) :
    i.run limit files = (files, .skipped) := if_pos h

theorem reports (limit : Nat) (h : (i.run limit files).2 ≠ .failed) :
    (i.status (i.run limit files).1).installed = true ∧ (i.status (i.run limit files).1).version = i.version ∧
      ∀ again, i.run again (i.run limit files).1 = ((i.run limit files).1, .skipped) := by
  have hCurrent := i.current_of_finished h
  obtain ⟨hInstalled, hVersion⟩ := i.status_of_current hCurrent
  exact ⟨hInstalled, hVersion, i.run_of_current hCurrent⟩

section

variable {i} (hFree : i.shell = .fish ∨ bootstrapMarkers.Free i.hook) (file : ProfileFile) (content : Option (List Byte))

include hFree

theorem stable_iff : i.nextContent (.profile file) (some (i.nextContent (.profile file) content)) = i.nextContent (.profile file) content ↔
      i.InOrder content := by
  rw [InOrder, nextContent, nextContent]
  by_cases hFish : i.shell = .fish
  · simp only [hFish, if_true, true_or]
  · have hHook := hFree.resolve_left hFish
    rw [if_neg hFish, if_neg hFish, or_iff_right hFish, ← bootstrapMarkers.replaceBlock_replaceBlock_iff separator_cases _ hHook,
      replaceMarkedBlock_eq, replaceMarkedBlock_eq]
    rfl

theorem fixed_iff : content = some (i.nextContent (.profile file) content) ↔ i.HookPlaced content := by
  cases content with
  | none =>
    constructor
    · nofun
    · rintro ⟨existing, hNone, -⟩
      cases hNone
  | some existing =>
    rw [HookPlaced, nextContent, Option.some_inj]
    by_cases hFish : i.shell = .fish
    · simp only [hFish, if_true, Option.some_inj, exists_eq_left']
    · have hHook := hFree.resolve_left hFish
      rw [if_neg hFish, Option.getD_some, replaceMarkedBlock_eq, eq_comm, bootstrapMarkers.replaceBlock_eq_self_iff separator _ hHook]
      simp only [hFish, if_false, Option.some_inj, exists_eq_left']

end

theorem writeOrder_split {files : InstalledFiles} {done rest : List InstalledFile} (h : i.writeOrder files = done ++ rest) :
    rest = [] ∨ ∃ first last front back, [InstalledFile.binary, .helper] = first ++ last ∧ i.resolveProfilePaths files = front ++ back ∧
      (last = [] ∨ front = []) ∧ done = first ++ front.map .profile ∧ rest = last ++ (back.map .profile ++ [.version]) := by
  rw [writeOrder] at h
  obtain ⟨middle, hDone, hRest⟩ | ⟨last, hFirst, hRest⟩ := List.append_eq_append_iff.mp h
  · obtain ⟨tail, hMiddle, hTail⟩ | ⟨back, hFront, hBack⟩ := List.append_eq_append_iff.mp hRest
    · cases tail with
      | nil =>
        rw [List.append_nil] at hMiddle
        exact .inr ⟨_, [], i.resolveProfilePaths files, [], (List.append_nil _).symm, (List.append_nil _).symm, .inl rfl,
          hMiddle ▸ hDone, hTail.symm⟩
      | cons file tail => exact .inl (List.append_eq_nil_iff.mp (List.cons.inj hTail).2.symm).2
    · obtain ⟨front, backFiles, hPaths, rfl, rfl⟩ := List.map_eq_append_iff.mp hFront
      exact .inr ⟨_, [], front, backFiles, (List.append_nil _).symm, hPaths, .inl rfl, hDone, hBack⟩
  · exact .inr ⟨done, last, [], i.resolveProfilePaths files, hFirst, rfl, .inr rfl, (List.append_nil _).symm, hRest⟩

section

variable {i} {files : InstalledFiles}

theorem current_rest_iff (back : List ProfileFile) :
    (∀ file ∈ back.map InstalledFile.profile ++ [.version], i.isCurrentFile file (files file) = true) ↔
      (∀ file ∈ back, i.hasCurrentHook (files (.profile file)) = true) ∧ i.hasVersion (files .version) = true := by
  rw [List.forall_mem_append, List.forall_mem_map, List.forall_mem_singleton]
  rfl

variable (hFree : i.shell = .fish ∨ bootstrapMarkers.Free i.hook)

include hFree

theorem fixed_rest_iff (back : List ProfileFile) :
    (∀ file ∈ back.map InstalledFile.profile ++ [.version], files file = some (i.nextContent file (files file))) ↔
      (∀ file ∈ back, i.HookPlaced (files (.profile file))) ∧ files .version = some (encode (i.version ++ ['\n'])) := by
  rw [List.forall_mem_append, List.forall_mem_map, List.forall_mem_singleton]
  simp only [fixed_iff hFree]
  rfl

theorem stable_front_iff {first : List InstalledFile} (hFirst : first ⊆ [.binary, .helper]) (front : List ProfileFile) :
    (∀ file ∈ first ++ front.map .profile, i.nextContent file (some (i.nextContent file (files file))) = i.nextContent file (files file)) ↔
      ∀ file ∈ front, i.InOrder (files (.profile file)) := by
  rw [List.forall_mem_append, List.forall_mem_map]
  simp only [stable_iff hFree]
  refine and_iff_right fun file hFile => ?_
  obtain rfl | hHelper := List.mem_cons.mp (hFirst hFile)
  · rfl
  · rw [List.mem_singleton.mp hHelper]
    rfl

theorem canResume_iff : (∀ done rest, i.writeOrder files = done ++ rest →
      if ∀ file ∈ rest, i.isCurrentFile file (files file) = true then ∀ file ∈ rest, files file = some (i.nextContent file (files file))
      else ∀ file ∈ done, i.nextContent file (some (i.nextContent file (files file))) = i.nextContent file (files file)) ↔
      i.CanResume files := by
  constructor
  · intro hSplit
    have hPart : ∀ front back, i.resolveProfilePaths files = front ++ back →
        if (∀ file ∈ back, i.hasCurrentHook (files (.profile file)) = true) ∧ i.hasVersion (files .version) = true then
          (∀ file ∈ back, i.HookPlaced (files (.profile file))) ∧ files .version = some (encode (i.version ++ ['\n']))
        else ∀ file ∈ front, i.InOrder (files (.profile file)) := by
      intro front back hPaths
      have hOrder : i.writeOrder files = ([.binary, .helper] ++ front.map .profile) ++ (back.map .profile ++ [.version]) := by
        rw [writeOrder, hPaths, List.map_append, List.append_assoc, List.append_assoc]
      have hAt := hSplit _ _ hOrder
      simp only [current_rest_iff, fixed_rest_iff hFree, stable_front_iff hFree (List.Subset.refl _)] at hAt
      exact hAt
    have hAll := hPart _ [] (List.append_nil _).symm
    rw [CanResume]
    by_cases hVersion : i.hasVersion (files .version) = true
    · rw [if_pos ⟨nofun, hVersion⟩] at hAll
      rw [if_pos hVersion]
      refine ⟨hAll.2, fun front back hPaths => ?_⟩
      have hAt := hPart front back hPaths
      by_cases hBack : ∀ file ∈ back, i.hasCurrentHook (files (.profile file)) = true
      · rw [if_pos ⟨hBack, hVersion⟩] at hAt
        rw [if_pos hBack]
        exact hAt.1
      · rw [if_neg fun hBoth => hBack hBoth.1] at hAt
        rwa [if_neg hBack]
    · rw [if_neg fun hBoth => hVersion hBoth.2] at hAll
      rwa [if_neg hVersion]
  · intro hResume done rest hOrder
    obtain rfl | ⟨first, last, front, back, hFirst, hPaths, hSide, rfl, rfl⟩ := i.writeOrder_split hOrder
    · rw [if_pos (by nofun)]
      nofun
    · have hSubset : first ⊆ [.binary, .helper] := hFirst ▸ List.subset_append_left first last
      rw [CanResume] at hResume
      split
      · next hCurrent =>
        obtain ⟨hLast, hRest⟩ := List.forall_mem_append.mp hCurrent
        obtain ⟨hHooks, hVersion⟩ := (current_rest_iff back).mp hRest
        rw [if_pos hVersion] at hResume
        obtain ⟨hExact, hParts⟩ := hResume
        have hPlaced := hParts front back hPaths
        rw [if_pos hHooks] at hPlaced
        refine List.forall_mem_append.mpr ⟨fun file hFile => ?_, (fixed_rest_iff hFree back).mpr ⟨hPlaced, hExact⟩⟩
        have hIs := hLast file hFile
        have hMem : file ∈ [InstalledFile.binary, .helper] := hFirst ▸ List.mem_append_right first hFile
        obtain rfl | hHelper := List.mem_cons.mp hMem
        · exact of_decide_eq_true hIs
        · rw [List.mem_singleton.mp hHelper] at hIs ⊢
          exact of_decide_eq_true hIs
      · next hCurrent =>
        rw [stable_front_iff hFree hSubset]
        by_cases hVersion : i.hasVersion (files .version) = true
        · rw [if_pos hVersion] at hResume
          have hAt := hResume.2 front back hPaths
          split at hAt
          · next hHooks =>
            obtain rfl | rfl := hSide
            · exact absurd ((current_rest_iff back).mpr ⟨hHooks, hVersion⟩) hCurrent
            · nofun
          · exact hAt
        · rw [if_neg hVersion] at hResume
          intro file hFile
          exact hResume file (hPaths ▸ List.mem_append_left back hFile)

end

theorem hasOneBlock_next_iff (file : ProfileFile) (content : Option (List Byte)) :
    i.HasOneBlock (some (i.nextContent (.profile file) content)) ↔ i.OnlyBlock content := by
  rw [HasOneBlock, OnlyBlock, nextContent, Option.getD_some]
  by_cases hFish : i.shell = .fish
  · have hNonempty : i.hook ≠ [] := by
      intro hNil
      have hText := congrArg decode hNil
      rw [hook, decode_encode, profileBlock, if_pos hFish, fishProfileBlock] at hText
      cases (List.append_eq_nil_iff.mp hText).1
    simp only [hFish, if_true, true_or, iff_true]
    exact ⟨[], [], by simpa using cut_self hNonempty [], fun hInfix => hNonempty (List.infix_nil.mp hInfix)⟩
  · rw [if_neg hFish, if_neg hFish, or_iff_right hFish, replaceMarkedBlock_eq]
    constructor
    · intro hOne
      have hInside := bootstrapMarkers.free_of_mem_blocks (hOne ▸ List.mem_singleton_self _)
      have hHook : bootstrapMarkers.Free i.hook :=
        ⟨fun hInfix => hInside.start (List.infix_cons hInfix), fun hInfix => hInside.stop (List.infix_cons hInfix)⟩
      exact ⟨hHook, (bootstrapMarkers.blocks_replaceBlock_iff separator_cases _ hHook).mp hOne⟩
    · rintro ⟨hHook, hOther⟩
      exact (bootstrapMarkers.blocks_replaceBlock_iff separator_cases _ hHook).mpr hOther

theorem resolveProfilePaths_ne_nil : i.resolveProfilePaths files ≠ [] := by
  rw [resolveProfilePaths]
  cases i.shell <;> exact List.cons_ne_nil _ _

theorem final_profile {files : InstalledFiles} (h : i.isCurrentInstallation files = false) {file : ProfileFile}
    (hFile : file ∈ i.resolveProfilePaths files) :
    i.final files (.profile file) = some (i.nextContent (.profile file) (files (.profile file))) := by
  have hOrder : InstalledFile.profile file ∈ (i.rewriting files).order :=
    List.mem_append_right _ (List.mem_append_left _ (List.mem_map_of_mem hFile))
  have hNot : ¬ (i.rewriting files).upToDate files = true := by
    rw [i.upToDate_iff rfl, h]
    exact Bool.false_ne_true
  rw [i.final_eq files rfl, Rewriting.runAll, if_neg hNot, Rewriting.writeAll_apply _ (i.rewriting files).nodup, if_pos hOrder]
  rfl

theorem resumes_iff : (∀ limit, i.final (i.run limit files).1 = i.final files) ↔
      i.isCurrentInstallation files = true ∨ ∀ done rest, i.writeOrder files = done ++ rest →
        if ∀ file ∈ rest, i.isCurrentFile file (files file) = true then ∀ file ∈ rest, files file = some (i.nextContent file (files file))
        else ∀ file ∈ done, i.nextContent file (some (i.nextContent file (files file))) = i.nextContent file (files file) := by
  have hFinal : ∀ limit, i.final (i.run limit files).1 = (i.rewriting files).runAll ((i.rewriting files).run limit files) := by
    intro limit
    rw [i.final_eq files (i.resolveProfilePaths_run limit files), i.run_eq files rfl]
  simp only [hFinal, i.final_eq files rfl]
  rw [(i.rewriting files).resumes_iff, i.upToDate_iff rfl]
  rfl

end Installer

theorem installation_converges_iff (i : Installer) (files : InstalledFiles) : i.Converges files ↔ i.CanConverge files := by
  rw [Installer.CanConverge]
  by_cases hCurrent : i.isCurrentInstallation files = true
  · have hFinal : i.final files = files := congrArg Prod.fst (i.run_of_current hCurrent _)
    rw [if_pos hCurrent]
    constructor
    · intro h file hFile
      have hOne := h.oneBlock file hFile
      rwa [hFinal] at hOne
    · intro h
      refine ⟨i.reports files, (i.resumes_iff files).mpr (.inl hCurrent), fun file hFile => ?_⟩
      rw [hFinal]
      exact h file hFile
  · have hOld : i.isCurrentInstallation files = false := Bool.eq_false_iff.mpr hCurrent
    have hBlocks : (∀ file ∈ i.resolveProfilePaths files, i.HasOneBlock (i.final files (.profile file))) ↔
        ∀ file ∈ i.resolveProfilePaths files, i.OnlyBlock (files (.profile file)) := by
      refine forall₂_congr fun file hFile => ?_
      rw [i.final_profile hOld hFile, i.hasOneBlock_next_iff]
    have hHook : (∀ file ∈ i.resolveProfilePaths files, i.OnlyBlock (files (.profile file))) →
        i.shell = .fish ∨ bootstrapMarkers.Free i.hook := by
      intro hOnly
      obtain ⟨file, rest, hPaths⟩ := List.exists_cons_of_ne_nil (i.resolveProfilePaths_ne_nil files)
      exact (hOnly file (hPaths ▸ List.mem_cons_self)).imp_right And.left
    rw [if_neg hCurrent]
    constructor
    · intro h
      have hOnly := hBlocks.mp h.oneBlock
      exact ⟨hOnly, (Installer.canResume_iff (hHook hOnly)).mp (((i.resumes_iff files).mp h.resumes).resolve_left hCurrent)⟩
    · rintro ⟨hOnly, hResume⟩
      exact ⟨i.reports files, (i.resumes_iff files).mpr (.inr ((Installer.canResume_iff (hHook hOnly)).mpr hResume)), hBlocks.mpr hOnly⟩

def zshInstaller : Installer where
  executable := [0x7f]
  buildHelper := fun _ _ => [0x23]
  isPrint := fun _ => true
  environment := ⟨['/', 'u'], [], []⟩
  shell := .zsh
  version := ['1']
  paths := ⟨"/u/.local/share/cosmosh/bootstrap/bin".toList, "/u/.config/cosmosh/bootstrap/helper.sh".toList⟩
  version_valid := by decide
  paths_resolved := by decide

def unclosedProfile : InstalledFiles := fun file =>
  if file = .profile .zshrc then some (markerStart ++ encode "\nalias ll='ls -l'\n".toList) else none

theorem stopped_installation_does_not_converge : ¬ ∀ (i : Installer) (files : InstalledFiles), i.Converges files := by
  intro hAll
  have hSame := congrFun ((hAll zshInstaller unclosedProfile).resumes 3) (.profile .zshrc)
  exact absurd hSame (by decide +kernel)

end RemoteBootstrap
