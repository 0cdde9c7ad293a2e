import Cosmosh.Library.Environments
import Cosmosh.Sftp.TreeServer

/-! # Copying an entry with everything below it

The copy reads the directory it copies after it has made its own.
-/

namespace Sftp

open Library Library.PosixPath Library.FileTree

variable {home : Place} {t t' : RemoteTree}

structure GrownAt (t : RemoteTree) (place : Place) (t' : RemoteTree) : Prop where
  kept : Extends t t'
  inside : ∀ other, t'.entries other ≠ t.entries other → place <+: other

variable {place : Place}

theorem GrownAt.trans {below : Place} {t'' : RemoteTree} (h : GrownAt t place t') (h' : GrownAt t' below t'') (hBelow : place <+: below) :
    GrownAt t place t'' where
  kept := h.kept.trans h'.kept
  inside := by
    intro other hChanged
    by_cases hLater : t''.entries other = t'.entries other
    · exact h.inside other fun hSame => hChanged (hLater.trans hSame)
    · exact hBelow.trans (h'.inside other hLater)

theorem GrownAt.same {other : Place} (h : GrownAt t place t') (hOther : ¬ place <+: other) : t'.entries other = t.entries other := by
  by_contra hChanged
  exact hOther (h.inside other hChanged)

theorem grownAt_of_update {entry : Entry Bytes} (hFree : t.entries place = none)
    (h : t'.entries = Function.update t.entries place (some entry)) : GrownAt t place t' where
  kept := by
    intro other old hOld
    have hOther : other ≠ place := by
      rintro rfl
      rw [hFree] at hOld
      cases hOld
    rw [h, Function.update_of_ne hOther, hOld]
  inside := by
    intro other hChanged
    by_contra hElsewhere
    have hOther : other ≠ place := fun hSame => hElsewhere (hSame ▸ List.prefix_rfl)
    rw [h, Function.update_of_ne hOther] at hChanged
    exact hChanged rfl

variable {name : Text}

theorem not_prefix_sibling {rest : Place} {other : Text} (h : name ≠ other) : ¬ place ++ [name] <+: place ++ other :: rest := by
  rintro ⟨tail, hTail⟩
  rw [List.append_assoc] at hTail
  have hCons := List.append_cancel_left hTail
  cases hCons
  exact h rfl

structure Progress (t made : RemoteTree) (source target : Place) (copied : List Text) (t' : RemoteTree) : Prop where
  kept : Extends made t'
  inside : ∀ other, t'.entries other ≠ made.entries other → ∃ name ∈ copied, target ++ [name] <+: other
  same : ∀ name ∈ copied, ∀ rest, t'.entries (target ++ name :: rest) = t.entries (source ++ name :: rest)

variable {made : RemoteTree} {source target : Place} {copied : List Text}

theorem Progress.grownAt (h : Progress t made source target copied t') : GrownAt made target t' where
  kept := h.kept
  inside := by
    intro other hChanged
    obtain ⟨name, -, hBelow⟩ := h.inside other hChanged
    exact (List.prefix_append target [name]).trans hBelow

theorem Progress.free (h : Progress t made source target copied t') (hFree : ∀ name, made.entries (target ++ [name]) = none)
    (hName : name ∉ copied) : t'.entries (target ++ [name]) = none := by
  by_contra hTaken
  obtain ⟨other, hOther, hBelow⟩ := h.inside (target ++ [name]) fun hSame => hTaken (hSame.trans (hFree name))
  exact not_prefix_sibling (fun hSame : other = name => hName (hSame ▸ hOther)) hBelow

theorem Progress.next {t'' : RemoteTree} (h : Progress t made source target copied t') (hName : name ∉ copied)
    (hGrown : GrownAt t' (target ++ [name]) t'') (hCopied : ∀ rest, t''.entries (target ++ name :: rest) = t.entries (source ++ name :: rest)) :
    Progress t made source target (copied ++ [name]) t'' where
  kept := h.kept.trans hGrown.kept
  inside := by
    intro other hChanged
    by_cases hLater : t''.entries other = t'.entries other
    · obtain ⟨old, hOld, hBelow⟩ := h.inside other fun hSame => hChanged (hLater.trans hSame)
      exact ⟨old, List.mem_append_left _ hOld, hBelow⟩
    · exact ⟨name, by simp, hGrown.inside other hLater⟩
  same := by
    intro old hOld rest
    obtain hOld | hNew := List.mem_append.mp hOld
    · have hApart : name ≠ old := fun hSame => hName (hSame ▸ hOld)
      rw [hGrown.same (not_prefix_sibling hApart), h.same old hOld]
    · rw [List.mem_singleton.mp hNew, hCopied]

variable {names : List Text}

theorem spends_children {n : Nat} {body : Text → SftpProgram Unit} (hFree : ∀ name, made.entries (target ++ [name]) = none)
    (hNodup : (copied ++ names).Nodup) (hBody : ∀ name ∈ names, ∀ t', GrownAt made target t' → t'.entries (target ++ [name]) = none →
      Program.Spends (treeServer home) n (fun outcome t'' => GrownAt t' (target ++ [name]) t'' ∧
        (outcome = .ok () → ∀ rest, t''.entries (target ++ name :: rest) = t.entries (source ++ name :: rest))) (body name) t')
    (hProgress : Progress t made source target copied t') :
    Program.Spends (treeServer home) (names.length * n) (fun outcome t'' => GrownAt made target t'' ∧
      ∀ results, outcome = .ok results → Progress t made source target (copied ++ names) t'') (Program.forEach body names) t' := by
  induction names generalizing copied t' with
  | nil =>
    refine .done ⟨hProgress.grownAt, fun _ _ => ?_⟩
    rwa [List.append_nil]
  | cons name names ih =>
    have hName : name ∉ copied := fun hMem => (List.nodup_append.mp hNodup).2.2 name hMem name List.mem_cons_self rfl
    have hRest : ((copied ++ [name]) ++ names).Nodup := by rwa [List.append_assoc, List.singleton_append]
    have hFirst := hBody name List.mem_cons_self t' hProgress.grownAt (hProgress.free hFree hName)
    have hCost : (name :: names).length * n = n + (names.length * n + 0) := by
      rw [List.length_cons, Nat.succ_mul, Nat.add_comm, Nat.add_zero]
    rw [hCost, Program.forEach]
    refine hFirst.bind ?_ ?_
    · rintro _ t'' ⟨hGrown, hCopied⟩
      have hNext := ih hRest (fun other hOther => hBody other (List.mem_cons_of_mem name hOther)) (hProgress.next hName hGrown (hCopied rfl))
      refine hNext.bind ?_ ?_
      · rintro results t''' ⟨hAll, hDone⟩
        refine .done ⟨hAll, fun _ _ => ?_⟩
        have hLast := hDone results rfl
        rwa [List.append_assoc, List.singleton_append] at hLast
      · rintro e t''' ⟨hAll, -⟩
        exact ⟨hAll, nofun⟩
    · rintro e t'' ⟨hGrown, -⟩
      exact ⟨hProgress.grownAt.trans hGrown (List.prefix_append target [name]), nofun⟩

structure Bounded (t : RemoteTree) (place : Place) (width height : Nat) : Prop where
  deep : ∀ rest, t.entries (place ++ rest) ≠ none → rest.length ≤ height
  wide : ∀ rest names, t.Children (place ++ rest) names → names.length ≤ width

variable {height : Nat}

theorem Bounded.congr {width : Nat} (h : Bounded t place width height)
    (hSame : ∀ rest, t'.entries (place ++ rest) = t.entries (place ++ rest)) : Bounded t' place width height where
  deep := fun rest hEntry => h.deep rest (hSame rest ▸ hEntry)
  wide := by
    rintro rest names ⟨hNodup, hNames⟩
    refine h.wide rest names ⟨hNodup, fun name => ?_⟩
    rw [hNames, List.append_assoc, hSame]

theorem Bounded.child {width : Nat} (h : Bounded t place width (height + 1)) : Bounded t (place ++ [name]) width height where
  deep := by
    intro rest hEntry
    rw [List.append_assoc] at hEntry
    have hLength := h.deep _ hEntry
    rw [List.length_append, List.length_singleton] at hLength
    omega
  wide := by
    intro rest names hNames
    rw [List.append_assoc] at hNames
    exact h.wide _ names hNames

def copyCost (width : Nat) : Nat → Nat
  | 0 => 3
  | height + 1 => 3 + width * copyCost width height

structure Copied (t : RemoteTree) (home : Place) (targetPath : Text) (source : Place) (outcome : Except SftpError Unit) (t' : RemoteTree) : Prop where
  kept : Extends t t'
  inside : ∀ other, t'.entries other ≠ t.entries other → ∃ target, Fresh t home targetPath target ∧ target <+: other
  same : outcome = .ok () → ∃ target, Fresh t home targetPath target ∧ ∀ rest, t'.entries (target ++ rest) = t.entries (source ++ rest)

variable {targetPath : Text}

theorem Copied.unchanged (t : RemoteTree) (e : SftpError) : Copied t home targetPath source (.error e) t :=
  ⟨Extends.refl t, fun _ h => absurd rfl h, nofun⟩

theorem Copied.failed {e : SftpError} (hFresh : Fresh t home targetPath target) (h : GrownAt t target t') :
    Copied t home targetPath source (.error e) t' := ⟨h.kept, fun other hChanged => ⟨target, hFresh, h.inside other hChanged⟩, nofun⟩

theorem spends_of_leads {operation : String} {impact : SftpOperationImpact} {q : Request} {after : Except SftpError q.Answer → RemoteTree → Prop}
    (h : Leads home after (call operation impact q) t) : Program.Spends (treeServer home) 1 after (call operation impact q) t := by
  intro k limit hLimit
  refine ⟨hLimit, ?_⟩
  rintro result ⟨t', k'⟩ ⟨hEffect, rfl⟩
  have hEnd := h.2 result t' hEffect
  cases result with
  | ok answer => exact ⟨hEnd, Nat.le_refl _⟩
  | error e => exact ⟨hEnd, Nat.le_refl _⟩

theorem GrownAt.frozen (h : GrownAt t target t') (hFree : t.entries target = none) (hSource : t.entries source ≠ none)
    (hApart : ¬ source <+: target) (rest : Place) : t'.entries (source ++ rest) = t.entries (source ++ rest) :=
  h.same (not_prefix_of_free hFree hSource hApart)

theorem Children.frozen (h : FileTree.Children t' source names) (hGrown : GrownAt t target t') (hFree : t.entries target = none)
    (hSource : t.entries source ≠ none) (hApart : ¬ source <+: target) : t.Children source names := by
  refine ⟨h.1, fun name => ?_⟩
  rw [h.2, hGrown.frozen hFree hSource hApart]

theorem Progress.complete (h : Progress t made source target names t') (hFree : ∀ name, made.entries (target ++ [name]) = none)
    (hMade : made.entries target = some .directory) (hDirectory : t.entries source = some .directory)
    (hNames : t.Children source names) (rest : Place) : t'.entries (target ++ rest) = t.entries (source ++ rest) := by
  cases rest with
  | nil => rw [List.append_nil, List.append_nil, h.kept _ _ hMade, hDirectory]
  | cons name rest =>
    by_cases hName : name ∈ names
    · exact h.same name hName rest
    · have hMissing : t.entries (source ++ [name]) = none := by
        by_contra hThere
        exact hName ((hNames.2 name).mpr hThere)
      have hNew := none_from (h.free hFree hName) rest
      have hOld := none_from hMissing rest
      rw [List.append_assoc, List.singleton_append] at hNew hOld
      rw [hNew, hOld]

variable {sourcePath : Text}

theorem spends_copyDirectory {mode width n : Nat} {copyChild : Text → SftpProgram Unit}
    (hFollows : Follows t (start home sourcePath) (segments sourcePath) source)
    (hDirectory : t.entries source = some .directory) (hWide : ∀ names, t.Children source names → names.length ≤ width)
    (hApart : ∀ target, Fresh t home targetPath target → ¬ source <+: target)
    (hChild : ∀ target t' name, Fresh t home targetPath target → GrownAt t target t' → t'.entries target = some .directory →
      t.entries (source ++ [name]) ≠ none → t'.entries (target ++ [name]) = none →
      Program.Spends (treeServer home) n (fun outcome t'' => GrownAt t' (target ++ [name]) t'' ∧
        (outcome = .ok () → ∀ rest, t''.entries (target ++ name :: rest) = t.entries (source ++ name :: rest))) (copyChild name) t') :
    Program.Spends (treeServer home) (2 + width * n) (Copied t home targetPath source)
      ((Remote.mkdir targetPath mode).bind fun _ => (Remote.readdir sourcePath).bind fun children =>
        (Program.forEach copyChild (childNames children)).bind fun _ => .done ()) t := by
  have hSource : t.entries source ≠ none := by simp [hDirectory]
  refine Program.Spends.mono ((spends_of_leads (leads_mkdir targetPath mode)).bind (m := 1 + width * n) ?_ ?_) (by omega) fun _ _ hAfter => hAfter
  · rintro _ made (⟨-, e, hError⟩ | ⟨target, hFresh, hEntries⟩)
    · cases hError
    · have hFree := hFresh.free
      have hGrown := grownAt_of_update hFree hEntries
      have hMade : made.entries target = some .directory := by rw [hEntries, Function.update_self]
      have hEmpty := Makes.empty ⟨target, hFresh, hEntries⟩ hFresh
      refine (spends_of_leads (leads_readdir sourcePath)).bind ?_ ?_
      · rintro children made ⟨rfl, hListed⟩
        obtain ⟨place, hPlace, -, hChildren⟩ := hListed children rfl
        obtain rfl := hPlace.unique (hFollows.mono hGrown.kept)
        have hChildren := Children.frozen hChildren hGrown hFree hSource (hApart target hFresh)
        have hStart : Progress t made place target [] made := ⟨Extends.refl _, fun _ h => absurd rfl h, nofun⟩
        have hNodup : ([] ++ childNames children).Nodup := hChildren.1
        have hLoop := spends_children hEmpty hNodup (fun name hName t' hLater hVacant => hChild target t' name hFresh
          (hGrown.trans hLater List.prefix_rfl) (hLater.kept _ _ hMade) ((hChildren.2 name).mp hName) hVacant) hStart
        have hCost : (childNames children).length * n ≤ width * n := Nat.mul_le_mul_right n (hWide _ hChildren)
        refine Program.Spends.mono (hLoop.bind (m := 0) ?_ ?_) hCost fun _ _ hAfter => hAfter
        · rintro results t' ⟨hLater, hDone⟩
          have hAll := hGrown.trans hLater List.prefix_rfl
          refine .done ⟨hAll.kept, fun other hChanged => ⟨target, hFresh, hAll.inside other hChanged⟩, fun _ => ⟨target, hFresh, ?_⟩⟩
          exact (hDone results rfl).complete hEmpty hMade hDirectory hChildren
        · rintro e t' ⟨hLater, -⟩
          exact .failed hFresh (hGrown.trans hLater List.prefix_rfl)
      · rintro e _ ⟨rfl, -⟩
        exact .failed hFresh hGrown
  · rintro e t' (⟨rfl, -⟩ | ⟨target, hFresh, hEntries⟩)
    · exact .unchanged _ e
    · exact .failed hFresh (grownAt_of_update hFresh.free hEntries)

theorem spends_copyFile {content : Bytes} {mode n : Nat} (hPositive : 0 < n)
    (hFollows : Follows t (start home sourcePath) (segments sourcePath) source) (hEntry : t.entries source = some (.file content)) :
    Program.Spends (treeServer home) n (Copied t home targetPath source) (Remote.copyStream sourcePath targetPath mode) t := by
  refine (spends_of_leads (leads_copyStream sourcePath targetPath mode)).mono hPositive ?_
  rintro outcome t' ⟨hLeft, hCopied⟩
  have hGrown : t' = t ∨ ∃ target, Fresh t home targetPath target ∧ GrownAt t target t' := by
    obtain hSame | ⟨other, target, hFresh, hEntries⟩ := hLeft
    · exact .inl hSame
    · exact .inr ⟨target, hFresh, grownAt_of_update hFresh.free hEntries⟩
  cases outcome with
  | error e =>
    obtain rfl | ⟨target, hFresh, hLater⟩ := hGrown
    · exact .unchanged _ e
    · exact .failed hFresh hLater
  | ok _ =>
    obtain ⟨place, copied, hPlace, hFile, target, hFresh, hEntries⟩ := hCopied rfl
    obtain rfl := hPlace.unique hFollows
    rw [hEntry] at hFile
    cases hFile
    have hLater := grownAt_of_update hFresh.free hEntries
    refine ⟨hLater.kept, fun other hChanged => ⟨target, hFresh, hLater.inside other hChanged⟩, fun _ => ⟨target, hFresh, fun rest => ?_⟩⟩
    have hMade : t'.entries target = some (.file content) := by rw [hEntries, Function.update_self]
    by_cases hRest : rest = []
    · rw [hRest, List.append_nil, List.append_nil, hMade, hEntry]
    · rw [none_below (by simp [hMade]) hRest, none_below (by simp [hEntry]) hRest]

theorem not_prefix_concat (h : ¬ source <+: target) : ¬ source ++ [name] <+: target ++ [name] := by
  intro hBelow
  obtain hSame | hAbove := List.prefix_concat_iff.mp ((List.prefix_append source [name]).trans hBelow)
  · have hLength := hBelow.length_le
    rw [hSame, List.length_append, List.length_singleton] at hLength
    omega
  · exact h hAbove

theorem Copied.grownAt {outcome : Except SftpError Unit} (h : Copied t home targetPath source outcome t')
    (hFresh : Fresh t home targetPath target) :
    GrownAt t target t' ∧ (outcome = .ok () → ∀ rest, t'.entries (target ++ rest) = t.entries (source ++ rest)) := by
  refine ⟨⟨h.kept, fun other hChanged => ?_⟩, fun hOk => ?_⟩
  · obtain ⟨place, hPlace, hBelow⟩ := h.inside other hChanged
    rwa [hFresh.unique hPlace]
  · obtain ⟨place, hPlace, hSame⟩ := h.same hOk
    rwa [hFresh.unique hPlace]

theorem spends_copyEntryRecursive (session : SftpLiveSession) (width depth : Nat)
    (hSourceNormal : normalize sourcePath = sourcePath) (hTargetNormal : normalize targetPath = targetPath)
    (hNames : Names t home sourcePath source) (hBounded : Bounded t source width height)
    (hApart : ∀ target, Fresh t home targetPath target → ¬ source <+: target) :
    Program.Spends (treeServer home) (copyCost width height) (Copied t home targetPath source)
      (copyEntryRecursive session depth sourcePath targetPath) t := by
  induction depth generalizing t height sourcePath targetPath source with
  | zero => exact .fail (.unchanged t _)
  | succ depth ih =>
    have hThree : 3 ≤ copyCost width height := by
      cases height with
      | zero => exact Nat.le_refl 3
      | succ height => exact Nat.le_add_right 3 _
    rw [copyEntryRecursive]
    refine Program.Spends.mono ((spends_of_leads (leads_lstat sourcePath)).bind (m := copyCost width height - 1) ?_ ?_) (by omega)
      fun _ _ hAfter => hAfter
    · rintro stats t ⟨rfl, hStats⟩
      obtain ⟨place, entry, hNamed, hEntry, hType⟩ := hStats stats rfl
      obtain rfl := hNamed.unique hNames
      split
      · rename_i hIsDirectory
        obtain rfl := entry_of_isDirectory hType hIsDirectory
        have hFollows := hNames.follows hEntry
        cases height with
        | zero =>
          have hCost : copyCost width 0 - 1 = 2 + width * 0 := rfl
          rw [hCost]
          refine spends_copyDirectory hFollows hEntry ?_ hApart ?_
          · intro names hChildren
            exact hBounded.wide [] names (by rwa [List.append_nil])
          · intro target t' name _ _ _ hThere _
            exact absurd (hBounded.deep [name] hThere) (by simp)
        | succ height =>
          have hCost : copyCost width (height + 1) - 1 = 2 + width * copyCost width height := by
            rw [copyCost]
            omega
          rw [hCost]
          refine spends_copyDirectory hFollows hEntry ?_ hApart ?_
          · intro names hChildren
            exact hBounded.wide [] names (by rwa [List.append_nil])
          · intro target t' name hFresh hGrown hMade hThere hVacant
            have hPlain := t.plain place name hThere
            have hFrozen := hGrown.frozen hFresh.free (by simp [hEntry]) (hApart target hFresh)
            obtain ⟨hSourceChild, hSourceChildNormal⟩ := childPath_joinSftpPath hSourceNormal hPlain
            obtain ⟨hTargetChild, hTargetChildNormal⟩ := childPath_joinSftpPath hTargetNormal hPlain
            have hChildNames := (hSourceChild.names hFollows hEntry).mono hGrown.kept
            have hChildFresh := hTargetChild.fresh (hFresh.follows_made hGrown.kept hMade) ⟨hMade, hPlain, hVacant⟩
            have hChildBounded : Bounded t' (place ++ [name]) width height := hBounded.child.congr fun rest => by rw [List.append_assoc, hFrozen]
            have hChildApart : ∀ other, Fresh t' home (joinSftpPath targetPath name) other → ¬ place ++ [name] <+: other := by
              intro other hOther
              rw [hOther.unique hChildFresh]
              exact not_prefix_concat (hApart target hFresh)
            refine (ih hSourceChildNormal hTargetChildNormal hChildNames hChildBounded hChildApart).mono (Nat.le_refl _) ?_
            intro outcome t'' hCopied
            obtain ⟨hLater, hSame⟩ := hCopied.grownAt hChildFresh
            refine ⟨hLater, fun hOk rest => ?_⟩
            have hRest := hSame hOk rest
            rw [List.append_assoc, List.append_assoc, hFrozen] at hRest
            exact hRest
      · split
        · rename_i hIsFile
          obtain ⟨content, rfl⟩ := entry_of_isFile hType hIsFile
          exact spends_copyFile (by omega) (hNames.follows_leaf hEntry rfl) hEntry
        · exact .fail (.unchanged _ _)
    · rintro e _ ⟨rfl, -⟩
      exact .unchanged _ e

end Sftp
