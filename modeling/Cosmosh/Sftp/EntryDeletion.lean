import Cosmosh.Sftp.TreeServer

/-! # What a recursive deletion removes

Every request goes to a path that is resolved again, in a tree that has lost entries since.
-/

namespace Sftp

open Library Library.PosixPath Library.FileTree

variable {home : Place} {t t' : RemoteTree}

structure Cut (t : RemoteTree) (home : Place) (path : Text) (t' : RemoteTree) : Prop where
  kept : Extends t' t
  inside : ∀ place, t'.entries place ≠ t.entries place → ∃ top, Names t home path top ∧ top <+: place

def Gone (t : RemoteTree) (home : Place) (path : Text) (t' : RemoteTree) : Prop :=
  ∃ top, Names t home path top ∧ ∀ place, top <+: place → t'.entries place = none

theorem Cut.refl (t : RemoteTree) (home : Place) (path : Text) : Cut t home path t := ⟨Extends.refl t, fun _ h => absurd rfl h⟩

variable {path : Text} {t'' : RemoteTree}

theorem Cut.trans (h : Cut t home path t') (h' : Cut t' home path t'') : Cut t home path t'' where
  kept := h'.kept.trans h.kept
  inside := by
    intro place hChanged
    by_cases hLater : t''.entries place = t'.entries place
    · exact h.inside place fun hSame => hChanged (hLater.trans hSame)
    · obtain ⟨top, hTop, hBelow⟩ := h'.inside place hLater
      exact ⟨top, hTop.mono h.kept, hBelow⟩

variable {isDirectory : Bool}

theorem removes_cut (h : Removes t home path isDirectory t') : Cut t home path t' := by
  obtain ⟨top, entry, hNames, -, -, -, hEntries⟩ := h
  refine ⟨?_, ?_⟩
  · intro place kept hKept
    rw [hEntries] at hKept
    have hOther : place ≠ top := by
      rintro rfl
      rw [Function.update_self] at hKept
      cases hKept
    rwa [Function.update_of_ne hOther] at hKept
  · intro place hChanged
    refine ⟨top, hNames, ?_⟩
    by_contra hElsewhere
    have hOther : place ≠ top := fun hTop => hElsewhere (hTop ▸ List.prefix_rfl)
    rw [hEntries, Function.update_of_ne hOther] at hChanged
    exact hChanged rfl

theorem removes_gone (h : Removes t home path isDirectory t') : Gone t home path t' := by
  obtain ⟨top, entry, hNames, -, -, -, hEntries⟩ := h
  have hTop : t'.entries top = none := by rw [hEntries, Function.update_self]
  refine ⟨top, hNames, ?_⟩
  rintro place ⟨rest, rfl⟩
  exact none_from hTop rest

theorem Gone.mono (h : Gone t' home path t'') (hKept : Extends t' t) : Gone t home path t'' := by
  obtain ⟨top, hNames, hNone⟩ := h
  exact ⟨top, hNames.mono hKept, hNone⟩

theorem Cut.ofChild {child name : Text} {top : Place} (hChild : ChildPath path child name) (hNames : Names t home path top)
    (hDirectory : t.entries top = some .directory) (h : Cut t home path t') (h' : Cut t' home child t'') : Cut t home path t'' where
  kept := h'.kept.trans h.kept
  inside := by
    intro place hChanged
    by_cases hLater : t''.entries place = t'.entries place
    · exact h.inside place fun hSame => hChanged (hLater.trans hSame)
    · obtain ⟨entry, hEntry, hBelow⟩ := h'.inside place hLater
      have hExpected := hChild.names (hNames.follows hDirectory) hDirectory
      obtain rfl := (hEntry.mono h.kept).unique hExpected
      exact ⟨top, hNames, (List.prefix_append top [name]).trans hBelow⟩

theorem leads_remove {request : SftpProgram Unit}
    (h : Leads home (fun outcome t' => (t' = t ∧ ∃ e, outcome = .error e) ∨ Removes t home path isDirectory t') request t) :
    Leads home (fun outcome t' => Cut t home path t' ∧ (outcome = .ok () → Gone t home path t')) request t := by
  refine h.mono ?_
  rintro outcome t' (⟨rfl, e, rfl⟩ | hRemoved)
  · exact ⟨.refl t' home path, nofun⟩
  · exact ⟨removes_cut hRemoved, fun _ => removes_gone hRemoved⟩

theorem leads_deleteEntryRecursive (depth : Nat) (hNormal : normalize path = path) (recursive : Bool) (t : RemoteTree) :
    Leads home (fun outcome t' => Cut t home path t' ∧ (outcome = .ok () → Gone t home path t')) (deleteEntryRecursive depth path recursive) t := by
  induction depth generalizing path recursive t with
  | zero => exact ⟨.refl t home path, nofun⟩
  | succ depth ih =>
    rw [deleteEntryRecursive]
    refine (leads_lstat path).bind ?_ ?_
    · rintro stats _ ⟨rfl, hStats⟩
      obtain ⟨top, entry, hNames, hEntry, hType⟩ := hStats stats rfl
      split
      · exact leads_remove (leads_unlink path)
      · rename_i hIsDirectory
        obtain rfl := entry_of_isDirectory hType (by simpa using hIsDirectory)
        split
        · exact leads_remove (leads_rmdir path)
        · refine (leads_readdir path).bind ?_ ?_
          · rintro entries t ⟨rfl, hEntries⟩
            obtain ⟨place, hFollows, -, hChildren⟩ := hEntries entries rfl
            obtain rfl := hFollows.unique (hNames.follows hEntry)
            -- The directory is named as before whatever has gone from it.
            have hLoop : Leads home (fun outcome t' => Cut t home path t' ∧ ∀ results, outcome = .ok results →
                List.Forall₂ (fun _ _ => True) (childNames entries) results)
                (Program.forEach (fun name => deleteEntryRecursive depth (joinSftpPath path name) true) (childNames entries)) t := by
              refine Program.Safe.forEach (Cut.refl t home path) ?_
              intro name hName t' hCut
              obtain ⟨hChild, hChildNormal⟩ := childPath_joinSftpPath hNormal (hChildren.plain hName)
              refine (ih hChildNormal true t').mono ?_
              exact fun outcome t'' hAfter => ⟨hCut.ofChild hChild hNames hEntry hAfter.1, fun _ _ => trivial⟩
            refine hLoop.bind ?_ ?_
            · rintro _ t' ⟨hCut, -⟩
              refine (leads_remove (leads_rmdir path)).mono ?_
              exact fun outcome t'' hAfter => ⟨hCut.trans hAfter.1, fun hOk => (hAfter.2 hOk).mono hCut.kept⟩
            · rintro e t' ⟨hCut, -⟩
              exact ⟨hCut, nofun⟩
          · rintro e _ ⟨rfl, -⟩
            exact ⟨.refl _ home path, nofun⟩
    · rintro e _ ⟨rfl, -⟩
      exact ⟨.refl _ home path, nofun⟩

theorem leads_deleteEntryPrimitive (session : SftpLiveSession) (depth : Nat) (raw : Text) (recursive : Bool) (t : RemoteTree) :
    Leads home (fun outcome t' => Cut t home (normalizeSftpPathInput (some raw)) t' ∧
      ∀ data, outcome = .ok (.success data) → Gone t home (normalizeSftpPathInput (some raw)) t')
      (deleteEntryPrimitive session depth (some raw) recursive) t := by
  have hSame := Cut.refl t home (normalizeSftpPathInput (some raw))
  refine leads_withOpenSession ?_ ⟨hSame, by rintro _ ⟨⟩⟩ fun _ => ⟨hSame, by rintro _ ⟨⟩⟩
  rw [withMutablePath]
  split
  · refine leads_reporting (.bind (leads_deleteEntryRecursive depth (normalize_normalizeSftpPathInput raw) recursive t) ?_ ?_) ?_
    · rintro _ t' ⟨hCut, hGone⟩
      exact ⟨hCut, fun _ _ => hGone rfl⟩
    · rintro e t' ⟨hCut, -⟩
      exact ⟨hCut, by rintro _ ⟨⟩⟩
    · rintro e t' ⟨hCut, -⟩
      exact ⟨hCut, by rintro _ ⟨⟩⟩
  · exact ⟨hSame, by rintro _ ⟨⟩⟩

/-- Deletions stay below the entry they are sent to, links go by themselves, and a success leaves nothing of the entry. -/
theorem deletion_is_confined (session : SftpLiveSession) (home : Place) (t : RemoteTree) (raw : Text) (depth : Nat) (recursive : Bool) :
    Leads home (fun outcome t' => Cut t home (normalizeSftpPathInput (some raw)) t' ∧
        (outcome = .ok () → Gone t home (normalizeSftpPathInput (some raw)) t'))
        (deleteEntryRecursive depth (normalizeSftpPathInput (some raw)) recursive) t ∧
      Leads home (fun outcome t' => Cut t home (normalizeSftpPathInput (some raw)) t' ∧
        ∀ data, outcome = .ok (.success data) → Gone t home (normalizeSftpPathInput (some raw)) t')
        (deleteEntryPrimitive session depth (some raw) recursive) t :=
  ⟨leads_deleteEntryRecursive depth (normalize_normalizeSftpPathInput raw) recursive t, leads_deleteEntryPrimitive session depth raw recursive t⟩

end Sftp
