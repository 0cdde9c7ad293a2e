import Cosmosh.Library.Environments
import Cosmosh.Library.PhysicalPath
import Cosmosh.Library.TreeOverlay
import Cosmosh.Sftp.ExtractionConfinement
import Cosmosh.Sftp.TreeServer

/-! # A host that keeps a file system, as archive operations see it

A request that is answered by an error may have been carried out all the same.
-/

namespace Sftp.Archive

open Library Library.PosixPath Library.FileTree

def ArchiveAnswers (t : RemoteTree) (home : Place) (decision : ArchiveConflictResolution) :
    (q : ArchiveAsk) → Except ArchiveError q.Answer → Prop
  | .lstat path, .ok stats => ∃ place entry, Names t home path place ∧ t.entries place = some entry ∧
      resolveSftpEntryType stats.mode = entryType entry
  | .lstat path, .error e => isNoSuchFileError e = true → ∀ place, Names t home path place → t.entries place = none
  | .readdir path, .ok entries => ∃ place, Follows t (start home path) (segments path) place ∧ t.entries place = some .directory ∧
      t.Children place (entries.map (·.filename))
  | .conflictDecision, .ok resolution => resolution = decision
  | _, _ => True

def ArchiveChanges (t : RemoteTree) (home : Place) : ArchiveAsk → RemoteTree → Prop
  | .rename sourcePath targetPath, t' => Moves t home sourcePath targetPath t'
  | .unlink path, t' => Removes t home path false t'
  | .rmdir path, t' => Removes t home path true t'
  | .exec _, _ | .mkdir _ _, _ => True
  | _, t' => t' = t

def archiveTree (home : Place) (decision : ArchiveConflictResolution) :
    Program.Effect ArchiveAsk ArchiveAsk.Answer ArchiveError RemoteTree := fun t q result t' =>
  ArchiveAnswers t home decision q result ∧ (ArchiveChanges t home q t' ∨ (∃ e, result = .error e) ∧ t' = t)

section

variable {α : Type} (home : Place) (decision : ArchiveConflictResolution)

/-- Whatever the host does, a result and the tree are as `ok` says, or an error and the tree as `error` says. -/
abbrev Turns (ok : α → RemoteTree → Prop) (error : ArchiveError → RemoteTree → Prop) (program : ArchiveProgram α) (t : RemoteTree) : Prop :=
  Program.Yields (archiveTree home decision) ok error program t

variable {home decision} {t : RemoteTree} {error : ArchiveError → RemoteTree → Prop}

theorem turns_ask {q : ArchiveAsk} (hSame : ∀ t', ArchiveChanges t home q t' → t' = t) (hError : ∀ e, error e t) :
    Turns home decision (fun a t' => t' = t ∧ ArchiveAnswers t home decision q (.ok a)) error (ask q) t := by
  refine Program.Yields.request ?_ ?_
  · rintro a t' ⟨hAnswer, hChanges | ⟨⟨_, hFailed⟩, -⟩⟩
    · exact ⟨hSame t' hChanges, hAnswer⟩
    · cases hFailed
  · rintro e t' ⟨-, hChanges | ⟨-, rfl⟩⟩
    · exact hSame t' hChanges ▸ hError e
    · exact hError e

theorem turns_change {q : ArchiveAsk} (hError : ∀ e t', t' = t ∨ ArchiveChanges t home q t' → error e t') :
    Turns home decision (fun _ t' => ArchiveChanges t home q t') error (ask q) t := by
  refine Program.Yields.request ?_ ?_
  · rintro a t' ⟨-, hChanges | ⟨⟨_, hFailed⟩, -⟩⟩
    · exact hChanges
    · cases hFailed
  · rintro e t' ⟨-, hChanges | ⟨-, hSame⟩⟩
    · exact hError e t' (.inr hChanges)
    · exact hError e t' (.inl hSame)

variable {path : Text} {place : Place}

theorem turns_lstat_reported (hNames : Names t home path place) :
    Turns home decision (fun stats t' => t' = t ∧ ∃ entry, t.entries place = some entry ∧ resolveSftpEntryType stats.mode = entryType entry)
      (fun e t' => t' = t ∧ (isNoSuchFileError e = true → t.entries place = none)) (ask (.lstat path)) t := by
  refine Program.Yields.request ?_ ?_
  · rintro stats t' ⟨⟨other, entry, hOther, hEntry, hType⟩, hSame | ⟨-, hSame⟩⟩ <;>
      exact ⟨hSame, entry, hOther.unique hNames ▸ hEntry, hType⟩
  · rintro e t' ⟨hMissing, hSame | ⟨-, hSame⟩⟩ <;> exact ⟨hSame, fun hGone => hMissing hGone place hNames⟩

theorem turns_lstat (hNames : Names t home path place) (hError : ∀ e, error e t) :
    Turns home decision (fun stats t' => t' = t ∧ ∃ entry, t.entries place = some entry ∧ resolveSftpEntryType stats.mode = entryType entry)
      error (ask (.lstat path)) t := (turns_lstat_reported hNames).mono (fun _ _ => id) fun e _ hReported => hReported.1 ▸ hError e

theorem turns_readdir (hNames : Names t home path place) (hDirectory : t.entries place = some .directory) (hError : ∀ e, error e t) :
    Turns home decision (fun entries t' => t' = t ∧ t.Children place (entries.map (·.filename))) error (ask (.readdir path)) t := by
  refine (turns_ask (fun _ => id) hError).mono ?_ fun _ _ => id
  rintro entries t' ⟨hSame, listed, hListed, -, hChildren⟩
  rw [hListed.unique (hNames.follows hDirectory)] at hChildren
  exact ⟨hSame, hChildren⟩

theorem Children.new {done rest : List SftpDirectoryEntry} {entry : SftpDirectoryEntry}
    (h : t.Children place ((done ++ entry :: rest).map (·.filename))) : entry.filename ∉ done.map (·.filename) := by
  have hNodup := h.1
  rw [List.map_append] at hNodup
  exact fun hOld => List.disjoint_of_nodup_append hNodup hOld List.mem_cons_self

theorem turns_active {rest : ArchiveProgram α} {ok : α → RemoteTree → Prop} (hError : ∀ e, error e t)
    (hRest : Turns home decision ok error rest t) : Turns home decision ok error (assertOperationActive.bind fun _ => rest) t := by
  refine Program.Yields.bind (turns_ask (fun _ => id) hError) ?_
  rintro _ _ ⟨rfl, -⟩
  exact hRest

theorem turns_pathExists (path : Text) (hError : ∀ e, error e t) :
    Turns home decision (fun isThere t' => t' = t ∧ if isThere then ∃ place, Names t home path place ∧ t.entries place ≠ none
      else ∀ place, Names t home path place → t.entries place = none) error (pathExists path) t := by
  have hAsked : Turns home decision (fun _ t' => t' = t ∧ ∃ place, Names t home path place ∧ t.entries place ≠ none)
      (fun e t' => t' = t ∧ (isNoSuchFileError e = true → ∀ place, Names t home path place → t.entries place = none)) (ask (.lstat path)) t := by
    refine Program.Yields.request ?_ ?_
    · rintro stats t' ⟨⟨place, entry, hNames, hEntry, -⟩, hSame | ⟨-, hSame⟩⟩ <;> exact ⟨hSame, place, hNames, by simp [hEntry]⟩
    · rintro e t' ⟨hMissing, hSame | ⟨-, hSame⟩⟩ <;> exact ⟨hSame, hMissing⟩
  refine Program.Yields.catchError (Program.Yields.bind hAsked ?_) ?_
  · rintro _ _ ⟨rfl, hThere⟩
    exact .done ⟨rfl, hThere⟩
  · rintro e _ ⟨rfl, hMissing⟩
    split
    · rename_i hGone
      exact .done ⟨rfl, hMissing hGone⟩
    · exact .fail (hError e)

theorem childPath_join {name : Text} (h : normalize path = path) (hName : Plain name) :
    ChildPath path (join path name) name ∧ normalize (join path name) = join path name := by
  rw [join_eq (h ▸ normalize_ne_nil path) hName.nonempty]
  exact ⟨childPath_normalize h hName, normalize_normalize _⟩

theorem isDirectory_iff {stats : Stats} {entry : Entry Bytes} (h : resolveSftpEntryType stats.mode = entryType entry) :
    stats.isDirectory = true ↔ entry = .directory := by
  refine ⟨entry_of_isDirectory h, ?_⟩
  rintro rfl
  rw [Stats.isDirectory, h]
  rfl

def Pinned (t : RemoteTree) (home : Place) (places : List Place) (path : Text) (place : Place) : Prop :=
  ∀ t', SameBeside places t t' → Names t' home path place

theorem Pinned.names {places : List Place} (h : Pinned t home places path place) : Names t home path place := h t (.refl places t)

theorem Pinned.weaken {places places' : List Place} (h : Pinned t home places path place) (hBelow : ∀ p ∈ places', ∃ p' ∈ places, p' <+: p) :
    Pinned t home places' path place :=
  fun t' hSame => h t' (hSame.weaken hBelow)

theorem pinned_physical {directory : Place} {name : Text} (home : Place) (hDirectory : t.entries directory = some .directory) (hName : Plain name)
    {places : List Place} (hOther : ∀ p ∈ places, ¬ p <+: directory) :
    Pinned t home places (render (directory ++ [name]) false) (directory ++ [name]) :=
  fun _ hSame => names_in_directory home ((hSame directory hOther).trans hDirectory) hName

theorem Pinned.child {places places' : List Place} {t' : RemoteTree} {child name : Text} (h : Pinned t home places path place)
    (hSame : SameBeside places t t') (hDirectory : t'.entries place = some .directory) (hChild : ChildPath path child name)
    (hBelow : ∀ p ∈ places', ∃ p' ∈ places, p' <+: p) (hOther : ∀ p ∈ places', ¬ p <+: place) :
    Pinned t' home places' child (place ++ [name]) := by
  intro t'' hLater
  have hKept : t''.entries place = some .directory := (hLater place hOther).trans hDirectory
  exact hChild.names ((h t'' (hSame.trans (hLater.weaken hBelow))).follows hKept) hKept

theorem turns_removeRemoteTree (depth : Nat) (hNormal : normalize path = path) (hPinned : Pinned t home [place] path place) :
    Turns home decision (fun _ t' => t'.entries place = none ∧ SameBeside [place] t t') (fun _ t' => SameBeside [place] t t')
      (removeRemoteTree depth path) t := by
  induction depth generalizing path place t with
  | zero => exact Program.Yields.fail (.refl _ t)
  | succ depth ih =>
    have hRemoves : ∀ t' t'' isDirectory, SameBeside [place] t t' → Removes t' home path isDirectory t'' →
        t''.entries place = none ∧ SameBeside [place] t t'' := by
      intro t' t'' isDirectory hSame hRemoved
      obtain ⟨hGone, hLater⟩ := hRemoved.sameBeside (hPinned t' hSame)
      exact ⟨hGone, hSame.trans hLater⟩
    have hRemoval : ∀ q isDirectory, (∀ t' t'', ArchiveChanges t' home q t'' → Removes t' home path isDirectory t'') →
        ∀ t', SameBeside [place] t t' → Turns home decision (fun _ t'' => t''.entries place = none ∧ SameBeside [place] t t'')
          (fun _ t'' => SameBeside [place] t t'') (ask q) t' := by
      intro q isDirectory hQuery t' hSame
      refine (turns_change ?_).mono (fun _ t'' hChanged => hRemoves t' t'' isDirectory hSame (hQuery t' t'' hChanged)) fun _ _ => id
      rintro e t'' (rfl | hChanged)
      · exact hSame
      · exact (hRemoves t' t'' isDirectory hSame (hQuery t' t'' hChanged)).2
    rw [removeRemoteTree]
    refine Program.Yields.bind (turns_lstat_reported hPinned.names).attempt ?_
    rintro (e | stats) t' ⟨hOk, hError⟩
    · obtain ⟨rfl, hMissing⟩ := hError e rfl
      dsimp only
      split
      · rename_i hGone
        exact .done ⟨hMissing hGone, .refl _ _⟩
      · exact .fail (.refl _ _)
    · obtain ⟨rfl, entry, hEntry, hType⟩ := hOk stats rfl
      dsimp only
      split
      · exact hRemoval (.unlink path) false (fun _ _ => id) _ (.refl _ _)
      · rename_i hDirectory
        have hDirectory : entry = .directory := (isDirectory_iff hType).mp (by simpa using hDirectory)
        subst hDirectory
        refine Program.Yields.bind (turns_readdir hPinned.names hEntry fun _ => .refl _ _) ?_
        rintro entries _ ⟨rfl, hChildren⟩
        refine Program.Yields.bind (Program.Yields.forEach (fun _ _ t'' =>
          SameBeside [place] _ t'' ∧ t''.entries place = some .directory) ⟨.refl _ _, hEntry⟩ ?_) ?_
        · rintro done x rest _ rfl t'' ⟨hSame, hKept⟩
          have hName : Plain x.filename := hChildren.plain (by simp)
          obtain ⟨hChild, hNormalChild⟩ := childPath_join hNormal hName
          have hBelow : ∀ p ∈ [place ++ [x.filename]], ∃ p' ∈ [place], p' <+: p := by simp
          refine (ih hNormalChild (hPinned.child hSame hKept hChild hBelow (List.forall_mem_singleton.mpr (not_prefix_above place x.filename)))).mono ?_ ?_
          · rintro _ u ⟨-, hLater⟩
            exact ⟨hSame.trans (hLater.weaken hBelow), (hLater.one (not_prefix_above place x.filename)).trans hKept⟩
          · exact fun _ u hLater => hSame.trans (hLater.weaken hBelow)
        · rintro _ t'' ⟨hSame, -⟩
          exact hRemoval (.rmdir path) true (fun _ _ => id) t'' hSame

def statsOfMode (mode : Nat) : Stats := ⟨some mode, none, none, none, none, none⟩

variable (home decision)

theorem ends_lstat (t : RemoteTree) (place : Place) (mode : Nat) {entry : Entry Bytes} (hEntry : t.entries place = some entry)
    (hMode : resolveSftpEntryType (some mode) = entryType entry) :
    Program.Ends (archiveTree home decision) (ask (.lstat (render place false))) t (.ok (statsOfMode mode)) t :=
  Program.Ends.request ⟨⟨place, entry, names_of_some home hEntry, hEntry, hMode⟩, .inl rfl⟩

theorem ends_active (t : RemoteTree) : Program.Ends (archiveTree home decision) assertOperationActive t (.ok ()) t :=
  Program.Ends.request ⟨trivial, .inl rfl⟩

end

end Sftp.Archive
