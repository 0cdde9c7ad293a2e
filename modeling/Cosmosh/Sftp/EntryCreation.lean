import Cosmosh.Sftp.TreeServer

/-! # Copies, links, new files and new directories

They only send requests that make an entry where nothing stands.
-/

namespace Sftp

open Library Library.FileTree

variable {home : Place} {t : RemoteTree}

def Preserves {α : Type} (home : Place) (t : RemoteTree) (program : SftpProgram α) : Prop :=
  Program.Keeps (treeServer home) (fun _ _ => True) (Extends t) (fun _ => True) program

theorem preserves_call {operation : String} {impact : SftpOperationImpact} {q : Request}
    (h : ∀ s s', Changes s home q s' ∨ Interrupts s home q s' → Extends s s') : Preserves home t (call operation impact q) := by
  intro s hKept
  refine leads_call ?_ ?_
  · exact fun _ s' _ hChanges => ⟨hKept.trans (h s s' (.inl hChanges)), fun _ _ => trivial⟩
  · rintro e s' (rfl | hCarried)
    · exact ⟨hKept, fun _ _ => trivial⟩
    · exact ⟨hKept.trans (h s s' hCarried), fun _ _ => trivial⟩

theorem extends_of_same {q : Request} (hChanges : ∀ s s', Changes s home q s' → s' = s) (hInterrupts : ∀ s s', ¬ Interrupts s home q s')
    (s s' : RemoteTree) (h : Changes s home q s' ∨ Interrupts s home q s') : Extends s s' := by
  obtain hCarried | hBroken := h
  · rw [hChanges s s' hCarried]
    exact .refl s
  · exact absurd hBroken (hInterrupts s s')

variable (path : Text)

theorem preserves_stat : Preserves home t (Remote.stat path) := preserves_call (extends_of_same (fun _ _ => id) fun _ _ => id)

theorem preserves_lstat : Preserves home t (Remote.lstat path) := preserves_call (extends_of_same (fun _ _ => id) fun _ _ => id)

theorem preserves_readdir : Preserves home t (Remote.readdir path) := preserves_call (extends_of_same (fun _ _ => id) fun _ _ => id)

theorem preserves_mkdir (mode : Nat) : Preserves home t (Remote.mkdir path mode) := by
  refine preserves_call ?_
  rintro s s' (hMade | hBroken)
  · exact Makes.extends hMade
  · exact absurd hBroken id

theorem preserves_symlink (targetPath linkPath : Text) : Preserves home t (Remote.symlink targetPath linkPath) := by
  refine preserves_call ?_
  rintro s s' (hMade | hBroken)
  · exact Makes.extends hMade
  · exact absurd hBroken id

theorem preserves_writeFile (data : Bytes) (mode : Nat) : Preserves home t (Remote.writeFile path data mode) := by
  refine preserves_call ?_
  rintro s s' (hMade | ⟨_, hMade⟩)
  · exact Makes.extends hMade
  · exact hMade.extends

theorem preserves_copyStream (sourcePath targetPath : Text) (mode : Nat) : Preserves home t (Remote.copyStream sourcePath targetPath mode) := by
  refine preserves_call ?_
  rintro s s' (⟨_, _, _, _, hMade⟩ | ⟨_, hMade⟩)
  · exact hMade.extends
  · exact hMade.extends

theorem preserves_bind {α β : Type} {program : SftpProgram α} {next : α → SftpProgram β} (h : Preserves home t program)
    (hNext : ∀ a, Preserves home t (next a)) : Preserves home t (program.bind next) := Program.Keeps.bind h fun a _ => hNext a

theorem preserves_pure {α : Type} (a : α) : Preserves home t (Program.done a) := .done trivial

theorem preserves_throw {α : Type} (e : SftpError) : Preserves home t (Program.fail e : SftpProgram α) := .fail

theorem preserves_statIfPresent : Preserves home t (statIfPresent path) := by
  refine Program.Keeps.catchError (preserves_bind (preserves_stat path) fun _ => preserves_pure _) ?_
  intro e
  split
  · exact preserves_pure _
  · exact preserves_throw e

theorem preserves_firstAvailableCopyPath (session : SftpLiveSession) (targetPath : Text) (remaining attempt : Nat) :
    Preserves home t (firstAvailableCopyPath session targetPath remaining attempt) := by
  induction remaining generalizing attempt with
  | zero => exact preserves_throw _
  | succ remaining ih =>
    refine preserves_bind (preserves_bind (preserves_statIfPresent _) fun _ => preserves_pure _) ?_
    intro isTaken
    split
    · exact ih (attempt + 1)
    · exact preserves_pure _

theorem preserves_copyEntryRecursive (session : SftpLiveSession) (depth : Nat) (sourcePath targetPath : Text) :
    Preserves home t (copyEntryRecursive session depth sourcePath targetPath) := by
  induction depth generalizing sourcePath targetPath with
  | zero => exact preserves_throw _
  | succ depth ih =>
    rw [copyEntryRecursive]
    refine preserves_bind (preserves_lstat sourcePath) fun sourceStats => ?_
    split
    · refine preserves_bind (preserves_mkdir targetPath _) fun _ => preserves_bind (preserves_readdir sourcePath) fun children => ?_
      refine preserves_bind ?_ fun _ => preserves_pure _
      exact Program.Keeps.forEach fun name _ => ih _ _
    · split
      · exact preserves_copyStream _ _ _
      · exact preserves_throw _

section

variable {α : Type} {session : SftpLiveSession}

theorem preserves_withOpenSession {body : SftpProgram (SftpResult α)} (h : Preserves home t body) : Preserves home t (withOpenSession body) := by
  refine preserves_bind (fun s hKept => ?_) fun isOpen => ?_
  · refine Program.Safe.request (q := Request.sessionOpen) trivial ?_
    rintro (e | isOpen) s' hEffect
    · rw [unchanged id id hEffect]
      exact ⟨hKept, fun _ _ => trivial⟩
    · rw [hEffect.2]
      exact ⟨hKept, fun _ _ => trivial⟩
  · split
    · exact h
    · exact preserves_pure _

theorem preserves_withMutablePath {requestedPath : Option Text} {body : Text → SftpProgram (SftpResult α)}
    (h : ∀ path, Preserves home t (body path)) : Preserves home t (withMutablePath session requestedPath body) := by
  rw [withMutablePath]
  split
  · exact h _
  · exact preserves_pure _

theorem preserves_withMutablePaths {requestedSourcePath requestedTargetPath : Option Text} {body : Text → Text → SftpProgram (SftpResult α)}
    (h : ∀ source target, Preserves home t (body source target)) :
    Preserves home t (withMutablePaths session requestedSourcePath requestedTargetPath body) := by
  rw [withMutablePaths]
  split
  · exact h _ _
  · exact preserves_pure _

theorem preserves_reporting {key : String} {body : SftpProgram (SftpResult α)} (h : Preserves home t body) :
    Preserves home t (reporting session key body) := Program.Keeps.catchError h fun _ => preserves_pure _

end

variable (session : SftpLiveSession)

theorem preserves_createFilePrimitive (requestedPath : Option Text) : Preserves home t (createFilePrimitive session requestedPath) :=
  preserves_withOpenSession <| preserves_withMutablePath fun _ => preserves_reporting <|
    preserves_bind (preserves_writeFile _ _ _) fun _ => preserves_pure _

theorem preserves_createDirectoryPrimitive (requestedPath : Option Text) : Preserves home t (createDirectoryPrimitive session requestedPath) :=
  preserves_withOpenSession <| preserves_withMutablePath fun _ => preserves_reporting <|
    preserves_bind (preserves_mkdir _ _) fun _ => preserves_pure _

theorem preserves_linkEntryPrimitive (requestedSourcePath requestedTargetPath : Option Text) :
    Preserves home t (linkEntryPrimitive session requestedSourcePath requestedTargetPath) :=
  preserves_withOpenSession <| preserves_withMutablePaths fun _ _ => preserves_reporting <|
    preserves_bind (preserves_firstAvailableCopyPath session _ _ _) fun _ =>
      preserves_bind (preserves_symlink _ _) fun _ => preserves_pure _

theorem preserves_copyEntryPrimitive (depth : Nat) (requestedSourcePath requestedTargetPath : Option Text) :
    Preserves home t (copyEntryPrimitive session depth requestedSourcePath requestedTargetPath) := by
  refine preserves_withOpenSession <| preserves_withMutablePaths fun source target => preserves_reporting <|
    preserves_bind (preserves_firstAvailableCopyPath session _ _ _) fun resolved => ?_
  split
  · exact preserves_throw _
  · exact preserves_bind (preserves_copyEntryRecursive session depth _ _) fun _ => preserves_pure _

/-- Copying, linking and creating leave every entry that was there as it was. -/
theorem creation_keeps_entries (home : Place) (t : RemoteTree) (depth : Nat) (requestedPath requestedTargetPath : Option Text) :
    ∀ operation ∈ [copyEntryPrimitive session depth requestedPath requestedTargetPath, linkEntryPrimitive session requestedPath requestedTargetPath,
      createFilePrimitive session requestedPath, createDirectoryPrimitive session requestedPath],
      Leads home (fun _ t' => ∀ place entry, t.entries place = some entry → t'.entries place = some entry) operation t := by
  have hLeads : ∀ operation : SftpProgram SftpOperationResult, Preserves home t operation →
      Leads home (fun _ t' => ∀ place entry, t.entries place = some entry → t'.entries place = some entry) operation t :=
    fun operation hPreserves => (hPreserves t (.refl t)).mono fun _ _ hAfter => hAfter.1
  simp only [List.forall_mem_cons]
  exact ⟨hLeads _ (preserves_copyEntryPrimitive session depth _ _), hLeads _ (preserves_linkEntryPrimitive session _ _),
    hLeads _ (preserves_createFilePrimitive session _), hLeads _ (preserves_createDirectoryPrimitive session _), nofun⟩

theorem vacant_a : Vacant (empty : RemoteTree) [] ['a'] := ⟨rfl, ⟨nofun, by decide, by decide, by decide⟩, rfl⟩

/-- A new file asked for where a file stands leaves that file with its content. -/
theorem creation_keeps_file : Leads [] (fun _ t' => t'.entries [['a']] = some (.file [1]))
    (createFilePrimitive ⟨"s".toList, false, fun key _ => key.toList⟩ (some "/a".toList)) (empty.put vacant_a (.file [1])) := by
  have hKept := creation_keeps_entries ⟨"s".toList, false, fun key _ => key.toList⟩ [] (empty.put vacant_a (.file [1])) 0 (some "/a".toList) none
    (createFilePrimitive ⟨"s".toList, false, fun key _ => key.toList⟩ (some "/a".toList)) (by simp only [List.mem_cons, true_or, or_true])
  exact hKept.mono fun _ _ hAfter => hAfter _ _ rfl

end Sftp
