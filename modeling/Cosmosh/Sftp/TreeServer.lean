import Cosmosh.Library.FileTree
import Cosmosh.Sftp.PathGuard

/-! # A server that keeps a file system

What the requests of the operations on entries answer and change.
-/

namespace Sftp

open Library Library.PosixPath Library.FileTree

abbrev RemoteTree := FileTree Bytes

def entryType : Entry Bytes → SftpEntryType
  | .directory => .directory
  | .file _ => .file
  | .link _ => .symlink
  | .special => .other

theorem entry_of_isDirectory {stats : Stats} {entry : Entry Bytes} (hType : resolveSftpEntryType stats.mode = entryType entry)
    (h : stats.isDirectory = true) : entry = .directory := by
  rw [Stats.isDirectory, hType, decide_eq_true_eq] at h
  cases entry with
  | directory => rfl
  | file => cases h
  | link => cases h
  | special => cases h

theorem entry_of_isFile {stats : Stats} {entry : Entry Bytes} (hType : resolveSftpEntryType stats.mode = entryType entry)
    (h : stats.isFile = true) : ∃ content, entry = .file content := by
  rw [Stats.isFile, hType, decide_eq_true_eq] at h
  cases entry with
  | directory => cases h
  | file content => exact ⟨content, rfl⟩
  | link => cases h
  | special => cases h

def Answers (t : RemoteTree) (home : Place) : (q : Request) → q.Answer → Prop
  | .lstat path, stats => ∃ place entry, Names t home path place ∧ t.entries place = some entry ∧
      resolveSftpEntryType stats.mode = entryType entry
  | .stat path, stats => ∃ place entry, Follows t (start home path) (segments path) place ∧ t.entries place = some entry ∧
      resolveSftpEntryType stats.mode = entryType entry
  | .readdir path, entries => ∃ place, Follows t (start home path) (segments path) place ∧ t.entries place = some .directory ∧
      t.Children place (childNames entries)
  | _, _ => True

def Changes (t : RemoteTree) (home : Place) : Request → RemoteTree → Prop
  | .sessionOpen, t' | .stat _, t' | .lstat _, t' | .readdir _, t' => t' = t
  | .mkdir path _, t' => Makes t home path .directory t'
  | .writeFile path data _, t' => Makes t home path (.file data) t'
  | .copyStream sourcePath targetPath _, t' => ∃ place content, Follows t (start home sourcePath) (segments sourcePath) place ∧
      t.entries place = some (.file content) ∧ Makes t home targetPath (.file content) t'
  | .symlink targetPath linkPath, t' => Makes t home linkPath (.link targetPath) t'
  | .unlink path, t' => Removes t home path false t'
  | .rmdir path, t' => Removes t home path true t'
  | _, _ => True

def Interrupts (t : RemoteTree) (home : Place) : Request → RemoteTree → Prop
  | .writeFile path _ _, t' => ∃ content, Makes t home path (.file content) t'
  | .copyStream _ targetPath _, t' => ∃ content, Makes t home targetPath (.file content) t'
  | _, _ => False

/-- Relative paths are followed from the directory `home`. -/
def treeServer (home : Place) : Program.Effect Request Request.Answer SftpError RemoteTree := fun t q result t' =>
  match result with
  | .ok answer => Answers t home q answer ∧ Changes t home q t'
  | .error _ => t' = t ∨ Changes t home q t' ∨ Interrupts t home q t'

section

variable {α : Type} (home : Place)

/-- Whatever the server does, the outcome and the tree it leaves are as `after` says. -/
abbrev Leads (after : Except SftpError α → RemoteTree → Prop) (program : SftpProgram α) (t : RemoteTree) : Prop :=
  Program.Safe (treeServer home) (fun _ _ => True) after program t

variable {home} {t : RemoteTree}

theorem leads_call {operation : String} {impact : SftpOperationImpact} {q : Request} {after : Except SftpError q.Answer → RemoteTree → Prop}
    (hOk : ∀ answer t', Answers t home q answer → Changes t home q t' → after (.ok answer) t')
    (hError : ∀ e t', t' = t ∨ Changes t home q t' ∨ Interrupts t home q t' → after (.error e) t') :
    Leads home after (call operation impact q) t := by
  refine safe_call operation impact q trivial ?_
  rintro (e | answer) t' hEffect
  · exact hError _ t' hEffect
  · exact hOk answer t' hEffect.1 hEffect.2

theorem unchanged {q : Request} {t' : RemoteTree} (hChanges : Changes t home q t' → t' = t) (hInterrupts : ¬ Interrupts t home q t')
    (h : t' = t ∨ Changes t home q t' ∨ Interrupts t home q t') : t' = t := by
  obtain hSame | hCarried | hBroken := h
  · exact hSame
  · exact hChanges hCarried
  · exact absurd hBroken hInterrupts

variable (path : Text)

theorem leads_lstat : Leads home (fun outcome t' => t' = t ∧ ∀ stats, outcome = .ok stats → ∃ place entry, Names t home path place ∧
      t.entries place = some entry ∧ resolveSftpEntryType stats.mode = entryType entry) (Remote.lstat path) t := by
  refine leads_call ?_ ?_
  · rintro stats t' hAnswer hSame
    refine ⟨hSame, ?_⟩
    rintro _ ⟨⟩
    exact hAnswer
  · exact fun e t' hAfter => ⟨unchanged id id hAfter, nofun⟩

theorem leads_readdir :
    Leads home (fun outcome t' => t' = t ∧ ∀ entries, outcome = .ok entries → ∃ place, Follows t (start home path) (segments path) place ∧
      t.entries place = some .directory ∧ t.Children place (childNames entries)) (Remote.readdir path) t := by
  refine leads_call ?_ ?_
  · rintro entries t' hAnswer hSame
    refine ⟨hSame, ?_⟩
    rintro _ ⟨⟩
    exact hAnswer
  · exact fun e t' hAfter => ⟨unchanged id id hAfter, nofun⟩

theorem leads_unlink :
    Leads home (fun outcome t' => (t' = t ∧ ∃ e, outcome = .error e) ∨ Removes t home path false t') (Remote.unlink path) t := by
  refine leads_call ?_ ?_
  · exact fun _ t' _ hRemoved => .inr hRemoved
  · rintro e t' (hSame | hRemoved | hBroken)
    · exact .inl ⟨hSame, e, rfl⟩
    · exact .inr hRemoved
    · exact absurd hBroken id

theorem leads_rmdir :
    Leads home (fun outcome t' => (t' = t ∧ ∃ e, outcome = .error e) ∨ Removes t home path true t') (Remote.rmdir path) t := by
  refine leads_call ?_ ?_
  · exact fun _ t' _ hRemoved => .inr hRemoved
  · rintro e t' (hSame | hRemoved | hBroken)
    · exact .inl ⟨hSame, e, rfl⟩
    · exact .inr hRemoved
    · exact absurd hBroken id

theorem leads_mkdir (mode : Nat) :
    Leads home (fun outcome t' => (t' = t ∧ ∃ e, outcome = .error e) ∨ Makes t home path .directory t') (Remote.mkdir path mode) t := by
  refine leads_call ?_ ?_
  · exact fun _ t' _ hMade => .inr hMade
  · rintro e t' (hSame | hMade | hBroken)
    · exact .inl ⟨hSame, e, rfl⟩
    · exact .inr hMade
    · exact absurd hBroken id

theorem leads_copyStream (sourcePath targetPath : Text) (mode : Nat) :
    Leads home (fun outcome t' => (t' = t ∨ ∃ content, Makes t home targetPath (.file content) t') ∧ (outcome = .ok () →
      ∃ place content, Follows t (start home sourcePath) (segments sourcePath) place ∧ t.entries place = some (.file content) ∧
        Makes t home targetPath (.file content) t')) (Remote.copyStream sourcePath targetPath mode) t := by
  refine leads_call ?_ ?_
  · rintro _ t' _ ⟨place, content, hFollows, hEntry, hMade⟩
    exact ⟨.inr ⟨content, hMade⟩, fun _ => ⟨place, content, hFollows, hEntry, hMade⟩⟩
  · rintro e t' (hSame | ⟨_, content, _, _, hMade⟩ | ⟨content, hMade⟩)
    · exact ⟨.inl hSame, nofun⟩
    · exact ⟨.inr ⟨content, hMade⟩, nofun⟩
    · exact ⟨.inr ⟨content, hMade⟩, nofun⟩

theorem leads_withOpenSession {after : Except SftpError (SftpResult α) → RemoteTree → Prop} {body : SftpProgram (SftpResult α)}
    (hBody : Leads home after body t) (hClosed : after (.ok .notFound) t) (hFailed : ∀ e, after (.error e) t) :
    Leads home after (withOpenSession body) t := by
  have hAsk : Leads home (fun _ t' => t' = t) getOpenSession t := by
    refine Program.Safe.request (q := Request.sessionOpen) trivial ?_
    rintro (e | isOpen) t' hEffect
    · exact unchanged id id hEffect
    · exact hEffect.2
  refine hAsk.bind ?_ ?_
  · rintro isOpen _ rfl
    split
    · exact hBody
    · exact hClosed
  · rintro e _ rfl
    exact hFailed e

theorem leads_reporting {session : SftpLiveSession} {key : String} {after : Except SftpError (SftpResult α) → RemoteTree → Prop}
    {body : SftpProgram (SftpResult α)} (hBody : Leads home after body t)
    (hFailed : ∀ e t', after (.error e) t' → after (.ok (failedWith session e key)) t') : Leads home after (reporting session key body) t :=
  Program.Safe.catchError hBody (fun _ _ hAfter => hAfter) hFailed

end

theorem normalize_normalizeSftpPathInput (raw : Text) : normalize (normalizeSftpPathInput (some raw)) = normalizeSftpPathInput (some raw) := by
  rw [normalizeSftpPathInput_eq, normalize_normalize]

theorem childPath_joinSftpPath {p name : Text} (h : normalize p = p) (hName : Plain name) :
    ChildPath p (joinSftpPath p name) name ∧ normalize (joinSftpPath p name) = joinSftpPath p name := by
  by_cases hRoot : p = "/".toList
  · have hChild := childPath_normalize h hName
    rw [hRoot] at hChild ⊢
    have hSame : joinSftpPath "/".toList name = normalize ("/".toList ++ '/' :: name) := (normalize_separators name).symm
    rw [hSame]
    exact ⟨hChild, normalize_normalize _⟩
  · rw [joinSftpPath_eq_normalize hRoot]
    exact ⟨childPath_normalize h hName, normalize_normalize _⟩

end Sftp
