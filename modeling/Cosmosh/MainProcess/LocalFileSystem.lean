import Cosmosh.Library.PhysicalPath
import Cosmosh.MainProcess.TemporaryRoot

/-! # What the local file system answers and changes

Any call may fail.
-/

namespace TemporaryFiles

open Library Library.PosixPath Library.FileTree

abbrev LocalTree := FileTree (List UInt8)

structure LocalState where
  tree : LocalTree
  stagedUploadPaths : List Text

def fileType : Entry (List UInt8) → FileType
  | .directory => .directory
  | .file _ => .regular
  | .link _ => .symbolicLink
  | .special => .other

variable {t t' : LocalTree} {cwd : Place} {path : Text}

def LeadsTo (t : LocalTree) (cwd : Place) (path : Text) (place : Place) : Prop :=
  Follows t (start cwd path) (segments path) place ∧ (finalName path = none → t.entries place = some .directory)

inductive Opens (t : LocalTree) : Place → Text → Place → Prop
  | fresh {cwd place : Place} {path : Text} : Fresh t cwd path place → Opens t cwd path place
  | file {cwd place : Place} {path : Text} {content : List UInt8} : Names t cwd path place → t.entries place = some (.file content) →
      Opens t cwd path place
  | link {cwd directory place : Place} {path name target : Text} : Names t cwd path (directory ++ [name]) →
      t.entries (directory ++ [name]) = some (.link target) → Opens t directory target place → Opens t cwd path place

structure Prunes (t : LocalTree) (place : Place) (t' : LocalTree) : Prop where
  kept : Extends t' t
  elsewhere : ∀ other, ¬ place <+: other → t'.entries other = t.entries other

def Answers (t : LocalTree) (cwd : Place) : (q : FileRequest) → q.Answer → Prop
  | .lstat path, stats => ∃ place entry, Names t cwd path place ∧ t.entries place = some entry ∧ stats.type = fileType entry
  | .stat path, stats => ∃ place entry, LeadsTo t cwd path place ∧ t.entries place = some entry ∧ stats.type = fileType entry
  | .realpath path, canonical => ∃ place, LeadsTo t cwd path place ∧ t.entries place ≠ none ∧ canonical = render place false
  | .mkdtemp start, path => ∃ suffix : Text, suffix.length = 6 ∧ (∀ c ∈ suffix, c.isAlphanum = true) ∧ path = start ++ suffix
  | _, _ => True

def Changes (t : LocalTree) (cwd : Place) : (q : FileRequest) → q.Answer → LocalTree → Prop
  | .mkdir path _, _, t' => Makes t cwd path .directory t'
  | .mkdtemp _, path, t' => Makes t cwd path .directory t'
  | .copyFile source target, _, t' => ∃ origin place content, LeadsTo t cwd source origin ∧ t.entries origin = some (.file content) ∧
      Opens t cwd target place ∧ t'.entries = Function.update t.entries place (some (.file content))
  | .unlink path, _, t' => Removes t cwd path false t'
  | .rmdir path, _, t' => Removes t cwd path true t'
  | .rm path, _, t' => (t' = t ∧ ∀ place, Names t cwd path place → t.entries place = none) ∨
      ∃ place, Names t cwd path place ∧ Prunes t place t' ∧ t'.entries place = none
  | _, _, t' => t' = t

def Interrupts (t : LocalTree) (cwd : Place) : FileRequest → LocalTree → Prop
  | .copyFile _ target, t' => ∃ place entry, Opens t cwd target place ∧ (∀ e, entry = some e → ∃ content, e = .file content) ∧
      t'.entries = Function.update t.entries place entry
  | .rm path, t' => ∃ place, Names t cwd path place ∧ Prunes t place t'
  | _, _ => False

/-- Relative paths are followed from the directory `cwd`. -/
def localSystem (cwd : Place) : Program.Effect LocalRequest LocalRequest.Answer LocalError LocalState := fun s q result s' =>
  match q, result with
  | .files q, .ok answer => s'.stagedUploadPaths = s.stagedUploadPaths ∧ Answers s.tree cwd q answer ∧ Changes s.tree cwd q answer s'.tree
  | .files q, .error _ => s'.stagedUploadPaths = s.stagedUploadPaths ∧ (s'.tree = s.tree ∨ Interrupts s.tree cwd q s'.tree)
  | .has path, .ok known => known = decide (path ∈ s.stagedUploadPaths) ∧ s' = s
  | .add path, .ok _ => s' = { s with stagedUploadPaths := if path ∈ s.stagedUploadPaths then s.stagedUploadPaths else s.stagedUploadPaths ++ [path] }
  | .delete path, .ok _ => s' = { s with stagedUploadPaths := s.stagedUploadPaths.filter (· ≠ path) }
  | _, .error _ => False

variable {entry : Entry (List UInt8)}

theorem regular_of_isFile {stats : Stats} (hType : stats.type = fileType entry) (h : stats.isFile = true) :
    ∃ content, entry = .file content := by
  rw [Stats.isFile, hType, decide_eq_true_eq] at h
  cases entry with
  | directory => cases h
  | file content => exact ⟨content, rfl⟩
  | link => cases h
  | special => cases h

theorem directory_of_isDirectory {stats : Stats} (hType : stats.type = fileType entry) (h : stats.isDirectory = true) : entry = .directory := by
  rw [Stats.isDirectory, hType, decide_eq_true_eq] at h
  cases entry with
  | directory => rfl
  | file => cases h
  | link => cases h
  | special => cases h

section

variable {α : Type} {s : LocalState}

/-- Whatever the file system does, the outcome and the state it leaves are as `after` says. -/
abbrev Leads (cwd : Place) (after : Except LocalError α → LocalState → Prop) (program : LocalProgram α) (s : LocalState) : Prop :=
  Program.Safe (localSystem cwd) (fun _ _ => True) after program s

theorem leads_catchError {after : Except LocalError α → LocalState → Prop} {program : LocalProgram α} {handler : LocalError → LocalProgram α}
    (h : Leads cwd after program s) (hHandler : ∀ e s', after (.error e) s' → Leads cwd after (handler e) s') :
    Leads cwd after (program.catchError handler) s := h.catchError (fun _ _ hAfter => hAfter) hHandler

theorem leads_call {q : FileRequest} {after : Except LocalError q.Answer → LocalState → Prop}
    (hOk : ∀ answer t', Answers s.tree cwd q answer → Changes s.tree cwd q answer t' → after (.ok answer) ⟨t', s.stagedUploadPaths⟩)
    (hError : ∀ e t', t' = s.tree ∨ Interrupts s.tree cwd q t' → after (.error e) ⟨t', s.stagedUploadPaths⟩) : Leads cwd after (call q) s := by
  refine Program.Safe.request (q := LocalRequest.files q) trivial ?_
  rintro (e | answer) ⟨t', staged⟩ hEffect
  · obtain ⟨rfl, hTree⟩ := hEffect
    exact hError e t' hTree
  · obtain ⟨rfl, hAnswer, hChanges⟩ := hEffect
    exact hOk answer t' hAnswer hChanges

theorem leads_reading {q : FileRequest} (hQuiet : ∀ {answer t'}, Changes s.tree cwd q answer t' → t' = s.tree)
    (hWhole : ∀ {t'}, ¬ Interrupts s.tree cwd q t') :
    Leads cwd (fun outcome s' => s' = s ∧ ∀ answer, outcome = .ok answer → Answers s.tree cwd q answer) (call q) s := by
  refine leads_call ?_ ?_
  · intro answer t' hAnswer hChanges
    obtain rfl := hQuiet hChanges
    refine ⟨rfl, ?_⟩
    rintro _ ⟨⟩
    exact hAnswer
  · rintro e t' (rfl | hBroken)
    · exact ⟨rfl, nofun⟩
    · exact absurd hBroken hWhole

section

variable (path : Text)

theorem leads_lstat : Leads cwd (fun outcome s' => s' = s ∧ ∀ stats, outcome = .ok stats → ∃ place entry, Names s.tree cwd path place ∧
      s.tree.entries place = some entry ∧ stats.type = fileType entry) (call (.lstat path)) s := leads_reading id id

theorem leads_stat : Leads cwd (fun _ s' => s' = s) (call (.stat path)) s := (leads_reading id id).mono fun _ _ h => h.1

theorem leads_realpath : Leads cwd (fun outcome s' => s' = s ∧ ∀ canonical, outcome = .ok canonical → ∃ place, LeadsTo s.tree cwd path place ∧
      s.tree.entries place ≠ none ∧ canonical = render place false) (call (.realpath path)) s := leads_reading id id

theorem leads_chmod (mode : Nat) : Leads cwd (fun _ s' => s' = s) (call (.chmod path mode)) s := (leads_reading id id).mono fun _ _ h => h.1

theorem leads_mkdir (mode : Nat) :
    Leads cwd (fun _ s' => Extends s.tree s'.tree ∧ s'.stagedUploadPaths = s.stagedUploadPaths) (call (.mkdir path mode)) s := by
  refine leads_call ?_ ?_
  · rintro _ t' _ hMade
    exact ⟨hMade.extends, rfl⟩
  · rintro e t' (rfl | hBroken)
    · exact ⟨.refl _, rfl⟩
    · exact absurd hBroken id

end

theorem leads_mkdtemp (start : Text) :
    Leads cwd (fun outcome s' => Extends s.tree s'.tree ∧ s'.stagedUploadPaths = s.stagedUploadPaths ∧ ∀ path, outcome = .ok path →
      Makes s.tree cwd path .directory s'.tree ∧ ∃ suffix : Text, suffix.length = 6 ∧ (∀ c ∈ suffix, c.isAlphanum = true) ∧ path = start ++ suffix)
      (call (.mkdtemp start)) s := by
  refine leads_call ?_ ?_
  · rintro path t' hAnswer hMade
    refine ⟨hMade.extends, rfl, ?_⟩
    rintro _ ⟨⟩
    exact ⟨hMade, hAnswer⟩
  · rintro e t' (rfl | hBroken)
    · exact ⟨.refl _, rfl, nofun⟩
    · exact absurd hBroken id

end

variable {place : Place}

theorem LeadsTo.unique {other : Place} (h : LeadsTo t cwd path place) (h' : LeadsTo t cwd path other) : place = other := h.1.unique h'.1

theorem LeadsTo.of_names {other : Place} (hNames : Names t cwd path place) (hEntry : t.entries place = some entry)
    (hLink : ∀ target, entry ≠ .link target) (h : LeadsTo t cwd path other) : other = place := by
  cases entry with
  | directory => exact h.1.unique (hNames.follows hEntry)
  | file content => exact h.1.unique (hNames.follows_leaf hEntry rfl)
  | link target => exact absurd rfl (hLink target)
  | special => exact h.1.unique (hNames.follows_leaf hEntry rfl)

theorem leadsTo_physical (cwd : Place) (hEntry : t.entries place = some entry) (hLink : ∀ target, entry ≠ .link target) :
    LeadsTo t cwd (render place false) place := by
  have hNames := names_of_some cwd hEntry
  have hFinal : finalName (render place false) = none → t.entries place = some .directory := by
    intro hNone
    cases hNames with
    | entry hName => cases hName.symm.trans hNone
    | reached _ _ hDirectory => exact hDirectory
  cases entry with
  | directory => exact ⟨hNames.follows hEntry, hFinal⟩
  | file content => exact ⟨hNames.follows_leaf hEntry rfl, hFinal⟩
  | link target => exact absurd rfl (hLink target)
  | special => exact ⟨hNames.follows_leaf hEntry rfl, hFinal⟩

theorem Opens.vacant {written : Place} {name : Text} (hVacant : Vacant t place name)
    (h : Opens t cwd (render (place ++ [name]) false) written) : written = place ++ [name] := by
  generalize hPath : render (place ++ [name]) false = path at h
  cases h with
  | fresh hFresh =>
    rw [← hPath] at hFresh
    exact (vacant_of_fresh hVacant.in_directory hVacant.plain hFresh).1
  | file hNames hEntry =>
    rw [← hPath] at hNames
    rw [place_of_names hVacant.in_directory hVacant.plain hNames, hVacant.free] at hEntry
    cases hEntry
  | link hNames hEntry _ =>
    rw [← hPath] at hNames
    rw [place_of_names hVacant.in_directory hVacant.plain hNames, hVacant.free] at hEntry
    cases hEntry

end TemporaryFiles
