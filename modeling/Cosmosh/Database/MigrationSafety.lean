import Cosmosh.Database.SqlCipherMigration

/-! # No crash of the migration loses the data

The three files are always in one of five arrangements, each of which holds the original data and can be taken up by the
next start-up.
-/

namespace Database

open Library Library.Program

variable {Rows : Type}

inductive Content (Rows : Type)
  | empty
  | plaintext (rows : Rows)
  | encrypted (databaseKey : Text) (rows : Rows)
  | damaged

structure DatabaseEntry (Rows : Type) where
  file : Option (Content Rows)
  pending : Option Rows

abbrev Files (Rows : Type) := MigrationPath → DatabaseEntry Rows

def DatabaseEntry.absent : DatabaseEntry Rows := ⟨none, none⟩

def Content.HasSize : Content Rows → Nat → Prop
  | .empty, size => size = 0
  | .plaintext _, size => headerLength ≤ size
  | .encrypted _ _, size => size ≠ 0
  | .damaged, _ => True

def Content.HasHeader : Content Rows → Bool → Prop
  | .empty, plain => plain = false
  | .plaintext _, plain => plain = true
  | .encrypted _ _, plain => plain = false
  | .damaged, _ => True

def DatabaseEntry.checkpointed (entry : DatabaseEntry Rows) : DatabaseEntry Rows :=
  match entry.file with
  | some (.plaintext rows) => ⟨some (.plaintext (entry.pending.getD rows)), none⟩
  | _ => entry

def DatabaseEntry.withoutSidecars (entry : DatabaseEntry Rows) : DatabaseEntry Rows := { entry with pending := none }

def DatabaseEntry.rekeyed (entry : DatabaseEntry Rows) (databaseKey : Text) : Option (DatabaseEntry Rows) :=
  match entry.file with
  | some (.plaintext rows) => some ⟨some (.encrypted databaseKey (entry.pending.getD rows)), none⟩
  | _ => none

open Function in
/-- Copying, encrypting and removing sidecars may stop half way; renaming and removing a file do not. A
connection to a file that is not there may leave an empty one. -/
def storage : Effect MigrationRequest MigrationRequest.Answer String (Files Rows)
  | s, .access path, result, s' => s' = s ∧ result = .ok (s path).file.isSome
  | s, .stat path, result, s' =>
    s' = s ∧ ∀ size, result = .ok size → ∃ content, (s path).file = some content ∧ content.HasSize size
  | s, .readHeader path, result, s' =>
    s' = s ∧ ∀ plain, result = .ok plain → ∃ content, (s path).file = some content ∧ content.HasHeader plain
  | s, .inspect path _, _, s' =>
    s' = s ∨ (s path).file = none ∧ s' = update s path { s path with file := some .empty }
  | s, .checkpoint path, result, s' =>
    s' = update s path (s path).checkpointed ∨ (∃ error, result = .error error) ∧ s' = s
  | s, .copyFile source target, result, s' =>
    match result with
    | .ok _ => (s target).file = none ∧ s' = update s target { s target with file := (s source).file }
    | .error _ => s' = s ∨ (s target).file = none ∧
        ∃ content, s' = update s target { s target with file := some content }
  | s, .rekey path databaseKey, result, s' =>
    ∃ entry, s' = update s path entry ∧
      (result = .ok () → ∀ rekeyed, (s path).rekeyed databaseKey = some rekeyed → entry = rekeyed)
  | s, .removeSidecars path, result, s' =>
    s' = update s path (s path).withoutSidecars ∨ (∃ error, result = .error error) ∧ s' = s
  | s, .remove path, result, s' =>
    match result with
    | .ok _ => s' = update s path { s path with file := none }
    | .error _ => s' = s
  | s, .rename source target, result, s' =>
    match result with
    | .ok _ => s' = update (update s source { s source with file := none }) target
        { s target with file := (s source).file }
    | .error _ => s' = s

variable {path : MigrationPath}

section Arrangements

variable (databaseKey : Text) (original : Rows)

def encryptedEntry : DatabaseEntry Rows := ⟨some (.encrypted databaseKey original), none⟩

def plaintextEntry : DatabaseEntry Rows := ⟨some (.plaintext original), none⟩

inductive CompleteCopy : DatabaseEntry Rows → Prop
  | plaintext {entry : DatabaseEntry Rows} {rows : Rows} (hFile : entry.file = some (.plaintext rows))
      (hRows : entry.pending.getD rows = original) : CompleteCopy entry
  | encrypted {entry : DatabaseEntry Rows} (hEntry : entry = encryptedEntry databaseKey original) :
      CompleteCopy entry

structure Source (s : Files Rows) : Prop where
  exists_rows : ∃ rows, (s .databaseFilePath).file = some (.plaintext rows) ∧
    (s .databaseFilePath).pending.getD rows = original

structure Renamed (s : Files Rows) : Prop where
  database : s .databaseFilePath = .absent
  temporary : s .encryptedTempPath = encryptedEntry databaseKey original
  backup : s .plaintextBackupPath = plaintextEntry original

structure Withdrawn (s : Files Rows) : Prop where
  database : s .databaseFilePath = .absent
  temporary : (s .encryptedTempPath).file = none
  backup : s .plaintextBackupPath = plaintextEntry original

structure Encrypted (s : Files Rows) : Prop where
  database : s .databaseFilePath = encryptedEntry databaseKey original
  temporary : (s .encryptedTempPath).file = none
  backup : s .plaintextBackupPath = plaintextEntry original ∨ (s .plaintextBackupPath).file = none

inductive Restartable (s : Files Rows) : Prop
  | source (h : Source original s)
  | renamed (h : Renamed databaseKey original s)
  | withdrawn (h : Withdrawn original s)
  | encrypted (h : Encrypted databaseKey original s)

variable {databaseKey original} {s : Files Rows}

theorem Restartable.exists_copy (h : Restartable databaseKey original s) :
    ∃ path, CompleteCopy databaseKey original (s path) := by
  cases h with
  | source h =>
    obtain ⟨rows, hFile, hRows⟩ := h.exists_rows
    exact ⟨.databaseFilePath, .plaintext hFile hRows⟩
  | renamed h => exact ⟨.encryptedTempPath, .encrypted h.temporary⟩
  | withdrawn h =>
    refine ⟨.plaintextBackupPath, ?_⟩
    rw [h.backup]
    exact .plaintext rfl rfl
  | encrypted h => exact ⟨.databaseFilePath, .encrypted h.database⟩

@[simp] theorem withoutSidecars_encryptedEntry :
    (encryptedEntry databaseKey original).withoutSidecars = encryptedEntry databaseKey original := rfl

@[simp] theorem withoutSidecars_plaintextEntry :
    (plaintextEntry original).withoutSidecars = plaintextEntry original := rfl

@[simp] theorem withoutSidecars_absent : (DatabaseEntry.absent : DatabaseEntry Rows).withoutSidecars = .absent := rfl

theorem update_withoutSidecars (h : (s path).withoutSidecars = s path) :
    Function.update s path (s path).withoutSidecars = s := by
  rw [h, Function.update_eq_self]

theorem Source.update (h : Source original s) (hPath : path ≠ .databaseFilePath) (entry : DatabaseEntry Rows) :
    Source original (Function.update s path entry) := by
  constructor
  rw [Function.update_of_ne hPath.symm]
  exact h.exists_rows

theorem Encrypted.update_temporary (h : Encrypted databaseKey original s) {entry : DatabaseEntry Rows}
    (hEntry : entry.file = none) : Encrypted databaseKey original (Function.update s .encryptedTempPath entry) := by
  constructor
  · simpa using h.database
  · simpa using hEntry
  · simpa using h.backup

theorem Encrypted.update_backup (h : Encrypted databaseKey original s) {entry : DatabaseEntry Rows}
    (hEntry : entry = plaintextEntry original ∨ entry.file = none) :
    Encrypted databaseKey original (Function.update s .plaintextBackupPath entry) := by
  constructor
  · simpa using h.database
  · simpa using h.temporary
  · simpa using hEntry

end Arrangements

section Steps

variable (databaseKey : Text) (original : Rows)

abbrev Guarded {α : Type} (post : Except String α → Files Rows → Prop) (program : MigrationProgram α)
    (s : Files Rows) : Prop := Safe storage (fun s _ => Restartable databaseKey original s) post program s

variable {databaseKey original} {s : Files Rows}

theorem guarded_perform {request : MigrationRequest} {post : Except String request.Answer → Files Rows → Prop}
    (h : Restartable databaseKey original s) (hAfter : ∀ result s', storage s request result s' → post result s') :
    Guarded databaseKey original post (perform request) s := by
  apply Safe.request
  · exact h
  · exact hAfter

section

variable (h : Restartable databaseKey original s)
include h

theorem guarded_fileExists (path : MigrationPath) :
    Guarded databaseKey original (fun outcome s' => s' = s ∧ outcome = .ok (s path).file.isSome)
      (fileExists path) s := guarded_perform h fun _ _ hEffect => hEffect

theorem guarded_isPlaintext :
    Guarded databaseKey original (fun outcome s' => s' = s ∧ ∀ plain, outcome = .ok plain →
        (∀ rows, (s .databaseFilePath).file = some (.plaintext rows) → plain = true) ∧
        (s .databaseFilePath = encryptedEntry databaseKey original → plain = false))
      (isPlaintextSqliteDatabase .databaseFilePath) s := by
  refine (guarded_fileExists h .databaseFilePath).bind ?_ ?_
  · rintro present s' ⟨rfl, hPresent⟩
    cases present with
    | false =>
      refine ⟨rfl, ?_⟩
      rintro _ ⟨⟩
      constructor
      · intro rows hRows
        rw [hRows] at hPresent
        exact absurd (Except.ok.inj hPresent) Bool.false_ne_true
      · intro _
        rfl
    | true =>
      refine (guarded_perform h fun _ _ hEffect => hEffect).bind ?_ ?_
      · rintro size s' ⟨rfl, hSize⟩
        obtain ⟨content, hContent, hSize⟩ := hSize size rfl
        split
        · rename_i hShort
          refine ⟨rfl, ?_⟩
          rintro _ ⟨⟩
          constructor
          · intro rows hRows
            rw [hRows] at hContent
            cases hContent
            exact absurd hShort (Nat.not_lt.mpr hSize)
          · intro _
            rfl
        · refine guarded_perform h ?_
          rintro result s' ⟨rfl, hHeader⟩
          refine ⟨rfl, ?_⟩
          rintro plain rfl
          obtain ⟨content, hContent, hPlain⟩ := hHeader plain rfl
          constructor
          · intro rows hRows
            rw [hRows] at hContent
            cases hContent
            exact hPlain
          · intro hEncrypted
            rw [hEncrypted] at hContent
            cases hContent
            exact hPlain
      · rintro error s' ⟨rfl, -⟩
        exact ⟨rfl, nofun⟩
  · rintro error s' ⟨rfl, hError⟩
    contradiction

theorem guarded_verify (hFile : (s path).file ≠ none) (key : Text) :
    Guarded databaseKey original (fun _ s' => s' = s) (verifySqlCipherDatabase path key) s := by
  have hInspect : Guarded databaseKey original (fun _ s' => s' = s) (perform (.inspect path key)) s := by
    refine guarded_perform h ?_
    rintro result s' (rfl | ⟨hNone, -⟩)
    · rfl
    · exact absurd hNone hFile
  refine hInspect.bind ?_ ?_
  · rintro inspection s' rfl
    exact safe_ofExcept.mpr rfl
  · rintro error s' rfl
    rfl

theorem guarded_removeSidecars (hRemoved : Restartable databaseKey original (Function.update s path (s path).withoutSidecars)) :
    Guarded databaseKey original (fun outcome s' => Restartable databaseKey original s' ∧
      (s' = Function.update s path (s path).withoutSidecars ∨ (∃ error, outcome = .error error) ∧ s' = s))
      (removeSqliteSidecars path) s := by
  refine guarded_perform h ?_
  rintro result s' (rfl | ⟨hError, rfl⟩)
  · exact ⟨hRemoved, .inl rfl⟩
  · exact ⟨h, .inr ⟨hError, rfl⟩⟩

theorem guarded_removeArtifact (hSidecars : Restartable databaseKey original (Function.update s path (s path).withoutSidecars))
    (hFile : Restartable databaseKey original (Function.update s path .absent)) :
    Guarded databaseKey original (fun outcome s' => Restartable databaseKey original s' ∧
      ∀ a, outcome = .ok a → s' = Function.update s path .absent) (removeDatabaseArtifact path) s := by
  refine (guarded_removeSidecars h hSidecars).bind ?_ ?_
  · rintro ⟨⟩ s' ⟨hKept, hRemoved⟩
    obtain rfl | ⟨⟨error, hError⟩, -⟩ := hRemoved
    · refine guarded_perform hKept ?_
      intro result s' hEffect
      cases result with
      | ok a =>
        have hAbsent : s' = Function.update s path .absent := by
          rw [show s' = _ from hEffect]
          simp [DatabaseEntry.withoutSidecars, DatabaseEntry.absent]
        rw [hAbsent]
        exact ⟨hFile, fun _ _ => rfl⟩
      | error e =>
        rw [show s' = _ from hEffect]
        exact ⟨hKept, nofun⟩
    · contradiction
  · rintro error s' ⟨hKept, -⟩
    exact ⟨hKept, nofun⟩

end

theorem guarded_removeTemporary_source (h : Source original s) (hPath : path ≠ .databaseFilePath) :
    Guarded databaseKey original (fun outcome s' => Restartable databaseKey original s' ∧
      ∀ a, outcome = .ok a → s' = Function.update s path .absent) (removeDatabaseArtifact path) s :=
  guarded_removeArtifact (.source h) (.source (h.update hPath _)) (.source (h.update hPath _))

theorem guarded_removeTemporary_encrypted (h : Encrypted databaseKey original s) :
    Guarded databaseKey original (fun outcome s' => Restartable databaseKey original s' ∧
      ∀ a, outcome = .ok a → Encrypted databaseKey original s') (removeDatabaseArtifact .encryptedTempPath) s := by
  refine (guarded_removeArtifact (.encrypted h) ?_ ?_).mono ?_
  · exact .encrypted (h.update_temporary h.temporary)
  · exact .encrypted (h.update_temporary rfl)
  · rintro outcome s' ⟨hKept, hRemoved⟩
    refine ⟨hKept, fun a hOk => ?_⟩
    rw [hRemoved a hOk]
    exact h.update_temporary rfl

theorem guarded_removeBackup_encrypted (h : Encrypted databaseKey original s) :
    Guarded databaseKey original (fun outcome s' => Restartable databaseKey original s' ∧
      ∀ a, outcome = .ok a → Encrypted databaseKey original s') (removeDatabaseArtifact .plaintextBackupPath) s := by
  refine (guarded_removeArtifact (.encrypted h) ?_ ?_).mono ?_
  · apply Restartable.encrypted
    apply h.update_backup
    obtain hBackup | hNone := h.backup
    · rw [hBackup]
      exact .inl rfl
    · exact .inr hNone
  · exact .encrypted (h.update_backup (.inr rfl))
  · rintro outcome s' ⟨hKept, hRemoved⟩
    refine ⟨hKept, fun a hOk => ?_⟩
    rw [hRemoved a hOk]
    exact h.update_backup (.inr rfl)

def Recovered (databaseKey : Text) (original : Rows) (s : Files Rows) : Prop := Source original s ∨ Encrypted databaseKey original s

abbrev Recovers (databaseKey : Text) (original : Rows) (program : MigrationProgram Unit) (s : Files Rows) : Prop :=
  Guarded databaseKey original (fun outcome s' => Restartable databaseKey original s' ∧
    ∀ a, outcome = .ok a → Recovered databaseKey original s') program s

theorem recovers_done (h : Recovered databaseKey original s) : Recovers databaseKey original (pure ()) s :=
  ⟨h.elim .source .encrypted, fun _ _ => h⟩

theorem recovers_removeArtifacts_source (h : Source original s) :
    Recovers databaseKey original (do
      removeDatabaseArtifact .encryptedTempPath
      removeDatabaseArtifact .plaintextBackupPath) s := by
  refine (guarded_removeTemporary_source h (by decide)).bind ?_ ?_
  · rintro ⟨⟩ s' ⟨-, hRemoved⟩
    rw [hRemoved () rfl]
    have hSource : Source original (Function.update s .encryptedTempPath .absent) := h.update (by decide) _
    refine (guarded_removeTemporary_source hSource (by decide)).mono ?_
    rintro outcome s'' ⟨hKept, hGone⟩
    refine ⟨hKept, fun a hOk => .inl ?_⟩
    rw [hGone a hOk]
    exact hSource.update (by decide) _
  · rintro error s' ⟨hKept, -⟩
    exact ⟨hKept, nofun⟩

theorem recovers_removeArtifacts_encrypted (h : Encrypted databaseKey original s) :
    Recovers databaseKey original (do
      removeDatabaseArtifact .encryptedTempPath
      removeDatabaseArtifact .plaintextBackupPath) s := by
  refine (guarded_removeTemporary_encrypted h).bind ?_ ?_
  · rintro ⟨⟩ s' ⟨-, hRemoved⟩
    refine (guarded_removeBackup_encrypted (hRemoved () rfl)).mono ?_
    rintro outcome s'' ⟨hKept, hGone⟩
    exact ⟨hKept, fun a hOk => .inr (hGone a hOk)⟩
  · rintro error s' ⟨hKept, -⟩
    exact ⟨hKept, nofun⟩

theorem recovers_discard (h : Recovered databaseKey original s) (temporary backup : Bool) :
    Recovers databaseKey original (discardMigrationArtifacts databaseKey temporary backup) s := by
  refine (guarded_isPlaintext (h.elim .source .encrypted)).bind ?_ ?_
  · rintro plaintext s' ⟨rfl, hPlain⟩
    obtain ⟨hSource, hEncrypted⟩ := hPlain plaintext rfl
    obtain hSourceNow | hEncryptedNow := h
    · obtain ⟨rows, hFile, -⟩ := hSourceNow.exists_rows
      rw [hSource rows hFile]
      exact recovers_removeArtifacts_source hSourceNow
    · rw [hEncrypted hEncryptedNow.database]
      rw [if_neg Bool.false_ne_true]
      split
      · exact recovers_done (.inr hEncryptedNow)
      · have hFile : (s' .databaseFilePath).file ≠ none := by
          rw [hEncryptedNow.database]
          nofun
        refine (guarded_verify (.encrypted hEncryptedNow) hFile databaseKey).bind ?_ ?_
        · rintro _ s'' rfl
          exact recovers_removeArtifacts_encrypted hEncryptedNow
        · rintro error s'' rfl
          exact ⟨.encrypted hEncryptedNow, nofun⟩
  · rintro error s' ⟨rfl, -⟩
    exact ⟨h.elim .source .encrypted, nofun⟩

theorem recovers_restore_renamed (h : Renamed databaseKey original s) (backup : Bool) :
    Recovers databaseKey original (restoreMigrationArtifacts databaseKey true backup) s := by
  have hFile : (s .encryptedTempPath).file ≠ none := by
    rw [h.temporary]
    nofun
  rw [restoreMigrationArtifacts, if_pos rfl]
  have hVerify : Guarded databaseKey original (fun _ s' => s' = s)
      (tryCatch (verifySqlCipherDatabase .encryptedTempPath databaseKey) fun _ => throw
        "Interrupted SQLCipher migration temp could not be verified. Preserving migration artifacts for recovery.") s := by
    refine (guarded_verify (.renamed h) hFile databaseKey).catchError (fun _ _ hAfter => hAfter) ?_
    rintro error s' rfl
    rfl
  refine hVerify.bind ?_ ?_
  · rintro _ s' rfl
    have hRename : Guarded databaseKey original (fun outcome s'' => Restartable databaseKey original s'' ∧
        ∀ a, outcome = .ok a → Encrypted databaseKey original s'')
        (perform (.rename .encryptedTempPath .databaseFilePath)) s' := by
      refine guarded_perform (.renamed h) ?_
      intro result s'' hEffect
      cases result with
      | ok a =>
        have hEncrypted : Encrypted databaseKey original s'' := by
          rw [show s'' = _ from hEffect]
          constructor
          · simp [h.database, h.temporary, encryptedEntry, DatabaseEntry.absent]
          · simp
          · simp [h.backup]
        exact ⟨.encrypted hEncrypted, fun _ _ => hEncrypted⟩
      | error e =>
        rw [show s'' = _ from hEffect]
        exact ⟨.renamed h, nofun⟩
    refine hRename.bind ?_ ?_
    · rintro ⟨⟩ s'' ⟨-, hDone⟩
      have hEncrypted := hDone () rfl
      have hRemaining : Encrypted databaseKey original
          (Function.update s'' .encryptedTempPath (s'' .encryptedTempPath).withoutSidecars) := hEncrypted.update_temporary hEncrypted.temporary
      refine (guarded_removeSidecars (.encrypted hEncrypted) (.encrypted hRemaining)).bind ?_ ?_
      · rintro ⟨⟩ t ⟨-, hRemoved⟩
        obtain rfl | ⟨⟨_, hError⟩, -⟩ := hRemoved
        · refine (guarded_removeBackup_encrypted hRemaining).mono ?_
          rintro outcome t ⟨hKept, hGone⟩
          exact ⟨hKept, fun a hOk => .inr (hGone a hOk)⟩
        · contradiction
      · rintro error t ⟨hKept, -⟩
        exact ⟨hKept, nofun⟩
    · rintro error s'' ⟨hKept, -⟩
      exact ⟨hKept, nofun⟩
  · rintro error s' rfl
    exact ⟨.renamed h, nofun⟩

theorem guarded_restoreBackup (hState : Restartable databaseKey original s)
    (hDatabase : s .databaseFilePath = .absent) (hBackup : s .plaintextBackupPath = plaintextEntry original) :
    Guarded databaseKey original (fun outcome s' => Restartable databaseKey original s' ∧
        ∀ a, outcome = .ok a → Source original s')
      (perform (.rename .plaintextBackupPath .databaseFilePath)) s := by
  refine guarded_perform hState ?_
  intro result s' hEffect
  cases result with
  | ok a =>
    have hSource : Source original s' := by
      rw [show s' = _ from hEffect]
      refine ⟨original, ?_⟩
      simp [hDatabase, hBackup, plaintextEntry, DatabaseEntry.absent]
    exact ⟨.source hSource, fun _ _ => hSource⟩
  | error e =>
    rw [show s' = _ from hEffect]
    exact ⟨hState, nofun⟩

theorem recovers_restore_withdrawn (h : Withdrawn original s) :
    Recovers databaseKey original (restoreMigrationArtifacts databaseKey false true) s := by
  rw [restoreMigrationArtifacts, if_neg Bool.false_ne_true, if_pos rfl]
  refine (guarded_restoreBackup (.withdrawn h) h.database h.backup).bind ?_ ?_
  · rintro ⟨⟩ s' ⟨-, hRestored⟩
    have hSource := hRestored () rfl
    have hRemoved : Source original (Function.update s' .plaintextBackupPath _) :=
      hSource.update (by decide) (s' .plaintextBackupPath).withoutSidecars
    refine (guarded_removeSidecars (.source hSource) (.source hRemoved)).mono ?_
    rintro outcome s'' ⟨hKept, rfl | ⟨⟨error, rfl⟩, -⟩⟩
    · exact ⟨hKept, fun _ _ => .inl hRemoved⟩
    · exact ⟨hKept, nofun⟩
  · rintro error s' ⟨hKept, -⟩
    exact ⟨hKept, nofun⟩

theorem recovers_recover (h : Restartable databaseKey original s) (depth : Nat) :
    Recovers databaseKey original (recoverInterruptedSqlCipherMigration databaseKey depth) s := by
  cases depth with
  | zero => exact ⟨h, nofun⟩
  | succ depth =>
    rw [recoverInterruptedSqlCipherMigration]
    refine (guarded_fileExists h .databaseFilePath).bind ?_ (by rintro error s' ⟨rfl, hError⟩; contradiction)
    rintro databaseExists s' ⟨rfl, hDatabase⟩
    refine (guarded_fileExists h .encryptedTempPath).bind ?_ (by rintro error s'' ⟨rfl, hError⟩; contradiction)
    rintro temporaryExists s'' ⟨rfl, hTemporary⟩
    refine (guarded_fileExists h .plaintextBackupPath).bind ?_ (by rintro error t ⟨rfl, hError⟩; contradiction)
    rintro backupExists t ⟨rfl, hBackup⟩
    rw [Except.ok.injEq] at hDatabase hTemporary hBackup
    have hPresent (hRecovered : Recovered databaseKey original t) (hFile : ∀ content,
        (t .databaseFilePath).file = some content → ¬content.HasSize 0) :
        Recovers databaseKey original (do
          let size ← perform (.stat .databaseFilePath)
          if size = 0 ∧ (temporaryExists ∨ backupExists) then
            removeDatabaseArtifact .databaseFilePath
            recoverInterruptedSqlCipherMigration databaseKey depth
          else discardMigrationArtifacts databaseKey temporaryExists backupExists) t := by
      refine (guarded_perform h fun _ _ hEffect => hEffect).bind ?_ ?_
      · rintro size u ⟨rfl, hSize⟩
        obtain ⟨content, hContent, hSize⟩ := hSize size rfl
        have hNonzero : size ≠ 0 := by
          rintro rfl
          exact hFile content hContent hSize
        rw [if_neg (fun hEmpty => hNonzero hEmpty.1)]
        exact recovers_discard hRecovered temporaryExists backupExists
      · rintro error u ⟨rfl, -⟩
        exact ⟨h, nofun⟩
    cases h with
    | source h =>
      obtain ⟨rows, hFile, -⟩ := h.exists_rows
      rw [hFile] at hDatabase
      rw [hDatabase]
      refine hPresent (.inl h) ?_
      rintro content hContent hSize
      rw [hFile, Option.some.injEq] at hContent
      rw [← hContent] at hSize
      exact absurd (show headerLength ≤ 0 from hSize) (by decide)
    | encrypted h =>
      rw [h.database] at hDatabase
      rw [hDatabase]
      refine hPresent (.inr h) ?_
      rintro content hContent hSize
      rw [h.database] at hContent
      cases hContent
      exact hSize rfl
    | renamed h =>
      rw [h.database] at hDatabase
      rw [h.temporary] at hTemporary
      rw [hDatabase, hTemporary]
      exact recovers_restore_renamed h backupExists
    | withdrawn h =>
      rw [h.database] at hDatabase
      rw [h.temporary] at hTemporary
      rw [h.backup] at hBackup
      rw [hDatabase, hTemporary, hBackup]
      exact recovers_restore_withdrawn h

abbrev Migrates {α : Type} (databaseKey : Text) (original : Rows) (program : MigrationProgram α) (s : Files Rows) :
    Prop :=
  Guarded databaseKey original (fun outcome s' => Restartable databaseKey original s' ∧
    ∀ a, outcome = .ok a → Encrypted databaseKey original s') program s

theorem guarded_promote (h : Renamed databaseKey original s) :
    Guarded databaseKey original (fun outcome s' => (∀ a, outcome = .ok a → Encrypted databaseKey original s') ∧
        (Renamed databaseKey original s' ∨
          Encrypted databaseKey original s' ∧ s' .plaintextBackupPath = plaintextEntry original))
      (promoteEncryptedCopy databaseKey) s := by
  have hRename : Guarded databaseKey original (fun outcome s' => (∃ error, outcome = .error error) ∧ s' = s ∨
      Encrypted databaseKey original s' ∧ s' .plaintextBackupPath = plaintextEntry original)
      (perform (.rename .encryptedTempPath .databaseFilePath)) s := by
    refine guarded_perform (.renamed h) ?_
    intro result s' hEffect
    cases result with
    | ok a =>
      right
      rw [show s' = _ from hEffect]
      refine ⟨?_, by simp [h.backup]⟩
      constructor
      · simp [h.database, h.temporary, encryptedEntry, DatabaseEntry.absent]
      · simp
      · simp [h.backup]
    | error e => exact .inl ⟨⟨e, rfl⟩, hEffect⟩
  refine hRename.bind ?_ ?_
  · rintro ⟨⟩ s' (⟨⟨error, hError⟩, -⟩ | ⟨hEncrypted, hBackup⟩)
    · contradiction
    · have hFile : (s' .databaseFilePath).file ≠ none := by
        rw [hEncrypted.database]
        nofun
      refine (guarded_verify (.encrypted hEncrypted) hFile databaseKey).bind ?_ ?_
      · rintro _ s'' rfl
        exact ⟨fun _ _ => hEncrypted, .inr ⟨hEncrypted, hBackup⟩⟩
      · rintro error s'' rfl
        exact ⟨nofun, .inr ⟨hEncrypted, hBackup⟩⟩
  · rintro error s' (⟨-, rfl⟩ | hPromoted)
    · exact ⟨nofun, .inl h⟩
    · exact ⟨nofun, .inr hPromoted⟩

theorem migrates_restorePlaintext (h : Renamed databaseKey original s ∨
    Encrypted databaseKey original s ∧ s .plaintextBackupPath = plaintextEntry original) :
    Migrates databaseKey original restorePlaintextDatabase s := by
  have hState : Restartable databaseKey original s := h.elim .renamed fun hEncrypted => .encrypted hEncrypted.1
  have hBackup : s .plaintextBackupPath = plaintextEntry original := h.elim Renamed.backup And.right
  have hSidecars : Restartable databaseKey original
      (Function.update s .databaseFilePath (s .databaseFilePath).withoutSidecars) := by
    rw [update_withoutSidecars]
    · exact hState
    · obtain hRenamed | ⟨hEncrypted, -⟩ := h
      · rw [hRenamed.database]
        rfl
      · rw [hEncrypted.database]
        rfl
  have hRemoved : Restartable databaseKey original (Function.update s .databaseFilePath .absent) := by
    obtain hRenamed | ⟨hEncrypted, -⟩ := h
    · apply Restartable.renamed
      constructor
      · simp
      · simpa using hRenamed.temporary
      · simpa using hRenamed.backup
    · apply Restartable.withdrawn
      constructor
      · simp
      · simpa using hEncrypted.temporary
      · simpa using hBackup
  refine (guarded_removeArtifact hState hSidecars hRemoved).bind ?_ ?_
  · rintro ⟨⟩ s' ⟨-, hAbsent⟩
    rw [hAbsent () rfl]
    have hRestore := guarded_restoreBackup hRemoved (by simp) (by simpa using hBackup)
    have hRestored : Guarded databaseKey original (fun _ s'' => Restartable databaseKey original s'')
        (tryCatch (perform (.rename .plaintextBackupPath .databaseFilePath)) fun _ =>
          throw "SQLCipher replacement failed and the plaintext backup could not be restored.")
        (Function.update s .databaseFilePath .absent) := hRestore.catchError (fun _ _ hAfter => hAfter.1) fun _ _ hAfter => hAfter.1
    refine hRestored.bind ?_ ?_
    · rintro ⟨⟩ s'' hKept
      exact ⟨hKept, nofun⟩
    · rintro error s'' hKept
      exact ⟨hKept, nofun⟩
  · rintro error s' ⟨hKept, -⟩
    exact ⟨hKept, nofun⟩

theorem migrates_replace (hDatabase : s .databaseFilePath = plaintextEntry original)
    (hTemporary : s .encryptedTempPath = encryptedEntry databaseKey original)
    (hBackup : s .plaintextBackupPath = .absent) :
    Migrates databaseKey original (replaceWithEncryptedCopy databaseKey) s := by
  have hSource : Source original s := ⟨original, by simp [hDatabase, plaintextEntry]⟩
  have hSidecars : Function.update s .databaseFilePath (s .databaseFilePath).withoutSidecars = s := by
    rw [update_withoutSidecars]
    rw [hDatabase]
    rfl
  refine (guarded_removeSidecars (.source hSource) (by rw [hSidecars]; exact .source hSource)).bind ?_ ?_
  · rintro ⟨⟩ s' ⟨-, hSame⟩
    have hState : s' = s := by
      obtain rfl | ⟨-, rfl⟩ := hSame
      · exact hSidecars
      · rfl
    rw [hState]
    have hRename : Guarded databaseKey original (fun outcome s' => Restartable databaseKey original s' ∧
        ∀ a, outcome = .ok a → Renamed databaseKey original s')
        (perform (.rename .databaseFilePath .plaintextBackupPath)) s := by
      refine guarded_perform (.source hSource) ?_
      intro result s' hEffect
      cases result with
      | ok a =>
        have hRenamed : Renamed databaseKey original s' := by
          rw [show s' = _ from hEffect]
          constructor
          · simp [hDatabase, plaintextEntry, DatabaseEntry.absent]
          · simpa using hTemporary
          · simp [hDatabase, hBackup, plaintextEntry, DatabaseEntry.absent]
        exact ⟨.renamed hRenamed, fun _ _ => hRenamed⟩
      | error e =>
        rw [show s' = _ from hEffect]
        exact ⟨.source hSource, nofun⟩
    refine hRename.bind ?_ ?_
    · rintro ⟨⟩ s'' ⟨-, hRenamed⟩
      refine (guarded_promote (hRenamed () rfl)).catchError ?_ ?_
      · rintro ⟨⟩ t ⟨hOk, -⟩
        exact ⟨.encrypted (hOk () rfl), hOk⟩
      · rintro error t ⟨-, hState⟩
        exact migrates_restorePlaintext hState
    · rintro error s'' ⟨hKept, -⟩
      exact ⟨hKept, nofun⟩
  · rintro error s' ⟨hKept, -⟩
    exact ⟨hKept, nofun⟩

theorem guarded_encryptCopy (h : Source original s) (hTemporary : s .encryptedTempPath = .absent) :
    Guarded databaseKey original (fun outcome s' => Source original s' ∧ ∀ a, outcome = .ok a →
        s' .databaseFilePath = plaintextEntry original ∧
        s' .encryptedTempPath = encryptedEntry databaseKey original ∧
        s' .plaintextBackupPath = s .plaintextBackupPath)
      (encryptPlaintextDatabaseCopy databaseKey) s := by
  obtain ⟨rows, hFile, hRows⟩ := h.exists_rows
  have hCheckpointed : (s .databaseFilePath).checkpointed = plaintextEntry original := by
    rw [DatabaseEntry.checkpointed, hFile]
    simp only [hRows]
    rfl
  have hCheckpoint : Guarded databaseKey original (fun outcome s' => Source original s' ∧ ∀ a, outcome = .ok a →
      s' = Function.update s .databaseFilePath (plaintextEntry original))
      (checkpointPlaintextDatabase .databaseFilePath) s := by
    have hPerform : Guarded databaseKey original (fun outcome s' => Source original s' ∧ ∀ a, outcome = .ok a →
        s' = Function.update s .databaseFilePath (plaintextEntry original))
        (perform (.checkpoint .databaseFilePath)) s := by
      refine guarded_perform (.source h) ?_
      rintro result s' (rfl | ⟨⟨error, rfl⟩, rfl⟩)
      · rw [hCheckpointed]
        exact ⟨⟨original, by simp [plaintextEntry]⟩, fun _ _ => rfl⟩
      · exact ⟨h, nofun⟩
    refine hPerform.bind ?_ ?_
    · rintro count s' ⟨hSource, hDone⟩
      exact safe_ofExcept.mpr ⟨hSource, fun _ _ => hDone count rfl⟩
    · rintro error s' ⟨hSource, -⟩
      exact ⟨hSource, nofun⟩
  refine hCheckpoint.bind ?_ ?_
  · rintro sourceTableCount s' ⟨hSource, hDone⟩
    obtain rfl := hDone sourceTableCount rfl
    have hCopy : Guarded databaseKey original (fun outcome s' => Source original s' ∧ ∀ a, outcome = .ok a →
        s' = Function.update (Function.update s .databaseFilePath (plaintextEntry original)) .encryptedTempPath
          (plaintextEntry original))
        (perform (.copyFile .databaseFilePath .encryptedTempPath))
        (Function.update s .databaseFilePath (plaintextEntry original)) := by
      refine guarded_perform (.source hSource) ?_
      intro result s' hEffect
      cases result with
      | ok a =>
        obtain ⟨-, rfl⟩ := hEffect
        refine ⟨hSource.update (by decide) _, fun _ _ => ?_⟩
        simp [hTemporary, plaintextEntry, DatabaseEntry.absent]
      | error e =>
        obtain rfl | ⟨-, content, rfl⟩ := hEffect
        · exact ⟨hSource, nofun⟩
        · exact ⟨hSource.update (by decide) _, nofun⟩
    refine hCopy.bind ?_ ?_
    · rintro ⟨⟩ s' ⟨hSource, hCopied⟩
      obtain rfl := hCopied () rfl
      have hRekey : Guarded databaseKey original (fun outcome s' => Source original s' ∧ ∀ a, outcome = .ok a →
          s' .databaseFilePath = plaintextEntry original ∧
          s' .encryptedTempPath = encryptedEntry databaseKey original ∧
          s' .plaintextBackupPath = s .plaintextBackupPath)
          (perform (.rekey .encryptedTempPath databaseKey))
          (Function.update (Function.update s .databaseFilePath (plaintextEntry original)) .encryptedTempPath
            (plaintextEntry original)) := by
        refine guarded_perform (.source hSource) ?_
        rintro result s' ⟨entry, rfl, hEntry⟩
        refine ⟨hSource.update (by decide) _, ?_⟩
        rintro ⟨⟩ rfl
        have hEncrypted : entry = encryptedEntry databaseKey original := hEntry rfl _ (by rw [Function.update_self]; rfl)
        simp [hEncrypted]
      refine hRekey.bind ?_ ?_
      · rintro ⟨⟩ s'' ⟨hKept, hEncrypted⟩
        exact ⟨hKept, fun _ _ => hEncrypted () rfl⟩
      · rintro error s'' ⟨hKept, -⟩
        exact ⟨hKept, nofun⟩
    · rintro error s' ⟨hKept, -⟩
      exact ⟨hKept, nofun⟩
  · rintro error s' ⟨hKept, -⟩
    exact ⟨hKept, nofun⟩

theorem migrates_replacePlaintext (hDatabase : s .databaseFilePath = plaintextEntry original)
    (hTemporary : s .encryptedTempPath = encryptedEntry databaseKey original)
    (hBackup : s .plaintextBackupPath = .absent) :
    Migrates databaseKey original (replacePlaintextDatabase databaseKey) s := by
  refine (migrates_replace hDatabase hTemporary hBackup).bind ?_ ?_
  · rintro ⟨⟩ s' ⟨-, hEncrypted⟩
    refine (guarded_removeBackup_encrypted (hEncrypted () rfl)).bind ?_ ?_
    · rintro ⟨⟩ s'' ⟨-, hEncrypted⟩
      have hNow := hEncrypted () rfl
      have hLater : Encrypted databaseKey original
          (Function.update s'' .encryptedTempPath (s'' .encryptedTempPath).withoutSidecars) := hNow.update_temporary hNow.temporary
      refine (guarded_removeSidecars (.encrypted hNow) (.encrypted hLater)).bind ?_ ?_
      · rintro ⟨⟩ t ⟨hKept, rfl | ⟨-, rfl⟩⟩
        · exact ⟨hKept, fun _ _ => hLater⟩
        · exact ⟨hKept, fun _ _ => hNow⟩
      · rintro error t ⟨hKept, -⟩
        exact ⟨hKept, nofun⟩
    · rintro error s'' ⟨hKept, -⟩
      exact ⟨hKept, nofun⟩
  · rintro error s' ⟨hKept, -⟩
    exact ⟨hKept, nofun⟩

theorem migrates_encrypt (h : Source original s) :
    Migrates databaseKey original (encryptPlaintextDatabase databaseKey) s := by
  refine (guarded_removeTemporary_source h (by decide)).bind ?_ ?_
  · rintro ⟨⟩ s' ⟨-, hRemoved⟩
    obtain rfl := hRemoved () rfl
    have hSource : Source original (Function.update s .encryptedTempPath .absent) := h.update (by decide) _
    refine (guarded_removeTemporary_source hSource (by decide)).bind ?_ ?_
    · rintro ⟨⟩ s' ⟨-, hRemoved⟩
      obtain rfl := hRemoved () rfl
      have hClean : Source original (Function.update (Function.update s .encryptedTempPath .absent)
          .plaintextBackupPath .absent) := hSource.update (by decide) _
      have hCopy : Guarded databaseKey original (fun outcome s' => Restartable databaseKey original s' ∧
          ∀ a, outcome = .ok a → Source original s' ∧ s' .databaseFilePath = plaintextEntry original ∧
            s' .encryptedTempPath = encryptedEntry databaseKey original ∧ s' .plaintextBackupPath = .absent)
          (tryCatch (encryptPlaintextDatabaseCopy databaseKey) fun error => do
            removeDatabaseArtifact .encryptedTempPath
            throw error)
          (Function.update (Function.update s .encryptedTempPath .absent) .plaintextBackupPath .absent) := by
        refine (guarded_encryptCopy hClean (by simp)).catchError ?_ ?_
        · rintro count s' ⟨hKept, hDone⟩
          refine ⟨.source hKept, fun a hOk => ⟨hKept, ?_⟩⟩
          simpa using hDone a hOk
        · rintro error s' ⟨hKept, -⟩
          refine (guarded_removeTemporary_source hKept (by decide)).bind ?_ ?_
          · rintro ⟨⟩ s'' ⟨hKept, -⟩
            exact ⟨hKept, nofun⟩
          · rintro error s'' ⟨hKept, -⟩
            exact ⟨hKept, nofun⟩
      refine hCopy.bind ?_ ?_
      · rintro sourceTableCount s' ⟨-, hCopied⟩
        obtain ⟨hKept, hDatabase, hTemporary, hBackup⟩ := hCopied sourceTableCount rfl
        have hFile : (s' .encryptedTempPath).file ≠ none := by
          rw [hTemporary]
          nofun
        refine (guarded_verify (.source hKept) hFile databaseKey).bind ?_ ?_
        · rintro tableCount s'' rfl
          split
          · refine (guarded_removeTemporary_source hKept (by decide)).bind ?_ ?_
            · rintro ⟨⟩ t ⟨hKept, -⟩
              exact ⟨hKept, nofun⟩
            · rintro error t ⟨hKept, -⟩
              exact ⟨hKept, nofun⟩
          · exact migrates_replacePlaintext hDatabase hTemporary hBackup
        · rintro error s'' rfl
          exact ⟨.source hKept, nofun⟩
      · rintro error s' ⟨hKept, -⟩
        exact ⟨hKept, nofun⟩
    · rintro error s' ⟨hKept, -⟩
      exact ⟨hKept, nofun⟩
  · rintro error s' ⟨hKept, -⟩
    exact ⟨hKept, nofun⟩

theorem migrates_migrate (h : Restartable databaseKey original s) (depth : Nat) :
    Migrates databaseKey original (migratePlaintextDatabaseToSqlCipher databaseKey depth) s := by
  refine (recovers_recover h depth).bind ?_ ?_
  · rintro ⟨⟩ s' ⟨-, hRecovered⟩
    have hState := hRecovered () rfl
    refine (guarded_isPlaintext (hState.elim .source .encrypted)).bind ?_ ?_
    · rintro plaintext s'' ⟨rfl, hPlain⟩
      obtain ⟨hSource, hEncrypted⟩ := hPlain plaintext rfl
      obtain hSourceNow | hEncryptedNow := hState
      · obtain ⟨rows, hFile, -⟩ := hSourceNow.exists_rows
        rw [hSource rows hFile]
        exact migrates_encrypt hSourceNow
      · rw [hEncrypted hEncryptedNow.database]
        exact ⟨.encrypted hEncryptedNow, fun _ _ => hEncryptedNow⟩
    · rintro error s'' ⟨rfl, -⟩
      exact ⟨hState.elim .source .encrypted, nofun⟩
  · rintro error s' ⟨hKept, -⟩
    exact ⟨hKept, nofun⟩

end Steps

inductive AfterStartUps (databaseKey : Text) (start : Files Rows) : Files Rows → Prop
  | none : AfterStartUps databaseKey start start
  | startUp {s s' : Files Rows} {depth : Nat} {rest : MigrationProgram Bool} (h : AfterStartUps databaseKey start s)
      (hRun : Steps storage (migratePlaintextDatabaseToSqlCipher databaseKey depth, s) (rest, s')) :
      AfterStartUps databaseKey start s'

variable {databaseKey : Text} {original : Rows}

theorem restartable_of_safe {rest : MigrationProgram Bool} {s : Files Rows}
    (h : Migrates databaseKey original rest s) : Restartable databaseKey original s := by
  cases rest with
  | done a => exact h.1
  | fail error => exact h.1
  | ask request resume => exact h.1

theorem AfterStartUps.restartable {start s : Files Rows} (hStart : Source original start)
    (h : AfterStartUps databaseKey start s) : Restartable databaseKey original s := by
  induction h with
  | none => exact .source hStart
  | startUp _ hRun ih => exact restartable_of_safe (Safe.steps (migrates_migrate ih _) hRun)

/-- At every moment of every run, failed and interrupted ones included, one of the three files is a complete copy;
where a run returns, the database file is the encrypted one. -/
theorem migration_keeps_a_copy {start s s' : Files Rows} (hStart : Source original start)
    (hReached : AfterStartUps databaseKey start s) {depth : Nat} {rest : MigrationProgram Bool}
    (hRun : Steps storage (migratePlaintextDatabaseToSqlCipher databaseKey depth, s) (rest, s')) :
    (∃ path, CompleteCopy databaseKey original (s' path)) ∧
      ∀ migrated, rest = .done migrated → s' .databaseFilePath = encryptedEntry databaseKey original := by
  have hSafe : Migrates databaseKey original rest s' := Safe.steps (migrates_migrate (hReached.restartable hStart) depth) hRun
  constructor
  · exact (restartable_of_safe hSafe).exists_copy
  · rintro migrated rfl
    exact (hSafe.2 migrated rfl).database

/-- Files of which every request succeeds that can. -/
def promptAnswer (s : Files Rows) : (request : MigrationRequest) → Except String request.Answer × Files Rows
  | .access path => (.ok (s path).file.isSome, s)
  | .stat path =>
    match (s path).file with
    | none => (.error "ENOENT", s)
    | some .empty => (.ok 0, s)
    | some _ => (.ok 4096, s)
  | .readHeader path =>
    match (s path).file with
    | none => (.error "ENOENT", s)
    | some (.plaintext _) => (.ok true, s)
    | some _ => (.ok false, s)
  | .inspect _ _ => (.ok ⟨some "sqlcipher", some "ok", .bigint 3, ["ok"]⟩, s)
  | .checkpoint path => (.ok (.bigint 3), Function.update s path (s path).checkpointed)
  | .copyFile source target =>
    match (s target).file with
    | none => (.ok (), Function.update s target { s target with file := (s source).file })
    | some _ => (.error "EEXIST", s)
  | .rekey path databaseKey =>
    match (s path).rekeyed databaseKey with
    | some rekeyed => (.ok (), Function.update s path rekeyed)
    | none => (.error "SQLITE_NOTADB", s)
  | .removeSidecars path => (.ok (), Function.update s path (s path).withoutSidecars)
  | .remove path => (.ok (), Function.update s path { s path with file := none })
  | .rename source target => (.ok (), Function.update (Function.update s source { s source with file := none }) target
      { s target with file := (s source).file })

theorem storage_promptAnswer (s : Files Rows) (request : MigrationRequest) :
    storage s request (promptAnswer s request).1 (promptAnswer s request).2 := by
  cases request with
  | access path => exact ⟨rfl, rfl⟩
  | stat path =>
    simp only [promptAnswer]
    split
    · exact ⟨rfl, nofun⟩
    · rename_i hFile
      exact ⟨rfl, fun _ hSize => ⟨_, hFile, (Except.ok.inj hSize).symm⟩⟩
    · rename_i content hOther hFile
      refine ⟨rfl, fun _ hSize => ⟨content, hFile, ?_⟩⟩
      cases hSize
      cases content with
      | empty => exact absurd rfl hOther
      | plaintext rows => exact show headerLength ≤ 4096 by decide
      | encrypted databaseKey rows => exact show (4096 : Nat) ≠ 0 by decide
      | damaged => trivial
  | readHeader path =>
    simp only [promptAnswer]
    split
    · exact ⟨rfl, nofun⟩
    · rename_i hFile
      exact ⟨rfl, fun _ hPlain => ⟨_, hFile, (Except.ok.inj hPlain).symm⟩⟩
    · rename_i content hOther hFile
      refine ⟨rfl, fun _ hPlain => ⟨content, hFile, ?_⟩⟩
      cases hPlain
      cases content with
      | empty => exact rfl
      | plaintext rows => exact absurd rfl (hOther rows)
      | encrypted databaseKey rows => exact rfl
      | damaged => trivial
  | inspect path databaseKey => exact .inl rfl
  | checkpoint path => exact .inl rfl
  | copyFile source target =>
    simp only [promptAnswer]
    split
    · rename_i hTarget
      exact ⟨hTarget, rfl⟩
    · exact .inl rfl
  | rekey path databaseKey =>
    simp only [promptAnswer]
    split
    · rename_i rekeyed hRekeyed
      refine ⟨rekeyed, rfl, fun _ other hOther => ?_⟩
      rw [hRekeyed] at hOther
      exact Option.some.inj hOther
    · exact ⟨s path, (Function.update_eq_self _ _).symm, nofun⟩
  | removeSidecars path => exact .inl rfl
  | remove path => exact rfl
  | rename source target => exact rfl

def legacyFiles : Files Nat
  | .databaseFilePath => ⟨some (.plaintext 0), some 7⟩
  | _ => .absent

def legacyRun : Except String Bool × Files Nat := run promptAnswer (migratePlaintextDatabaseToSqlCipher ['k'] 2) legacyFiles

theorem migration_keeps_a_copy_of_legacyFiles :
    legacyRun.1 = .ok true ∧ (∃ path, CompleteCopy ['k'] 7 (legacyRun.2 path)) ∧
      legacyRun.2 .databaseFilePath = encryptedEntry ['k'] 7 := by
  have hReturns : legacyRun.1 = .ok true := by
    rfl
  have hRun : Steps storage (migratePlaintextDatabaseToSqlCipher ['k'] 2, legacyFiles)
      (Program.ofExcept legacyRun.1, legacyRun.2) := steps_run _ storage_promptAnswer
  have hStart : Source 7 legacyFiles := ⟨0, rfl, rfl⟩
  obtain ⟨hCopy, hDone⟩ := migration_keeps_a_copy hStart .none hRun
  refine ⟨hReturns, hCopy, hDone true ?_⟩
  exact congrArg Program.ofExcept hReturns

end Database
