import Cosmosh.Database.MigrationRuns

/-! # Migrations over crashes and restarts

A start-up that stops between two migrations leaves a prefix of them applied and recorded, and the next one goes on from
there.
-/

namespace Database

open Library Library.Program

variable {Schema : Type}

structure MigrationDirectory where
  files : List RuntimeMigrationFile
  distinct : (files.map RuntimeMigrationFile.migrationName).Nodup

variable (engine : SqliteEngine Schema) (directory : MigrationDirectory) (sha256 : Text → Text)

structure Undisturbed (s s' : Session Schema) : Prop where
  begins : ¬Baselines engine directory.files s.committed
  stops : s'.committed.schema = s'.recorded

variable {engine directory sha256}

variable {schema schema' : Schema}

theorem appliedMigrationNames_recorded {ledger : Option (List LedgerRow)} {files : List RuntimeMigrationFile}
    {appliedStepsCount : RuntimeMigrationFile → Nat}
    (h : ledger.getD [] = files.map fun file => ledgerRow sha256 file (appliedStepsCount file)) :
    appliedMigrationNames ledger = files.map RuntimeMigrationFile.migrationName := by
  rw [appliedMigrationNames, h, List.filter_eq_self.mpr]
  · rw [List.map_map]
    rfl
  · intro row hRow
    obtain ⟨file, -, rfl⟩ := List.mem_map.mp hRow
    rfl

theorem pendingFiles_append {done rest : List RuntimeMigrationFile} (h : ((done ++ rest).map RuntimeMigrationFile.migrationName).Nodup) :
    pendingFiles (done.map RuntimeMigrationFile.migrationName) (done ++ rest) = rest := by
  rw [List.map_append, List.nodup_append] at h
  obtain ⟨-, -, hApart⟩ := h
  have hDone : pendingFiles (done.map RuntimeMigrationFile.migrationName) done = [] := by
    rw [pendingFiles, List.filter_eq_nil_iff]
    intro file hFile hPending
    exact of_decide_eq_true hPending (List.mem_map_of_mem hFile)
  have hRest : pendingFiles (done.map RuntimeMigrationFile.migrationName) rest = rest := by
    rw [pendingFiles, List.filter_eq_self]
    intro file hFile
    exact decide_eq_true fun hMem => hApart _ hMem _ (List.mem_map_of_mem hFile) rfl
  rw [pendingFiles, List.filter_append]
  exact (congrArg₂ (· ++ ·) hDone hRest).trans (List.nil_append rest)

structure PrefixApplied (engine : SqliteEngine Schema) (directory : MigrationDirectory) (sha256 : Text → Text)
    (start : Schema) (done rest : List RuntimeMigrationFile) (s : Session Schema) : Prop where
  files : directory.files = done ++ rest
  settled : Settled s
  ledger : s.committed.ledger.getD [] = done.map (recordOf sha256)
  schema : migratedAll engine done start = .ok s.committed.schema

variable {start : Schema} {done rest : List RuntimeMigrationFile} {s s' : Session Schema}

theorem PrefixApplied.pending (h : PrefixApplied engine directory sha256 start done rest s) :
    pendingFiles (appliedMigrationNames s.committed.ledger) directory.files = rest := by
  rw [appliedMigrationNames_recorded h.ledger, h.files]
  exact pendingFiles_append (h.files ▸ directory.distinct)

theorem PrefixApplied.runs (h : PrefixApplied engine directory sha256 start done rest s)
    (hBegins : ¬Baselines engine directory.files s.committed) : Safe (database engine directory.files)
      (fun s' _ => Progress engine sha256 (done.map (recordOf sha256)) s.committed.schema rest s')
      (fun outcome s' => Progress engine sha256 (done.map (recordOf sha256)) s.committed.schema rest s' ∧
        ∀ a, outcome = .ok a → Synchronized engine sha256 (done.map (recordOf sha256)) s.committed.schema rest s')
      (applyPendingPrismaMigrations sha256) s := by
  have hOpen : Unrecorded (done.map (recordOf sha256)) s.committed.schema s := ⟨h.ledger, h.settled.schema.symm⟩
  rw [← h.pending]
  exact runs_applyPending hOpen h.settled hBegins

theorem progress_of_safe {rows : List LedgerRow} {pending : List RuntimeMigrationFile} {program : SchemaProgram Nat}
    (h : Safe (database engine directory.files) (fun s' _ => Progress engine sha256 rows schema pending s')
      (fun outcome s' => Progress engine sha256 rows schema pending s' ∧
        ∀ a, outcome = .ok a → Synchronized engine sha256 rows schema pending s') program s) :
    Progress engine sha256 rows schema pending s := by
  cases program with
  | done a => exact h.1
  | fail error => exact h.1
  | ask request resume => exact h.1

theorem PrefixApplied.startUp (h : PrefixApplied engine directory sha256 start done rest s)
    (hCondition : Undisturbed engine directory s s') {program : SchemaProgram Nat}
    (hRun : Steps (database engine directory.files) (applyPendingPrismaMigrations sha256, s) (program, s')) :
    ∃ done' rest', PrefixApplied engine directory sha256 start done' rest' s'.restart := by
  obtain ⟨more, rest', hRest, hOpen, hMore⟩ := progress_of_safe (Safe.steps (h.runs hCondition.begins) hRun)
  refine ⟨done ++ more, rest', ?_, ⟨rfl, hCondition.stops⟩, ?_, ?_⟩
  · rw [h.files, hRest, List.append_assoc]
  · rw [List.map_append]
    exact hOpen.ledger
  · rw [migratedAll_append engine h.schema, hMore, ← hCondition.stops]
    rfl

def settingsTable : Text := "AppSettings".toList

def backupTable : Text := "AppSettingsBackup".toList

def renameTable (tables : Tables) (oldName newName : Text) : Tables :=
  tables.map fun table => if table.1 = oldName then (newName, table.2) else table

def settingsStatements (statement : Text) (tables : Tables) : Except String Tables :=
  if statement = "PRAGMA foreign_keys=OFF".toList then .ok tables
  else if statement = "DROP TABLE IF EXISTS \"AppSettingsBackup\"".toList then
    .ok (tables.filter fun table => table.1 ≠ backupTable)
  else if statement = "ALTER TABLE \"AppSettings\" RENAME TO \"AppSettingsBackup\"".toList then
    .ok (renameTable tables settingsTable backupTable)
  else if statement = "CREATE TABLE \"AppSettings\" (\"payload\" TEXT)".toList then
    .ok (tables ++ [(settingsTable, ["payload".toList])])
  else .error "syntax error"

def settingsEngine : SqliteEngine Tables := tablesEngine settingsStatements

def splitSettings : RuntimeMigrationFile where
  migrationName := "20260701000100_split_settings".toList
  migrationSql := ("PRAGMA foreign_keys=OFF;\nDROP TABLE IF EXISTS \"AppSettingsBackup\";\n" ++
    "ALTER TABLE \"AppSettings\" RENAME TO \"AppSettingsBackup\";\n" ++
    "CREATE TABLE \"AppSettings\" (\"payload\" TEXT);\n").toList

def settingsDirectory : MigrationDirectory := ⟨[splitSettings], List.pairwise_singleton _ _⟩

def settingsStart : Tables := [(settingsTable, ["id".toList])]

def runOnce (refuses : SchemaRequest → Bool) (s : Session Tables) : Except String Nat × Session Tables :=
  run (promptDatabase settingsEngine settingsDirectory.files refuses) (applyPendingPrismaMigrations id) s

def refusesRow : SchemaRequest → Bool
  | .insert _ => true
  | _ => false

def stopped : Except String Nat × Session Tables := runOnce refusesRow ⟨⟨settingsStart, none⟩, none, settingsStart⟩

def completed : Except String Nat × Session Tables := runOnce (fun _ => false) ⟨⟨settingsStart, none⟩, none, settingsStart⟩

end Database
