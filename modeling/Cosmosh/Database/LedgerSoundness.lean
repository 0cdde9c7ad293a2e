import Cosmosh.Database.MigrationRestarts

/-! # What the ledger says about the schema

A migration in the ledger stands for the objects its statements make.
-/

namespace Database

open Library Library.Program

variable {Schema : Type} (engine : SqliteEngine Schema) (directory : MigrationDirectory) (sha256 : Text → Text)

def statementsEffect (statements : List Text) (objects : Set SchemaObject) : Set SchemaObject :=
  statements.foldl (fun objects statement => engine.effect statement objects) objects

def schemaEffect : List RuntimeMigrationFile → Set SchemaObject → Set SchemaObject
  | [], objects => objects
  | file :: files, objects =>
    schemaEffect files (statementsEffect engine (splitMigrationStatements file.migrationSql) objects)

def AllPresent (objects : Set SchemaObject) (schema : Schema) : Prop := ∀ o ∈ objects, engine.Present schema o

def recordedFiles (ledger : Option (List LedgerRow)) : List RuntimeMigrationFile :=
  directory.files.filter fun file => file.migrationName ∈ appliedMigrationNames ledger

def LedgerSound (store : Store Schema) : Prop := AllPresent engine (schemaEffect engine (recordedFiles directory store.ledger) ∅) store.schema

structure ValidLedger (done rest : List RuntimeMigrationFile) (store : Store Schema) : Prop where
  files : directory.files = done ++ rest
  names : (store.ledger.getD []).map LedgerRow.migrationName = done.map RuntimeMigrationFile.migrationName
  finished : ∀ row ∈ store.ledger.getD [], row.finished = true ∧ row.rolledBack = false
  present : AllPresent engine (schemaEffect engine done ∅) store.schema

def Store.opened (store : Store Schema) : Session Schema := ⟨store, none, store.schema⟩

variable {engine directory sha256}

variable {objects : Set SchemaObject} {schema schema' : Schema}

theorem allPresent_executeAll {statements : List Text} (h : executeAll engine statements schema = .ok schema')
    (hBefore : AllPresent engine objects schema) : AllPresent engine (statementsEffect engine statements objects) schema' := by
  induction statements generalizing schema objects with
  | nil =>
    cases h
    exact hBefore
  | cons statement statements ih =>
    rw [executeAll] at h
    cases hExecute : engine.execute statement schema with
    | error error =>
      rw [hExecute] at h
      cases h
    | ok middle =>
      rw [hExecute] at h
      exact ih h (engine.execute_effect hExecute hBefore)

theorem allPresent_addColumns {statements : List RuntimeAddColumnMigrationStatement} (hAdds : AddsColumns statements)
    (h : addColumns engine statements schema = .ok schema') (hBefore : AllPresent engine objects schema) : AllPresent engine
      (statementsEffect engine (statements.map RuntimeAddColumnMigrationStatement.statement) objects) schema' := by
  induction statements generalizing schema objects with
  | nil =>
    cases h
    exact hBefore
  | cons statement statements ih =>
    have hParsed := hAdds statement List.mem_cons_self
    have hOthers : AddsColumns statements := fun other hOther => hAdds other (List.mem_cons_of_mem _ hOther)
    rw [addColumns] at h
    split at h
    · rename_i hThere
      apply ih hOthers h
      intro o ho
      change o ∈ engine.effect statement.statement objects at ho
      rw [engine.effect_addColumn hParsed] at ho
      obtain rfl | ho := ho
      · exact hThere
      · exact hBefore o ho
    · cases hExecute : engine.execute statement.statement schema with
      | error error =>
        rw [hExecute] at h
        cases h
      | ok middle =>
        rw [hExecute] at h
        exact ih hOthers h (engine.execute_effect hExecute hBefore)

theorem allPresent_migrated {file : RuntimeMigrationFile} (h : migrated engine file schema = .ok schema')
    (hBefore : AllPresent engine objects schema) :
    AllPresent engine (statementsEffect engine (splitMigrationStatements file.migrationSql) objects) schema' := by
  rw [migrated] at h
  cases hParse : parsePrismaAddColumnMigrationStatements (splitMigrationStatements file.migrationSql) with
  | none =>
    rw [hParse] at h
    exact allPresent_executeAll h hBefore
  | some statements =>
    rw [hParse] at h
    obtain ⟨hAdds, hStatements⟩ := addsColumns_of_parse hParse
    rw [← hStatements]
    exact allPresent_addColumns hAdds h hBefore

theorem allPresent_migratedAll {files : List RuntimeMigrationFile} (h : migratedAll engine files schema = .ok schema')
    (hBefore : AllPresent engine objects schema) : AllPresent engine (schemaEffect engine files objects) schema' := by
  induction files generalizing schema objects with
  | nil =>
    cases h
    exact hBefore
  | cons file files ih =>
    rw [migratedAll] at h
    cases hFile : migrated engine file schema with
    | error error =>
      rw [hFile] at h
      cases h
    | ok middle =>
      rw [hFile] at h
      exact ih h (allPresent_migrated hFile hBefore)

theorem schemaEffect_append (first second : List RuntimeMigrationFile) (objects : Set SchemaObject) :
    schemaEffect engine (first ++ second) objects = schemaEffect engine second (schemaEffect engine first objects) := by
  induction first generalizing objects with
  | nil => rfl
  | cons file first ih => exact ih _

theorem migrationName_of_recordId {name other checksum otherChecksum : Text}
    (hLength : checksum.length = 64) (hOther : otherChecksum.length = 64)
    (h : buildMigrationRecordId name checksum = buildMigrationRecordId other otherChecksum) : name = other := by
  apply List.append_inj_left' h
  simp only [List.length_cons, List.length_take]
  omega

structure Baselined (sha256 : Text → Text) (schema : Schema) (done : List RuntimeMigrationFile) (s : Session Schema) :
    Prop where
  working : s.working = none
  schema : s.committed.schema = schema
  ledger : s.committed.ledger.getD [] = done.map fun file => ledgerRow sha256 file 1

variable {listed files done rest : List RuntimeMigrationFile} {schema : Schema} {s s' : Session Schema}

section

variable (h : Baselined sha256 schema done s)
include h

theorem Baselined.current : s.current = s.committed := by
  rw [Session.current, h.working]
  rfl

theorem Baselined.append (file : RuntimeMigrationFile) : Baselined sha256 schema (done ++ [file]) (s.append (ledgerRow sha256 file 1)) := by
  have hLedger := h.ledger
  obtain ⟨committed, working, recorded⟩ := s
  cases h.working
  refine ⟨rfl, h.schema, ?_⟩
  rw [List.map_append, ← hLedger]
  rfl

theorem Baselined.new_row (hLength : ∀ text, (sha256 text).length = 64) {file : RuntimeMigrationFile}
    (hNew : file.migrationName ∉ done.map RuntimeMigrationFile.migrationName) : ¬(ledgerRow sha256 file 1).Conflicts s.current.ledger := by
  rw [LedgerRow.Conflicts, h.current, h.ledger]
  rintro ⟨row, hRow, hSame⟩
  obtain ⟨other, hOther, rfl⟩ := List.mem_map.mp hRow
  have hName : other.migrationName = file.migrationName := by
    obtain hId | hName := hSame
    · exact migrationName_of_recordId (hLength _) (hLength _) hId
    · exact hName
  exact hNew (hName ▸ List.mem_map_of_mem hOther)

end

theorem runs_baseline_query {request : SchemaRequest} {after : Except String request.Answer → Session Schema → Prop}
    (hAfter : ∀ result t, Responds engine listed s request result t → after result t) :
    Safe (database engine listed) (fun _ _ => True) after (query request) s := by
  apply Safe.request
  · trivial
  · exact hAfter

theorem runs_baselineExistingSchemaMigrations (hLength : ∀ text, (sha256 text).length = 64)
    (hDistinct : ((done ++ files).map RuntimeMigrationFile.migrationName).Nodup) (h : Baselined sha256 schema done s) :
    Safe (database engine listed) (fun _ _ => True) (fun outcome t => ∀ a, outcome = .ok a → Baselined sha256 schema (done ++ files) t)
      (baselineExistingSchemaMigrations sha256 files) s := by
  induction files generalizing done s with
  | nil =>
    intro _ _
    rw [List.append_nil]
    exact h
  | cons file files ih =>
    have hRead : Safe (database engine listed) (fun _ _ => True)
        (fun outcome t => t = s ∧ ∀ text, outcome = .ok text → text = file.migrationSql)
        (query (.readMigrationSql file)) s := by
      apply runs_baseline_query
      intro result t hResponds
      cases hResponds with
      | refused _ _ _ => exact ⟨rfl, nofun⟩
      | readMigrationSql _ => exact ⟨rfl, fun _ hOk => (Except.ok.inj hOk).symm⟩
    have hNew : file.migrationName ∉ done.map RuntimeMigrationFile.migrationName := by
      rw [List.map_append, List.nodup_append] at hDistinct
      exact fun hMem => hDistinct.2.2 _ hMem _ List.mem_cons_self rfl
    have hInsert : Safe (database engine listed) (fun _ _ => True)
        (fun outcome t => ∀ a, outcome = .ok a → Baselined sha256 schema (done ++ [file]) t)
        (query (.insertOrIgnore (ledgerRow sha256 file 1))) s := by
      apply runs_baseline_query
      intro result t hResponds
      cases hResponds with
      | refused _ _ _ => nofun
      | ignored hThere => exact absurd hThere (h.new_row hLength hNew)
      | insertOrIgnore _ => exact fun _ _ => h.append file
    have hMore : ((done ++ [file] ++ files).map RuntimeMigrationFile.migrationName).Nodup := by
      rw [List.append_assoc]
      exact hDistinct
    refine hRead.bind ?_ ?_
    · rintro text _ ⟨rfl, hText⟩
      obtain rfl := hText text rfl
      refine hInsert.bind ?_ (fun _ _ _ => nofun)
      rintro ⟨⟩ t hDone
      have hRest := ih hMore (hDone () rfl)
      rw [List.append_assoc] at hRest
      exact hRest
    · exact fun _ _ _ => nofun

variable {store : Store Schema}

theorem ValidLedger.appliedMigrationNames (h : ValidLedger engine directory done rest store) :
    appliedMigrationNames store.ledger = done.map RuntimeMigrationFile.migrationName := by
  rw [Database.appliedMigrationNames, List.filter_eq_self.mpr, h.names]
  intro row hRow
  obtain ⟨hFinished, hKept⟩ := h.finished row hRow
  rw [hFinished, hKept]
  rfl

theorem recordedFiles_of_names {ledger : Option (List LedgerRow)}
    (h : appliedMigrationNames ledger = directory.files.map RuntimeMigrationFile.migrationName) :
    recordedFiles directory ledger = directory.files := by
  rw [recordedFiles, List.filter_eq_self]
  intro file hFile
  rw [h]
  exact decide_eq_true (List.mem_map_of_mem hFile)

theorem appliedMigrationNames_append {ledger : Option (List LedgerRow)} {rows : List LedgerRow}
    {names : List Text} (hLedger : ledger.getD [] = rows ++ files.map (recordOf sha256)) (hRows : appliedMigrationNames (some rows) = names) :
    appliedMigrationNames ledger = names ++ files.map RuntimeMigrationFile.migrationName := by
  have hFiles : appliedMigrationNames (some (files.map (recordOf sha256))) =
      files.map RuntimeMigrationFile.migrationName := appliedMigrationNames_recorded rfl
  rw [appliedMigrationNames, hLedger, List.filter_append, List.map_append]
  exact congrArg₂ (· ++ ·) hRows hFiles

theorem runs_applyPending_baseline (hLength : ∀ text, (sha256 text).length = 64) (hEmpty : store.ledger.getD [] = [])
    (hBaselines : Baselines engine directory.files store) : Safe (database engine directory.files) (fun _ _ => True)
      (fun outcome t => ∀ a, outcome = .ok a → Baselined sha256 store.schema directory.files t)
      (applyPendingPrismaMigrations sha256) store.opened := by
  have hOpened : Unrecorded (store.ledger.getD []) store.schema store.opened := ⟨rfl, rfl⟩
  have hDistinct : (([] ++ directory.files).map RuntimeMigrationFile.migrationName).Nodup := directory.distinct
  refine ((runs_readMigrationState hOpened ⟨rfl, rfl⟩).weakenBefore fun _ _ _ => trivial).bind ?_ ?_
  · rintro ⟨listed, applied, baseline⟩ t ⟨⟨hOpen, hClean⟩, hFound⟩
    obtain ⟨hListed, -, hBaseline⟩ := hFound _ rfl
    dsimp only at hListed hBaseline
    rw [hBaseline.mpr hBaselines, hListed]
    have hBefore : Baselined sha256 store.schema [] t := by
      constructor
      · exact hClean.working
      · exact hClean.schema.trans hOpen.recorded
      · rw [hOpen.ledger, hEmpty]
        rfl
    refine (runs_baselineExistingSchemaMigrations hLength hDistinct hBefore).bind ?_ ?_
    · rintro ⟨⟩ t' hDone
      exact fun _ _ => hDone () rfl
    · exact fun _ _ _ => nofun
  · exact fun _ _ _ => nofun

theorem Synchronized.ledgerSound (hStart : ValidLedger engine directory done rest store)
    (h : Synchronized engine sha256 (store.ledger.getD []) store.schema rest s) : LedgerSound engine directory s.committed := by
  obtain ⟨-, hLedger, hSchema⟩ := h
  have hNames : appliedMigrationNames s.committed.ledger =
      directory.files.map RuntimeMigrationFile.migrationName := by
    rw [appliedMigrationNames_append hLedger hStart.appliedMigrationNames, hStart.files, List.map_append]
  rw [LedgerSound, recordedFiles_of_names hNames, hStart.files, schemaEffect_append]
  exact allPresent_migratedAll hSchema hStart.present

/-- A start-up on a valid ledger makes what it records if and only if all that a baseline would record is there. -/
theorem ledger_is_sound_iff {store : Store Schema} (hLength : ∀ text, (sha256 text).length = 64)
    (hStart : ValidLedger engine directory done rest store) {found : Nat}
    (hRun : Steps (database engine directory.files) (applyPendingPrismaMigrations sha256, store.opened) (.done found, s')) :
    LedgerSound engine directory s'.committed ↔ (Baselines engine directory.files store →
        AllPresent engine (schemaEffect engine directory.files ∅) store.schema) := by
  by_cases hBaselines : Baselines engine directory.files store
  · have hEmpty : store.ledger.getD [] = [] := by
      have hNames := hStart.appliedMigrationNames.symm.trans hBaselines.1
      rw [← List.map_eq_nil_iff, hStart.names, hNames]
    have hDone := Safe.steps (runs_applyPending_baseline hLength hEmpty hBaselines) hRun found rfl
    rw [LedgerSound, recordedFiles_of_names (appliedMigrationNames_recorded hDone.ledger), hDone.schema]
    exact ⟨fun hPresent _ => hPresent, fun hPresent => hPresent hBaselines⟩
  · have hOpened : Unrecorded (store.ledger.getD []) store.schema store.opened := ⟨rfl, rfl⟩
    have hPending : pendingFiles (appliedMigrationNames store.ledger) directory.files = rest := by
      rw [hStart.appliedMigrationNames, hStart.files]
      exact pendingFiles_append (hStart.files ▸ directory.distinct)
    have hDone := (Safe.steps (runs_applyPending hOpened ⟨rfl, rfl⟩ hBaselines) hRun).2 found rfl
    change Synchronized engine sha256 _ _ (pendingFiles (appliedMigrationNames store.ledger) directory.files) s'
      at hDone
    rw [hPending] at hDone
    exact ⟨fun _ hThere => absurd hThere hBaselines, fun _ => hDone.ledgerSound hStart⟩

def remoteEnhancementsToggle : RuntimeMigrationFile where
  migrationName := "20260620000100_remote_enhancements_toggle".toList
  migrationSql := ("ALTER TABLE \"SshServer\"\n" ++
    "ADD COLUMN \"remoteEnhancementsEnabled\" BOOLEAN NOT NULL DEFAULT true;\n").toList

def toggleDirectory : MigrationDirectory := ⟨[remoteEnhancementsToggle], List.pairwise_singleton _ _⟩

def toggleEngine : SqliteEngine Tables := tablesEngine fun _ _ => .error "syntax error"

def sameDigest (_ : Text) : Text := List.replicate 64 'e'

def releaseBefore : Store Tables := ⟨requiredSchemaTables.map fun name => (name, ["id".toList]), none⟩

def serversOnly : Store Tables := ⟨[("SshServer".toList, ["id".toList])], none⟩

def startUpOn (store : Store Tables) : Except String Nat × Session Tables :=
  run (promptDatabase toggleEngine toggleDirectory.files fun _ => false) (applyPendingPrismaMigrations sameDigest)
    store.opened

theorem steps_startUpOn {store : Store Tables} {result : Except String Nat × Session Tables} (h : startUpOn store = result) :
    Steps (database toggleEngine toggleDirectory.files) (applyPendingPrismaMigrations sameDigest, store.opened)
      (Program.ofExcept result.1, result.2) := by
  rw [← h]
  exact steps_run _ (responds_promptDatabase toggleEngine toggleDirectory.files fun _ => false)

def baselinedStartUp : Except String Nat × Session Tables := startUpOn releaseBefore

def addedStartUp : Except String Nat × Session Tables := startUpOn serversOnly

theorem toggle_runs : baselinedStartUp.1 = .ok 1 ∧ addedStartUp.1 = .ok 1 ∧
      appliedMigrationNames baselinedStartUp.2.committed.ledger = [remoteEnhancementsToggle.migrationName] ∧
      "remoteEnhancementsEnabled".toList ∉ toggleEngine.columnNames baselinedStartUp.2.committed.schema "SshServer".toList ∧
      foundTables toggleEngine serversOnly.schema ≠ requiredSchemaTables.length := by
  decide

theorem mem_effect_toggle : SchemaObject.column "SshServer".toList "remoteEnhancementsEnabled".toList ∈
    schemaEffect toggleEngine toggleDirectory.files ∅ := by
  have hNames : (splitMigrationStatements remoteEnhancementsToggle.migrationSql).map (fun statement =>
      (parsePrismaAddColumnStatement statement).map fun parsed => (parsed.tableName, parsed.columnName)) =
      [some ("SshServer".toList, "remoteEnhancementsEnabled".toList)] := by
    decide
  obtain ⟨statement, others, hStatements, hParsed, hOthers⟩ := List.map_eq_cons_iff.mp hNames
  obtain ⟨parsed, hParse, hColumn⟩ := Option.map_eq_some_iff.mp hParsed
  obtain ⟨hTable, hName⟩ := Prod.mk.inj hColumn
  rw [List.map_eq_nil_iff] at hOthers
  show _ ∈ statementsEffect toggleEngine (splitMigrationStatements remoteEnhancementsToggle.migrationSql) ∅
  rw [hStatements, hOthers]
  show _ ∈ toggleEngine.effect statement ∅
  rw [toggleEngine.effect_addColumn hParse, hTable, hName]
  exact .inl rfl

theorem validLedger_toggle {store : Store Tables} (h : store.ledger = none) :
    ValidLedger toggleEngine toggleDirectory [] toggleDirectory.files store := by
  constructor
  · rfl
  · rw [h]
    rfl
  · rw [h]
    exact nofun
  · exact nofun

theorem baseline_records_absent_column : ValidLedger toggleEngine toggleDirectory [] toggleDirectory.files releaseBefore ∧
      Steps (database toggleEngine toggleDirectory.files)
        (applyPendingPrismaMigrations sameDigest, releaseBefore.opened) (.done 1, baselinedStartUp.2) ∧
      appliedMigrationNames baselinedStartUp.2.committed.ledger = [remoteEnhancementsToggle.migrationName] ∧
      ¬LedgerSound toggleEngine toggleDirectory baselinedStartUp.2.committed := by
  obtain ⟨hReturns, -, hRecorded, hAbsent, -⟩ := toggle_runs
  have hRun : Steps (database toggleEngine toggleDirectory.files)
      (applyPendingPrismaMigrations sameDigest, releaseBefore.opened)
      (Program.ofExcept baselinedStartUp.1, baselinedStartUp.2) := steps_startUpOn (by rw [baselinedStartUp])
  rw [hReturns] at hRun
  refine ⟨validLedger_toggle rfl, hRun, hRecorded, ?_⟩
  intro hSound
  rw [LedgerSound, recordedFiles_of_names hRecorded] at hSound
  exact hAbsent (hSound _ mem_effect_toggle)

theorem ledger_is_sound_of_serversOnly : LedgerSound toggleEngine toggleDirectory addedStartUp.2.committed := by
  obtain ⟨-, hReturns, -, -, hTables⟩ := toggle_runs
  have hRun : Steps (database toggleEngine toggleDirectory.files)
      (applyPendingPrismaMigrations sameDigest, serversOnly.opened)
      (Program.ofExcept addedStartUp.1, addedStartUp.2) := steps_startUpOn (by rw [addedStartUp])
  rw [hReturns] at hRun
  have hLength : ∀ text, (sameDigest text).length = 64 := fun _ => List.length_replicate
  refine (ledger_is_sound_iff hLength (validLedger_toggle rfl) hRun).mpr ?_
  intro hBaselines
  exact absurd hBaselines.2.2 hTables

end Database
