import Mathlib.Data.Set.Basic
import Cosmosh.Database.RuntimeMigrations

/-! # What a run of the migrations does to the schema

A statement acts on the schema as the database engine says, and any request may be refused.
-/

namespace Database

open Library Library.Program

inductive SchemaObject
  | table (name : Text)
  | column (tableName name : Text)
  | index (name : Text)
  deriving DecidableEq

structure SchemaView (Schema : Type) where
  tableNames : Schema → List Text
  columnNames : Schema → Text → List Text
  indexNames : Schema → List Text

def SchemaView.Present {Schema : Type} (view : SchemaView Schema) (schema : Schema) : SchemaObject → Prop
  | .table name => name ∈ view.tableNames schema
  | .column tableName name => name ∈ view.columnNames schema tableName
  | .index name => name ∈ view.indexNames schema

/-- The engine: `effect` gives the objects that exist once a statement has succeeded, from objects that existed
before. Adding a column that exists is an error. -/
structure SqliteEngine (Schema : Type) extends SchemaView Schema where
  execute : Text → Schema → Except String Schema
  effect : Text → Set SchemaObject → Set SchemaObject
  execute_effect : ∀ {statement schema schema' objects}, execute statement schema = .ok schema' →
    (∀ o ∈ objects, toSchemaView.Present schema o) → ∀ o ∈ effect statement objects, toSchemaView.Present schema' o
  effect_addColumn : ∀ {statement parsed}, parsePrismaAddColumnStatement statement = some parsed →
    ∀ objects, effect statement objects = insert (.column parsed.tableName parsed.columnName) objects
  execute_duplicateColumn : ∀ {statement parsed schema}, parsePrismaAddColumnStatement statement = some parsed →
    parsed.columnName ∈ columnNames schema parsed.tableName → ∃ error, execute statement schema = .error error

variable {Schema : Type}

structure Store (Schema : Type) where
  schema : Schema
  ledger : Option (List LedgerRow)
  deriving DecidableEq

/-- `recorded` is the schema at the last change of the ledger. -/
structure Session (Schema : Type) where
  committed : Store Schema
  working : Option (Store Schema)
  recorded : Schema
  deriving DecidableEq

namespace Session

variable (s : Session Schema)

def current : Store Schema := s.working.getD s.committed

def write (store : Store Schema) : Session Schema :=
  match s.working with
  | none => { s with committed := store }
  | some _ => { s with working := some store }

def append (row : LedgerRow) : Session Schema :=
  let store := { s.current with ledger := some ((s.current.ledger.getD []) ++ [row]) }
  match s.working with
  | none => { s with committed := store, recorded := store.schema }
  | some _ => { s with working := some store }

def commit : Session Schema := { s with committed := s.current, working := none, recorded := s.current.schema }

def rollback : Session Schema := { s with working := none }

def restart : Session Schema := { s with working := none }

end Session

def appliedMigrationNames (ledger : Option (List LedgerRow)) : List Text :=
  ((ledger.getD []).filter fun row => row.finished && !row.rolledBack).map LedgerRow.migrationName

def LedgerRow.Conflicts (row : LedgerRow) (ledger : Option (List LedgerRow)) : Prop :=
  ∃ other ∈ ledger.getD [], other.id = row.id ∨ other.migrationName = row.migrationName

variable (engine : SqliteEngine Schema) (files : List RuntimeMigrationFile)

def foundTables (schema : Schema) : Nat := (requiredSchemaTables.filter fun name => name ∈ engine.tableNames schema).length

/-- Any request may be refused, and changes nothing then; only a refused `commit` leaves open whether it took
place. -/
inductive Responds (s : Session Schema) :
    (request : SchemaRequest) → Except String request.Answer → Session Schema → Prop
  | refused (request : SchemaRequest) (error : String) (hRequest : request ≠ .commit ∧ request ≠ .rollback) :
      Responds s request (.error error) s
  | ensureMigrationTable : Responds s .ensureMigrationTable (.ok ())
      (s.write { s.current with ledger := some (s.current.ledger.getD []) })
  | listMigrationFiles : Responds s .listMigrationFiles (.ok files) s
  | appliedMigrations : Responds s .appliedMigrations (.ok (appliedMigrationNames s.current.ledger)) s
  | requiredTables : Responds s .requiredTables (.ok (foundTables engine s.current.schema)) s
  | readMigrationSql (file : RuntimeMigrationFile) :
      Responds s (.readMigrationSql file) (.ok file.migrationSql) s
  | tableInfo (tableName : Text) :
      Responds s (.tableInfo tableName) (.ok (engine.columnNames s.current.schema tableName)) s
  | execute {statement : Text} {schema : Schema} (h : engine.execute statement s.current.schema = .ok schema) :
      Responds s (.execute statement) (.ok ()) (s.write { s.current with schema })
  | insert {row : LedgerRow} (h : ¬row.Conflicts s.current.ledger) : Responds s (.insert row) (.ok ()) (s.append row)
  | ignored {row : LedgerRow} (h : row.Conflicts s.current.ledger) : Responds s (.insertOrIgnore row) (.ok ()) s
  | insertOrIgnore {row : LedgerRow} (h : ¬row.Conflicts s.current.ledger) :
      Responds s (.insertOrIgnore row) (.ok ()) (s.append row)
  | begin : Responds s .begin (.ok ()) { s with working := some s.current }
  | commit : Responds s .commit (.ok ()) s.commit
  | commitUnconfirmed (error : String) : Responds s .commit (.error error) s.commit
  | commitFailed (error : String) : Responds s .commit (.error error) s.rollback
  | rollback (result : Except String Unit) : Responds s .rollback result s.rollback

def database : Effect SchemaRequest SchemaRequest.Answer String (Session Schema) :=
  fun s request result s' => Responds engine files s request result s'

def executeAll : List Text → Schema → Except String Schema
  | [], schema => .ok schema
  | statement :: statements, schema => engine.execute statement schema >>= executeAll statements

def addColumns : List RuntimeAddColumnMigrationStatement → Schema → Except String Schema
  | [], schema => .ok schema
  | statement :: statements, schema =>
    if statement.columnName ∈ engine.columnNames schema statement.tableName then addColumns statements schema
    else engine.execute statement.statement schema >>= addColumns statements

def migrated (file : RuntimeMigrationFile) (schema : Schema) : Except String Schema :=
  match parsePrismaAddColumnMigrationStatements (splitMigrationStatements file.migrationSql) with
  | some statements => addColumns engine statements schema
  | none => executeAll engine (splitMigrationStatements file.migrationSql) schema

def migratedAll : List RuntimeMigrationFile → Schema → Except String Schema
  | [], schema => .ok schema
  | file :: files, schema => migrated engine file schema >>= migratedAll files

variable {schema : Schema}

theorem migratedAll_append {first second : List RuntimeMigrationFile} {middle : Schema} (h : migratedAll engine first schema = .ok middle) :
    migratedAll engine (first ++ second) schema = migratedAll engine second middle := by
  induction first generalizing schema with
  | nil =>
    cases h
    rfl
  | cons file first ih =>
    simp only [List.cons_append, migratedAll] at h ⊢
    cases hFile : migrated engine file schema with
    | error error =>
      rw [hFile] at h
      cases h
    | ok next =>
      rw [hFile] at h
      exact ih h

namespace Session

variable {engine files} (s : Session Schema)

def withSchema (schema : Schema) : Session Schema := s.write { s.current with schema }

@[simp] theorem current_withSchema (schema : Schema) : (s.withSchema schema).current = { s.current with schema } := by
  cases s with
  | mk committed working recorded => cases working <;> rfl

@[simp] theorem recorded_withSchema (schema : Schema) : (s.withSchema schema).recorded = s.recorded := by
  cases s with
  | mk committed working recorded => cases working <;> rfl

@[simp] theorem ledger_withSchema (schema : Schema) : (s.withSchema schema).committed.ledger = s.committed.ledger := by
  cases s with
  | mk committed working recorded => cases working <;> rfl

@[simp] theorem withSchema_withSchema (first second : Schema) : (s.withSchema first).withSchema second = s.withSchema second := by
  cases s with
  | mk committed working recorded => cases working <;> rfl

@[simp] theorem withSchema_current : s.withSchema s.current.schema = s := by
  cases s with
  | mk committed working recorded => cases working <;> rfl

end Session

variable {parsed : RuntimeAddColumnMigrationStatement}

section Steps

variable {engine files}

structure Unrecorded (rows : List LedgerRow) (recorded : Schema) (s : Session Schema) : Prop where
  ledger : s.committed.ledger.getD [] = rows
  recorded : s.recorded = recorded

theorem runs_query {before : Session Schema → Prop} {request : SchemaRequest}
    {after : Except String request.Answer → Session Schema → Prop} {s : Session Schema} (hBefore : before s)
    (hAfter : ∀ result s', Responds engine files s request result s' → after result s') :
    Safe (database engine files) (fun s _ => before s) after (query request) s := by
  apply Safe.request
  · exact hBefore
  · exact hAfter

variable {rows : List LedgerRow} {recorded : Schema} {s : Session Schema}

theorem Unrecorded.withSchema (h : Unrecorded rows recorded s) (schema : Schema) : Unrecorded rows recorded (s.withSchema schema) := by
  constructor
  · rw [Session.ledger_withSchema]
    exact h.ledger
  · rw [Session.recorded_withSchema]
    exact h.recorded

theorem runs_execute (h : Unrecorded rows recorded s) (statement : Text) : Safe (database engine files) (fun s _ => Unrecorded rows recorded s)
      (fun outcome s' => ∃ schema, s' = s.withSchema schema ∧ ∀ a, outcome = .ok a → engine.execute statement s.current.schema = .ok schema)
      (query (.execute statement)) s := by
  apply runs_query h
  intro result s' hResponds
  cases hResponds with
  | refused _ _ _ => exact ⟨s.current.schema, s.withSchema_current.symm, nofun⟩
  | @execute _ schema hExecute => exact ⟨schema, rfl, fun _ _ => hExecute⟩

theorem runs_executeStatements (h : Unrecorded rows recorded s) (statements : List Text) :
    Safe (database engine files) (fun s _ => Unrecorded rows recorded s) (fun outcome s' => ∃ schema, s' = s.withSchema schema ∧
        ∀ a, outcome = .ok a → executeAll engine statements s.current.schema = .ok schema) (executeStatements statements) s := by
  induction statements generalizing s with
  | nil => exact ⟨s.current.schema, s.withSchema_current.symm, fun _ _ => rfl⟩
  | cons statement statements ih =>
    refine (runs_execute h statement).bind ?_ ?_
    · rintro ⟨⟩ _ ⟨middle, rfl, hExecute⟩
      refine (ih (h.withSchema middle)).mono ?_
      rintro outcome _ ⟨schema, rfl, hRest⟩
      refine ⟨schema, by simp, fun a hOk => ?_⟩
      have hDone := hRest a hOk
      rw [Session.current_withSchema] at hDone
      rw [executeAll, hExecute () rfl]
      exact hDone
    · rintro error _ ⟨middle, rfl, -⟩
      exact ⟨middle, rfl, nofun⟩

theorem statement_of_parse {statement : Text} (h : parsePrismaAddColumnStatement statement = some parsed) : parsed.statement = statement := by
  simp only [parsePrismaAddColumnStatement, Option.bind_eq_bind, Option.bind_eq_some_iff] at h
  obtain ⟨_, -, _, -, _, -, _, -, _, -, ⟨_, _⟩, -, _, -, _, -, _, -, _, -, _, -, _, -, ⟨_, _⟩, -, h⟩ := h
  split at h
  · rw [← Option.some.inj h]
  · cases h

def AddsColumns (statements : List RuntimeAddColumnMigrationStatement) : Prop :=
  ∀ parsed ∈ statements, parsePrismaAddColumnStatement parsed.statement = some parsed

theorem addsColumns_of_mapM {statements : List Text} {parsed : List RuntimeAddColumnMigrationStatement}
    (h : statements.mapM parsePrismaAddColumnStatement = some parsed) :
    AddsColumns parsed ∧ parsed.map RuntimeAddColumnMigrationStatement.statement = statements := by
  induction statements generalizing parsed with
  | nil =>
    cases h
    exact ⟨nofun, rfl⟩
  | cons statement statements ih =>
    simp only [List.mapM_cons, Option.bind_eq_bind, Option.bind_eq_some_iff] at h
    obtain ⟨first, hFirst, others, hOthers, hParsed⟩ := h
    obtain ⟨hAdds, hStatements⟩ := ih hOthers
    cases hParsed
    have hText := statement_of_parse hFirst
    constructor
    · intro parsed hMem
      obtain rfl | hMem := List.mem_cons.mp hMem
      · rw [hText]
        exact hFirst
      · exact hAdds parsed hMem
    · rw [List.map_cons, hText, hStatements]

theorem addsColumns_of_parse {statements : List Text} {parsed : List RuntimeAddColumnMigrationStatement}
    (h : parsePrismaAddColumnMigrationStatements statements = some parsed) :
    AddsColumns parsed ∧ parsed.map RuntimeAddColumnMigrationStatement.statement = statements := by
  rw [parsePrismaAddColumnMigrationStatements] at h
  split at h
  · cases h
  · exact addsColumns_of_mapM h

variable (engine) in
def Cached (schema : Schema) (columnNameCache : List (Text × List Text)) : Prop :=
  ∀ tableName columnNames, columnNameCache.lookup tableName = some columnNames →
    ∀ name ∈ columnNames, name ∈ engine.columnNames schema tableName

variable {columnNameCache : List (Text × List Text)}

theorem Cached.cons {tableName : Text} {columnNames : List Text} (h : Cached engine schema columnNameCache)
    (hColumns : ∀ name ∈ columnNames, name ∈ engine.columnNames schema tableName) :
    Cached engine schema ((tableName, columnNames) :: columnNameCache) := by
  intro other found hFound
  rw [List.lookup_cons] at hFound
  split at hFound
  · rename_i hSame
    rw [eq_of_beq hSame]
    cases hFound
    exact hColumns
  · exact h other found hFound

theorem columns_of_execute {schema' : Schema} (hParsed : parsePrismaAddColumnStatement parsed.statement = some parsed)
    (hExecute : engine.execute parsed.statement schema = .ok schema') :
    (∀ tableName, ∀ name ∈ engine.columnNames schema tableName, name ∈ engine.columnNames schema' tableName) ∧
      parsed.columnName ∈ engine.columnNames schema' parsed.tableName := by
  have hEffect := engine.execute_effect hExecute fun o (h : o ∈ {o | engine.Present schema o}) => h
  rw [engine.effect_addColumn hParsed] at hEffect
  constructor
  · intro tableName name hName
    exact hEffect (.column tableName name) (.inr hName)
  · exact hEffect _ (.inl rfl)

theorem Cached.execute {schema' : Schema} (h : Cached engine schema columnNameCache)
    (hParsed : parsePrismaAddColumnStatement parsed.statement = some parsed)
    (hExecute : engine.execute parsed.statement schema = .ok schema') : Cached engine schema' columnNameCache :=
  fun tableName columnNames hFound name hName =>
    (columns_of_execute hParsed hExecute).1 tableName name (h tableName columnNames hFound name hName)

theorem runs_addColumns (h : Unrecorded rows recorded s) {statements : List RuntimeAddColumnMigrationStatement}
    (hAdds : AddsColumns statements) (hCache : Cached engine s.current.schema columnNameCache) :
    Safe (database engine files) (fun s _ => Unrecorded rows recorded s) (fun outcome s' => ∃ schema, s' = s.withSchema schema ∧
        ∀ a, outcome = .ok a → addColumns engine statements s.current.schema = .ok schema)
      (applyPrismaAddColumnMigrationStatements columnNameCache statements) s := by
  induction statements generalizing s columnNameCache with
  | nil => exact ⟨s.current.schema, s.withSchema_current.symm, fun _ _ => rfl⟩
  | cons statement statements ih =>
    have hParsed := hAdds statement List.mem_cons_self
    have hOthers : AddsColumns statements := fun other hOther => hAdds other (List.mem_cons_of_mem _ hOther)
    have hStatement (columnNames : List Text)
        (hColumns : ∀ name ∈ columnNames, name ∈ engine.columnNames s.current.schema statement.tableName) :
        Safe (database engine files) (fun s _ => Unrecorded rows recorded s)
          (fun outcome s' => ∃ schema, s' = s.withSchema schema ∧
            ∀ a, outcome = .ok a → addColumns engine (statement :: statements) s.current.schema = .ok schema)
          (if statement.columnName ∈ columnNames then
            applyPrismaAddColumnMigrationStatements ((statement.tableName, columnNames) :: columnNameCache) statements
          else do
            query (.execute statement.statement)
            applyPrismaAddColumnMigrationStatements
              ((statement.tableName, statement.columnName :: columnNames) :: columnNameCache) statements) s := by
      split
      · rename_i hCached
        refine (ih h hOthers (hCache.cons hColumns)).mono ?_
        rintro outcome _ ⟨schema, rfl, hDone⟩
        refine ⟨schema, rfl, fun a hOk => ?_⟩
        rw [addColumns, if_pos (hColumns _ hCached)]
        exact hDone a hOk
      · refine (runs_execute h statement.statement).bind ?_ ?_
        · rintro ⟨⟩ _ ⟨middle, rfl, hExecute⟩
          have hMiddle := hExecute () rfl
          have hNew : statement.columnName ∉ engine.columnNames s.current.schema statement.tableName := by
            intro hThere
            obtain ⟨error, hError⟩ := engine.execute_duplicateColumn hParsed hThere
            rw [hMiddle] at hError
            cases hError
          have hNext : Cached engine (s.withSchema middle).current.schema
              ((statement.tableName, statement.columnName :: columnNames) :: columnNameCache) := by
            rw [Session.current_withSchema]
            apply (hCache.execute hParsed hMiddle).cons
            intro name hName
            obtain ⟨hKept, hAdded⟩ := columns_of_execute hParsed hMiddle
            obtain rfl | hName := List.mem_cons.mp hName
            · exact hAdded
            · exact hKept statement.tableName name (hColumns name hName)
          refine (ih (h.withSchema middle) hOthers hNext).mono ?_
          rintro outcome _ ⟨schema, rfl, hDone⟩
          refine ⟨schema, by simp, fun a hOk => ?_⟩
          have hRest := hDone a hOk
          rw [Session.current_withSchema] at hRest
          rw [addColumns, if_neg hNew, hMiddle]
          exact hRest
        · rintro error _ ⟨middle, rfl, -⟩
          exact ⟨middle, rfl, nofun⟩
    rw [applyPrismaAddColumnMigrationStatements]
    cases hLookup : columnNameCache.lookup statement.tableName with
    | some columnNames => exact hStatement columnNames (hCache _ _ hLookup)
    | none =>
      have hInfo : Safe (database engine files) (fun s _ => Unrecorded rows recorded s)
          (fun outcome s' => s' = s ∧ ∀ columnNames, outcome = .ok columnNames →
            columnNames = engine.columnNames s.current.schema statement.tableName)
          (query (.tableInfo statement.tableName)) s := by
        apply runs_query h
        intro result s' hResponds
        cases hResponds with
        | refused _ _ _ => exact ⟨rfl, nofun⟩
        | tableInfo _ => exact ⟨rfl, fun _ hOk => (Except.ok.inj hOk).symm⟩
      refine hInfo.bind ?_ ?_
      · rintro columnNames _ ⟨rfl, hColumns⟩
        apply hStatement columnNames
        rw [hColumns columnNames rfl]
        exact fun _ hName => hName
      · rintro error _ ⟨rfl, -⟩
        exact ⟨_, (Session.withSchema_current _).symm, nofun⟩

section Migration

variable (sha256 : Text → Text)

def recordOf (file : RuntimeMigrationFile) : LedgerRow := ledgerRow sha256 file (splitMigrationStatements file.migrationSql).length

variable (engine) in
def Recorded (rows : List LedgerRow) (schema : Schema) (file : RuntimeMigrationFile) (s : Session Schema) : Prop :=
  ∃ next, migrated engine file schema = .ok next ∧
    s = ⟨⟨next, some (rows ++ [recordOf sha256 file])⟩, none, next⟩

variable {file : RuntimeMigrationFile}

theorem runs_transaction {body : SchemaProgram Unit} (h : Unrecorded rows recorded s) (hWorking : s.working = none)
    (hBody : ∀ t : Session Schema, Unrecorded rows recorded t → t.working ≠ none → t.current = s.committed →
      Safe (database engine files) (fun s _ => Unrecorded rows recorded s)
        (fun outcome t' => Unrecorded rows recorded t' ∧ ∀ a, outcome = .ok a → ∃ next, migrated engine file s.committed.schema = .ok next ∧
          t'.current = ⟨next, some (rows ++ [recordOf sha256 file])⟩) body t) :
    Safe (database engine files) (fun s _ => Unrecorded rows recorded s)
      (fun outcome s' => (Unrecorded rows recorded s' ∨ Recorded engine sha256 rows s.committed.schema file s') ∧
        ∀ a, outcome = .ok a → Recorded engine sha256 rows s.committed.schema file s') (transaction body) s := by
  have hCurrent : s.current = s.committed := by rw [Session.current, hWorking]; rfl
  have hBegin : Safe (database engine files) (fun s _ => Unrecorded rows recorded s)
      (fun outcome t => Unrecorded rows recorded t ∧
        ∀ a, outcome = .ok a → t.working ≠ none ∧ t.current = s.committed)
      (query .begin) s := by
    apply runs_query h
    intro result t hResponds
    cases hResponds with
    | refused _ _ _ => exact ⟨h, nofun⟩
    | begin => exact ⟨⟨h.ledger, h.recorded⟩, fun _ _ => ⟨nofun, hCurrent⟩⟩
  refine hBegin.bind ?_ ?_
  · rintro ⟨⟩ t ⟨hOpen, hCopy⟩
    obtain ⟨hInside, hCopied⟩ := hCopy () rfl
    have hCaught : Safe (database engine files) (fun s _ => Unrecorded rows recorded s)
        (fun outcome t' => Unrecorded rows recorded t' ∧ ∀ a, outcome = .ok a → ∃ next,
          migrated engine file s.committed.schema = .ok next ∧
          t'.current = ⟨next, some (rows ++ [recordOf sha256 file])⟩)
        (tryCatch body fun error => do
          query .rollback
          throw error) t := by
      refine (hBody t hOpen hInside hCopied).catchError (fun _ _ hAfter => hAfter) ?_
      rintro error t' ⟨hKept, -⟩
      have hRollback : Safe (database engine files) (fun s _ => Unrecorded rows recorded s)
          (fun _ t'' => Unrecorded rows recorded t'') (query .rollback) t' := by
        apply runs_query hKept
        intro result t'' hResponds
        cases hResponds with
        | refused _ _ _ => exact hKept
        | rollback _ => exact ⟨hKept.ledger, hKept.recorded⟩
      refine hRollback.bind ?_ ?_
      · rintro ⟨⟩ t'' hKept
        exact ⟨hKept, nofun⟩
      · rintro error t'' hKept
        exact ⟨hKept, nofun⟩
    refine hCaught.bind ?_ ?_
    · rintro ⟨⟩ t' ⟨hKept, hDone⟩
      obtain ⟨next, hNext, hWritten⟩ := hDone () rfl
      have hRecorded : Recorded engine sha256 rows s.committed.schema file t'.commit := by
        refine ⟨next, hNext, ?_⟩
        rw [Session.commit, hWritten]
      apply runs_query hKept
      intro result t'' hResponds
      cases hResponds with
      | refused _ _ hRequest => exact absurd rfl hRequest.1
      | commit => exact ⟨.inr hRecorded, fun _ _ => hRecorded⟩
      | commitUnconfirmed _ => exact ⟨.inr hRecorded, nofun⟩
      | commitFailed _ => exact ⟨.inl ⟨hKept.ledger, hKept.recorded⟩, nofun⟩
    · rintro error t' ⟨hKept, -⟩
      exact ⟨.inl hKept, nofun⟩
  · rintro error t ⟨hKept, -⟩
    exact ⟨.inl hKept, nofun⟩

variable {t : Session Schema}

theorem runs_record_working (h : Unrecorded rows recorded t) (hWorking : t.working ≠ none) (hLedger : t.current.ledger.getD [] = rows) :
    Safe (database engine files) (fun s _ => Unrecorded rows recorded s) (fun outcome t' => Unrecorded rows recorded t' ∧ ∀ a, outcome = .ok a →
        t'.current = ⟨t.current.schema, some (rows ++ [recordOf sha256 file])⟩)
      (recordRuntimeMigrationApplied sha256 file (splitMigrationStatements file.migrationSql).length) t := by
  apply runs_query h
  intro result t' hResponds
  cases hResponds with
  | refused _ _ _ => exact ⟨h, nofun⟩
  | insert _ =>
    obtain ⟨committed, working, ghost⟩ := t
    cases working with
    | none => exact absurd rfl hWorking
    | some store =>
      refine ⟨⟨h.ledger, h.recorded⟩, fun _ _ => ?_⟩
      rw [← hLedger]
      rfl

theorem runs_record_committed {next : Schema} (h : Unrecorded rows recorded t) (hWorking : t.working = none)
    (hNext : migrated engine file schema = .ok next) (hSchema : t.current.schema = next) :
    Safe (database engine files) (fun s _ => Unrecorded rows recorded s)
      (fun outcome t' => (Unrecorded rows recorded t' ∨ Recorded engine sha256 rows schema file t') ∧
        ∀ a, outcome = .ok a → Recorded engine sha256 rows schema file t')
      (recordRuntimeMigrationApplied sha256 file (splitMigrationStatements file.migrationSql).length) t := by
  apply runs_query h
  intro result t' hResponds
  cases hResponds with
  | refused _ _ _ => exact ⟨.inl h, nofun⟩
  | insert _ =>
    obtain ⟨committed, working, ghost⟩ := t
    cases hWorking
    have hRecorded : Recorded engine sha256 rows schema file
        ((Session.mk committed none ghost).append (recordOf sha256 file)) := by
      refine ⟨next, hNext, ?_⟩
      rw [← hSchema, ← h.ledger]
      rfl
    exact ⟨.inr hRecorded, fun _ _ => hRecorded⟩

theorem working_withSchema (h : t.working ≠ none) (schema : Schema) : (t.withSchema schema).working ≠ none := by
  obtain ⟨committed, working, ghost⟩ := t
  cases working with
  | none => exact absurd rfl h
  | some store => nofun

variable (engine files) in
theorem runs_applyMigration (file : RuntimeMigrationFile) (h : Unrecorded rows recorded s) (hWorking : s.working = none) :
    Safe (database engine files) (fun s _ => Unrecorded rows recorded s)
      (fun outcome s' => (Unrecorded rows recorded s' ∨ Recorded engine sha256 rows s.committed.schema file s') ∧
        ∀ a, outcome = .ok a → Recorded engine sha256 rows s.committed.schema file s') (applyMigration sha256 file) s := by
  have hBody {body : SchemaProgram Unit} (hRuns : ∀ t : Session Schema, Unrecorded rows recorded t →
      t.current = s.committed → Safe (database engine files) (fun s _ => Unrecorded rows recorded s)
        (fun outcome t' => ∃ next, t' = t.withSchema next ∧
          ∀ a, outcome = .ok a → migrated engine file s.committed.schema = .ok next) body t) :
      Safe (database engine files) (fun s _ => Unrecorded rows recorded s)
        (fun outcome s' => (Unrecorded rows recorded s' ∨ Recorded engine sha256 rows s.committed.schema file s') ∧
          ∀ a, outcome = .ok a → Recorded engine sha256 rows s.committed.schema file s')
        (transaction do
          body
          recordRuntimeMigrationApplied sha256 file (splitMigrationStatements file.migrationSql).length) s := by
    apply runs_transaction sha256 h hWorking
    intro t hOpen hInside hCopied
    refine (hRuns t hOpen hCopied).bind ?_ ?_
    · rintro ⟨⟩ _ ⟨next, rfl, hNext⟩
      have hLedger : (t.withSchema next).current.ledger.getD [] = rows := by
        rw [Session.current_withSchema, hCopied]
        exact h.ledger
      refine (runs_record_working sha256 (hOpen.withSchema next) (working_withSchema hInside next) hLedger).mono ?_
      rintro outcome t' ⟨hKept, hDone⟩
      refine ⟨hKept, fun a hOk => ⟨next, hNext () rfl, ?_⟩⟩
      rw [hDone a hOk, Session.current_withSchema]
    · rintro error _ ⟨next, rfl, -⟩
      exact ⟨hOpen.withSchema next, nofun⟩
  rw [applyMigration]
  cases hParse : parsePrismaAddColumnMigrationStatements (splitMigrationStatements file.migrationSql) with
  | some statements =>
    apply hBody
    intro t hOpen hCopied
    have hEmpty : Cached engine t.current.schema [] := nofun
    refine (runs_addColumns hOpen (addsColumns_of_parse hParse).1 hEmpty).mono ?_
    rintro outcome t' ⟨next, hSchema, hDone⟩
    refine ⟨next, hSchema, fun a hOk => ?_⟩
    rw [migrated, hParse, ← hCopied]
    exact hDone a hOk
  | none =>
    have hMigrated : migrated engine file = executeAll engine (splitMigrationStatements file.migrationSql) := by
      funext schema
      rw [migrated, hParse]
    dsimp only
    split
    · refine (runs_executeStatements h _).bind ?_ ?_
      · rintro ⟨⟩ _ ⟨next, rfl, hDone⟩
        have hCurrent : s.current = s.committed := by rw [Session.current, hWorking]; rfl
        have hNext : migrated engine file s.committed.schema = .ok next := by
          rw [hMigrated, ← hCurrent]
          exact hDone () rfl
        have hOutside : (s.withSchema next).working = none := by
          obtain ⟨committed, working, ghost⟩ := s
          cases hWorking
          rfl
        exact runs_record_committed sha256 (h.withSchema next) hOutside hNext (by rw [Session.current_withSchema])
      · rintro error _ ⟨next, rfl, -⟩
        exact ⟨.inl (h.withSchema next), nofun⟩
    · apply hBody
      intro t hOpen hCopied
      refine (runs_executeStatements hOpen _).mono ?_
      rintro outcome t' ⟨next, hSchema, hDone⟩
      refine ⟨next, hSchema, fun a hOk => ?_⟩
      rw [hMigrated, ← hCopied]
      exact hDone a hOk

variable (engine) in
def Progress (rows : List LedgerRow) (schema : Schema) (pending : List RuntimeMigrationFile) (s : Session Schema) :
    Prop :=
  ∃ done rest, pending = done ++ rest ∧ Unrecorded (rows ++ done.map (recordOf sha256)) s.recorded s ∧
    migratedAll engine done schema = .ok s.recorded

structure Settled (s : Session Schema) : Prop where
  working : s.working = none
  schema : s.committed.schema = s.recorded

variable (engine) in
structure Synchronized (rows : List LedgerRow) (schema : Schema) (pending : List RuntimeMigrationFile)
    (s : Session Schema) : Prop where
  settled : Settled s
  ledger : s.committed.ledger.getD [] = rows ++ pending.map (recordOf sha256)
  schema : migratedAll engine pending schema = .ok s.committed.schema

theorem Recorded.next (h : Recorded engine sha256 rows schema file t) : ∃ next, migrated engine file schema = .ok next ∧
      Unrecorded (rows ++ [recordOf sha256 file]) next t ∧ Settled t := by
  obtain ⟨next, hNext, rfl⟩ := h
  exact ⟨next, hNext, ⟨rfl, rfl⟩, ⟨rfl, rfl⟩⟩

variable {pending : List RuntimeMigrationFile}

theorem Progress.start (h : Unrecorded rows schema t) : Progress engine sha256 rows schema pending t := by
  refine ⟨[], pending, rfl, ⟨?_, rfl⟩, ?_⟩
  · rw [List.map_nil, List.append_nil]
    exact h.ledger
  · rw [h.recorded]
    rfl

variable {sha256}

theorem Progress.cons {next : Schema} (hFile : migrated engine file schema = .ok next)
    (h : Progress engine sha256 (rows ++ [recordOf sha256 file]) next pending t) : Progress engine sha256 rows schema (file :: pending) t := by
  obtain ⟨done, rest, rfl, hOpen, hDone⟩ := h
  refine ⟨file :: done, rest, rfl, ?_, ?_⟩
  · rw [List.map_cons, ← List.singleton_append, ← List.append_assoc]
    exact hOpen
  · rw [migratedAll, hFile]
    exact hDone

theorem Synchronized.cons {next : Schema} (hFile : migrated engine file schema = .ok next)
    (h : Synchronized engine sha256 (rows ++ [recordOf sha256 file]) next pending t) :
    Synchronized engine sha256 rows schema (file :: pending) t := by
  refine ⟨h.settled, ?_, ?_⟩
  · rw [h.ledger, List.map_cons, List.append_assoc, List.singleton_append]
  · rw [migratedAll, hFile]
    exact h.schema

def pendingFiles (applied : List Text) (files : List RuntimeMigrationFile) : List RuntimeMigrationFile :=
  files.filter fun file => file.migrationName ∉ applied

theorem runs_applyMigrations (applied : List Text) (listed : List RuntimeMigrationFile) (h : Unrecorded rows schema s) (hSettled : Settled s) :
    Safe (database engine files) (fun s _ => Progress engine sha256 rows schema (pendingFiles applied listed) s)
      (fun outcome s' => Progress engine sha256 rows schema (pendingFiles applied listed) s' ∧
        ∀ a, outcome = .ok a → Synchronized engine sha256 rows schema (pendingFiles applied listed) s')
      (applyMigrations sha256 applied listed) s := by
  induction listed generalizing s rows schema with
  | nil =>
    refine ⟨.start sha256 h, fun _ _ => ⟨hSettled, ?_, ?_⟩⟩
    · rw [h.ledger]
      exact (List.append_nil rows).symm
    · rw [hSettled.schema, h.recorded]
      rfl
  | cons file listed ih =>
    rw [applyMigrations]
    split
    · rename_i hApplied
      have hPending : pendingFiles applied (file :: listed) = pendingFiles applied listed := by
        simp [pendingFiles, hApplied]
      rw [hPending]
      exact ih h hSettled
    · rename_i hApplied
      have hPending : pendingFiles applied (file :: listed) = file :: pendingFiles applied listed := by
        simp [pendingFiles, hApplied]
      rw [hPending]
      have hRead : Safe (database engine files)
          (fun s _ => Progress engine sha256 rows schema (file :: pendingFiles applied listed) s)
          (fun outcome s' => s' = s ∧ ∀ sql, outcome = .ok sql → sql = file.migrationSql)
          (query (.readMigrationSql file)) s := by
        apply runs_query (.start sha256 h)
        intro result s' hResponds
        cases hResponds with
        | refused _ _ _ => exact ⟨rfl, nofun⟩
        | readMigrationSql _ => exact ⟨rfl, fun _ hOk => (Except.ok.inj hOk).symm⟩
      refine hRead.bind ?_ ?_
      · rintro sql _ ⟨rfl, hSql⟩
        rw [hSql sql rfl]
        have hApply := runs_applyMigration engine files sha256 file h hSettled.working
        rw [hSettled.schema, h.recorded] at hApply
        refine (hApply.weakenBefore fun _ _ hOpen => .start sha256 hOpen).bind ?_ ?_
        · rintro ⟨⟩ s'' ⟨-, hDone⟩
          obtain ⟨next, hNext, hOpen, hClean⟩ := (hDone () rfl).next
          refine ((ih hOpen hClean).weakenBefore fun _ _ hProgress => hProgress.cons hNext).mono ?_
          rintro outcome s' ⟨hProgress, hFinished⟩
          exact ⟨hProgress.cons hNext, fun a hOk => (hFinished a hOk).cons hNext⟩
        · rintro error s' ⟨hOpen | hDone, -⟩
          · exact ⟨.start sha256 hOpen, nofun⟩
          · obtain ⟨next, hNext, hOpen, -⟩ := hDone.next
            exact ⟨(Progress.start sha256 hOpen).cons hNext, nofun⟩
      · rintro error _ ⟨rfl, -⟩
        exact ⟨.start sha256 h, nofun⟩

variable (engine files) in
def Baselines (store : Store Schema) : Prop :=
  appliedMigrationNames store.ledger = [] ∧ files ≠ [] ∧ foundTables engine store.schema = requiredSchemaTables.length

theorem runs_readMigrationState (h : Unrecorded rows schema s) (hSettled : Settled s) :
    Safe (database engine files) (fun s _ => Unrecorded rows schema s)
      (fun outcome t => (Unrecorded rows schema t ∧ Settled t) ∧ ∀ found, outcome = .ok found →
        found.1 = files ∧ found.2.1 = appliedMigrationNames s.committed.ledger ∧ (found.2.2 = true ↔ Baselines engine files s.committed))
      readMigrationState s := by
  have hEnsure : Safe (database engine files) (fun s _ => Unrecorded rows schema s)
      (fun _ t => (Unrecorded rows schema t ∧ Settled t) ∧ t.committed.schema = s.committed.schema ∧
        t.committed.ledger.getD [] = s.committed.ledger.getD []) (query .ensureMigrationTable) s := by
    apply runs_query h
    intro result t hResponds
    cases hResponds with
    | refused _ _ _ => exact ⟨⟨h, hSettled⟩, rfl, rfl⟩
    | ensureMigrationTable =>
      obtain ⟨committed, working, ghost⟩ := s
      cases hSettled.working
      exact ⟨⟨⟨h.ledger, h.recorded⟩, ⟨rfl, hSettled.schema⟩⟩, rfl, rfl⟩
  refine hEnsure.bind ?_ ?_
  · rintro ⟨⟩ t ⟨⟨hOpen, hClean⟩, hSchema, hLedger⟩
    have hCurrent : t.current = t.committed := by rw [Session.current, hClean.working]; rfl
    have hNames : appliedMigrationNames t.current.ledger = appliedMigrationNames s.committed.ledger := by
      rw [hCurrent, appliedMigrationNames, appliedMigrationNames, hLedger]
    have hRead (request : SchemaRequest) (value : request.Answer)
        (hAnswer : ∀ result t', Responds engine files t request result t' →
          t' = t ∧ ∀ a, result = .ok a → a = value) :
        Safe (database engine files) (fun s _ => Unrecorded rows schema s)
          (fun outcome t' => t' = t ∧ ∀ a, outcome = .ok a → a = value) (query request) t := runs_query hOpen hAnswer
    refine (hRead .listMigrationFiles files ?_).bind ?_ ?_
    · intro result t' hResponds
      cases hResponds with
      | refused _ _ _ => exact ⟨rfl, nofun⟩
      | listMigrationFiles => exact ⟨rfl, fun _ hOk => (Except.ok.inj hOk).symm⟩
    · rintro listed _ ⟨rfl, hListed⟩
      obtain rfl := hListed listed rfl
      refine (hRead .appliedMigrations (appliedMigrationNames s.committed.ledger) ?_).bind ?_ ?_
      · intro result t' hResponds
        cases hResponds with
        | refused _ _ _ => exact ⟨rfl, nofun⟩
        | appliedMigrations => exact ⟨rfl, fun _ hOk => (Except.ok.inj hOk).symm.trans hNames⟩
      · rintro applied u ⟨rfl, hApplied⟩
        obtain rfl := hApplied applied rfl
        split
        · rename_i hEmpty
          have hTables : Safe (database engine listed) (fun s _ => Unrecorded rows schema s)
              (fun outcome u' => u' = u ∧ ∀ b, outcome = .ok b →
                (b = true ↔ foundTables engine s.committed.schema = requiredSchemaTables.length))
              hasRequiredSchemaTables u := by
            refine (hRead .requiredTables (foundTables engine s.committed.schema) ?_).bind ?_ ?_
            · intro result u' hResponds
              cases hResponds with
              | refused _ _ _ => exact ⟨rfl, nofun⟩
              | requiredTables =>
                refine ⟨rfl, fun _ hOk => ?_⟩
                rw [← Except.ok.inj hOk, hCurrent, hSchema]
            · rintro found u' ⟨rfl, hFound⟩
              obtain rfl := hFound found rfl
              refine ⟨rfl, ?_⟩
              rintro _ ⟨⟩
              exact decide_eq_true_iff
            · rintro error u' ⟨rfl, -⟩
              exact ⟨rfl, nofun⟩
          refine hTables.bind ?_ ?_
          · rintro baseline u' ⟨rfl, hBaseline⟩
            refine ⟨⟨hOpen, hClean⟩, ?_⟩
            rintro _ ⟨⟩
            refine ⟨rfl, rfl, ?_⟩
            rw [hBaseline baseline rfl]
            exact ⟨fun hAll => ⟨hEmpty.1, hEmpty.2, hAll⟩, fun hAll => hAll.2.2⟩
          · rintro error u' ⟨rfl, -⟩
            exact ⟨⟨hOpen, hClean⟩, nofun⟩
        · rename_i hFilled
          refine ⟨⟨hOpen, hClean⟩, ?_⟩
          rintro _ ⟨⟩
          refine ⟨rfl, rfl, ⟨nofun, fun hBaselines => absurd ⟨hBaselines.1, hBaselines.2.1⟩ hFilled⟩⟩
      · rintro error _ ⟨rfl, -⟩
        exact ⟨⟨hOpen, hClean⟩, nofun⟩
    · rintro error _ ⟨rfl, -⟩
      exact ⟨⟨hOpen, hClean⟩, nofun⟩
  · rintro error t ⟨hOpen, -⟩
    exact ⟨hOpen, nofun⟩

theorem runs_applyPending (h : Unrecorded rows schema s) (hSettled : Settled s) (hBaselines : ¬Baselines engine files s.committed) :
    Safe (database engine files) (fun s' _ => Progress engine sha256 rows schema
        (pendingFiles (appliedMigrationNames s.committed.ledger) files) s') (fun outcome s' => Progress engine sha256 rows schema
          (pendingFiles (appliedMigrationNames s.committed.ledger) files) s' ∧ ∀ a, outcome = .ok a → Synchronized engine sha256 rows schema
          (pendingFiles (appliedMigrationNames s.committed.ledger) files) s') (applyPendingPrismaMigrations sha256) s := by
  refine ((runs_readMigrationState h hSettled).weakenBefore fun _ _ hOpen => .start sha256 hOpen).bind ?_ ?_
  · rintro ⟨listed, applied, baseline⟩ t ⟨⟨hOpen, hClean⟩, hFound⟩
    obtain ⟨hListed, hApplied, hBaseline⟩ := hFound _ rfl
    dsimp only at hListed hApplied hBaseline
    rw [← hListed, ← hApplied]
    have hFalse : baseline = false := by
      rw [← Bool.not_eq_true, hBaseline]
      exact hBaselines
    rw [hFalse]
    refine (runs_applyMigrations applied listed hOpen hClean).bind ?_ ?_
    · rintro ⟨⟩ t' ⟨hProgress, hDone⟩
      exact ⟨hProgress, fun _ _ => hDone () rfl⟩
    · rintro error t' ⟨hProgress, -⟩
      exact ⟨hProgress, nofun⟩
  · rintro error t ⟨⟨hOpen, -⟩, -⟩
    exact ⟨.start sha256 hOpen, nofun⟩

end Migration

end Steps

abbrev Tables := List (Text × List Text)

def addColumn (tables : Tables) (tableName columnName : Text) : Tables :=
  tables.map fun table => if table.1 = tableName then (table.1, table.2 ++ [columnName]) else table

def addColumnTo (parsed : RuntimeAddColumnMigrationStatement) (tables : Tables) : Except String Tables :=
  match tables.lookup parsed.tableName with
  | none => .error "no such table"
  | some columns =>
    if parsed.columnName ∈ columns then .error "duplicate column name"
    else .ok (addColumn tables parsed.tableName parsed.columnName)

def tablesView : SchemaView Tables where
  tableNames tables := tables.map Prod.fst
  columnNames tables tableName := (tables.lookup tableName).getD []
  indexNames _ := []

theorem lookup_addColumn (tables : Tables) (tableName columnName other : Text) : (addColumn tables tableName columnName).lookup other =
      (tables.lookup other).map fun columns => if other = tableName then columns ++ [columnName] else columns := by
  induction tables with
  | nil => rfl
  | cons table tables ih =>
    obtain ⟨name, columns⟩ := table
    have hHead : addColumn ((name, columns) :: tables) tableName columnName =
        (name, if name = tableName then columns ++ [columnName] else columns) ::
          addColumn tables tableName columnName := by
      rw [addColumn, List.map_cons]
      split <;> rfl
    rw [hHead, List.lookup_cons, List.lookup_cons]
    cases hName : other == name with
    | true =>
      rw [eq_of_beq hName]
      rfl
    | false => exact ih

theorem present_addColumnTo {tables tables' : Tables} (h : addColumnTo parsed tables = .ok tables') :
    (∀ o, tablesView.Present tables o → tablesView.Present tables' o) ∧
      tablesView.Present tables' (.column parsed.tableName parsed.columnName) := by
  rw [addColumnTo] at h
  cases hTable : tables.lookup parsed.tableName with
  | none =>
    rw [hTable] at h
    cases h
  | some columns =>
    rw [hTable] at h
    dsimp only at h
    split at h
    · cases h
    · cases h
      constructor
      · intro o hPresent
        cases o with
        | table name =>
          have hNames : (addColumn tables parsed.tableName parsed.columnName).map Prod.fst = tables.map Prod.fst := by
            rw [addColumn, List.map_map]
            apply List.map_congr_left
            intro table _
            dsimp only [Function.comp]
            split <;> rfl
          show name ∈ (addColumn tables parsed.tableName parsed.columnName).map Prod.fst
          rw [hNames]
          exact hPresent
        | column tableName name =>
          have hColumns : name ∈ (tables.lookup tableName).getD [] := hPresent
          show name ∈ ((addColumn tables parsed.tableName parsed.columnName).lookup tableName).getD []
          rw [lookup_addColumn]
          cases hFound : tables.lookup tableName with
          | none =>
            rw [hFound] at hColumns
            exact hColumns
          | some found =>
            rw [hFound] at hColumns
            simp only [Option.map_some, Option.getD_some] at hColumns ⊢
            split
            · exact List.mem_append_left _ hColumns
            · exact hColumns
        | index name => exact hPresent
      · show parsed.columnName ∈ ((addColumn tables parsed.tableName parsed.columnName).lookup parsed.tableName).getD []
        rw [lookup_addColumn, hTable]
        simp

/-- Added columns, and beside them the statements that `other` understands. -/
def tablesEngine (other : Text → Tables → Except String Tables) : SqliteEngine Tables where
  toSchemaView := tablesView
  execute statement tables :=
    match parsePrismaAddColumnStatement statement with
    | some parsed => addColumnTo parsed tables
    | none => other statement tables
  effect statement objects :=
    match parsePrismaAddColumnStatement statement with
    | some parsed => insert (.column parsed.tableName parsed.columnName) objects
    | none => ∅
  execute_effect := by
    intro statement tables tables' objects hExecute hBefore o ho
    cases hParse : parsePrismaAddColumnStatement statement with
    | none =>
      rw [hParse] at ho
      exact absurd ho (Set.notMem_empty o)
    | some parsed =>
      rw [hParse] at hExecute ho
      obtain ⟨hKept, hAdded⟩ := present_addColumnTo hExecute
      obtain rfl | ho := ho
      · exact hAdded
      · exact hKept o (hBefore o ho)
  effect_addColumn := by
    intro statement parsed hParse objects
    rw [hParse]
  execute_duplicateColumn := by
    intro statement parsed tables hParse hThere
    rw [hParse]
    refine ⟨"duplicate column name", ?_⟩
    have hColumns : parsed.columnName ∈ (tables.lookup parsed.tableName).getD [] := hThere
    dsimp only
    rw [addColumnTo]
    cases hTable : tables.lookup parsed.tableName with
    | none =>
      rw [hTable] at hColumns
      cases hColumns
    | some columns =>
      rw [hTable] at hColumns
      exact if_pos hColumns

/-- Answers of a database that refuses only the requests that `refuses` names. -/
def promptDatabase (engine : SqliteEngine Schema) (files : List RuntimeMigrationFile) (refuses : SchemaRequest → Bool)
    (s : Session Schema) : (request : SchemaRequest) → Except String request.Answer × Session Schema
  | .ensureMigrationTable => (.ok (), s.write { s.current with ledger := some (s.current.ledger.getD []) })
  | .listMigrationFiles => (.ok files, s)
  | .appliedMigrations => (.ok (appliedMigrationNames s.current.ledger), s)
  | .requiredTables => (.ok (foundTables engine s.current.schema), s)
  | .readMigrationSql file => (.ok file.migrationSql, s)
  | .tableInfo tableName => (.ok (engine.columnNames s.current.schema tableName), s)
  | .execute statement =>
    match engine.execute statement s.current.schema with
    | .ok schema => (.ok (), s.write { s.current with schema })
    | .error error => (.error error, s)
  | .insert row =>
    if refuses (.insert row) then (.error "disk I/O error", s)
    else if (s.current.ledger.getD []).any fun other => other.id = row.id || other.migrationName = row.migrationName then
      (.error "UNIQUE constraint failed", s)
    else (.ok (), s.append row)
  | .insertOrIgnore row =>
    if (s.current.ledger.getD []).any fun other => other.id = row.id || other.migrationName = row.migrationName then
      (.ok (), s)
    else (.ok (), s.append row)
  | .begin => (.ok (), { s with working := some s.current })
  | .commit => (.ok (), s.commit)
  | .rollback => (.ok (), s.rollback)

theorem responds_promptDatabase (engine : SqliteEngine Schema) (files : List RuntimeMigrationFile)
    (refuses : SchemaRequest → Bool) (s : Session Schema) (request : SchemaRequest) :
    database engine files s request (promptDatabase engine files refuses s request).1 (promptDatabase engine files refuses s request).2 := by
  have hConflicts (row : LedgerRow) (ledger : Option (List LedgerRow)) :
      ((ledger.getD []).any fun other => other.id = row.id || other.migrationName = row.migrationName) = true ↔
        row.Conflicts ledger := by
    simp [LedgerRow.Conflicts]
  cases request with
  | ensureMigrationTable => exact .ensureMigrationTable
  | listMigrationFiles => exact .listMigrationFiles
  | appliedMigrations => exact .appliedMigrations
  | requiredTables => exact .requiredTables
  | readMigrationSql file => exact .readMigrationSql file
  | tableInfo tableName => exact .tableInfo tableName
  | execute statement =>
    rw [promptDatabase]
    cases hExecute : engine.execute statement s.current.schema with
    | ok schema => exact .execute hExecute
    | error error => exact .refused _ error ⟨nofun, nofun⟩
  | insert row =>
    rw [promptDatabase]
    split
    · exact .refused _ _ ⟨nofun, nofun⟩
    · split
      · exact .refused _ _ ⟨nofun, nofun⟩
      · rename_i hNew
        exact .insert fun hThere => hNew ((hConflicts row _).mpr hThere)
  | insertOrIgnore row =>
    rw [promptDatabase]
    split
    · rename_i hThere
      exact .ignored ((hConflicts row _).mp hThere)
    · rename_i hNew
      exact .insertOrIgnore fun hThere => hNew ((hConflicts row _).mpr hThere)
  | begin => exact .begin
  | commit => exact .commit
  | rollback => exact .rollback (.ok ())

end Database
