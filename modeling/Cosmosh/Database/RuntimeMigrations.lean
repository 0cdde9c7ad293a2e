import Mathlib.Data.Option.Basic
import Cosmosh.Library.JsText
import Cosmosh.Library.Program

/-! # Applying the pending schema migrations

Each migration is a list of statements and a row in the ledger.
-/

namespace Database

open Library Library.JsText

structure RuntimeMigrationFile where
  migrationName : Text
  migrationSql : Text

/-- `split(/\r?\n/)` -/
def splitLines : Text → List Text
  | [] => [[]]
  | '\r' :: '\n' :: rest => [] :: splitLines rest
  | '\n' :: rest => [] :: splitLines rest
  | c :: rest =>
    match splitLines rest with
    | [] => [[c]]
    | line :: lines => (c :: line) :: lines

def splitMigrationStatements (migrationSql : Text) : List Text :=
  let sqlWithoutLineComments := List.intercalate ['\n'] ((splitLines migrationSql).filter fun line =>
    !(['-', '-'].isPrefixOf (trimStart line)))
  ((sqlWithoutLineComments.splitOn ';').map trim).filter (· ≠ [])

def dropKeyword (keyword : Text) (text : Text) : Option Text :=
  if (text.take keyword.length).map Char.toLower = keyword then some (text.drop keyword.length) else none

/-- `\s+` -/
def dropBlanks : Text → Option Text
  | [] => none
  | c :: rest => if isWhitespace c then some (rest.dropWhile isWhitespace) else none

def dropChar (expected : Char) : Text → Option Text
  | [] => none
  | c :: rest => if c = expected then some rest else none

def startsWithForeignKeysPragma (text : Text) : Bool :=
  Option.isSome do
    let rest ← dropKeyword ['p', 'r', 'a', 'g', 'm', 'a'] text
    let rest ← dropBlanks rest
    let rest ← dropKeyword ['f', 'o', 'r', 'e', 'i', 'g', 'n', '_', 'k', 'e', 'y', 's'] rest
    let rest ← dropChar '=' (rest.dropWhile isWhitespace)
    let value := rest.dropWhile isWhitespace
    dropKeyword ['o', 'f', 'f'] value <|> dropKeyword ['o', 'n'] value

def requiresNonTransactionalSqliteExecution (migrationSql : Text) : Bool := migrationSql.tails.any startsWithForeignKeysPragma

def readQuotedIdentifier : Text → Option (Text × Text)
  | [] => none
  | '"' :: '"' :: rest => (readQuotedIdentifier rest).map fun (name, rest) => ('"' :: name, rest)
  | '"' :: rest => some ([], rest)
  | c :: rest => (readQuotedIdentifier rest).map fun (name, rest) => (c :: name, rest)

structure RuntimeAddColumnMigrationStatement where
  statement : Text
  tableName : Text
  columnName : Text

def parsePrismaAddColumnStatement (statement : Text) : Option RuntimeAddColumnMigrationStatement := do
  let rest ← dropKeyword ['a', 'l', 't', 'e', 'r'] statement
  let rest ← dropBlanks rest
  let rest ← dropKeyword ['t', 'a', 'b', 'l', 'e'] rest
  let rest ← dropBlanks rest
  let rest ← dropChar '"' rest
  let (tableName, rest) ← readQuotedIdentifier rest
  let rest ← dropBlanks rest
  let rest ← dropKeyword ['a', 'd', 'd'] rest
  let rest ← dropBlanks rest
  let rest ← dropKeyword ['c', 'o', 'l', 'u', 'm', 'n'] rest
  let rest ← dropBlanks rest
  let rest ← dropChar '"' rest
  let (columnName, rest) ← readQuotedIdentifier rest
  if rest = [] ∨ (dropBlanks rest).isSome then some { statement, tableName, columnName } else none

def parsePrismaAddColumnMigrationStatements (statements : List Text) :
    Option (List RuntimeAddColumnMigrationStatement) :=
  if statements = [] then none else statements.mapM parsePrismaAddColumnStatement

structure LedgerRow where
  id : Text
  checksum : Text
  migrationName : Text
  appliedStepsCount : Nat
  finished : Bool
  rolledBack : Bool
  deriving DecidableEq

def buildMigrationRecordId (migrationName checksum : Text) : Text := migrationName ++ '-' :: checksum.take 16

def ledgerRow (sha256 : Text → Text) (file : RuntimeMigrationFile) (appliedStepsCount : Nat) : LedgerRow where
  id := buildMigrationRecordId file.migrationName (sha256 file.migrationSql)
  checksum := sha256 file.migrationSql
  migrationName := file.migrationName
  appliedStepsCount := appliedStepsCount
  finished := true
  rolledBack := false

def requiredSchemaTables : List Text :=
  ["SshFolder".toList, "SshTag".toList, "SshServer".toList, "SshKnownHost".toList, "AppSettings".toList,
    "SshServerTag".toList, "SshLoginAudit".toList, "PortForwardRule".toList]

inductive SchemaRequest
  | ensureMigrationTable
  | listMigrationFiles
  | appliedMigrations
  | requiredTables
  | readMigrationSql (file : RuntimeMigrationFile)
  | tableInfo (tableName : Text)
  | execute (statement : Text)
  | insert (row : LedgerRow)
  | insertOrIgnore (row : LedgerRow)
  | begin
  | commit
  | rollback

/-- `requiredTables` counts the rows found. -/
abbrev SchemaRequest.Answer : SchemaRequest → Type
  | .ensureMigrationTable => Unit
  | .listMigrationFiles => List RuntimeMigrationFile
  | .appliedMigrations => List Text
  | .requiredTables => Nat
  | .readMigrationSql _ => Text
  | .tableInfo _ => List Text
  | .execute _ => Unit
  | .insert _ => Unit
  | .insertOrIgnore _ => Unit
  | .begin => Unit
  | .commit => Unit
  | .rollback => Unit

abbrev SchemaProgram := Program SchemaRequest SchemaRequest.Answer String

def query (request : SchemaRequest) : SchemaProgram request.Answer := Program.request request

/-- `client.$transaction(...)`: what the body throws undoes what the body did. -/
def transaction (body : SchemaProgram Unit) : SchemaProgram Unit := do
  query .begin
  tryCatch body fun error => do
    query .rollback
    throw error
  query .commit

def hasRequiredSchemaTables : SchemaProgram Bool := do
  let found ← query .requiredTables
  pure (found = requiredSchemaTables.length)

section

variable (sha256 : Text → Text)

def baselineExistingSchemaMigrations : List RuntimeMigrationFile → SchemaProgram Unit
  | [] => pure ()
  | file :: files => do
    let migrationSql ← query (.readMigrationSql file)
    query (.insertOrIgnore (ledgerRow sha256 { file with migrationSql } 1))
    baselineExistingSchemaMigrations files

/-- `columnNameCache` holds the columns of the tables asked about so far. -/
def applyPrismaAddColumnMigrationStatements (columnNameCache : List (Text × List Text)) :
    List RuntimeAddColumnMigrationStatement → SchemaProgram Unit
  | [] => pure ()
  | statement :: statements => do
    let columnNames ← match columnNameCache.lookup statement.tableName with
      | some columnNames => pure columnNames
      | none => query (.tableInfo statement.tableName)
    if statement.columnName ∈ columnNames then
      applyPrismaAddColumnMigrationStatements ((statement.tableName, columnNames) :: columnNameCache) statements
    else
      query (.execute statement.statement)
      applyPrismaAddColumnMigrationStatements
        ((statement.tableName, statement.columnName :: columnNames) :: columnNameCache) statements

def executeStatements : List Text → SchemaProgram Unit
  | [] => pure ()
  | statement :: statements => do
    query (.execute statement)
    executeStatements statements

def recordRuntimeMigrationApplied (file : RuntimeMigrationFile) (appliedStepsCount : Nat) : SchemaProgram Unit :=
  query (.insert (ledgerRow sha256 file appliedStepsCount))

def applyMigration (file : RuntimeMigrationFile) : SchemaProgram Unit := do
  let statements := splitMigrationStatements file.migrationSql
  match parsePrismaAddColumnMigrationStatements statements with
  | some addColumnStatements =>
    transaction do
      applyPrismaAddColumnMigrationStatements [] addColumnStatements
      recordRuntimeMigrationApplied sha256 file statements.length
  | none =>
    if requiresNonTransactionalSqliteExecution file.migrationSql then
      executeStatements statements
      recordRuntimeMigrationApplied sha256 file statements.length
    else
      transaction do
        executeStatements statements
        recordRuntimeMigrationApplied sha256 file statements.length

def applyMigrations (appliedMigrationSet : List Text) : List RuntimeMigrationFile → SchemaProgram Unit
  | [] => pure ()
  | file :: files => do
    if file.migrationName ∈ appliedMigrationSet then applyMigrations appliedMigrationSet files
    else
      let migrationSql ← query (.readMigrationSql file)
      applyMigration sha256 { file with migrationSql }
      applyMigrations appliedMigrationSet files

def readMigrationState : SchemaProgram (List RuntimeMigrationFile × List Text × Bool) := do
  query .ensureMigrationTable
  let migrationFiles ← query .listMigrationFiles
  let appliedMigrationSet ← query .appliedMigrations
  if appliedMigrationSet = [] ∧ migrationFiles ≠ [] then
    let baseline ← hasRequiredSchemaTables
    pure (migrationFiles, appliedMigrationSet, baseline)
  else pure (migrationFiles, appliedMigrationSet, false)

def applyPendingPrismaMigrations : SchemaProgram Nat := do
  let (migrationFiles, appliedMigrationSet, baseline) ← readMigrationState
  if baseline then
    baselineExistingSchemaMigrations sha256 migrationFiles
    pure migrationFiles.length
  else
    applyMigrations sha256 appliedMigrationSet migrationFiles
    pure migrationFiles.length

end

end Database
