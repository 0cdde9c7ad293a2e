import Mathlib.Logic.Function.Basic
import Cosmosh.Library.JsNumber
import Cosmosh.Library.JsText
import Cosmosh.Library.Program

/-! # Encrypting a plaintext database in place

The database is copied, the copy is encrypted and verified, and the two files change places through a backup name.
-/

namespace Database

open Library

def SQLCIPHER_TEMP_SUFFIX : Text := ".sqlcipher-migration".toList

def PLAINTEXT_BACKUP_SUFFIX : Text := ".plaintext-backup".toList

inductive MigrationPath
  | databaseFilePath
  | encryptedTempPath
  | plaintextBackupPath
  deriving DecidableEq

def getSqlCipherMigrationPaths (databaseFilePath : Text) : MigrationPath → Text
  | .databaseFilePath => databaseFilePath
  | .encryptedTempPath => databaseFilePath ++ SQLCIPHER_TEMP_SUFFIX
  | .plaintextBackupPath => databaseFilePath ++ PLAINTEXT_BACKUP_SUFFIX

inductive CountValue
  | bigint (value : Nat)
  | number (value : JsNumber)
  | other

def maxSafeInteger : Int := 9007199254740991

def readTableCount : CountValue → Except String Int
  | .bigint value => .ok value
  | .number (.finite value) =>
    if value.den = 1 ∧ 0 ≤ value.num ∧ value.num ≤ maxSafeInteger then .ok value.num
    else .error "SQLCipher verification returned an invalid sqlite_master table count."
  | _ => .error "SQLCipher verification returned an invalid sqlite_master table count."

structure Inspection where
  cipher : Option String
  keyResult : Option String
  tableCount : CountValue
  integrityRow : List String

def Inspection.verify (inspection : Inspection) : Except String Int := do
  if inspection.cipher ≠ some "sqlcipher" then
    throw "Loaded SQLite native binding does not expose SQLCipher codec support."
  if inspection.keyResult ≠ some "ok" then
    throw "SQLCipher native driver rejected the database key configuration."
  let tableCount ← readTableCount inspection.tableCount
  if "ok" ∉ inspection.integrityRow then
    throw "SQLCipher integrity_check did not return ok."
  return tableCount

inductive MigrationRequest
  | access (path : MigrationPath)
  | stat (path : MigrationPath)
  | readHeader (path : MigrationPath)
  | inspect (path : MigrationPath) (databaseKey : Text)
  | checkpoint (path : MigrationPath)
  | copyFile (source target : MigrationPath)
  | rekey (path : MigrationPath) (databaseKey : Text)
  | removeSidecars (path : MigrationPath)
  | remove (path : MigrationPath)
  | rename (source target : MigrationPath)

/-- `readHeader` tells whether the bytes read are the header of a plaintext database. -/
abbrev MigrationRequest.Answer : MigrationRequest → Type
  | .access _ => Bool
  | .stat _ => Nat
  | .readHeader _ => Bool
  | .inspect _ _ => Inspection
  | .checkpoint _ => CountValue
  | .copyFile _ _ => Unit
  | .rekey _ _ => Unit
  | .removeSidecars _ => Unit
  | .remove _ => Unit
  | .rename _ _ => Unit

abbrev MigrationProgram := Program MigrationRequest MigrationRequest.Answer String

def perform (request : MigrationRequest) : MigrationProgram request.Answer := Program.request request

def headerLength : Nat := 16

def fileExists (path : MigrationPath) : MigrationProgram Bool := perform (.access path)

def isPlaintextSqliteDatabase (path : MigrationPath) : MigrationProgram Bool := do
  let present ← fileExists path
  if !present then pure false
  else
    let size ← perform (.stat path)
    if size < headerLength then pure false
    else perform (.readHeader path)

def verifySqlCipherDatabase (path : MigrationPath) (databaseKey : Text) : MigrationProgram Int := do
  let inspection ← perform (.inspect path databaseKey)
  Program.ofExcept inspection.verify

def removeSqliteSidecars (path : MigrationPath) : MigrationProgram Unit := perform (.removeSidecars path)

def removeDatabaseArtifact (path : MigrationPath) : MigrationProgram Unit := do
  removeSqliteSidecars path
  perform (.remove path)

def discardMigrationArtifacts (databaseKey : Text) (encryptedTempExists plaintextBackupExists : Bool) :
    MigrationProgram Unit := do
  let plaintext ← isPlaintextSqliteDatabase .databaseFilePath
  if plaintext then
    removeDatabaseArtifact .encryptedTempPath
    removeDatabaseArtifact .plaintextBackupPath
  else if !encryptedTempExists && !plaintextBackupExists then pure ()
  else
    let _ ← verifySqlCipherDatabase .databaseFilePath databaseKey
    removeDatabaseArtifact .encryptedTempPath
    removeDatabaseArtifact .plaintextBackupPath

def restoreMigrationArtifacts (databaseKey : Text) (encryptedTempExists plaintextBackupExists : Bool) :
    MigrationProgram Unit := do
  if encryptedTempExists then
    let _ ← tryCatch (verifySqlCipherDatabase .encryptedTempPath databaseKey) fun _ => throw
      "Interrupted SQLCipher migration temp could not be verified. Preserving migration artifacts for recovery."
    perform (.rename .encryptedTempPath .databaseFilePath)
    removeSqliteSidecars .encryptedTempPath
    removeDatabaseArtifact .plaintextBackupPath
  else if plaintextBackupExists then
    perform (.rename .plaintextBackupPath .databaseFilePath)
    removeSqliteSidecars .plaintextBackupPath
  else pure ()

/-- `depth` bounds the calls the stack has room for. -/
def recoverInterruptedSqlCipherMigration (databaseKey : Text) : (depth : Nat) → MigrationProgram Unit
  | 0 => throw "Maximum call stack size exceeded"
  | depth + 1 => do
    let databaseExists ← fileExists .databaseFilePath
    let encryptedTempExists ← fileExists .encryptedTempPath
    let plaintextBackupExists ← fileExists .plaintextBackupPath
    if databaseExists then
      let size ← perform (.stat .databaseFilePath)
      if size = 0 ∧ (encryptedTempExists ∨ plaintextBackupExists) then
        removeDatabaseArtifact .databaseFilePath
        recoverInterruptedSqlCipherMigration databaseKey depth
      else discardMigrationArtifacts databaseKey encryptedTempExists plaintextBackupExists
    else restoreMigrationArtifacts databaseKey encryptedTempExists plaintextBackupExists

def checkpointPlaintextDatabase (path : MigrationPath) : MigrationProgram Int := do
  let tableCount ← perform (.checkpoint path)
  Program.ofExcept (readTableCount tableCount)

def encryptPlaintextDatabaseCopy (databaseKey : Text) : MigrationProgram Int := do
  let sourceTableCount ← checkpointPlaintextDatabase .databaseFilePath
  perform (.copyFile .databaseFilePath .encryptedTempPath)
  perform (.rekey .encryptedTempPath databaseKey)
  pure sourceTableCount

def promoteEncryptedCopy (databaseKey : Text) : MigrationProgram Unit := do
  perform (.rename .encryptedTempPath .databaseFilePath)
  let _ ← verifySqlCipherDatabase .databaseFilePath databaseKey

/-- The `catch` block of the replacement: it throws in any case. -/
def restorePlaintextDatabase : MigrationProgram Unit := do
  removeDatabaseArtifact .databaseFilePath
  tryCatch (perform (.rename .plaintextBackupPath .databaseFilePath)) fun _ =>
    throw "SQLCipher replacement failed and the plaintext backup could not be restored."
  throw "SQLCipher replacement failed; restored the original plaintext database."

def replaceWithEncryptedCopy (databaseKey : Text) : MigrationProgram Unit := do
  removeSqliteSidecars .databaseFilePath
  perform (.rename .databaseFilePath .plaintextBackupPath)
  tryCatch (promoteEncryptedCopy databaseKey) fun _ => restorePlaintextDatabase

def replacePlaintextDatabase (databaseKey : Text) : MigrationProgram Bool := do
  replaceWithEncryptedCopy databaseKey
  removeDatabaseArtifact .plaintextBackupPath
  removeSqliteSidecars .encryptedTempPath
  pure true

def encryptPlaintextDatabase (databaseKey : Text) : MigrationProgram Bool := do
  removeDatabaseArtifact .encryptedTempPath
  removeDatabaseArtifact .plaintextBackupPath
  let sourceTableCount ← tryCatch (encryptPlaintextDatabaseCopy databaseKey) fun error => do
    removeDatabaseArtifact .encryptedTempPath
    throw error
  let tableCount ← verifySqlCipherDatabase .encryptedTempPath databaseKey
  if sourceTableCount ≠ tableCount then
    removeDatabaseArtifact .encryptedTempPath
    throw ("SQLCipher copy table-count mismatch: source=" ++ toString sourceTableCount ++ ", encrypted=" ++
      toString tableCount ++ ".")
  else replacePlaintextDatabase databaseKey

def migratePlaintextDatabaseToSqlCipher (databaseKey : Text) (depth : Nat) : MigrationProgram Bool := do
  recoverInterruptedSqlCipherMigration databaseKey depth
  let plaintext ← isPlaintextSqliteDatabase .databaseFilePath
  if !plaintext then pure false else encryptPlaintextDatabase databaseKey

end Database
