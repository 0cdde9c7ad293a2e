import Cosmosh.Library.JsText

/-! # Resolving the key of the local database

A start-up reads the security config, settles on a key and writes the config back where it has to.
-/

namespace Security

open Library Library.JsText

structure DatabaseSecurityConfig where
  encryptedDbMasterKey : Option Text
  emergencyFallbackDbMasterKey : Option Text
  masterPasswordHash : Option Text
  masterPasswordSalt : Option Text
  deriving DecidableEq

def DatabaseSecurityConfig.empty : DatabaseSecurityConfig := ⟨none, none, none, none⟩

def DEV_MASTER_KEY : Text := "cosmosh_dev_key".toList

def hexDigits : List Char := "0123456789abcdef".toList

def hexDigit (n : Nat) : Char := hexDigits.getD n '0'

def hexValue? (c : Char) : Option Nat := hexDigits.idxOf? c

/-- `buffer.toString('hex')` -/
def toHex (bytes : List UInt8) : Text :=
  bytes.flatMap fun byte => [hexDigit (byte.toNat / 16), hexDigit (byte.toNat % 16)]

/-- `Buffer.from(text, 'hex')` stops at the first pair that is not hexadecimal. -/
def bufferFromHex : Text → List UInt8
  | high :: low :: rest =>
    match hexValue? high, hexValue? low with
    | some h, some l => UInt8.ofNat (16 * h + l) :: bufferFromHex rest
    | _, _ => []
  | _ => []

structure Platform where
  isPackaged : Bool
  securityConfigPath : String
  decryptPayload : Text → Text
  scryptSync : Text → Text → List UInt8
  hkdfSync : List UInt8 → Text → String → Vector UInt8 32

/-- What `safeStorage` makes of a text: it is not empty, and decrypting gives the text back. -/
structure Payload (platform : Platform) (plainText : Text) where
  text : Text
  nonempty : text ≠ []
  opens : platform.decryptPayload text = plainText

inductive WriteOutcome
  | written
  | failed
  | unprotected
  deriving DecidableEq

structure StartUp (platform : Platform) where
  configReadError : Option String
  safeStorageAvailable : Bool
  decryptError : Option String
  encryptString : (plainText : Text) → Option (Payload platform plainText)
  masterPassword : Option Text
  databaseFileExists : Bool
  writeOutcome : Nat → WriteOutcome
  generatedBytes : Vector UInt8 32
  autoProvisionedBytes : Vector UInt8 32
  createsDatabase : Bool

structure Disk where
  config : Option DatabaseSecurityConfig
  writes : Nat

def truthy (value : Option Text) : Option Text := value.filter (· ≠ [])

variable {platform : Platform} (startUp : StartUp platform)

def readSecurityConfig (disk : Disk) : Except String DatabaseSecurityConfig :=
  match startUp.configReadError with
  | none => .ok (disk.config.getD .empty)
  | some _ => .error ("[db:key] Failed to read security config at " ++ platform.securityConfigPath ++
      ". Refusing to rotate database key automatically.")

def writeSecurityConfig (config : DatabaseSecurityConfig) (disk : Disk) : Bool × Disk :=
  match startUp.writeOutcome disk.writes with
  | .written => (true, ⟨some config, disk.writes + 1⟩)
  | .failed => (false, ⟨disk.config, disk.writes + 1⟩)
  | .unprotected => (false, ⟨some config, disk.writes + 1⟩)

def hasEmergencyFallbackKey (config : DatabaseSecurityConfig) : Bool := config.emergencyFallbackDbMasterKey.any fun key => trim key ≠ []

def persistEmergencyFallbackDatabaseKey (config : DatabaseSecurityConfig) (plainTextKey : Text) (disk : Disk) :
    Bool × Disk := writeSecurityConfig startUp { config with emergencyFallbackDbMasterKey := some plainTextKey } disk

def withoutEmergencyFallbackDatabaseKey (config : DatabaseSecurityConfig) : DatabaseSecurityConfig :=
  { config with emergencyFallbackDbMasterKey := none }

def cleanupEmergencyFallbackDatabaseKey (config : DatabaseSecurityConfig) (disk : Disk) : Disk :=
  if !hasEmergencyFallbackKey config then disk
  else (writeSecurityConfig startUp (withoutEmergencyFallbackDatabaseKey config) disk).2

def persistEncryptedDatabaseKeyWithSafeStorage (config : DatabaseSecurityConfig) (plainTextKey : Text)
    (disk : Disk) : Bool × Disk :=
  match startUp.encryptString plainTextKey with
  | none => (false, disk)
  | some encryptedMasterKey =>
    writeSecurityConfig startUp { withoutEmergencyFallbackDatabaseKey config with
      encryptedDbMasterKey := some encryptedMasterKey.text } disk

def persistGeneratedDatabaseKey (config : DatabaseSecurityConfig) (plainTextKey : Text) (disk : Disk) :
    Bool × Disk :=
  if startUp.safeStorageAvailable then persistEncryptedDatabaseKeyWithSafeStorage startUp config plainTextKey disk
  else persistEmergencyFallbackDatabaseKey startUp config plainTextKey disk

def hasFallbackMetadata (config : DatabaseSecurityConfig) : Bool :=
  (config.masterPasswordHash.any fun hash => trim hash ≠ []) &&
    config.masterPasswordSalt.any fun salt => trim salt ≠ []

def canUseFallbackInCurrentRuntime (config : DatabaseSecurityConfig) : Bool :=
  hasFallbackMetadata config && startUp.masterPassword.any fun password => trim password ≠ []

def normalizeHashHex (hash : Text) : List UInt8 := bufferFromHex ((trim hash).map Char.toLower)

def deriveFromMasterPassword (platform : Platform) (password salt : Text) (context : String) : Text :=
  toHex (platform.hkdfSync (platform.scryptSync password salt) salt context).toList

def deriveMasterPasswordHash (platform : Platform) (password salt : Text) : Text :=
  deriveFromMasterPassword platform password salt "cosmosh/master-password/verifier/v1"

def deriveDatabaseKeyFromMasterPassword (platform : Platform) (password salt : Text) : Text :=
  deriveFromMasterPassword platform password salt "cosmosh/master-password/database-key/v1"

def masterPasswordKey (platform : Platform) (config : DatabaseSecurityConfig) (masterPassword : Option Text) :
    Except String Text :=
  match truthy config.masterPasswordHash with
  | none => .error ("[db:key] secure storage unavailable and no master_password_hash found in config. " ++
      "Renderer IPC for \"Set Master Password\" is required. Temporary fallback: set COSMOSH_DB_MASTER_PASSWORD " ++
      "and pre-provision master password hash config.")
  | some masterPasswordHash =>
    match truthy masterPassword, truthy config.masterPasswordSalt with
    | some password, some salt =>
      if normalizeHashHex masterPasswordHash = normalizeHashHex (deriveMasterPasswordHash platform password salt)
      then .ok (deriveDatabaseKeyFromMasterPassword platform password salt)
      else .error "[db:key] master password verification failed in fallback mode."
    | _, _ => .error ("[db:key] secure storage unavailable. Missing COSMOSH_DB_MASTER_PASSWORD or " ++
        "masterPasswordSalt in config. Please set master password flow or provide fallback env configuration.")

def resolveDatabaseKeyFromMasterPasswordFallback (config : DatabaseSecurityConfig) (isDev : Bool) :
    Except String Text :=
  if isDev then .ok DEV_MASTER_KEY else masterPasswordKey platform config startUp.masterPassword

/-- `config.emergencyFallbackDbMasterKey?.trim()`, where it counts as true. -/
def emergencyKey? (config : DatabaseSecurityConfig) : Option Text := truthy (config.emergencyFallbackDbMasterKey.map trim)

/-- The body of the `try` block. -/
def resolveAndMigrateMasterPasswordKey (config : DatabaseSecurityConfig) (isDev : Bool) (disk : Disk) :
    Except String Text × Disk :=
  match resolveDatabaseKeyFromMasterPasswordFallback startUp config isDev with
  | .error fallbackReason => (.error fallbackReason, disk)
  | .ok fallbackKey =>
    if !isDev && startUp.safeStorageAvailable then
      match persistEncryptedDatabaseKeyWithSafeStorage startUp config fallbackKey disk with
      | (true, disk) => (.ok fallbackKey, disk)
      | (false, disk) =>
        (.error "[db:key] safeStorage is available but fallback-derived key migration failed.", disk)
    else (.ok fallbackKey, (persistEmergencyFallbackDatabaseKey startUp config fallbackKey disk).2)

def autoProvisionDatabaseKey (config : DatabaseSecurityConfig) (reason fallbackReason : String) (disk : Disk) :
    Except String Text × Disk :=
  let autoProvisionedKey := toHex startUp.autoProvisionedBytes.toList
  match persistGeneratedDatabaseKey startUp config autoProvisionedKey disk with
  | (true, disk) => (.ok autoProvisionedKey, disk)
  | (false, disk) => (.error ("[db:key] " ++ reason ++ " Fallback resolver failed (" ++ fallbackReason ++
      "). Auto-provisioned emergency key could not be persisted."), disk)

def resolveWithFallbackAndTrySafeStorageMigration (config : DatabaseSecurityConfig) (isDev : Bool)
    (reason : String) (disk : Disk) : Except String Text × Disk :=
  match emergencyKey? config with
  | some emergencyFallbackDbMasterKey =>
    if !isDev && startUp.safeStorageAvailable then
      match persistEncryptedDatabaseKeyWithSafeStorage startUp config emergencyFallbackDbMasterKey disk with
      | (true, disk) => (.ok emergencyFallbackDbMasterKey, disk)
      | (false, disk) =>
        (.error "[db:key] safeStorage is available but emergency fallback key migration failed.", disk)
    else (.ok emergencyFallbackDbMasterKey, disk)
  | none =>
    match resolveAndMigrateMasterPasswordKey startUp config isDev disk with
    | (.ok fallbackKey, disk) => (.ok fallbackKey, disk)
    | (.error fallbackReason, disk) =>
      if !isDev && !startUp.databaseFileExists then
        autoProvisionDatabaseKey startUp config reason fallbackReason disk
      else (.error ("[db:key] " ++ reason ++ " Fallback resolver also failed: " ++ fallbackReason ++ "."), disk)

def generateDatabaseKey (config : DatabaseSecurityConfig) (isDev : Bool) (disk : Disk) :
    Except String Text × Disk :=
  let generatedMasterKey := toHex startUp.generatedBytes.toList
  match persistGeneratedDatabaseKey startUp config generatedMasterKey disk with
  | (true, disk) => (.ok generatedMasterKey, disk)
  | (false, disk) => resolveWithFallbackAndTrySafeStorageMigration startUp config isDev
      "safeStorage encryption/persistence failed while creating a new database key." disk

def resolveDatabaseKeyFromConfig (config : DatabaseSecurityConfig) (isDev : Bool) (disk : Disk) :
    Except String Text × Disk :=
  if !startUp.safeStorageAvailable then
    resolveWithFallbackAndTrySafeStorageMigration startUp config isDev "Electron safeStorage is unavailable." disk
  else
    match truthy config.encryptedDbMasterKey, emergencyKey? config with
    | none, some emergencyKey =>
      match persistEncryptedDatabaseKeyWithSafeStorage startUp config emergencyKey disk with
      | (true, disk) => (.ok emergencyKey, disk)
      | (false, disk) =>
        (.error "[db:key] safeStorage is available but emergency fallback key restoration failed.", disk)
    | some encryptedDbMasterKey, _ =>
      match startUp.decryptError with
      | none => (.ok (platform.decryptPayload encryptedDbMasterKey),
          cleanupEmergencyFallbackDatabaseKey startUp config disk)
      | some message => resolveWithFallbackAndTrySafeStorageMigration startUp config isDev
          ("Failed to decrypt encryptedDbMasterKey from safeStorage (" ++ message ++ ").") disk
    | none, none =>
      if canUseFallbackInCurrentRuntime startUp config then
        resolveWithFallbackAndTrySafeStorageMigration startUp config isDev
          "No encryptedDbMasterKey found in config." disk
      else if hasFallbackMetadata config then
        (.error ("[db:key] safeStorage is available and fallback metadata exists, but COSMOSH_DB_MASTER_PASSWORD " ++
          "is missing. Refusing to generate a new key to avoid database lockout."), disk)
      else generateDatabaseKey startUp config isDev disk

def getDatabaseEncryptionKey (disk : Disk) : Except String Text × Disk :=
  if !platform.isPackaged then (.ok DEV_MASTER_KEY, disk)
  else
    match readSecurityConfig startUp disk with
    | .error message => (.error message, disk)
    | .ok config => resolveDatabaseKeyFromConfig startUp config false disk

end Security
