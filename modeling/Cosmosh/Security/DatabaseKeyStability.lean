import Cosmosh.Library.Transition
import Cosmosh.Security.DatabaseEncryption

/-! # One key for the life of a database

A start-up either takes a key the config stores, derives one from the master password, or makes a new one.
-/

namespace Security

open Library Library.JsText Library.Transition

inductive Stores (platform : Platform) (config : DatabaseSecurityConfig) : Text → Prop
  | encrypted {payload : Text} (h : truthy config.encryptedDbMasterKey = some payload) :
      Stores platform config (platform.decryptPayload payload)
  | emergency {key : Text} (h : emergencyKey? config = some key) : Stores platform config key

def Recovers (platform : Platform) (config : DatabaseSecurityConfig) (key : Text) : Prop :=
  Stores platform config key ∨ ∃ password, masterPasswordKey platform config (some password) = .ok key

theorem truthy_eq_some {value : Option Text} {text : Text} (h : truthy value = some text) : value = some text ∧ text ≠ [] := by
  simpa [truthy] using h

theorem truthy_some {text : Text} (h : text ≠ []) : truthy (some text) = some text := by
  simp [truthy, h]

theorem isWhitespace_hexDigit (n : Nat) : isWhitespace (hexDigit n) = false := by
  have hDigits : ∀ c ∈ '0' :: hexDigits, isWhitespace c = false := by decide
  refine hDigits _ ?_
  rw [hexDigit, List.getD_eq_getElem?_getD]
  cases hDigit : hexDigits[n]? with
  | none => exact List.mem_cons_self
  | some c => exact List.mem_cons_of_mem _ (List.mem_of_getElem? hDigit)

theorem trim_toHex (bytes : List UInt8) : trim (toHex bytes) = toHex bytes := by
  apply trim_of_no_whitespace
  intro c hc
  obtain ⟨byte, -, hByte⟩ := List.mem_flatMap.mp hc
  simp only [List.mem_cons, List.not_mem_nil, or_false] at hByte
  obtain rfl | rfl := hByte <;> exact isWhitespace_hexDigit _

theorem toHex_ne_nil (bytes : Vector UInt8 32) : toHex bytes.toList ≠ [] := by
  intro hNil
  have hLength := congrArg List.length hNil
  simp [toHex, List.length_flatMap] at hLength

variable {saved : Option DatabaseSecurityConfig}

section Writes

variable {platform : Platform} {config : DatabaseSecurityConfig} {key : Text}

inductive Saved (platform : Platform) (config : DatabaseSecurityConfig) (key : Text) :
    Option DatabaseSecurityConfig → Prop
  | encrypted (payload : Payload platform key) : Saved platform config key
      (some { withoutEmergencyFallbackDatabaseKey config with encryptedDbMasterKey := some payload.text })
  | emergency (hTrim : trim key = key) (hKey : key ≠ []) : Saved platform config key
      (some { config with emergencyFallbackDbMasterKey := some key })

theorem Saved.stores (h : Saved platform config key saved) : Stores platform (saved.getD .empty) key := by
  cases h with
  | encrypted payload =>
    have hStored : Stores platform { withoutEmergencyFallbackDatabaseKey config with
        encryptedDbMasterKey := some payload.text } (platform.decryptPayload payload.text) := .encrypted (truthy_some payload.nonempty)
    rw [payload.opens] at hStored
    exact hStored
  | emergency hTrim hKey =>
    apply Stores.emergency
    simp only [Option.getD_some, emergencyKey?, Option.map_some, hTrim]
    exact truthy_some hKey

theorem Saved.stores_only (h : Saved platform config key saved) {other : Text} (hOther : Stores platform (saved.getD .empty) other) :
    other = key ∨ Stores platform config other := by
  cases h with
  | encrypted payload =>
    left
    cases hOther with
    | encrypted hPayload =>
      obtain ⟨hText, -⟩ := truthy_eq_some hPayload
      rw [← payload.opens]
      simp only [Option.getD_some, Option.some.injEq] at hText
      rw [hText]
    | emergency hEmergency => cases hEmergency
  | emergency hTrim hKey =>
    cases hOther with
    | encrypted hPayload => exact .inr (.encrypted hPayload)
    | emergency hEmergency =>
      left
      simp only [Option.getD_some, emergencyKey?, Option.map_some, hTrim, truthy_some hKey] at hEmergency
      exact (Option.some.inj hEmergency).symm

theorem stores_withoutEmergency {other : Text}
    (h : Stores platform (withoutEmergencyFallbackDatabaseKey config) other) : Stores platform config other := by
  cases h with
  | encrypted hPayload => exact .encrypted hPayload
  | emergency hEmergency => cases hEmergency

variable (startUp : StartUp platform) (disk : Disk)

theorem writeSecurityConfig_config (written : DatabaseSecurityConfig) : (writeSecurityConfig startUp written disk).2.config = some written ∨
      (writeSecurityConfig startUp written disk).1 = false ∧ (writeSecurityConfig startUp written disk).2.config = disk.config := by
  rw [writeSecurityConfig]
  cases startUp.writeOutcome disk.writes with
  | written => exact .inl rfl
  | failed => exact .inr ⟨rfl, rfl⟩
  | unprotected => exact .inl rfl

section

variable (config : DatabaseSecurityConfig)

theorem persistEncrypted_config (key : Text) :
    Saved platform config key (persistEncryptedDatabaseKeyWithSafeStorage startUp config key disk).2.config ∨
      (persistEncryptedDatabaseKeyWithSafeStorage startUp config key disk).1 = false ∧
        (persistEncryptedDatabaseKeyWithSafeStorage startUp config key disk).2.config = disk.config := by
  rw [persistEncryptedDatabaseKeyWithSafeStorage]
  cases startUp.encryptString key with
  | none => exact .inr ⟨rfl, rfl⟩
  | some payload =>
    obtain hWritten | hFailed := writeSecurityConfig_config startUp disk
      { withoutEmergencyFallbackDatabaseKey config with encryptedDbMasterKey := some payload.text }
    · left
      dsimp only
      rw [hWritten]
      exact .encrypted payload
    · exact .inr hFailed

theorem persistEmergency_config (hTrim : trim key = key) (hKey : key ≠ []) :
    Saved platform config key (persistEmergencyFallbackDatabaseKey startUp config key disk).2.config ∨
      (persistEmergencyFallbackDatabaseKey startUp config key disk).1 = false ∧
        (persistEmergencyFallbackDatabaseKey startUp config key disk).2.config = disk.config := by
  rw [persistEmergencyFallbackDatabaseKey]
  obtain hWritten | hFailed := writeSecurityConfig_config startUp disk
    { config with emergencyFallbackDbMasterKey := some key }
  · left
    rw [hWritten]
    exact .emergency hTrim hKey
  · exact .inr hFailed

theorem persistGenerated_config (hTrim : trim key = key) (hKey : key ≠ []) :
    Saved platform config key (persistGeneratedDatabaseKey startUp config key disk).2.config ∨
      (persistGeneratedDatabaseKey startUp config key disk).1 = false ∧
        (persistGeneratedDatabaseKey startUp config key disk).2.config = disk.config := by
  rw [persistGeneratedDatabaseKey]
  split
  · exact persistEncrypted_config startUp disk config key
  · exact persistEmergency_config startUp disk config hTrim hKey

end

theorem cleanup_config : (cleanupEmergencyFallbackDatabaseKey startUp config disk).config = disk.config ∨
      (cleanupEmergencyFallbackDatabaseKey startUp config disk).config = some (withoutEmergencyFallbackDatabaseKey config) := by
  rw [cleanupEmergencyFallbackDatabaseKey]
  split
  · exact .inl rfl
  · obtain hWritten | ⟨-, hFailed⟩ := writeSecurityConfig_config startUp disk
      (withoutEmergencyFallbackDatabaseKey config)
    · exact .inr hWritten
    · exact .inl hFailed

theorem persistEncrypted_failed (config : DatabaseSecurityConfig) (key : Text)
    (h : (persistEncryptedDatabaseKeyWithSafeStorage startUp config key disk).1 = false) :
    ¬((startUp.encryptString key).isSome = true ∧ startUp.writeOutcome disk.writes = .written) := by
  rintro ⟨hEncrypts, hWritten⟩
  obtain ⟨payload, hPayload⟩ := Option.isSome_iff_exists.mp hEncrypts
  rw [persistEncryptedDatabaseKeyWithSafeStorage, hPayload] at h
  simp only [writeSecurityConfig, hWritten] at h
  contradiction

end Writes

variable {key : Text}

section Resolution

variable {platform : Platform} (startUp : StartUp platform) (config : DatabaseSecurityConfig)

def Usable : Prop :=
  (startUp.safeStorageAvailable = true ∧ (truthy config.encryptedDbMasterKey).isSome = true ∧
    startUp.decryptError = none) ∨ (emergencyKey? config).isSome = true

def Migrates : Prop :=
  ∃ key, masterPasswordKey platform config startUp.masterPassword = .ok key ∧
    (startUp.safeStorageAvailable = true →
      (startUp.encryptString key).isSome = true ∧ startUp.writeOutcome 0 = .written)

inductive Generates : Prop
  | replaces (hAvailable : startUp.safeStorageAvailable = true) (hEncrypted : truthy config.encryptedDbMasterKey = none)
      (hMetadata : hasFallbackMetadata config = false)
  | provisions (hEnters : startUp.safeStorageAvailable = false ∨
        (truthy config.encryptedDbMasterKey).isSome = true ∨ canUseFallbackInCurrentRuntime startUp config = true)
      (hMissing : startUp.databaseFileExists = false) (hPassword : ¬Migrates startUp config)

inductive Resolution (file : Option DatabaseSecurityConfig) :
    Except String Text → Option DatabaseSecurityConfig → Prop
  | refused (message : String) : Resolution file (.error message) file
  | opened {payload : Text} {saved : Option DatabaseSecurityConfig}
      (hPayload : truthy config.encryptedDbMasterKey = some payload)
      (hSaved : saved = file ∨ saved = some (withoutEmergencyFallbackDatabaseKey config)) :
      Resolution file (.ok (platform.decryptPayload payload)) saved
  | emergency {key : Text} {result : Except String Text} {saved : Option DatabaseSecurityConfig}
      (hKey : emergencyKey? config = some key) (hResult : ∀ other, result = .ok other → other = key)
      (hSaved : saved = file ∨ Saved platform config key saved) : Resolution file result saved
  | password {key : Text} {result : Except String Text} {saved : Option DatabaseSecurityConfig}
      (hUnusable : ¬Usable startUp config)
      (hKey : masterPasswordKey platform config startUp.masterPassword = .ok key)
      (hResult : ∀ other, result = .ok other → other = key)
      (hSaved : saved = file ∨ Saved platform config key saved) : Resolution file result saved
  | generated {result : Except String Text} {saved : Option DatabaseSecurityConfig}
      (hUnusable : ¬Usable startUp config) (hGenerates : Generates startUp config)
      (hResult : ∀ key, result = .ok key → Saved platform config key saved)
      (hSaved : saved = file ∨ ∃ key, Saved platform config key saved) : Resolution file result saved

inductive Migration (disk : Disk) : Except String Text × Disk → Prop
  | rejected {message : String} (hKey : masterPasswordKey platform config startUp.masterPassword = .error message) :
      Migration disk (.error message, disk)
  | accepted {key : Text} {disk' : Disk}
      (hKey : masterPasswordKey platform config startUp.masterPassword = .ok key)
      (hSaved : Saved platform config key disk'.config ∨
        startUp.safeStorageAvailable = false ∧ disk'.config = disk.config) : Migration disk (.ok key, disk')
  | failed {key : Text} {message : String} {disk' : Disk}
      (hKey : masterPasswordKey platform config startUp.masterPassword = .ok key)
      (hAvailable : startUp.safeStorageAvailable = true)
      (hPersist : ¬((startUp.encryptString key).isSome = true ∧ startUp.writeOutcome disk.writes = .written))
      (hSaved : Saved platform config key disk'.config ∨ disk'.config = disk.config) :
      Migration disk (.error message, disk')

variable {config}

theorem masterPasswordKey_hex {masterPassword : Option Text} (h : masterPasswordKey platform config masterPassword = .ok key) :
    ∃ bytes : Vector UInt8 32, key = toHex bytes.toList := by
  rw [masterPasswordKey] at h
  split at h
  · contradiction
  · split at h
    · split at h
      · exact ⟨_, (Except.ok.inj h).symm⟩
      · contradiction
    · contradiction

theorem migration_resolveAndMigrate (config : DatabaseSecurityConfig) (disk : Disk) :
    Migration startUp config disk (resolveAndMigrateMasterPasswordKey startUp config false disk) := by
  rw [resolveAndMigrateMasterPasswordKey, resolveDatabaseKeyFromMasterPasswordFallback]
  simp only [Bool.false_eq_true, if_false, Bool.not_false, Bool.true_and]
  cases hKey : masterPasswordKey platform config startUp.masterPassword with
  | error message => exact .rejected hKey
  | ok key =>
    cases hAvailable : startUp.safeStorageAvailable with
    | false =>
      obtain ⟨bytes, hBytes⟩ := masterPasswordKey_hex hKey
      have hTrim : trim key = key := by rw [hBytes, trim_toHex]
      have hNonempty : key ≠ [] := by
        rw [hBytes]
        exact toHex_ne_nil bytes
      apply Migration.accepted hKey
      obtain hSaved | ⟨-, hSame⟩ := persistEmergency_config startUp disk config hTrim hNonempty
      · exact .inl hSaved
      · exact .inr ⟨hAvailable, hSame⟩
    | true =>
      have hConfig := persistEncrypted_config startUp disk config key
      have hFailed := persistEncrypted_failed startUp disk config key
      rcases hPersist : persistEncryptedDatabaseKeyWithSafeStorage startUp config key disk with ⟨persisted, disk'⟩
      rw [hPersist] at hConfig hFailed
      simp only [if_true, hPersist]
      cases persisted with
      | true =>
        apply Migration.accepted hKey
        obtain hSaved | ⟨hFalse, -⟩ := hConfig
        · exact .inl hSaved
        · contradiction
      | false => exact .failed hKey hAvailable (hFailed rfl) (hConfig.imp_right fun h => h.2)

theorem emergency_of_resolve (hKey : emergencyKey? config = some key) (reason : String) (disk : Disk) : Resolution startUp config disk.config
      (resolveWithFallbackAndTrySafeStorageMigration startUp config false reason disk).1
      (resolveWithFallbackAndTrySafeStorageMigration startUp config false reason disk).2.config := by
  rw [resolveWithFallbackAndTrySafeStorageMigration, hKey]
  simp only [Bool.not_false, Bool.true_and]
  cases startUp.safeStorageAvailable with
  | false => exact .emergency hKey (fun _ h => (Except.ok.inj h).symm) (.inl rfl)
  | true =>
    have hConfig := persistEncrypted_config startUp disk config key
    rcases hPersist : persistEncryptedDatabaseKeyWithSafeStorage startUp config key disk with ⟨persisted, disk'⟩
    rw [hPersist] at hConfig
    have hSaved := hConfig.symm.imp_left And.right
    simp only [if_true]
    cases persisted with
    | true => exact .emergency hKey (fun _ h => (Except.ok.inj h).symm) hSaved
    | false => exact .emergency hKey nofun hSaved

theorem resolution_of_autoProvision {file : Option DatabaseSecurityConfig} (hUnusable : ¬Usable startUp config)
    (hGenerates : Generates startUp config) {disk : Disk}
    (hDisk : disk.config = file ∨ ∃ key, Saved platform config key disk.config) (reason fallbackReason : String) :
    Resolution startUp config file (autoProvisionDatabaseKey startUp config reason fallbackReason disk).1
      (autoProvisionDatabaseKey startUp config reason fallbackReason disk).2.config := by
  have hConfig := persistGenerated_config startUp disk config
    (trim_toHex startUp.autoProvisionedBytes.toList) (toHex_ne_nil startUp.autoProvisionedBytes)
  rw [autoProvisionDatabaseKey]
  generalize persistGeneratedDatabaseKey startUp config (toHex startUp.autoProvisionedBytes.toList) disk =
    outcome at hConfig
  obtain ⟨persisted, disk'⟩ := outcome
  obtain hSaved | ⟨hFailed, hSame⟩ := hConfig
  · cases persisted with
    | true =>
      refine .generated hUnusable hGenerates ?_ (.inr ⟨_, hSaved⟩)
      rintro _ ⟨⟩
      exact hSaved
    | false => exact .generated hUnusable hGenerates nofun (.inr ⟨_, hSaved⟩)
  · dsimp only at hFailed hSame
    rw [hFailed]
    refine .generated hUnusable hGenerates nofun ?_
    dsimp only
    rw [hSame]
    exact hDisk

section

variable (hNone : emergencyKey? config = none) (hUnusable : ¬Usable startUp config)
include hNone hUnusable

theorem resolution_of_fallback (hEnters : startUp.safeStorageAvailable = false ∨ (truthy config.encryptedDbMasterKey).isSome = true ∨
      canUseFallbackInCurrentRuntime startUp config = true) (reason : String) (file : Option DatabaseSecurityConfig) :
    Resolution startUp config file (resolveWithFallbackAndTrySafeStorageMigration startUp config false reason ⟨file, 0⟩).1
      (resolveWithFallbackAndTrySafeStorageMigration startUp config false reason ⟨file, 0⟩).2.config := by
  have hMigration := migration_resolveAndMigrate startUp config ⟨file, 0⟩
  rw [resolveWithFallbackAndTrySafeStorageMigration, hNone]
  simp only [Bool.not_false, Bool.true_and]
  generalize resolveAndMigrateMasterPasswordKey startUp config false ⟨file, 0⟩ = outcome at hMigration
  cases hMigration with
  | accepted hKey hSaved =>
    apply Resolution.password hUnusable hKey (fun _ h => (Except.ok.inj h).symm)
    obtain hSaved | ⟨-, hSame⟩ := hSaved
    · exact .inr hSaved
    · exact .inl hSame
  | rejected hKey =>
    dsimp only
    cases hExists : startUp.databaseFileExists with
    | true => exact .refused _
    | false =>
      have hSame : (Disk.mk file 0).config = file ∨ ∃ key, Saved platform config key (Disk.mk file 0).config := .inl rfl
      refine resolution_of_autoProvision startUp hUnusable (.provisions hEnters hExists ?_) hSame reason _
      rintro ⟨key, hOk, -⟩
      rw [hKey] at hOk
      contradiction
  | @failed key message disk' hKey hAvailable hPersist hSaved =>
    dsimp only
    cases hExists : startUp.databaseFileExists with
    | true => exact .password hUnusable hKey nofun hSaved.symm
    | false =>
      refine resolution_of_autoProvision startUp hUnusable (.provisions hEnters hExists ?_) ?_ reason _
      · rintro ⟨other, hOk, hMigrates⟩
        rw [hKey] at hOk
        cases hOk
        exact hPersist (hMigrates hAvailable)
      · exact hSaved.symm.imp_right fun h => ⟨key, h⟩

theorem resolution_of_fallback_generated (hAvailable : startUp.safeStorageAvailable = true)
    (hGenerates : Generates startUp config) {file : Option DatabaseSecurityConfig} {disk : Disk}
    (hDisk : disk.config = file ∨ ∃ key, Saved platform config key disk.config) (reason : String) : Resolution startUp config file
      (resolveWithFallbackAndTrySafeStorageMigration startUp config false reason disk).1
      (resolveWithFallbackAndTrySafeStorageMigration startUp config false reason disk).2.config := by
  have hMigration := migration_resolveAndMigrate startUp config disk
  rw [resolveWithFallbackAndTrySafeStorageMigration, hNone]
  simp only [Bool.not_false, Bool.true_and]
  generalize resolveAndMigrateMasterPasswordKey startUp config false disk = outcome at hMigration
  have hError (message : String) (disk' : Disk)
      (hDisk' : disk'.config = file ∨ ∃ key, Saved platform config key disk'.config) :
      Resolution startUp config file
        (if !startUp.databaseFileExists then autoProvisionDatabaseKey startUp config reason message disk'
          else (.error ("[db:key] " ++ reason ++ " Fallback resolver also failed: " ++ message ++ "."), disk')).1
        (if !startUp.databaseFileExists then autoProvisionDatabaseKey startUp config reason message disk'
          else (.error ("[db:key] " ++ reason ++ " Fallback resolver also failed: " ++ message ++ "."),
            disk')).2.config := by
    cases startUp.databaseFileExists with
    | true => exact .generated hUnusable hGenerates nofun hDisk'
    | false => exact resolution_of_autoProvision startUp hUnusable hGenerates hDisk' reason message
  cases hMigration with
  | accepted hKey hSaved =>
    obtain hSaved | ⟨hUnavailable, -⟩ := hSaved
    · refine .generated hUnusable hGenerates ?_ (.inr ⟨_, hSaved⟩)
      rintro _ ⟨⟩
      exact hSaved
    · rw [hAvailable] at hUnavailable
      contradiction
  | rejected hKey => exact hError _ _ hDisk
  | @failed key message disk' hKey hAvailable hPersist hSaved =>
    apply hError
    obtain hSaved | hSame := hSaved
    · exact .inr ⟨key, hSaved⟩
    · rw [hSame]
      exact hDisk

theorem resolution_of_generate (hAvailable : startUp.safeStorageAvailable = true) (hGenerates : Generates startUp config) (disk : Disk) :
    Resolution startUp config disk.config (generateDatabaseKey startUp config false disk).1
      (generateDatabaseKey startUp config false disk).2.config := by
  have hConfig := persistGenerated_config startUp disk config
    (trim_toHex startUp.generatedBytes.toList) (toHex_ne_nil startUp.generatedBytes)
  rw [generateDatabaseKey]
  generalize persistGeneratedDatabaseKey startUp config (toHex startUp.generatedBytes.toList) disk =
    outcome at hConfig
  obtain ⟨persisted, disk'⟩ := outcome
  cases persisted with
  | true =>
    obtain hSaved | ⟨hFailed, -⟩ := hConfig
    · refine .generated hUnusable hGenerates ?_ (.inr ⟨_, hSaved⟩)
      rintro _ ⟨⟩
      exact hSaved
    · contradiction
  | false =>
    apply resolution_of_fallback_generated startUp hNone hUnusable hAvailable hGenerates
    obtain hSaved | ⟨-, hSame⟩ := hConfig
    · exact .inr ⟨_, hSaved⟩
    · exact .inl hSame

end

theorem resolution_of_resolve (file : Option DatabaseSecurityConfig) :
    Resolution startUp config file (resolveDatabaseKeyFromConfig startUp config false ⟨file, 0⟩).1
      (resolveDatabaseKeyFromConfig startUp config false ⟨file, 0⟩).2.config := by
  rw [resolveDatabaseKeyFromConfig]
  cases hAvailable : startUp.safeStorageAvailable with
  | false =>
    cases hKey : emergencyKey? config with
    | some key => exact emergency_of_resolve startUp hKey _ ⟨file, 0⟩
    | none =>
      apply resolution_of_fallback startUp hKey _ (.inl hAvailable)
      rintro (⟨hTrue, -⟩ | hSome)
      · rw [hAvailable] at hTrue
        contradiction
      · rw [hKey] at hSome
        contradiction
  | true =>
    simp only [Bool.not_true, Bool.false_eq_true, if_false]
    cases hEncrypted : truthy config.encryptedDbMasterKey with
    | some payload =>
      have hEntered : (truthy config.encryptedDbMasterKey).isSome = true := by rw [hEncrypted]; rfl
      cases hDecrypt : startUp.decryptError with
      | none =>
        apply Resolution.opened hEncrypted
        exact cleanup_config startUp ⟨file, 0⟩
      | some message =>
        cases hKey : emergencyKey? config with
        | some key => exact emergency_of_resolve startUp hKey _ ⟨file, 0⟩
        | none =>
          apply resolution_of_fallback startUp hKey _ (.inr (.inl hEntered))
          rintro (⟨-, -, hOpens⟩ | hSome)
          · rw [hDecrypt] at hOpens
            contradiction
          · rw [hKey] at hSome
            contradiction
    | none =>
      cases hKey : emergencyKey? config with
      | some key =>
        have hConfig := persistEncrypted_config startUp ⟨file, 0⟩ config key
        dsimp only
        generalize persistEncryptedDatabaseKeyWithSafeStorage startUp config key ⟨file, 0⟩ = outcome at hConfig
        obtain ⟨persisted, disk'⟩ := outcome
        have hSaved := hConfig.symm.imp_left And.right
        cases persisted with
        | true => exact .emergency hKey (fun _ h => (Except.ok.inj h).symm) hSaved
        | false => exact .emergency hKey nofun hSaved
      | none =>
        have hUnusable : ¬Usable startUp config := by
          rintro (⟨-, hSome, -⟩ | hSome)
          · rw [hEncrypted] at hSome
            contradiction
          · rw [hKey] at hSome
            contradiction
        dsimp only
        split
        · rename_i hUse
          exact resolution_of_fallback startUp hKey hUnusable (.inr (.inr hUse)) _ file
        · split
          · exact .refused _
          · rename_i hMetadata
            have hGenerates : Generates startUp config := .replaces hAvailable hEncrypted ((Bool.not_eq_true _).mp hMetadata)
            exact resolution_of_generate startUp hKey hUnusable hAvailable hGenerates ⟨file, 0⟩

end Resolution

structure Installation where
  config : Option DatabaseSecurityConfig
  databaseKey : Option Text
  deriving DecidableEq

namespace Installation

variable {platform : Platform} (installation : Installation) (startUp : StartUp platform)

def stored : DatabaseSecurityConfig := installation.config.getD .empty

def resolve : Except String Text × Disk := getDatabaseEncryptionKey startUp ⟨installation.config, 0⟩

def afterStartUp : Installation where
  config := (installation.resolve startUp).2.config
  databaseKey := installation.databaseKey.or
    (if startUp.createsDatabase then (installation.resolve startUp).1.toOption else none)

def InEffect (platform : Platform) (key : Text) : Prop := Stores platform installation.stored key ∨ installation.databaseKey = some key

def StaysWithKey : Prop :=
  platform.isPackaged = true → ∀ key, installation.InEffect platform key → ¬Usable startUp installation.stored →
    ¬Generates startUp installation.stored ∧
      ∀ derived, masterPasswordKey platform installation.stored startUp.masterPassword = .ok derived → derived = key

structure KeyStable : Prop where
  returns : ∀ key, installation.databaseKey = some key → ∀ resolved,
    (installation.resolve startUp).1 = .ok resolved → resolved = key
  keeps : ∀ key, installation.databaseKey = some key → Recovers platform installation.stored key →
    Recovers platform (installation.afterStartUp startUp).stored key

variable {installation startUp}

theorem resolution_of_start (hPackaged : platform.isPackaged = true) :
    Resolution startUp installation.stored installation.config (installation.resolve startUp).1 (installation.resolve startUp).2.config := by
  rw [resolve, getDatabaseEncryptionKey, hPackaged]
  simp only [Bool.not_true, Bool.false_eq_true, if_false, readSecurityConfig]
  cases startUp.configReadError with
  | some _ => exact .refused _
  | none => exact resolution_of_resolve startUp installation.config

def Candidate (platform : Platform) (installation : Installation) (result : Except String Text)
    (saved : Option DatabaseSecurityConfig) (key : Text) : Prop :=
  Stores platform (saved.getD .empty) key ∨ result = .ok key ∨ installation.InEffect platform key

def OneKey (platform : Platform) (installation : Installation) : Prop :=
  ∀ key key', installation.InEffect platform key → installation.InEffect platform key' → key = key'

theorem candidate_eq {result : Except String Text} (hKey : ∀ other, installation.InEffect platform other → other = key)
    (hResult : ∀ other, result = .ok other → other = key) (hSaved : ∀ other, Stores platform (saved.getD .empty) other →
      other = key ∨ Stores platform installation.stored other) : ∀ other, Candidate platform installation result saved other → other = key := by
  rintro other (hStores | hOk | hEffect)
  · obtain rfl | hStored := hSaved other hStores
    · rfl
    · exact hKey other (.inl hStored)
  · exact hResult other hOk
  · exact hKey other hEffect

theorem candidates_eq (hOne : OneKey platform installation) {result : Except String Text}
    (h : Resolution startUp installation.stored installation.config result saved) (hPackaged : platform.isPackaged = true)
    (hStays : installation.StaysWithKey startUp) :
    ∀ key key', Candidate platform installation result saved key → Candidate platform installation result saved key' → key = key' := by
  have hFile : ∀ {key : Text}, saved = installation.config ∨ Saved platform installation.stored key saved →
      ∀ other, Stores platform (saved.getD .empty) other → other = key ∨ Stores platform installation.stored other := by
    rintro key (rfl | hSaved) other hStores
    · exact .inr hStores
    · exact hSaved.stores_only hStores
  suffices hKey : (∃ key, ∀ other, Candidate platform installation result saved other → other = key) ∨
      ∀ other, Candidate platform installation result saved other → installation.InEffect platform other by
    intro key key' hCandidate hCandidate'
    obtain ⟨one, hAll⟩ | hAll := hKey
    · rw [hAll key hCandidate, hAll key' hCandidate']
    · exact hOne key key' (hAll key hCandidate) (hAll key' hCandidate')
  cases h with
  | refused message =>
    right
    rintro other (hStores | hOk | hEffect)
    · exact .inl hStores
    · contradiction
    · exact hEffect
  | @opened payload _ hPayload hSaved =>
    have hStored : installation.InEffect platform (platform.decryptPayload payload) := .inl (.encrypted hPayload)
    refine .inl ⟨_, candidate_eq (fun other hOther => hOne other _ hOther hStored)
      (fun _ hOk => (Except.ok.inj hOk).symm) ?_⟩
    obtain rfl | rfl := hSaved
    · exact fun _ => .inr
    · exact fun _ hStores => .inr (stores_withoutEmergency hStores)
  | @emergency key _ _ hKey hResult hSaved =>
    have hStored : installation.InEffect platform key := .inl (.emergency hKey)
    exact .inl ⟨key, candidate_eq (fun other hOther => hOne other _ hOther hStored) hResult (hFile hSaved)⟩
  | @password key _ _ hUnusable hKey hResult hSaved =>
    have hEffect : ∀ other, installation.InEffect platform other → other = key := by
      intro other hOther
      obtain ⟨-, hDerived⟩ := hStays hPackaged other hOther hUnusable
      exact (hDerived key hKey).symm
    exact .inl ⟨key, candidate_eq hEffect hResult (hFile hSaved)⟩
  | generated hUnusable hGenerates hResult hSaved =>
    have hNone : ∀ other, ¬installation.InEffect platform other := by
      intro other hOther
      obtain ⟨hNot, -⟩ := hStays hPackaged other hOther hUnusable
      exact hNot hGenerates
    obtain rfl | ⟨key, hKey⟩ := hSaved
    · right
      rintro other (hStores | hOk | hEffect)
      · exact .inl hStores
      · exact .inl (hResult other hOk).stores
      · exact hEffect
    · have hOnly : ∀ other, Stores platform (saved.getD .empty) other → other = key := by
        intro other hStores
        obtain rfl | hStored := hKey.stores_only hStores
        · rfl
        · exact absurd (.inl hStored) (hNone other)
      left
      refine ⟨key, ?_⟩
      rintro other (hStores | hOk | hEffect)
      · exact hOnly other hStores
      · exact hOnly other (hResult other hOk).stores
      · exact absurd hEffect (hNone other)

theorem recovers_after (hOne : OneKey platform installation) (hPackaged : platform.isPackaged = true)
    (hStays : installation.StaysWithKey startUp) (hKey : installation.databaseKey = some key)
    (hRecovers : Recovers platform installation.stored key) : Recovers platform (installation.afterStartUp startUp).stored key := by
  have hResolution : Resolution startUp installation.stored installation.config (installation.resolve startUp).1
      (installation.resolve startUp).2.config := resolution_of_start hPackaged
  have hCandidates := candidates_eq hOne hResolution hPackaged hStays
  have hSame : ∀ {saved : Option DatabaseSecurityConfig}, saved = installation.config →
      Recovers platform (saved.getD .empty) key := by
    rintro _ rfl
    exact hRecovers
  have hWritten : ∀ {saved : Option DatabaseSecurityConfig} {other : Text}, (∀ other, Stores platform
      (saved.getD .empty) other → key = other) → Saved platform installation.stored other saved →
      Recovers platform (saved.getD .empty) key := by
    intro saved other hOnly hSaved
    have hStores := hSaved.stores
    rw [← hOnly other hStores] at hStores
    exact .inl hStores
  have hOnly : ∀ other, Stores platform (((installation.resolve startUp).2.config).getD .empty) other → key = other :=
    fun other hStores => hCandidates key other (.inr (.inr (.inr hKey))) (.inl hStores)
  rw [stored, afterStartUp]
  dsimp only
  generalize (installation.resolve startUp).1 = result at hResolution
  generalize (installation.resolve startUp).2.config = saved at hResolution hOnly
  cases hResolution with
  | refused message => exact hSame rfl
  | @opened payload _ hPayload hSaved =>
    obtain hFile | rfl := hSaved
    · exact hSame hFile
    · obtain hStores | ⟨password, hPassword⟩ := hRecovers
      · left
        rw [hOne key _ (.inl hStores) (.inl (.encrypted hPayload))]
        exact .encrypted hPayload
      · exact .inr ⟨password, hPassword⟩
  | emergency _ _ hSaved => exact hSaved.elim hSame (hWritten hOnly)
  | password _ _ _ hSaved => exact hSaved.elim hSame (hWritten hOnly)
  | generated _ _ _ hSaved =>
    obtain hFile | ⟨other, hSaved⟩ := hSaved
    · exact hSame hFile
    · exact hWritten hOnly hSaved

end Installation

def startUps (platform : Platform) : Machine Installation (StartUp platform) where
  initial installation := installation.databaseKey = none ∧
    ∀ key key', Stores platform installation.stored key → Stores platform installation.stored key' → key = key'
  step := Installation.afterStartUp

namespace Installation

variable {platform : Platform} {installation : Installation} {startUp : StartUp platform}

structure Settled (platform : Platform) (installation : Installation) : Prop where
  packaged : platform.isPackaged = true → OneKey platform installation
  development : platform.isPackaged = false → ∀ key, installation.databaseKey = some key → key = DEV_MASTER_KEY

theorem databaseKey_afterStartUp (h : (installation.afterStartUp startUp).databaseKey = some key) :
    installation.databaseKey = some key ∨ (installation.resolve startUp).1 = .ok key := by
  obtain hKey | ⟨-, hKey⟩ := Option.or_eq_some_iff.mp h
  · exact .inl hKey
  · split at hKey
    · right
      cases hResult : (installation.resolve startUp).1 with
      | error message =>
        rw [hResult] at hKey
        contradiction
      | ok resolved =>
        rw [hResult] at hKey
        exact congrArg Except.ok (Option.some.inj hKey)
    · contradiction

theorem resolve_of_development (hDevelopment : platform.isPackaged = false) :
    installation.resolve startUp = (.ok DEV_MASTER_KEY, ⟨installation.config, 0⟩) := by
  rw [resolve, getDatabaseEncryptionKey, hDevelopment]
  rfl

theorem Settled.afterStartUp (h : Settled platform installation) (hStays : installation.StaysWithKey startUp) :
    Settled platform (installation.afterStartUp startUp) := by
  constructor
  · intro hPackaged key key' hKey hKey'
    have hCandidates := candidates_eq (h.packaged hPackaged) (resolution_of_start hPackaged) hPackaged hStays
    have hCandidate : ∀ other, (installation.afterStartUp startUp).InEffect platform other →
        Candidate platform installation (installation.resolve startUp).1 (installation.resolve startUp).2.config
          other := by
      rintro other (hStores | hDatabase)
      · exact .inl hStores
      · obtain hBefore | hResult := databaseKey_afterStartUp hDatabase
        · exact .inr (.inr (.inr hBefore))
        · exact .inr (.inl hResult)
    exact hCandidates key key' (hCandidate key hKey) (hCandidate key' hKey')
  · intro hDevelopment key hKey
    obtain hBefore | hResult := databaseKey_afterStartUp hKey
    · exact h.development hDevelopment key hBefore
    · rw [resolve_of_development hDevelopment] at hResult
      exact (Except.ok.inj hResult).symm

theorem Settled.keyStable (h : Settled platform installation) (hStays : installation.StaysWithKey startUp) :
    installation.KeyStable startUp := by
  cases hPackaged : platform.isPackaged with
  | true =>
    constructor
    · intro key hKey resolved hResolved
      exact candidates_eq (h.packaged hPackaged) (resolution_of_start hPackaged) hPackaged hStays resolved key
        (.inr (.inl hResolved)) (.inr (.inr (.inr hKey)))
    · intro key hKey hRecovers
      exact recovers_after (h.packaged hPackaged) hPackaged hStays hKey hRecovers
  | false =>
    constructor
    · intro key hKey resolved hResolved
      rw [resolve_of_development hPackaged] at hResolved
      rw [h.development hPackaged key hKey]
      exact (Except.ok.inj hResolved).symm
    · intro key hKey hRecovers
      rw [stored, Installation.afterStartUp, resolve_of_development hPackaged]
      exact hRecovers

end Installation

theorem settled_of_reachable {platform : Platform} {installation : Installation}
    (h : (startUps platform).ReachableWhile Installation.StaysWithKey installation) : installation.Settled platform := by
  refine h.invariant ?_ fun _ _ hSettled hStays => hSettled.afterStartUp hStays
  rintro start ⟨hNone, hStored⟩
  constructor
  · rintro - key key' (hKey | hKey) (hKey' | hKey')
    · exact hStored key key' hKey hKey'
    · rw [hNone] at hKey'
      contradiction
    · rw [hNone] at hKey
      contradiction
    · rw [hNone] at hKey
      contradiction
  · intro _ key hKey
    rw [hNone] at hKey
    contradiction

/-- Over start-ups that never make or derive another key while one is in effect, the key of the database is the
only one returned, and the config keeps what it can be recovered from. -/
theorem database_key_is_stable {platform : Platform} {installation : Installation}
    (hReached : (startUps platform).ReachableWhile Installation.StaysWithKey installation)
    (startUp : StartUp platform) (hStays : installation.StaysWithKey startUp) : installation.KeyStable startUp :=
  (settled_of_reachable hReached).keyStable hStays

def laptop : Platform where
  isPackaged := true
  securityConfigPath := "/home/user/.config/cosmosh/security.config.json"
  decryptPayload := List.tail
  scryptSync _ _ := []
  hkdfSync _ _ _ := Vector.replicate 32 0

def unlockedStart : StartUp laptop where
  configReadError := none
  safeStorageAvailable := true
  decryptError := none
  encryptString plainText := some ⟨'v' :: plainText, nofun, rfl⟩
  masterPassword := none
  databaseFileExists := false
  writeOutcome _ := .written
  generatedBytes := Vector.replicate 32 17
  autoProvisionedBytes := Vector.replicate 32 34
  createsDatabase := false

def lockedStart : StartUp laptop := { unlockedStart with safeStorageAvailable := false, createsDatabase := true }

def newInstallation : Installation := ⟨none, none⟩

def generatedKey : Text := toHex (Vector.replicate 32 17).toList

def autoProvisionedKey : Text := toHex (Vector.replicate 32 34).toList

def laterStart : StartUp laptop := { unlockedStart with databaseFileExists := true }

theorem stored_key_displaces_database_key : let reached := (startUps laptop).run newInstallation [unlockedStart, lockedStart]
    reached.databaseKey = some autoProvisionedKey ∧ (reached.resolve laterStart).1 = .ok generatedKey ∧
      generatedKey ≠ autoProvisionedKey ∧ Recovers laptop reached.stored autoProvisionedKey ∧
      ¬Recovers laptop (reached.afterStartUp laterStart).stored autoProvisionedKey := by
  have hReached : (startUps laptop).run newInstallation [unlockedStart, lockedStart] =
      ⟨some ⟨some ('v' :: generatedKey), some autoProvisionedKey, none, none⟩, some autoProvisionedKey⟩ := by
    decide
  have hLater : Installation.afterStartUp
      ⟨some ⟨some ('v' :: generatedKey), some autoProvisionedKey, none, none⟩, some autoProvisionedKey⟩ laterStart =
      ⟨some ⟨some ('v' :: generatedKey), none, none, none⟩, some autoProvisionedKey⟩ := by decide
  have hDifferent : generatedKey ≠ autoProvisionedKey := by decide
  intro reached
  rw [show reached = _ from hReached, hLater]
  refine ⟨rfl, by decide, hDifferent, ?_, ?_⟩
  · left
    apply Stores.emergency
    decide
  · rintro (hStores | ⟨password, hPassword⟩)
    · generalize hKey : autoProvisionedKey = key at hStores
      cases hStores with
      | encrypted hPayload =>
        obtain ⟨hText, -⟩ := truthy_eq_some hPayload
        rw [← Option.some.inj hText] at hKey
        exact hDifferent hKey.symm
      | emergency hEmergency => cases hEmergency
    · cases hPassword

def firstStart : StartUp laptop := { unlockedStart with createsDatabase := true }

theorem database_key_is_stable_after_first_start : ((startUps laptop).step newInstallation firstStart).databaseKey = some generatedKey ∧
      ((startUps laptop).step newInstallation firstStart).KeyStable laterStart := by
  have hNone : ∀ key, ¬newInstallation.InEffect laptop key := by
    rintro key (hStores | hDatabase)
    · cases hStores with
      | encrypted hPayload => cases hPayload
      | emergency hEmergency => cases hEmergency
    · cases hDatabase
  have hStart : (startUps laptop).initial newInstallation := ⟨rfl, fun key _ hKey _ => absurd (.inl hKey) (hNone key)⟩
  have hFirst : newInstallation.StaysWithKey firstStart := fun _ key hKey => absurd hKey (hNone key)
  have hStep : (startUps laptop).step newInstallation firstStart =
      ⟨some ⟨some ('v' :: generatedKey), none, none, none⟩, some generatedKey⟩ := by decide
  refine ⟨by rw [hStep], database_key_is_stable (.step (.start hStart) hFirst) laterStart ?_⟩
  intro _ key _ hUnusable
  rw [hStep] at hUnusable
  exact absurd (.inl ⟨rfl, rfl, rfl⟩) hUnusable

end Security
