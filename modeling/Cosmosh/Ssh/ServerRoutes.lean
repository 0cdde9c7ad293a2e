import Cosmosh.Ssh.ServerStore

/-! # The routes that create, change and delete servers and keychains

A handler is its calls one after the other, each on the tables the last one left.
-/

namespace Ssh

open Library

inductive ApiCode
  | commonInternalServerError
  | sshKeychainConflict
  | sshKeychainInUse
  | sshNotFound
  | sshServerConflict
  | sshValidationFailed
  deriving DecidableEq

inductive Response
  | server (row : SshServer)
  | keychain (row : SshKeychain)
  | noContent
  | error (status : Nat) (code : ApiCode) (message : String)
  deriving DecidableEq

namespace Response

def isError : Response → Bool
  | error .. => true
  | _ => false

@[simp] theorem isError_server (row : SshServer) : (server row).isError = false := rfl

@[simp] theorem isError_keychain (row : SshKeychain) : (keychain row).isError = false := rfl

@[simp] theorem isError_noContent : noContent.isError = false := rfl

@[simp] theorem isError_error (status : Nat) (code : ApiCode) (message : String) : (error status code message).isError = true := rfl

def thrown : Response := error 500 .commonInternalServerError "errors.common.internalServerError"

def invalid (message : String) : Response := error 400 .sshValidationFailed message

def absent (status : Nat) (message : String) : Response := error status .sshNotFound message

def serverConflict : Response := error 409 .sshServerConflict "errors.ssh.serverConflict"

end Response

inductive CredentialColumn
  | password
  | privateKey
  | privateKeyPassphrase

structure Environment where
  now : Nat
  keychainId : RecordId
  serverId : RecordId
  encryptSensitiveValue : CredentialColumn → String → String

structure ValidationError where
  i18nKey : String

def truthy : Option String → Bool
  | some value => value ≠ ""
  | none => false

structure ServerFields where
  name : String
  host : String
  port : Nat
  username : String
  authType : Option SshAuthType
  keychainId : Option RecordId
  password : Option String
  privateKey : Option String
  privateKeyPassphrase : Option String
  proxyUrl : Option String
  folderId : Option RecordId
  iconKey : Option String
  colorKey : Option String
  note : Option String

structure ApiSshCreateServerRequest extends ServerFields where
  strictHostKey : Bool
  enableSshCompression : Bool
  remoteEnhancementsEnabled : Bool
  disableCharacterWidthCompatibilityMode : Bool
  terminalClipboardAccess : TerminalClipboardAccess
  proxyMode : SshServerProxyMode
  tagIds : List RecordId

structure ApiSshUpdateServerRequest extends ServerFields where
  strictHostKey : Option Bool
  enableSshCompression : Option Bool
  remoteEnhancementsEnabled : Option Bool
  disableCharacterWidthCompatibilityMode : Option Bool
  terminalClipboardAccess : Option TerminalClipboardAccess
  proxyMode : Option SshServerProxyMode
  tagIds : Option (List RecordId)

def usesPassword : SshAuthType → Bool
  | .password | .both => true
  | .key => false

def usesPrivateKey : SshAuthType → Bool
  | .key | .both => true
  | .password => false

def encryptedOr (env : Environment) (column : CredentialColumn) (shouldUse : Bool) (secret stored : Option String) :
    Option String :=
  if shouldUse then
    if truthy secret then secret.map (env.encryptSensitiveValue column) else stored
  else none

def credentialMaterial (env : Environment) (authType : SshAuthType)
    (password privateKey privateKeyPassphrase : Option String) (existing : Option CredentialMaterial) : CredentialMaterial where
  authType := authType
  passwordEncrypted := encryptedOr env .password (usesPassword authType) password (existing.bind (·.passwordEncrypted))
  privateKeyEncrypted := encryptedOr env .privateKey (usesPrivateKey authType) privateKey (existing.bind (·.privateKeyEncrypted))
  privateKeyPassphraseEncrypted :=
    encryptedOr env .privateKeyPassphrase (usesPrivateKey authType) privateKeyPassphrase
      (existing.bind (·.privateKeyPassphraseEncrypted))

namespace CredentialMaterial

def lacksPassword (m : CredentialMaterial) : Bool := usesPassword m.authType && !truthy m.passwordEncrypted

def lacksPrivateKey (m : CredentialMaterial) : Bool := usesPrivateKey m.authType && !truthy m.privateKeyEncrypted

end CredentialMaterial

def SshKeychain.withMaterial (now : Nat) (material : CredentialMaterial) (row : SshKeychain) : SshKeychain :=
  { row with toCredentialMaterial := material, updatedAt := now }

@[simp] theorem SshKeychain.withMaterial_id (now : Nat) (material : CredentialMaterial) (row : SshKeychain) :
    (row.withMaterial now material).id = row.id := rfl

def hiddenKeychain (env : Environment) (serverName : String) (material : CredentialMaterial) : SshKeychain where
  toCredentialMaterial := material
  id := env.keychainId
  name := serverName ++ " Keychain"
  iconKey := "KeyRound"
  colorKey := "emerald"
  visibility := .hidden
  note := none
  folderId := none
  tagIds := []
  createdAt := env.now
  updatedAt := env.now

/-- What `ensureInlineCredentialKeychain` would store, when it does not return null. -/
def inlineMaterial (env : Environment) (input : ServerFields) (existing : Option SshKeychain) :
    Option CredentialMaterial :=
  match input.authType with
  | none => none
  | some authType =>
    let material := credentialMaterial env authType input.password input.privateKey input.privateKeyPassphrase
      (existing.map (·.toCredentialMaterial))
    if material.lacksPassword then none
    else if material.lacksPrivateKey then none
    else some material

def ensureInlineCredentialKeychain (env : Environment) (input : ServerFields) (existing : Option SshKeychain)
    (db : Database) : Except PrismaError (Option RecordId × Database) :=
  match inlineMaterial env input existing with
  | none => .ok (none, db)
  | some material =>
    match existing.filter (·.visibility = .hidden) with
    | some keychain =>
      (db.updateKeychain keychain.id (SshKeychain.withMaterial env.now material)
        (SshKeychain.withMaterial_id env.now material)).map fun db' => (some keychain.id, db')
    | none =>
      (db.createKeychain (hiddenKeychain env input.name material)).map fun db' => (some env.keychainId, db')

/-- `parsed.value.keychainId ?? await ensureInlineCredentialKeychain(..)` -/
def keychainOf (env : Environment) (input : ServerFields) (existing : Option SshKeychain) (db : Database) :
    Except PrismaError (Option RecordId × Database) :=
  match input.keychainId with
  | some id => .ok (some id, db)
  | none => ensureInlineCredentialKeychain env input existing db

def folderMissing (db : Database) (folderId : Option RecordId) : Bool := folderId.any (· ∉ db.folders)

/-- `existingTags.length !== tagIds.length` -/
def tagsMissing (db : Database) (tagIds : List RecordId) : Bool := tagIds ≠ [] && (db.tags.filter (·.id ∈ tagIds)).length ≠ tagIds.length

def referenceError (db : Database) (folderId : Option RecordId) (tagIds : List RecordId) : Option Response :=
  if folderMissing db folderId then some (.absent 400 "errors.ssh.folderNotFound")
  else if tagsMissing db tagIds then some (.absent 400 "errors.ssh.tagsNotFound")
  else none

def namedKeychainMissing (db : Database) (keychainId : Option RecordId) : Bool := keychainId.any fun id => (db.keychains.find id).isNone

def createdServer (env : Environment) (request : ApiSshCreateServerRequest) (keychainId : RecordId) : SshServer where
  id := env.serverId
  name := request.name
  iconKey := request.iconKey.getD "Server"
  colorKey := request.colorKey.getD "blue"
  host := request.host
  port := request.port
  username := request.username
  strictHostKey := request.strictHostKey
  enableSshCompression := request.enableSshCompression
  remoteEnhancementsEnabled := request.remoteEnhancementsEnabled
  disableCharacterWidthCompatibilityMode := request.disableCharacterWidthCompatibilityMode
  terminalClipboardAccess := request.terminalClipboardAccess
  proxyMode := request.proxyMode
  proxyUrl := request.proxyUrl
  keychainId := keychainId
  note := request.note
  folderId := request.folderId
  tagIds := request.tagIds
  createdAt := env.now
  updatedAt := env.now

/-- A column that is not given keeps its value. -/
def SshServer.withRequest (env : Environment) (request : ApiSshUpdateServerRequest) (keychainId : RecordId)
    (row : SshServer) : SshServer :=
  { row with
    name := request.name
    host := request.host
    port := request.port
    username := request.username
    keychainId := keychainId
    iconKey := request.iconKey.getD row.iconKey
    colorKey := request.colorKey.getD row.colorKey
    strictHostKey := request.strictHostKey.getD row.strictHostKey
    enableSshCompression := request.enableSshCompression.getD row.enableSshCompression
    remoteEnhancementsEnabled := request.remoteEnhancementsEnabled.getD row.remoteEnhancementsEnabled
    disableCharacterWidthCompatibilityMode := request.disableCharacterWidthCompatibilityMode.getD row.disableCharacterWidthCompatibilityMode
    terminalClipboardAccess := request.terminalClipboardAccess.getD row.terminalClipboardAccess
    proxyMode := request.proxyMode.getD row.proxyMode
    proxyUrl := request.proxyUrl <|> row.proxyUrl
    note := request.note <|> row.note
    folderId := request.folderId <|> row.folderId
    tagIds := request.tagIds.getD row.tagIds
    updatedAt := env.now }

variable (env : Environment)

@[simp] theorem SshServer.withRequest_id (request : ApiSshUpdateServerRequest) (keychainId : RecordId) (row : SshServer) :
    (row.withRequest env request keychainId).id = row.id := rfl

@[simp] theorem SshServer.withRequest_keychainId (request : ApiSshUpdateServerRequest) (keychainId : RecordId) (row : SshServer) :
    (row.withRequest env request keychainId).keychainId = keychainId := rfl

def caught : PrismaError → Response
  | .P2002 => .serverConflict
  | _ => .thrown

def createServerWith (env : Environment) (request : ApiSshCreateServerRequest) (keychainId : RecordId)
    (db : Database) : Response × Database :=
  match db.createServer (createdServer env request keychainId) with
  | .error e => (caught e, db)
  | .ok db' => (.server (createdServer env request keychainId), db')

def createServerHandler (env : Environment) (parsed : Except ValidationError ApiSshCreateServerRequest)
    (db : Database) : Response × Database :=
  match parsed with
  | .error e => (.invalid e.i18nKey, db)
  | .ok request =>
    match referenceError db request.folderId request.tagIds with
    | some response => (response, db)
    | none =>
      if namedKeychainMissing db request.keychainId then (.absent 400 "errors.ssh.serverNotFound", db)
      else
        match keychainOf env request.toServerFields none db with
        | .error e => (caught e, db)
        | .ok (none, db') => (.invalid "errors.validation.passwordRequiredForAuthType", db')
        | .ok (some keychainId, db') => createServerWith env request keychainId db'

def updateServerWith (env : Environment) (existingServer : SshServer) (request : ApiSshUpdateServerRequest)
    (keychainId : RecordId) (db : Database) : Response × Database :=
  match db.updateServer existingServer.id (SshServer.withRequest env request keychainId)
      (SshServer.withRequest_id env request keychainId) with
  | .error e => (caught e, db)
  | .ok db' =>
    let tagged := if request.tagIds.isSome then db'.cleanupUnusedSshTags else db'
    let cleaned := if existingServer.keychainId ≠ keychainId then tagged.cleanupUnusedHiddenKeychains else tagged
    (.server (existingServer.withRequest env request keychainId), cleaned)

def updateServerHandler (env : Environment) (serverId : Option RecordId)
    (parsed : Except ValidationError ApiSshUpdateServerRequest) (db : Database) : Response × Database :=
  match serverId, parsed with
  | none, _ => (.invalid "errors.validation.serverIdRequired", db)
  | some _, .error e => (.invalid e.i18nKey, db)
  | some serverId, .ok request =>
    match db.servers.find serverId with
    | none => (.absent 404 "errors.ssh.serverNotFound", db)
    | some existingServer =>
      match db.keychains.find existingServer.keychainId with
      | none => (.thrown, db)
      | some existingKeychain =>
        match referenceError db request.folderId (request.tagIds.getD []) with
        | some response => (response, db)
        | none =>
          if namedKeychainMissing db request.keychainId then (.absent 400 "errors.ssh.serverNotFound", db)
          else
            match keychainOf env request.toServerFields (some existingKeychain) db with
            | .error _ => (.thrown, db)
            | .ok (none, db') => (.invalid "errors.validation.privateKeyRequiredForAuthType", db')
            | .ok (some keychainId, db') => updateServerWith env existingServer request keychainId db'

def deleteServerHandler (serverId : Option RecordId) (db : Database) : Response × Database :=
  match serverId with
  | none => (.invalid "errors.validation.serverIdRequired", db)
  | some id =>
    match db.deleteServer id with
    | .error .P2025 => (.absent 404 "errors.ssh.serverNotFound", db)
    | .error _ => (.thrown, db)
    | .ok db' => (.noContent, db'.cleanupUnusedSshTags.cleanupUnusedHiddenKeychains)

inductive PayloadField
  | undefined
  | text (value : String)
  | other

structure KeychainPayload where
  name : PayloadField
  authType : PayloadField
  visibility : PayloadField
  password : PayloadField
  privateKey : PayloadField
  privateKeyPassphrase : PayloadField
  iconKey : PayloadField
  colorKey : PayloadField
  note : PayloadField
  folderId : PayloadField
  tagIds : Option (List PayloadField)

def trim (value : String) : String := String.ofList (JsText.trim value.toList)

namespace PayloadField

/-- `typeof value === 'string' ? value.trim() : undefined` -/
def trimmed : PayloadField → Option String
  | text value => some (trim value)
  | _ => none

def nonEmpty (field : PayloadField) : Option String := field.trimmed.filter (· ≠ "")

def recordId (field : PayloadField) : Option RecordId := field.trimmed.bind fun value => if h : value ≠ "" then some ⟨value, h⟩ else none

def authType : PayloadField → Option SshAuthType
  | text "password" => some .password
  | text "key" => some .key
  | text "both" => some .both
  | _ => none

def visibilityInvalid : PayloadField → Bool
  | undefined => false
  | text value => value ≠ "hidden" && value ≠ "shared"
  | other => true

def visibility : PayloadField → SshKeychainVisibility
  | text "shared" => .shared
  | _ => .hidden

end PayloadField

namespace KeychainPayload

/-- `[...new Set(..)]` keeps the first occurrence of each identifier. -/
def tagIdSet (payload : KeychainPayload) : List RecordId := ((payload.tagIds.getD []).filterMap PayloadField.recordId).reverse.dedup.reverse

end KeychainPayload

def keychainFields (payload : KeychainPayload) : Except Response (String × SshAuthType) :=
  match payload.name.nonEmpty with
  | none => .error (.invalid "errors.validation.serverNameLength")
  | some name =>
    if JsText.utf16Length name.toList > 120 then .error (.invalid "errors.validation.serverNameLength")
    else
      match payload.authType.authType with
      | none => .error (.invalid "errors.validation.authTypeEnum")
      | some authType =>
        if payload.visibility.visibilityInvalid then .error (.invalid "errors.validation.invalidPayload")
        else .ok (name, authType)

def payloadMaterial (env : Environment) (payload : KeychainPayload) (authType : SshAuthType)
    (existing : Option CredentialMaterial) : CredentialMaterial :=
  credentialMaterial env authType payload.password.trimmed payload.privateKey.trimmed
    payload.privateKeyPassphrase.trimmed existing

def missingSecret (authType : SshAuthType) (password privateKey : Option String) : Option Response :=
  if usesPassword authType && !truthy password then
    some (.invalid "errors.validation.passwordRequiredForAuthType")
  else if usesPrivateKey authType && !truthy privateKey then
    some (.invalid "errors.validation.privateKeyRequiredForAuthType")
  else none

def createdKeychain (env : Environment) (payload : KeychainPayload) (name : String) (authType : SshAuthType) :
    SshKeychain where
  toCredentialMaterial := payloadMaterial env payload authType none
  id := env.keychainId
  name := name
  iconKey := payload.iconKey.nonEmpty.getD "KeyRound"
  colorKey := payload.colorKey.nonEmpty.getD "emerald"
  visibility := payload.visibility.visibility
  note := payload.note.nonEmpty
  folderId := payload.folderId.recordId
  tagIds := payload.tagIdSet
  createdAt := env.now
  updatedAt := env.now

def createKeychainHandler (env : Environment) (payload : KeychainPayload) (db : Database) : Response × Database :=
  match keychainFields payload with
  | .error response => (response, db)
  | .ok (name, authType) =>
    match missingSecret authType payload.password.trimmed payload.privateKey.trimmed with
    | some response => (response, db)
    | none =>
      match referenceError db payload.folderId.recordId payload.tagIdSet with
      | some response => (response, db)
      | none =>
        match db.createKeychain (createdKeychain env payload name authType) with
        | .error .P2002 => (.error 409 .sshKeychainConflict "errors.ssh.serverConflict", db)
        | .error _ => (.thrown, db)
        | .ok db' => (.keychain (createdKeychain env payload name authType), db')

def SshKeychain.withPayload (env : Environment) (payload : KeychainPayload) (name : String)
    (material : CredentialMaterial) (row : SshKeychain) : SshKeychain :=
  { row with
    toCredentialMaterial := material
    name := name
    iconKey := payload.iconKey.nonEmpty.getD row.iconKey
    colorKey := payload.colorKey.nonEmpty.getD row.colorKey
    visibility := payload.visibility.visibility
    note := payload.note.nonEmpty <|> row.note
    folderId := payload.folderId.recordId <|> row.folderId
    tagIds := payload.tagIdSet
    updatedAt := env.now }

@[simp] theorem SshKeychain.withPayload_id (payload : KeychainPayload) (name : String) (material : CredentialMaterial)
    (row : SshKeychain) : (row.withPayload env payload name material).id = row.id := rfl

def updateKeychainHandler (env : Environment) (keychainId : Option RecordId) (payload : KeychainPayload)
    (db : Database) : Response × Database :=
  match keychainId, keychainFields payload with
  | none, _ => (.invalid "errors.validation.serverIdRequired", db)
  | some _, .error response => (response, db)
  | some id, .ok (name, authType) =>
    match db.keychains.find id with
    | none => (.absent 404 "errors.ssh.serverNotFound", db)
    | some existing =>
      let material := payloadMaterial env payload authType (some existing.toCredentialMaterial)
      match missingSecret authType material.passwordEncrypted material.privateKeyEncrypted with
      | some response => (response, db)
      | none =>
        match referenceError db payload.folderId.recordId payload.tagIdSet with
        | some response => (response, db)
        | none =>
          match db.updateKeychain id (SshKeychain.withPayload env payload name material)
              (SshKeychain.withPayload_id env payload name material) with
          | .error _ => (.thrown, db)
          | .ok db' => (.keychain (existing.withPayload env payload name material), db')

def deleteKeychainHandler (keychainId : Option RecordId) (db : Database) : Response × Database :=
  match keychainId with
  | none => (.invalid "errors.validation.serverIdRequired", db)
  | some id =>
    if db.servers.rows.any (·.keychainId = id) then
      (.error 409 .sshKeychainInUse "errors.validation.invalidPayload", db)
    else
      match db.deleteKeychain id with
      | .error .P2025 => (.absent 404 "errors.ssh.serverNotFound", db)
      | .error _ => (.thrown, db)
      | .ok db' => (.noContent, db')

end Ssh
