import Cosmosh.Library.JsText
import Cosmosh.Library.Table

/-! # Servers, keychains and the single calls that read and write them

Each call is atomic: it either takes effect or throws and leaves the tables as they are.
-/

namespace Ssh

open Library

abbrev RecordId := { id : String // id ≠ "" }

instance : LawfulBEq RecordId := inferInstanceAs (LawfulBEq { id : String // id ≠ "" })

inductive SshAuthType
  | password
  | key
  | both
  deriving DecidableEq

inductive SshKeychainVisibility
  | hidden
  | shared
  deriving DecidableEq

inductive SshServerProxyMode
  | default
  | off
  | custom
  deriving DecidableEq

inductive TerminalClipboardAccess
  | off
  | writeAskRead
  | readWrite
  | askAlways
  deriving DecidableEq

structure CredentialMaterial where
  authType : SshAuthType
  passwordEncrypted : Option String
  privateKeyEncrypted : Option String
  privateKeyPassphraseEncrypted : Option String
  deriving DecidableEq

structure SshKeychain extends CredentialMaterial where
  id : RecordId
  name : String
  iconKey : String
  colorKey : String
  visibility : SshKeychainVisibility
  note : Option String
  folderId : Option RecordId
  tagIds : List RecordId
  createdAt : Nat
  updatedAt : Nat
  deriving DecidableEq

structure SshServer where
  id : RecordId
  name : String
  iconKey : String
  colorKey : String
  host : String
  port : Nat
  username : String
  strictHostKey : Bool
  enableSshCompression : Bool
  remoteEnhancementsEnabled : Bool
  disableCharacterWidthCompatibilityMode : Bool
  terminalClipboardAccess : TerminalClipboardAccess
  proxyMode : SshServerProxyMode
  proxyUrl : Option String
  keychainId : RecordId
  note : Option String
  folderId : Option RecordId
  tagIds : List RecordId
  createdAt : Nat
  updatedAt : Nat
  deriving DecidableEq

structure SshTag where
  id : RecordId
  name : String
  deriving DecidableEq

structure Database where
  folders : List RecordId
  tags : List SshTag
  servers : Table SshServer.id
  keychains : Table SshKeychain.id

inductive PrismaError
  | P2002
  | P2003
  | P2025
  deriving DecidableEq

namespace SshServer

/-- `@@unique([host, port, username])` -/
def sameAddress (a b : SshServer) : Bool := a.host = b.host && a.port = b.port && a.username = b.username

end SshServer

namespace Database

variable (db : Database)

def createKeychain (row : SshKeychain) : Except PrismaError Database :=
  if h : db.keychains.find row.id = none then .ok { db with keychains := db.keychains.insert row h }
  else .error .P2002

def updateKeychain (id : RecordId) (write : SshKeychain → SshKeychain) (hKey : ∀ r, (write r).id = r.id) :
    Except PrismaError Database :=
  match db.keychains.find id with
  | none => .error .P2025
  | some _ => .ok { db with keychains := db.keychains.modify id write hKey }

def deleteKeychain (id : RecordId) : Except PrismaError Database :=
  match db.keychains.find id with
  | none => .error .P2025
  | some _ =>
    if db.servers.rows.any (·.keychainId = id) then .error .P2003
    else .ok { db with keychains := db.keychains.removeWhere (·.id = id) }

def addressTaken (row : SshServer) : Bool := db.servers.rows.any fun other => other.id ≠ row.id && other.sameAddress row

def createServer (row : SshServer) : Except PrismaError Database :=
  if db.addressTaken row then .error .P2002
  else if h : db.servers.find row.id = none then
    if db.keychains.find row.keychainId = none then .error .P2003
    else .ok { db with servers := db.servers.insert row h }
  else .error .P2002

def updateServer (id : RecordId) (write : SshServer → SshServer) (hKey : ∀ r, (write r).id = r.id) :
    Except PrismaError Database :=
  match db.servers.find id with
  | none => .error .P2025
  | some row =>
    if db.addressTaken (write row) then .error .P2002
    else if db.keychains.find (write row).keychainId = none then .error .P2003
    else .ok { db with servers := db.servers.modify id write hKey }

def deleteServer (id : RecordId) : Except PrismaError Database :=
  match db.servers.find id with
  | none => .error .P2025
  | some _ => .ok { db with servers := db.servers.removeWhere (·.id = id) }

/-- `deleteMany` where the visibility is hidden and no server refers to the keychain. -/
def cleanupUnusedHiddenKeychains : Database :=
  { db with keychains := db.keychains.removeWhere fun keychain =>
      keychain.visibility = .hidden && !db.servers.rows.any (·.keychainId = keychain.id) }

/-- No character outside ASCII has a lower case form with a letter of `favorite`. -/
def isReservedSshTagName (name : String) : Bool := (JsText.trim name.toList).map Char.toLower = "favorite".toList

def cleanupUnusedSshTags : Database :=
  { db with tags := db.tags.filter fun tag =>
      db.servers.rows.any (tag.id ∈ ·.tagIds) || db.keychains.rows.any (tag.id ∈ ·.tagIds) ||
        isReservedSshTagName tag.name }

end Database

end Ssh
