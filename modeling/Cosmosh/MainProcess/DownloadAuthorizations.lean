import Cosmosh.Library.History
import Cosmosh.Sftp.TaskScheduler

/-! # Local paths a renderer may download to

The main process authorizes a local path for one renderer.
-/

namespace MainProcess

open Library
open Sftp (SftpTaskState isTerminalState)

def SFTP_DOWNLOAD_TRANSFER_RETRY_RETENTION_MS : Nat := 60000

structure SftpDownloadTargetAuthorization where
  reusable : Bool

structure SftpDownloadTransferRetryAuthorization where
  ownerWebContentsId : Nat
  normalizedPath : Text
  retryReady : Bool
  retryExpiresAt : Option Nat

/-- `used` with the transfer it was consumed for. -/
inductive AuthorizationMark
  | authorized (owner : Nat) (path : Text) (reusable : Bool)
  | used (owner : Nat) (path : Text) (transferId : Option Text)
  | allowed (owner : Nat) (transferId : Text) (now : Nat)
  | retried (owner : Nat) (path : Text) (transferId : Text) (now : Nat)
  | completed (owner : Nat) (transferId : Text)
  | revoked (owner : Nat)
  deriving DecidableEq

/-- `now` is the clock, and `trace` is what has happened so far. -/
structure SftpDownloadTargetAuthorizationRegistry where
  authorizationsByOwner : JsMap Nat (JsMap Text SftpDownloadTargetAuthorization)
  retryAuthorizationsByTransferId : JsMap Text SftpDownloadTransferRetryAuthorization
  now : Nat
  trace : List AuthorizationMark

/-- `canonical` is what the platform makes of a path. -/
def normalizePath (canonical : Text → Text) (candidatePath : Text) : Except String Text :=
  let trimmed := JsText.trim candidatePath
  if trimmed = [] then .error "SFTP download target path is invalid." else .ok (canonical trimmed)

namespace SftpDownloadTargetAuthorizationRegistry

variable (canonical : Text → Text) (registry : SftpDownloadTargetAuthorizationRegistry)

def observe (mark : AuthorizationMark) : SftpDownloadTargetAuthorizationRegistry := { registry with trace := registry.trace ++ [mark] }

def authorization (owner : Nat) (path : Text) : Option SftpDownloadTargetAuthorization :=
  (registry.authorizationsByOwner.get? owner).bind fun ownerAuthorizations => ownerAuthorizations.get? path

def pruneExpiredTransferRetries : SftpDownloadTargetAuthorizationRegistry :=
  { registry with
    retryAuthorizationsByTransferId := registry.retryAuthorizationsByTransferId.filter fun _ authorization =>
      !(authorization.retryExpiresAt.any fun expiresAt => expiresAt ≤ registry.now) }

def authorize (owner : Nat) (candidatePath : Text) (reusable : Bool) :
    Except String Text × SftpDownloadTargetAuthorizationRegistry :=
  let registry := registry.pruneExpiredTransferRetries
  match normalizePath canonical candidatePath with
  | .error message => (.error message, registry)
  | .ok path =>
    let ownerAuthorizations := (registry.authorizationsByOwner.get? owner).getD .empty
    (.ok path, { registry with
      authorizationsByOwner := registry.authorizationsByOwner.set owner (ownerAuthorizations.set path ⟨reusable⟩)
      }.observe (.authorized owner path reusable))

def withdraw (owner : Nat) (ownerAuthorizations : JsMap Text SftpDownloadTargetAuthorization) (path : Text) :
    SftpDownloadTargetAuthorizationRegistry :=
  let rest := ownerAuthorizations.delete path
  { registry with
    authorizationsByOwner :=
      if rest.size = 0 then registry.authorizationsByOwner.delete owner
      else registry.authorizationsByOwner.set owner rest }

def consume (owner : Nat) (candidatePath : Text) (transferId : Option Text) :
    Except String Text × SftpDownloadTargetAuthorizationRegistry :=
  match normalizePath canonical candidatePath with
  | .error message => (.error message, registry)
  | .ok path =>
    match registry.authorizationsByOwner.get? owner with
    | none => (.error "SFTP download target is not authorized for this renderer.", registry)
    | some ownerAuthorizations =>
      match ownerAuthorizations.get? path with
      | none => (.error "SFTP download target is not authorized for this renderer.", registry)
      | some authorization =>
        let registry := if authorization.reusable then registry else registry.withdraw owner ownerAuthorizations path
        (.ok path, registry.observe (.used owner path transferId))

def setRetry (transferId : Text) (authorization : SftpDownloadTransferRetryAuthorization) :
    SftpDownloadTargetAuthorizationRegistry :=
  { registry with
    retryAuthorizationsByTransferId := registry.retryAuthorizationsByTransferId.set transferId authorization }

def deleteRetry (transferId : Text) : SftpDownloadTargetAuthorizationRegistry :=
  { registry with retryAuthorizationsByTransferId := registry.retryAuthorizationsByTransferId.delete transferId }

def retry (authorization : SftpDownloadTransferRetryAuthorization) (owner : Nat) (path transferId : Text) :
    Except String Text × SftpDownloadTargetAuthorizationRegistry :=
  if authorization.ownerWebContentsId ≠ owner ∨ authorization.normalizedPath ≠ path ∨ authorization.retryReady = false then
    (.error "SFTP download retry target is not authorized for this renderer.", registry)
  else (.ok path, (registry.deleteRetry transferId).observe (.retried owner path transferId registry.now))

def consumeForTransfer (owner : Nat) (candidatePath transferId : Text) :
    Except String Text × SftpDownloadTargetAuthorizationRegistry :=
  let registry := registry.pruneExpiredTransferRetries
  match normalizePath canonical candidatePath with
  | .error message => (.error message, registry)
  | .ok path =>
    match registry.retryAuthorizationsByTransferId.get? transferId with
    | some authorization => registry.retry authorization owner path transferId
    | none =>
      match registry.consume canonical owner path (some transferId) with
      | (.error message, registry) => (.error message, registry)
      | (.ok authorizedPath, registry) =>
        (.ok authorizedPath, registry.setRetry transferId ⟨owner, authorizedPath, false, none⟩)

def allowTransferRetry (owner : Nat) (transferId : Text) : SftpDownloadTargetAuthorizationRegistry :=
  match registry.retryAuthorizationsByTransferId.get? transferId with
  | none => registry.observe (.allowed owner transferId registry.now)
  | some authorization =>
    if authorization.ownerWebContentsId = owner then
      (registry.setRetry transferId { authorization with
        retryReady := true
        retryExpiresAt := some (registry.now + SFTP_DOWNLOAD_TRANSFER_RETRY_RETENTION_MS)
        }).observe (.allowed owner transferId registry.now)
    else registry.observe (.allowed owner transferId registry.now)

def completeTransfer (owner : Nat) (transferId : Text) : SftpDownloadTargetAuthorizationRegistry :=
  match registry.retryAuthorizationsByTransferId.get? transferId with
  | none => registry.observe (.completed owner transferId)
  | some authorization =>
    if authorization.ownerWebContentsId = owner then
      (registry.deleteRetry transferId).observe (.completed owner transferId)
    else registry.observe (.completed owner transferId)

def revokeOwner (owner : Nat) : SftpDownloadTargetAuthorizationRegistry :=
  { registry with
    authorizationsByOwner := registry.authorizationsByOwner.delete owner
    retryAuthorizationsByTransferId := registry.retryAuthorizationsByTransferId.filter fun _ authorization =>
      authorization.ownerWebContentsId ≠ owner
    }.observe (.revoked owner)

end SftpDownloadTargetAuthorizationRegistry

structure SftpDownloadTarget where
  localPath : Text
  transferId : Text

inductive SftpStartTaskRequest
  | download (path : Text) (target : SftpDownloadTarget)
  | other

structure SftpTaskData where
  isDownload : Bool
  transferId : Option Text
  state : SftpTaskState
  errorCode : Option String

def SFTP_SESSION_NOT_FOUND : String := "SFTP_SESSION_NOT_FOUND"

section

variable (canonical : Text → Text) (registry : SftpDownloadTargetAuthorizationRegistry)

def authorizeSftpTaskStartRequest (owner : Nat) :
    SftpStartTaskRequest → Except String SftpStartTaskRequest × SftpDownloadTargetAuthorizationRegistry
  | .other => (.ok .other, registry)
  | .download path target =>
    match registry.consumeForTransfer canonical owner target.localPath target.transferId with
    | (.error message, registry) => (.error message, registry)
    | (.ok localPath, registry) => (.ok (.download path { target with localPath }), registry)

def settleRejectedSftpTaskStart (owner : Nat) (code : String) :
    SftpStartTaskRequest → SftpDownloadTargetAuthorizationRegistry
  | .other => registry
  | .download _ target =>
    if code = SFTP_SESSION_NOT_FOUND then registry.allowTransferRetry owner target.transferId
    else registry.completeTransfer owner target.transferId

def observeSftpTaskForDownloadAuthorization (owner : Nat) (task : SftpTaskData) :
    SftpDownloadTargetAuthorizationRegistry :=
  match task.transferId with
  | none => registry
  | some transferId =>
    if task.isDownload = false ∨ transferId = [] ∨ isTerminalState task.state = false then registry
    else if task.errorCode = some SFTP_SESSION_NOT_FOUND then registry.allowTransferRetry owner transferId
    else registry.completeTransfer owner transferId

end

inductive RegistryEvent
  | authorize (owner : Nat) (candidatePath : Text) (reusable : Bool)
  | consume (owner : Nat) (candidatePath : Text)
  | consumeForTransfer (owner : Nat) (candidatePath transferId : Text)
  | allowTransferRetry (owner : Nat) (transferId : Text)
  | completeTransfer (owner : Nat) (transferId : Text)
  | revokeOwner (owner : Nat)
  | startTask (owner : Nat) (request : SftpStartTaskRequest)
  | rejectTask (owner : Nat) (request : SftpStartTaskRequest) (code : String)
  | observeTask (owner : Nat) (task : SftpTaskData)
  | advance (milliseconds : Nat)

def stepRegistry (canonical : Text → Text) (registry : SftpDownloadTargetAuthorizationRegistry) :
    RegistryEvent → SftpDownloadTargetAuthorizationRegistry
  | .authorize owner candidatePath reusable => (registry.authorize canonical owner candidatePath reusable).2
  | .consume owner candidatePath => (registry.consume canonical owner candidatePath none).2
  | .consumeForTransfer owner candidatePath transferId =>
    (registry.consumeForTransfer canonical owner candidatePath transferId).2
  | .allowTransferRetry owner transferId => registry.allowTransferRetry owner transferId
  | .completeTransfer owner transferId => registry.completeTransfer owner transferId
  | .revokeOwner owner => registry.revokeOwner owner
  | .startTask owner request => (authorizeSftpTaskStartRequest canonical registry owner request).2
  | .rejectTask owner request code => settleRejectedSftpTaskStart registry owner code request
  | .observeTask owner task => observeSftpTaskForDownloadAuthorization registry owner task
  | .advance milliseconds => { registry with now := registry.now + milliseconds }

def newRegistry : SftpDownloadTargetAuthorizationRegistry := ⟨.empty, .empty, 0, []⟩

def downloadAuthorizations (canonical : Text → Text) :
    Transition.Machine SftpDownloadTargetAuthorizationRegistry RegistryEvent where
  initial registry := ∃ now, registry = { newRegistry with now := now }
  step := stepRegistry canonical

end MainProcess
