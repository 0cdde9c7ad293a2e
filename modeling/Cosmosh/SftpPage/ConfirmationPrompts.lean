import Cosmosh.Library.Answers
import Cosmosh.Library.Transition

/-! # The confirmations of an SFTP tab

An operation that asks for a confirmation waits for a promise.
-/

namespace SftpPage

open Library.Answers Library.Transition

structure HostFingerprintPrompt where
  serverId : String
  host : String
  port : Nat
  fingerprint : String
  deriving DecidableEq

inductive SftpDeleteInvocationSource
  | action
  | shortcut
  deriving DecidableEq

structure SftpDeleteConfirmationPrompt (Entry : Type) where
  entries : List Entry
  source : SftpDeleteInvocationSource
  deriving DecidableEq

structure SftpUploadConflictConfirmationPrompt where
  remotePath : String
  name : String
  localPath : String
  size : Nat
  modifiedAt : String
  deriving DecidableEq

abbrev RequestId := Nat

inductive ConfirmationKind
  | host_fingerprint
  | delete
  | upload_conflict
  deriving DecidableEq

inductive ConfirmationPrompt (Entry : Type)
  | host_fingerprint (prompt : HostFingerprintPrompt)
  | delete (prompt : SftpDeleteConfirmationPrompt Entry)
  | upload_conflict (prompt : SftpUploadConflictConfirmationPrompt)
  deriving DecidableEq

def ConfirmationPrompt.kind {Entry : Type} : ConfirmationPrompt Entry → ConfirmationKind
  | .host_fingerprint _ => .host_fingerprint
  | .delete _ => .delete
  | .upload_conflict _ => .upload_conflict

structure QueuedUploadConflictConfirmation where
  prompt : SftpUploadConflictConfirmationPrompt
  resolve : RequestId
  deriving DecidableEq

/-- The state and the references of the hook, the requests made so far and the calls of their resolvers. -/
structure ConfirmationPrompts (Entry : Type) where
  hostFingerprintPrompt : Option HostFingerprintPrompt
  deleteConfirmationPrompt : Option (SftpDeleteConfirmationPrompt Entry)
  uploadConflictConfirmationPrompt : Option SftpUploadConflictConfirmationPrompt
  pendingPromptResolver : Option RequestId
  pendingDeleteConfirmationResolver : Option RequestId
  pendingUploadConflictResolver : Option RequestId
  pendingUploadConflictQueue : List QueuedUploadConflictConfirmation
  requests : List (ConfirmationPrompt Entry)
  settled : List (RequestId × Bool)

namespace ConfirmationPrompts

variable {Entry : Type} (prompts : ConfirmationPrompts Entry)

def callResolver (resolver : Option RequestId) (accepted : Bool) : List (RequestId × Bool) := resolver.toList.map fun id => (id, accepted)

def requestHostFingerprintTrust (prompt : HostFingerprintPrompt) : ConfirmationPrompts Entry :=
  { prompts with
    requests := prompts.requests ++ [.host_fingerprint prompt]
    pendingPromptResolver := some prompts.requests.length
    hostFingerprintPrompt := some prompt }

def resolveHostFingerprintPrompt (accepted : Bool) : ConfirmationPrompts Entry :=
  { prompts with
    settled := prompts.settled ++ callResolver prompts.pendingPromptResolver accepted
    pendingPromptResolver := none
    hostFingerprintPrompt := none }

def requestDeleteConfirmation (entriesToDelete : List Entry) (source : SftpDeleteInvocationSource) : ConfirmationPrompts Entry :=
  { prompts with
    requests := prompts.requests ++ [.delete ⟨entriesToDelete, source⟩]
    pendingDeleteConfirmationResolver := some prompts.requests.length
    deleteConfirmationPrompt := some ⟨entriesToDelete, source⟩ }

def resolveDeleteConfirmationPrompt (accepted : Bool) : ConfirmationPrompts Entry :=
  { prompts with
    settled := prompts.settled ++ callResolver prompts.pendingDeleteConfirmationResolver accepted
    pendingDeleteConfirmationResolver := none
    deleteConfirmationPrompt := none }

def activateNextUploadConflictPrompt : ConfirmationPrompts Entry :=
  match prompts.pendingUploadConflictResolver, prompts.pendingUploadConflictQueue with
  | some _, _ => prompts
  | none, [] => { prompts with uploadConflictConfirmationPrompt := none }
  | none, next :: rest =>
    { prompts with
      pendingUploadConflictQueue := rest
      pendingUploadConflictResolver := some next.resolve
      uploadConflictConfirmationPrompt := some next.prompt }

def requestUploadConflictConfirmation (prompt : SftpUploadConflictConfirmationPrompt) : ConfirmationPrompts Entry :=
  let queued : ConfirmationPrompts Entry := { prompts with
    requests := prompts.requests ++ [.upload_conflict prompt]
    pendingUploadConflictQueue := prompts.pendingUploadConflictQueue ++ [⟨prompt, prompts.requests.length⟩] }
  queued.activateNextUploadConflictPrompt

def resolveUploadConflictConfirmationPrompt (accepted : Bool) : ConfirmationPrompts Entry :=
  let resolved : ConfirmationPrompts Entry := { prompts with
    settled := prompts.settled ++ callResolver prompts.pendingUploadConflictResolver accepted
    pendingUploadConflictResolver := none }
  resolved.activateNextUploadConflictPrompt

def cancelUploadConflictConfirmationPrompt : ConfirmationPrompts Entry :=
  { prompts with
    settled := prompts.settled ++ callResolver prompts.pendingUploadConflictResolver false ++
      prompts.pendingUploadConflictQueue.map fun queued => (queued.resolve, false)
    pendingUploadConflictResolver := none
    pendingUploadConflictQueue := []
    uploadConflictConfirmationPrompt := none }

def shown : ConfirmationKind → Option (ConfirmationPrompt Entry)
  | .host_fingerprint => prompts.hostFingerprintPrompt.map .host_fingerprint
  | .delete => prompts.deleteConfirmationPrompt.map .delete
  | .upload_conflict => prompts.uploadConflictConfirmationPrompt.map .upload_conflict

def held : List RequestId :=
  prompts.pendingPromptResolver.toList ++ prompts.pendingDeleteConfirmationResolver.toList ++
    prompts.pendingUploadConflictResolver.toList ++ prompts.pendingUploadConflictQueue.map (·.resolve)

end ConfirmationPrompts

inductive ConfirmationEvent (Entry : Type)
  | request_host (prompt : HostFingerprintPrompt)
  | request_delete (entriesToDelete : List Entry) (source : SftpDeleteInvocationSource)
  | request_upload (prompt : SftpUploadConflictConfirmationPrompt)
  | resolve (kind : ConfirmationKind) (accepted : Bool)
  | cancel_upload
  deriving DecidableEq

namespace ConfirmationPrompts

variable {Entry : Type} (prompts : ConfirmationPrompts Entry)

def step : ConfirmationEvent Entry → ConfirmationPrompts Entry
  | .request_host prompt => prompts.requestHostFingerprintTrust prompt
  | .request_delete entriesToDelete source => prompts.requestDeleteConfirmation entriesToDelete source
  | .request_upload prompt => prompts.requestUploadConflictConfirmation prompt
  | .resolve .host_fingerprint accepted => prompts.resolveHostFingerprintPrompt accepted
  | .resolve .delete accepted => prompts.resolveDeleteConfirmationPrompt accepted
  | .resolve .upload_conflict accepted => prompts.resolveUploadConflictConfirmationPrompt accepted
  | .cancel_upload => prompts.cancelUploadConflictConfirmationPrompt

end ConfirmationPrompts

def noPrompts (Entry : Type) : ConfirmationPrompts Entry := ⟨none, none, none, none, none, none, [], [], []⟩

def confirmationPrompts (Entry : Type) : Machine (ConfirmationPrompts Entry) (ConfirmationEvent Entry) where
  initial := fun prompts => prompts = noPrompts Entry
  step := ConfirmationPrompts.step

namespace ConfirmationPrompts

variable {Entry : Type}

structure Settles (prompts : ConfirmationPrompts Entry) : Prop where
  once : (prompts.settled.map Prod.fst).Nodup
  known : ∀ id ∈ prompts.settled.map Prod.fst, id < prompts.requests.length
  kept : ∀ id < prompts.requests.length, id ∉ prompts.settled.map Prod.fst → id ∈ prompts.held
  none_left : ∀ id request, prompts.requests[id]? = some request → prompts.shown request.kind = none →
    id ∈ prompts.settled.map Prod.fst

def AcceptsShown (prompts : ConfirmationPrompts Entry) (event : ConfirmationEvent Entry) : Prop :=
  ∀ id, (id, true) ∈ (prompts.step event).settled → (id, true) ∈ prompts.settled ∨
    ∃ request, prompts.requests[id]? = some request ∧ prompts.shown request.kind = some request ∧ event = .resolve request.kind true

def oneAtATime (prompts : ConfirmationPrompts Entry) : ConfirmationEvent Entry → Bool
  | .request_host _ => prompts.pendingPromptResolver.isNone
  | .request_delete .. => prompts.pendingDeleteConfirmationResolver.isNone
  | _ => true

end ConfirmationPrompts

end SftpPage
