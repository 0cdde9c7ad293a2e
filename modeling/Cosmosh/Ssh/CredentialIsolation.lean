import Cosmosh.Library.Transition
import Cosmosh.Ssh.RequestAtomicity

/-! # Whose credentials an update changes

A server's own update rewrites its hidden keychain in place.
-/

namespace Ssh

open Library Library.Transition

inductive Request
  | server (write : ServerWrite)
  | deleteServer (serverId : Option RecordId)
  | createKeychain (payload : KeychainPayload)
  | updateKeychain (keychainId : Option RecordId) (payload : KeychainPayload)
  | deleteKeychain (keychainId : Option RecordId)

def handle (env : Environment) : Request → Database → Response × Database
  | .server write => serverWrite env write
  | .deleteServer serverId => deleteServerHandler serverId
  | .createKeychain payload => createKeychainHandler env payload
  | .updateKeychain keychainId payload => updateKeychainHandler env keychainId payload
  | .deleteKeychain keychainId => deleteKeychainHandler keychainId

def requests : Machine Database (Environment × Request) where
  initial db := db.servers.rows = [] ∧ db.keychains.rows = []
  step db event := (handle event.1 event.2 db).2

structure Login where
  password : Option String
  privateKey : Option String
  passphrase : Option String
  deriving DecidableEq

def loginSecret (decrypt : String → Option String) (uses needed : Bool) (stored : Option String) :
    Option (Option String) :=
  if uses && truthy stored then (stored.bind decrypt).map some
  else if uses && needed then none
  else some none

/-- The part of `openSshClient` that fills the connect configuration. -/
def loginOf (decrypt : String → Option String) (m : CredentialMaterial) : Option Login := do
  let password ← loginSecret decrypt (usesPassword m.authType) true m.passwordEncrypted
  let privateKey ← loginSecret decrypt (usesPrivateKey m.authType) true m.privateKeyEncrypted
  let passphrase ← loginSecret decrypt (usesPrivateKey m.authType) false m.privateKeyPassphraseEncrypted
  return ⟨password, privateKey, passphrase⟩

def keychainOfServer (db : Database) (serverId : RecordId) : Option SshKeychain :=
  (db.servers.find serverId).bind fun server => db.keychains.find server.keychainId

def logsInWith (decrypt : String → Option String) (db : Database) (serverId : RecordId) : Option Login :=
  (keychainOfServer db serverId).bind fun keychain => loginOf decrypt keychain.toCredentialMaterial

def Isolated (decrypt : String → Option String) (env : Environment) (db : Database) (serverId : RecordId)
    (request : ApiSshUpdateServerRequest) : Prop :=
  ∀ other, other ≠ serverId →
    logsInWith decrypt (handle env (.server (.update (some serverId) (.ok request))) db).2 other =
      logsInWith decrypt db other

/-- The update rewrites a hidden keychain that another server is on, to another login. -/
structure RewritesShared (decrypt : String → Option String) (env : Environment) (db : Database) (serverId : RecordId)
    (request : ApiSshUpdateServerRequest) (server other : SshServer) (keychain : SshKeychain)
    (material : CredentialMaterial) : Prop where
  found : db.servers.find serverId = some server
  owned : db.keychains.find server.keychainId = some keychain
  checked : referenceError db request.folderId (request.tagIds.getD []) = none
  complete : inlineMaterial env request.toServerFields (some keychain) = some material
  hidden : keychain.visibility = .hidden
  otherFound : db.servers.find other.id = some other
  otherServer : other.id ≠ serverId
  sharing : other.keychainId = keychain.id
  changes : loginOf decrypt material ≠ loginOf decrypt keychain.toCredentialMaterial

def Disturbs (decrypt : String → Option String) (env : Environment) (db : Database) (serverId : RecordId)
    (request : ApiSshUpdateServerRequest) : Prop :=
  ∃ server other keychain material, RewritesShared decrypt env db serverId request server other keychain material

def Referenced (db : Database) : Prop := ∀ server ∈ db.servers.rows, db.keychains.find server.keychainId ≠ none

def NoUnusedHidden (db : Database) : Prop :=
  ∀ keychain ∈ db.keychains.rows, keychain.visibility = .hidden →
    ∃ server ∈ db.servers.rows, server.keychainId = keychain.id

def SingleUse (db : Database) : Prop :=
  ∀ keychain ∈ db.keychains.rows, keychain.visibility = .hidden → ∀ a ∈ db.servers.rows, ∀ b ∈ db.servers.rows,
    a.keychainId = keychain.id → b.keychainId = keychain.id → a.id = b.id

def KeepsSingleUse (db : Database) : Request → Prop
  | .server (.create (.ok request)) =>
    ∀ id, request.keychainId = some id → ∀ keychain, db.keychains.find id = some keychain →
      keychain.visibility = .hidden → ∀ server ∈ db.servers.rows, server.keychainId ≠ id
  | .server (.update (some serverId) (.ok request)) =>
    ∀ id, request.keychainId = some id → ∀ keychain, db.keychains.find id = some keychain →
      keychain.visibility = .hidden → ∀ server ∈ db.servers.rows, server.keychainId = id → server.id = serverId
  | .updateKeychain (some id) payload =>
    payload.visibility.visibility = .hidden → ∀ a ∈ db.servers.rows, ∀ b ∈ db.servers.rows,
      a.keychainId = id → b.keychainId = id → a.id = b.id
  | _ => True

variable {row : SshKeychain} {id : RecordId} {write : SshServer → SshServer} {server : SshServer}

section Calls

variable {db db' : Database}

theorem Referenced.of_kept (h : Referenced db) (hServers : ∀ s ∈ db'.servers.rows, s ∈ db.servers.rows)
    (hKeychains : ∀ s ∈ db'.servers.rows, db.keychains.find s.keychainId ≠ none → db'.keychains.find s.keychainId ≠ none) : Referenced db' :=
  fun server hMem => hKeychains server hMem (h server (hServers server hMem))

theorem Referenced.storing (h : Referenced db) (hFresh : db.keychains.find row.id = none) : Referenced (db.storing row hFresh) := by
  refine h.of_kept (fun _ hMem => hMem) fun server _ hFound => ?_
  simp only [Database.storing, Table.find_insert]
  split
  · exact Option.some_ne_none row
  · exact hFound

theorem Referenced.modify (h : Referenced db) (id : RecordId) (write : SshKeychain → SshKeychain) (hKey : ∀ r, (write r).id = r.id) :
    Referenced { db with keychains := db.keychains.modify id write hKey } := by
  refine h.of_kept (fun _ hMem => hMem) fun server _ hFound => ?_
  rw [Table.find_modify]
  split
  · next hSame =>
    rw [← hSame]
    simpa using hFound
  · exact hFound

theorem Referenced.rewriting (h : Referenced db) (id : RecordId) (now : Nat) (material : CredentialMaterial) :
    Referenced (db.rewriting id now material) := h.modify id _ _

theorem find_cleanup (db : Database) (h : server ∈ db.servers.rows) :
    db.cleanupUnusedHiddenKeychains.keychains.find server.keychainId = db.keychains.find server.keychainId := by
  apply Table.find_removeWhere_of_kept
  intro keychain hFind
  have hId : server.keychainId = keychain.id := (Table.key_of_find hFind).symm
  have hUsed : db.servers.rows.any (fun s => decide (s.keychainId = keychain.id)) = true := List.any_eq_true.mpr ⟨server, h, decide_eq_true hId⟩
  simp [hUsed]

theorem Referenced.cleanup (h : Referenced db) : Referenced db.cleanupUnusedHiddenKeychains := by
  refine h.of_kept (fun _ hMem => hMem) fun server hMem hFound => ?_
  rwa [find_cleanup db hMem]

theorem noUnusedHidden_cleanup (db : Database) : NoUnusedHidden db.cleanupUnusedHiddenKeychains := by
  intro keychain hMem hHidden
  obtain ⟨_, hKept⟩ := Table.mem_removeWhere.mp hMem
  simp only [hHidden, decide_true, Bool.true_and, Bool.not_eq_false', List.any_eq_true, decide_eq_true_eq] at hKept
  exact hKept

theorem Database.createKeychain_ok (hOk : db.createKeychain row = .ok db') : ∃ h : db.keychains.find row.id = none, db' = db.storing row h := by
  unfold createKeychain at hOk
  split at hOk
  · next hFresh =>
    cases hOk
    exact ⟨hFresh, rfl⟩
  · contradiction

theorem Database.updateKeychain_ok {write : SshKeychain → SshKeychain} {hKey : ∀ r, (write r).id = r.id}
    (hOk : db.updateKeychain id write hKey = .ok db') : db' = { db with keychains := db.keychains.modify id write hKey } := by
  unfold updateKeychain at hOk
  split at hOk
  · contradiction
  · cases hOk
    rfl

theorem Database.createServer_ok {row : SshServer} (hOk : db.createServer row = .ok db') : db.keychains.find row.keychainId ≠ none ∧
      ∃ h : db.servers.find row.id = none, db' = { db with servers := db.servers.insert row h } := by
  unfold createServer at hOk
  split at hOk
  · contradiction
  · split at hOk
    · next hFresh =>
      split at hOk
      · contradiction
      · next hKeychain =>
        cases hOk
        exact ⟨hKeychain, hFresh, rfl⟩
    · contradiction

theorem Database.updateServer_ok {hKey : ∀ r, (write r).id = r.id} (hOk : db.updateServer id write hKey = .ok db') :
    ∃ server, db.servers.find id = some server ∧ db.keychains.find (write server).keychainId ≠ none ∧
      db' = { db with servers := db.servers.modify id write hKey } := by
  unfold updateServer at hOk
  split at hOk
  · contradiction
  · next server hServer =>
    split at hOk
    · contradiction
    · split at hOk
      · contradiction
      · next hKeychain =>
        cases hOk
        exact ⟨server, hServer, hKeychain, rfl⟩

theorem Referenced.createServer (h : Referenced db) {row : SshServer} (hOk : db.createServer row = .ok db') : Referenced db' := by
  obtain ⟨hKeychain, hFresh, rfl⟩ := Database.createServer_ok hOk
  intro server hMem
  rcases (Table.mem_insert hFresh).mp hMem with hOld | rfl
  · exact h server hOld
  · exact hKeychain

theorem Referenced.updateServer (h : Referenced db) {hKey : ∀ r, (write r).id = r.id}
    (hOk : db.updateServer id write hKey = .ok db') : Referenced db' := by
  obtain ⟨row, hRow, hKeychain, rfl⟩ := Database.updateServer_ok hOk
  intro server hMem
  rcases (Table.mem_modify hKey).mp hMem with ⟨hOld, _⟩ | ⟨old, hOld, hId, rfl⟩
  · exact h server hOld
  · rw [db.servers.eq_of_key hOld (Table.mem_of_find hRow) (hId.trans (Table.key_of_find hRow).symm)]
    exact hKeychain

theorem Database.deleteServer_ok (hOk : db.deleteServer id = .ok db') : db' = { db with servers := db.servers.removeWhere (·.id = id) } := by
  unfold deleteServer at hOk
  split at hOk
  · contradiction
  · cases hOk
    rfl

theorem Database.deleteKeychain_ok (hOk : db.deleteKeychain id = .ok db') : (∀ server ∈ db.servers.rows, server.keychainId ≠ id) ∧
      db' = { db with keychains := db.keychains.removeWhere (·.id = id) } := by
  unfold deleteKeychain at hOk
  split at hOk
  · contradiction
  · split at hOk
    · contradiction
    · next hUnused =>
      cases hOk
      refine ⟨fun server hMem hSame => ?_, rfl⟩
      exact hUnused (List.any_eq_true.mpr ⟨server, hMem, decide_eq_true hSame⟩)

theorem Referenced.deleteServer (h : Referenced db) (hOk : db.deleteServer id = .ok db') : Referenced db' := by
  rw [Database.deleteServer_ok hOk]
  exact h.of_kept (fun server hMem => (Table.mem_removeWhere.mp hMem).1) fun _ _ hFound => hFound

theorem Referenced.deleteKeychain (h : Referenced db) (hOk : db.deleteKeychain id = .ok db') : Referenced db' := by
  obtain ⟨hUnused, rfl⟩ := Database.deleteKeychain_ok hOk
  refine h.of_kept (fun _ hMem => hMem) fun server hMem hFound => ?_
  rw [Table.find_removeWhere_of_kept]
  · exact hFound
  · intro keychain hFind
    rw [decide_eq_false_iff_not, Table.key_of_find hFind]
    exact hUnused server hMem

theorem Referenced.tags (h : Referenced db) : Referenced db.cleanupUnusedSshTags := h

end Calls

inductive Chosen (env : Environment) (input : ServerFields) (existing : Option SshKeychain) (db : Database) :
    RecordId → Database → Prop
  | named {id : RecordId} (h : input.keychainId = some id) : Chosen env input existing db id db
  | rewritten {keychain : SshKeychain} {material : CredentialMaterial} (hExisting : existing = some keychain)
      (hFind : db.keychains.find keychain.id = some keychain) :
      Chosen env input existing db keychain.id (db.rewriting keychain.id env.now material)
  | stored {material : CredentialMaterial} (h : db.keychains.find (hiddenKeychain env input.name material).id = none) :
      Chosen env input existing db env.keychainId (db.storing (hiddenKeychain env input.name material) h)

section Chosen

variable {env : Environment} {input : ServerFields} {existing : Option SshKeychain} {db db' : Database} {id : RecordId}

theorem chosen_of_keychainOf (hFind : ∀ k ∈ existing, db.keychains.find k.id = some k)
    (h : keychainOf env input existing db = .ok (some id, db')) : Chosen env input existing db id db' := by
  unfold keychainOf at h
  split at h
  · next hNamed =>
    cases h
    exact .named hNamed
  · cases hMaterial : inlineMaterial env input existing with
    | none =>
      rw [ensureInline_of_incomplete hMaterial] at h
      cases h
    | some material =>
      by_cases hHidden : ∃ keychain, existing = some keychain ∧ keychain.visibility = .hidden
      · obtain ⟨keychain, rfl, hHidden⟩ := hHidden
        have hOwn := hFind keychain rfl
        rw [ensureInline_of_hidden hMaterial hHidden hOwn] at h
        cases h
        exact .rewritten rfl hOwn
      · have hNone : ∀ k ∈ existing, k.visibility = .shared := by
          intro k hMem
          cases hVisibility : k.visibility with
          | hidden => exact absurd ⟨k, hMem, hVisibility⟩ hHidden
          | shared => rfl
        by_cases hFresh : db.keychains.find (hiddenKeychain env input.name material).id = none
        · rw [ensureInline_of_fresh hMaterial hNone hFresh] at h
          cases h
          exact .stored hFresh
        · rw [ensureInline_of_taken hMaterial hNone hFresh] at h
          cases h

theorem same_of_keychainOf (h : keychainOf env input existing db = .ok (none, db')) : db' = db := by
  unfold keychainOf at h
  split at h
  · cases h
  · unfold ensureInlineCredentialKeychain at h
    split at h
    · cases h
      rfl
    · split at h
      · simp only [Except.map] at h
        split at h <;> cases h
      · simp only [Except.map] at h
        split at h <;> cases h

theorem Chosen.servers (h : Chosen env input existing db id db') : db'.servers = db.servers := by
  cases h <;> rfl

theorem Chosen.referenced (h : Chosen env input existing db id db') (hReferenced : Referenced db) : Referenced db' := by
  cases h with
  | named => exact hReferenced
  | rewritten => exact hReferenced.rewriting _ _ _
  | stored hFresh => exact hReferenced.storing hFresh

end Chosen

variable {payload : KeychainPayload}

section Routes

variable {env : Environment} {db : Database}

variable {P : Database → Prop}

theorem createServerHandler_keeps {parsed : Except ValidationError ApiSshCreateServerRequest} (hStart : P db)
    (hChosen : ∀ request id db', parsed = .ok request → Chosen env request.toServerFields none db id db' → P db' ∧
      ∀ db'', db'.createServer (createdServer env request id) = .ok db'' → P db'') : P (createServerHandler env parsed db).2 := by
  unfold createServerHandler
  split
  · exact hStart
  · next request =>
    split
    · exact hStart
    · split
      · exact hStart
      · split
        · exact hStart
        · next hNone =>
          rw [same_of_keychainOf hNone]
          exact hStart
        · next id db' hSome =>
          obtain ⟨hKept, hStored⟩ := hChosen request id db' rfl (chosen_of_keychainOf (by simp) hSome)
          unfold createServerWith
          split
          · exact hKept
          · next db'' hOk => exact hStored db'' hOk

def cleanedUp (request : ApiSshUpdateServerRequest) (moved : Prop) [Decidable moved] (db : Database) : Database :=
  let tagged := if request.tagIds.isSome then db.cleanupUnusedSshTags else db
  if moved then tagged.cleanupUnusedHiddenKeychains else tagged

theorem cleanedUp_keeps (hStart : P db) (request : ApiSshUpdateServerRequest) (moved : Prop) [Decidable moved]
    (hTags : ∀ db, P db → P db.cleanupUnusedSshTags) (hKeychains : ∀ db, P db → P db.cleanupUnusedHiddenKeychains) :
    P (cleanedUp request moved db) := by
  unfold cleanedUp
  have hTagged : P (if request.tagIds.isSome then db.cleanupUnusedSshTags else db) := by
    split
    · exact hTags db hStart
    · exact hStart
  simp only
  split
  · exact hKeychains _ hTagged
  · exact hTagged

theorem updateServerHandler_keeps {serverId : Option RecordId} {parsed : Except ValidationError ApiSshUpdateServerRequest}
    (hStart : P db) (hChosen : ∀ server keychain request id db', db.servers.find server.id = some server →
      db.keychains.find server.keychainId = some keychain → serverId = some server.id → parsed = .ok request →
      Chosen env request.toServerFields (some keychain) db id db' → P db' ∧
      ∀ db'', db'.updateServer server.id (SshServer.withRequest env request id) (SshServer.withRequest_id env request id) = .ok db'' →
        P (cleanedUp request (server.keychainId ≠ id) db'')) : P (updateServerHandler env serverId parsed db).2 := by
  unfold updateServerHandler
  split
  · exact hStart
  · exact hStart
  · next serverId request =>
    split
    · exact hStart
    · next server hServer =>
      split
      · exact hStart
      · next keychain hKeychain =>
        split
        · exact hStart
        · split
          · exact hStart
          · split
            · exact hStart
            · next hNone =>
              rw [same_of_keychainOf hNone]
              exact hStart
            · next id db' hSome =>
              have hOwn : ∀ k ∈ some keychain, db.keychains.find k.id = some k := by
                intro k hMem
                obtain rfl : keychain = k := Option.some.inj hMem
                exact find_keychain_id hKeychain
              have hId : server.id = serverId := Table.key_of_find hServer
              subst hId
              obtain ⟨hKept, hStored⟩ := hChosen server keychain request id db' hServer hKeychain rfl rfl
                (chosen_of_keychainOf hOwn hSome)
              unfold updateServerWith
              split
              · exact hKept
              · next db'' hOk => exact hStored db'' hOk

theorem createKeychainHandler_keeps (hStart : P db)
    (hStored : ∀ name authType db', db.createKeychain (createdKeychain env payload name authType) = .ok db' → P db') :
    P (createKeychainHandler env payload db).2 := by
  unfold createKeychainHandler
  split
  · exact hStart
  · split
    · exact hStart
    · split
      · exact hStart
      · split
        · exact hStart
        · exact hStart
        · next db' hOk => exact hStored _ _ db' hOk

theorem updateKeychainHandler_keeps {keychainId : Option RecordId} (hStart : P db) (hStored : ∀ id name material db', keychainId = some id →
      db.updateKeychain id (SshKeychain.withPayload env payload name material)
        (SshKeychain.withPayload_id env payload name material) = .ok db' → P db') : P (updateKeychainHandler env keychainId payload db).2 := by
  unfold updateKeychainHandler
  split
  · exact hStart
  · exact hStart
  · split
    · exact hStart
    · simp only
      split
      · exact hStart
      · split
        · exact hStart
        · split
          · exact hStart
          · next db' hOk => exact hStored _ _ _ db' rfl hOk

theorem deleteKeychainHandler_keeps {keychainId : Option RecordId} (hStart : P db)
    (hDeleted : ∀ id db', db.deleteKeychain id = .ok db' → P db') : P (deleteKeychainHandler keychainId db).2 := by
  unfold deleteKeychainHandler
  split
  · exact hStart
  · split
    · exact hStart
    · split
      · exact hStart
      · exact hStart
      · next db' hOk => exact hDeleted _ db' hOk

theorem deleteServerHandler_keeps {serverId : Option RecordId} (hStart : P db) (hDeleted : ∀ id db', db.deleteServer id = .ok db' →
      P db'.cleanupUnusedSshTags.cleanupUnusedHiddenKeychains) : P (deleteServerHandler serverId db).2 := by
  unfold deleteServerHandler
  split
  · exact hStart
  · split
    · exact hStart
    · exact hStart
    · next db' hOk => exact hDeleted _ db' hOk

end Routes

section Referenced

variable {env : Environment} {db : Database}

theorem Referenced.cleanedUp (h : Referenced db) (request : ApiSshUpdateServerRequest) (moved : Prop)
    [Decidable moved] : Referenced (cleanedUp request moved db) := cleanedUp_keeps h request moved (fun _ => .tags) fun _ => .cleanup

theorem Referenced.handle (h : Referenced db) (request : Request) : Referenced (handle env request db).2 := by
  cases request with
  | server write =>
    cases write with
    | create parsed =>
      refine createServerHandler_keeps h fun request id db' _ hChosen => ?_
      have hKept := hChosen.referenced h
      exact ⟨hKept, fun db'' hOk => hKept.createServer hOk⟩
    | update serverId parsed =>
      refine updateServerHandler_keeps h fun server keychain request id db' _ _ _ _ hChosen => ?_
      have hKept := hChosen.referenced h
      exact ⟨hKept, fun db'' hOk => (hKept.updateServer hOk).cleanedUp request _⟩
  | deleteServer serverId =>
    exact deleteServerHandler_keeps h fun id db' hOk => (h.deleteServer hOk).tags.cleanup
  | createKeychain payload =>
    refine createKeychainHandler_keeps h fun name authType db' hOk => ?_
    obtain ⟨hFresh, rfl⟩ := Database.createKeychain_ok hOk
    exact h.storing hFresh
  | updateKeychain keychainId payload =>
    refine updateKeychainHandler_keeps h fun id name material db' _ hOk => ?_
    rw [Database.updateKeychain_ok hOk]
    exact h.modify _ _ _
  | deleteKeychain keychainId =>
    exact deleteKeychainHandler_keeps h fun id db' hOk => h.deleteKeychain hOk

theorem requests_referenced (h : requests.Reachable db) : Referenced db := by
  refine h.invariant ?_ ?_
  · rintro db ⟨hServers, _⟩ server hMem
    rw [hServers] at hMem
    contradiction
  · intro db event _ hReferenced
    exact hReferenced.handle event.2

end Referenced

section SingleUse

variable {env : Environment} {db db' : Database}

section

variable (h : SingleUse db)
include h

theorem SingleUse.of_kept (hServers : ∀ s ∈ db'.servers.rows, s ∈ db.servers.rows)
    (hKeychains : ∀ k ∈ db'.keychains.rows, k.visibility = .hidden →
      ∃ old ∈ db.keychains.rows, old.id = k.id ∧ old.visibility = .hidden) : SingleUse db' := by
  intro keychain hMem hHidden a hA b hB hOnA hOnB
  obtain ⟨old, hOld, hId, hOldHidden⟩ := hKeychains keychain hMem hHidden
  exact h old hOld hOldHidden a (hServers a hA) b (hServers b hB) (hOnA.trans hId.symm) (hOnB.trans hId.symm)

theorem SingleUse.storing (hReferenced : Referenced db) (hFresh : db.keychains.find row.id = none) : SingleUse (db.storing row hFresh) := by
  intro keychain hMem hHidden a hA b hB hOnA hOnB
  rcases (Table.mem_insert hFresh).mp hMem with hOld | rfl
  · exact h keychain hOld hHidden a hA b hB hOnA hOnB
  · exact absurd (hOnA ▸ hFresh) (hReferenced a hA)

theorem SingleUse.rewriting (id : RecordId) (now : Nat) (material : CredentialMaterial) : SingleUse (db.rewriting id now material) := by
  refine h.of_kept (fun _ hMem => hMem) fun keychain hMem hHidden => ?_
  rcases (Table.mem_modify (SshKeychain.withMaterial_id now material)).mp hMem with
    ⟨hOld, _⟩ | ⟨old, hOld, _, rfl⟩
  · exact ⟨keychain, hOld, rfl, hHidden⟩
  · exact ⟨old, hOld, rfl, hHidden⟩

theorem SingleUse.removing (p : SshKeychain → Bool) : SingleUse { db with keychains := db.keychains.removeWhere p } :=
  h.of_kept (fun _ hMem => hMem) fun keychain hMem hHidden =>
    ⟨keychain, (Table.mem_removeWhere.mp hMem).1, rfl, hHidden⟩

theorem SingleUse.tags : SingleUse db.cleanupUnusedSshTags := h

theorem SingleUse.cleanup : SingleUse db.cleanupUnusedHiddenKeychains := h.removing _

theorem SingleUse.cleanedUp (request : ApiSshUpdateServerRequest) (moved : Prop) [Decidable moved] : SingleUse (cleanedUp request moved db) :=
  cleanedUp_keeps h request moved (fun _ => .tags) fun _ => .cleanup

theorem SingleUse.createServer {row : SshServer} (hOk : db.createServer row = .ok db')
    (hAlone : ∀ keychain, db.keychains.find row.keychainId = some keychain → keychain.visibility = .hidden →
      ∀ server ∈ db.servers.rows, server.keychainId ≠ row.keychainId) : SingleUse db' := by
  obtain ⟨_, hFresh, rfl⟩ := Database.createServer_ok hOk
  intro keychain hMem hHidden a hA b hB hOnA hOnB
  have hUnused : row.keychainId = keychain.id → ∀ server ∈ db.servers.rows, server.keychainId ≠ keychain.id := by
    intro hOn
    have hFind : db.keychains.find row.keychainId = some keychain := by
      rw [hOn]
      exact Table.find_key hMem
    rw [← hOn]
    exact hAlone keychain hFind hHidden
  rcases (Table.mem_insert hFresh).mp hA with hOldA | rfl <;> rcases (Table.mem_insert hFresh).mp hB with hOldB | rfl
  · exact h keychain hMem hHidden a hOldA b hOldB hOnA hOnB
  · exact absurd hOnA (hUnused hOnB a hOldA)
  · exact absurd hOnB (hUnused hOnA b hOldB)
  · rfl

theorem SingleUse.updateServer {hKey : ∀ r, (write r).id = r.id} (target : RecordId)
    (hTarget : ∀ r, (write r).keychainId = target) (hOk : db.updateServer id write hKey = .ok db')
    (hAlone : ∀ keychain, db.keychains.find target = some keychain → keychain.visibility = .hidden →
      ∀ server ∈ db.servers.rows, server.keychainId = target → server.id = id) : SingleUse db' := by
  obtain ⟨_, _, _, rfl⟩ := Database.updateServer_ok hOk
  intro keychain hMem hHidden a hA b hB hOnA hOnB
  have hOnly : target = keychain.id → ∀ server ∈ db.servers.rows, server.keychainId = keychain.id → server.id = id := by
    rintro rfl
    exact hAlone keychain (Table.find_key hMem) hHidden
  rcases (Table.mem_modify hKey).mp hA with ⟨hOldA, hNotA⟩ | ⟨oldA, _, hIdA, rfl⟩ <;>
    rcases (Table.mem_modify hKey).mp hB with ⟨hOldB, hNotB⟩ | ⟨oldB, _, hIdB, rfl⟩
  · exact h keychain hMem hHidden a hOldA b hOldB hOnA hOnB
  · exact absurd (hOnly ((hTarget oldB).symm.trans hOnB) a hOldA hOnA) hNotA
  · exact absurd (hOnly ((hTarget oldA).symm.trans hOnA) b hOldB hOnB) hNotB
  · rw [hKey, hKey, hIdA, hIdB]

end

theorem Chosen.alone {input : ServerFields} {keychain : SshKeychain} (hChosen : Chosen env input (some keychain) db id db')
    (hReferenced : Referenced db) (h : SingleUse db) (hServer : db.servers.find server.id = some server)
    (hKeychain : db.keychains.find server.keychainId = some keychain)
    (hNamed : ∀ id, input.keychainId = some id → ∀ keychain, db.keychains.find id = some keychain →
      keychain.visibility = .hidden → ∀ other ∈ db.servers.rows, other.keychainId = id → other.id = server.id) :
    ∀ target, db'.keychains.find id = some target → target.visibility = .hidden →
      ∀ other ∈ db'.servers.rows, other.keychainId = id → other.id = server.id := by
  intro target hFind hHidden other hMem hOn
  rw [hChosen.servers] at hMem
  cases hChosen with
  | named hId => exact hNamed id hId target hFind hHidden other hMem hOn
  | rewritten hExisting hOwn =>
    obtain rfl := Option.some.inj hExisting
    have hVisibility : keychain.visibility = .hidden := by
      simp only [Database.rewriting, Table.find_modify, if_pos, hOwn, Option.map_some, Option.some.injEq] at hFind
      rw [← hFind] at hHidden
      exact hHidden
    exact h keychain (Table.mem_of_find hOwn) hVisibility other hMem server (Table.mem_of_find hServer) hOn
      (Table.key_of_find hKeychain).symm
  | stored hFresh => exact absurd (hOn ▸ hFresh) (hReferenced other hMem)

theorem Chosen.singleUse {input : ServerFields} {existing : Option SshKeychain} (hChosen : Chosen env input existing db id db')
    (hReferenced : Referenced db) (h : SingleUse db) : SingleUse db' := by
  cases hChosen with
  | named => exact h
  | rewritten => exact h.rewriting _ _ _
  | stored hFresh => exact h.storing hReferenced hFresh

theorem SingleUse.updateKeychain (h : SingleUse db) {name : String} {material : CredentialMaterial}
    (hOk : db.updateKeychain id (SshKeychain.withPayload env payload name material)
      (SshKeychain.withPayload_id env payload name material) = .ok db')
    (hGuard : KeepsSingleUse db (.updateKeychain (some id) payload)) : SingleUse db' := by
  rw [Database.updateKeychain_ok hOk]
  intro keychain hMem hHidden a hA b hB hOnA hOnB
  rcases (Table.mem_modify (SshKeychain.withPayload_id env payload name material)).mp hMem with
    ⟨hOld, _⟩ | ⟨old, _, hId, rfl⟩
  · exact h keychain hOld hHidden a hA b hB hOnA hOnB
  · exact hGuard hHidden a hA b hB (hOnA.trans hId) (hOnB.trans hId)

theorem SingleUse.handle (h : SingleUse db) (hReferenced : Referenced db) (request : Request)
    (hGuard : KeepsSingleUse db request) : SingleUse (handle env request db).2 := by
  cases request with
  | server write =>
    cases write with
    | create parsed =>
      refine createServerHandler_keeps h fun request id db' hParsed hChosen => ?_
      subst hParsed
      have hKept := hChosen.singleUse hReferenced h
      refine ⟨hKept, fun db'' hOk => hKept.createServer hOk fun keychain hFind hHidden server hMem hOn => ?_⟩
      rw [hChosen.servers] at hMem
      cases hChosen with
      | named hId => exact hGuard id hId keychain hFind hHidden server hMem hOn
      | rewritten hExisting => contradiction
      | stored hFresh => exact absurd (hOn ▸ hFresh) (hReferenced server hMem)
    | update serverId parsed =>
      refine updateServerHandler_keeps h fun server keychain request id db' hServer hKeychain hId hParsed hChosen => ?_
      subst hParsed hId
      have hKept := hChosen.singleUse hReferenced h
      have hAlone := hChosen.alone hReferenced h hServer hKeychain hGuard
      exact ⟨hKept, fun db'' hOk => (hKept.updateServer id (fun _ => rfl) hOk hAlone).cleanedUp request _⟩
  | deleteServer serverId =>
    refine deleteServerHandler_keeps h fun id db' hOk => ?_
    rw [Database.deleteServer_ok hOk]
    have hDeleted : SingleUse { db with servers := db.servers.removeWhere (·.id = id) } :=
      h.of_kept (fun server hMem => (Table.mem_removeWhere.mp hMem).1) fun keychain hMem hHidden =>
        ⟨keychain, hMem, rfl, hHidden⟩
    exact hDeleted.tags.cleanup
  | createKeychain payload =>
    refine createKeychainHandler_keeps h fun name authType db' hOk => ?_
    obtain ⟨hFresh, rfl⟩ := Database.createKeychain_ok hOk
    exact h.storing hReferenced hFresh
  | updateKeychain keychainId payload =>
    refine updateKeychainHandler_keeps h fun id name material db' hId hOk => ?_
    subst hId
    exact h.updateKeychain hOk hGuard
  | deleteKeychain keychainId =>
    refine deleteKeychainHandler_keeps h fun id db' hOk => ?_
    obtain ⟨_, rfl⟩ := Database.deleteKeychain_ok hOk
    exact h.removing _

theorem requests_singleUse (h : requests.ReachableWhile (fun db event => KeepsSingleUse db event.2) db) : Referenced db ∧ SingleUse db := by
  refine Machine.ReachableWhile.invariant (P := fun db => Referenced db ∧ SingleUse db) ?_ ?_ h
  · rintro db ⟨hServers, hKeychains⟩
    constructor
    · intro server hMem
      rw [hServers] at hMem
      contradiction
    · intro keychain hMem
      rw [hKeychains] at hMem
      contradiction
  · rintro db event ⟨hReferenced, hSingle⟩ hGuard
    exact ⟨hReferenced.handle event.2, hSingle.handle hReferenced event.2 hGuard⟩

end SingleUse

section Logins

variable {env : Environment} {db : Database}

theorem keychainOfServer_cleanup (db : Database) (id : RecordId) :
    keychainOfServer db.cleanupUnusedHiddenKeychains id = keychainOfServer db id := by
  unfold keychainOfServer
  have hServers : db.cleanupUnusedHiddenKeychains.servers = db.servers := rfl
  rw [hServers]
  cases hServer : db.servers.find id with
  | none => rfl
  | some server => exact find_cleanup db (Table.mem_of_find hServer)

theorem keychainOfServer_tags (db : Database) (id : RecordId) : keychainOfServer db.cleanupUnusedSshTags id = keychainOfServer db id := rfl

theorem keychainOfServer_cleanedUp (request : ApiSshUpdateServerRequest) (moved : Prop) [Decidable moved]
    (db : Database) (id : RecordId) : keychainOfServer (cleanedUp request moved db) id = keychainOfServer db id := by
  apply cleanedUp_keeps (P := fun db' => keychainOfServer db' id = keychainOfServer db id)
  · rfl
  · exact fun db' hSame => (keychainOfServer_tags db' id).trans hSame
  · exact fun db' hSame => (keychainOfServer_cleanup db' id).trans hSame

theorem keychainOfServer_updateServerWith (server : SshServer) (request : ApiSshUpdateServerRequest) (id : RecordId)
    (db : Database) {other : RecordId} (hOther : other ≠ server.id) :
    keychainOfServer (updateServerWith env server request id db).2 other = keychainOfServer db other := by
  unfold updateServerWith
  split
  · rfl
  · next db' hOk =>
    obtain ⟨_, _, _, rfl⟩ := Database.updateServer_ok hOk
    refine (keychainOfServer_cleanedUp request _ _ other).trans ?_
    unfold keychainOfServer
    rw [Table.find_modify, if_neg hOther]

theorem keychainOfServer_storing (hReferenced : Referenced db) (hFresh : db.keychains.find row.id = none) (id : RecordId) :
    keychainOfServer (db.storing row hFresh) id = keychainOfServer db id := by
  unfold keychainOfServer Database.storing
  cases hServer : db.servers.find id with
  | none => rfl
  | some server =>
    simp only [Option.bind_some, Table.find_insert]
    refine if_neg fun hSame => ?_
    exact hReferenced server (Table.mem_of_find hServer) (hSame ▸ hFresh)

theorem keychainOfServer_rewriting (target : RecordId) (now : Nat) (material : CredentialMaterial) (id : RecordId) :
    keychainOfServer (db.rewriting target now material) id = (keychainOfServer db id).map fun keychain =>
      if keychain.id = target then keychain.withMaterial now material else keychain := by
  unfold keychainOfServer Database.rewriting
  cases hServer : db.servers.find id with
  | none => rfl
  | some server =>
    simp only [Option.bind_some, Table.find_modify]
    cases hKeychain : db.keychains.find server.keychainId with
    | none =>
      split
      · next hSame => simp [← hSame, hKeychain]
      · rfl
    | some keychain =>
      rw [Option.map_some, Table.key_of_find hKeychain]
      split
      · next hSame => rw [← hSame, hKeychain, Option.map_some]
      · rfl

theorem update_inline_outcome (env : Environment) (db : Database) (serverId : RecordId)
    (request : ApiSshUpdateServerRequest) (hInline : request.keychainId = none) :
    ((serverWrite env (.update (some serverId) (.ok request)) db).2 = db ∧
      ¬ ∃ server keychain material, db.servers.find serverId = some server ∧ db.keychains.find server.keychainId = some keychain ∧
        referenceError db request.folderId (request.tagIds.getD []) = none ∧
        inlineMaterial env request.toServerFields (some keychain) = some material ∧ keychain.visibility = .hidden) ∨
    (∃ server keychain material, db.servers.find serverId = some server ∧ db.keychains.find server.keychainId = some keychain ∧
      referenceError db request.folderId (request.tagIds.getD []) = none ∧
      inlineMaterial env request.toServerFields (some keychain) = some material ∧ keychain.visibility = .hidden ∧
      serverWrite env (.update (some serverId) (.ok request)) db =
        updateServerWith env server request keychain.id (db.rewriting keychain.id env.now material)) ∨
    ∃ server keychain, ∃ row : SshKeychain, ∃ hFresh : db.keychains.find row.id = none,
      db.servers.find serverId = some server ∧ db.keychains.find server.keychainId = some keychain ∧ keychain.visibility = .shared ∧
      serverWrite env (.update (some serverId) (.ok request)) db =
        updateServerWith env server request env.keychainId (db.storing row hFresh) := by
  cases hServer : db.servers.find serverId with
  | none =>
    left
    refine ⟨by simp [serverWrite, updateServerHandler, hServer], ?_⟩
    rintro ⟨_, _, _, hFound, _⟩
    contradiction
  | some server =>
    cases hKeychain : db.keychains.find server.keychainId with
    | none =>
      left
      refine ⟨by simp [serverWrite, updateServerHandler, hServer, hKeychain], ?_⟩
      rintro ⟨server', _, _, hFound, hOwned, _⟩
      obtain rfl := Option.some.inj hFound
      rw [hKeychain] at hOwned
      contradiction
    | some keychain =>
      cases hChecked : referenceError db request.folderId (request.tagIds.getD []) with
      | some response =>
        left
        refine ⟨by simp [serverWrite, updateServerHandler, hServer, hKeychain, hChecked], ?_⟩
        rintro ⟨_, _, _, _, _, hNone, _⟩
        contradiction
      | none =>
        have hStored := update_inline env hServer hKeychain hChecked hInline
        cases hMaterial : inlineMaterial env request.toServerFields (some keychain) with
        | none =>
          rw [ensureInline_of_incomplete hMaterial] at hStored
          left
          refine ⟨by rw [hStored], ?_⟩
          rintro ⟨server', keychain', _, hFound, hOwned, _, hSome, _⟩
          obtain rfl := Option.some.inj hFound
          obtain rfl := Option.some.inj (hKeychain.symm.trans hOwned)
          rw [hMaterial] at hSome
          contradiction
        | some material =>
          cases hVisibility : keychain.visibility with
          | hidden =>
            right; left
            exact ⟨server, keychain, material, rfl, hKeychain, rfl, hMaterial, hVisibility,
              update_hidden env hServer hKeychain hChecked hInline hMaterial hVisibility⟩
          | shared =>
            by_cases hFresh : db.keychains.find (hiddenKeychain env request.name material).id = none
            · right; right
              exact ⟨server, keychain, _, hFresh, rfl, hKeychain, hVisibility,
                update_shared env hServer hKeychain hChecked hInline hMaterial hVisibility hFresh⟩
            · rw [ensureInline_of_taken hMaterial (by simpa using hVisibility) hFresh] at hStored
              left
              refine ⟨by rw [hStored], ?_⟩
              rintro ⟨server', keychain', _, hFound, hOwned, _, _, hHidden⟩
              obtain rfl := Option.some.inj hFound
              obtain rfl := Option.some.inj (hKeychain.symm.trans hOwned)
              rw [hVisibility] at hHidden
              contradiction

theorem isolated_iff (decrypt : String → Option String) (hReferenced : Referenced db) (serverId : RecordId)
    (request : ApiSshUpdateServerRequest) (hInline : request.keychainId = none) :
    Isolated decrypt env db serverId request ↔ ¬ Disturbs decrypt env db serverId request := by
  obtain ⟨hSame, hNone⟩ | ⟨server, keychain, material, hServer, hKeychain, hChecked, hMaterial, hHidden, hStored⟩ |
    ⟨server, keychain, row, hFresh, hServer, hKeychain, hShared, hStored⟩ := update_inline_outcome env db serverId request hInline
  · refine iff_of_true (fun other _ => ?_) ?_
    · rw [handle, hSame]
    · rintro ⟨server, other, keychain, material, h⟩
      exact hNone ⟨server, keychain, material, h.found, h.owned, h.checked, h.complete, h.hidden⟩
  · have hId : server.id = serverId := Table.key_of_find hServer
    have hOwnId : keychain.id = server.keychainId := Table.key_of_find hKeychain
    constructor
    · rintro hIsolated ⟨server', other, keychain', material', h⟩
      obtain rfl := Option.some.inj (hServer.symm.trans h.found)
      obtain rfl := Option.some.inj (hKeychain.symm.trans h.owned)
      obtain rfl := Option.some.inj (hMaterial.symm.trans h.complete)
      have hLogin := hIsolated other.id h.otherServer
      have hShared : keychainOfServer db other.id = some keychain := by
        rw [keychainOfServer, h.otherFound, Option.bind_some, h.sharing, hOwnId]
        exact hKeychain
      rw [handle, logsInWith, hStored, keychainOfServer_updateServerWith _ _ _ _ (hId ▸ h.otherServer),
        keychainOfServer_rewriting, logsInWith, hShared, Option.map_some, if_pos rfl, Option.bind_some,
        Option.bind_some] at hLogin
      exact h.changes hLogin
    · intro hNot other hOther
      rw [handle, logsInWith, hStored, keychainOfServer_updateServerWith _ _ _ _ (hId ▸ hOther),
        keychainOfServer_rewriting, logsInWith]
      cases hOn : keychainOfServer db other with
      | none => rfl
      | some current =>
        rw [Option.map_some, Option.bind_some, Option.bind_some]
        split
        · next hSame =>
          by_contra hChanges
          rw [keychainOfServer, Option.bind_eq_some_iff] at hOn
          obtain ⟨row, hRow, hCurrent⟩ := hOn
          have hRowId : row.id = other := Table.key_of_find hRow
          have hCurrentId : current.id = row.keychainId := Table.key_of_find hCurrent
          obtain rfl : keychain = current := by
            rw [← hCurrentId, hSame, find_keychain_id hKeychain] at hCurrent
            exact Option.some.inj hCurrent
          exact hNot ⟨server, row, keychain, material, hServer, hKeychain, hChecked, hMaterial, hHidden,
            hRowId ▸ hRow, hRowId ▸ hOther, hCurrentId.symm, hChanges⟩
        · rfl
  · have hId : server.id = serverId := Table.key_of_find hServer
    refine iff_of_true (fun other hOther => ?_) ?_
    · rw [handle, logsInWith, hStored, keychainOfServer_updateServerWith _ _ _ _ (hId ▸ hOther),
        keychainOfServer_storing hReferenced, logsInWith]
    · rintro ⟨server', other, keychain', material, h⟩
      obtain rfl := Option.some.inj (hServer.symm.trans h.found)
      obtain rfl := Option.some.inj (hKeychain.symm.trans h.owned)
      have hHidden := h.hidden
      rw [hShared] at hHidden
      contradiction

theorem SingleUse.not_disturbs (h : SingleUse db) (decrypt : String → Option String) (serverId : RecordId)
    (request : ApiSshUpdateServerRequest) : ¬ Disturbs decrypt env db serverId request := by
  rintro ⟨server, other, keychain, material, hRewrites⟩
  have hOwnId : keychain.id = server.keychainId := Table.key_of_find hRewrites.owned
  have hId : server.id = serverId := Table.key_of_find hRewrites.found
  have hSame := h keychain (Table.mem_of_find hRewrites.owned) hRewrites.hidden other
    (Table.mem_of_find hRewrites.otherFound) server (Table.mem_of_find hRewrites.found) hRewrites.sharing hOwnId.symm
  exact hRewrites.otherServer (hSame.trans hId)

end Logins

theorem deleteServer_leaves_no_unused (serverId : Option RecordId) (db : Database)
    (h : (deleteServerHandler serverId db).1 = .noContent) : NoUnusedHidden (deleteServerHandler serverId db).2 := by
  revert h
  unfold deleteServerHandler
  split
  · exact fun h => nomatch h
  · split
    · exact fun h => nomatch h
    · exact fun h => nomatch h
    · exact fun _ => noUnusedHidden_cleanup _

theorem replacement_leaves_no_unused (env : Environment) (server row : SshServer) (request : ApiSshUpdateServerRequest)
    (id : RecordId) (db : Database) (hOk : (updateServerWith env server request id db).1 = .server row)
    (hMoved : row.keychainId ≠ server.keychainId) : NoUnusedHidden (updateServerWith env server request id db).2 := by
  revert hOk
  unfold updateServerWith
  split
  · next e _ =>
    cases e <;> exact fun h => nomatch h
  · intro hOk
    obtain rfl := Response.server.inj hOk
    rw [SshServer.withRequest_keychainId] at hMoved
    simp only [if_pos (Ne.symm hMoved)]
    exact noUnusedHidden_cleanup _

theorem update_leaves_no_unused (env : Environment) {serverId : RecordId} {row : SshServer} {db : Database}
    (parsed : Except ValidationError ApiSshUpdateServerRequest) (hServer : db.servers.find serverId = some server)
    (hOk : (updateServerHandler env (some serverId) parsed db).1 = .server row) (hMoved : row.keychainId ≠ server.keychainId) :
    NoUnusedHidden (updateServerHandler env (some serverId) parsed db).2 := by
  revert hOk
  unfold updateServerHandler
  split
  · rintro ⟨⟩
  · rintro ⟨⟩
  · next request hId =>
    obtain rfl := Option.some.inj hId
    simp only [hServer]
    split
    · rintro ⟨⟩
    · split
      · next hError =>
        intro hOk
        unfold referenceError at hError
        split at hError
        · subst hOk
          cases hError
        · split at hError
          · subst hOk
            cases hError
          · contradiction
      · split
        · rintro ⟨⟩
        · split
          · rintro ⟨⟩
          · rintro ⟨⟩
          · exact fun hOk => replacement_leaves_no_unused env server row _ _ _ hOk hMoved

/-- An inline update leaves every other server's login alone exactly when it does not rewrite a
hidden keychain of theirs to another login; it never does while no request puts a second server on
a hidden keychain or hides one that has several. In every run the keychains servers refer to stay,
and no hidden one without a server outlasts a deletion or a replacement. -/
theorem credentials_are_isolated (decrypt : String → Option String) :
    (∀ db, requests.Reachable db → ∀ env serverId request, request.keychainId = none →
      (Isolated decrypt env db serverId request ↔ ¬ Disturbs decrypt env db serverId request)) ∧
    (∀ db, requests.ReachableWhile (fun db event => KeepsSingleUse db event.2) db →
      ∀ env serverId request, request.keychainId = none → Isolated decrypt env db serverId request) ∧
    (∀ db, requests.Reachable db → Referenced db) ∧ ∀ db, requests.Reachable db →
      (∀ serverId, (deleteServerHandler serverId db).1 = .noContent → NoUnusedHidden (deleteServerHandler serverId db).2) ∧
      ∀ env serverId parsed server row, db.servers.find serverId = some server →
        (updateServerHandler env (some serverId) parsed db).1 = .server row → row.keychainId ≠ server.keychainId →
        NoUnusedHidden (updateServerHandler env (some serverId) parsed db).2 := by
  refine ⟨?_, ?_, fun db => requests_referenced, ?_⟩
  · intro db hReachable env serverId request hInline
    exact isolated_iff decrypt (requests_referenced hReachable) serverId request hInline
  · intro db hReachable env serverId request hInline
    obtain ⟨hReferenced, hSingle⟩ := requests_singleUse hReachable
    exact (isolated_iff decrypt hReferenced serverId request hInline).mpr (hSingle.not_disturbs decrypt serverId request)
  · intro db _
    refine ⟨fun serverId => deleteServer_leaves_no_unused serverId db, ?_⟩
    intro env serverId parsed server row hServer hOk hMoved
    exact update_leaves_no_unused env parsed hServer hOk hMoved

section Example

def emptyDatabase : Database := ⟨[], [], Table.empty, Table.empty⟩

theorem emptyDatabase_initial : requests.initial emptyDatabase := ⟨rfl, rfl⟩

def sampleEnvironment (keychainId serverId : RecordId) : Environment where
  now := 1
  keychainId := keychainId
  serverId := serverId
  encryptSensitiveValue _ value := "iv:tag:" ++ value

def sampleDecrypt (envelope : String) : Option String := some (String.ofList (envelope.toList.drop 7))

def separateServers : List (Environment × Request) :=
  [(sampleEnvironment ⟨"k1", named_k1⟩ ⟨"s1", named_s1⟩, .server (.create (.ok (passwordCreate "a" "1")))),
    (sampleEnvironment ⟨"k2", named_k2⟩ ⟨"s2", named_s2⟩, .server (.create (.ok (passwordCreate "b" "2"))))]

theorem separate_servers_stay_isolated : Isolated sampleDecrypt (sampleEnvironment ⟨"k3", by decide⟩ ⟨"s3", by decide⟩)
      (requests.run emptyDatabase separateServers) ⟨"s1", by decide⟩ (passwordUpdate "a" "3") := by
  refine (credentials_are_isolated sampleDecrypt).2.1 _ ?_ _ _ _ rfl
  have hEmpty : requests.ReachableWhile (fun db event => KeepsSingleUse db event.2) emptyDatabase := .start emptyDatabase_initial
  have hFirst := hEmpty.step (e := separateServers[0]) (fun _ h => nomatch h)
  exact hFirst.step (e := separateServers[1]) (fun _ h => nomatch h)

def joinedServers : List (Environment × Request) :=
  [(sampleEnvironment ⟨"k1", named_k1⟩ ⟨"s1", named_s1⟩, .server (.create (.ok (passwordCreate "a" "1")))),
    (sampleEnvironment ⟨"k2", named_k2⟩ ⟨"s2", named_s2⟩, .server (.create (.ok
      { passwordCreate "b" "" with authType := none, password := none, keychainId := some ⟨"k1", named_k1⟩ })))]

theorem joined_server_loses_its_login : ¬ ∀ db, requests.Reachable db → ∀ env serverId request, request.keychainId = none →
      Isolated sampleDecrypt env db serverId request := by
  intro hAll
  have hReachable : requests.Reachable (requests.run emptyDatabase joinedServers) :=
    Machine.Reachable.run (.start emptyDatabase_initial) joinedServers
  have hLogin := hAll _ hReachable (sampleEnvironment ⟨"k3", by decide⟩ ⟨"s3", by decide⟩) ⟨"s1", by decide⟩
    (passwordUpdate "a" "3") rfl ⟨"s2", by decide⟩ (by decide)
  revert hLogin
  decide

end Example

end Ssh
