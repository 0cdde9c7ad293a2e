import Cosmosh.Ssh.ServerRoutes

/-! # What a refused server request leaves in the tables

The keychain of inline credentials is written before the server, and the unique constraint speaks only when the server
is written.
-/

namespace Ssh

open Library

inductive ServerWrite
  | create (parsed : Except ValidationError ApiSshCreateServerRequest)
  | update (serverId : Option RecordId) (parsed : Except ValidationError ApiSshUpdateServerRequest)

def serverWrite (env : Environment) : ServerWrite → Database → Response × Database
  | .create parsed => createServerHandler env parsed
  | .update serverId parsed => updateServerHandler env serverId parsed

def SameTables (db db' : Database) : Prop := db'.servers = db.servers ∧ db'.keychains = db.keychains

def AllOrNothing (env : Environment) (write : ServerWrite) (db : Database) : Prop :=
  (serverWrite env write db).1.isError = true → SameTables db (serverWrite env write db).2

structure LeavesKeychain (env : Environment) (request : ApiSshCreateServerRequest) (db : Database) : Prop where
  checked : referenceError db request.folderId request.tagIds = none
  inline : request.keychainId = none
  complete : (inlineMaterial env request.toServerFields none).isSome = true
  fresh : db.keychains.find env.keychainId = none
  refused : db.addressTaken (createdServer env request env.keychainId) = true ∨ db.servers.find env.serverId ≠ none

/-- The request changes the credentials of the server's hidden keychain, or stores another
keychain beside its shared one, and is then refused by the unique constraint. -/
structure LeavesCredentials (env : Environment) (serverId : RecordId) (request : ApiSshUpdateServerRequest)
    (db : Database) (server : SshServer) (keychain : SshKeychain) (material : CredentialMaterial) : Prop where
  found : db.servers.find serverId = some server
  owned : db.keychains.find server.keychainId = some keychain
  checked : referenceError db request.folderId (request.tagIds.getD []) = none
  inline : request.keychainId = none
  complete : inlineMaterial env request.toServerFields (some keychain) = some material
  refused : db.addressTaken (server.withRequest env request keychain.id) = true
  changes : if keychain.visibility = .hidden then keychain.withMaterial env.now material ≠ keychain
    else db.keychains.find env.keychainId = none

def Leaves (env : Environment) (db : Database) : ServerWrite → Prop
  | .create (.ok request) => LeavesKeychain env request db
  | .update (some serverId) (.ok request) =>
    ∃ server keychain material, LeavesCredentials env serverId request db server keychain material
  | _ => False

theorem SameTables.refl (db : Database) : SameTables db db := ⟨rfl, rfl⟩

def Database.storing (db : Database) (row : SshKeychain) (h : db.keychains.find row.id = none) : Database :=
  { db with keychains := db.keychains.insert row h }

def Database.rewriting (db : Database) (id : RecordId) (now : Nat) (material : CredentialMaterial) : Database :=
  { db with
    keychains := db.keychains.modify id (SshKeychain.withMaterial now material)
      (SshKeychain.withMaterial_id now material) }

variable {db : Database} {row : SshKeychain}

theorem Database.find_storing (h : db.keychains.find row.id = none) : (db.storing row h).keychains.find row.id ≠ none := by
  simp [storing, Table.find_insert]

theorem Database.createKeychain_of_fresh (h : db.keychains.find row.id = none) : db.createKeychain row = .ok (db.storing row h) := dif_pos h

theorem Database.createKeychain_of_taken (h : db.keychains.find row.id ≠ none) : db.createKeychain row = .error .P2002 := dif_neg h

variable {id : RecordId}

theorem Database.updateKeychain_of_find {keychain : SshKeychain} {write : SshKeychain → SshKeychain}
    {hKey : ∀ r, (write r).id = r.id} (h : db.keychains.find id = some keychain) :
    db.updateKeychain id write hKey = .ok { db with keychains := db.keychains.modify id write hKey } := by
  rw [updateKeychain, h]

theorem Database.createServer_of_keychain (row : SshServer) (hKeychain : db.keychains.find row.keychainId ≠ none) :
    (db.createServer row = .error .P2002 ∧ (db.addressTaken row = true ∨ db.servers.find row.id ≠ none)) ∨
      ∃ h : db.servers.find row.id = none, db.addressTaken row = false ∧
        db.createServer row = .ok { db with servers := db.servers.insert row h } := by
  unfold createServer
  cases hTaken : db.addressTaken row with
  | true => exact Or.inl ⟨rfl, Or.inl rfl⟩
  | false =>
    by_cases hFresh : db.servers.find row.id = none
    · refine Or.inr ⟨hFresh, rfl, ?_⟩
      rw [if_neg Bool.false_ne_true, dif_pos hFresh, if_neg hKeychain]
    · refine Or.inl ⟨?_, Or.inr hFresh⟩
      rw [if_neg Bool.false_ne_true, dif_neg hFresh]

theorem Database.updateServer_of_keychain {server : SshServer} (write : SshServer → SshServer) (hKey : ∀ r, (write r).id = r.id)
    (hServer : db.servers.find id = some server) (hKeychain : db.keychains.find (write server).keychainId ≠ none) :
    db.updateServer id write hKey = if db.addressTaken (write server) then .error .P2002
      else .ok { db with servers := db.servers.modify id write hKey } := by
  simp only [updateServer, hServer, if_neg hKeychain]

section Inline

variable {env : Environment} {input : ServerFields} {db : Database} {material : CredentialMaterial}
  {existing : Option SshKeychain} {keychain : SshKeychain}

theorem ensureInline_of_incomplete (h : inlineMaterial env input existing = none) :
    ensureInlineCredentialKeychain env input existing db = .ok (none, db) := by
  simp only [ensureInlineCredentialKeychain, h]

theorem ensureInline_of_hidden (h : inlineMaterial env input (some keychain) = some material)
    (hHidden : keychain.visibility = .hidden) (hFind : db.keychains.find keychain.id = some keychain) :
    ensureInlineCredentialKeychain env input (some keychain) db = .ok (some keychain.id, db.rewriting keychain.id env.now material) := by
  have hFilter : (some keychain).filter (fun k => decide (k.visibility = .hidden)) = some keychain := by
    simp [hHidden]
  simp only [ensureInlineCredentialKeychain, h, hFilter]
  rw [Database.updateKeychain_of_find hFind]
  rfl

theorem filter_hidden_of_shared (hNone : ∀ k ∈ existing, k.visibility = .shared) :
    existing.filter (fun k => decide (k.visibility = .hidden)) = none := by
  rw [Option.filter_eq_none_iff]
  intro k hMem
  simp [hNone k hMem]

theorem ensureInline_of_fresh (h : inlineMaterial env input existing = some material) (hNone : ∀ k ∈ existing, k.visibility = .shared)
    (hFresh : db.keychains.find (hiddenKeychain env input.name material).id = none) : ensureInlineCredentialKeychain env input existing db =
      .ok (some env.keychainId, db.storing (hiddenKeychain env input.name material) hFresh) := by
  simp only [ensureInlineCredentialKeychain, h, filter_hidden_of_shared hNone]
  rw [Database.createKeychain_of_fresh hFresh]
  rfl

theorem ensureInline_of_taken (h : inlineMaterial env input existing = some material) (hNone : ∀ k ∈ existing, k.visibility = .shared)
    (hTaken : db.keychains.find (hiddenKeychain env input.name material).id ≠ none) :
    ensureInlineCredentialKeychain env input existing db = .error .P2002 := by
  simp only [ensureInlineCredentialKeychain, h, filter_hidden_of_shared hNone]
  rw [Database.createKeychain_of_taken hTaken]
  rfl

end Inline

variable {material : CredentialMaterial}

section Create

variable {env : Environment} {request : ApiSshCreateServerRequest} {db : Database}

theorem createServerWith_outcome (env : Environment) (request : ApiSshCreateServerRequest)
    (id : RecordId) (hKeychain : db.keychains.find id ≠ none) :
    ((createServerWith env request id db).1.isError = true ∧ (createServerWith env request id db).2 = db ∧
      (db.addressTaken (createdServer env request id) = true ∨ db.servers.find env.serverId ≠ none)) ∨
    ((createServerWith env request id db).1.isError = false ∧
      db.addressTaken (createdServer env request id) = false ∧ db.servers.find env.serverId = none) := by
  obtain ⟨hError, hRefused⟩ | ⟨hFresh, hFree, hOk⟩ := Database.createServer_of_keychain (createdServer env request id) hKeychain
  · left
    simp only [createServerWith, hError]
    exact ⟨rfl, trivial, hRefused⟩
  · right
    simp only [createServerWith, hOk]
    exact ⟨rfl, hFree, hFresh⟩

theorem allOrNothing_of_same {write : ServerWrite} (h : (serverWrite env write db).2 = db) : AllOrNothing env write db := by
  intro _
  rw [h]
  exact SameTables.refl db

theorem allOrNothing_of_success {write : ServerWrite} (h : (serverWrite env write db).1.isError = false) : AllOrNothing env write db := by
  intro hError
  rw [h] at hError
  contradiction

variable (env) in
theorem create_named (hChecked : referenceError db request.folderId request.tagIds = none) {id : RecordId}
    (hNamed : request.keychainId = some id) (hKeychain : db.keychains.find id ≠ none) :
    serverWrite env (.create (.ok request)) db = createServerWith env request id db := by
  have hPresent : namedKeychainMissing db (some id) = false := by
    simpa [namedKeychainMissing, Option.isSome_iff_ne_none] using hKeychain
  simp [serverWrite, createServerHandler, hChecked, hNamed, hPresent, keychainOf]

variable (env) in
theorem create_inline (hChecked : referenceError db request.folderId request.tagIds = none) (hInline : request.keychainId = none) :
    serverWrite env (.create (.ok request)) db = match ensureInlineCredentialKeychain env request.toServerFields none db with
      | .error e => (caught e, db)
      | .ok (none, db') => (.invalid "errors.validation.passwordRequiredForAuthType", db')
      | .ok (some keychainId, db') => createServerWith env request keychainId db' := by
  simp only [serverWrite, createServerHandler, hChecked, hInline, namedKeychainMissing, keychainOf, Option.any_none,
    Bool.false_eq_true, if_false] <;>
  rfl

theorem create_fresh (hChecked : referenceError db request.folderId request.tagIds = none) (hInline : request.keychainId = none)
    (hMaterial : inlineMaterial env request.toServerFields none = some material)
    (hFresh : db.keychains.find (hiddenKeychain env request.name material).id = none) :
    serverWrite env (.create (.ok request)) db = createServerWith env request env.keychainId
      (db.storing (hiddenKeychain env request.name material) hFresh) := by
  rw [create_inline env hChecked hInline, ensureInline_of_fresh hMaterial (by simp) hFresh]

theorem create_fresh_iff (hChecked : referenceError db request.folderId request.tagIds = none)
    (hInline : request.keychainId = none) (hMaterial : inlineMaterial env request.toServerFields none = some material)
    (hFresh : db.keychains.find (hiddenKeychain env request.name material).id = none) : AllOrNothing env (.create (.ok request)) db ↔
      ¬ (db.addressTaken (createdServer env request env.keychainId) = true ∨ db.servers.find env.serverId ≠ none) := by
  have hStored := create_fresh hChecked hInline hMaterial hFresh
  have hOutcome := createServerWith_outcome env request env.keychainId (Database.find_storing hFresh)
  rw [← hStored] at hOutcome
  obtain ⟨hError, hSame, hRefused⟩ | ⟨hOk, hFree, hNew⟩ := hOutcome
  · refine iff_of_false ?_ (not_not.mpr hRefused)
    intro hAll
    have hTables := hAll hError
    rw [hSame] at hTables
    exact Table.insert_ne _ _ hFresh hTables.2
  · refine iff_of_true (allOrNothing_of_success hOk) ?_
    rintro (hTaken | hTaken)
    · exact Bool.false_ne_true (hFree.symm.trans hTaken)
    · exact hTaken hNew

theorem create_allOrNothing_iff : AllOrNothing env (.create (.ok request)) db ↔ ¬ LeavesKeychain env request db := by
  cases hChecked : referenceError db request.folderId request.tagIds with
  | some response =>
    refine iff_of_true (allOrNothing_of_same ?_) fun hLeaves => ?_
    · simp [serverWrite, createServerHandler, hChecked]
    · rw [hLeaves.checked] at hChecked
      contradiction
  | none =>
    cases hNamed : request.keychainId with
    | some id =>
      refine iff_of_true ?_ fun hLeaves => ?_
      · by_cases hKeychain : db.keychains.find id = none
        · refine allOrNothing_of_same ?_
          simp [serverWrite, createServerHandler, hChecked, hNamed, namedKeychainMissing, hKeychain]
        · have hStored := create_named env hChecked hNamed hKeychain
          obtain ⟨_, hSame, _⟩ | ⟨hOk, _⟩ := createServerWith_outcome env request id hKeychain
          · exact allOrNothing_of_same (hStored ▸ hSame)
          · exact allOrNothing_of_success (hStored ▸ hOk)
      · rw [hLeaves.inline] at hNamed
        contradiction
    | none =>
      have hStored := create_inline env hChecked hNamed
      cases hMaterial : inlineMaterial env request.toServerFields none with
      | none =>
        rw [ensureInline_of_incomplete hMaterial] at hStored
        refine iff_of_true (allOrNothing_of_same (by rw [hStored])) fun hLeaves => ?_
        have hComplete := hLeaves.complete
        rw [hMaterial] at hComplete
        contradiction
      | some material =>
        by_cases hFresh : db.keychains.find env.keychainId = none
        · rw [create_fresh_iff hChecked hNamed hMaterial hFresh, not_iff_not]
          constructor
          · exact fun hRefused => ⟨hChecked, hNamed, by rw [hMaterial]; rfl, hFresh, hRefused⟩
          · exact fun hLeaves => hLeaves.refused
        · rw [ensureInline_of_taken hMaterial (by simp) hFresh] at hStored
          exact iff_of_true (allOrNothing_of_same (by rw [hStored])) fun hLeaves => hFresh hLeaves.fresh

end Create

section Update

variable {env : Environment} {request : ApiSshUpdateServerRequest} {db : Database} {serverId : RecordId}
  {server : SshServer} {keychain : SshKeychain}

theorem updateServerWith_outcome (env : Environment) (request : ApiSshUpdateServerRequest)
    (id : RecordId) (hServer : db.servers.find server.id = some server) (hKeychain : db.keychains.find id ≠ none) :
    ((updateServerWith env server request id db).1.isError = true ∧ (updateServerWith env server request id db).2 = db ∧
      db.addressTaken (server.withRequest env request id) = true) ∨ ((updateServerWith env server request id db).1.isError = false ∧
      db.addressTaken (server.withRequest env request id) = false) := by
  have hCall := Database.updateServer_of_keychain (SshServer.withRequest env request id)
    (SshServer.withRequest_id env request id) hServer hKeychain
  cases hTaken : db.addressTaken (server.withRequest env request id) with
  | true =>
    left
    rw [hTaken] at hCall
    simp only [updateServerWith, hCall]
    exact ⟨rfl, rfl, trivial⟩
  | false =>
    right
    rw [hTaken] at hCall
    simp only [updateServerWith, hCall]
    exact ⟨rfl, trivial⟩

variable (env) in
theorem update_checked (hServer : db.servers.find serverId = some server) (hKeychain : db.keychains.find server.keychainId = some keychain)
    (hChecked : referenceError db request.folderId (request.tagIds.getD []) = none) :
    serverWrite env (.update (some serverId) (.ok request)) db =
      if namedKeychainMissing db request.keychainId then (.absent 400 "errors.ssh.serverNotFound", db) else
        match keychainOf env request.toServerFields (some keychain) db with
        | .error _ => (.thrown, db)
        | .ok (none, db') => (.invalid "errors.validation.privateKeyRequiredForAuthType", db')
        | .ok (some keychainId, db') => updateServerWith env server request keychainId db' := by
  simp only [serverWrite, updateServerHandler, hServer, hKeychain, hChecked] <;>
  rfl

variable (env) in
theorem update_inline (hServer : db.servers.find serverId = some server) (hKeychain : db.keychains.find server.keychainId = some keychain)
    (hChecked : referenceError db request.folderId (request.tagIds.getD []) = none) (hInline : request.keychainId = none) :
    serverWrite env (.update (some serverId) (.ok request)) db =
      match ensureInlineCredentialKeychain env request.toServerFields (some keychain) db with
      | .error _ => (.thrown, db)
      | .ok (none, db') => (.invalid "errors.validation.privateKeyRequiredForAuthType", db')
      | .ok (some keychainId, db') => updateServerWith env server request keychainId db' := by
  rw [update_checked env hServer hKeychain hChecked]
  simp only [hInline, namedKeychainMissing, keychainOf, Option.any_none, Bool.false_eq_true, if_false]

theorem find_server_id (hServer : db.servers.find serverId = some server) : db.servers.find server.id = some server := by
  rw [Table.key_of_find hServer]
  exact hServer

theorem find_keychain_id (hKeychain : db.keychains.find server.keychainId = some keychain) : db.keychains.find keychain.id = some keychain := by
  rw [Table.key_of_find hKeychain]
  exact hKeychain

variable (env) in
theorem update_hidden (hServer : db.servers.find serverId = some server) (hKeychain : db.keychains.find server.keychainId = some keychain)
    (hChecked : referenceError db request.folderId (request.tagIds.getD []) = none)
    (hInline : request.keychainId = none) {material : CredentialMaterial}
    (hMaterial : inlineMaterial env request.toServerFields (some keychain) = some material) (hHidden : keychain.visibility = .hidden) :
    serverWrite env (.update (some serverId) (.ok request)) db = updateServerWith env server request keychain.id
      (db.rewriting keychain.id env.now material) := by
  rw [update_inline env hServer hKeychain hChecked hInline,
    ensureInline_of_hidden hMaterial hHidden (find_keychain_id hKeychain)]

variable (env) in
theorem update_shared (hServer : db.servers.find serverId = some server) (hKeychain : db.keychains.find server.keychainId = some keychain)
    (hChecked : referenceError db request.folderId (request.tagIds.getD []) = none)
    (hInline : request.keychainId = none) {material : CredentialMaterial}
    (hMaterial : inlineMaterial env request.toServerFields (some keychain) = some material) (hShared : keychain.visibility = .shared)
    (hFresh : db.keychains.find (hiddenKeychain env request.name material).id = none) :
    serverWrite env (.update (some serverId) (.ok request)) db = updateServerWith env server request env.keychainId
      (db.storing (hiddenKeychain env request.name material) hFresh) := by
  rw [update_inline env hServer hKeychain hChecked hInline,
    ensureInline_of_fresh hMaterial (by simpa using hShared) hFresh]

section

variable (hServer : db.servers.find serverId = some server) (hKeychain : db.keychains.find server.keychainId = some keychain)
  (hChecked : referenceError db request.folderId (request.tagIds.getD []) = none)
include hServer hKeychain hChecked

theorem update_hidden_iff (hInline : request.keychainId = none)
    (hMaterial : inlineMaterial env request.toServerFields (some keychain) = some material) (hHidden : keychain.visibility = .hidden) :
    AllOrNothing env (.update (some serverId) (.ok request)) db ↔ ¬ (db.addressTaken (server.withRequest env request keychain.id) = true ∧
        keychain.withMaterial env.now material ≠ keychain) := by
  have hOwn := find_keychain_id hKeychain
  have hStored := update_hidden env hServer hKeychain hChecked hInline hMaterial hHidden
  have hKept : (db.rewriting keychain.id env.now material).keychains.find keychain.id ≠ none := by
    simp [Database.rewriting, Table.find_modify, hOwn]
  have hFound : (db.rewriting keychain.id env.now material).servers.find server.id = some server := find_server_id hServer
  have hOutcome := updateServerWith_outcome env request keychain.id hFound hKept
  rw [← hStored] at hOutcome
  obtain ⟨hError, hSame, hTaken⟩ | ⟨hOk, hFree⟩ := hOutcome
  · have hTables : AllOrNothing env (.update (some serverId) (.ok request)) db ↔
        keychain.withMaterial env.now material = keychain := by
      rw [← Table.modify_eq_self_iff (SshKeychain.withMaterial_id env.now material) hOwn]
      constructor
      · intro hAll
        have hKeychains := (hAll hError).2
        rwa [hSame] at hKeychains
      · intro hFixed _
        rw [hSame]
        exact ⟨rfl, hFixed⟩
    rw [hTables, not_and_not_right]
    exact ⟨fun hFixed _ => hFixed, fun h => h hTaken⟩
  · refine iff_of_true (allOrNothing_of_success hOk) ?_
    rintro ⟨hTaken, _⟩
    exact Bool.false_ne_true (hFree.symm.trans hTaken)

theorem update_shared_iff (hInline : request.keychainId = none)
    (hMaterial : inlineMaterial env request.toServerFields (some keychain) = some material) (hShared : keychain.visibility = .shared)
    (hFresh : db.keychains.find (hiddenKeychain env request.name material).id = none) :
    AllOrNothing env (.update (some serverId) (.ok request)) db ↔ ¬ db.addressTaken (server.withRequest env request keychain.id) = true := by
  have hStored := update_shared env hServer hKeychain hChecked hInline hMaterial hShared hFresh
  have hFound : (db.storing (hiddenKeychain env request.name material) hFresh).servers.find server.id =
      some server := find_server_id hServer
  have hOutcome := updateServerWith_outcome env request env.keychainId hFound (Database.find_storing hFresh)
  rw [← hStored] at hOutcome
  obtain ⟨hError, hSame, hTaken⟩ | ⟨hOk, hFree⟩ := hOutcome
  · refine iff_of_false ?_ (not_not.mpr hTaken)
    intro hAll
    have hTables := hAll hError
    rw [hSame] at hTables
    exact Table.insert_ne _ _ hFresh hTables.2
  · refine iff_of_true (allOrNothing_of_success hOk) fun hTaken => ?_
    exact Bool.false_ne_true (hFree.symm.trans hTaken)

theorem update_named_allOrNothing (hNamed : request.keychainId = some id) : AllOrNothing env (.update (some serverId) (.ok request)) db := by
  have hStored := update_checked env hServer hKeychain hChecked
  by_cases hFound : db.keychains.find id = none
  · refine allOrNothing_of_same ?_
    rw [hStored]
    simp [namedKeychainMissing, hNamed, hFound]
  · have hPresent : namedKeychainMissing db request.keychainId = false := by
      simpa [namedKeychainMissing, hNamed, Option.isSome_iff_ne_none] using hFound
    rw [hPresent] at hStored
    simp only [Bool.false_eq_true, if_false, keychainOf, hNamed] at hStored
    obtain ⟨_, hSame, _⟩ | ⟨hOk, _⟩ := updateServerWith_outcome env request id (find_server_id hServer) hFound
    · exact allOrNothing_of_same (hStored ▸ hSame)
    · exact allOrNothing_of_success (hStored ▸ hOk)

end

theorem update_allOrNothing_of_refusal (h : (updateServerHandler env (some serverId) (.ok request) db).2 = db)
    (hNot : ¬ ∃ server keychain material, LeavesCredentials env serverId request db server keychain material) :
    AllOrNothing env (.update (some serverId) (.ok request)) db ↔
      ¬ ∃ server keychain material, LeavesCredentials env serverId request db server keychain material :=
  iff_of_true (allOrNothing_of_same h) hNot

theorem update_inline_allOrNothing_iff (hServer : db.servers.find serverId = some server)
    (hKeychain : db.keychains.find server.keychainId = some keychain)
    (hChecked : referenceError db request.folderId (request.tagIds.getD []) = none) (hNamed : request.keychainId = none) :
    AllOrNothing env (.update (some serverId) (.ok request)) db ↔
      ¬ ∃ material, LeavesCredentials env serverId request db server keychain material := by
  have hStored := update_inline env hServer hKeychain hChecked hNamed
  cases hMaterial : inlineMaterial env request.toServerFields (some keychain) with
  | none =>
    rw [ensureInline_of_incomplete hMaterial] at hStored
    refine iff_of_true (allOrNothing_of_same (by rw [hStored])) ?_
    rintro ⟨material, hLeaves⟩
    rw [hLeaves.complete] at hMaterial
    contradiction
  | some material =>
    have hSole : (∃ material, LeavesCredentials env serverId request db server keychain material) ↔
        LeavesCredentials env serverId request db server keychain material := by
      constructor
      · rintro ⟨material', hLeaves⟩
        obtain rfl : material = material' := Option.some.inj (hMaterial.symm.trans hLeaves.complete)
        exact hLeaves
      · exact fun hLeaves => ⟨material, hLeaves⟩
    rw [hSole]
    cases hVisibility : keychain.visibility with
    | hidden =>
      rw [update_hidden_iff hServer hKeychain hChecked hNamed hMaterial hVisibility, not_iff_not]
      constructor
      · rintro ⟨hTaken, hChanges⟩
        exact ⟨hServer, hKeychain, hChecked, hNamed, hMaterial, hTaken, by rwa [if_pos hVisibility]⟩
      · intro hLeaves
        have hChanges := hLeaves.changes
        rw [if_pos hVisibility] at hChanges
        exact ⟨hLeaves.refused, hChanges⟩
    | shared =>
      have hNotHidden : ¬ keychain.visibility = .hidden := by
        rw [hVisibility]
        decide
      by_cases hFresh : db.keychains.find env.keychainId = none
      · rw [update_shared_iff hServer hKeychain hChecked hNamed hMaterial hVisibility hFresh, not_iff_not]
        constructor
        · intro hTaken
          exact ⟨hServer, hKeychain, hChecked, hNamed, hMaterial, hTaken, by rwa [if_neg hNotHidden]⟩
        · exact fun hLeaves => hLeaves.refused
      · rw [ensureInline_of_taken hMaterial (by simpa using hVisibility) hFresh] at hStored
        refine iff_of_true (allOrNothing_of_same (by rw [hStored])) fun hLeaves => ?_
        have hChanges := hLeaves.changes
        rw [if_neg hNotHidden] at hChanges
        exact hFresh hChanges

theorem update_allOrNothing_iff : AllOrNothing env (.update (some serverId) (.ok request)) db ↔
      ¬ ∃ server keychain material, LeavesCredentials env serverId request db server keychain material := by
  cases hServer : db.servers.find serverId with
  | none =>
    refine update_allOrNothing_of_refusal (by simp [updateServerHandler, hServer]) ?_
    rintro ⟨server, keychain, material, hLeaves⟩
    rw [hLeaves.found] at hServer
    contradiction
  | some server =>
    cases hKeychain : db.keychains.find server.keychainId with
    | none =>
      refine update_allOrNothing_of_refusal (by simp [updateServerHandler, hServer, hKeychain]) ?_
      rintro ⟨server', keychain, material, hLeaves⟩
      obtain rfl : server = server' := Option.some.inj (hServer.symm.trans hLeaves.found)
      rw [hLeaves.owned] at hKeychain
      contradiction
    | some keychain =>
      have hOnly :
          (∃ server keychain material, LeavesCredentials env serverId request db server keychain material) ↔
            ∃ material, LeavesCredentials env serverId request db server keychain material := by
        constructor
        · rintro ⟨server', keychain', material, hLeaves⟩
          obtain rfl : server = server' := Option.some.inj (hServer.symm.trans hLeaves.found)
          obtain rfl : keychain = keychain' := Option.some.inj (hKeychain.symm.trans hLeaves.owned)
          exact ⟨material, hLeaves⟩
        · rintro ⟨material, hLeaves⟩
          exact ⟨server, keychain, material, hLeaves⟩
      rw [hOnly]
      cases hChecked : referenceError db request.folderId (request.tagIds.getD []) with
      | some response =>
        refine iff_of_true (allOrNothing_of_same ?_) ?_
        · simp [serverWrite, updateServerHandler, hServer, hKeychain, hChecked]
        · rintro ⟨material, hLeaves⟩
          rw [hLeaves.checked] at hChecked
          contradiction
      | none =>
        cases hNamed : request.keychainId with
        | some id =>
          refine iff_of_true (update_named_allOrNothing hServer hKeychain hChecked hNamed) ?_
          rintro ⟨material, hLeaves⟩
          rw [hLeaves.inline] at hNamed
          contradiction
        | none => exact update_inline_allOrNothing_iff hServer hKeychain hChecked hNamed

end Update

/-- A refused server request leaves the tables as they were unless it is one of those
that have stored credentials by the time the unique constraint speaks. -/
theorem server_write_is_all_or_nothing_iff (env : Environment) (write : ServerWrite) (db : Database) :
    AllOrNothing env write db ↔ ¬ Leaves env db write := by
  cases write with
  | create parsed =>
    cases parsed with
    | error e => exact iff_of_true (allOrNothing_of_same rfl) id
    | ok request => exact create_allOrNothing_iff
  | update serverId parsed =>
    cases serverId with
    | none => exact iff_of_true (allOrNothing_of_same rfl) id
    | some serverId =>
      cases parsed with
      | error e => exact iff_of_true (allOrNothing_of_same rfl) id
      | ok request => exact update_allOrNothing_iff

section Example

def passwordKeychain (id : RecordId) (envelope : String) : SshKeychain where
  authType := .password
  passwordEncrypted := some envelope
  privateKeyEncrypted := none
  privateKeyPassphraseEncrypted := none
  id := id
  name := "web Keychain"
  iconKey := "KeyRound"
  colorKey := "emerald"
  visibility := .hidden
  note := none
  folderId := none
  tagIds := []
  createdAt := 1
  updatedAt := 1

def plainServer (id : RecordId) (host : String) (keychainId : RecordId) : SshServer where
  id := id
  name := "web"
  iconKey := "Server"
  colorKey := "blue"
  host := host
  port := 22
  username := "root"
  strictHostKey := true
  enableSshCompression := false
  remoteEnhancementsEnabled := true
  disableCharacterWidthCompatibilityMode := false
  terminalClipboardAccess := .off
  proxyMode := .default
  proxyUrl := none
  keychainId := keychainId
  note := none
  folderId := none
  tagIds := []
  createdAt := 1
  updatedAt := 1

def passwordFields (host password : String) : ServerFields where
  name := "web"
  host := host
  port := 22
  username := "root"
  authType := some .password
  keychainId := none
  password := some password
  privateKey := none
  privateKeyPassphrase := none
  proxyUrl := none
  folderId := none
  iconKey := none
  colorKey := none
  note := none

def passwordUpdate (host password : String) : ApiSshUpdateServerRequest where
  toServerFields := passwordFields host password
  strictHostKey := none
  enableSshCompression := none
  remoteEnhancementsEnabled := none
  disableCharacterWidthCompatibilityMode := none
  terminalClipboardAccess := none
  proxyMode := none
  tagIds := none

def passwordCreate (host password : String) : ApiSshCreateServerRequest where
  toServerFields := passwordFields host password
  strictHostKey := true
  enableSshCompression := false
  remoteEnhancementsEnabled := true
  disableCharacterWidthCompatibilityMode := false
  terminalClipboardAccess := .off
  proxyMode := .default
  tagIds := []

theorem named_s1 : "s1" ≠ "" := by decide

theorem named_s2 : "s2" ≠ "" := by decide

theorem named_k1 : "k1" ≠ "" := by decide

theorem named_k2 : "k2" ≠ "" := by decide

def twoServers : Database where
  folders := []
  tags := []
  servers := ⟨[plainServer ⟨"s1", named_s1⟩ "a" ⟨"k1", named_k1⟩,
    plainServer ⟨"s2", named_s2⟩ "b" ⟨"k2", named_k2⟩], by decide⟩
  keychains := ⟨[passwordKeychain ⟨"k1", named_k1⟩ "iv:tag:1",
    passwordKeychain ⟨"k2", named_k2⟩ "iv:tag:2"], by decide⟩

def thirdRequest : Environment where
  now := 2
  keychainId := ⟨"k3", by decide⟩
  serverId := ⟨"s3", by decide⟩
  encryptSensitiveValue _ value := "iv:tag:" ++ value

theorem refused_requests_leave_credentials :
    ¬ AllOrNothing thirdRequest (.update (some ⟨"s2", by decide⟩) (.ok (passwordUpdate "a" "3"))) twoServers ∧
      ¬ AllOrNothing thirdRequest (.create (.ok (passwordCreate "a" "3"))) twoServers := by
  constructor
  · intro hAll
    have hSame := congrArg (fun t => t.rows.map (·.passwordEncrypted)) (hAll (by decide)).2
    revert hSame
    decide
  · intro hAll
    have hSame := congrArg (fun t => t.rows.length) (hAll (by decide)).2
    revert hSame
    decide

end Example

end Ssh
