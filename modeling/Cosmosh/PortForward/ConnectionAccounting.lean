import Cosmosh.PortForward.ForwardConnections

/-! # The count of connections

What the count depends on is a ledger: the sockets with their listener, the two sets and what has been counted and
released.
-/

namespace PortForward

open Library

structure SocketAccount where
  remote : Bool
  tracked : Bool
  closeListener : Bool
  closed : Bool

namespace SocketAccount

def isLive (account : SocketAccount) : Bool := account.tracked && !account.closed

def isReleased (account : SocketAccount) : Bool := account.tracked && account.closed

def isLiveOf (remote : Bool) (account : SocketAccount) : Bool := account.isLive && account.remote == remote

def close (account : SocketAccount) : SocketAccount := { account with closeListener := false, closed := true }

@[simp]
theorem isLive_close (account : SocketAccount) : account.close.isLive = false := by
  simp [isLive, close]

end SocketAccount

def ForwardSocket.account (socket : ForwardSocket) : SocketAccount :=
  ⟨socket.type = .remote, socket.tracked, socket.closeListener, socket.closed⟩

structure Ledger where
  accounts : List SocketAccount
  count : Int
  sockets : Bool → List Nat
  disposal : Disposal
  trace : List ConnectionMark

namespace Ledger

def has (ledger : Ledger) (p : SocketAccount → Bool) (id : Nat) : Bool := ledger.accounts[id]?.any p

def KeepsSockets (ledger : Ledger) : Prop := ledger.disposal = .none ∨ ledger.disposal = .silenced

structure Sound (ledger : Ledger) : Prop where
  listening : ∀ account ∈ ledger.accounts, account.closeListener = account.isLive
  balanced : ledger.disposal ≠ .ended → ledger.count = ledger.accounts.countP SocketAccount.isLive
  ended : ledger.disposal = .ended → ledger.count = 0
  capped : ledger.count ≤ MAX_ACTIVE_CONNECTIONS_PER_RULE
  live : ledger.KeepsSockets → ∀ remote id, id ∈ ledger.sockets remote ↔ ledger.has (SocketAccount.isLiveOf remote) id = true
  sized : ledger.KeepsSockets → ledger.count = (ledger.sockets false).length + (ledger.sockets true).length
  emptied : ¬ledger.KeepsSockets → ∀ remote, ledger.sockets remote = []
  unique : ∀ remote, (ledger.sockets remote).Nodup
  counted : ∀ id, ledger.trace.count (.counted id) = if ledger.has SocketAccount.tracked id then 1 else 0
  released : ∀ id, ledger.trace.count (.released id) = if ledger.has SocketAccount.isReleased id then 1 else 0

def append (ledger : Ledger) (account : SocketAccount) : Ledger := { ledger with accounts := ledger.accounts ++ [account] }

def track (ledger : Ledger) (remote : Bool) : Ledger :=
  { ledger with
    accounts := ledger.accounts ++ [⟨remote, true, true, false⟩]
    count := ledger.count + 1
    sockets := Function.update ledger.sockets remote (ledger.sockets remote ++ [ledger.accounts.length])
    trace := ledger.trace ++ [.counted ledger.accounts.length] }

def close (ledger : Ledger) (id : Nat) (account : SocketAccount) : Ledger := { ledger with accounts := ledger.accounts.set id account.close }

def release (ledger : Ledger) (id : Nat) (account : SocketAccount) : Ledger :=
  { ledger.close id account with
    count := max 0 (ledger.count - 1)
    sockets := Function.update ledger.sockets account.remote ((ledger.sockets account.remote).erase id)
    trace := ledger.trace ++ [.released id] }

inductive Step (ledger : Ledger) : Ledger → Prop
  | keep : Step ledger ledger
  | refuse {account : SocketAccount} (hTracked : account.tracked = false) (hListener : account.closeListener = false) :
    Step ledger (ledger.append account)
  | track (remote : Bool) (hKeeps : ledger.KeepsSockets) (hRoom : ledger.count < MAX_ACTIVE_CONNECTIONS_PER_RULE) :
    Step ledger (ledger.track remote)
  | close {id : Nat} {account : SocketAccount} (hAccount : ledger.accounts[id]? = some account)
    (hListener : account.closeListener = false) : Step ledger (ledger.close id account)
  | release {id : Nat} {account : SocketAccount} (hAccount : ledger.accounts[id]? = some account)
    (hListener : account.closeListener = true) : Step ledger (ledger.release id account)
  | silence (hDisposal : ledger.disposal = .none) : Step ledger { ledger with disposal := .silenced }
  | clear (hDisposal : ledger.disposal = .silenced) :
    Step ledger { ledger with sockets := fun _ => [], disposal := .cleared }
  | finish (hDisposal : ledger.disposal = .cleared) : Step ledger { ledger with count := 0, disposal := .ended }

variable (ledger : Ledger)

theorem has_append (account : SocketAccount) (p : SocketAccount → Bool) (id : Nat) :
    (ledger.append account).has p id = (ledger.has p id || (id == ledger.accounts.length && p account)) := by
  unfold has append
  obtain hLess | hEq | hMore := Nat.lt_trichotomy id ledger.accounts.length
  · simp [List.getElem?_append_left hLess, hLess.ne]
  · simp [hEq]
  · simp [List.getElem?_eq_none hMore.le, List.getElem?_append_right hMore.le, hMore.ne',
      List.getElem?_eq_none (show [account].length ≤ id - ledger.accounts.length by simp; omega)]

variable {account : SocketAccount}

theorem has_close {id : Nat} (hAccount : ledger.accounts[id]? = some account) (p : SocketAccount → Bool) (other : Nat) :
    (ledger.close id account).has p other = if other = id then p account.close else ledger.has p other := by
  have hLength : id < ledger.accounts.length := (List.getElem?_eq_some_iff.mp hAccount).1
  unfold has close
  by_cases hId : other = id
  · simp [hId, hLength]
  · simp [hId, List.getElem?_set_ne (Ne.symm hId)]

theorem has_of_account {ledger : Ledger} {id : Nat} (hAccount : ledger.accounts[id]? = some account) (p : SocketAccount → Bool) :
    ledger.has p id = p account := by
  simp [has, hAccount]

theorem has_length (p : SocketAccount → Bool) : ledger.has p ledger.accounts.length = false := by
  simp [has]

theorem countP_close {accounts : List SocketAccount} {id : Nat} (hAccount : accounts[id]? = some account) :
    ((accounts.set id account.close).countP SocketAccount.isLive : Int) =
      accounts.countP SocketAccount.isLive - if account.isLive then 1 else 0 := by
  obtain ⟨hLength, hAt⟩ := List.getElem?_eq_some_iff.mp hAccount
  rw [List.countP_set hLength, hAt, SocketAccount.isLive_close]
  cases hLive : account.isLive with
  | false => simp
  | true =>
    have hPos : 0 < accounts.countP SocketAccount.isLive := List.countP_pos_iff.mpr ⟨account, List.mem_of_getElem? hAccount, hLive⟩
    simp only [reduceIte, Bool.false_eq_true]
    omega

variable {ledger : Ledger}

section

variable (hSound : ledger.Sound)
include hSound

theorem Sound.listening_append (hListener : account.closeListener = account.isLive) :
    ∀ other ∈ (ledger.append account).accounts, other.closeListener = other.isLive := by
  intro other hOther
  obtain hOld | hNew := List.mem_append.mp hOther
  · exact hSound.listening other hOld
  · rw [List.mem_singleton.mp hNew, hListener]

theorem Sound.listening_close (id : Nat) (account : SocketAccount) :
    ∀ other ∈ (ledger.close id account).accounts, other.closeListener = other.isLive := by
  intro other hOther
  obtain hOld | hNew := List.mem_or_eq_of_mem_set hOther
  · exact hSound.listening other hOld
  · rw [hNew, SocketAccount.isLive_close]
    rfl

theorem Sound.refuse (hTracked : account.tracked = false) (hListener : account.closeListener = false) : (ledger.append account).Sound := by
  have hDead : account.isLive = false := by simp [SocketAccount.isLive, hTracked]
  have hSame : ∀ (p : SocketAccount → Bool) (id : Nat), p account = false →
      (ledger.append account).has p id = ledger.has p id := by
    intro p id hp
    simp [has_append, hp]
  constructor
  case listening => exact hSound.listening_append (hListener.trans hDead.symm)
  case balanced =>
    intro hDisposal
    simp only [append, List.countP_append, List.countP_singleton, hDead]
    simpa using hSound.balanced hDisposal
  case ended => exact hSound.ended
  case capped => exact hSound.capped
  case live =>
    intro hKeeps remote id
    rw [hSame _ _ (by simp [SocketAccount.isLiveOf, hDead])]
    exact hSound.live hKeeps remote id
  case sized => exact hSound.sized
  case emptied => exact hSound.emptied
  case unique => exact hSound.unique
  case counted =>
    intro id
    rw [hSame _ _ hTracked]
    exact hSound.counted id
  case released =>
    intro id
    rw [hSame _ _ (by simp [SocketAccount.isReleased, hTracked])]
    exact hSound.released id

theorem Sound.track (remote : Bool) (hKeeps : ledger.KeepsSockets) (hRoom : ledger.count < MAX_ACTIVE_CONNECTIONS_PER_RULE) :
    (ledger.track remote).Sound := by
  have hHas : ∀ (p : SocketAccount → Bool) (id : Nat), (ledger.track remote).has p id =
      (ledger.has p id || (id == ledger.accounts.length && p ⟨remote, true, true, false⟩)) := has_append ledger ⟨remote, true, true, false⟩
  have hRunning : ledger.disposal ≠ .ended := by
    obtain hNone | hSilenced := hKeeps
    · simp [hNone]
    · simp [hSilenced]
  have hNew : ∀ other, ledger.accounts.length ∉ ledger.sockets other := by
    intro other hMem
    simp [hSound.live hKeeps other, has_length] at hMem
  constructor
  case listening => exact hSound.listening_append rfl
  case balanced =>
    intro _
    simp only [Ledger.track, List.countP_append, List.countP_singleton, hSound.balanced hRunning]
    simp [SocketAccount.isLive]
  case ended =>
    intro hEnded
    exact absurd hEnded hRunning
  case capped =>
    show ledger.count + 1 ≤ _
    omega
  case live =>
    intro _ other id
    rw [hHas]
    show id ∈ Function.update ledger.sockets remote _ other ↔ _
    by_cases hOther : other = remote
    · subst hOther
      simp [hSound.live hKeeps, SocketAccount.isLiveOf, SocketAccount.isLive]
    · simp [hOther, Ne.symm hOther, hSound.live hKeeps, SocketAccount.isLiveOf]
  case sized =>
    intro _
    have hSized := hSound.sized hKeeps
    cases remote with
    | false =>
      simp [Ledger.track]
      omega
    | true =>
      simp [Ledger.track]
      omega
  case emptied =>
    intro hEmptied
    exact absurd hKeeps hEmptied
  case unique =>
    refine (Function.forall_update_iff ledger.sockets fun _ => List.Nodup).mpr ⟨?_, fun other _ => hSound.unique other⟩
    rw [← List.concat_eq_append]
    exact (hSound.unique remote).concat (hNew remote)
  case counted =>
    intro id
    rw [hHas]
    simp only [Ledger.track, List.count_append, hSound.counted id]
    by_cases hId : id = ledger.accounts.length
    · simp [hId, has_length]
    · simp [hId, Ne.symm hId]
  case released =>
    intro id
    rw [hHas]
    simp [Ledger.track, List.count_append, hSound.released id, SocketAccount.isReleased]

theorem Sound.close {id : Nat} (hAccount : ledger.accounts[id]? = some account) (hListener : account.closeListener = false) :
    (ledger.close id account).Sound := by
  have hDead : account.isLive = false := by
    rw [← hSound.listening account (List.mem_of_getElem? hAccount), hListener]
  have hSame : ∀ (p : SocketAccount → Bool) (other : Nat), p account.close = p account →
      (ledger.close id account).has p other = ledger.has p other := by
    intro p other hp
    rw [has_close ledger hAccount]
    split
    · next hId => rw [hp, hId, has_of_account hAccount]
    · rfl
  constructor
  case listening => exact hSound.listening_close id account
  case balanced =>
    intro hDisposal
    rw [Ledger.close, countP_close hAccount, hDead]
    simpa using hSound.balanced hDisposal
  case ended => exact hSound.ended
  case capped => exact hSound.capped
  case live =>
    intro hKeeps remote other
    rw [hSame _ _ (by simp [SocketAccount.isLiveOf, hDead])]
    exact hSound.live hKeeps remote other
  case sized => exact hSound.sized
  case emptied => exact hSound.emptied
  case unique => exact hSound.unique
  case counted =>
    intro other
    rw [hSame _ _ rfl]
    exact hSound.counted other
  case released =>
    intro other
    have hReleased : account.close.isReleased = account.isReleased := by
      simp only [SocketAccount.isLive] at hDead
      simp only [SocketAccount.isReleased, SocketAccount.close]
      cases hT : account.tracked <;> simp_all
    rw [hSame _ _ hReleased]
    exact hSound.released other

theorem Sound.release {id : Nat} (hAccount : ledger.accounts[id]? = some account) (hListener : account.closeListener = true) :
    (ledger.release id account).Sound := by
  have hMem : account ∈ ledger.accounts := List.mem_of_getElem? hAccount
  have hLive : account.isLive = true := by rw [← hSound.listening account hMem, hListener]
  have hTracked : account.tracked = true := (Bool.and_eq_true _ _ ▸ hLive : _ ∧ _).1
  have hHas : ∀ (p : SocketAccount → Bool) (other : Nat), (ledger.release id account).has p other =
      if other = id then p account.close else ledger.has p other := has_close ledger hAccount
  constructor
  case listening => exact hSound.listening_close id account
  case balanced =>
    intro hDisposal
    have hPos : 0 < ledger.accounts.countP SocketAccount.isLive := List.countP_pos_iff.mpr ⟨account, hMem, hLive⟩
    have hCount := countP_close hAccount
    have hBalanced := hSound.balanced hDisposal
    simp only [hLive, reduceIte] at hCount
    simp only [Ledger.release, Ledger.close]
    omega
  case ended =>
    intro hEnded
    have hZero := hSound.ended hEnded
    simp only [Ledger.release]
    omega
  case capped =>
    have hCapped := hSound.capped
    simp only [Ledger.release, MAX_ACTIVE_CONNECTIONS_PER_RULE] at hCapped ⊢
    omega
  case live =>
    intro hKeeps remote other
    have hOld := hSound.live hKeeps remote other
    rw [hHas]
    simp only [Ledger.release]
    by_cases hRemote : remote = account.remote
    · subst hRemote
      rw [Function.update_self, (hSound.unique _).mem_erase_iff]
      by_cases hId : other = id
      · simp [hId, SocketAccount.isLiveOf]
      · simp [hId, hOld]
    · rw [Function.update_of_ne hRemote, hOld]
      by_cases hId : other = id
      · simp [hId, SocketAccount.isLiveOf, has_of_account hAccount, Ne.symm hRemote]
      · simp [hId]
  case sized =>
    intro hKeeps
    have hIn : id ∈ ledger.sockets account.remote := by
      rw [hSound.live hKeeps, has_of_account hAccount]
      simp [SocketAccount.isLiveOf, hLive]
    have hErased := List.length_erase_of_mem hIn
    have hPos := List.length_pos_of_mem hIn
    have hSized := hSound.sized hKeeps
    simp only [Ledger.release]
    cases hRemote : account.remote with
    | false =>
      rw [hRemote] at hErased hPos
      simp
      omega
    | true =>
      rw [hRemote] at hErased hPos
      simp
      omega
  case emptied =>
    intro hEmptied
    have hEmpty := hSound.emptied hEmptied
    refine (Function.forall_update_iff ledger.sockets fun _ => (· = [])).mpr ⟨?_, fun remote _ => hEmpty remote⟩
    rw [hEmpty, List.erase_nil]
  case unique =>
    refine (Function.forall_update_iff ledger.sockets fun _ => List.Nodup).mpr ⟨?_, fun remote _ => hSound.unique remote⟩
    exact (hSound.unique account.remote).erase id
  case counted =>
    intro other
    rw [hHas]
    simp only [Ledger.release, List.count_append, hSound.counted other]
    by_cases hId : other = id
    · simp [hId, has_of_account hAccount, hTracked, SocketAccount.close]
    · simp [hId]
  case released =>
    intro other
    have hOpen : account.closed = false := by
      simpa only [SocketAccount.isLive, hTracked, Bool.true_and, Bool.not_eq_true'] using hLive
    rw [hHas]
    simp only [Ledger.release, List.count_append, hSound.released other]
    by_cases hId : other = id
    · simp [hId, has_of_account hAccount, hOpen, SocketAccount.isReleased, SocketAccount.close, hTracked]
    · simp [hId, Ne.symm hId]

theorem Sound.silence (hDisposal : ledger.disposal = .none) : ({ ledger with disposal := .silenced } : Ledger).Sound where
  listening := hSound.listening
  balanced _ := hSound.balanced (by simp [hDisposal])
  ended := nofun
  capped := hSound.capped
  live _ := hSound.live (.inl hDisposal)
  sized _ := hSound.sized (.inl hDisposal)
  emptied hEmptied := absurd (.inr rfl) hEmptied
  unique := hSound.unique
  counted := hSound.counted
  released := hSound.released

theorem Sound.clear (hDisposal : ledger.disposal = .silenced) :
    ({ ledger with sockets := fun _ => [], disposal := .cleared } : Ledger).Sound where
  listening := hSound.listening
  balanced _ := hSound.balanced (by simp [hDisposal])
  ended := nofun
  capped := hSound.capped
  live hKeeps := by simp [KeepsSockets] at hKeeps
  sized hKeeps := by simp [KeepsSockets] at hKeeps
  emptied _ _ := rfl
  unique _ := List.nodup_nil
  counted := hSound.counted
  released := hSound.released

theorem Sound.finish (hDisposal : ledger.disposal = .cleared) : ({ ledger with count := 0, disposal := .ended } : Ledger).Sound where
  listening := hSound.listening
  balanced hEnded := absurd rfl hEnded
  ended _ := rfl
  capped := by simp [MAX_ACTIVE_CONNECTIONS_PER_RULE]
  live hKeeps := by simp [KeepsSockets] at hKeeps
  sized hKeeps := by simp [KeepsSockets] at hKeeps
  emptied _ := hSound.emptied (by simp [KeepsSockets, hDisposal])
  unique := hSound.unique
  counted := hSound.counted
  released := hSound.released

end

theorem Step.sound {next : Ledger} (hStep : ledger.Step next) (hSound : ledger.Sound) : next.Sound := by
  cases hStep with
  | keep => exact hSound
  | refuse hTracked hListener => exact hSound.refuse hTracked hListener
  | track remote hKeeps hRoom => exact hSound.track remote hKeeps hRoom
  | close hAccount hListener => exact hSound.close hAccount hListener
  | release hAccount hListener => exact hSound.release hAccount hListener
  | silence hDisposal => exact hSound.silence hDisposal
  | clear hDisposal => exact hSound.clear hDisposal
  | finish hDisposal => exact hSound.finish hDisposal

end Ledger

namespace RuntimeConnections

def ledger (runtime : RuntimeConnections) : Ledger where
  accounts := runtime.sockets.map ForwardSocket.account
  count := runtime.activeConnectionCount
  sockets remote := if remote then runtime.remoteSockets else runtime.localSockets
  disposal := runtime.disposal
  trace := runtime.trace

variable (runtime : RuntimeConnections)

variable (id : Nat)

theorem ledger_modifySocket {change : ForwardSocket → ForwardSocket} (hChange : ∀ socket, (change socket).account = socket.account) :
    (runtime.modifySocket id change).ledger = runtime.ledger := by
  have hAccounts : (runtime.sockets.modify id change).map ForwardSocket.account =
      runtime.sockets.map ForwardSocket.account := by
    apply List.ext_getElem?
    intro other
    rw [List.getElem?_map, List.getElem?_map, List.getElem?_modify]
    cases runtime.sockets[other]? with
    | none => rfl
    | some socket =>
      simp only [Option.map_eq_map, Option.map_some]
      split
      · rw [hChange]
      · rfl
  simp only [ledger, modifySocket, hAccounts]

@[simp] theorem ledger_modifyChannel (change : ForwardChannel → ForwardChannel) :
    (runtime.modifyChannel id change).ledger = runtime.ledger := rfl

@[simp] theorem ledger_destroyChannel : (runtime.destroyChannel id).ledger = runtime.ledger := rfl

@[simp] theorem ledger_destroySocket : (runtime.destroySocket id).ledger = runtime.ledger := runtime.ledger_modifySocket id fun _ => rfl

variable {socket : ForwardSocket}

theorem ledger_closed (hSocket : runtime.sockets[id]? = some socket) (change : ForwardSocket → ForwardSocket)
    (hChange : (change socket).account = socket.account.close) :
    (runtime.modifySocket id change).ledger = runtime.ledger.close id socket.account := by
  have hAccounts : (runtime.sockets.modify id change).map ForwardSocket.account =
      (runtime.sockets.map ForwardSocket.account).set id socket.account.close := by
    obtain ⟨hLength, hAt⟩ := List.getElem?_eq_some_iff.mp hSocket
    apply List.ext_getElem?
    intro other
    rw [List.getElem?_map, List.getElem?_modify]
    by_cases hOther : id = other
    · subst hOther
      simp [hAt, hChange, hLength]
    · simp [hOther]
  simp only [ledger, modifySocket, Ledger.close, hAccounts]

theorem ledger_clearSockets : runtime.clearSockets.ledger = { runtime.ledger with sockets := fun _ => [], disposal := .cleared } := by
  have hAccounts : runtime.clearSockets.sockets.map ForwardSocket.account =
      runtime.sockets.map ForwardSocket.account := by
    apply List.ext_getElem?
    intro id
    simp only [clearSockets, List.getElem?_map, List.getElem?_mapIdx]
    cases runtime.sockets[id]? with
    | none => rfl
    | some socket =>
      simp only [Option.map_some]
      split <;> rfl
  have hSockets : (fun remote : Bool => if remote then runtime.clearSockets.remoteSockets
      else runtime.clearSockets.localSockets) = fun _ => [] := by
    funext remote
    cases remote <;> rfl
  simp only [ledger, hAccounts, hSockets]
  rfl

theorem ledger_append (socket : ForwardSocket) :
    { runtime with sockets := runtime.sockets ++ [socket] }.ledger = runtime.ledger.append socket.account := by
  simp [ledger, Ledger.append]

theorem ledger_trackLocalSocket (type : PortForwardType) (hType : type ≠ .remote) :
    (runtime.trackLocalSocket type).ledger = runtime.ledger.track false := by
  have hAccount : (trackedSocket type (firstStage type)).account = ⟨false, true, true, false⟩ := by
    simp [ForwardSocket.account, trackedSocket, hType]
  have hSockets : (fun remote : Bool => if remote then runtime.remoteSockets
      else runtime.localSockets ++ [runtime.sockets.length]) =
      Function.update (runtime.ledger.sockets) false (runtime.ledger.sockets false ++ [runtime.sockets.length]) := by
    funext remote
    cases remote <;> rfl
  simp only [ledger, trackLocalSocket, Ledger.track, List.map_append, List.map_cons, List.map_nil, hAccount,
    List.length_map]
  rw [hSockets]
  rfl

theorem pipeRemoteForwardConnection_ledger (hKeeps : runtime.ledger.KeepsSockets)
    (hRoom : runtime.activeConnectionCount < MAX_ACTIVE_CONNECTIONS_PER_RULE) :
    runtime.ledger.Step runtime.pipeRemoteForwardConnection.ledger := by
  unfold pipeRemoteForwardConnection
  split
  · exact .keep
  · have hStep : runtime.ledger.Step (runtime.ledger.track true) := .track true hKeeps hRoom
    convert hStep using 1
    simp only [ledger, Ledger.track, List.map_append, List.map_cons, List.map_nil, List.length_map]
    congr 1
    funext remote
    cases remote <;> rfl

theorem handleTcpConnection_ledger {type : PortForwardType} (hType : type ≠ .remote)
    (hKeeps : runtime.ledger.KeepsSockets) : runtime.ledger.Step (runtime.handleTcpConnection type).ledger := by
  unfold handleTcpConnection
  split
  · rw [ledger_append]
    exact .refuse rfl rfl
  · next hRoom =>
    rw [ledger_trackLocalSocket runtime type hType]
    exact .track false hKeeps (Int.not_le.mp hRoom)

theorem forwardedOut_ledger (error : Option Text) : (runtime.forwardedOut id error).ledger = runtime.ledger := by
  cases error with
  | none => exact ledger_modifySocket _ id fun _ => rfl
  | some message => exact ledger_modifySocket _ id fun _ => rfl

theorem socketFailed_ledger (socket : ForwardSocket) (message : Text) : (runtime.socketFailed id socket message).ledger = runtime.ledger := by
  have hListener : (runtime.modifySocket id fun socket => { socket with errorListener := false }).ledger =
      runtime.ledger := runtime.ledger_modifySocket id fun _ => rfl
  unfold socketFailed
  simp only
  split
  · split
    · exact hListener
    · exact hListener
  · exact hListener

theorem socketTimedOut_ledger (socket : ForwardSocket) : (runtime.socketTimedOut id socket).ledger = runtime.ledger := by
  have hListener : (runtime.modifySocket id fun socket => { socket with timeoutListener := false }).ledger =
      runtime.ledger := runtime.ledger_modifySocket id fun _ => rfl
  unfold socketTimedOut
  simp only
  split
  · rw [ledger_destroySocket, hListener]
  · exact hListener

theorem channelClosed_ledger (channel : ForwardChannel) (type : PortForwardType) :
    (runtime.channelClosed id channel type).ledger = runtime.ledger := by
  unfold channelClosed
  simp only
  split
  · split
    · rw [ledger_destroySocket, ledger_modifyChannel]
    · rfl
  · rfl

theorem channelFailed_ledger (channel : ForwardChannel) (message : Text) :
    (runtime.channelFailed id channel message).ledger = runtime.ledger := by
  unfold channelFailed
  simp only
  split
  · rw [ledger_destroySocket]
    rfl
  · rfl

theorem cleanup_ledger {closed : RuntimeConnections} (hClosed : closed.ledger = runtime.ledger.close id socket.account) :
    (closed.cleanup id socket).ledger = runtime.ledger.release id socket.account := by
  have hCount : closed.activeConnectionCount = runtime.activeConnectionCount := congrArg Ledger.count hClosed
  have hTrace : closed.trace = runtime.trace := congrArg Ledger.trace hClosed
  have hDisposal : closed.disposal = runtime.disposal := congrArg Ledger.disposal hClosed
  have hAccounts : closed.sockets.map ForwardSocket.account =
      (runtime.sockets.map ForwardSocket.account).set id socket.account.close := congrArg Ledger.accounts hClosed
  have hLocal : closed.localSockets = runtime.localSockets := congrFun (congrArg Ledger.sockets hClosed) false
  have hRemote : closed.remoteSockets = runtime.remoteSockets := congrFun (congrArg Ledger.sockets hClosed) true
  unfold cleanup
  by_cases hType : socket.type = .remote
  · have hKind : socket.account.remote = true := by simp [ForwardSocket.account, hType]
    simp only [hType, reduceIte, cleanupRemoteSocket, release, ledger, Ledger.release, Ledger.close, hKind, hCount,
      hTrace, hDisposal, hAccounts, hLocal, hRemote]
    congr 1
    funext remote
    cases remote <;> rfl
  · have hKind : socket.account.remote = false := by simp [ForwardSocket.account, hType]
    simp only [hType, reduceIte, cleanupLocalSocket, release, ledger, Ledger.release, Ledger.close, hKind, hCount,
      hTrace, hDisposal, hAccounts, hLocal, hRemote]
    congr 1
    funext remote
    cases remote <;> rfl

theorem socketClosed_ledger (hSocket : runtime.sockets[id]? = some socket) : runtime.ledger.Step (runtime.socketClosed id socket).ledger := by
  have hAccount : runtime.ledger.accounts[id]? = some socket.account := by simp [ledger, hSocket]
  have hClosed := runtime.ledger_closed id hSocket
    (fun socket => { socket with closed := true, closeListener := false, pipeListener := false }) rfl
  have hPipe : ∀ next : RuntimeConnections,
      (if socket.pipeListener then socket.channel.elim next next.destroyChannel else next).ledger = next.ledger := by
    intro next
    split
    · cases socket.channel <;> rfl
    · rfl
  unfold socketClosed
  simp only [hPipe]
  split
  · next hListener =>
    rw [cleanup_ledger runtime id hClosed]
    exact .release hAccount hListener
  · next hListener =>
    rw [hClosed]
    exact .close hAccount (Bool.eq_false_iff.mpr hListener)

end RuntimeConnections

theorem stepConnection_ledger (runtime : RuntimeConnections) (event : ConnectionEvent) :
    runtime.ledger.Step (stepConnection runtime event).ledger := by
  have hKeep : ∀ {next : RuntimeConnections}, next.ledger = runtime.ledger → runtime.ledger.Step next.ledger := by
    intro next hNext
    rw [hNext]
    exact .keep
  cases event with
  | connection =>
    simp only [stepConnection]
    split
    · next hOpen => exact runtime.handleTcpConnection_ledger hOpen.1 hOpen.2
    · exact .keep
  | tcpConnection accepts =>
    simp only [stepConnection, RuntimeConnections.tcpConnectionListener]
    split
    · next hOpen =>
      split
      · exact .keep
      · next hRoom =>
        split
        · exact runtime.pipeRemoteForwardConnection_ledger (.inl hOpen.2) (Int.not_le.mp hRoom)
        · exact .keep
    · exact .keep
  | socksDone id connects =>
    simp only [stepConnection]
    split
    · exact .keep
    · split
      · split
        · exact hKeep (runtime.ledger_modifySocket id fun _ => rfl)
        · exact hKeep (runtime.ledger_destroySocket id)
      · exact .keep
  | forwardedOut id error =>
    simp only [stepConnection]
    split
    · exact .keep
    · split
      · exact hKeep (runtime.forwardedOut_ledger id error)
      · exact .keep
  | socketError id message =>
    simp only [stepConnection]
    split
    · exact .keep
    · next socket _ => exact hKeep (runtime.socketFailed_ledger id socket message)
  | socketTimeout id =>
    simp only [stepConnection]
    split
    · exact .keep
    · next socket _ => exact hKeep (runtime.socketTimedOut_ledger id socket)
  | socketEnd id => exact .keep
  | socketClose id =>
    simp only [stepConnection]
    split
    · exact .keep
    · next hSocket => exact runtime.socketClosed_ledger id hSocket
  | channelError id message =>
    simp only [stepConnection]
    split
    · exact .keep
    · next channel _ => exact hKeep (runtime.channelFailed_ledger id channel message)
  | channelEnd id => exact .keep
  | channelClose id =>
    simp only [stepConnection]
    split
    · exact .keep
    · next channel _ => exact hKeep (runtime.channelClosed_ledger id channel runtime.rule.type)
  | silence =>
    simp only [stepConnection]
    split
    · next hDisposal => exact .silence hDisposal
    · exact .keep
  | clear =>
    simp only [stepConnection]
    split
    · next hDisposal =>
      rw [runtime.ledger_clearSockets]
      exact .clear hDisposal
    · exact .keep
  | disposed =>
    simp only [stepConnection]
    split
    · next hDisposal => exact .finish hDisposal
    · exact .keep

theorem sound_newConnections (rule : PortForwardRule) : (newConnections rule).ledger.Sound where
  listening := nofun
  balanced _ := rfl
  ended := nofun
  capped := by simp [RuntimeConnections.ledger, newConnections, MAX_ACTIVE_CONNECTIONS_PER_RULE]
  live _ remote id := by cases remote <;> simp [RuntimeConnections.ledger, newConnections, Ledger.has]
  sized _ := rfl
  emptied hEmptied := absurd (.inl rfl) hEmptied
  unique remote := by cases remote <;> simp [RuntimeConnections.ledger, newConnections]
  counted id := by simp [RuntimeConnections.ledger, newConnections, Ledger.has]
  released id := by simp [RuntimeConnections.ledger, newConnections, Ledger.has]

theorem ledger_sound {runtime : RuntimeConnections} (hReachable : runtimeConnections.Reachable runtime) : runtime.ledger.Sound := by
  refine hReachable.invariant (P := fun runtime => runtime.ledger.Sound) ?_ ?_
  · rintro _ ⟨rule, rfl⟩
    exact sound_newConnections rule
  · intro runtime event _ hSound
    exact (stepConnection_ledger runtime event).sound hSound

namespace RuntimeConnections

def trackedSockets (runtime : RuntimeConnections) : List Nat := runtime.localSockets ++ runtime.remoteSockets

def KeepsSockets (runtime : RuntimeConnections) : Prop := runtime.disposal = .none ∨ runtime.disposal = .silenced

/-- A disposal first empties the sets, then waits for the server, and then forgets the count. -/
structure Accounted (runtime : RuntimeConnections) : Prop where
  balanced : runtime.KeepsSockets → runtime.activeConnectionCount = runtime.trackedSockets.length
  unique : runtime.trackedSockets.Nodup
  live : runtime.KeepsSockets → ∀ id, id ∈ runtime.trackedSockets ↔
    ∃ socket, runtime.sockets[id]? = some socket ∧ socket.tracked = true ∧ socket.closed = false
  outstanding : runtime.disposal ≠ .ended →
    runtime.activeConnectionCount = runtime.sockets.countP fun socket => socket.tracked && !socket.closed
  ended : runtime.disposal = .ended → runtime.activeConnectionCount = 0 ∧ runtime.trackedSockets = []
  nonneg : 0 ≤ runtime.activeConnectionCount
  capped : runtime.activeConnectionCount ≤ MAX_ACTIVE_CONNECTIONS_PER_RULE
  counted : ∀ id, runtime.trace.count (.counted id) =
    if runtime.sockets[id]?.any ForwardSocket.tracked then 1 else 0
  released : ∀ id, runtime.trace.count (.released id) =
    if runtime.sockets[id]?.any fun socket => socket.tracked && socket.closed then 1 else 0

variable {runtime : RuntimeConnections}

theorem has_ledger (p : SocketAccount → Bool) (id : Nat) :
    runtime.ledger.has p id = runtime.sockets[id]?.any fun socket => p socket.account := by
  unfold Ledger.has ledger
  rw [List.getElem?_map]
  cases runtime.sockets[id]? <;> rfl

theorem mem_trackedSockets (hSound : runtime.ledger.Sound) (hKeeps : runtime.KeepsSockets) (id : Nat) : id ∈ runtime.trackedSockets ↔
      ∃ socket, runtime.sockets[id]? = some socket ∧ socket.tracked = true ∧ socket.closed = false := by
  have hSets : id ∈ runtime.trackedSockets ↔ id ∈ runtime.ledger.sockets false ∨ id ∈ runtime.ledger.sockets true := List.mem_append
  rw [hSets, hSound.live hKeeps, hSound.live hKeeps, has_ledger, has_ledger]
  cases hSocket : runtime.sockets[id]? with
  | none => simp
  | some socket =>
    cases hType : decide (socket.type = .remote) <;>
      simp [SocketAccount.isLiveOf, SocketAccount.isLive, ForwardSocket.account, hType]

theorem nodup_trackedSockets (hSound : runtime.ledger.Sound) : runtime.trackedSockets.Nodup := by
  refine List.nodup_append.mpr ⟨hSound.unique false, hSound.unique true, ?_⟩
  rintro id hLocal other hRemote rfl
  by_cases hKeeps : runtime.ledger.KeepsSockets
  · have hHere := (hSound.live hKeeps false id).mp hLocal
    have hThere := (hSound.live hKeeps true id).mp hRemote
    rw [has_ledger] at hHere hThere
    cases hSocket : runtime.sockets[id]? with
    | none => simp [hSocket] at hHere
    | some socket =>
      simp only [hSocket, Option.any_some, SocketAccount.isLiveOf, Bool.and_eq_true, beq_iff_eq] at hHere hThere
      exact absurd (hHere.2.symm.trans hThere.2) Bool.false_ne_true
  · have hEmpty : runtime.localSockets = [] := hSound.emptied hKeeps false
    simp [hEmpty] at hLocal

theorem connections_are_accounted (hReachable : runtimeConnections.Reachable runtime) : runtime.Accounted := by
  have hSound := ledger_sound hReachable
  have hLive : runtime.ledger.accounts.countP SocketAccount.isLive =
      runtime.sockets.countP fun socket => socket.tracked && !socket.closed := List.countP_map
  have hOutstanding : runtime.disposal ≠ .ended → runtime.activeConnectionCount =
      runtime.sockets.countP fun socket => socket.tracked && !socket.closed := by
    intro hDisposal
    rw [← hLive]
    exact hSound.balanced hDisposal
  constructor
  case balanced =>
    intro hKeeps
    rw [trackedSockets, List.length_append, Int.natCast_add]
    exact hSound.sized hKeeps
  case unique => exact nodup_trackedSockets hSound
  case live => exact mem_trackedSockets hSound
  case outstanding => exact hOutstanding
  case ended =>
    intro hEnded
    have hGone : ¬runtime.ledger.KeepsSockets := by simp [Ledger.KeepsSockets, ledger, hEnded]
    have hLocal : runtime.localSockets = [] := hSound.emptied hGone false
    have hRemote : runtime.remoteSockets = [] := hSound.emptied hGone true
    exact ⟨hSound.ended hEnded, by rw [trackedSockets, hLocal, hRemote, List.append_nil]⟩
  case nonneg =>
    by_cases hEnded : runtime.disposal = .ended
    · exact Int.le_of_eq (hSound.ended hEnded).symm
    · have hCount := hOutstanding hEnded
      omega
  case capped => exact hSound.capped
  case counted =>
    intro id
    have hCounted := hSound.counted id
    rw [has_ledger] at hCounted
    exact hCounted
  case released =>
    intro id
    have hReleased := hSound.released id
    rw [has_ledger] at hReleased
    exact hReleased

theorem failing_connection_is_accounted : (runtimeConnections.run (newConnections ⟨.«local», none, some 80, none, none, none, some 80⟩)
      [.connection, .connection, .forwardedOut 0 none, .socketError 0 ['r'], .socketClose 0, .socketClose 0]).Accounted :=
  connections_are_accounted ((Transition.Machine.Reachable.start (m := runtimeConnections) ⟨_, rfl⟩).run _)

end RuntimeConnections

end PortForward
