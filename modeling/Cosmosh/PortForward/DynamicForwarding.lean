import Cosmosh.PortForward.Socks5

/-! # A client of a dynamic forward

What the client sends arrives in pieces.
-/

namespace PortForward

open Library Library.JsText Socks5

inductive SocksStage
  | greeting
  | request
  | piping
  deriving DecidableEq

inductive DataListener
  | none
  | onData
  | pipe
  deriving DecidableEq

/-- A call of `forwardOut` that has not called back. -/
structure PendingForward where
  host : Text
  port : Nat
  initialData : Bytes
  deriving DecidableEq

/-- `written` and `delivered` are what the socket and the channel were given. -/
structure DynamicConnection where
  stage : SocksStage
  buffer : Bytes
  dataListener : DataListener
  destroyed : Bool
  forwardingOut : Option PendingForward
  requested : Option (Text × Nat)
  written : List Bytes
  delivered : Bytes
  lastError : Option Text
  deriving DecidableEq

inductive SocksEvent
  | data (chunk : Bytes)
  | forwardedOut (error : Option Text)
  deriving DecidableEq

namespace DynamicConnection

def new : DynamicConnection where
  stage := .greeting
  buffer := []
  dataListener := .onData
  destroyed := false
  forwardingOut := none
  requested := none
  written := []
  delivered := []
  lastError := none

variable (connection : DynamicConnection)

def handleSocksConnect (host : Text) (port : Nat) (initialData : Bytes) : DynamicConnection :=
  { connection with forwardingOut := some ⟨host, port, initialData⟩, requested := some (host, port) }

def refuse (code : UInt8) : DynamicConnection := { connection with written := connection.written ++ [socks5Response code], destroyed := true }

def readRequest : DynamicConnection :=
  match parseSocks5ConnectRequest connection.buffer with
  | .needMoreData => connection
  | .unsupported code _ | .invalid code _ => connection.refuse code
  | .connect host port consumedBytes =>
    { connection with stage := .piping, dataListener := .none }.handleSocksConnect host port
      (connection.buffer.drop consumedBytes)

def readGreeting : DynamicConnection :=
  if connection.buffer.length < 2 then connection
  else if connection.buffer.length < 2 + (byteAt connection.buffer 1).toNat then connection
  else
    match handleSocks5Greeting connection.buffer with
    | (replies, none) => { connection with written := connection.written ++ replies, destroyed := true }
    | (replies, some remaining) =>
      { connection with written := connection.written ++ replies, buffer := remaining, stage := .request }.readRequest

def onData (chunk : Bytes) : DynamicConnection :=
  let connection := { connection with buffer := connection.buffer ++ chunk }
  match connection.stage with
  | .greeting => connection.readGreeting
  | .request => connection.readRequest
  | .piping => connection

/-- The callback of `forwardOut`. -/
def forwardedOut (pending : PendingForward) : Option Text → DynamicConnection
  | some message => { connection with lastError := some message, forwardingOut := none }.refuse 0x05
  | none =>
    { connection with
      forwardingOut := none
      written := connection.written ++ [socks5Response 0x00]
      delivered := if pending.initialData.length > 0 then connection.delivered ++ pending.initialData
        else connection.delivered
      dataListener := .pipe }

def step : SocksEvent → DynamicConnection
  | .data chunk =>
    if connection.destroyed then connection
    else
      match connection.dataListener with
      | .none => connection
      | .onData => connection.onData chunk
      | .pipe => { connection with delivered := connection.delivered ++ chunk }
  | .forwardedOut error =>
    match connection.forwardingOut with
    | none => connection
    | some pending => connection.forwardedOut pending error

end DynamicConnection

def afterStream (stream : Bytes) : DynamicConnection := DynamicConnection.new.onData stream

variable {connection : DynamicConnection}

theorem readGreeting_waiting (h : greeted connection.buffer = false) : connection.readGreeting = connection := by
  simp only [greeted, Bool.and_eq_false_iff, decide_eq_false_iff_not, not_le] at h
  rw [DynamicConnection.readGreeting]
  split
  · rfl
  · rw [if_pos (h.resolve_left ‹_›)]

theorem readGreeting_greeted (h : greeted connection.buffer = true) :
    connection.readGreeting = match handleSocks5Greeting connection.buffer with
      | (replies, none) => { connection with written := connection.written ++ replies, destroyed := true }
      | (replies, some remaining) =>
        { connection with
          written := connection.written ++ replies, buffer := remaining, stage := .request }.readRequest := by
  simp only [greeted, Bool.and_eq_true, decide_eq_true_eq] at h
  rw [DynamicConnection.readGreeting, if_neg (by omega), if_neg (by omega)]

theorem afterStream_eq (stream : Bytes) : afterStream stream = { DynamicConnection.new with buffer := stream }.readGreeting := rfl

variable {stream : Bytes}

theorem afterStream_waiting (h : greeted stream = false) : afterStream stream = { DynamicConnection.new with buffer := stream } := by
  rw [afterStream_eq, readGreeting_waiting h]

def requesting (replies : List Bytes) (remaining : Bytes) : DynamicConnection :=
  { DynamicConnection.new with buffer := remaining, written := replies, stage := .request }

variable {replies : List Bytes}

theorem afterStream_rejected (h : greeted stream = true) (hGreeting : handleSocks5Greeting stream = (replies, none)) :
    afterStream stream = { DynamicConnection.new with buffer := stream, written := replies, destroyed := true } := by
  rw [afterStream_eq, readGreeting_greeted h]
  simp only [hGreeting]
  rfl

theorem afterStream_requesting (h : greeted stream = true) {remaining : Bytes}
    (hGreeting : handleSocks5Greeting stream = (replies, some remaining)) :
    afterStream stream = (requesting replies remaining).readRequest := by
  rw [afterStream_eq, readGreeting_greeted h]
  simp only [hGreeting]
  rfl

theorem readRequest_waiting (h : (parseSocks5ConnectRequest connection.buffer).verdict = none) : connection.readRequest = connection := by
  rw [DynamicConnection.readRequest]
  split <;> simp_all [ConnectRequest.verdict]

theorem readRequest_refused {code : UInt8} (h : (parseSocks5ConnectRequest connection.buffer).verdict = some (.refused code)) :
    connection.readRequest = connection.refuse code := by
  rw [DynamicConnection.readRequest]
  split <;> simp_all [ConnectRequest.verdict]

theorem readRequest_connect {host : Text} {port consumedBytes : Nat}
    (h : (parseSocks5ConnectRequest connection.buffer).verdict = some (.connect host port consumedBytes)) :
    connection.readRequest = { connection with stage := .piping, dataListener := .none }.handleSocksConnect host port
      (connection.buffer.drop consumedBytes) := by
  rw [DynamicConnection.readRequest]
  split <;> simp_all [ConnectRequest.verdict]

inductive Handshake (stream : Bytes) : Prop
  | waiting (h : greeted stream = false)
  | rejected (replies : List Bytes) (h : greeted stream = true)
      (hGreeting : handleSocks5Greeting stream = (replies, none))
  | requesting (replies : List Bytes) (remaining : Bytes) (h : greeted stream = true)
      (hGreeting : handleSocks5Greeting stream = (replies, some remaining))
      (hVerdict : (parseSocks5ConnectRequest remaining).verdict = none)
  | refused (replies : List Bytes) (remaining : Bytes) (code : UInt8) (h : greeted stream = true)
      (hGreeting : handleSocks5Greeting stream = (replies, some remaining))
      (hVerdict : (parseSocks5ConnectRequest remaining).verdict = some (.refused code))
  | connecting (replies : List Bytes) (remaining : Bytes) (host : Text) (port consumedBytes : Nat)
      (h : greeted stream = true) (hGreeting : handleSocks5Greeting stream = (replies, some remaining))
      (hVerdict : (parseSocks5ConnectRequest remaining).verdict = some (.connect host port consumedBytes))

theorem handshake (stream : Bytes) : Handshake stream := by
  cases h : greeted stream with
  | false => exact .waiting h
  | true =>
    rcases hGreeting : handleSocks5Greeting stream with ⟨replies, remaining | remaining⟩
    · exact .rejected replies h hGreeting
    · rcases hVerdict : (parseSocks5ConnectRequest remaining).verdict with _ | ⟨host, port, consumedBytes⟩ | code
      · exact .requesting replies remaining h hGreeting hVerdict
      · exact .connecting replies remaining host port consumedBytes h hGreeting hVerdict
      · exact .refused replies remaining code h hGreeting hVerdict

theorem handleSocks5Greeting_more (h : greeted stream = true) {remaining : Option Bytes}
    (hGreeting : handleSocks5Greeting stream = (replies, remaining)) (more : Bytes) :
    handleSocks5Greeting (stream ++ more) = (replies, remaining.map fun rest => rest ++ more) := by
  rw [handleSocks5Greeting_append h, hGreeting]

theorem onData_afterStream (hListening : (afterStream stream).dataListener = .onData)
    (hAlive : (afterStream stream).destroyed = false) (more : Bytes) : (afterStream stream).onData more = afterStream (stream ++ more) := by
  cases handshake stream with
  | waiting h =>
    rw [afterStream_waiting h]
    rfl
  | rejected replies h hGreeting =>
    rw [afterStream_rejected h hGreeting] at hAlive
    cases hAlive
  | requesting replies remaining h hGreeting hVerdict =>
    rw [afterStream_requesting h hGreeting, readRequest_waiting hVerdict,
      afterStream_requesting (greeted_append h more) (handleSocks5Greeting_more h hGreeting more)]
    rfl
  | refused replies remaining code h hGreeting hVerdict =>
    rw [afterStream_requesting h hGreeting, readRequest_refused hVerdict] at hAlive
    cases hAlive
  | connecting replies remaining host port consumedBytes h hGreeting hVerdict =>
    rw [afterStream_requesting h hGreeting, readRequest_connect hVerdict] at hListening
    cases hListening

structure SocksEffect where
  written : List Bytes
  destroyed : Bool
  requested : Option (Text × Nat)
  delivered : Bytes
  deriving DecidableEq

def DynamicConnection.effect (connection : DynamicConnection) : SocksEffect :=
  ⟨connection.written, connection.destroyed, connection.requested, connection.delivered⟩

theorem effect_afterStream_of_destroyed (h : (afterStream stream).destroyed = true) (more : Bytes) :
    (afterStream (stream ++ more)).effect = (afterStream stream).effect := by
  cases handshake stream with
  | waiting hWaiting =>
    rw [afterStream_waiting hWaiting] at h
    cases h
  | rejected replies hGreeted hGreeting =>
    rw [afterStream_rejected hGreeted hGreeting,
      afterStream_rejected (greeted_append hGreeted more) (handleSocks5Greeting_more hGreeted hGreeting more)]
    rfl
  | requesting replies remaining hGreeted hGreeting hVerdict =>
    rw [afterStream_requesting hGreeted hGreeting, readRequest_waiting hVerdict] at h
    cases h
  | refused replies remaining code hGreeted hGreeting hVerdict =>
    rw [afterStream_requesting hGreeted hGreeting, readRequest_refused hVerdict,
      afterStream_requesting (greeted_append hGreeted more) (handleSocks5Greeting_more hGreeted hGreeting more),
      readRequest_refused (parseSocks5ConnectRequest_append hVerdict more)]
    rfl
  | connecting replies remaining host port consumedBytes hGreeted hGreeting hVerdict =>
    rw [afterStream_requesting hGreeted hGreeting, readRequest_connect hVerdict] at h
    cases h

theorem afterStream_of_forwarding {pending : PendingForward} (h : (afterStream stream).forwardingOut = some pending) (more : Bytes) :
    ∃ buffer, afterStream (stream ++ more) = { afterStream stream with
      buffer := buffer, forwardingOut := some { pending with initialData := pending.initialData ++ more } } := by
  cases handshake stream with
  | waiting hWaiting =>
    rw [afterStream_waiting hWaiting] at h
    cases h
  | rejected replies hGreeted hGreeting =>
    rw [afterStream_rejected hGreeted hGreeting] at h
    cases h
  | requesting replies remaining hGreeted hGreeting hVerdict =>
    rw [afterStream_requesting hGreeted hGreeting, readRequest_waiting hVerdict] at h
    cases h
  | refused replies remaining code hGreeted hGreeting hVerdict =>
    rw [afterStream_requesting hGreeted hGreeting, readRequest_refused hVerdict] at h
    cases h
  | connecting replies remaining host port consumedBytes hGreeted hGreeting hVerdict =>
    have hConsumed : consumedBytes ≤ remaining.length := by
      cases hParse : parseSocks5ConnectRequest remaining with
      | connect host' port' consumed =>
        rw [hParse] at hVerdict
        cases hVerdict
        exact consumedBytes_le hParse
      | needMoreData =>
        rw [hParse] at hVerdict
        cases hVerdict
      | unsupported code consumed =>
        rw [hParse] at hVerdict
        cases hVerdict
      | invalid code consumed =>
        rw [hParse] at hVerdict
        cases hVerdict
    rw [afterStream_requesting hGreeted hGreeting, readRequest_connect hVerdict] at h ⊢
    cases h
    rw [afterStream_requesting (greeted_append hGreeted more) (handleSocks5Greeting_more hGreeted hGreeting more),
      readRequest_connect (parseSocks5ConnectRequest_append hVerdict more)]
    refine ⟨remaining ++ more, ?_⟩
    simp only [requesting, DynamicConnection.handleSocksConnect, List.drop_append_of_le_length hConsumed]

/-- The bytes the client sent, those of them that arrived while `forwardOut` was pending, and how it called back. -/
structure SocksRun where
  connection : DynamicConnection
  stream : Bytes
  lost : Bytes
  completion : Option (Option Text)
  deriving DecidableEq

def SocksEvent.bytes : SocksEvent → Bytes
  | .data chunk => chunk
  | .forwardedOut _ => []

namespace SocksRun

def new : SocksRun := ⟨DynamicConnection.new, [], [], none⟩

def step (run : SocksRun) (event : SocksEvent) : SocksRun where
  connection := run.connection.step event
  stream := run.stream ++ event.bytes
  lost := if run.connection.forwardingOut.isSome then run.lost ++ event.bytes else run.lost
  completion :=
    match event, run.connection.forwardingOut with
    | .forwardedOut error, some _ => some error
    | _, _ => run.completion

def after (events : List SocksEvent) : SocksRun := events.foldl step new

def unsplit (run : SocksRun) : DynamicConnection :=
  match run.completion with
  | none => afterStream run.stream
  | some error => (afterStream run.stream).step (.forwardedOut error)

end SocksRun

def followingConnect (stream : Bytes) : Option Bytes :=
  match if greeted stream then (handleSocks5Greeting stream).2 else none with
  | none => none
  | some remaining =>
    match parseSocks5ConnectRequest remaining with
    | .connect _ _ consumedBytes => some (remaining.drop consumedBytes)
    | _ => none

def SocksRun.Lossless (run : SocksRun) : Prop :=
  run.connection.effect = run.unsplit.effect ∧
    (run.completion = some none → followingConnect run.stream = some run.connection.delivered)

theorem followingConnect_eq {pending : PendingForward} (h : (afterStream stream).forwardingOut = some pending) :
    followingConnect stream = some pending.initialData := by
  cases handshake stream with
  | waiting hWaiting =>
    rw [afterStream_waiting hWaiting] at h
    cases h
  | rejected replies hGreeted hGreeting =>
    rw [afterStream_rejected hGreeted hGreeting] at h
    cases h
  | requesting replies remaining hGreeted hGreeting hVerdict =>
    rw [afterStream_requesting hGreeted hGreeting, readRequest_waiting hVerdict] at h
    cases h
  | refused replies remaining code hGreeted hGreeting hVerdict =>
    rw [afterStream_requesting hGreeted hGreeting, readRequest_refused hVerdict] at h
    cases h
  | connecting replies remaining host port consumedBytes hGreeted hGreeting hVerdict =>
    rw [afterStream_requesting hGreeted hGreeting, readRequest_connect hVerdict] at h
    cases h
    rw [followingConnect, hGreeted, if_pos rfl, hGreeting]
    cases hParse : parseSocks5ConnectRequest remaining <;> rw [hParse] at hVerdict <;> cases hVerdict
    simp only [hParse]
    rfl

def pipedConnection (start : Bytes) (forward : PendingForward) (piped : Bytes) : DynamicConnection :=
  { (afterStream start).forwardedOut forward none with delivered := forward.initialData ++ piped }

inductive SocksPhase : SocksRun → Prop
  | negotiating (stream : Bytes) (hListening : (afterStream stream).dataListener = .onData)
      (hAlive : (afterStream stream).destroyed = false) (hIdle : (afterStream stream).forwardingOut = none) :
      SocksPhase ⟨afterStream stream, stream, [], none⟩
  | refused (start rest : Bytes) (h : (afterStream start).destroyed = true)
      (hIdle : (afterStream start).forwardingOut = none) : SocksPhase ⟨afterStream start, start ++ rest, [], none⟩
  | pending (start lost : Bytes) (forward : PendingForward) (h : (afterStream start).forwardingOut = some forward) :
      SocksPhase ⟨afterStream start, start ++ lost, lost, none⟩
  | failed (start lost rest : Bytes) (forward : PendingForward) (message : Text)
      (h : (afterStream start).forwardingOut = some forward) :
      SocksPhase ⟨(afterStream start).forwardedOut forward (some message), start ++ lost ++ rest, lost,
        some (some message)⟩
  | piping (start lost piped : Bytes) (forward : PendingForward) (h : (afterStream start).forwardingOut = some forward) :
      SocksPhase ⟨pipedConnection start forward piped, start ++ lost ++ piped, lost, some none⟩

theorem afterStream_cases (stream : Bytes) : ((afterStream stream).dataListener = .onData ∧ (afterStream stream).destroyed = false ∧
        (afterStream stream).forwardingOut = none) ∨ ((afterStream stream).destroyed = true ∧ (afterStream stream).forwardingOut = none) ∨
      ((afterStream stream).dataListener = .none ∧ (afterStream stream).destroyed = false ∧
        ∃ forward, (afterStream stream).forwardingOut = some forward) := by
  cases handshake stream with
  | waiting h =>
    rw [afterStream_waiting h]
    exact .inl ⟨rfl, rfl, rfl⟩
  | rejected replies h hGreeting =>
    rw [afterStream_rejected h hGreeting]
    exact .inr (.inl ⟨rfl, rfl⟩)
  | requesting replies remaining h hGreeting hVerdict =>
    rw [afterStream_requesting h hGreeting, readRequest_waiting hVerdict]
    exact .inl ⟨rfl, rfl, rfl⟩
  | refused replies remaining code h hGreeting hVerdict =>
    rw [afterStream_requesting h hGreeting, readRequest_refused hVerdict]
    exact .inr (.inl ⟨rfl, rfl⟩)
  | connecting replies remaining host port consumedBytes h hGreeting hVerdict =>
    rw [afterStream_requesting h hGreeting, readRequest_connect hVerdict]
    exact .inr (.inr ⟨rfl, rfl, _, rfl⟩)

theorem delivered_afterStream (stream : Bytes) : (afterStream stream).delivered = [] := by
  cases handshake stream with
  | waiting h => rw [afterStream_waiting h]; rfl
  | rejected replies h hGreeting => rw [afterStream_rejected h hGreeting]; rfl
  | requesting replies remaining h hGreeting hVerdict =>
    rw [afterStream_requesting h hGreeting, readRequest_waiting hVerdict]
    rfl
  | refused replies remaining code h hGreeting hVerdict =>
    rw [afterStream_requesting h hGreeting, readRequest_refused hVerdict]
    rfl
  | connecting replies remaining host port consumedBytes h hGreeting hVerdict =>
    rw [afterStream_requesting h hGreeting, readRequest_connect hVerdict]
    rfl

theorem socksPhase_afterStream (stream : Bytes) : SocksPhase ⟨afterStream stream, stream, [], none⟩ := by
  obtain ⟨hListening, hAlive, hIdle⟩ | ⟨hDestroyed, hIdle⟩ | ⟨-, -, forward, hForward⟩ := afterStream_cases stream
  · exact .negotiating stream hListening hAlive hIdle
  · have hPhase := SocksPhase.refused stream [] hDestroyed hIdle
    rwa [List.append_nil] at hPhase
  · have hPhase := SocksPhase.pending stream [] forward hForward
    rwa [List.append_nil] at hPhase

theorem facts_of_forwarding {forward : PendingForward} (h : (afterStream stream).forwardingOut = some forward) :
    (afterStream stream).dataListener = .none ∧ (afterStream stream).destroyed = false := by
  obtain ⟨-, -, hIdle⟩ | ⟨-, hIdle⟩ | ⟨hListener, hAlive, -⟩ := afterStream_cases stream
  · rw [hIdle] at h
    cases h
  · rw [hIdle] at h
    cases h
  · exact ⟨hListener, hAlive⟩

theorem delivered_forwardedOut {forward : PendingForward} :
    ((afterStream stream).forwardedOut forward none).delivered = forward.initialData := by
  simp only [DynamicConnection.forwardedOut, delivered_afterStream, List.nil_append]
  split
  · rfl
  · rename_i hEmpty
    exact (List.length_eq_zero_iff.mp (by omega)).symm

variable {run : SocksRun}

theorem SocksPhase.data (h : SocksPhase run) (chunk : Bytes) : SocksPhase (run.step (.data chunk)) := by
  cases h with
  | negotiating stream hListening hAlive hIdle =>
    have hStep : (afterStream stream).step (.data chunk) = afterStream (stream ++ chunk) := by
      simp only [DynamicConnection.step, hAlive, hListening, Bool.false_eq_true, if_false]
      exact onData_afterStream hListening hAlive chunk
    simp only [SocksRun.step, hStep, hIdle, Option.isSome_none, Bool.false_eq_true, if_false, SocksEvent.bytes]
    exact socksPhase_afterStream (stream ++ chunk)
  | refused start rest hDestroyed hIdle =>
    have hStep : (afterStream start).step (.data chunk) = afterStream start := by
      simp only [DynamicConnection.step, hDestroyed, if_true]
    simp only [SocksRun.step, hStep, hIdle, Option.isSome_none, Bool.false_eq_true, if_false, SocksEvent.bytes,
      List.append_assoc]
    exact .refused start (rest ++ chunk) hDestroyed hIdle
  | pending start lost forward hForward =>
    obtain ⟨hListener, hAlive⟩ := facts_of_forwarding hForward
    have hStep : (afterStream start).step (.data chunk) = afterStream start := by
      simp only [DynamicConnection.step, hAlive, hListener, Bool.false_eq_true, if_false]
    simp only [SocksRun.step, hStep, hForward, Option.isSome_some, if_true, SocksEvent.bytes, List.append_assoc]
    exact .pending start (lost ++ chunk) forward hForward
  | failed start lost rest forward message hForward =>
    have hStep : ((afterStream start).forwardedOut forward (some message)).step (.data chunk) =
        (afterStream start).forwardedOut forward (some message) := rfl
    have hIdle : ((afterStream start).forwardedOut forward (some message)).forwardingOut = none := rfl
    simp only [SocksRun.step, hStep, hIdle, Option.isSome_none, Bool.false_eq_true, if_false, SocksEvent.bytes]
    rw [List.append_assoc (start ++ lost)]
    exact .failed start lost (rest ++ chunk) forward message hForward
  | piping start lost piped forward hForward =>
    obtain ⟨-, hAlive⟩ := facts_of_forwarding hForward
    have hStep : (pipedConnection start forward piped).step (.data chunk) =
        pipedConnection start forward (piped ++ chunk) := by
      simp only [pipedConnection, DynamicConnection.step, DynamicConnection.forwardedOut, hAlive, Bool.false_eq_true,
        if_false, List.append_assoc]
    have hIdle : (pipedConnection start forward piped).forwardingOut = none := rfl
    simp only [SocksRun.step, hStep, hIdle, Option.isSome_none, Bool.false_eq_true, if_false, SocksEvent.bytes]
    rw [List.append_assoc (start ++ lost)]
    exact .piping start lost (piped ++ chunk) forward hForward

theorem SocksPhase.forwardedOut (h : SocksPhase run) (error : Option Text) : SocksPhase (run.step (.forwardedOut error)) := by
  have hIdle {connection : DynamicConnection} (hNone : connection.forwardingOut = none) (stream lost : Bytes)
      (completion : Option (Option Text)) :
      SocksRun.step ⟨connection, stream, lost, completion⟩ (.forwardedOut error) = ⟨connection, stream, lost, completion⟩ := by
    simp [SocksRun.step, DynamicConnection.step, hNone, SocksEvent.bytes]
  cases h with
  | negotiating stream hListening hAlive hNone =>
    rw [hIdle hNone]
    exact .negotiating stream hListening hAlive hNone
  | refused start rest hDestroyed hNone =>
    rw [hIdle hNone]
    exact .refused start rest hDestroyed hNone
  | pending start lost forward hForward =>
    simp only [SocksRun.step, DynamicConnection.step, hForward, Option.isSome_some, if_true, SocksEvent.bytes,
      List.append_nil]
    cases error with
    | some message =>
      have hPhase := SocksPhase.failed start lost [] forward message hForward
      rwa [List.append_nil] at hPhase
    | none =>
      have hPhase := SocksPhase.piping start lost [] forward hForward
      have hSame : pipedConnection start forward [] = (afterStream start).forwardedOut forward none := by
        rw [pipedConnection, List.append_nil, ← delivered_forwardedOut]
      rwa [List.append_nil, hSame] at hPhase
  | failed start lost rest forward message hForward =>
    rw [hIdle rfl]
    exact .failed start lost rest forward message hForward
  | piping start lost piped forward hForward =>
    rw [hIdle rfl]
    exact .piping start lost piped forward hForward

theorem SocksPhase.after (events : List SocksEvent) : SocksPhase (SocksRun.after events) := by
  have hRun : ∀ (events : List SocksEvent) (run : SocksRun), SocksPhase run →
      SocksPhase (events.foldl SocksRun.step run) := by
    intro events
    induction events with
    | nil => exact fun _ h => h
    | cons event events ih =>
      intro run h
      cases event with
      | data chunk => exact ih _ (h.data chunk)
      | forwardedOut error => exact ih _ (h.forwardedOut error)
  exact hRun events _ (socksPhase_afterStream [])

theorem SocksPhase.lossless_iff (h : SocksPhase run) : run.Lossless ↔ (run.completion = some none → run.lost = []) := by
  cases h with
  | negotiating stream hListening hAlive hIdle => exact ⟨fun _ _ => rfl, fun _ => ⟨rfl, nofun⟩⟩
  | refused start rest hDestroyed hIdle =>
    exact ⟨fun _ _ => rfl, fun _ => ⟨(effect_afterStream_of_destroyed hDestroyed rest).symm, nofun⟩⟩
  | pending start lost forward hForward =>
    obtain ⟨buffer, hMore⟩ := afterStream_of_forwarding hForward lost
    refine ⟨fun _ => nofun, fun _ => ⟨?_, nofun⟩⟩
    simp only [SocksRun.unsplit, hMore]
    rfl
  | failed start lost rest forward message hForward =>
    obtain ⟨buffer, hMore⟩ := afterStream_of_forwarding hForward (lost ++ rest)
    refine ⟨fun _ => nofun, fun _ => ⟨?_, nofun⟩⟩
    simp only [SocksRun.unsplit, List.append_assoc, hMore, DynamicConnection.step]
    rfl
  | piping start lost piped forward hForward =>
    obtain ⟨buffer, hMore⟩ := afterStream_of_forwarding hForward (lost ++ piped)
    have hUnsplit : (afterStream (start ++ (lost ++ piped))).forwardingOut =
        some { forward with initialData := forward.initialData ++ (lost ++ piped) } := by
      rw [hMore]
    have hFollowing := followingConnect_eq hUnsplit
    have hDelivered : (pipedConnection start forward piped).delivered = forward.initialData ++ piped := rfl
    constructor
    · rintro ⟨-, hAll⟩ _
      have hSame := Option.some.inj ((List.append_assoc start lost piped ▸ hFollowing).symm.trans (hAll rfl))
      rw [hDelivered, List.append_cancel_left_eq] at hSame
      simpa using congrArg List.length hSame
    · intro hNothing
      obtain rfl := hNothing rfl
      rw [List.nil_append] at hMore hUnsplit hFollowing
      have hOpened : (afterStream (start ++ piped)).step (.forwardedOut none) =
          (afterStream (start ++ piped)).forwardedOut { forward with initialData := forward.initialData ++ piped } none := by
        simp only [DynamicConnection.step, hUnsplit]
      refine ⟨?_, fun _ => ?_⟩
      · simp only [SocksRun.unsplit, List.append_nil, hOpened, DynamicConnection.effect, delivered_forwardedOut]
        simp only [DynamicConnection.forwardedOut, hMore, pipedConnection]
      · rw [List.append_nil, hFollowing, hDelivered]

theorem socks_stream_is_lossless_iff (events : List SocksEvent) : (SocksRun.after events).Lossless ↔
      ((SocksRun.after events).completion = some none → (SocksRun.after events).lost = []) := (SocksPhase.after events).lossless_iff

def pipelined : List SocksEvent := [
  .data [0x05, 0x01, 0x00],
  .data [0x05, 0x01, 0x00, 0x01, 10, 0, 0, 1, 0, 80],
  .data [1],
  .forwardedOut none,
  .data [2]]

theorem pipelined_byte_is_lost : (SocksRun.after pipelined).connection.delivered = [2] ∧
    followingConnect (SocksRun.after pipelined).stream = some [1, 2] ∧ ¬ (SocksRun.after pipelined).Lossless := by
  have hDelivered : (SocksRun.after pipelined).connection.delivered = [2] := by decide
  have hFollowing : followingConnect (SocksRun.after pipelined).stream = some [1, 2] := by decide
  have hCompletion : (SocksRun.after pipelined).completion = some none := by decide
  refine ⟨hDelivered, hFollowing, fun h => ?_⟩
  have hAll := h.2 hCompletion
  rw [hDelivered, hFollowing] at hAll
  exact absurd hAll (by decide)

end PortForward
