import Cosmosh.PortForward.DynamicForwarding
import Cosmosh.PortForward.Socks5Requests

/-! # Requests that arrive in pieces

However what a client sends is cut, its request opens one forward to the destination it encodes.
-/

namespace PortForward

open Library Library.JsText Socks5

structure Greeting where
  methods : Bytes
  short : methods.length < 256
  noAuth : 0x00 ∈ methods

def Greeting.encode (greeting : Greeting) : Bytes := 0x05 :: UInt8.ofNat greeting.methods.length :: greeting.methods

variable {greeting : Greeting} {request : Request} {front stream : Bytes}

theorem length_methods (greeting : Greeting) (rest : Bytes) : (byteAt (greeting.encode ++ rest) 1).toNat = greeting.methods.length := by
  rw [show byteAt (greeting.encode ++ rest) 1 = UInt8.ofNat greeting.methods.length from rfl, UInt8.toNat_ofNat',
    Nat.mod_eq_of_lt greeting.short]

theorem length_greeting (greeting : Greeting) : greeting.encode.length = 2 + greeting.methods.length := by
  rw [Greeting.encode, List.length_cons, List.length_cons]
  omega

theorem greeted_encode (greeting : Greeting) (rest : Bytes) : greeted (greeting.encode ++ rest) = true := by
  have hLength := length_greeting greeting
  simp only [greeted, Bool.and_eq_true, decide_eq_true_eq, length_methods, List.length_append]
  omega

theorem handleSocks5Greeting_encode (greeting : Greeting) (rest : Bytes) :
    handleSocks5Greeting (greeting.encode ++ rest) = ([[0x05, 0x00]], some rest) := by
  have hLength := length_greeting greeting
  have hMethods : ((greeting.encode ++ rest).take (2 + greeting.methods.length)).drop 2 = greeting.methods := by
    rw [← hLength, List.take_left]
    rfl
  have hVersion : byteAt (greeting.encode ++ rest) 0 = 0x05 := rfl
  simp only [handleSocks5Greeting, length_methods, hMethods, hVersion, List.length_append, hLength, ne_eq, not_true_eq_false, or_false]
  rw [if_neg (by omega), if_neg (by omega), if_neg (not_not_intro greeting.noAuth), ← hLength, List.drop_left]

theorem afterStream_part (hPart : front <+: greeting.encode ++ request.encode) (hProper : front ≠ greeting.encode ++ request.encode) :
    (afterStream front).dataListener = .onData ∧ (afterStream front).destroyed = false ∧ (afterStream front).requested = none := by
  by_cases hGreeted : greeted front = true
  · obtain ⟨rest, hRest⟩ := hPart
    have hHeader := hGreeted
    simp only [greeted, Bool.and_eq_true, decide_eq_true_eq] at hHeader
    have hMethods : (byteAt front 1).toNat = greeting.methods.length := by
      rw [← byteAt_append (by omega) rest, hRest, length_methods]
    have hLonger : greeting.encode <+: front := by
      refine List.prefix_of_prefix_length_le (List.prefix_append _ request.encode) ⟨rest, hRest⟩ ?_
      rw [length_greeting]
      omega
    obtain ⟨part, rfl⟩ := hLonger
    rw [List.append_assoc, List.append_cancel_left_eq] at hRest
    have hSome : rest ≠ [] := by
      rintro rfl
      exact hProper (by rw [← hRest, List.append_nil])
    have hLength := List.length_pos_of_ne_nil hSome
    have hWaiting : (parseSocks5ConnectRequest part).verdict = none := by
      rw [parse_part (hRest.trans (List.append_nil request.encode).symm), if_pos]
      · rfl
      · rw [← hRest, List.length_append]
        omega
    rw [afterStream_requesting (greeted_encode greeting part) (handleSocks5Greeting_encode greeting part), readRequest_waiting hWaiting]
    exact ⟨rfl, rfl, rfl⟩
  · rw [afterStream_waiting (Bool.eq_false_iff.mpr hGreeted)]
    exact ⟨rfl, rfl, rfl⟩

theorem afterStream_request (hPort : request.port ≠ 0) (hNamed : request.address.Named) (more : Bytes) :
    afterStream (greeting.encode ++ (request.encode ++ more)) =
      { requesting [[0x05, 0x00]] (request.encode ++ more) with stage := .piping, dataListener := .none }.handleSocksConnect
        request.address.host request.port more := by
  have hVerdict : (parseSocks5ConnectRequest (request.encode ++ more)).verdict =
      some (.connect request.address.host request.port request.encode.length) := by
    rw [parse_encode, if_neg]
    · rfl
    · rw [not_or, Nat.not_lt]
      exact ⟨request.address.host_ne_nil_iff.mpr hNamed, Nat.pos_of_ne_zero hPort⟩
  rw [afterStream_requesting (greeted_encode greeting _) (handleSocks5Greeting_encode greeting _), readRequest_connect hVerdict,
    show (requesting [[0x05, 0x00]] (request.encode ++ more)).buffer = request.encode ++ more from rfl, List.drop_left]
  rfl

theorem afterStream_whole (hPort : request.port ≠ 0) (hNamed : request.address.Named) (h : greeting.encode ++ request.encode <+: front) :
    (afterStream front).requested = some (request.address.host, request.port) := by
  obtain ⟨more, rfl⟩ := h
  rw [List.append_assoc, afterStream_request hPort hNamed]
  rfl

/-- A connection that has stopped listening was sent a whole request, or bytes that are not the beginning of this one. -/
theorem whole_of_settled (h : greeting.encode ++ request.encode <+: stream ∨ stream <+: greeting.encode ++ request.encode)
    (hFront : front <+: stream) (hSettled : (afterStream front).dataListener = .none ∨ (afterStream front).destroyed = true) :
    greeting.encode ++ request.encode <+: front := by
  by_contra hPart
  have hPrefix : front <+: greeting.encode ++ request.encode := by
    obtain hWhole | hWithin := h
    · exact (List.prefix_or_prefix_of_prefix hFront hWhole).resolve_right hPart
    · exact hFront.trans hWithin
  obtain ⟨hListening, hAlive, -⟩ := afterStream_part hPrefix fun hSame => hPart (hSame ▸ List.prefix_rfl)
  rw [hListening, hAlive] at hSettled
  obtain hNone | hDestroyed := hSettled
  · cases hNone
  · cases hDestroyed

structure OpensForward (greeting : Greeting) (request : Request) (run : SocksRun) : Prop where
  complete : greeting.encode ++ request.encode <+: run.stream →
    run.connection.requested = some (request.address.host, request.port)
  waiting : run.stream <+: greeting.encode ++ request.encode → run.stream ≠ greeting.encode ++ request.encode →
    run.connection.requested = none ∧ run.connection.destroyed = false

theorem opensForward_settled (hPort : request.port ≠ 0) (hNamed : request.address.Named) {run : SocksRun} (hFront : front <+: run.stream)
    (hSettled : (afterStream front).dataListener = .none ∨ (afterStream front).destroyed = true)
    (hSame : run.connection.requested = (afterStream front).requested) : OpensForward greeting request run where
  complete h := hSame.trans (afterStream_whole hPort hNamed (whole_of_settled (.inl h) hFront hSettled))
  waiting hPart hProper := by
    have hWhole := whole_of_settled (.inr hPart) hFront hSettled
    exact (hProper (hPart.eq_of_length_le (hWhole.trans hFront).length_le)).elim

theorem split_request_opens_its_forward (greeting : Greeting) (request : Request) (hPort : request.port ≠ 0) (hNamed : request.address.Named)
    (events : List SocksEvent) : OpensForward greeting request (SocksRun.after events) := by
  have hPhase := SocksPhase.after events
  generalize SocksRun.after events = run at hPhase
  cases hPhase with
  | negotiating stream hListening hAlive hIdle =>
    constructor
    · exact fun h => afterStream_whole hPort hNamed h
    · intro hPart hProper
      obtain ⟨-, hOpen, hNone⟩ := afterStream_part hPart hProper
      exact ⟨hNone, hOpen⟩
  | refused start rest hDestroyed hIdle => exact opensForward_settled hPort hNamed (List.prefix_append start rest) (.inr hDestroyed) rfl
  | pending start lost forward hForward =>
    exact opensForward_settled hPort hNamed (List.prefix_append start lost) (.inl (facts_of_forwarding hForward).1) rfl
  | failed start lost rest forward message hForward =>
    exact opensForward_settled hPort hNamed ((List.prefix_append start lost).trans (List.prefix_append _ rest))
      (.inl (facts_of_forwarding hForward).1) rfl
  | piping start lost piped forward hForward =>
    exact opensForward_settled hPort hNamed ((List.prefix_append start lost).trans (List.prefix_append _ piped))
      (.inl (facts_of_forwarding hForward).1) rfl

theorem request_in_two_pieces_opens_its_forward :
    OpensForward ⟨[0x00], by decide, by decide⟩ ⟨0x00, .ipv4 ⟨[127, 0, 0, 1], rfl⟩, 80, by decide⟩
      (SocksRun.after [.data [0x05, 0x01, 0x00, 0x05], .data [0x01, 0x00, 0x01, 127, 0, 0, 1, 0, 80], .forwardedOut none]) :=
  split_request_opens_its_forward _ _ (by decide) (by trivial) _

end PortForward
