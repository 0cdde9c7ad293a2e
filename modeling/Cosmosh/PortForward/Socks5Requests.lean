import Cosmosh.Library.Utf8Segments
import Cosmosh.PortForward.Socks5

/-! # CONNECT requests as bytes

A request is laid out in one of three ways, and it is read back from the front of any buffer that holds it.
-/

namespace PortForward

open Library Library.JsText

namespace Socks5

abbrev SizedBytes (count : Nat) := {bytes : Bytes // bytes.length = count}

inductive Address
  | ipv4 (address : SizedBytes 4)
  | domain (name : Bytes) (short : name.length < 256)
  | ipv6 (address : SizedBytes 16)

namespace Address

def addressType : Address → UInt8
  | ipv4 _ => 0x01
  | domain _ _ => 0x03
  | ipv6 _ => 0x04

def payload : Address → Bytes
  | ipv4 address => address.1
  | domain name _ => UInt8.ofNat name.length :: name
  | ipv6 address => address.1

def host : Address → Text
  | ipv4 address => ipv4Host address.1
  | domain name _ => Utf8.decode name
  | ipv6 address => ipv6Host address.1

def Named : Address → Prop
  | domain name _ => name ≠ []
  | _ => True

end Address

structure Request where
  reserved : UInt8
  address : Address
  port : Nat
  port_lt : port < 65536

def Request.encode (request : Request) : Bytes :=
  [0x05, 0x01, request.reserved, request.address.addressType] ++
    (request.address.payload ++ [UInt8.ofNat (request.port / 256), UInt8.ofNat (request.port % 256)])

variable {request : Request} {address : Address} {part rest more buffer : Bytes} {addressType : UInt8}

theorem Request.length_encode (request : Request) : request.encode.length = 4 + request.address.payload.length + 2 := by
  simp [encode]
  omega

theorem joined_ne_nil (separator : Char) (first second : Text) (texts : List Text) :
    [separator].intercalate (first :: second :: texts) ≠ [] := by
  simp [List.intercalate]

theorem Address.host_ne_nil_iff (address : Address) : address.host ≠ [] ↔ address.Named := by
  cases address with
  | ipv4 address =>
    obtain ⟨bytes, hLength⟩ := address
    obtain _ | ⟨first, _ | ⟨second, rest⟩⟩ := bytes
    · cases hLength
    · cases hLength
    · exact iff_of_true (joined_ne_nil _ _ _ _) trivial
  | domain name short => exact not_congr Utf8.decode_eq_nil_iff
  | ipv6 address => exact iff_of_true (joined_ne_nil _ _ _ _) trivial

theorem byteAt_middle (front : Bytes) (byte : UInt8) (back : Bytes) : byteAt (front ++ byte :: back) front.length = byte := by
  rw [byteAt, List.getD_eq_getElem?_getD, List.getElem?_append_right (Nat.le_refl _), Nat.sub_self]
  rfl

theorem readUInt16BE_port {port : Nat} (hPort : port < 65536) (front back : Bytes) :
    readUInt16BE (front ++ UInt8.ofNat (port / 256) :: UInt8.ofNat (port % 256) :: back) front.length = port := by
  have hSecond := byteAt_middle (front ++ [UInt8.ofNat (port / 256)]) (UInt8.ofNat (port % 256)) back
  rw [List.append_assoc, List.singleton_append, List.length_append, List.length_singleton] at hSecond
  rw [readUInt16BE, byteAt_middle, hSecond, UInt8.toNat_ofNat', UInt8.toNat_ofNat']
  omega

theorem Header.of_append (h : Header addressType (part ++ rest)) (hLong : 4 ≤ part.length) : Header addressType part where
  long := hLong
  version := by rw [← byteAt_append (by omega) rest, h.version]
  command := by rw [← byteAt_append (by omega) rest, h.command]
  address := by rw [← byteAt_append (by omega) rest, h.address]

theorem Request.header (request : Request) (more : Bytes) : Header request.address.addressType (request.encode ++ more) := by
  refine ⟨?_, rfl, rfl, rfl⟩
  rw [List.length_append, length_encode]
  omega

theorem finishRequest_encode (hPart : part ++ rest = request.encode ++ more) (hEnough : request.encode.length ≤ part.length) (host : Text) :
    finishRequest part host (4 + request.address.payload.length) =
      if host = [] ∨ request.port < 1 then .invalid 0x04 request.encode.length else .connect host request.port request.encode.length := by
  have hPort : readUInt16BE part (4 + request.address.payload.length) = request.port := by
    rw [request.length_encode] at hEnough
    rw [← readUInt16BE_append (by omega) rest, hPart]
    have hRead := readUInt16BE_port request.port_lt
      ([0x05, 0x01, request.reserved, request.address.addressType] ++ request.address.payload) more
    rw [List.length_append] at hRead
    simp only [Request.encode, List.append_assoc]
    simpa using hRead
  have hBound := request.port_lt
  have hNever : ¬ 65535 < request.port := by omega
  rw [finishRequest, hPort, ← request.length_encode]
  simp only [hNever, or_false]

theorem take_payload (hPart : part ++ rest = request.encode ++ more) (hEnough : request.encode.length ≤ part.length) :
    (part.take (4 + request.address.payload.length)).drop 4 = request.address.payload := by
  rw [request.length_encode] at hEnough
  rw [← take_append (by omega) rest, hPart, List.drop_take, Nat.add_sub_cancel_left, Request.encode, List.append_assoc,
    List.append_assoc]
  exact List.take_left

theorem parse_part (hPart : part ++ rest = request.encode ++ more) : parseSocks5ConnectRequest part =
      if part.length < request.encode.length then .needMoreData
      else if request.address.host = [] ∨ request.port < 1 then .invalid 0x04 request.encode.length
      else .connect request.address.host request.port request.encode.length := by
  have hLength := request.length_encode
  by_cases hShort : part.length < 4
  · rw [if_pos (by omega), parseSocks5ConnectRequest, if_pos hShort]
  have hHeader : Header request.address.addressType part := (hPart ▸ request.header more).of_append (Nat.not_lt.mp hShort)
  have hPayload := take_payload hPart
  have hFinish := finishRequest_encode hPart
  cases hAddress : request.address with
  | ipv4 address =>
    simp only [hAddress, Address.payload, Address.addressType, address.2] at hLength hHeader hPayload hFinish
    rw [hHeader.parse_ipv4]
    split
    · rw [if_pos (by omega)]
    · rw [if_neg (by omega), hPayload (by omega), hFinish (by omega)]
      rfl
  | domain name short =>
    simp only [hAddress, Address.payload, Address.addressType, List.length_cons] at hLength hHeader hPayload hFinish
    rw [hHeader.parse_domain]
    split
    · rw [if_pos (by omega)]
    · have hName : (byteAt part 4).toNat = name.length := by
        have hByte : byteAt (request.encode ++ more) 4 = UInt8.ofNat name.length := by
          rw [Request.encode, hAddress]
          rfl
        rw [← byteAt_append (by omega) rest, hPart, hByte, UInt8.toNat_ofNat', Nat.mod_eq_of_lt short]
      rw [hName]
      split
      · rw [if_pos (by omega)]
      · have hOffset : 4 + (name.length + 1) = 5 + name.length := by omega
        have hText := congrArg List.tail (hPayload (by omega))
        rw [List.tail_drop, List.tail_cons, hOffset] at hText
        rw [hOffset] at hFinish
        rw [if_neg (by omega), hText, hFinish (by omega)]
        rfl
  | ipv6 address =>
    simp only [hAddress, Address.payload, Address.addressType, address.2] at hLength hHeader hPayload hFinish
    rw [hHeader.parse_ipv6]
    split
    · rw [if_pos (by omega)]
    · rw [if_neg (by omega), hPayload (by omega), hFinish (by omega)]
      rfl

def readUInt16BE? (buffer : Bytes) (offset : Nat) : Option Nat :=
  if offset + 2 ≤ buffer.length then some (readUInt16BE buffer offset) else none

def finishRequest? (buffer : Bytes) (host : Text) (offset : Nat) : Option ConnectRequest :=
  (readUInt16BE? buffer offset).map fun port =>
    if host = [] ∨ port < 1 ∨ 65535 < port then .invalid 0x04 (offset + 2) else .connect host port (offset + 2)

def parseSocks5ConnectRequest? (buffer : Bytes) : Option ConnectRequest :=
  if buffer.length < 4 then some .needMoreData
  else if buffer[0]? ≠ some 0x05 then some (.invalid 0x01 buffer.length)
  else if buffer[1]? ≠ some 0x01 then some (.unsupported 0x07 buffer.length)
  else if buffer[3]? = some 0x01 then
    if buffer.length < 4 + 4 + 2 then some .needMoreData else finishRequest? buffer (ipv4Host ((buffer.take 8).drop 4)) 8
  else if buffer[3]? = some 0x03 then
    if buffer.length < 4 + 1 then some .needMoreData
    else
      buffer[4]?.bind fun byte =>
        let domainLength := byte.toNat
        if buffer.length < 5 + domainLength + 2 then some .needMoreData
        else finishRequest? buffer (Utf8.decode ((buffer.take (5 + domainLength)).drop 5)) (5 + domainLength)
  else if buffer[3]? = some 0x04 then
    if buffer.length < 4 + 16 + 2 then some .needMoreData
    else
      ((List.range 8).mapM fun index => (readUInt16BE? buffer (4 + 2 * index)).map hexadecimal).bind fun segments =>
        finishRequest? buffer ([':'].intercalate segments) 20
  else some (.unsupported 0x08 buffer.length)

theorem finishRequest?_eq {offset : Nat} (h : offset + 2 ≤ buffer.length) (host : Text) :
    finishRequest? buffer host offset = some (finishRequest buffer host offset) := by
  rw [finishRequest?, readUInt16BE?, if_pos h]
  rfl

theorem getElem?_eq_byteAt {index : Nat} (h : index < buffer.length) : buffer[index]? = some (byteAt buffer index) := by
  rw [byteAt, List.getD_eq_getElem?_getD, List.getElem?_eq_getElem h, Option.getD_some]

theorem readUInt16BE_slice {index : Nat} (h : index + 2 ≤ 16) :
    readUInt16BE ((buffer.take 20).drop 4) index = readUInt16BE buffer (4 + index) := by
  have hByte {i : Nat} (hi : i < 16) : byteAt ((buffer.take 20).drop 4) i = byteAt buffer (4 + i) := by
    rw [byteAt, byteAt, List.getD_eq_getElem?_getD, List.getD_eq_getElem?_getD, List.getElem?_drop,
      List.getElem?_take_of_lt (by omega)]
  rw [readUInt16BE, readUInt16BE, hByte (by omega), hByte (by omega), Nat.add_assoc]

theorem segments_eq (h : 22 ≤ buffer.length) : ((List.range 8).mapM fun index => (readUInt16BE? buffer (4 + 2 * index)).map hexadecimal) =
      some ((List.range 8).map fun index => hexadecimal (readUInt16BE ((buffer.take 20).drop 4) (2 * index))) := by
  have hSegment : ∀ index ∈ List.range 8, (readUInt16BE? buffer (4 + 2 * index)).map hexadecimal =
      some (hexadecimal (readUInt16BE ((buffer.take 20).drop 4) (2 * index))) := by
    intro index hIndex
    have hLess := List.mem_range.mp hIndex
    rw [readUInt16BE?, if_pos (by omega), readUInt16BE_slice (by omega)]
    rfl
  generalize List.range 8 = indices at hSegment ⊢
  induction indices with
  | nil => rfl
  | cons index indices ih =>
    obtain ⟨hFirst, hRest⟩ := List.forall_mem_cons.mp hSegment
    rw [List.mapM_cons, hFirst, ih hRest]
    rfl

theorem parse_in_range (buffer : Bytes) : parseSocks5ConnectRequest? buffer = some (parseSocks5ConnectRequest buffer) := by
  rw [parseSocks5ConnectRequest?, parseSocks5ConnectRequest]
  by_cases hShort : buffer.length < 4
  · rw [if_pos hShort, if_pos hShort]
  rw [if_neg hShort, if_neg hShort, getElem?_eq_byteAt (by omega), getElem?_eq_byteAt (by omega), getElem?_eq_byteAt (by omega)]
  simp only [ne_eq, Option.some.injEq]
  split
  · rfl
  split
  · rfl
  split
  · split
    · rfl
    · exact finishRequest?_eq (by omega) _
  split
  · split
    · rfl
    · rw [getElem?_eq_byteAt (by omega), Option.bind_some]
      split
      · rfl
      · exact finishRequest?_eq (by omega) _
  split
  · split
    · rfl
    · rw [segments_eq (by omega), Option.bind_some]
      exact finishRequest?_eq (by omega) _
  · rfl

inductive SameAnswer (buffer longer : Bytes) : ConnectRequest → ConnectRequest → Prop
  | same (answer : ConnectRequest) : SameAnswer buffer longer answer answer
  | otherVersion : SameAnswer buffer longer (.invalid 0x01 buffer.length) (.invalid 0x01 longer.length)
  | unsupported (code : UInt8) : SameAnswer buffer longer (.unsupported code buffer.length) (.unsupported code longer.length)

structure ParsesRequests : Prop where
  accepted : ∀ (request : Request) (more : Bytes), request.port ≠ 0 → request.address.Named →
    parseSocks5ConnectRequest (request.encode ++ more) = .connect request.address.host request.port request.encode.length
  refused : ∀ (request : Request) (more : Bytes), request.port = 0 ∨ ¬ request.address.Named →
    parseSocks5ConnectRequest (request.encode ++ more) = .invalid 0x04 request.encode.length
  waiting : ∀ (request : Request) (part : Bytes), part <+: request.encode → part ≠ request.encode →
    parseSocks5ConnectRequest part = .needMoreData
  inRange : ∀ buffer, parseSocks5ConnectRequest? buffer = some (parseSocks5ConnectRequest buffer)
  stable : ∀ buffer more, parseSocks5ConnectRequest buffer ≠ .needMoreData →
    SameAnswer buffer (buffer ++ more) (parseSocks5ConnectRequest buffer) (parseSocks5ConnectRequest (buffer ++ more))
  text : ∀ (name : Text) (short : (Utf8.encode name).length < 256), (Address.domain (Utf8.encode name) short).host = name

theorem parse_encode (request : Request) (more : Bytes) : parseSocks5ConnectRequest (request.encode ++ more) =
    if request.address.host = [] ∨ request.port < 1 then .invalid 0x04 request.encode.length
    else .connect request.address.host request.port request.encode.length := by
  have hParse := parse_part (List.append_nil (request.encode ++ more))
  rwa [if_neg (by simp)] at hParse

theorem sameAnswer_append (h : parseSocks5ConnectRequest buffer ≠ .needMoreData) (more : Bytes) :
    SameAnswer buffer (buffer ++ more) (parseSocks5ConnectRequest buffer) (parseSocks5ConnectRequest (buffer ++ more)) := by
  have hWhole := List.append_nil buffer
  cases reading buffer with
  | short hShort => exact absurd hShort h
  | otherVersion hVersion =>
    have hAlone := hVersion []
    rw [hWhole] at hAlone
    rw [hAlone, hVersion]
    exact .otherVersion
  | unsupported code hRefused =>
    have hAlone := hRefused []
    rw [hWhole] at hAlone
    rw [hAlone, hRefused]
    exact .unsupported code
  | finished host offset _ hFinished =>
    have hAlone := hFinished []
    rw [hWhole] at hAlone
    rw [hAlone, hFinished]
    exact .same _

theorem connect_requests_parsed : ParsesRequests where
  accepted request more hPort hNamed := by
    rw [parse_encode, if_neg]
    rw [not_or, Nat.not_lt]
    exact ⟨request.address.host_ne_nil_iff.mpr hNamed, Nat.pos_of_ne_zero hPort⟩
  refused request more hRefused := by
    rw [parse_encode, if_pos]
    obtain hPort | hUnnamed := hRefused
    · exact .inr (by omega)
    · exact .inl (not_not.mp (mt request.address.host_ne_nil_iff.mp hUnnamed))
  waiting request part hPart hProper := by
    obtain ⟨rest, hRest⟩ := hPart
    have hParse := parse_part (hRest.trans (List.append_nil request.encode).symm)
    rw [hParse, if_pos]
    have hSome : rest ≠ [] := by
      rintro rfl
      exact hProper (by rwa [List.append_nil] at hRest)
    rw [← hRest, List.length_append]
    exact Nat.lt_add_of_pos_right (List.length_pos_of_ne_nil hSome)
  inRange := parse_in_range
  stable buffer more h := sameAnswer_append h more
  text name _ := Utf8.decode_encode name

theorem requests_refused_by_design :
    parseSocks5ConnectRequest (Request.mk 0x00 (.ipv4 ⟨[127, 0, 0, 1], rfl⟩) 0 (by decide)).encode = .invalid 0x04 10 ∧
      parseSocks5ConnectRequest [0x04, 0x01, 0x00, 0x01] = .invalid 0x01 4 ∧
      parseSocks5ConnectRequest [0x04, 0x01, 0x00, 0x01, 127] = .invalid 0x01 5 := by
  decide

end Socks5

end PortForward
