import Cosmosh.Library.JsText
import Cosmosh.Library.Utf8

/-! # The SOCKS5 handshake

The greeting and the CONNECT request are read from the front of what the client sent.
-/

namespace PortForward

open Library Library.JsText

abbrev Bytes := List UInt8

namespace Socks5

inductive ConnectRequest
  | connect (host : Text) (port consumedBytes : Nat)
  | needMoreData
  | unsupported (code : UInt8) (consumedBytes : Nat)
  | invalid (code : UInt8) (consumedBytes : Nat)
  deriving DecidableEq

/-- `buffer[index] ?? 0` -/
def byteAt (buffer : Bytes) (index : Nat) : UInt8 := buffer.getD index 0

def readUInt16BE (buffer : Bytes) (offset : Nat) : Nat := (byteAt buffer offset).toNat * 256 + (byteAt buffer (offset + 1)).toNat

def handleSocks5Greeting (chunk : Bytes) : List Bytes × Option Bytes :=
  if chunk.length < 2 ∨ byteAt chunk 0 ≠ 0x05 then ([[0x05, 0xff]], none)
  else
    let expectedLength := 2 + (byteAt chunk 1).toNat
    if chunk.length < expectedLength then ([], some [])
    else if 0x00 ∉ (chunk.take expectedLength).drop 2 then ([[0x05, 0xff]], none)
    else ([[0x05, 0x00]], some (chunk.drop expectedLength))

def decimal (byte : UInt8) : Text := (toString byte.toNat).toList

def hexadecimal (value : Nat) : Text := Nat.toDigits 16 value

def ipv4Host (address : Bytes) : Text := ['.'].intercalate (address.map decimal)

def ipv6Host (address : Bytes) : Text := [':'].intercalate ((List.range 8).map fun index => hexadecimal (readUInt16BE address (2 * index)))

def finishRequest (buffer : Bytes) (host : Text) (offset : Nat) : ConnectRequest :=
  let port := readUInt16BE buffer offset
  if host = [] ∨ port < 1 ∨ 65535 < port then .invalid 0x04 (offset + 2)
  else .connect host port (offset + 2)

def parseSocks5ConnectRequest (buffer : Bytes) : ConnectRequest :=
  if buffer.length < 4 then .needMoreData
  else if byteAt buffer 0 ≠ 0x05 then .invalid 0x01 buffer.length
  else if byteAt buffer 1 ≠ 0x01 then .unsupported 0x07 buffer.length
  else if byteAt buffer 3 = 0x01 then
    if buffer.length < 4 + 4 + 2 then .needMoreData
    else finishRequest buffer (ipv4Host ((buffer.take 8).drop 4)) 8
  else if byteAt buffer 3 = 0x03 then
    if buffer.length < 4 + 1 then .needMoreData
    else
      let domainLength := (byteAt buffer 4).toNat
      if buffer.length < 5 + domainLength + 2 then .needMoreData
      else finishRequest buffer (Utf8.decode ((buffer.take (5 + domainLength)).drop 5)) (5 + domainLength)
  else if byteAt buffer 3 = 0x04 then
    if buffer.length < 4 + 16 + 2 then .needMoreData
    else finishRequest buffer (ipv6Host ((buffer.take 20).drop 4)) 20
  else .unsupported 0x08 buffer.length

def socks5Response (code : UInt8) : Bytes := [0x05, code, 0x00, 0x01, 0, 0, 0, 0, 0, 0]

variable {buffer : Bytes}

theorem byteAt_append {index : Nat} (h : index < buffer.length) (more : Bytes) : byteAt (buffer ++ more) index = byteAt buffer index := by
  rw [byteAt, byteAt, List.getD_eq_getElem?_getD, List.getD_eq_getElem?_getD, List.getElem?_append_left h]

theorem take_append {count : Nat} (h : count ≤ buffer.length) (more : Bytes) :
    (buffer ++ more).take count = buffer.take count := List.take_append_of_le_length h

variable {offset : Nat}

theorem readUInt16BE_append (h : offset + 2 ≤ buffer.length) (more : Bytes) :
    readUInt16BE (buffer ++ more) offset = readUInt16BE buffer offset := by
  rw [readUInt16BE, readUInt16BE, byteAt_append (by omega), byteAt_append (by omega)]

def greeted (buffer : Bytes) : Bool := 2 ≤ buffer.length && 2 + (byteAt buffer 1).toNat ≤ buffer.length

theorem greeted_append (h : greeted buffer = true) (more : Bytes) : greeted (buffer ++ more) = true := by
  simp only [greeted, Bool.and_eq_true, decide_eq_true_eq] at h ⊢
  rw [byteAt_append (by omega), List.length_append]
  omega

theorem handleSocks5Greeting_append (h : greeted buffer = true) (more : Bytes) : handleSocks5Greeting (buffer ++ more) =
      ((handleSocks5Greeting buffer).1, (handleSocks5Greeting buffer).2.map fun remaining => remaining ++ more) := by
  simp only [greeted, Bool.and_eq_true, decide_eq_true_eq] at h
  obtain ⟨hHeader, hMethods⟩ := h
  simp only [handleSocks5Greeting]
  rw [byteAt_append (by omega), byteAt_append (by omega), take_append hMethods, List.drop_append_of_le_length hMethods,
    List.length_append]
  have hLong : ¬ buffer.length + more.length < 2 := by omega
  have hShort : ¬ buffer.length < 2 := by omega
  have hAll : ¬ buffer.length + more.length < 2 + (byteAt buffer 1).toNat := by omega
  have hEnough : ¬ buffer.length < 2 + (byteAt buffer 1).toNat := by omega
  simp only [hLong, hShort, hAll, hEnough, false_or, if_false]
  split
  · rfl
  · split
    · rfl
    · rfl

inductive Verdict
  | connect (host : Text) (port consumedBytes : Nat)
  | refused (code : UInt8)
  deriving DecidableEq

def ConnectRequest.verdict : ConnectRequest → Option Verdict
  | .connect host port consumedBytes => some (.connect host port consumedBytes)
  | .needMoreData => none
  | .unsupported code _ => some (.refused code)
  | .invalid code _ => some (.refused code)

theorem finishRequest_append (h : offset + 2 ≤ buffer.length) (host : Text) (more : Bytes) :
    finishRequest (buffer ++ more) host offset = finishRequest buffer host offset := by
  rw [finishRequest, finishRequest, readUInt16BE_append h]

structure Header (addressType : UInt8) (buffer : Bytes) : Prop where
  long : 4 ≤ buffer.length
  version : byteAt buffer 0 = 0x05
  command : byteAt buffer 1 = 0x01
  address : byteAt buffer 3 = addressType

namespace Header

variable {addressType : UInt8}

theorem append (h : Header addressType buffer) (more : Bytes) : Header addressType (buffer ++ more) := by
  have hLong := h.long
  constructor
  case long => exact Nat.le_trans hLong (by simp)
  case version => rw [byteAt_append (by omega), h.version]
  case command => rw [byteAt_append (by omega), h.command]
  case address => rw [byteAt_append (by omega), h.address]

theorem parse_ipv4 (h : Header 0x01 buffer) : parseSocks5ConnectRequest buffer =
    if buffer.length < 4 + 4 + 2 then .needMoreData else finishRequest buffer (ipv4Host ((buffer.take 8).drop 4)) 8 := by
  rw [parseSocks5ConnectRequest, if_neg (Nat.not_lt.mpr h.long), if_neg (not_not_intro h.version),
    if_neg (not_not_intro h.command), if_pos h.address]

theorem parse_domain (h : Header 0x03 buffer) : parseSocks5ConnectRequest buffer = if buffer.length < 4 + 1 then .needMoreData
    else if buffer.length < 5 + (byteAt buffer 4).toNat + 2 then .needMoreData
    else finishRequest buffer (Utf8.decode ((buffer.take (5 + (byteAt buffer 4).toNat)).drop 5)) (5 + (byteAt buffer 4).toNat) := by
  rw [parseSocks5ConnectRequest, if_neg (Nat.not_lt.mpr h.long), if_neg (not_not_intro h.version),
    if_neg (not_not_intro h.command), if_neg (by rw [h.address]; decide), if_pos h.address]

theorem parse_ipv6 (h : Header 0x04 buffer) : parseSocks5ConnectRequest buffer =
    if buffer.length < 4 + 16 + 2 then .needMoreData else finishRequest buffer (ipv6Host ((buffer.take 20).drop 4)) 20 := by
  rw [parseSocks5ConnectRequest, if_neg (Nat.not_lt.mpr h.long), if_neg (not_not_intro h.version),
    if_neg (not_not_intro h.command), if_neg (by rw [h.address]; decide), if_neg (by rw [h.address]; decide), if_pos h.address]

theorem parse_unknown (h : Header addressType buffer) (hIpv4 : addressType ≠ 0x01) (hDomain : addressType ≠ 0x03)
    (hIpv6 : addressType ≠ 0x04) : parseSocks5ConnectRequest buffer = .unsupported 0x08 buffer.length := by
  rw [parseSocks5ConnectRequest, if_neg (Nat.not_lt.mpr h.long), if_neg (not_not_intro h.version),
    if_neg (not_not_intro h.command), h.address, if_neg hIpv4, if_neg hDomain, if_neg hIpv6]

end Header

inductive Reading (buffer : Bytes) : Prop
  | short (h : parseSocks5ConnectRequest buffer = .needMoreData)
  | otherVersion (h : ∀ more, parseSocks5ConnectRequest (buffer ++ more) = .invalid 0x01 (buffer ++ more).length)
  | unsupported (code : UInt8) (h : ∀ more, parseSocks5ConnectRequest (buffer ++ more) = .unsupported code (buffer ++ more).length)
  | finished (host : Text) (offset : Nat) (hWithin : offset + 2 ≤ buffer.length)
      (h : ∀ more, parseSocks5ConnectRequest (buffer ++ more) = finishRequest buffer host offset)

theorem reading (buffer : Bytes) : Reading buffer := by
  by_cases hShort : buffer.length < 4
  · exact .short (if_pos hShort)
  have hLength (more : Bytes) : (buffer ++ more).length = buffer.length + more.length := List.length_append
  have hLong (more : Bytes) : ¬ (buffer ++ more).length < 4 := by
    rw [hLength]
    omega
  by_cases hVersion : byteAt buffer 0 = 0x05
  swap
  · refine .otherVersion fun more => ?_
    rw [parseSocks5ConnectRequest, if_neg (hLong more), byteAt_append (by omega), if_pos hVersion]
  by_cases hCommand : byteAt buffer 1 = 0x01
  swap
  · refine .unsupported 0x07 fun more => ?_
    rw [parseSocks5ConnectRequest, if_neg (hLong more), byteAt_append (by omega), byteAt_append (by omega),
      if_neg (not_not_intro hVersion), if_pos hCommand]
  have hHeader : Header (byteAt buffer 3) buffer := ⟨Nat.not_lt.mp hShort, hVersion, hCommand, rfl⟩
  generalize byteAt buffer 3 = addressType at hHeader
  by_cases hIpv4 : addressType = 0x01
  · subst hIpv4
    by_cases hEnough : buffer.length < 4 + 4 + 2
    · exact .short (by rw [hHeader.parse_ipv4, if_pos hEnough])
    · refine .finished (ipv4Host ((buffer.take 8).drop 4)) 8 (by omega) fun more => ?_
      rw [(hHeader.append more).parse_ipv4, hLength, if_neg (by omega), take_append (by omega), finishRequest_append (by omega)]
  by_cases hDomain : addressType = 0x03
  · subst hDomain
    by_cases hPrefix : buffer.length < 4 + 1
    · exact .short (by rw [hHeader.parse_domain, if_pos hPrefix])
    by_cases hEnough : buffer.length < 5 + (byteAt buffer 4).toNat + 2
    · exact .short (by rw [hHeader.parse_domain, if_neg hPrefix, if_pos hEnough])
    · refine .finished (Utf8.decode ((buffer.take (5 + (byteAt buffer 4).toNat)).drop 5)) (5 + (byteAt buffer 4).toNat)
        (by omega) fun more => ?_
      rw [(hHeader.append more).parse_domain, hLength, byteAt_append (by omega), if_neg (by omega), if_neg (by omega),
        take_append (by omega), finishRequest_append (by omega)]
  by_cases hIpv6 : addressType = 0x04
  · subst hIpv6
    by_cases hEnough : buffer.length < 4 + 16 + 2
    · exact .short (by rw [hHeader.parse_ipv6, if_pos hEnough])
    · refine .finished (ipv6Host ((buffer.take 20).drop 4)) 20 (by omega) fun more => ?_
      rw [(hHeader.append more).parse_ipv6, hLength, if_neg (by omega), take_append (by omega), finishRequest_append (by omega)]
  · exact .unsupported 0x08 fun more => (hHeader.append more).parse_unknown hIpv4 hDomain hIpv6

theorem parseSocks5ConnectRequest_append {verdict : Verdict} (h : (parseSocks5ConnectRequest buffer).verdict = some verdict) (more : Bytes) :
    (parseSocks5ConnectRequest (buffer ++ more)).verdict = some verdict := by
  rw [← List.append_nil buffer] at h
  cases reading buffer with
  | short hShort =>
    rw [List.append_nil, hShort] at h
    cases h
  | otherVersion hVersion => rwa [hVersion] at h ⊢
  | unsupported code hRefused => rwa [hRefused] at h ⊢
  | finished host offset _ hFinished => rwa [hFinished] at h ⊢

theorem consumedBytes_le {host : Text} {port consumedBytes : Nat}
    (h : parseSocks5ConnectRequest buffer = .connect host port consumedBytes) : consumedBytes ≤ buffer.length := by
  rw [← List.append_nil buffer] at h
  cases reading buffer with
  | short hShort =>
    rw [List.append_nil, hShort] at h
    cases h
  | otherVersion hVersion =>
    rw [hVersion] at h
    cases h
  | unsupported code hRefused =>
    rw [hRefused] at h
    cases h
  | finished host offset hWithin hFinished =>
    rw [hFinished] at h
    simp only [finishRequest] at h
    split at h
    · cases h
    · cases h
      exact hWithin

end Socks5

end PortForward
