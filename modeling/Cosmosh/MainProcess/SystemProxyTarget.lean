import Cosmosh.Library.HttpsAuthority
import Cosmosh.Library.JsNumber

/-! # Targets for the proxy of the system

The renderer asks which proxy leads to a host and a port.
-/

namespace MainProcess

open Library Library.JsText Library.HttpsUrl

structure SystemProxyResolveRequest where
  /-- `none` when it is not a string. -/
  host : Option Text
  /-- `none` when it is not a number. -/
  port : Option JsNumber

def INVALID_TARGET : String := "Invalid system proxy resolution target."

/-- What the platform knows of hosts: the host parser outside and inside brackets, and `net.isIP`. -/
structure HostPlatform where
  domainOf : Text → Option Text
  ipv6Of : Text → Option Text
  isIP : Text → Nat

namespace HostPlatform

variable (platform : HostPlatform)

def parseHost (t : Text) : Option Text :=
  if t.head? = some '[' then
    if t.getLast? = some ']' then (platform.ipv6Of t.tail.dropLast).map fun address => '[' :: address ++ [']'] else none
  else platform.domainOf t

end HostPlatform

namespace SystemProxyResolveRequest

def hostText (payload : SystemProxyResolveRequest) : Text := (payload.host.map trim).getD []

def portNumber (payload : SystemProxyResolveRequest) : Option Nat :=
  match payload.port with
  | none => none
  | some port =>
    if port.isInteger = false ∨ port.toRat < 1 ∨ 65535 < port.toRat then none else some port.toNat

end SystemProxyResolveRequest

section

variable (platform : HostPlatform)

def normalizedHost (host : Text) : Text := if platform.isIP host = 6 then '[' :: host ++ [']'] else host

/-- `request` is `none` for what is no object or is an array. -/
def buildSystemProxyTargetUrl (request : Option SystemProxyResolveRequest) : Except String Text :=
  match request with
  | none => .error INVALID_TARGET
  | some payload =>
    let host := payload.hostText
    match payload.portNumber with
    | none => .error INVALID_TARGET
    | some port =>
      if host = [] ∨ 255 < utf16Length host then .error INVALID_TARGET
      else
        match parse platform.parseHost (targetText (normalizedHost platform host) port) with
        | none => .error INVALID_TARGET
        | some targetUrl =>
          if targetUrl.port ≠ portDigits port ∨ targetUrl.pathname ≠ ['/'] ∨ targetUrl.username ≠ [] ∨
              targetUrl.password ≠ [] ∨ targetUrl.search ≠ [] ∨ targetUrl.hash ≠ [] then
            .error INVALID_TARGET
          else .ok targetUrl.href

end

def isNameChar (c : Char) : Bool := c.isAlphanum || c = '-' || c = '_'

def isHexDigit (c : Char) : Bool := c.isDigit || c ∈ "abcdefABCDEF".toList

def isNumberLabel (label : Text) : Bool :=
  (label ≠ [] && label.all Char.isDigit) || (['0', 'x'].isPrefixOf (toLowerAscii label) && (label.drop 2).all isHexDigit)

/-- `xn--`, before a label in Punycode. -/
def ACE_PREFIX : Text := ['x', 'n', '-', '-']

structure IsDnsName (isALabel : Text → Bool) (t : Text) : Prop where
  spelling : ∃ labels : List Text, labels ≠ [] ∧ (t = List.intercalate ['.'] labels ∨ t = List.intercalate ['.'] labels ++ ['.']) ∧
    (∀ label ∈ labels, label ≠ [] ∧ label.length ≤ 63 ∧ ∀ c ∈ label, isNameChar c = true) ∧
    (∀ label ∈ labels, ACE_PREFIX.isPrefixOf (toLowerAscii label) = true → isALabel label = true) ∧
    ∀ label ∈ labels.getLast?, isNumberLabel label = false
  length : t.length ≤ 254

structure IsIpv4 (t : Text) : Prop where
  octets : ∃ a b c d : Fin 256, t = List.intercalate ['.'] [portDigits a, portDigits b, portDigits c, portDigits d]

section

variable (platform : HostPlatform) (isALabel : Text → Bool)

inductive Spells : Text → Text → Prop
  | dns {host : Text} (h : IsDnsName isALabel host) : Spells host (toLowerAscii host)
  | ipv4 {host : Text} (h : IsIpv4 host) : Spells host host
  | ipv6 {host address : Text} (h : platform.isIP host = 6) (hZone : '%' ∉ host) (hAddress : platform.ipv6Of host = some address) :
      Spells host ('[' :: address ++ [']'])

def hostNamed (host : Text) : Option Text :=
  if platform.isIP host = 6 then (platform.ipv6Of host).map fun address => '[' :: address ++ [']']
  else if '%' ∈ host then none
  else platform.parseHost host

def Disguised (host : Text) : Prop :=
  platform.isIP host ≠ 6 ∧ ∃ body hostname, Spelled platform.parseHost host body hostname ∧ (body ≠ host ∨ '%' ∈ host)

def FORBIDDEN : Text := ['\t', '\n', '\r', ' ', '#', '/', ':', '<', '>', '?', '@', '[', '\\', ']', '^', '|']

def isAddressChar (c : Char) : Bool := isHexDigit c || c = ':' || c = '.'

def isZoneChar (c : Char) : Bool := c.isAlphanum || c ∈ ['-', '.', ':']

/-- What the URL standard and the manual of the runtime say of the platform. -/
structure HostPlatform.Documented : Prop where
  domain_nonempty : platform.domainOf [] = none
  domain_plain : ∀ t name, platform.domainOf t = some name → ∀ c ∈ t, c ∉ FORBIDDEN
  domain_stable : ∀ t name, platform.domainOf t = some name → platform.domainOf name = some name
  domain_name : ∀ t, IsDnsName isALabel t → platform.domainOf t = some (toLowerAscii t)
  domain_ipv4 : ∀ t, IsIpv4 t → platform.domainOf t = some t
  ipv6_plain : ∀ t address, platform.ipv6Of t = some address → ':' ∈ t ∧ t.length ≤ 45 ∧ ∀ c ∈ t, isAddressChar c = true
  ipv6_stable : ∀ t address, platform.ipv6Of t = some address → platform.ipv6Of address = some address
  isIP_ipv6 : ∀ t, platform.isIP t = 6 → ∃ address zone, t = address ++ zone ∧ (platform.ipv6Of address).isSome = true ∧
    (zone = [] ∨ ∃ name, zone = '%' :: name ∧ ∀ c ∈ name, isZoneChar c = true)

end

end MainProcess
