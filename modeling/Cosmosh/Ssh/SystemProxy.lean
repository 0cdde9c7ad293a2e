import Cosmosh.Library.JsText

/-! # The proxy rules of the system

The operating system answers with rules between semicolons.
-/

namespace Ssh

open Library Library.JsText

structure Url where
  hostname : Text
  port : Text
  username : Text
  password : Text
  pathname : Text
  search : Text
  hash : Text

inductive ProxyType
  | http
  | https
  | socks5
  deriving DecidableEq

inductive ProxyCandidate
  | direct
  | proxy (type : ProxyType) (host : Text) (port : Nat)
  deriving DecidableEq

/-- `toUpperCase` as far as it can spell a directive: what it makes of any other character is part of none. -/
def upperChar (c : Char) : Char := if c = 'ſ' then 'S' else if c = 'ı' then 'I' else c.toUpper

def toUpperCase (t : Text) : Text := t.map upperChar

def DIRECT : Text := ['D', 'I', 'R', 'E', 'C', 'T']

def PROXY : Text := ['P', 'R', 'O', 'X', 'Y']

def HTTPS : Text := ['H', 'T', 'T', 'P', 'S']

def SOCKS5 : Text := ['S', 'O', 'C', 'K', 'S', '5']

def HTTP_PREFIX : Text := ['h', 't', 't', 'p', ':', '/', '/']

def normalizeUrlHostname (hostname : Text) : Text :=
  if hostname.head? = some '[' ∧ hostname.getLast? = some ']' then hostname.tail.dropLast else hostname

section

variable (parseUrl : Text → Option Url)

def parseSystemProxyEndpoint (endpoint : Text) : Option (Text × Nat) :=
  match parseUrl (HTTP_PREFIX ++ endpoint) with
  | none => none
  | some parsed =>
    let port := if parsed.port = [] then 0 else Nat.ofDigitChars 10 parsed.port 0
    if parsed.hostname = [] ∨ parsed.username ≠ [] ∨ parsed.password ≠ [] ∨ parsed.pathname ≠ ['/'] ∨ parsed.search ≠ [] ∨
        parsed.hash ≠ [] ∨ port < 1 ∨ 65535 < port then
      none
    else some (normalizeUrlHostname parsed.hostname, port)

def proxyTypeOf (directive : Text) : Option ProxyType :=
  if directive = PROXY then some .http
  else if directive = HTTPS then some .https
  else if directive = SOCKS5 then some .socks5
  else none

def parseSystemProxyRule (rawRule : Text) : Option ProxyCandidate :=
  let rule := JsText.trim rawRule
  if rule = [] then none
  else if toUpperCase rule = DIRECT then some .direct
  else
    let separatorIndex := rule.idxOf ' '
    if separatorIndex = 0 ∨ separatorIndex = rule.length then none
    else
      match parseSystemProxyEndpoint parseUrl (JsText.trim (rule.drop (separatorIndex + 1))) with
      | none => none
      | some (host, port) =>
        (proxyTypeOf (toUpperCase (rule.take separatorIndex))).map fun type => .proxy type host port

def parseSystemProxyRules (proxyRules : Text) : List ProxyCandidate := (proxyRules.splitOn ';').filterMap (parseSystemProxyRule parseUrl)

end

inductive ProxyHost
  | name (host : Text)
  | ipv6 (host : Text)

def ProxyHost.text : ProxyHost → Text
  | .name host => host
  | .ipv6 host => '[' :: host ++ [']']

def ProxyHost.literal : ProxyHost → Text
  | .name host => host
  | .ipv6 host => host

inductive ProxyRule
  | blank
  | direct (spelling : Text)
  | proxy (directive gap : Text) (host : ProxyHost) (port : Nat)

structure PaddedRule where
  before : Text
  rule : ProxyRule
  after : Text

def digits (port : Nat) : Text := Nat.toDigits 10 port

def ProxyRule.text : ProxyRule → Text
  | .blank => []
  | .direct spelling => spelling
  | .proxy directive gap host port => directive ++ ' ' :: (gap ++ (host.text ++ ':' :: digits port))

def PaddedRule.text (padded : PaddedRule) : Text := padded.before ++ (padded.rule.text ++ padded.after)

def renderRules (rules : List PaddedRule) : Text := List.intercalate [';'] (rules.map PaddedRule.text)

def Plain (t : Text) : Prop := ∀ c ∈ t, isWhitespace c = false ∧ c ≠ ';'

def Blank (t : Text) : Prop := ∀ c ∈ t, isWhitespace c = true

instance (t : Text) : Decidable (Plain t) := inferInstanceAs (Decidable (∀ c ∈ t, isWhitespace c = false ∧ c ≠ ';'))

instance (t : Text) : Decidable (Blank t) := inferInstanceAs (Decidable (∀ c ∈ t, isWhitespace c = true))

section

variable (nameOf ipv6Of : Text → Option Text)

def ProxyHost.normal : ProxyHost → Option Text
  | .name host => nameOf host
  | .ipv6 host => ipv6Of host

def ProxyRule.WellFormed : ProxyRule → Prop
  | .blank => True
  | .direct spelling => toUpperCase spelling = DIRECT
  | .proxy directive gap host port =>
    (directive ≠ [] ∧ Plain directive) ∧ Blank gap ∧ (Plain host.text ∧ (host.normal nameOf ipv6Of).isSome = true) ∧
      1 ≤ port ∧ port ≤ 65535

instance : (rule : ProxyRule) → Decidable (rule.WellFormed nameOf ipv6Of)
  | .blank => inferInstanceAs (Decidable True)
  | .direct spelling => inferInstanceAs (Decidable (toUpperCase spelling = DIRECT))
  | .proxy directive gap host port =>
    inferInstanceAs (Decidable ((directive ≠ [] ∧ Plain directive) ∧ Blank gap ∧
      (Plain host.text ∧ (host.normal nameOf ipv6Of).isSome = true) ∧ 1 ≤ port ∧ port ≤ 65535))

def PaddedRule.WellFormed (padded : PaddedRule) : Prop := Blank padded.before ∧ padded.rule.WellFormed nameOf ipv6Of ∧ Blank padded.after

instance (padded : PaddedRule) : Decidable (padded.WellFormed nameOf ipv6Of) :=
  inferInstanceAs (Decidable (Blank padded.before ∧ padded.rule.WellFormed nameOf ipv6Of ∧ Blank padded.after))

def httpUrl (hostname : Text) (port : Nat) : Url := ⟨hostname, if port = 80 then [] else digits port, [], [], ['/'], [], []⟩

/-- What the platform documents of `http` URLs: the default port is left out, a name has no
brackets, and an address in brackets keeps them. -/
structure ParsesAuthorities (parseUrl : Text → Option Url) : Prop where
  name : ∀ {host hostname port}, nameOf host = some hostname → 1 ≤ port → port ≤ 65535 →
    parseUrl (HTTP_PREFIX ++ (host ++ ':' :: digits port)) = some (httpUrl hostname port)
  name_plain : ∀ {host hostname}, nameOf host = some hostname → hostname ≠ [] ∧ hostname.head? ≠ some '['
  ipv6 : ∀ {host hostname port}, ipv6Of host = some hostname → 1 ≤ port → port ≤ 65535 →
    parseUrl (HTTP_PREFIX ++ ('[' :: host ++ [']'] ++ ':' :: digits port)) = some (httpUrl ('[' :: hostname ++ [']']) port)

end

def ProxyRule.candidate (hostOf : ProxyHost → Text) : ProxyRule → Option ProxyCandidate
  | .blank => none
  | .direct _ => some .direct
  | .proxy directive _ host port => (proxyTypeOf (toUpperCase directive)).map fun type => .proxy type (hostOf host) port

def ProxyRule.isSupported : ProxyRule → Bool
  | .proxy directive _ _ _ => (proxyTypeOf (toUpperCase directive)).isSome
  | _ => false

end Ssh
