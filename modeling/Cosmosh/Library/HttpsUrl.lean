import Cosmosh.Library.JsText

/-! # `https` URLs

The URL parser of the web platform on texts that start with the scheme.
-/

namespace Library.HttpsUrl

open Library

def DEFAULT_PORT : Nat := 443

def SCHEME : Text := ['h', 't', 't', 'p', 's', ':']

def isTabOrNewline (c : Char) : Bool := c = '\t' || c = '\n' || c = '\r'

def isControlOrSpace (c : Char) : Bool := c.toNat ≤ 0x20

def isSlash (c : Char) : Bool := c = '/' || c = '\\'

def endsPath (c : Char) : Bool := c = '?' || c = '#'

def endsAuthority (c : Char) : Bool := isSlash c || endsPath c

def hexDigits : Text := "0123456789ABCDEF".toList

def percentByte (b : UInt8) : Text := ['%', hexDigits.getD (b.toNat / 16) '0', hexDigits.getD (b.toNat % 16) '0']

def percentEncode (set : Char → Bool) (t : Text) : Text :=
  t.flatMap fun c => if set c then (String.utf8EncodeChar c).flatMap percentByte else [c]

def inControls (c : Char) : Bool := c.toNat ≤ 0x1f || 0x7e < c.toNat

def inFragment (c : Char) : Bool := inControls c || c ∈ [' ', '"', '<', '>', '\x60']

def inQuery (c : Char) : Bool := inControls c || c ∈ [' ', '"', '#', '<', '>', '\'']

def inPath (c : Char) : Bool := inControls c || c ∈ [' ', '"', '#', '<', '>', '?', '^', '\x60', '\x7b', '\x7d']

def inUserinfo (c : Char) : Bool := inPath c || c ∈ ['/', ':', ';', '=', '@', '[', '\\', ']', '|']

/-- What stands before the last `@`, if there is one, and what stands after it. -/
def splitCredentials : Text → Option Text × Text
  | [] => (none, [])
  | c :: t =>
    match splitCredentials t with
    | (some credentials, host) => (some (c :: credentials), host)
    | (none, host) => if c = '@' then (some [], host) else (none, c :: host)

def bracketState (inside : Bool) (c : Char) : Bool := if c = '[' then true else if c = ']' then false else inside

def splitPort : Bool → Text → Text × Option Text
  | _, [] => ([], none)
  | inside, c :: t =>
    if c = ':' ∧ inside = false then ([], some t)
    else (c :: (splitPort (bracketState inside c) t).1, (splitPort (bracketState inside c) t).2)

def portDigits (port : Nat) : Text := Nat.toDigits 10 port

def parsePort (t : Text) : Option Text :=
  if t = [] then some []
  else if t.all Char.isDigit = false then none
  else
    let port := Nat.ofDigitChars 10 t 0
    if 65535 < port then none else if port = DEFAULT_PORT then some [] else some (portDigits port)

def toLowerAscii (t : Text) : Text := t.map Char.toLower

def isSingleDot (segment : Text) : Bool := toLowerAscii segment ∈ [['.'], ['%', '2', 'e']]

def isDoubleDot (segment : Text) : Bool :=
  toLowerAscii segment ∈ [['.', '.'], ['.', '%', '2', 'e'], ['%', '2', 'e', '.'], ['%', '2', 'e', '%', '2', 'e']]

def resolve (path : List Text) : List Text → List Text
  | [] => path
  | [last] =>
    if isDoubleDot last = true then path.dropLast ++ [[]]
    else if isSingleDot last = true then path ++ [[]]
    else path ++ [percentEncode inPath last]
  | segment :: next :: rest =>
    if isDoubleDot segment = true then resolve path.dropLast (next :: rest)
    else if isSingleDot segment = true then resolve path (next :: rest)
    else resolve (path ++ [percentEncode inPath segment]) (next :: rest)

def segmentsOf (t : Text) : List Text := (t.drop 1).splitOnP isSlash

def pathnameOf (t : Text) : Text := (resolve [] (segmentsOf t)).flatMap ('/' :: ·)

structure Url where
  username : Text
  password : Text
  hostname : Text
  port : Text
  pathname : Text
  query : Option Text
  fragment : Option Text
  deriving DecidableEq

namespace Url

def search (url : Url) : Text :=
  match url.query with
  | some (c :: t) => '?' :: c :: t
  | _ => []

def hash (url : Url) : Text :=
  match url.fragment with
  | some (c :: t) => '#' :: c :: t
  | _ => []

/-- `toString` -/
def href (url : Url) : Text :=
  SCHEME ++ ['/', '/'] ++
    (if url.username = [] ∧ url.password = [] then []
      else url.username ++ (if url.password = [] then [] else ':' :: url.password) ++ ['@']) ++
    url.hostname ++ (if url.port = [] then [] else ':' :: url.port) ++ url.pathname ++
    (url.query.map ('?' :: ·)).getD [] ++ (url.fragment.map ('#' :: ·)).getD []

def effectivePort (url : Url) : Nat := if url.port = [] then DEFAULT_PORT else Nat.ofDigitChars 10 url.port 0

end Url

def afterPath (t : Text) : Text := t.dropWhile fun c => !endsPath c

def queryOf (t : Text) : Option Text :=
  match afterPath t with
  | '?' :: query => some (percentEncode inQuery (query.takeWhile (· ≠ '#')))
  | _ => none

def fragmentOf (t : Text) : Option Text :=
  match t.dropWhile (· ≠ '#') with
  | _ :: fragment => some (percentEncode inFragment fragment)
  | [] => none

section

variable (parseHost : Text → Option Text)

def parseAuthority (authority rest : Text) : Option Url :=
  let (credentials, hostPort) := splitCredentials authority
  let (host, port) := splitPort false hostPort
  if host = [] then none
  else do
    let hostname ← parseHost host
    let port ← parsePort (port.getD [])
    return {
      username := percentEncode inUserinfo ((credentials.getD []).takeWhile (· ≠ ':'))
      password := percentEncode inUserinfo (((credentials.getD []).dropWhile (· ≠ ':')).drop 1)
      hostname
      port
      pathname := pathnameOf (rest.takeWhile fun c => !endsPath c)
      query := queryOf rest
      fragment := fragmentOf rest
    }

def parseAfterScheme (t : Text) : Option Url :=
  let t := t.dropWhile isSlash
  parseAuthority parseHost (t.takeWhile fun c => !endsAuthority c) (t.dropWhile fun c => !endsAuthority c)

def stripEnds (t : Text) : Text := (t.dropWhile isControlOrSpace).rdropWhile isControlOrSpace

/-- `new URL`; texts of other schemes give nothing here. -/
def parse (t : Text) : Option Url :=
  let t := (stripEnds t).filter fun c => !isTabOrNewline c
  if SCHEME.isPrefixOf t then parseAfterScheme parseHost (t.drop SCHEME.length) else none

end

end Library.HttpsUrl
