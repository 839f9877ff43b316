import RelaySql.Url.Ipv6
import RelaySql.Url.Path

/-!
# Url — reading a URL

A URL has a scheme, and after two slashes an authority: a user and a password, a host, and a port.
A path, a query and a fragment follow.  Controls and spaces around a URL are left out, and tabs and
line breaks inside it.

For the schemes of the web slashes may be missing or be backslashes, and a host is required.  For
all other schemes a host is any text without certain characters, or an address between brackets.
-/

namespace RelaySql

/-- Why a text is no URL. -/
inductive UrlFault where
  | relative
  | emptyHost
  | invalidPort
  | invalidAddress
  | invalidDomainCharacter
deriving DecidableEq, Repr

/-- What a fault of a URL is called. -/
def UrlFault.message : UrlFault → String
  | relative => "relative URL without a base"
  | emptyHost => "empty host"
  | invalidPort => "invalid port number"
  | invalidAddress => "invalid IPv6 address"
  | invalidDomainCharacter => "invalid domain character"

/-- The parts of a URL, percent encoded. -/
structure Url where
  scheme : String
  user : String := ""
  password : Option String := none
  host : Option String := none
  port : Option Nat := none
  /-- The segments of the path; a path that is missing or without a leading slash has none. -/
  segments : List String := []
  query : Option String := none
deriving DecidableEq, Repr

namespace Url

/-- A space or a control character. -/
def isPadding (c : Char) : Bool := c.toNat ≤ 0x20

/-- The text without what is left out of it. -/
def clean (cs : List Char) : List Char :=
  let trimmed := ((cs.dropWhile isPadding).reverse.dropWhile isPadding).reverse
  trimmed.filter fun c => c ≠ '\t' ∧ c ≠ '\n' ∧ c ≠ '\r'

/-- The scheme, in lower case, and what follows its colon. -/
def scheme? (cs : List Char) : Option (String × List Char) :=
  let (name, rest) := cs.span (· ≠ ':')
  let valid := name.all fun c => c.isAlphanum || c ∈ ['+', '-', '.']
  match name, rest with
  | first :: _, ':' :: rest =>
    if first.isAlpha ∧ valid then some (String.ofList (name.map Char.toLower), rest) else none
  | _, _ => none

/-- The schemes of the web. -/
def webSchemes : List String := ["http", "https", "ws", "wss", "ftp"]

/-- The characters no host may hold. -/
def forbiddenInHost (c : Char) : Bool := c ∈ "\x00\t\n\r #/:<>?@[\\]^|".toList

/-- The host of a text; the empty text is no host. -/
def readHost (cs : List Char) : Except UrlFault (Option String) :=
  match cs with
  | [] => .ok none
  | '[' :: rest =>
    if rest.getLast? = some ']' then
      match Ipv6.ofChars? rest.dropLast with
      | some groups => .ok (some (String.ofList (['['] ++ Ipv6.chars groups ++ [']'])))
      | none => .error .invalidAddress
    else .error .invalidAddress
  | cs =>
    if cs.any forbiddenInHost then .error .invalidDomainCharacter
    else .ok (some (String.ofList (Percent.encode Percent.inHost cs)))

/-- Splits off a host, which ends at a colon outside brackets. -/
def splitHost (bracketed : Bool) : List Char → List Char × List Char
  | [] => ([], [])
  | c :: r =>
    if c = ':' ∧ !bracketed then ([], c :: r)
    else
      let inside := if c = '[' then true else if c = ']' then false else bracketed
      let (host, rest) := splitHost inside r
      (c :: host, rest)

/-- The port after a colon, and what ends it: a number up to 65535, or nothing. -/
def readPort (cs : List Char) : Except UrlFault (Option Nat × List Char) :=
  let (digits, rest) := cs.span Char.isDigit
  if 65535 < ofDigits digits then .error .invalidPort
  else if rest = [] ∨ rest.head? = some '\\' then
    .ok (if digits = [] then none else some (ofDigits digits), rest)
  else .error .invalidPort

/-- What stands before the last `@`, if there is one, and what follows it. -/
def splitUserInfo (cs : List Char) : Option (List Char) × List Char :=
  let (after, before) := cs.reverse.span (· ≠ '@')
  match before with
  | [] => (none, cs)
  | _ :: before => (some before.reverse, after.reverse)

/-- The user and the password, encoded; an empty password is none. -/
def userInfo (cs : List Char) : String × Option String :=
  let (user, rest) := cs.span (· ≠ ':')
  let encoded (cs : List Char) := String.ofList (Percent.encode Percent.inUserInfo cs)
  match rest with
  | _ :: p :: password => (encoded user, some (encoded (p :: password)))
  | _ => (encoded user, none)

/-- The path and the query of what follows the authority. -/
def pathAndQuery (cs : List Char) : List String × Option String :=
  let (path, rest) := (cs.takeWhile (· ≠ '#')).span (· ≠ '?')
  let query := match rest with
    | [] => none
    | _ :: query => some (String.ofList query)
  let path := match path with
    | [] => []
    | '/' :: path => Path.segments path
    | path => Path.segments path
  (path.map String.ofList, query)

/-- Reads what follows the slashes of a URL. -/
def ofAuthority (scheme : String) (cs : List Char) : Except UrlFault Url := do
  let web : Bool := scheme ∈ webSchemes
  let (authority, rest) := cs.span fun c => c ∉ ['/', '?', '#'] ∧ ¬(web ∧ c = '\\')
  let (info, address) := splitUserInfo authority
  if info = some [] ∧ address = [] ∧ rest ≠ [] then throw .emptyHost
  let (user, password) := userInfo (info.getD [])
  let (name, after) := splitHost false address
  if web ∧ name = [] then throw .emptyHost
  let host ← readHost name
  if host = none ∧ after ≠ [] then throw .emptyHost
  let (port, after) ← readPort (after.drop 1)
  if host = none ∧ (user ≠ "" ∨ password.isSome) then throw .emptyHost
  let (segments, query) := pathAndQuery (after ++ rest)
  return { scheme, user, password, host, port, segments, query }

/-- Reads a URL. -/
def ofText (s : String) : Except UrlFault Url :=
  match scheme? (clean s.toList) with
  | none => .error .relative
  | some (scheme, rest) =>
    if scheme ∈ webSchemes then
      ofAuthority scheme (rest.dropWhile fun c => c = '/' ∨ c = '\\')
    else match rest with
      | '/' :: '/' :: authority =>
        if scheme = "file" then .ok { scheme } else ofAuthority scheme authority
      | '/' :: path =>
        let (segments, query) := pathAndQuery ('/' :: path)
        .ok { scheme, segments, query }
      | rest => .ok { scheme, query := (pathAndQuery rest).2 }

end Url

end RelaySql
