import RelaySql.Fault
import RelaySql.Settings.Database

/-!
# Settings — checking a database URL

Before a connection is opened its URL is checked: it must be a URL, of a backend that is known, and
what it asks for must be possible.
-/

namespace RelaySql.Settings

/-- How a connection may be secured. -/
def securityModes : List String :=
  ["disable", "allow", "prefer", "require", "verify-ca", "verify-full"]

/-- The text is a number of at most `bound`, perhaps with a plus sign. -/
def isNumberUpTo (bound : Nat) (s : String) : Bool :=
  let digits := match s.toList with
    | '+' :: rest => rest
    | cs => cs
  digits ≠ [] && digits.all Char.isDigit && ofDigits digits ≤ bound

/-- The text is an address of either width. -/
def isAddress (s : String) : Bool :=
  (Url.Ipv6.octets? s.toList).isSome || (Url.Ipv6.ofChars? s.toList).isSome

/-- The value can be configured under the key; other keys take any value. -/
def isConfigurable (key value : String) : Bool :=
  match key with
  | "sslmode" | "ssl-mode" =>
    securityModes.contains (String.ofList (value.toList.map Char.toLower))
  | "statement-cache-capacity" => isNumberUpTo maxUInt64 value
  | "port" => isNumberUpTo 65535 value
  | "hostaddr" => isAddress value
  | _ => true

/-- A part of a query, in which a plus sign stands for a space. -/
def queryText? (cs : List Char) : Option String :=
  Url.Percent.decodeText? (cs.map fun c => if c = '+' then ' ' else c)

/-- A key and a value of a query, as far as they are texts. -/
def queryPair (cs : List Char) : Option String × Option String :=
  let (key, value) := cs.span (· ≠ '=')
  (queryText? key, queryText? (value.drop 1))

/-- A pair of a query can be configured. -/
def acceptsPair : Option String × Option String → Bool
  | (none, _) => true
  | (some key, value) => isConfigurable key (value.getD "\ufffd")

/-- A part of a URL encodes a text. -/
def encodesText (s : String) : Bool := (Url.Percent.decodeText? s.toList).isSome

/-- What a URL asks for is possible. -/
def isPossible (u : Url) : Bool :=
  let pairs := ((u.query.getD "").toList.splitOn '&').map queryPair
  encodesText (u.host.getD "") && encodesText u.user && encodesText (u.password.getD "") &&
    pairs.all acceptsPair

/-- Checks the URL of a database. -/
def checkUrl (s : String) : Except SourceFault Url :=
  match Url.ofText s with
  | .error _ => .error (.invalidConnectionString s)
  | .ok url =>
    if url.scheme ≠ databaseScheme then .error (.backendNotSupported url.scheme)
    else if isPossible url then .ok url
    else .error (.driver .configuration)

/-- Checks the URL of an address. -/
def Database.check (d : Database) : Except SourceFault Url := checkUrl d.url

end RelaySql.Settings
