import RelaySql.Settings.Environment
import RelaySql.Text.Quoted
import RelaySql.Url.Basic

/-!
# Settings — the address of the database

The address of a database has five parts.  It is written as a URL; in diagnostics the password is
masked.

* `Database.debug_setPassword`: the diagnostic text does not depend on the password.
-/

namespace RelaySql.Settings

/-- Why settings cannot be used. -/
inductive SettingsFault where
  /-- A value refers to an environment variable that is not set. -/
  | unsetVariable
  /-- The value under a key is of no usable kind. -/
  | invalidValue (key : String)
  | noFile
  /-- The text of the file is no document, or not exactly one. -/
  | malformed
deriving DecidableEq, Repr

/-- What a response says of a fault; of a file it says nothing but the kind of fault. -/
def SettingsFault.message? : SettingsFault → Option String
  | unsetVariable => some "Error parsing env variables from config"
  | invalidValue key => some ("Invalid value for config key " ++ Text.quoted key)
  | noFile => none
  | malformed => none

/-- The scheme of database URLs. -/
def databaseScheme : String := "postgres"

/-- The address of a database and the credentials for it. -/
structure Database where
  user : String := "postgres"
  password : String := ""
  host : String := "127.0.0.1"
  port : String := "5432"
  database : String := "postgres"
deriving DecidableEq, Repr, Inhabited

namespace Database

/-- The address as a URL. -/
def url (d : Database) : String :=
  databaseScheme ++ "://" ++ d.user ++ ":" ++ d.password ++ "@" ++ d.host ++ ":" ++ d.port ++ "/" ++
    d.database

/-- The address shown in diagnostics. -/
def debug (d : Database) : String :=
  "PostgresConfig \x7b user: " ++ Text.quoted d.user ++ ", password: " ++ Text.quoted "XXXX" ++
    ", host: " ++ Text.quoted d.host ++ ", port: " ++ Text.quoted d.port ++
    ", database: " ++ Text.quoted d.database ++ " \x7d"

theorem debug_setPassword (d : Database) (p : String) :
    { d with password := p }.debug = d.debug := rfl

/-- The address of a database URL.  A host is required; the port and the database may be missing. -/
def ofUrl (s : String) : Except UrlFault Database := do
  let url ← Url.ofText s
  if url.scheme ≠ databaseScheme then throw .invalidDomainCharacter
  match url.host with
  | none => throw .emptyHost
  | some host =>
    let database := match url.segments.head? with
      | none | some "" => ({} : Database).database
      | some name => name
    return {
      user := url.user
      password := url.password.getD ""
      host
      port := (url.port.map toString).getD ({} : Database).port
      database }

/-- A part of an address, or the value of the variable it refers to. -/
def resolvePart (env : Environment) (part : String) : Except SettingsFault String :=
  if isReference part then
    match env.get? (referredName part) with
    | some value => .ok value
    | none => .error .unsetVariable
  else .ok part

/-- Replaces references to environment variables, part by part; what was replaced before a failure
stays replaced. -/
def resolveReferences (env : Environment) : ExceptT SettingsFault (StateM Database) Unit := do
  let user ← resolvePart env (← get).user
  modify fun d => { d with user }
  let password ← resolvePart env (← get).password
  modify fun d => { d with password }
  let host ← resolvePart env (← get).host
  modify fun d => { d with host }
  let port ← resolvePart env (← get).port
  modify fun d => { d with port }
  let database ← resolvePart env (← get).database
  modify fun d => { d with database }

/-- The address with its references replaced as far as they can be, and the failure if there is
one. -/
def resolved (d : Database) (env : Environment) : Except SettingsFault Unit × Database :=
  (resolveReferences env).run.run d

end Database

end RelaySql.Settings
