import RelaySql.Settings.Basic
import RelaySql.Yaml.Document

/-!
# Settings — settings files

A settings file is laid over the defaults: what it does not say keeps its default.  A text may be
given as a number.  The parts of the database's address may then refer to environment variables.
-/

namespace RelaySql.Settings

/-- The text under a key, if there is one; a number counts as its text. -/
def textUnder (node : Yaml.Value) (key : String) : Except SettingsFault (Option String) :=
  match node.member? key with
  | none | some .null => .ok none
  | some (.string s) => .ok (some s)
  | some (.number n) => .ok (some n.text)
  | some _ => .error (.invalidValue key)

/-- The text under a key, or else what it is laid over. -/
def layText (node : Yaml.Value) (key below : String) : Except SettingsFault String :=
  (textUnder node key).map (·.getD below)

/-- The address of a database, laid over another. -/
def Database.lay (d : Database) (node : Yaml.Value) : Except SettingsFault Database := do
  let user ← layText node "user" d.user
  let password ← layText node "password" d.password
  let host ← layText node "host" d.host
  let port ← layText node "port" d.port
  let database ← layText node "database" d.database
  return ⟨user, password, host, port, database⟩

namespace Config

/-- The truth value under `verbose`, or else what it is laid over. -/
def layVerbose (document : Yaml.Value) (below : Bool) : Except SettingsFault Bool :=
  match document.member? "verbose" with
  | none => .ok below
  | some (.boolean b) => .ok b
  | some _ => .error (.invalidValue "verbose")

/-- A document laid over the settings, key by key in a fixed order. -/
def lay (c : Config) (document : Yaml.Value) : Except SettingsFault Config := do
  let logLevel ← layText document "log_level" c.logLevel
  let verbose ← layVerbose document c.verbose
  let database ← match (document.member? "database").bind (·.member? databaseScheme) with
    | none => .ok c.database
    | some node => c.database.lay node
  return ⟨logLevel, verbose, database⟩

/-- The settings with the references of the address replaced. -/
def resolve (c : Config) (env : Environment) : Except SettingsFault Config :=
  match c.database.resolved env with
  | (.ok (), database) => .ok { c with database }
  | (.error fault, _) => .error fault

/-- The settings of a document, over the defaults. -/
def ofDocument (document : Yaml.Value) (env : Environment) : Except SettingsFault Config := do
  (← ({} : Config).lay document).resolve env

/-- The settings of a file's text; without a text there is no file. -/
def ofFile (text : Option String) (env : Environment) : Except SettingsFault Config :=
  match text with
  | none => .error .noFile
  | some text =>
    match Yaml.Value.ofText? text with
    | none => .error .malformed
    | some document => ofDocument document env

end Config

end RelaySql.Settings
