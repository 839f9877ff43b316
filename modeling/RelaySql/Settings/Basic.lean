import RelaySql.Json.Basic
import RelaySql.Settings.Database

/-!
# Settings — the settings of the library

Settings say how much is logged and where the database is.  Each has a default.
-/

namespace RelaySql.Settings

/-- The settings. -/
structure Config where
  logLevel : String := "info"
  verbose : Bool := false
  database : Database := {}
deriving DecidableEq, Repr, Inhabited

/-- The settings shown in diagnostics. -/
def Config.debug (c : Config) : String :=
  "JoineryConfig \x7b log_level: " ++ Text.quoted c.logLevel ++
    ", verbose: " ++ toString c.verbose ++ ", database: " ++ c.database.debug ++ " \x7d"

/-- A text. -/
def text? : Json → Option String
  | .string s => some s
  | _ => none

/-- A truth value. -/
def truth? : Json → Option Bool
  | .boolean b => some b
  | _ => none

namespace Database

/-- The names of the parts of an address in a document. -/
def partNames : List String := ["user", "password", "host", "port", "database"]

/-- The address of five texts, in the order of their names. -/
def ofParts? (parts : List Json) : Option Database :=
  match parts with
  | [user, password, host, port, database] => do
    return ⟨← text? user, ← text? password, ← text? host, ← text? port, ← text? database⟩
  | _ => none

/-- Reads an address from a document: an object with the kind of database as its only member, and
below it the parts by name or in order. -/
def ofJson? : Json → Option Database
  | .object [(kind, .object parts)] =>
    if kind = databaseScheme then
      (partNames.mapM (Fields.get? parts)).bind ofParts?
    else none
  | .object [(kind, .array parts)] => if kind = databaseScheme then ofParts? parts else none
  | _ => none

end Database

namespace Config

/-- The settings of their parts, of which all but the first may be missing. -/
def ofParts? (logLevel verbose database : Option Json) : Option Config := do
  let logLevel ← logLevel.bind text?
  let verbose ← match verbose with
    | none => some ({} : Config).verbose
    | some v => truth? v
  let database ← match database with
    | none => some {}
    | some v => Database.ofJson? v
  return ⟨logLevel, verbose, database⟩

/-- Reads settings from a document: an object, of which other members are passed over, or the list
of the parts in order. -/
def ofJson? : Json → Option Config
  | .object members =>
    ofParts? (Fields.get? members "log_level") (Fields.get? members "verbose")
      (Fields.get? members "database")
  | .array parts => if parts.length ≤ 3 then ofParts? parts[0]? parts[1]? parts[2]? else none
  | _ => none

end Config

end RelaySql.Settings
