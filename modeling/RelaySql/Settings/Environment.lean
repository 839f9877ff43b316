import RelaySql.Fields

/-!
# Settings — environment variables

A settings value may refer to an environment variable instead of stating a text: by a dollar sign
and the name, or unambiguously with the name between braces.
-/

namespace RelaySql.Settings

/-- The environment variables that are set. -/
abbrev Environment := Fields String

/-- The value refers to an environment variable. -/
def isReference (s : String) : Bool := s.toList.head? = some '$'

/-- The name between `opening` and `closing`, if the value has both. -/
def between? (opening : List Char) (closing : Char) (cs : List Char) : Option (List Char) :=
  if opening.isPrefixOf cs then
    let inner := cs.drop opening.length
    if inner.getLast? = some closing then some inner.dropLast else none
  else none

/-- The name that a value refers to: what braces behind the dollar sign enclose, or else what
follows the dollar sign, or else the value itself. -/
def referredName (s : String) : String :=
  match between? ['$', '\x7b'] '\x7d' s.toList with
  | some name => String.ofList name
  | none => if isReference s then String.ofList s.toList.tail else s

/-- The variables that hold the parts of a database address. -/
inductive Variable where
  | host
  | password
  | database
  | port
  | user
deriving DecidableEq, Repr

namespace Variable

/-- All variables. -/
def all : List Variable := [host, password, database, port, user]

/-- The name of a variable. -/
def name : Variable → String
  | host => "POSTGRES_HOST"
  | password => "POSTGRES_PASSWORD"
  | database => "POSTGRES_DATABASE"
  | port => "POSTGRES_PORT"
  | user => "POSTGRES_USER"

/-- The variable shown in diagnostics. -/
def debug : Variable → String
  | host => "PostgresHost"
  | password => "PostgresPassword"
  | database => "PostgresDatabase"
  | port => "PostgresPort"
  | user => "PostgresUser"

/-- The variable of exactly this name. -/
def ofName? (s : String) : Option Variable := all.find? (·.name = s)

/-- The value of a variable, or the default if it is not set. -/
def valueOr (v : Variable) (env : Environment) (default : String) : String :=
  (env.get? v.name).getD default

end Variable

end RelaySql.Settings
