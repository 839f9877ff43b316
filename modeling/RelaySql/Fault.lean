import RelaySql.Input
import RelaySql.Json.Printer
import RelaySql.Sql.Internal
import RelaySql.Sql.Order

/-!
# Fault — why a field could not be resolved

Each kind of fault lists its causes, and one function per kind words them.  A condition that a
resolver is given may state a fault of its own, so every kind that it may choose has a cause
`stated`.

* `Fault.message` is the text a response shows.
-/

namespace RelaySql

/-- Why the database layer could not answer. -/
inductive DriverFault where
  | rowNotFound
  | poolTimedOut
  | poolClosed
  | columnNotFound (column : String)
  | protocol (text : String)
  /-- A connection URL asks for something that cannot be configured.  The driver's own words for it
  are left out. -/
  | configuration
deriving DecidableEq, Repr

namespace DriverFault

/-- A cause with a text, on three lines. -/
def withText (cause text : String) : String :=
  cause ++ "(\n    " ++ Text.quoted text ++ ",\n)"

def message : DriverFault → String
  | rowNotFound => "RowNotFound"
  | poolTimedOut => "PoolTimedOut"
  | poolClosed => "PoolClosed"
  | columnNotFound column => withText "ColumnNotFound" column
  | protocol text => withText "Protocol" text
  | configuration => "Configuration"

end DriverFault

/-- Why a data source failed. -/
inductive SourceFault where
  | invalidConnectionString (url : String)
  | backendNotSupported (scheme : String)
  | driver (cause : DriverFault)
  | rowDecode (text : String)
deriving DecidableEq, Repr

namespace SourceFault

def message : SourceFault → String
  | invalidConnectionString url => "Invalid connection string: " ++ Text.quoted url
  | backendNotSupported scheme => "Database backend not supported: " ++ Text.quoted scheme
  | driver cause => "Error from sqlx: " ++ cause.message
  | rowDecode text => "Row could not be decoded into a column map: " ++ text

end SourceFault

/-- Why a resolver is not acceptable. -/
inductive ResolverFault where
  | noTable
  | unorderedPages (table : String)
  | blankOrderColumn (table : String) (column : OrderColumn)
  | noSource (table : String)
  | stated (text : String)

namespace ResolverFault

def message : ResolverFault → String
  | noTable => "table is required"
  | unorderedPages table =>
    "paginated field on " ++ Text.quoted table ++ " must be ordered by at least one column"
  | blankOrderColumn table column =>
    "empty order column on " ++ Text.quoted table ++ ": " ++ column.debug
  | noSource table => "field on " ++ Text.quoted table ++ " has no executor"
  | stated text => text

end ResolverFault

/-- Why an argument's value is not of the kind asked for. -/
inductive ArgumentFault where
  | notInteger (name : String) (value : Input)
  | notString (name : String) (value : Input)
  | notBoolean (name : String) (value : Input)
  | notLiteral (value : Json)
  | stated (text : String)

/-- Why no statement could be composed, or its rows not be shared out. -/
inductive CompositionFault where
  | noJoin (table : String)
  | blankJoin (parent child : String)
  | blankFilter (table : String)
  | noKeyColumn (table column : String)
  | unusableKey (value : Json)
  | noResolution (key table : String)
  | noParentKey (table : String)
  | unknownParent (key table : String)
  | stated (text : String)

/-- Why a page cannot be asked for. -/
inductive PageFault where
  | negative (argument : String) (value : Int)
  | stated (text : String)

/-- Why a schema cannot be built. -/
inductive SchemaFault where
  | typeNotFound (name : String)
  | noFields (name : String)
  | stated (text : String)

namespace SchemaFault

def message : SchemaFault → String
  | typeNotFound name => "Type \"" ++ name ++ "\" not found"
  | noFields name => "Object \"" ++ name ++ "\" must define one or more fields"
  | stated text => text

end SchemaFault

/-- Why a field could not be resolved. -/
inductive Fault where
  | resolver (cause : ResolverFault)
  | argument (cause : ArgumentFault)
  | composition (cause : CompositionFault)
  | malformedCursor (text : String)
  | page (cause : PageFault)
  | source (cause : SourceFault)
  | schema (cause : SchemaFault)

namespace ArgumentFault

/-- An argument shown with the kind it should have and the value it has. -/
def kindMessage (name kind : String) (value : Input) : String :=
  "Argument " ++ Text.quoted name ++ " is not " ++ kind ++ ": " ++ value.text

def message : ArgumentFault → String
  | notInteger name value => kindMessage name "an integer" value
  | notString name value => kindMessage name "a string" value
  | notBoolean name value => kindMessage name "a boolean" value
  | notLiteral value => "Cannot use " ++ value.text ++ " as a SQL literal"
  | stated text => text

end ArgumentFault

namespace CompositionFault

def message : CompositionFault → String
  | noJoin table => "nested field on " ++ Text.quoted table ++ " has no join clause"
  | blankJoin parent child =>
    "empty join condition between " ++ Text.quoted parent ++ " and " ++ Text.quoted child
  | blankFilter table => "empty where condition on " ++ Text.quoted table
  | noKeyColumn table column =>
    "parent row of " ++ Text.quoted table ++ " has no " ++ Text.quoted column ++ " column"
  | unusableKey value => "unsupported join key value: " ++ value.text
  | noResolution key table =>
    "no resolution for parent " ++ Text.quoted key ++ " of " ++ Text.quoted table
  | noParentKey table =>
    "row of " ++ Text.quoted table ++ " is missing its " ++ parentKeyColumn ++ " column"
  | unknownParent key table =>
    "row of " ++ Text.quoted table ++ " belongs to unknown parent " ++ Text.quoted key
  | stated text => text

end CompositionFault

namespace PageFault

def message : PageFault → String
  | negative argument value =>
    Text.quoted argument ++ " must be non-negative, got " ++ toString value
  | stated text => text

end PageFault

namespace Fault

/-- The text a response shows for a fault. -/
def message : Fault → String
  | resolver cause => "Invalid resolver configuration: " ++ cause.message
  | argument cause => "Argument coercion failed: " ++ cause.message
  | composition cause => "Could not compose query: " ++ cause.message
  | malformedCursor text => "Malformed cursor: " ++ Text.quoted text
  | page cause => "Invalid pagination argument: " ++ cause.message
  | source cause => "Data source error: " ++ cause.message
  | schema cause =>
    "Error building dynamic schema: SchemaError(" ++ Text.quoted cause.message ++ ")"

end Fault

end RelaySql
