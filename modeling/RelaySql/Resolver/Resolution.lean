import RelaySql.Page.Connection

/-!
# Resolver — the value of a resolved field

A field resolves to a list of rows or, if it is served in pages, to a connection.
-/

namespace RelaySql

/-- The value of a resolved field. -/
inductive Resolution where
  | rows (list : List Row)
  | connection (page : Connection Row)
deriving DecidableEq, Repr

namespace Resolution

/-- The rows of the value, in order. -/
def nodes : Resolution → List Row
  | rows list => list
  | connection page => page.nodes

/-- Replaces the rows of the value by as many others. -/
def setNodes : Resolution → List Row → Resolution
  | rows _, nodes => rows nodes
  | connection page, nodes => connection (page.setNodes nodes)

/-- The field is served in pages. -/
def isConnection : Resolution → Bool
  | rows _ => false
  | connection _ => true

/-- A cursor as a value. -/
def cursorJson (c : Option Cursor) : Json := .ofOption (fun c => .string c.text) c

/-- What lies beyond a page, as a value. -/
def infoJson (info : PageInfo) : Json :=
  .object [("hasNextPage", .boolean info.hasNextPage),
    ("hasPreviousPage", .boolean info.hasPreviousPage),
    ("startCursor", cursorJson info.startCursor), ("endCursor", cursorJson info.endCursor)]

/-- The value as rows and responses hold it. -/
def toJson : Resolution → Json
  | rows list => .array (list.map .object)
  | connection page =>
    let edge (e : Edge Row) : Json :=
      .object [("node", .object e.node), ("cursor", .string e.cursor.text)]
    .object [("edges", .array (page.edges.map edge)), ("pageInfo", infoJson page.pageInfo)]

end Resolution

end RelaySql
