import RelaySql.Graph.Schema

/-!
# Graph — the types of pages

The rows of a type are served in pages by a connection type, whose edges have a type of their own;
one type serves what lies beyond a page.  All their fields read columns of the value a field
resolves to.  A field served in pages declares the arguments that bound a page from the front, from
the back, or both.
-/

namespace RelaySql.Graph

variable {C : Type}

/-- The type of cursors. -/
def cursorType : String := "String"

/-- The type of what lies beyond a page. -/
def pageInfoType : String := "PageInfo"

/-- The connection type of a type of rows. -/
def connectionType (node : String) : String := node ++ "Connection"

/-- The edge type of a type of rows. -/
def edgeType (node : String) : String := node ++ "Edge"

/-- A field that reads a column. -/
def columnField (name : String) (type : TypeRef) : FieldDef C := { name, type, kind := .column }

/-- The connection type of a type of rows, registered. -/
def connectionObject (node : String) : ObjectType C :=
  ⟨connectionType node, [
    columnField "edges" (.nonNull (.list (.nonNull (.named (edgeType node))))),
    columnField "pageInfo" (.nonNull (.named pageInfoType))]⟩

/-- The edge type of a type of rows, registered. -/
def edgeObject (node : String) : ObjectType C :=
  ⟨edgeType node, [
    columnField "node" (.nonNull (.named node)),
    columnField "cursor" (.nonNull (.named cursorType))]⟩

/-- The type of what lies beyond a page, registered. -/
def pageInfoObject : ObjectType C :=
  ⟨pageInfoType, [
    columnField "hasNextPage" (.nonNull (.named "Boolean")),
    columnField "hasPreviousPage" (.nonNull (.named "Boolean")),
    columnField "startCursor" (.named cursorType),
    columnField "endCursor" (.named cursorType)]⟩

/-- Registers the types that serve rows of a type in pages. -/
def registerConnection (s : Schema C) (node : String) : Schema C :=
  (s.register (connectionObject node)).register (edgeObject node)

/-- Registers the type of what lies beyond a page. -/
def registerPageInfo (s : Schema C) : Schema C := s.register pageInfoObject

/-- The argument for the size of a page from one of its ends. -/
def sizeArgument (edge : String) : ArgumentDef :=
  ⟨.named "Int", some ("Maximum number of edges taken from the " ++ edge ++ ".")⟩

/-- The argument for the cursor that a page lies on one side of. -/
def cursorArgument (side : String) : ArgumentDef :=
  ⟨.named cursorType, some ("Only rows " ++ side ++ " this cursor.")⟩

/-- Declares the arguments that bound a page from the front. -/
def forwardArguments (f : FieldDef C) : FieldDef C :=
  (f.argument "first" (sizeArgument "start")).argument "after" (cursorArgument "following")

/-- Declares the arguments that bound a page from the back. -/
def backwardArguments (f : FieldDef C) : FieldDef C :=
  (f.argument "last" (sizeArgument "end")).argument "before" (cursorArgument "preceding")

/-- Declares all arguments that bound a page. -/
def pageArguments (f : FieldDef C) : FieldDef C := backwardArguments (forwardArguments f)

end RelaySql.Graph
