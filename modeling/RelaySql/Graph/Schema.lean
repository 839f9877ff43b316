import RelaySql.Graph.Lookahead
import RelaySql.Graph.TypeRef

/-!
# Graph — schemas

A schema is a list of object types with their fields, beside the scalar types that every schema
has.  A field is resolved in one of three ways: by a resolver of its own, from what was loaded
together with its parent row, or from the column of its name.

A schema is checked before it is used: its root type exists, then every type that a field or an
argument refers to, and then every object type has fields.
-/

namespace RelaySql

/-- How the value of a field is found. -/
inductive FieldKind (C : Type) where
  /-- By a resolver, with what is loaded below its rows. -/
  | root (resolver : FieldResolver C)
  /-- From the parent row, where it was loaded under the field's response key. -/
  | nested
  /-- From the column of the parent row that has the field's name. -/
  | column

/-- An argument that a field declares. -/
structure ArgumentDef where
  type : TypeRef
  description : Option String := none
deriving DecidableEq, Repr

/-- A field of an object type. -/
structure FieldDef (C : Type) where
  name : String
  type : TypeRef
  kind : FieldKind C
  arguments : Fields ArgumentDef := []

/-- An object type. -/
structure ObjectType (C : Type) where
  name : String
  fields : List (FieldDef C)

/-- The object types of a schema by name. -/
structure Schema (C : Type) where
  objects : Fields (ObjectType C) := []

variable {C : Type}

/-- The type that a request selects on first. -/
def rootType : String := "Query"

/-- The scalar types. -/
def scalarTypes : List String := ["Int", "Float", "String", "Boolean", "ID"]

namespace FieldDef

/-- Declares an argument; one declared before under the same name is replaced in its place. -/
def argument (f : FieldDef C) (name : String) (a : ArgumentDef) : FieldDef C :=
  { f with arguments := f.arguments.insert name a }

/-- The types a field refers to: its own, then those of its arguments. -/
def references (f : FieldDef C) : List String :=
  f.type.base :: f.arguments.values.map (·.type.base)

end FieldDef

namespace ObjectType

/-- The field of a name. -/
def field? (t : ObjectType C) (name : String) : Option (FieldDef C) :=
  t.fields.find? (·.name = name)

end ObjectType

namespace Schema

/-- Registers an object type; one of the same name is replaced. -/
def register (s : Schema C) (t : ObjectType C) : Schema C := ⟨s.objects.insert t.name t⟩

/-- The object type of a name. -/
def object? (s : Schema C) (name : String) : Option (ObjectType C) := s.objects.get? name

/-- The schema has a type of this name. -/
def knows (s : Schema C) (name : String) : Bool :=
  name ∈ scalarTypes || (s.object? name).isSome

/-- The types that the schema refers to, the root type first. -/
def references (s : Schema C) : List String :=
  rootType :: s.objects.values.flatMap fun t => t.fields.flatMap FieldDef.references

/-- The fault that makes a schema unusable, if there is one. -/
def fault? (s : Schema C) : Option SchemaFault :=
  match s.references.find? (!s.knows ·) with
  | some name => some (.typeNotFound name)
  | none =>
    (s.objects.values.find? fun t => t.fields.isEmpty).map fun t => .noFields t.name

/-- The schema, if it can be used. -/
def check (s : Schema C) : Except Fault (Schema C) :=
  match s.fault? with
  | some fault => .error (.schema fault)
  | none => .ok s

/-- Adds the object types that the fields of the given ones refer to. -/
def follow (s : Schema C) (names : List String) : List String :=
  let next := names.flatMap fun name =>
    match s.object? name with
    | none => []
    | some t => t.fields.map (·.type.base)
  (names ++ next.filter fun name => (s.object? name).isSome).eraseDups

/-- The object types that can be selected on, from the root type. -/
def reachable (s : Schema C) : List (ObjectType C) :=
  let names := s.objects.foldl (fun names _ => s.follow names) [rootType]
  s.objects.values.filter (·.name ∈ names)

end Schema

end RelaySql
