import RelaySql.Graph.Selection
import RelaySql.Resolver.Basic

/-!
# Graph — looking ahead at nested fields

A resolver comes with the resolvers of the fields that may be selected under its rows.  Looking
ahead at a selection tells which of them to load: one load for every response key, with the
arguments of the key's first occurrence, and below it the loads of its own rows.
-/

namespace RelaySql

/-- The resolver of a field below rows: the column of these rows that it is correlated through,
whether it serves the first row only, and the resolvers of the fields below its own rows. -/
inductive NestedField (C : Type) where
  | mk (keyColumn : String) (single : Bool) (resolver : Resolver C)
      (nested : List (String × NestedField C))

/-- A resolver with the resolvers of the fields below its rows. -/
structure FieldResolver (C : Type) where
  resolver : Resolver C
  nested : Fields (NestedField C) := []

/-- A nested field to load for a list of rows, under a response key. -/
inductive Load (C : Type) where
  | mk (key keyColumn : String) (single : Bool) (resolver : Resolver C) (arguments : Arguments)
      (below : List (Load C))

variable {C : Type}

/-- The fields that select on the rows of `fields`: themselves for a list of rows, and what they
select as `edges` and `node` for a page. -/
def rowFields (paginated : Bool) (fields : List SelectedField) : List SelectedField :=
  if paginated then
    let edges := (fields.flatMap SelectedField.children).filter (·.name = "edges")
    (edges.flatMap SelectedField.children).filter (·.name = "node")
  else fields

namespace Load

/-- What a resolver makes of the occurrences of a field under one response key. -/
abbrev Planner (C : Type) := (key : String) → (occurrences : List SelectedField) → Load C

/-- Puts an occurrence of a field under its response key, if the field has a resolver. -/
def collect (planners : Fields (Planner C)) (groups : Fields (Planner C × List SelectedField))
    (f : SelectedField) : Fields (Planner C × List SelectedField) :=
  match planners.get? f.name with
  | none => groups
  | some planner =>
    match groups.get? f.key with
    | none => groups.insert f.key (planner, [f])
    | some (first, occurrences) => groups.insert f.key (first, occurrences ++ [f])

/-- The loads that a selection on rows asks for; a response key is loaded as the field that it
first occurs with. -/
def ofFields (planners : Fields (Planner C)) (rows : List SelectedField) : List (Load C) :=
  let groups := (rows.flatMap SelectedField.children).foldl (collect planners) []
  groups.map fun (key, planner, occurrences) => planner key occurrences

end Load

namespace NestedField

mutual

/-- The load of a nested field under a response key. -/
def planner : NestedField C → Load.Planner C
  | mk keyColumn single resolver nested, key, occurrences =>
    let arguments := (occurrences.head?.map SelectedField.arguments).getD []
    .mk key keyColumn single resolver arguments
      (Load.ofFields (planners nested) (rowFields resolver.paginated occurrences))

def planners : List (String × NestedField C) → Fields (Load.Planner C)
  | [] => []
  | (name, f) :: r => (name, f.planner) :: planners r

end

end NestedField

namespace FieldResolver

/-- The nested fields to load below a field. -/
def loads (r : FieldResolver C) (f : SelectedField) : List (Load C) :=
  Load.ofFields (NestedField.planners r.nested) (rowFields r.resolver.paginated [f])

end FieldResolver

end RelaySql
