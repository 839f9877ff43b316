import RelaySql.Arguments

/-!
# Graph — selections

A request selects fields, and on the value of a field further fields.  A fragment groups fields
that are selected only on one type of object.  Here every spread is replaced by its fragment and
every variable by its value; `Graph.Document` says how.
-/

namespace RelaySql

/-- A part of a selection. -/
inductive Selection where
  /-- A field, under the key its value has in the response. -/
  | field (key name : String) (arguments : List (String × Input)) (selections : List Selection)
  | fragment (on : Option String) (selections : List Selection)
deriving Inhabited

/-- A selected field. -/
structure SelectedField where
  key : String
  name : String
  arguments : Arguments
  selections : List Selection
deriving Inhabited

mutual

/-- The fields of a part of a selection, on whatever type of object. -/
def Selection.fields : Selection → List SelectedField
  | .field key name arguments selections => [⟨key, name, arguments, selections⟩]
  | .fragment _ selections => fieldsOf selections

/-- The fields of a selection, on whatever type of object. -/
def fieldsOf : List Selection → List SelectedField
  | [] => []
  | s :: r => s.fields ++ fieldsOf r

end

/-- The fields selected on the value of a field. -/
def SelectedField.children (f : SelectedField) : List SelectedField := fieldsOf f.selections

end RelaySql
