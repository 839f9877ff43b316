import RelaySql.Graph.Loading
import RelaySql.Graph.Pages

/-!
# Graph — executing a request

The fields of a selection are resolved one after another, each with all that is selected below it.
A field with a resolver that fails is null if its type allows null, and its fault is reported;
otherwise the whole request fails.  The same holds of a nested field whose load failed.  A value is
then completed for the type of its field, which fails the whole request if the value does not fit.
-/

namespace RelaySql

/-- A step on the way to a value in the response. -/
inductive PathStep where
  | key (name : String)
  | index (n : Nat)
deriving DecidableEq, Repr

/-- The way to a value in the response, from its root. -/
abbrev Path := List PathStep

/-- A fault as it is reported, with the place where it happened. -/
structure Report where
  message : String
  path : Path
deriving DecidableEq, Repr

/-- What an execution has done so far. -/
structure Progress where
  trace : Trace := []
  /-- The faults of fields that are null for it. -/
  reports : List Report := []

/-- An execution: its failure ends the request. -/
abbrev Execution (α : Type) := ExceptT Report (StateM Progress) α

namespace Json

/-- Null is no value of a field. -/
def fieldValue? (v : Json) : Option Json := v.nonNull?

mutual

/-- Merges a second value under the same response key: objects member by member, arrays index by
index, and otherwise the first value stands. -/
def merge (first : Json) : Json → Json
  | object members =>
    match first with
    | object target => object (mergeMembers target members)
    | _ => first
  | array items =>
    match first with
    | array target => array (mergeItems target items)
    | _ => first
  | _ => first

/-- Merges members one after another into those of an object. -/
def mergeMembers (target : Fields Json) : List (String × Json) → Fields Json
  | [] => target
  | (name, v) :: rest =>
    let merged := match target.get? name with
      | none => v
      | some first => merge first v
    mergeMembers (target.insert name merged) rest

/-- Merges the items that are objects in both arrays. -/
def mergeItems (target : List Json) : List Json → List Json
  | [] => target
  | item :: rest =>
    match target with
    | [] => []
    | first :: others => mergeItem first item :: mergeItems others rest

def mergeItem (first : Json) : Json → Json
  | object members =>
    match first with
    | object target => object (mergeMembers target members)
    | _ => first
  | _ => first

end

end Json

namespace Execution

variable {C : Type}

/-- Runs the resolution of a field; its fault is returned as a value. -/
def run (r : Run α) : Execution (Except Fault α) := do
  let progress ← get
  let (result, trace) := (ExceptT.run r).run progress.trace
  set { progress with trace }
  return result

/-- The value of a field with a resolver.  Without the context of the request it cannot be
resolved. -/
def rootValue (context : Option C) (r : FieldResolver C) (f : SelectedField) :
    Execution (Except String Json) := do
  match context with
  | none => return .error "Data `Context` does not exist."
  | some context =>
    match ← run (r.load context f) with
    | .ok resolution => return .ok resolution.toJson
    | .error fault => return .error fault.message

/-- The value that was loaded for a response key together with its parent row. -/
def loadedValue (parent : Json) (key : String) : Except String Json :=
  match parent.member? (loadedColumn key) with
  | none => .error (Text.quoted key ++ " was not loaded with its parent row")
  | some v =>
    match v.member? faultMember with
    | none => .ok v
    | some (.string message) => .error message
    | some _ => .error (Text.quoted key ++ " failed to load")

/-- The value of a field that fails alone, if its type allows null. -/
def isolate (type : TypeRef) (path : Path) : Except String Json → Execution (Option Json)
  | .ok v => return v.fieldValue?
  | .error message => do
    if type.nullable then
      modify fun p => { p with reports := p.reports ++ [⟨message, path⟩] }
      return none
    else throw ⟨message, []⟩

/-- The value of a field on its parent, before it is completed. -/
def fieldValue (context : Option C) (d : FieldDef C) (parent : Json) (path : Path)
    (f : SelectedField) : Execution (Option Json) :=
  match d.kind with
  | .root resolver => do isolate d.type path (← rootValue context resolver f)
  | .nested => isolate d.type path (loadedValue parent f.key)
  | .column => return (parent.member? d.name).bind Json.fieldValue?

/-- Completes the items of a list one after another. -/
def completeItems (item : Json → Path → Execution Json) (path : Path) :
    (start : Nat) → List Json → Execution (List Json)
  | _, [] => return []
  | n, v :: r => do
    let v ← item v (path ++ [.index n])
    return v :: (← completeItems item path (n + 1) r)

/-- Completes a value for a type; `object` resolves the selection on a value of an object type. -/
def complete (s : Schema C) (object : ObjectType C → Json → Path → Execution Json) :
    TypeRef → Option Json → Path → Execution Json
  | .nonNull _, none, path => throw ⟨"internal: non-null types require a return value", path⟩
  | .nonNull type, some v, path => complete s object type (some v) path
  | .list _, none, _ => return .null
  | .list type, some (.array items), path => do
    return .array (← completeItems (fun v path => complete s object type (some v) path) path 0 items)
  | .list _, some _, path => throw ⟨"internal: expects an array", path⟩
  | .named _, none, _ => return .null
  | .named name, some v, path =>
    match s.object? name, v with
    | some type, v => object type v path
    | none, .array _ =>
      throw ⟨"internal: invalid value for scalar \"" ++ name ++
        "\", expected \"FieldValue::Value\"", path⟩
    | none, v => return v

mutual

/-- Resolves a part of a selection on an object: the values by response key, in order. -/
def part (s : Schema C) (context : Option C) (type : ObjectType C) (parent : Json) (path : Path) :
    Selection → Execution (List (String × Json))
  | .fragment on selections =>
    if on.all (· = type.name) then parts s context type parent path selections else return []
  | .field key name arguments selections => do
    if name = "__typename" then return [(key, .string type.name)]
    else match type.field? name with
      | none => return []
      | some d =>
        let path := path ++ [.key key]
        let value ← fieldValue context d parent path ⟨key, name, arguments, selections⟩
        let object (type : ObjectType C) (v : Json) (path : Path) : Execution Json := do
          return .object (Json.mergeMembers [] (← parts s context type v path selections))
        return [(key, ← complete s object d.type value path)]

/-- Resolves a selection on an object, part by part. -/
def parts (s : Schema C) (context : Option C) (type : ObjectType C) (parent : Json) (path : Path) :
    List Selection → Execution (List (String × Json))
  | [] => return []
  | selection :: rest => do
    let values ← part s context type parent path selection
    return values ++ (← parts s context type parent path rest)

end

end Execution

/-- The answer to a request. -/
structure Response where
  data : Json
  reports : List Report
  trace : Trace

/-- Executes a selection on the root type.  When it fails there is no data, and the failure is
reported before the faults of single fields. -/
def Schema.execute {C : Type} (s : Schema C) (context : Option C) (selections : List Selection) :
    Response :=
  let root : ObjectType C := (s.object? rootType).getD ⟨rootType, []⟩
  let (result, progress) := (ExceptT.run (Execution.parts s context root .null [] selections)).run {}
  match result with
  | .ok values => ⟨.object (Json.mergeMembers [] values), progress.reports, progress.trace⟩
  | .error report => ⟨.null, report :: progress.reports, progress.trace⟩

end RelaySql
