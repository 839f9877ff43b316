import RelaySql.Proofs.Graph.Executed
import RelaySql.Proofs.Graph.Scopes
import RelaySql.Proofs.Graph.Spared

/-!
# Execution — the fields of an answer

The response to a request merges what was answered under the same response key.  Before that, an
answer is a tree: every execution of a field has its place in it, with the value it was completed to
and with what served it.

* `Execution.members_answerParts`: merging the answer to a selection gives its values.
* `Schema.execute_data`: the data of a response is its answer, merged.
* `Answer.json`, `Answer.faults`, `Answer.statements`: the data, the faults and the statements that
  an answer comes to when some sources fail.
-/

namespace RelaySql

/-- What serves a field: the resolver that it has itself, or the one that it was loaded by together
with its parent row. -/
inductive Server (C : Type) where
  | field (resolver : FieldResolver C) (f : SelectedField)
  | loaded (resolver : Resolver C)

mutual

/-- What a request is answered with, before the values of one response key are merged. -/
inductive Answer (C : Type) where
  | value (v : Json)
  | list (items : List (Answer C))
  | object (fields : List (AnsweredField C))

/-- What a field is answered with, under its response key, and what serves it. -/
inductive AnsweredField (C : Type) where
  | mk (key : String) (server : Option (Server C)) (answer : Answer C)

end

variable {C : Type}

/-- No source fails. -/
def Failures.none : Failures C := fun _ => Option.none

namespace Server

/-- The resolver that a field is served by. -/
def resolver : Server C → Resolver C
  | field r _ => r.resolver
  | loaded resolver => resolver

/-- The source that a field is served from is one of those that fail. -/
def fails (failures : Failures C) : Option (Server C) → Bool
  | none => false
  | some server => (failures server.resolver).isSome

/-- The statements that the execution of a field issues in the context of a request, when some
sources fail.  What was loaded together with the parent row is issued with that. -/
def statements (failures : Failures C) (context : Option C) :
    Option (Server C) → List (String × Statement)
  | some (field r f) =>
    match context with
    | none => []
    | some context => r.sparedStatements context f failures
  | some (loaded _) => []
  | none => []

end Server

/-- The resolver of a nested field. -/
def NestedField.resolver : NestedField C → Resolver C
  | mk _ _ resolver _ => resolver

/-- What serves a field that is selected in a scope. -/
def Scope.server? (scope : Scope C) (d : FieldDef C) (f : SelectedField) : Option (Server C) :=
  match d.kind with
  | .root r => some (.field r f)
  | .nested => (scope.loaded? f).map fun n => .loaded n.resolver
  | .column => none

namespace Scope

theorem server?_of_root (scope : Scope C) {d : FieldDef C} {r : FieldResolver C}
    (h : d.kind = .root r) (f : SelectedField) : scope.server? d f = some (.field r f) := by
  rw [server?, h]

theorem server?_of_nested (scope : Scope C) {d : FieldDef C} (h : d.kind = .nested)
    (f : SelectedField) :
    scope.server? d f = (scope.loaded? f).map fun n => .loaded n.resolver := by
  rw [server?, h]

theorem server?_of_column (scope : Scope C) {d : FieldDef C} (h : d.kind = .column)
    (f : SelectedField) : scope.server? d f = none := by
  rw [server?, h]

end Scope

/-! ### What an answer comes to -/

section Coming

variable (failures : Failures C)

mutual

/-- The data of an answer, where a field is null if the source it is served from fails. -/
def Answer.json : Answer C → Json
  | .value v => v
  | .list items => .array (Answer.jsonItems items)
  | .object fields => .object (Json.mergeMembers [] (AnsweredField.members fields))

def Answer.jsonItems : List (Answer C) → List Json
  | [] => []
  | item :: rest => item.json :: Answer.jsonItems rest

/-- The data of the fields of an object, by response key, in order. -/
def AnsweredField.members : List (AnsweredField C) → List (String × Json)
  | [] => []
  | .mk key server answer :: rest =>
    (key, if Server.fails failures server then .null else answer.json) ::
      AnsweredField.members rest

end

mutual

/-- The places of the fields that are null because the source they are served from fails, and the
resolvers they are served by, in order.  There are none below such a field. -/
def Answer.faults : (path : Path) → Answer C → List (Path × Resolver C)
  | _, .value _ => []
  | path, .list items => Answer.faultsFrom path 0 items
  | path, .object fields => AnsweredField.faults path fields

def Answer.faultsFrom (path : Path) : (start : Nat) → List (Answer C) → List (Path × Resolver C)
  | _, [] => []
  | n, item :: rest => item.faults (path ++ [.index n]) ++ Answer.faultsFrom path (n + 1) rest

def AnsweredField.faults (path : Path) : List (AnsweredField C) → List (Path × Resolver C)
  | [] => []
  | .mk key server answer :: rest =>
    (if Server.fails failures server then
        server.toList.map fun server => (path ++ [.key key], server.resolver)
      else answer.faults (path ++ [.key key])) ++
      AnsweredField.faults path rest

end

variable (context : Option C)

mutual

/-- The statements of an answer, in order.  Nothing is issued below a field whose source fails. -/
def Answer.statements : Answer C → List (String × Statement)
  | .value _ => []
  | .list items => Answer.statementsOf items
  | .object fields => AnsweredField.statements fields

def Answer.statementsOf : List (Answer C) → List (String × Statement)
  | [] => []
  | item :: rest => item.statements ++ Answer.statementsOf rest

def AnsweredField.statements : List (AnsweredField C) → List (String × Statement)
  | [] => []
  | .mk _ server answer :: rest =>
    (Server.statements failures context server ++
      if Server.fails failures server then [] else answer.statements) ++
      AnsweredField.statements rest

end

end Coming

/-! ### Answering a request -/

namespace Execution

/-- Goes through the items of a list one after another. -/
def eachItem {α : Type} (item : Json → Path → Execution α) (path : Path) :
    (start : Nat) → List Json → Execution (List α)
  | _, [] => return []
  | n, v :: rest => do
    let a ← item v (path ++ [.index n])
    return a :: (← eachItem item path (n + 1) rest)

/-- Completes a value for a type; `object` answers the selection on a value of an object type. -/
def answerValue (s : Schema C) (object : ObjectType C → Json → Path → Execution (Answer C)) :
    TypeRef → Option Json → Path → Execution (Answer C)
  | .nonNull _, none, path => throw ⟨"internal: non-null types require a return value", path⟩
  | .nonNull type, some v, path => answerValue s object type (some v) path
  | .list _, none, _ => return .value .null
  | .list type, some (.array items), path => do
    return .list (← eachItem (fun v path => answerValue s object type (some v) path) path 0 items)
  | .list _, some _, path => throw ⟨"internal: expects an array", path⟩
  | .named _, none, _ => return .value .null
  | .named name, some v, path =>
    match s.object? name, v with
    | some type, v => object type v path
    | none, .array _ =>
      throw ⟨"internal: invalid value for scalar \"" ++ name ++
        "\", expected \"FieldValue::Value\"", path⟩
    | none, v => return .value v

mutual

/-- Answers a part of a selection on an object in its scope. -/
def answerPart (s : Schema C) (context : Option C) (scope : Scope C) (type : ObjectType C)
    (parent : Json) (path : Path) : Selection → Execution (List (AnsweredField C))
  | .fragment on selections =>
    if on.all (· = type.name) then answerParts s context scope type parent path selections
    else return []
  | .field key name arguments selections => do
    if name = "__typename" then return [.mk key none (.value (.string type.name))]
    else match type.field? name with
      | none => return []
      | some d =>
        let f : SelectedField := ⟨key, name, arguments, selections⟩
        let path := path ++ [.key key]
        let value ← fieldValue context d parent path f
        let object (type : ObjectType C) (v : Json) (path : Path) : Execution (Answer C) := do
          return .object (← answerParts s context (scope.below d f) type v path selections)
        return [.mk key (scope.server? d f) (← answerValue s object d.type value path)]

/-- Answers a selection on an object in its scope, part by part. -/
def answerParts (s : Schema C) (context : Option C) (scope : Scope C) (type : ObjectType C)
    (parent : Json) (path : Path) : List Selection → Execution (List (AnsweredField C))
  | [] => return []
  | selection :: rest => do
    let fields ← answerPart s context scope type parent path selection
    return fields ++ (← answerParts s context scope type parent path rest)

end

end Execution

/-- What a request is answered with, unless it fails. -/
def Schema.answer (s : Schema C) (context : Option C) (request : List Selection) :
    Option (Answer C) :=
  ((Execution.answerParts s context .other s.root .null [] request).after {}).1.toOption.map
    Answer.object

/-! ### Merging an answer -/

namespace AnsweredField

theorem members_append (failures : Failures C) (fields rest : List (AnsweredField C)) :
    members failures (fields ++ rest) = members failures fields ++ members failures rest := by
  induction fields with
  | nil => rfl
  | cons field fields ih =>
      obtain ⟨key, server, answer⟩ := field
      simp only [List.cons_append, members, ih]

theorem faults_append (failures : Failures C) (path : Path) (fields rest : List (AnsweredField C)) :
    faults failures path (fields ++ rest) =
      faults failures path fields ++ faults failures path rest := by
  induction fields with
  | nil => rfl
  | cons field fields ih =>
      obtain ⟨key, server, answer⟩ := field
      simp only [List.cons_append, faults, ih, List.append_assoc]

theorem statements_append (failures : Failures C) (context : Option C)
    (fields rest : List (AnsweredField C)) :
    statements failures context (fields ++ rest) =
      statements failures context fields ++ statements failures context rest := by
  induction fields with
  | nil => rfl
  | cons field fields ih =>
      obtain ⟨key, server, answer⟩ := field
      simp only [List.cons_append, statements, ih, List.append_assoc]

end AnsweredField

theorem Server.fails_none (server : Option (Server C)) : Server.fails .none server = false := by
  cases server <;> rfl

namespace Execution

theorem jsonItems_eachItem {item : Json → Path → Execution (Answer C)}
    {item' : Json → Path → Execution Json}
    (h : ∀ v path, Answer.json .none <$> item v path = item' v path) (path : Path) (start : Nat)
    (items : List Json) :
    Answer.jsonItems .none <$> eachItem item path start items =
      completeItems item' path start items := by
  induction items generalizing start with
  | nil => rfl
  | cons v rest ih =>
      simp only [eachItem, completeItems, ← h, ← ih, map_bind, bind_map_left, map_pure,
        Answer.jsonItems]

theorem json_answerValue (s : Schema C)
    {object : ObjectType C → Json → Path → Execution (Answer C)}
    {object' : ObjectType C → Json → Path → Execution Json}
    (h : ∀ type v path, Answer.json .none <$> object type v path = object' type v path)
    (type : TypeRef) (v : Option Json) (path : Path) :
    Answer.json .none <$> answerValue s object type v path = complete s object' type v path := by
  induction type generalizing v path with
  | nonNull type ih =>
      cases v with
      | none => rfl
      | some v => exact ih (some v) path
  | list item ih =>
      cases v with
      | none => rfl
      | some v =>
          cases v with
          | array items =>
              simp only [answerValue, complete, map_bind, map_pure, Answer.json,
                ← jsonItems_eachItem (fun v path => ih (some v) path), bind_map_left]
          | null | boolean | number | string | object => rfl
  | named name =>
      cases v with
      | none => rfl
      | some v =>
          simp only [answerValue, complete]
          cases s.object? name with
          | some type => exact h type v path
          | none => cases v <;> rfl

/-- **Merging the answer** to a selection gives its values. -/
theorem members_answerParts (s : Schema C) (context : Option C) (scope : Scope C)
    (type : ObjectType C) (parent : Json) (path : Path) : ∀ selections : List Selection,
      AnsweredField.members .none <$> answerParts s context scope type parent path selections =
        parts s context type parent path selections
  | [] => rfl
  | selection :: rest => by
      have hpart : AnsweredField.members .none <$>
          answerPart s context scope type parent path selection =
            part s context type parent path selection := by
        cases selection with
        | fragment on inner =>
            simp only [answerPart, part]
            split
            · exact members_answerParts s context scope type parent path inner
            · rfl
        | field key name arguments inner =>
            simp only [answerPart, part]
            split
            · rfl
            cases type.field? name with
            | none => rfl
            | some d =>
                have hobject := fun type v path => show Answer.json .none <$> (do
                    return Answer.object (← answerParts s context
                      (scope.below d ⟨key, name, arguments, inner⟩) type v path inner)) = (do
                    return Json.object (Json.mergeMembers []
                      (← parts s context type v path inner)) : Execution Json) by
                  simp only [map_bind, map_pure, Answer.json, bind_map_left,
                    ← members_answerParts s context (scope.below d ⟨key, name, arguments, inner⟩)
                      type v path inner]
                simp only [map_bind, map_pure, AnsweredField.members, Server.fails_none,
                  Bool.false_eq_true, if_false]
                refine bind_congr fun value => ?_
                rw [← json_answerValue s hobject, bind_map_left]
      simp only [answerParts, parts, ← hpart, map_bind, map_pure, bind_map_left,
        AnsweredField.members_append,
        ← members_answerParts s context scope type parent path rest]

end Execution

/-- The fields of an answer leave the same progress as the values that they are merged to. -/
theorem Execution.after_parts (s : Schema C) (context : Option C) (scope : Scope C)
    (type : ObjectType C) (parent : Json) (path : Path) (selections : List Selection)
    (p : Progress) :
    (parts s context type parent path selections).after p =
      (((answerParts s context scope type parent path selections).after p).1.map
        (AnsweredField.members .none),
        ((answerParts s context scope type parent path selections).after p).2) := by
  rw [← members_answerParts s context scope type parent path selections, after_map]

/-- **The data of a response is its answer, merged.** -/
theorem Schema.execute_data (s : Schema C) (context : Option C) (request : List Selection) :
    (s.execute context request).data =
      ((s.answer context request).map (Answer.json .none)).getD .null := by
  rw [execute_eq, Execution.after_parts s context .other, answer]
  rcases (Execution.answerParts s context .other s.root .null [] request).after {} with ⟨_ | _, _⟩ <;>
    rfl

end RelaySql
