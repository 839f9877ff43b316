import RelaySql.Resolver.Basic

/-!
# Resolver — conditions from patterns

A condition is given by patterns.  A pattern may depend on an argument and contributes nothing
when that argument has no value.  Names between braces stand for the tables, for a number of the
request's context, and for the argument's value; they are replaced in one pass from left to right,
so replaced text is not looked at again.
-/

namespace RelaySql

/-- The context of a request. -/
structure Tenancy where
  tenant : Int
deriving DecidableEq, Repr, Inhabited

/-- One contribution to a condition. -/
inductive Pattern where
  | fail (fault : Fault)
  | int (argument text : String)
  | string (argument text : String)
  | boolean (argument text : String)
  | text (text : String)

namespace Pattern

/-- The value of the name that `cs` begins with, a brace after it, and the length of both. -/
def name? (values : Fields String) (cs : List Char) : Option (List Char × Nat) :=
  values.findSome? fun (name, value) =>
    if (name.toList ++ ['\x7d']).isPrefixOf cs then some (value.toList, name.length + 1) else none

/-- Replaces the names between braces, after passing over `skip` characters. -/
def fillAfter (values : Fields String) : (skip : Nat) → List Char → List Char
  | _, [] => []
  | k + 1, _ :: r => fillAfter values k r
  | 0, c :: r =>
    match if c = '\x7b' then name? values r else none with
    | some (value, skip) => value ++ fillAfter values skip r
    | none => c :: fillAfter values 0 r

/-- Replaces the names between braces. -/
def fill (values : Fields String) (text : String) : String :=
  String.ofList (fillAfter values 0 text.toList)

/-- What a pattern contributes. -/
def contribution (values : Fields String) (args : Arguments) :
    Pattern → Except Fault (Option String)
  | fail fault => .error fault
  | int argument t =>
    return (← args.int? argument).map fun n => fill (values.insert "value" (toString n)) t
  | string argument t =>
    return (← args.string? argument).map fun s => fill (values.insert "value" (Sql.quote s)) t
  | boolean argument t =>
    return (← args.boolean? argument).map fun b => fill (values.insert "value" (Sql.truth b)) t
  | text t => return some (fill (values.insert "value" "") t)

/-- What the patterns contribute, in order. -/
def contributions (values : Fields String) (args : Arguments) (patterns : List Pattern) :
    Except Fault (List String) :=
  return (← patterns.mapM (contribution values args)).filterMap id

/-- Contributions that must all hold. -/
def conjunction (parts : List String) : String := " AND ".intercalate parts

/-- The condition that joins a child to its parent. -/
def join (patterns : List Pattern) : JoinCondition Tenancy := fun parent child args context => do
  let names : Fields String :=
    [("parent", parent), ("child", child), ("tenant", toString context.tenant)]
  return conjunction (← contributions names args patterns)

/-- The condition that filters a table; without contributions there is none. -/
def filter (patterns : List Pattern) : FilterCondition Tenancy := fun table args context => do
  let names : Fields String := [("table", table), ("tenant", toString context.tenant)]
  let parts ← contributions names args patterns
  return if parts = [] then none else some (conjunction parts)

end Pattern

end RelaySql
