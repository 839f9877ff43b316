import RelaySql.Fault

/-!
# Arguments — typed access to a field's arguments

Arguments are looked up by name and converted on demand.  An argument that is absent and one that
is null read the same: there is no value.
-/

namespace RelaySql

/-- The arguments of one occurrence of a field. -/
abbrev Arguments := Fields Input

namespace Arguments

/-- The value of an argument, converted by `read`; null and absent arguments have none. -/
def read? (args : Arguments) (name : String) (read : Input → Option α)
    (fault : String → Input → ArgumentFault) : Except Fault (Option α) :=
  match args.get? name with
  | none | some .null => .ok none
  | some v =>
    match read v with
    | some a => .ok (some a)
    | none => .error (.argument (fault name v))

/-- A whole number within a signed 64-bit integer. -/
def int? (args : Arguments) (name : String) : Except Fault (Option Int) :=
  args.read? name (fun | .number n => n.int64? | _ => none) .notInteger

/-- A text, or the name of an enumeration value. -/
def string? (args : Arguments) (name : String) : Except Fault (Option String) :=
  args.read? name (fun | .string s => some s | .enumeration s => some s | _ => none) .notString

/-- A truth value. -/
def boolean? (args : Arguments) (name : String) : Except Fault (Option Bool) :=
  args.read? name (fun | .boolean b => some b | _ => none) .notBoolean

end Arguments

end RelaySql
