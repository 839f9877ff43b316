/-!
# Graph — references to types

A reference names a type, or wraps another reference: in a list, or as one that is never null.
-/

namespace RelaySql

/-- A reference to a type. -/
inductive TypeRef where
  | named (name : String)
  | list (item : TypeRef)
  | nonNull (type : TypeRef)
deriving DecidableEq, Repr, Inhabited

namespace TypeRef

/-- The text of a reference: brackets around a list's item, a mark after what is never null. -/
def text : TypeRef → String
  | named name => name
  | list item => "[" ++ item.text ++ "]"
  | nonNull type => type.text ++ "!"

/-- The type at the bottom of a reference. -/
def base : TypeRef → String
  | named name => name
  | list item => item.base
  | nonNull type => type.base

/-- The reference allows null. -/
def nullable : TypeRef → Bool
  | nonNull _ => false
  | _ => true

/-- Takes up one character after the name: a mark, or a bracket that closes one of `depth`. -/
def wrap? (state : Nat × TypeRef) (c : Char) : Option (Nat × TypeRef) :=
  match state, c with
  | (depth, type), '!' => some (depth, nonNull type)
  | (depth + 1, type), ']' => some (depth, list type)
  | _, _ => none

/-- The reference of a text. -/
def ofText? (s : String) : Option TypeRef :=
  let cs := s.toList
  let (opens, rest) := cs.span (· = '[')
  let (name, marks) := rest.span fun c => c ≠ ']' ∧ c ≠ '!'
  match marks.foldlM wrap? (opens.length, named (String.ofList name)) with
  | some (0, type) => some type
  | _ => none

end TypeRef

end RelaySql
