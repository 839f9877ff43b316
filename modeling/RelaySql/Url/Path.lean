import RelaySql.Url.Percent

/-!
# Url — paths

A path is a list of segments.  A segment of one dot stands for the place it is at, and one of two
dots for the place above it; both are resolved while the path is read, also when the dots are
percent encoded.  A segment that names a drive is never left for the place above it.
-/

namespace RelaySql.Url.Path

/-- The dots a segment consists of, whether encoded or not. -/
def dots? (segment : List Char) : Option Nat :=
  let lower := String.ofList (segment.map Char.toLower)
  if lower ∈ [".", "%2e"] then some 1
  else if lower ∈ ["..", ".%2e", "%2e.", "%2e%2e"] then some 2
  else none

/-- The segment begins like the letter of a drive. -/
def namesDrive : List Char → Bool
  | letter :: mark :: rest =>
    letter.isAlpha && (mark = ':' || mark = '|') && (rest = [] || rest.head? = some '\\')
  | _ => false

/-- Leaves the last segment, unless it names a drive; segments are in reverse. -/
def leave : List (List Char) → List (List Char)
  | [] => []
  | last :: above => if namesDrive last then last :: above else above

/-- Resolves segments one after another on those before them, which are in reverse. -/
def resolve (above : List (List Char)) : List (List Char) → List (List Char)
  | [] => above.reverse
  | segment :: rest =>
    let above := match dots? segment with
      | none => segment :: above
      | some 1 => above
      | some _ => leave above
    match dots? segment, rest with
    | some _, [] => ([] :: above).reverse
    | _, _ => resolve above rest

/-- The segments of a path, without the slash that it begins with. -/
def segments (cs : List Char) : List (List Char) :=
  resolve [] ((Percent.encode Percent.inPath cs).splitOn '/')

end RelaySql.Url.Path
