import RelaySql.Decimal.Basic
import RelaySql.Url.Percent

/-!
# Url — addresses of eight groups

An address has eight groups of sixteen bits, written in hexadecimal with colons between them.  Two
colons stand once for a run of zero groups, and the last two groups may be written as four decimal
numbers.  The text of an address leaves out its longest run of at least two zero groups, the first
of several.
-/

namespace RelaySql.Url.Ipv6

/-- A group: one to four hexadecimal digits. -/
def group? (cs : List Char) : Option Nat :=
  if 0 < cs.length ∧ cs.length ≤ 4 then
    (cs.mapM Percent.hexValue?).map fun ds => ds.foldl (fun n d => 16 * n + d) 0
  else none

/-- A decimal number below 256 without leading zeros. -/
def octet? (cs : List Char) : Option Nat :=
  let canonical := cs ≠ [] ∧ cs.all Char.isDigit ∧ (cs.length = 1 ∨ cs.head? ≠ some '0')
  if canonical ∧ ofDigits cs < 256 then some (ofDigits cs) else none

/-- Four decimal numbers with dots between them. -/
def octets? (cs : List Char) : Option (List Nat) :=
  match cs.splitOn '.' with
  | [a, b, c, d] => [a, b, c, d].mapM octet?
  | _ => none

/-- The groups of the pieces between colons; the last piece may be two groups. -/
def groups? : List (List Char) → Option (List Nat)
  | [] => some []
  | [last] =>
    if '.' ∈ last then
      match octets? last with
      | some [a, b, c, d] => some [256 * a + b, 256 * c + d]
      | _ => none
    else (group? last).map ([·])
  | piece :: rest => do return (← group? piece) :: (← groups? rest)

/-- Fills the run of zeros between two parts. -/
def fill? (left right : List Nat) : Option (List Nat) :=
  let n := left.length + right.length
  if n ≤ 7 then some (left ++ List.replicate (8 - n) 0 ++ right) else none

/-- The groups before a run of zeros, which may not end in decimal numbers. -/
def plainGroups? (pieces : List (List Char)) : Option (List Nat) := pieces.mapM group?

/-- The eight groups of an address. -/
def ofChars? (cs : List Char) : Option (List Nat) :=
  match cs.splitOn ':' with
  | [[], [], []] => fill? [] []
  | [] :: [] :: right => do fill? [] (← groups? right)
  | pieces =>
    let left := pieces.takeWhile (· ≠ [])
    match pieces.dropWhile (· ≠ []) with
    | [] => do
      let all ← groups? left
      if all.length = 8 then some all else none
    | _ :: right =>
      if left = [] ∨ right = [] then none
      else if right = [[]] then do fill? (← plainGroups? left) []
      else do fill? (← plainGroups? left) (← groups? right)

/-- The longest run of zero groups: its start and its length. -/
def zeroRun (groups : List Nat) : Nat × Nat :=
  let runs := (List.range groups.length).map fun i =>
    (i, ((groups.drop i).takeWhile (· = 0)).length)
  runs.foldl (fun best run => if best.2 < run.2 then run else best) (0, 0)

/-- Groups with colons between them. -/
def joined (groups : List Nat) : List Char :=
  [':'].intercalate (groups.map (Nat.toDigits 16))

/-- The text of an address. -/
def chars (groups : List Nat) : List Char :=
  let (start, length) := zeroRun groups
  if length < 2 then joined groups
  else joined (groups.take start) ++ [':', ':'] ++ joined (groups.drop (start + length))

end RelaySql.Url.Ipv6
