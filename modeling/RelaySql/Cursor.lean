import RelaySql.Base64
import RelaySql.Fault

/-!
# Cursor — the opaque place of an edge

A cursor is the base64 text of a fixed word and the decimal offset of a row.  Only the text that
writing an offset produces is read back, and only for offsets that fit the database's row counts.
-/

namespace RelaySql

/-- The text a client holds on to between two pages. -/
structure Cursor where
  text : String
deriving DecidableEq, Repr, Inhabited

namespace Cursor

/-- What stands before the offset. -/
def mark : List Char := "arrayconnection:".toList

/-- The bytes of ASCII characters. -/
def asciiBytes (cs : List Char) : List UInt8 := cs.map fun c => UInt8.ofNat c.toNat

/-- The cursor of an offset. -/
def ofOffset (n : Nat) : Cursor :=
  ⟨String.ofList (Base64.encode (asciiBytes (mark ++ Nat.toDigits 10 n)))⟩

/-- The characters of bytes, one each. -/
def asciiChars (bytes : List UInt8) : List Char := bytes.map fun b => Char.ofNat b.toNat

/-- The number a row of digits writes, if it has no leading zero and fits the row counts. -/
def offsetOfDigits? (ds : List Char) : Option Nat :=
  let canonical := ds ≠ [] ∧ ds.all Char.isDigit ∧ (ds = ['0'] ∨ ds.head? ≠ some '0')
  if canonical ∧ ofDigits ds ≤ maxInt64 then some (ofDigits ds) else none

/-- The offset a cursor was made from. -/
def offset? (c : Cursor) : Option Nat := do
  let cs := asciiChars (← Base64.decode? c.text.toList)
  if cs.take mark.length = mark then offsetOfDigits? (cs.drop mark.length) else none

/-- The offset a cursor was made from, or the fault of its not being a cursor. -/
def offset (c : Cursor) : Except Fault Nat :=
  match c.offset? with
  | some n => .ok n
  | none => .error (.malformedCursor c.text)

end Cursor

end RelaySql
