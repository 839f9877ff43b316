/-!
# Base64 — the standard alphabet with padding

Three bytes make four characters; one or two bytes left over are padded with `=`.  Decoding accepts
only what encoding produces: the alphabet's characters, padding exactly where it belongs, and no
bits beyond the last byte.
-/

namespace RelaySql.Base64

/-- The character of a six-bit value. -/
def digit (n : Nat) : Char :=
  if n < 26 then Char.ofNat ('A'.toNat + n)
  else if n < 52 then Char.ofNat ('a'.toNat + (n - 26))
  else if n < 62 then Char.ofNat ('0'.toNat + (n - 52))
  else if n = 62 then '+'
  else '/'

/-- The six-bit value of a character. -/
def value? (c : Char) : Option Nat :=
  if 'A' ≤ c ∧ c ≤ 'Z' then some (c.toNat - 'A'.toNat)
  else if 'a' ≤ c ∧ c ≤ 'z' then some (c.toNat - 'a'.toNat + 26)
  else if '0' ≤ c ∧ c ≤ '9' then some (c.toNat - '0'.toNat + 52)
  else if c = '+' then some 62
  else if c = '/' then some 63
  else none

/-- The text of a sequence of bytes. -/
def encode : List UInt8 → List Char
  | [] => []
  | [a] =>
    let a := a.toNat
    [digit (a / 4), digit (a % 4 * 16), '=', '=']
  | [a, b] =>
    let (a, b) := (a.toNat, b.toNat)
    [digit (a / 4), digit (a % 4 * 16 + b / 16), digit (b % 16 * 4), '=']
  | a :: b :: c :: rest =>
    let (a, b, c) := (a.toNat, b.toNat, c.toNat)
    digit (a / 4) :: digit (a % 4 * 16 + b / 16) :: digit (b % 16 * 4 + c / 64) ::
      digit (c % 64) :: encode rest

/-- The bytes of a last group of four characters, which may be padded. -/
def decodeLast? (p q r s : Char) : Option (List UInt8) := do
  let p ← value? p
  let q ← value? q
  let first := UInt8.ofNat (p * 4 + q / 16)
  if r = '=' ∧ s = '=' then
    if q % 16 = 0 then some [first] else none
  else
    let r ← value? r
    let second := UInt8.ofNat (q % 16 * 16 + r / 4)
    if s = '=' then
      if r % 4 = 0 then some [first, second] else none
    else
      let s ← value? s
      some [first, second, UInt8.ofNat (r % 4 * 64 + s)]

/-- The bytes of a text, if it is the text of some. -/
def decode? : List Char → Option (List UInt8)
  | [] => some []
  | [p, q, r, s] => decodeLast? p q r s
  | p :: q :: r :: s :: rest => do
    let p ← value? p
    let q ← value? q
    let r ← value? r
    let s ← value? s
    let group := [UInt8.ofNat (p * 4 + q / 16), UInt8.ofNat (q % 16 * 16 + r / 4),
      UInt8.ofNat (r % 4 * 64 + s)]
    let rest ← decode? rest
    some (group ++ rest)
  | _ => none

theorem value?_digit {n : Nat} (h : n < 64) : value? (digit n) = some n := by
  have : ∀ m < 64, value? (digit m) = some m := by decide
  exact this n h

end RelaySql.Base64
