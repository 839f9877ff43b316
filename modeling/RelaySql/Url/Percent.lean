/-!
# Url — percent encoding

A character that may not stand in a part of a URL is written as its bytes, each a percent sign and
two hexadecimal digits.  Which characters these are depends on the part; a percent sign itself
always stands, so what is encoded already stays as it is.

* `encode_eq_self`: a text of characters that may stand is not changed.
-/

namespace RelaySql.Url.Percent

/-- A byte as a percent sign and two upper-case hexadecimal digits. -/
def byte (b : UInt8) : List Char :=
  let digit (n : Nat) := (Nat.digitChar n).toUpper
  ['%', digit (b.toNat / 16), digit (b.toNat % 16)]

/-- Encodes the characters for which `special` holds. -/
def encode (special : Char → Bool) (cs : List Char) : List Char :=
  cs.flatMap fun c => if special c then (String.utf8EncodeChar c).flatMap byte else [c]

theorem encode_eq_self {special : Char → Bool} {cs : List Char}
    (h : ∀ c ∈ cs, special c = false) : encode special cs = cs := by
  induction cs with
  | nil => rfl
  | cons c r ih =>
    have hr := ih fun d hd => h d (List.mem_cons_of_mem _ hd)
    simp only [encode] at hr ⊢
    simp [h c (List.mem_cons_self ..), hr]

/-- Characters encoded in a host: controls and everything outside ASCII. -/
def inHost (c : Char) : Bool := c.toNat < 0x20 || 0x7f ≤ c.toNat

/-- Characters encoded in a path. -/
def inPath (c : Char) : Bool := inHost c || c ∈ " \"<>`#?\x7b\x7d".toList

/-- Characters encoded in a user name and a password. -/
def inUserInfo (c : Char) : Bool := inPath c || c ∈ "/:;=@[\\]^|".toList

/-- The value of a hexadecimal digit. -/
def hexValue? (c : Char) : Option Nat :=
  if c.isDigit then some (c.toNat - '0'.toNat)
  else if 'a' ≤ c ∧ c ≤ 'f' then some (c.toNat - 'a'.toNat + 10)
  else if 'A' ≤ c ∧ c ≤ 'F' then some (c.toNat - 'A'.toNat + 10)
  else none

/-- The bytes of a text in which percent signs with two digits stand for bytes. -/
def decode : List Char → List UInt8
  | '%' :: a :: b :: rest =>
    match hexValue? a, hexValue? b with
    | some h, some l => UInt8.ofNat (16 * h + l) :: decode rest
    | _, _ => String.utf8EncodeChar '%' ++ decode (a :: b :: rest)
  | c :: rest => String.utf8EncodeChar c ++ decode rest
  | [] => []

/-- The text that is encoded, if its bytes are one. -/
def decodeText? (cs : List Char) : Option String := String.fromUTF8? ⟨(decode cs).toArray⟩

end RelaySql.Url.Percent
