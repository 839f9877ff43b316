import RelaySql.Json.Basic

/-!
# Json — reading a text

A text is read in two passes.  `Scan.step` takes one character at a time and collects tokens;
`Build.step` takes one token at a time and keeps the arrays and objects that are still open on a
stack.  A name given twice in one object keeps its first place and its last value.
-/

namespace RelaySql.Json

/-- The pieces of a text. -/
inductive Token where
  | openArray | closeArray | openObject | closeObject | comma | colon
  | value (v : Json)

/-! ### From characters to tokens -/

/-- What the scanner is inside of. -/
inductive Scan.Mode where
  | between
  | word (reversed : List Char)
  | text (reversed : List Char)
  | escape (reversed : List Char)
  /-- Hexadecimal digits of an escape: how many were read, and their value. -/
  | hex (reversed : List Char) (count value : Nat)

/-- The scanner's state: tokens in reverse, the mode, and the first half of a surrogate pair that
waits for the second. -/
structure Scan where
  tokens : List Token
  mode : Scan.Mode
  high : Option Nat

namespace Scan

/-- A word is a literal or a number. -/
def word? (cs : List Char) : Option Json :=
  if cs = ['n', 'u', 'l', 'l'] then some null
  else if cs = ['t', 'r', 'u', 'e'] then some (boolean true)
  else if cs = ['f', 'a', 'l', 's', 'e'] then some (boolean false)
  else (Number.ofChars? cs).map number

def hexValue? (c : Char) : Option Nat :=
  if c.isDigit then some (c.toNat - '0'.toNat)
  else if 'a' ≤ c ∧ c ≤ 'f' then some (c.toNat - 'a'.toNat + 10)
  else if 'A' ≤ c ∧ c ≤ 'F' then some (c.toNat - 'A'.toNat + 10)
  else none

/-- The character a one-letter escape stands for. -/
def unescape? (c : Char) : Option Char :=
  match c with
  | '"' | '\\' | '/' => some c
  | 'b' => some '\x08'
  | 'f' => some '\x0c'
  | 'n' => some '\n'
  | 'r' => some '\r'
  | 't' => some '\t'
  | _ => none

/-- A character outside words and texts. -/
def between? (s : Scan) (c : Char) : Option Scan :=
  let token (t : Token) : Option Scan := some { s with tokens := t :: s.tokens, mode := .between }
  match c with
  | '[' => token .openArray
  | ']' => token .closeArray
  | '\x7b' => token .openObject
  | '\x7d' => token .closeObject
  | ',' => token .comma
  | ':' => token .colon
  | '"' => some { s with mode := .text [] }
  | ' ' | '\n' | '\r' | '\t' => some { s with mode := .between }
  | c => some { s with mode := .word [c] }

/-- Ends a word, if one is open. -/
def endWord? (s : Scan) : Option Scan :=
  match s.mode with
  | .word reversed =>
    (word? reversed.reverse).map fun v => { s with tokens := .value v :: s.tokens, mode := .between }
  | .between => some s
  | _ => none

/-- A code unit given by its number; the two halves of a surrogate pair make one character. -/
def unit? (s : Scan) (reversed : List Char) (n : Nat) : Option Scan :=
  match s.high with
  | some h =>
    if 0xdc00 ≤ n ∧ n < 0xe000 then
      let c := Char.ofNat (0x10000 + (h - 0xd800) * 0x400 + (n - 0xdc00))
      some { s with mode := .text (c :: reversed), high := none }
    else none
  | none =>
    if 0xd800 ≤ n ∧ n < 0xdc00 then some { s with mode := .text reversed, high := some n }
    else if 0xdc00 ≤ n ∧ n < 0xe000 then none
    else some { s with mode := .text (Char.ofNat n :: reversed) }

def step? (s : Scan) (c : Char) : Option Scan :=
  match s.mode with
  | .between => s.between? c
  | .word reversed =>
    if c ∈ ['[', ']', '\x7b', '\x7d', ',', ':', '"', ' ', '\n', '\r', '\t'] then
      s.endWord?.bind (·.between? c)
    else some { s with mode := .word (c :: reversed) }
  | .text reversed =>
    if c = '\\' then some { s with mode := .escape reversed }
    else if s.high.isSome then none
    else if c = '"' then
      let v := Json.string (String.ofList reversed.reverse)
      some { s with tokens := .value v :: s.tokens, mode := .between }
    else some { s with mode := .text (c :: reversed) }
  | .escape reversed =>
    if c = 'u' then some { s with mode := .hex reversed 0 0 }
    else if s.high.isSome then none
    else (unescape? c).map fun e => { s with mode := .text (e :: reversed) }
  | .hex reversed count value =>
    (hexValue? c).bind fun d =>
      let value := 16 * value + d
      if count = 3 then s.unit? reversed value
      else some { s with mode := .hex reversed (count + 1) value }

end Scan

/-- The tokens of a text. -/
def tokens? (cs : List Char) : Option (List Token) :=
  let start : Scan := ⟨[], .between, none⟩
  (cs.foldlM Scan.step? start).bind fun s => s.endWord?.map fun s => s.tokens.reverse

/-! ### From tokens to values -/

/-- An array or an object that is still open. -/
inductive Frame where
  | items (reversed : List Json)
  | members (members : Fields Json)
  /-- An object that waits for the value of a member. -/
  | member (members : Fields Json) (name : String)

/-- What may come next. -/
inductive Build.Mode where
  | value
  /-- A value, or the end of the array that was just opened. -/
  | firstItem
  | name
  /-- A name, or the end of the object that was just opened. -/
  | firstName
  | colon
  /-- A comma, or the end of the innermost array or object. -/
  | next
  | done (v : Json)

structure Build where
  stack : List Frame
  mode : Build.Mode

namespace Build

/-- Puts a finished value in its place. -/
def put (stack : List Frame) (v : Json) : Option Build :=
  match stack with
  | [] => some ⟨[], .done v⟩
  | .items reversed :: rest => some ⟨.items (v :: reversed) :: rest, .next⟩
  | .member members name :: rest => some ⟨.members (members.insert name v) :: rest, .next⟩
  | .members _ :: _ => none

/-- Ends the innermost array or object. -/
def close (stack : List Frame) (t : Token) : Option Build :=
  match t, stack with
  | .closeArray, .items reversed :: rest => put rest (.array reversed.reverse)
  | .closeObject, .members members :: rest => put rest (.object members)
  | _, _ => none

def step? (b : Build) (t : Token) : Option Build :=
  match b.mode, t with
  | .value, .value v | .firstItem, .value v => put b.stack v
  | .value, .openArray | .firstItem, .openArray => some ⟨.items [] :: b.stack, .firstItem⟩
  | .value, .openObject | .firstItem, .openObject => some ⟨.members [] :: b.stack, .firstName⟩
  | .firstItem, .closeArray => close b.stack t
  | .name, .value (.string n) | .firstName, .value (.string n) =>
    match b.stack with
    | .members members :: rest => some ⟨.member members n :: rest, .colon⟩
    | _ => none
  | .firstName, .closeObject => close b.stack t
  | .colon, .colon => some { b with mode := .value }
  | .next, .comma =>
    match b.stack with
    | .items _ :: _ => some { b with mode := .value }
    | .members _ :: _ => some { b with mode := .name }
    | _ => none
  | .next, t => close b.stack t
  | _, _ => none

end Build

/-- The value that a list of tokens spells. -/
def ofTokens? (ts : List Token) : Option Json :=
  (ts.foldlM Build.step? ⟨[], .value⟩).bind fun b =>
    match b.mode with
    | .done v => some v
    | _ => none

/-- The value that a text spells. -/
def ofText? (s : String) : Option Json := (tokens? s.toList).bind ofTokens?

end RelaySql.Json
