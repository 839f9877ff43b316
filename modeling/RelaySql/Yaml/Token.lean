/-!
# Yaml — tokens

A settings document is cut into tokens one character at a time.  Outside brackets the columns at
which collections begin structure the document: a deeper column opens a collection, and a column
further left closes those that are deeper.

What a key is shows only at its colon.  So the scanner remembers where a key may have begun, one
place for every level of brackets, and puts the key's token there when the colon comes.

* `Token.ofChars?` cuts a text into tokens, or finds it malformed.
-/

namespace RelaySql.Yaml

/-- A piece of a document. -/
inductive Token where
  /-- Three dashes. -/
  | documentStart
  /-- Three dots. -/
  | documentEnd
  /-- A sequence structured by columns begins. -/
  | sequence
  /-- A mapping structured by columns begins. -/
  | mapping
  /-- A collection structured by columns ends. -/
  | dedent
  | openBracket | closeBracket | openBrace | closeBrace
  | dash | comma | key | colon
  | scalar (quoted : Bool) (text : String)
deriving DecidableEq, Repr, Inhabited

/-- White space inside a scalar that becomes part of it only if more of the scalar follows. -/
inductive Gap where
  | nothing
  /-- Blanks on one line, in reverse. -/
  | blanks (reversed : List Char)
  /-- A line break, and so many more. -/
  | breaks (more : Nat)
  /-- A line break behind a backslash, and so many more. -/
  | joined (more : Nat)
deriving DecidableEq, Repr

namespace Gap

/-- What a gap adds to a scalar, in reverse: blanks add themselves, one line break a space, and
several line breaks all but the first. -/
def reversed : Gap → List Char
  | nothing => []
  | blanks cs => cs
  | breaks 0 => [' ']
  | breaks (n + 1) => List.replicate (n + 1) '\n'
  | joined n => List.replicate n '\n'

/-- A gap with one more blank; blanks after a line break do not count. -/
def blank (c : Char) : Gap → Gap
  | nothing => blanks [c]
  | blanks cs => blanks (c :: cs)
  | g => g

/-- A gap with one more line break; blanks before it do not count. -/
def lineBreak : Gap → Gap
  | nothing | blanks _ => breaks 0
  | breaks n => breaks (n + 1)
  | joined n => joined (n + 1)

/-- The gap reaches over a line break. -/
def isBroken : Gap → Bool
  | breaks _ | joined _ => true
  | _ => false

end Gap

/-- What the scanner is inside of. -/
inductive Mode where
  | between
  | comment
  /-- The rest of three dashes or dots. -/
  | marker (left : Nat)
  | plain (reversed : List Char) (gap : Gap)
  | quoted (single : Bool) (reversed : List Char) (gap : Gap)
  /-- The second of two single quotes. -/
  | quote (reversed : List Char)
  /-- The line break behind a backslash. -/
  | joint (reversed : List Char)
  | escape (reversed : List Char)
  /-- Hexadecimal digits of an escape: how many are left, and the value of those read. -/
  | hex (reversed : List Char) (left value : Nat)

/-- A place where a key may have begun. -/
structure KeyStart where
  /-- How many tokens stand before the key. -/
  tokens : Nat
  line : Nat
  column : Nat
  /-- Nothing but a key can stand here. -/
  required : Bool

/-- The scanner's state. -/
structure Scan where
  /-- The tokens in reverse. -/
  tokens : List Token := []
  mode : Mode := .between
  line : Nat := 0
  column : Nat := 0
  /-- The columns of the open collections that columns structure, innermost first. -/
  columns : List Nat := []
  /-- Where a key may have begun outside brackets. -/
  outer : Option KeyStart := none
  /-- Where a key may have begun inside each open bracket, innermost first. -/
  inner : List (Option KeyStart) := []
  /-- A key may begin here. -/
  keyAllowed : Bool := true
  /-- A quoted scalar has just ended. -/
  adjacent : Bool := false

def isBlank (c : Char) : Bool := c = ' ' || c = '\t'

/-- A blank, a line break or the end follows. -/
def endsWord : List Char → Bool
  | [] => true
  | c :: _ => isBlank c || c = '\n'

/-- A character that structures brackets. -/
def isBracket (c : Char) : Bool := c ∈ [',', '[', ']', '\x7b', '\x7d']

namespace Scan

/-- The place is inside brackets. -/
def inBrackets (s : Scan) : Bool := !s.inner.isEmpty

def push (s : Scan) (t : Token) : Scan := { s with tokens := t :: s.tokens }

/-- Puts a token behind the first `n`. -/
def insertAt (s : Scan) (n : Nat) (t : Token) : Scan :=
  { s with tokens := s.tokens.insertIdx (s.tokens.length - n) t }

/-- The place where a key may have begun, on this level. -/
def keyStart (s : Scan) : Option KeyStart :=
  match s.inner with
  | [] => s.outer
  | k :: _ => k

def setKeyStart (s : Scan) (k : Option KeyStart) : Scan :=
  match s.inner with
  | [] => { s with outer := k }
  | _ :: rest => { s with inner := k :: rest }

/-- No key begins at the place remembered, which is malformed if there had to be one. -/
def forgetKey? (s : Scan) : Option Scan :=
  match s.keyStart with
  | some ⟨_, _, _, true⟩ => none
  | _ => some (s.setKeyStart none)

/-- Remembers this place, if a key may begin here. -/
def saveKey? (s : Scan) : Option Scan :=
  if s.keyAllowed then
    let required := !s.inBrackets && s.columns.head? = some s.column
    s.forgetKey?.map (·.setKeyStart (some ⟨s.tokens.length, s.line, s.column, required⟩))
  else some s

/-- A key does not reach over a line, so places on earlier lines are forgotten. -/
def forgetEarlier? (s : Scan) : Option Scan := do
  let keep? : Option KeyStart → Option (Option KeyStart)
    | none => some none
    | some k => if k.line < s.line then (if k.required then none else some none) else some (some k)
  return { s with outer := ← keep? s.outer, inner := ← s.inner.mapM keep? }

/-- Closes the collections that begin at the columns of which `closes` holds. -/
def unroll (s : Scan) (closes : Nat → Bool) : Scan :=
  if s.inBrackets then s
  else
    let closed := s.columns.takeWhile closes
    { s with
      tokens := closed.map (fun _ => Token.dedent) ++ s.tokens
      columns := s.columns.drop closed.length }

/-- Opens a collection at a column, if it is deeper than the one that is open; its token is put
behind the first `n`. -/
def roll (s : Scan) (column n : Nat) (t : Token) : Scan :=
  if s.inBrackets ∨ s.columns.head?.any (column ≤ ·) then s
  else { s with columns := column :: s.columns }.insertAt n t

/-- Three dashes or dots at the start of a line. -/
def atMarker (s : Scan) (c : Char) (rest : List Char) : Bool :=
  s.column = 0 && (c = '-' || c = '.') && rest.take 2 = [c, c] && endsWord (rest.drop 2)

/-! ### Tokens that structure the document -/

/-- A dash that begins an item. -/
def dash? (s : Scan) : Option Scan :=
  if s.inBrackets ∨ !s.keyAllowed then none
  else do
    let s ← (s.roll s.column s.tokens.length .sequence).forgetKey?
    return { s.push .dash with keyAllowed := true }

/-- A question mark that begins a key. -/
def questionMark? (s : Scan) : Option Scan :=
  if !s.inBrackets ∧ !s.keyAllowed then none
  else do
    let s ← (s.roll s.column s.tokens.length .mapping).forgetKey?
    return { s.push .key with keyAllowed := !s.inBrackets }

/-- A colon between a key and its value. -/
def colon? (s : Scan) : Option Scan :=
  match s.keyStart with
  | some k =>
    let s := ((s.insertAt k.tokens .key).roll k.column k.tokens .mapping).setKeyStart none
    some { s.push .colon with keyAllowed := false }
  | none =>
    if !s.inBrackets ∧ !s.keyAllowed then none
    else
      let s := s.roll s.column s.tokens.length .mapping
      some { s.push .colon with keyAllowed := !s.inBrackets }

/-- An opening bracket. -/
def opening? (s : Scan) (t : Token) : Option Scan := do
  let s ← s.saveKey?
  return { s.push t with inner := none :: s.inner, keyAllowed := true }

/-- A closing bracket. -/
def closing? (s : Scan) (t : Token) : Option Scan := do
  let s ← s.forgetKey?
  return { s.push t with inner := s.inner.tail, keyAllowed := false }

/-- A comma. -/
def comma? (s : Scan) : Option Scan := do
  let s ← s.forgetKey?
  return { s.push .comma with keyAllowed := true }

/-- Three dashes or dots. -/
def marker? (s : Scan) (c : Char) : Option Scan := do
  let s ← (s.unroll fun _ => true).forgetKey?
  let t := if c = '-' then Token.documentStart else .documentEnd
  return { s.push t with keyAllowed := false, mode := .marker 2 }

/-- The first character of a plain scalar. -/
def startPlain? (s : Scan) (c : Char) : Option Scan := do
  let s ← s.saveKey?
  let mode := if isBlank c then Mode.plain [] (.blanks [c]) else .plain [c] .nothing
  return { s with keyAllowed := false, mode }

/-- The quote before a scalar. -/
def startQuoted? (s : Scan) (single : Bool) : Option Scan := do
  let s ← s.saveKey?
  return { s with keyAllowed := false, mode := .quoted single [] .nothing }

/-- A character that begins a token.  Anchors, tags, directives and scalars given line by line are
no part of settings documents. -/
def token? (s : Scan) (adjacent : Bool) (c : Char) (rest : List Char) : Option Scan :=
  match c with
  | '[' => s.opening? .openBracket
  | '\x7b' => s.opening? .openBrace
  | ']' => s.closing? .closeBracket
  | '\x7d' => s.closing? .closeBrace
  | ',' => s.comma?
  | '\'' => s.startQuoted? true
  | '"' => s.startQuoted? false
  | '*' | '&' | '!' | '%' | '@' | '`' => none
  | '|' | '>' => if s.inBrackets then s.startPlain? c else none
  | '-' => if endsWord rest then s.dash? else s.startPlain? c
  | '?' => if endsWord rest then s.questionMark? else s.startPlain? c
  | ':' =>
    if endsWord rest ∨ (s.inBrackets ∧ (adjacent ∨ rest.head?.any isBracket)) then s.colon?
    else s.startPlain? c
  | c => s.startPlain? c

/-- A character outside scalars and comments. -/
def between? (s : Scan) (c : Char) (rest : List Char) : Option Scan :=
  let adjacent := s.adjacent
  let s := { s with mode := .between, adjacent := false }
  if c = ' ' ∨ (c = '\t' ∧ (s.inBrackets ∨ !s.keyAllowed)) then some s
  else if c = '\n' then some { s with keyAllowed := s.keyAllowed || !s.inBrackets }
  else if c = '#' then some { s with mode := .comment }
  else do
    let s := (← s.forgetEarlier?).unroll (s.column < ·)
    if s.atMarker c rest then s.marker? c else s.token? adjacent c rest

/-! ### Scalars -/

/-- Ends a plain scalar before a gap. -/
def endPlain (s : Scan) (reversed : List Char) (gap : Gap) : Scan :=
  { s.push (.scalar false (String.ofList reversed.reverse)) with
    mode := .between, keyAllowed := s.keyAllowed || gap.isBroken }

/-- The character ends a plain scalar. -/
def endsPlain (s : Scan) (gap : Gap) (c : Char) (rest : List Char) : Bool :=
  let least := match s.columns.head? with
    | none => 0
    | some column => column + 1
  let afterGap := gap ≠ .nothing &&
    (s.atMarker c rest || c = '#' || (!s.inBrackets && s.column < least))
  afterGap ||
    (c = ':' && (endsWord rest || (s.inBrackets && rest.head?.any isBracket))) ||
    (s.inBrackets && isBracket c)

/-- A character inside a plain scalar. -/
def plain? (s : Scan) (reversed : List Char) (gap : Gap) (c : Char) (rest : List Char) :
    Option Scan :=
  let least := match s.columns.head? with
    | none => 0
    | some column => column + 1
  if c = '\n' then some { s with mode := .plain reversed gap.lineBreak }
  else if isBlank c then
    if c = '\t' ∧ gap.isBroken ∧ s.column < least then none
    else some { s with mode := .plain reversed (gap.blank c) }
  else if s.endsPlain gap c rest then (s.endPlain reversed gap).between? c rest
  else some { s with mode := .plain (c :: (gap.reversed ++ reversed)) .nothing }

/-- Ends a quoted scalar. -/
def endQuoted (s : Scan) (reversed : List Char) : Scan :=
  { s.push (.scalar true (String.ofList reversed.reverse)) with mode := .between, adjacent := true }

/-- A character between quotes. -/
def quoted? (s : Scan) (single : Bool) (reversed : List Char) (gap : Gap) (c : Char)
    (rest : List Char) : Option Scan :=
  let all := gap.reversed ++ reversed
  if c = '\n' then some { s with mode := .quoted single reversed gap.lineBreak }
  else if isBlank c then some { s with mode := .quoted single reversed (gap.blank c) }
  else if s.atMarker c rest then none
  else if single then
    if c = '\'' then
      if rest.head? = some '\'' then some { s with mode := .quote ('\'' :: all) }
      else some (s.endQuoted all)
    else some { s with mode := .quoted true (c :: all) .nothing }
  else if c = '"' then some (s.endQuoted all)
  else if c = '\\' then
    if rest.head? = some '\n' then some { s with mode := .joint all }
    else some { s with mode := .escape all }
  else some { s with mode := .quoted false (c :: all) .nothing }

/-- The character that a letter behind a backslash stands for. -/
def unescape? (c : Char) : Option Char :=
  match c with
  | '0' => some '\x00'
  | 'a' => some '\x07'
  | 'b' => some '\x08'
  | 't' | '\t' => some '\t'
  | 'n' => some '\n'
  | 'v' => some '\x0b'
  | 'f' => some '\x0c'
  | 'r' => some '\r'
  | 'e' => some '\x1b'
  | ' ' | '"' | '\'' | '\\' => some c
  | 'N' => some '\u0085'
  | '_' => some '\u00a0'
  | 'L' => some '\u2028'
  | 'P' => some '\u2029'
  | _ => none

/-- How many hexadecimal digits follow a letter behind a backslash. -/
def digitCount? (c : Char) : Option Nat :=
  match c with
  | 'x' => some 2
  | 'u' => some 4
  | 'U' => some 8
  | _ => none

/-- The value of a hexadecimal digit. -/
def hexValue? (c : Char) : Option Nat :=
  let lower := c.toLower
  if c.isDigit then some (c.toNat - '0'.toNat)
  else if 'a' ≤ lower ∧ lower ≤ 'f' then some (lower.toNat - 'a'.toNat + 10)
  else none

/-- A character behind a backslash. -/
def escape? (s : Scan) (reversed : List Char) (c : Char) : Option Scan :=
  match digitCount? c with
  | some n => some { s with mode := .hex reversed n 0 }
  | none => (unescape? c).map fun e => { s with mode := .quoted false (e :: reversed) .nothing }

/-- A hexadecimal digit of an escape; the last one completes a character. -/
def hex? (s : Scan) (reversed : List Char) (left value : Nat) (c : Char) : Option Scan := do
  let value := 16 * value + (← hexValue? c)
  if left ≤ 1 then
    if value.isValidChar then
      some { s with mode := .quoted false (Char.ofNat value :: reversed) .nothing }
    else none
  else some { s with mode := .hex reversed (left - 1) value }

/-! ### Whole texts -/

/-- Takes up a character; `rest` follows it. -/
def read? (s : Scan) (c : Char) (rest : List Char) : Option Scan :=
  match s.mode with
  | .between => s.between? c rest
  | .comment => if c = '\n' then s.between? c rest else some s
  | .marker n => some { s with mode := if n ≤ 1 then .between else .marker (n - 1) }
  | .plain reversed gap => s.plain? reversed gap c rest
  | .quoted single reversed gap => s.quoted? single reversed gap c rest
  | .quote reversed => some { s with mode := .quoted true reversed .nothing }
  | .joint reversed => some { s with mode := .quoted false reversed (.joined 0) }
  | .escape reversed => s.escape? reversed c
  | .hex reversed left value => s.hex? reversed left value c

/-- Moves on to the place behind a character. -/
def advance (s : Scan) (c : Char) : Scan :=
  if c = '\n' then { s with line := s.line + 1, column := 0 }
  else { s with column := s.column + 1 }

/-- Takes up characters one after another. -/
def run? (s : Scan) : List Char → Option Scan
  | [] => some s
  | c :: rest => (s.read? c rest).bind fun s => (s.advance c).run? rest

/-- Ends the text: every collection that columns structure is closed. -/
def finish? (s : Scan) : Option (List Token) := do
  let s ← match s.mode with
    | .between | .comment | .marker _ => some s
    | .plain reversed gap => some (s.endPlain reversed gap)
    | _ => none
  let s ← ((← s.forgetEarlier?).unroll fun _ => true).forgetKey?
  return s.tokens.reverse

end Scan

/-- Line breaks in their one form. -/
def lineBreaks : List Char → List Char
  | '\r' :: '\n' :: r => '\n' :: lineBreaks r
  | '\r' :: r => '\n' :: lineBreaks r
  | c :: r => c :: lineBreaks r
  | [] => []

/-- The tokens of a text. -/
def Token.ofChars? (cs : List Char) : Option (List Token) :=
  (({} : Scan).run? (lineBreaks cs)).bind Scan.finish?

end RelaySql.Yaml
