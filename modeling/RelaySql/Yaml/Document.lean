import RelaySql.Yaml.Token
import RelaySql.Yaml.Value

/-!
# Yaml — documents

The value of a document is built token by token.  Collections that are open lie on a stack, each
with what it awaits.  A key or a value that does not come before the next token of its collection
is null.

* `Value.ofText?` reads a text that holds exactly one document.
-/

namespace RelaySql.Yaml

/-- What a mapping awaits: the token of a key or its end; the key; the colon behind it; the value
behind that. -/
inductive Awaited where
  | member
  | key
  | colon (key : Value)
  | value (key : Value)

/-- What brackets await: an item, or the end; a comma, or the end. -/
inductive Separated where
  | item
  | comma

/-- A collection that is open, with its finished parts in reverse. -/
inductive Frame where
  /-- A sequence structured by columns; after a dash it awaits an item. -/
  | sequence (items : List Value) (awaits : Bool)
  /-- A sequence in the columns of the mapping around it. -/
  | flatSequence (items : List Value) (awaits : Bool)
  | mapping (pairs : List (Value × Value)) (awaited : Awaited)
  | brackets (items : List Value) (separated : Separated)
  /-- A single key with its value as an item between brackets. -/
  | pair (awaited : Awaited)
  | braces (pairs : List (Value × Value)) (separated : Separated)
  /-- A mapping between braces inside of a member. -/
  | bracesMember (pairs : List (Value × Value)) (awaited : Awaited)

/-- The text outside collections. -/
inductive Outer where
  /-- No document has begun. -/
  | start
  /-- A document has begun with three dashes. -/
  | begun
  | finished (v : Value)

/-- What has been built. -/
structure Build where
  stack : List Frame := []
  outer : Outer := .start

namespace Build

/-- A mapping with a finished key or value. -/
def putMember (pairs : List (Value × Value)) (awaited : Awaited) (v : Value) :
    Option (List (Value × Value) × Awaited) :=
  match awaited with
  | .key => some (pairs, .colon v)
  | .value k => some ((k, v) :: pairs, .member)
  | _ => none

/-- Puts a finished value into the innermost collection, or ends the document with it. -/
def put? : List Frame → Value → Option Build
  | [], v => some ⟨[], .finished v⟩
  | .sequence items true :: rest, v => some ⟨.sequence (v :: items) false :: rest, .begun⟩
  | .flatSequence items true :: rest, v => some ⟨.flatSequence (v :: items) false :: rest, .begun⟩
  | .mapping pairs awaited :: rest, v =>
    (putMember pairs awaited v).map fun (pairs, awaited) => ⟨.mapping pairs awaited :: rest, .begun⟩
  | .brackets items .item :: rest, v => some ⟨.brackets (v :: items) .comma :: rest, .begun⟩
  | .pair .key :: rest, v => some ⟨.pair (.colon v) :: rest, .begun⟩
  | .pair (.value k) :: rest, v => put? rest (.mapping [(k, v)])
  | .braces pairs .item :: rest, v => some ⟨.braces ((v, .null) :: pairs) .comma :: rest, .begun⟩
  | .bracesMember pairs .key :: rest, v => some ⟨.bracesMember pairs (.colon v) :: rest, .begun⟩
  | .bracesMember pairs (.value k) :: rest, v =>
    some ⟨.braces ((k, v) :: pairs) .comma :: rest, .begun⟩
  | _, _ => none

/-- A token that begins a value.  A dash begins one only where a sequence may stand in the columns
of the mapping around it. -/
def begin? (stack : List Frame) (flat : Bool) (t : Token) : Option Build :=
  match t with
  | .scalar quoted s => (Value.ofScalar? quoted s).bind (put? stack)
  | .sequence => some ⟨.sequence [] false :: stack, .begun⟩
  | .mapping => some ⟨.mapping [] .member :: stack, .begun⟩
  | .openBracket => some ⟨.brackets [] .item :: stack, .begun⟩
  | .openBrace => some ⟨.braces [] .item :: stack, .begun⟩
  | .dash => if flat then some ⟨.flatSequence [] true :: stack, .begun⟩ else none
  | _ => none

/-- A token inside a sequence. -/
def sequence? (items : List Value) (awaits : Bool) (rest : List Frame) (t : Token) : Option Build :=
  let items' := if awaits then .null :: items else items
  match t with
  | .dash => some ⟨.sequence items' true :: rest, .begun⟩
  | .dedent => put? rest (.sequence items'.reverse)
  | t => if awaits then begin? (.sequence items true :: rest) false t else none

/-- The members of a mapping when the next one begins or the mapping ends: what is missing of the
last one is null. -/
def settle (pairs : List (Value × Value)) : Awaited → List (Value × Value)
  | .member => pairs
  | .key => (.null, .null) :: pairs
  | .colon k | .value k => (k, .null) :: pairs

/-- A token inside a mapping. -/
def mapping? (pairs : List (Value × Value)) (awaited : Awaited) (rest : List Frame) (t : Token) :
    Option Build :=
  match t, awaited with
  | .key, awaited => some ⟨.mapping (settle pairs awaited) .key :: rest, .begun⟩
  | .dedent, awaited => put? rest (.mapping (settle pairs awaited).reverse)
  | .colon, .member | .colon, .key => some ⟨.mapping pairs (.value .null) :: rest, .begun⟩
  | .colon, .colon k => some ⟨.mapping pairs (.value k) :: rest, .begun⟩
  | .colon, .value k => some ⟨.mapping ((k, .null) :: pairs) (.value .null) :: rest, .begun⟩
  | t, .key | t, .value _ => begin? (.mapping pairs awaited :: rest) true t
  | _, _ => none

/-- A token inside a sequence in the columns of a mapping; a token of the mapping ends it. -/
def flatSequence? (items : List Value) (awaits : Bool) (rest : List Frame) (t : Token) :
    Option Build :=
  let items' := if awaits then .null :: items else items
  match t, rest with
  | .dash, rest => some ⟨.flatSequence items' true :: rest, .begun⟩
  | .key, .mapping pairs awaited :: rest | .colon, .mapping pairs awaited :: rest
  | .dedent, .mapping pairs awaited :: rest =>
    (putMember pairs awaited (.sequence items'.reverse)).bind fun (pairs, awaited) =>
      mapping? pairs awaited rest t
  | t, rest => if awaits then begin? (.flatSequence items true :: rest) false t else none

/-- A token between brackets. -/
def brackets? (items : List Value) (separated : Separated) (rest : List Frame) (t : Token) :
    Option Build :=
  match t, separated with
  | .closeBracket, _ => put? rest (.sequence items.reverse)
  | .comma, .comma => some ⟨.brackets items .item :: rest, .begun⟩
  | .key, .item => some ⟨.pair .key :: .brackets items .item :: rest, .begun⟩
  | t, .item => begin? (.brackets items .item :: rest) false t
  | _, _ => none

/-- A token inside a single pair between brackets; a token of the brackets ends it. -/
def pair? (awaited : Awaited) (rest : List Frame) (t : Token) : Option Build :=
  match t, awaited, rest with
  | .comma, awaited, .brackets items _ :: rest | .closeBracket, awaited, .brackets items _ :: rest =>
    brackets? (.mapping (settle [] awaited) :: items) .comma rest t
  | .colon, .key, rest => some ⟨.pair (.value .null) :: rest, .begun⟩
  | .colon, .colon k, rest => some ⟨.pair (.value k) :: rest, .begun⟩
  | t, .key, rest => begin? (.pair .key :: rest) false t
  | t, .value k, rest => begin? (.pair (.value k) :: rest) false t
  | _, _, _ => none

/-- A token between braces. -/
def braces? (pairs : List (Value × Value)) (separated : Separated) (rest : List Frame) (t : Token) :
    Option Build :=
  match t, separated with
  | .closeBrace, _ => put? rest (.mapping pairs.reverse)
  | .comma, .comma => some ⟨.braces pairs .item :: rest, .begun⟩
  | .key, .item => some ⟨.bracesMember pairs .key :: rest, .begun⟩
  | .colon, .item => some ⟨.bracesMember pairs (.value .null) :: rest, .begun⟩
  | t, .item => begin? (.braces pairs .item :: rest) false t
  | _, _ => none

/-- A token inside a member between braces; a token of the braces ends it. -/
def bracesMember? (pairs : List (Value × Value)) (awaited : Awaited) (rest : List Frame)
    (t : Token) : Option Build :=
  match t, awaited with
  | .comma, awaited | .closeBrace, awaited => braces? (settle pairs awaited) .comma rest t
  | .colon, .key => some ⟨.bracesMember pairs (.value .null) :: rest, .begun⟩
  | .colon, .colon k => some ⟨.bracesMember pairs (.value k) :: rest, .begun⟩
  | t, .key | t, .value _ => begin? (.bracesMember pairs awaited :: rest) false t
  | _, _ => none

/-- A token outside collections.  A text holds one document: after it nothing but its end may
stand. -/
def outer? (o : Outer) (t : Token) : Option Build :=
  match o, t with
  | .start, .documentStart => some ⟨[], .begun⟩
  | .start, .documentEnd => some ⟨[], .start⟩
  | .begun, .documentEnd => some ⟨[], .finished .null⟩
  | .finished v, .documentEnd => some ⟨[], .finished v⟩
  | .finished _, _ => none
  | _, t => begin? [] false t

/-- Takes up a token. -/
def read? (b : Build) (t : Token) : Option Build :=
  match b.stack with
  | [] => outer? b.outer t
  | .sequence items awaits :: rest => sequence? items awaits rest t
  | .flatSequence items awaits :: rest => flatSequence? items awaits rest t
  | .mapping pairs awaited :: rest => mapping? pairs awaited rest t
  | .brackets items separated :: rest => brackets? items separated rest t
  | .pair awaited :: rest => pair? awaited rest t
  | .braces pairs separated :: rest => braces? pairs separated rest t
  | .bracesMember pairs awaited :: rest => bracesMember? pairs awaited rest t

/-- The value of the document, when the text ends. -/
def finish? (b : Build) : Option Value :=
  match b with
  | ⟨[], .finished v⟩ => some v
  | ⟨[], .begun⟩ => some .null
  | _ => none

end Build

namespace Value

/-- The value of a list of tokens. -/
def ofTokens? (ts : List Token) : Option Value := (ts.foldlM Build.read? {}).bind Build.finish?

/-- The value of the only document of a text. -/
def ofText? (s : String) : Option Value := (Token.ofChars? s.toList).bind ofTokens?

end Value

end RelaySql.Yaml
