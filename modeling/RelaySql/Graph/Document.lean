import RelaySql.Graph.Selection

/-!
# Graph — documents

A document is a selection as it is written: with variables inside argument values and with spreads
of named fragments.  `Document.expand` replaces both.  Fragments are expanded in rounds, each round
with the spreads of the round before, and as many rounds as there are fragments reach the end of
every chain of spreads.
-/

namespace RelaySql

/-- An argument value as it is written. -/
inductive WrittenValue where
  | value (v : Input)
  | reference (name : String)
  | list (items : List WrittenValue)
  | object (members : List (String × WrittenValue))
deriving Inhabited

/-- A selection as it is written. -/
inductive WrittenSelection where
  | field (name : String) (key : Option String) (arguments : List (String × WrittenValue))
      (selections : List WrittenSelection)
  | inline (on : Option String) (selections : List WrittenSelection)
  | spread (fragment : String)
deriving Inhabited

/-- A named fragment. -/
structure Fragment where
  on : Option String
  selections : List WrittenSelection

/-- A variable with the value it has by default and the value a request supplies. -/
structure Variable where
  default : Option Input := none
  supplied : Option Input := none

/-- A request as it is written. -/
structure Document where
  selections : List WrittenSelection
  fragments : Fields Fragment := []
  /-- The variables by name. -/
  bindings : Fields Variable := []

/-- The value of a variable: supplied, or else by default, or else null. -/
def Variable.value (v : Variable) : Input := (v.supplied <|> v.default).getD .null

namespace WrittenValue

mutual

/-- The value with its variables replaced; an unknown variable is null. -/
def fill (bindings : Fields Variable) : WrittenValue → Input
  | value v => v
  | reference name => ((Fields.get? bindings name).map Variable.value).getD .null
  | list items => .list (fillItems bindings items)
  | object members => .object (fillMembers bindings members)

def fillItems (bindings : Fields Variable) : List WrittenValue → List Input
  | [] => []
  | v :: r => v.fill bindings :: fillItems bindings r

def fillMembers (bindings : Fields Variable) :
    List (String × WrittenValue) → List (String × Input)
  | [] => []
  | (n, v) :: r => (n, v.fill bindings) :: fillMembers bindings r

end

end WrittenValue

namespace WrittenSelection

mutual

/-- The selection with its variables replaced, and its spreads by what `spreads` has for them. -/
def fill (bindings : Fields Variable) (spreads : Fields Selection) :
    WrittenSelection → List Selection
  | field name key arguments selections =>
    [.field (key.getD name) name (WrittenValue.fillMembers bindings arguments)
      (fillAll bindings spreads selections)]
  | inline on selections => [.fragment on (fillAll bindings spreads selections)]
  | spread fragment => (spreads.get? fragment).toList

def fillAll (bindings : Fields Variable) (spreads : Fields Selection) :
    List WrittenSelection → List Selection
  | [] => []
  | s :: r => s.fill bindings spreads ++ fillAll bindings spreads r

end

end WrittenSelection

namespace Document

/-- The fragments with their spreads expanded this many times. -/
def spreads (d : Document) : (rounds : Nat) → Fields Selection
  | 0 => []
  | n + 1 => d.fragments.mapValues fun f =>
      .fragment f.on (WrittenSelection.fillAll d.bindings (d.spreads n) f.selections)

/-- The selection of a document. -/
def expand (d : Document) : List Selection :=
  WrittenSelection.fillAll d.bindings (d.spreads d.fragments.length) d.selections

end Document

end RelaySql
