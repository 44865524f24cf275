import RowQuery.Filter.Checked

/-!
# Wire form of row filters

On the wire a predicate is a mapping from its field to the operand, or to a mapping from the operator
to the operand; a group is a mapping from its combinator to the list of its operands. There are no
tags, so the reader goes by the shape: a combinator as the key makes a group, and a key that starts
with a dollar sign makes an operator.
-/

set_option autoImplicit false

namespace RowQuery.RowFilter

def single (key : Text) (v : Value) : Value := .mapping [(.text key, v)]

mutual

def toWire : RowFilter → Value
  | field key none value => single key value
  | field key (some operator) value => single key (single operator value)
  | group combinator operands => single combinator.wire (.list (toWires operands))

def toWires : List RowFilter → List Value
  | [] => []
  | f :: fs => f.toWire :: toWires fs

end

def notSingleKey (data : Value) : Except Failure RowFilter := do
  .error (.filter (.notSingleKey (← data.inspected)))

def isOperator : Value → Except Failure Bool
  | .text t => .ok (t.startsWith [.scalar '$'])
  | .word w => .ok (w.wire.startsWith [.scalar '$'])
  | .octets _ => .error (.defect .prefixNotOctets)
  | v => .error (.defect (.noAttribute v.typeName "startswith"))

/-- A predicate from the key and the data of a wire mapping. The key must be a text; the words and
the octets that stand for one are accepted. -/
def fieldOfWire (key : Value) (operator : Option Value) (operand : Value) : Except Failure RowFilter :=
  makeField ((.ofString "key", key) :: (.ofString "value", operand) ::
    (operator.map fun o => (.ofString "operator", o)).toList)

/-- A predicate: data with one key that is an operator is split at it. -/
def predicateOfWire (key value : Value) : Except Failure RowFilter :=
  match value with
  | .mapping [(operator, operand)] => do
    if ← isOperator operator then fieldOfWire key (some operator) operand
    else fieldOfWire key none value
  | _ => fieldOfWire key none value

/-- The combinator that a key of a wire mapping is, as a text or as the word itself. -/
def combinator? (key : Value) : Option Combinator := key.text?.bind Combinator.ofWire?

mutual

/-- The row filter of a wire form. -/
def ofWire (data : Value) : Except Failure RowFilter :=
  match data with
  | .mapping members => ofMembers data members
  | _ => notSingleKey data

/-- The row filter of the members of a wire mapping, which is `data` as a whole. -/
def ofMembers (data : Value) : List (Value × Value) → Except Failure RowFilter
  | [(key, value)] =>
    if !value.isFinite then do .error (.filter (.nonFinite (← data.inspected)))
    else match combinator? key with
      | some combinator => (ofOperands data key value).map (group combinator)
      | none => predicateOfWire key value
  | _ => notSingleKey data

/-- The operands of a group: a list with at least one element. -/
def ofOperands (data key operands : Value) : Except Failure (List RowFilter) :=
  match operands with
  | .list (item :: items) => do
    let f ← ofWire item
    pure (f :: (← ofWires items))
  | _ => do .error (.filter (.badOperands (← key.displayed) (← operands.inspected) data))

def ofWires : List Value → Except Failure (List RowFilter)
  | [] => .ok []
  | item :: items => do
    let f ← ofWire item
    pure (f :: (← ofWires items))

end

end RowQuery.RowFilter
