import RowQuery.Geo
import RowQuery.Store.Rendering

/-!
# Building queries

A query is a store whose row filters stand under their default key. Each method checks its arguments
and writes to the store. Methods that take several values also take one value that can be looped over.
-/

set_option autoImplicit false

namespace RowQuery.Query

/-- The values that the arguments of a call stand for: one argument that can be looped over stands
for its elements. Texts, octets and queries stand for themselves. -/
def flatten : List Value → List Value
  | [v] =>
    match v with
    | .text _ | .word _ | .octets _ | .query _ => [v]
    | v => v.elements?.getD [v]
  | vs => vs

def setParameter (p : Parameter) (v : Value) : Action Store Unit := Store.set (.text p.name) v

def appendParameter (p : Parameter) (v : Value) : Action Store Unit := Store.append (.text p.name) v

/-- The whole number that a value is; double precision numbers are accepted where they are whole. -/
def wholeNumber (name : Text) : Value → Action Store Int
  | .int n => pure n
  | v@(.float x) =>
    match x.toInt? with
    | some n => pure n
    | none => Action.refuse v (.notWhole name)
  | v => Action.refuse v (.notInteger name)

def limit (v : Value) : Action Store Unit := do
  setParameter .limit (.int (← wholeNumber "limit" v))

def offset (v : Value) : Action Store Unit := do
  setParameter .offset (.int (← wholeNumber "offset" v))

def search (term : Value) : Action Store Unit := setParameter .search term

/-- A search for the exact term, which is put between double quotes. -/
def searchExact (term : Value) : Action Store Unit := do
  let shown ← Action.displayed term
  setParameter .search (.text (.scalar '"' :: shown.text ++ [.scalar '"']))

/-- Restricts the rows to an area. -/
def within (shape : Value) : Action Store Unit :=
  match shape.shapeFilter? with
  | some f => Store.addRowFilter f
  | none => Action.fail (.argument (.notShape shape.typeName))

/-- What a sort by one field is called on the wire. -/
def sortToken (field : Text) (direction : Direction) : Text :=
  field ++ .scalar ':' :: direction.wire

/-- Sorts by a field, after the sorts that were added before. -/
def sort (direction : Direction) (field : Value) : Action Store Unit := do
  let shown ← Action.displayed field
  appendParameter .sort (.text (sortToken shown.text direction))

/-- Checks the weight of a blended sort: a finite number. -/
def checkWeight (name : Text) (v : Value) : Action Store Unit :=
  match v with
  | .int _ => pure ()
  | .float x => if x.isFinite then pure () else Action.refuse v (.badWeight name)
  | v => Action.refuse v (.badWeight name)

/-- What a blended sort is called on the wire: a JSON object of the two weights. -/
def blendToken (rank distance : Text) : Text :=
  Text.ofString "\x7b\"placerank\":" ++ rank ++ Text.ofString ",\"distance\":" ++ distance ++
    Text.ofString "\x7d"

def renderWeight (v : Value) : Action Store Text :=
  Action.lift (v.render.mapError fun f => .defect (.unrenderable f))

/-- Sorts by place rank and distance together. -/
def sortBlend (rank distance : Value) : Action Store Unit := do
  checkWeight "rank_weight" rank
  checkWeight "distance_weight" distance
  let r ← renderWeight rank
  let d ← renderWeight distance
  appendParameter .sort (.text (blendToken r d))

def only (fields : List Value) : Action Store Unit :=
  Action.forEach (appendParameter .select) (flatten fields)

/-- Asks for the number of all matching rows, or not. -/
def includeRowCount (wanted : Value) : Action Store Unit :=
  setParameter .includeCount (.bool wanted.isTruthy)

/-- Chooses an existence threshold, documented or not. -/
def threshold (v : Value) : Action Store Unit := setParameter .threshold v

def addPredicate (key : Value) (operator : Operator) (operand : Value) : Action Store Unit :=
  if !operand.isFinite then
    Store.refuse key operand fun k v => .nonFiniteOperand k v operator
  else do
    let f ← Action.lift (RowFilter.makeField
      [(.ofString "key", key), (.ofString "operator", .word (.operator operator)),
        (.ofString "value", operand)])
    Store.addRowFilter f

/-- The names of the queries that a fold reads. -/
def sourceNames : List Value → Except Failure (List Text)
  | [] => .ok []
  | .query q :: vs => (sourceNames vs).map (q.name :: ·)
  | v :: _ => .error (.argument (.notQuery v.typeName))

end RowQuery.Query
