import RowQuery.Value.Inspect

/-!
# JSON data

JSON data and the values it stands for. Numbers are integers of any size or double precision
numbers, for which JSON text here also has words for NaN and the infinities. An object keeps its
members in order.
-/

set_option autoImplicit false

namespace RowQuery

inductive Json where
  | null
  | bool (b : Bool)
  | int (n : Int)
  | float (x : Binary64)
  | text (t : Text)
  | array (items : List Json)
  | object (members : List (Text × Json))

namespace Json

instance : Inhabited Json := ⟨null⟩

mutual

/-- The value that JSON data stands for. -/
def toValue : Json → Value
  | null => .null
  | bool b => .bool b
  | int n => .int n
  | float x => .float x
  | text t => .text t
  | array items => .list (toValues items)
  | object members => .mapping (toMembers members)

def toValues : List Json → List Value
  | [] => []
  | j :: js => toValue j :: toValues js

def toMembers : List (Text × Json) → List (Value × Value)
  | [] => []
  | (k, j) :: ms => (.text k, toValue j) :: toMembers ms

end

/-- Which values have a JSON form beyond those that JSON data stands for. -/
structure Leniency where
  /-- NaN and the infinities have one. -/
  nonFinite : Bool
  /-- A value of a type that JSON lacks stands as the text that displays it. -/
  displayed : Bool

/-- Wire data: NaN, the infinities and foreign types are refused. -/
def strict : Leniency := ⟨false, false⟩

def floatText (x : Binary64) : Text :=
  match x with
  | .undefined _ => "NaN"
  | .infinite negative => Binary64.minus negative ++ Text.ofString "Infinity"
  | _ => x.toText

/-- The text that stands for a key. Constants and numbers may be keys, under their JSON text. -/
def keyText (rules : Leniency) : Value → Except RenderFailure Text
  | .text t => .ok t
  | .word w => .ok w.wire
  | .null => .ok "null"
  | .bool b => .ok (if b then "true" else "false")
  | .int n => intText n
  | .float x => if rules.nonFinite || x.isFinite then .ok (floatText x) else .error .nonFinite
  | v => .error (.badKey v.typeName)

mutual

/-- The JSON data of a value. Tuples become arrays and words their wire form. The failure is the
first one on the way through the value. -/
def ofValue (rules : Leniency) : Value → Except RenderFailure Json
  | .null => .ok null
  | .bool b => .ok (bool b)
  | .int n => do
    let _ ← intText n
    pure (int n)
  | .float x => if rules.nonFinite || x.isFinite then .ok (float x) else .error .nonFinite
  | .text t => .ok (text t)
  | .word w => .ok (text w.wire)
  | .list items | .tuple items => do pure (array (← ofValues rules items))
  | .mapping members => do pure (object (← ofMembers rules members))
  | v => if rules.displayed then v.display.map text else .error (.notSerializable v.typeName)

def ofValues (rules : Leniency) : List Value → Except RenderFailure (List Json)
  | [] => .ok []
  | v :: vs => do
    let j ← ofValue rules v
    pure (j :: (← ofValues rules vs))

def ofMembers (rules : Leniency) : List (Value × Value) → Except RenderFailure (List (Text × Json))
  | [] => .ok []
  | (k, v) :: ms => do
    let t ← keyText rules k
    let j ← ofValue rules v
    pure ((t, j) :: (← ofMembers rules ms))

end

/-- Adds a member to an object; a repeated key keeps its place and takes the new data. -/
def insertMember (members : List (Text × Json)) (key : Text) (j : Json) : List (Text × Json) :=
  match members with
  | [] => [(key, j)]
  | (k, i) :: ms => if k = key then (k, j) :: ms else (k, i) :: insertMember ms key j

end Json

end RowQuery
