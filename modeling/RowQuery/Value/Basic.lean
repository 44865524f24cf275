import RowQuery.Number.Binary64
import RowQuery.Vocabulary

/-!
# Values and row filters

What callers may pass to the library, and what its parameters hold. A row filter is a predicate on
one field or a group of row filters; its operand is a value, and it is a value itself.
-/

set_option autoImplicit false

namespace RowQuery

/-- Why a value or a query has no text. -/
inductive RenderFailure where
  /-- JSON has no form for a value of this type. -/
  | notSerializable (type : Text)
  /-- A JSON object has no key of this type. -/
  | badKey (type : Text)
  /-- JSON has no form for NaN and the infinities. -/
  | nonFinite
  /-- An integer has more than `Literal.maxIntDigits` digits. -/
  | tooManyDigits
  /-- Lone surrogate halves have no UTF-8 form: the first of them, its place and that of the last. -/
  | unencodable (half : CodePoint) (first last : Nat)
  /-- A query that holds itself has no finite text. -/
  | endless
  deriving DecidableEq

/-- What rendering a query records: the number of its parameters and of its row filters. -/
structure Serialization where
  parameters : Nat
  rowFilters : Nat
  deriving DecidableEq

/-- A query passed as a value: its name, its text, and what finding the text records. -/
structure QueryHandle where
  name : Text
  text : Except RenderFailure Text
  serializations : List Serialization

/-- A coordinate or a length. -/
inductive Number where
  | int (n : Int)
  | float (x : Binary64)
  deriving DecidableEq

structure Circle where
  latitude : Number
  longitude : Number
  meters : Number
  deriving DecidableEq

structure Rectangle where
  topLeftLat : Number
  topLeftLon : Number
  bottomRightLat : Number
  bottomRightLon : Number
  deriving DecidableEq

mutual

inductive Value where
  | null
  | bool (b : Bool)
  | int (n : Int)
  | float (x : Binary64)
  | text (t : Text)
  | octets (bs : List UInt8)
  | list (items : List Value)
  | tuple (items : List Value)
  | set (items : List Value)
  | mapping (members : List (Value × Value))
  | word (w : Word)
  | filter (f : RowFilter)
  | circle (c : Circle)
  | rectangle (r : Rectangle)
  | query (q : QueryHandle)
  /-- A parameter store, with its keys. -/
  | store (name : Text) (keys : List Value)

inductive RowFilter where
  | field (key : Text) (operator : Option Text) (value : Value)
  | group (combinator : Combinator) (operands : List RowFilter)

end

instance : Inhabited Value := ⟨.null⟩
instance : Inhabited RowFilter := ⟨.field [] none .null⟩

namespace Number

def toValue : Number → Value
  | int n => .int n
  | float x => .float x

end Number

namespace Value

instance : Coe Text Value := ⟨text⟩

def ofString (s : String) : Value := .text (Text.ofString s)

/-- The name of a value's type, as messages give it. -/
def typeName : Value → Text
  | null => "NoneType"
  | bool _ => "bool"
  | int _ => "int"
  | float _ => "float"
  | text _ => "str"
  | octets _ => "bytes"
  | list _ => "list"
  | tuple _ => "tuple"
  | set _ => "set"
  | mapping _ => "dict"
  | word w => Text.ofString w.parts.1
  | filter (.field ..) => "FieldFilter"
  | filter (.group ..) => "FilterGroup"
  | circle _ => "Circle"
  | rectangle _ => "Rectangle"
  | query _ => "Query"
  | store .. => "ParameterStore"

/-- A word stands for its wire form; every other value for itself. -/
def normalize : Value → Value
  | word w => .text w.wire
  | v => v

/-- The text of a text or a word. -/
def text? : Value → Option Text
  | text t => some t
  | word w => some w.wire
  | _ => none

/-- Whether a condition holds for the value: zeros and empty values are false. -/
def isTruthy : Value → Bool
  | null => false
  | bool b => b
  | int n => n != 0
  | float x => !x.isZero
  | text t => !t.isEmpty
  | octets bs => !bs.isEmpty
  | list items | tuple items | set items => !items.isEmpty
  | mapping members => !members.isEmpty
  | word w => !w.wire.isEmpty
  | store _ keys => !keys.isEmpty
  | filter _ | circle _ | rectangle _ | query _ => true

def partsOfFilter : RowFilter → List (Text × Value)
  | .field key operator value =>
    [("kind", ofString "field"), ("key", .text key),
      ("operator", operator.elim .null .text), ("value", value)]
  | .group combinator operands =>
    [("kind", ofString "group"), ("combinator", .word (.combinator combinator)),
      ("operands", .tuple (operands.map .filter))]

/-- The elements that a loop over the value visits, where it can be looped over: code points of a
text, octets, elements, keys of a mapping, and the named parts of a row filter as pairs. -/
def elements? : Value → Option (List Value)
  | text t => some (t.map fun c => .text [c])
  | word w => some (w.wire.map fun c => .text [c])
  | octets bs => some (bs.map fun b => .int b.toNat)
  | list items | tuple items | set items => some items
  | mapping members => some (members.map Prod.fst)
  | filter f => some ((partsOfFilter f).map fun p => .tuple [.text p.1, p.2])
  | store _ keys => some keys
  | null | bool _ | int _ | float _ | circle _ | rectangle _ | query _ => none

mutual

/-- Whether no NaN and no infinity occurs in the value: at the top, or at any depth inside lists,
tuples and the values of mappings. Sets and keys are not looked into. -/
def isFinite : Value → Bool
  | float x => x.isFinite
  | list items | tuple items => allFinite items
  | mapping members => allMembersFinite members
  | _ => true

def allFinite : List Value → Bool
  | [] => true
  | v :: vs => v.isFinite && allFinite vs

def allMembersFinite : List (Value × Value) → Bool
  | [] => true
  | (_, v) :: ms => v.isFinite && allMembersFinite ms

end

end Value

end RowQuery
