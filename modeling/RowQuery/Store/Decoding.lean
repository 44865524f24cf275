import RowQuery.Failure
import RowQuery.Json.Reader
import RowQuery.Url.Form
import RowQuery.Value.Equality

/-!
# Decoding query strings

A query string is read back into its parameters. The parameter under the row filter key is JSON data
and must be an array; every other one is a text. A repeated parameter keeps its first place and its
last value, and a bad row filter parameter is a failure even where a later one would replace it.
-/

set_option autoImplicit false

namespace RowQuery

abbrev Parameters := List (Text × Value)

namespace Parameters

def insert (ps : Parameters) (key : Text) (v : Value) : Parameters :=
  match ps with
  | [] => [(key, v)]
  | (k, w) :: ps => if k = key then (k, v) :: ps else (k, w) :: insert ps key v

def toValue (ps : Parameters) : Value := .mapping (ps.map fun p => (.text p.1, p.2))

/-- The value of the row filter parameter. -/
def readFilters (key raw : Text) : Except Failure Value :=
  match Json.read raw with
  | .error e => .error (.filter (.badParameter key raw e))
  | .ok (.array items) => .ok (Json.array items).toValue
  | .ok j => .error (.filter (.notArray key j.toValue))

/-- Adds one field of a query string. -/
def addField (filtersKey : Value) (ps : Parameters) (field : Text × Text) :
    Except Failure Parameters :=
  if (Value.text field.1).equal filtersKey then
    (readFilters field.1 field.2).map (ps.insert field.1)
  else .ok (ps.insert field.1 (.text field.2))

def decode (t : Text) (filtersKey : Value) : Except Failure Parameters :=
  (Form.decode t).foldlM (addField filtersKey) []

/-- The parameters of a value that must be a query string. -/
def decodeValue (v filtersKey : Value) : Except Failure Parameters :=
  match v with
  | .octets _ => .error (.defect .textNotOctets)
  | v =>
    match v.text? with
    | some t => decode t filtersKey
    | none => .error (.defect (.noAttribute v.typeName "lstrip"))

end Parameters

end RowQuery
