import RowQuery.Value.Key

/-!
# Equality of values

Values are compared as quantities and contents: whole numbers equal the booleans and the double
precision numbers of the same quantity, and a word equals its wire form. Lists differ from tuples,
and the order of a mapping does not count. A NaN that is a part of both values does not keep them from
being equal.
-/

set_option autoImplicit false

namespace RowQuery.Value

/-- A quantity, for the types that compare as numbers. -/
inductive Quantity where
  | whole (n : Int)
  | double (x : Binary64)

def quantity? : Value → Option Quantity
  | bool b => some (.whole (if b then 1 else 0))
  | int n => some (.whole n)
  | float x => some (.double x)
  | _ => none

def sameQuantity : Quantity → Quantity → Bool
  | .whole a, .whole b => a == b
  | .whole a, .double y => y.toInt? == some a
  | .double x, .whole b => x.toInt? == some b
  | .double x, .double y => x.sameQuantity y

/-- Equality of values without parts. -/
def sameAtom (a b : Value) : Bool :=
  match a.quantity?, b.quantity? with
  | some p, some q => sameQuantity p q
  | _, _ =>
    match a.text?, b.text? with
    | some s, some t => s == t
    | _, _ => a.sameKey b

/-- Whether two parts of values are one NaN. -/
def isSameObject : Value → Value → Bool
  | float x, float y => x.isSameObject y
  | _, _ => false

mutual

def equal : Value → Value → Bool
  | list xs, list ys => equalAll xs ys
  | tuple xs, tuple ys => equalAll xs ys
  | set xs, set ys => xs.length == ys.length && xs.all fun x => ys.any x.sameKey
  | mapping xs, mapping ys => xs.length == ys.length && submapping xs ys
  | filter f, filter g => equalFilter f g
  | a, b => sameAtom a b

def equalAll : List Value → List Value → Bool
  | [], [] => true
  | x :: xs, y :: ys => (isSameObject x y || equal x y) && equalAll xs ys
  | _, _ => false

/-- Every key stands in the other mapping, with an equal value. -/
def submapping : List (Value × Value) → List (Value × Value) → Bool
  | [], _ => true
  | (k, v) :: ms, ns => (lookup? ns k).any (fun w => isSameObject v w || equal v w) && submapping ms ns

def equalFilter : RowFilter → RowFilter → Bool
  | .field k o v, .field l p w => k == l && o == p && (isSameObject v w || equal v w)
  | .group c fs, .group d gs => c == d && equalFilters fs gs
  | _, _ => false

def equalFilters : List RowFilter → List RowFilter → Bool
  | [], [] => true
  | f :: fs, g :: gs => equalFilter f g && equalFilters fs gs
  | _, _ => false

end

end RowQuery.Value
