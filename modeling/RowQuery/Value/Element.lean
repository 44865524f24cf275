import RowQuery.Failure
import RowQuery.Value.Key

/-!
# Elements of values

The length of a value and its element at a place, for the types that have them.
-/

set_option autoImplicit false

namespace RowQuery.Value

def length : Value → Except Failure Nat
  | text t => .ok t.length
  | word w => .ok w.wire.length
  | octets bs => .ok bs.length
  | list items | tuple items | set items => .ok items.length
  | mapping members => .ok members.length
  | store _ keys => .ok keys.length
  | v => .error (.defect (.noLength v.typeName))

/-- The element of a list at a place, where messages call the list a `container`. -/
def elementOf {α : Type} (container : Text) (items : List α) (place : Nat) : Except Failure α :=
  match items[place]? with
  | some item => .ok item
  | none => .error (.defect (.noElement container))

/-- The element at a place. A mapping is asked for the member whose key is the number of the place. -/
def element (v : Value) (place : Nat) : Except Failure Value :=
  match v with
  | text t => (elementOf "string" t place).map fun c => text [c]
  | word w => (elementOf "string" w.wire place).map fun c => text [c]
  | octets bs => (elementOf [] bs place).map fun b => int b.toNat
  | list items => elementOf "list" items place
  | tuple items => elementOf "tuple" items place
  | mapping members =>
    match lookup? members (int place) with
    | some item => .ok item
    | none => .error (.defect (.missingNumber place))
  | v => .error (.defect (.noElements v.typeName))

end RowQuery.Value
