import RowQuery.Failure
import RowQuery.Value.Key

/-!
# Making mappings and sets

Mappings and sets from listed members. A member whose key is no key is a failure; of a repeated key
the last value counts.
-/

set_option autoImplicit false

namespace RowQuery.Value

/-- Fails unless the value is a key. -/
def checkKey (v : Value) : Except Failure Unit :=
  match v.key with
  | .ok _ => .ok ()
  | .error type => .error (.defect (.unhashable type))

def makeMapping (members : List (Value × Value)) : Except Failure Value := do
  let kept ← members.foldlM (fun kept m => do
    checkKey m.1
    pure (insertMember kept m.1 m.2)) []
  pure (mapping kept)

def makeSet (items : List Value) : Except Failure Value := do
  let kept ← items.foldlM (fun kept v => do
    checkKey v
    pure (insertMember kept v null)) []
  pure (set (kept.map Prod.fst))

end RowQuery.Value
