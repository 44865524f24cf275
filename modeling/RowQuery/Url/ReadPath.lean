import RowQuery.Settings
import RowQuery.Store.Rendering

/-!
# Read paths and URLs

The path of a read request names a table and carries the query string; a URL puts the path behind a
base URL. Table and base URL come from the settings where none is given.
-/

set_option autoImplicit false

namespace RowQuery.ReadPath

def encodeTable : Value → Except Failure Text
  | .octets bs => .ok (Text.ofChars (Percent.encodeOctets bs))
  | v =>
    match v.text? with
    | some t => (Percent.encode t).mapError fun f => .defect (.unrenderable f)
    | none => .error (.defect .notText)

/-- The path of an encoded table with a query string. -/
def join (table queryString : Text) : Text :=
  Text.ofString "t/" ++ table ++
    if queryString.isEmpty then [] else .scalar '?' :: queryString

def path (table : Value) : Action Store Text := do
  if !table.isTruthy then Action.fail (.argument .emptyTable)
  else
    let encoded ← Action.lift (encodeTable table)
    let queryString ← Store.rendered
    pure (join encoded queryString)

/-- A base URL without the slashes at its end. -/
def trimBase (t : Text) : Text := t.dropEndWhile (· = .scalar '/')

def checkBase : Value → Except Failure Text
  | .octets _ => .error (.defect .textNotOctets)
  | v =>
    match v.text? with
    | some t => .ok (trimBase t)
    | none => .error (.defect (.noAttribute v.typeName "rstrip"))

/-- A value, or a text in place of a value that is empty or missing. -/
def orElse (v : Value) (other : Text) : Value := if v.isTruthy then v else .text other

def url (settings : Settings) (table base : Value) : Action Store Text := do
  let base ← Action.lift (checkBase (orElse base settings.baseUrl))
  let p ← path (orElse table settings.defaultTable)
  pure (base ++ .scalar '/' :: p)

end RowQuery.ReadPath
