import RowQuery.Store.Rendering

/-!
# Entries from any values

Rendering where the parts of an entry are values of any type: what cannot be looped over is no comma
list, and what is no row filter has no wire form.
-/

set_option autoImplicit false

namespace RowQuery

namespace Value

/-- The elements that a loop over a value visits. -/
def loop (v : Value) : Except Failure (List Value) :=
  match v.elements? with
  | some vs => .ok vs
  | none => .error (.defect (.notIterable v.typeName))

/-- The row filter that a value is, where a named part of it is asked for. -/
def asRowFilter (part : Text) : Value → Except Failure RowFilter
  | filter f => .ok f
  | v => .error (.defect (.noAttribute v.typeName part))

def toWire (v : Value) : Except Failure Value := (v.asRowFilter "to_wire").map RowFilter.toWire

def renderCommaList (v : Value) : Except Failure Text := do
  let vs ← v.loop
  (RowQuery.renderCommaList vs).mapError fun f => .defect (.unrenderable f)

def toWires (v : Value) : Except Failure (List Value) := do
  let vs ← v.loop
  vs.mapM toWire

def filterKind (v : Value) : Except Failure Text := do
  match ← v.asRowFilter "kind" with
  | .field .. => pure "field"
  | .group .. => pure "group"

end Value

namespace Entry

/-- The text of an entry of a named kind with any content. -/
def renderContent (kind content : Value) : Except Failure Text :=
  let named (k : EntryKind) : Bool := kind.text? = some k.name
  if named .scalar then content.render.mapError fun f => .defect (.unrenderable f)
  else if named .commaList then content.renderCommaList
  else if named .rowFilters then do
    let wires ← content.toWires
    (Value.list wires).toJsonText.mapError fun f => .defect (.unrenderable f)
  else do .error (.defect (.unknownEntry (← kind.inspected)))

end Entry

end RowQuery
