import RowQuery.Number.Literal
import RowQuery.Number.Notation
import RowQuery.Text.Quoted
import RowQuery.Value.Basic

/-!
# Text of values

Two texts belong to a value. Messages inspect a value: texts are quoted and words are named.
Parameters and labels display it: a text stands for itself. Containers display as they are
inspected. A value that holds a query shows the text of the query, which may not exist.
-/

set_option autoImplicit false

namespace RowQuery

/-- The digits of an integer, if there are not too many of them. -/
def intText (n : Int) : Except RenderFailure Text :=
  if Literal.maxIntDigits < Decimal.length n.natAbs then .error .tooManyDigits
  else .ok (Text.ofInt n)

namespace Number

def inspect : Number → Except RenderFailure Text
  | int n => intText n
  | float x => .ok x.toText

end Number

/-- Named parts of a shape, in order. -/
def shapeText (name : Text) (parts : List (String × Number)) : Except RenderFailure Text := do
  let shown ← parts.mapM fun p => do
    let t ← p.2.inspect
    pure (Text.ofString p.1 ++ [.scalar '='] ++ t)
  pure (name ++ [.scalar '('] ++ Text.join ", " shown ++ [.scalar ')'])

def Circle.inspect (c : Circle) : Except RenderFailure Text :=
  shapeText "Circle"
    [("latitude", c.latitude), ("longitude", c.longitude), ("meters", c.meters)]

def Rectangle.inspect (r : Rectangle) : Except RenderFailure Text :=
  shapeText "Rectangle"
    [("top_left_lat", r.topLeftLat), ("top_left_lon", r.topLeftLon),
      ("bottom_right_lat", r.bottomRightLat), ("bottom_right_lon", r.bottomRightLon)]

def Word.inspect (w : Word) : Text :=
  [.scalar '<'] ++ w.qualifiedName ++ Text.ofString ": " ++ w.wire.quoted ++ [.scalar '>']

namespace QueryHandle

def inspect (q : QueryHandle) : Except RenderFailure Text :=
  q.text.map fun t => Text.ofString "Query(" ++ t.quoted ++ [.scalar ')']

end QueryHandle

namespace Value

/-- The elements of a tuple; one element alone is followed by a comma. -/
def tupleText (shown : List Text) : Text :=
  match shown with
  | [t] => [.scalar '('] ++ t ++ Text.ofString ",)"
  | ts => [.scalar '('] ++ Text.join ", " ts ++ [.scalar ')']

/-- The elements of a set; the empty set is spelt out, since empty braces are the empty mapping. -/
def setText (shown : List Text) : Text :=
  if shown.isEmpty then Text.ofString "set()"
  else [.scalar '{'] ++ Text.join ", " shown ++ [.scalar '}']

def partsText (named : Text × List Text) : Text :=
  named.1 ++ [.scalar '('] ++ Text.join ", " named.2 ++ [.scalar ')']

mutual

def inspect : Value → Except RenderFailure Text
  | null => .ok "None"
  | bool b => .ok (if b then "True" else "False")
  | int n => intText n
  | float x => .ok x.toText
  | text t => .ok t.quoted
  | octets bs => .ok (Text.quotedOctets bs)
  | list items => do
    let shown ← inspectAll items
    pure ([.scalar '['] ++ Text.join ", " shown ++ [.scalar ']'])
  | tuple items => do pure (tupleText (← inspectAll items))
  | set items => do pure (setText (← inspectAll items))
  | mapping members => do
    let shown ← inspectMembers members
    pure ([.scalar '{'] ++ Text.join ", " shown ++ [.scalar '}'])
  | word w => .ok w.inspect
  | filter f => (filterParts f).map partsText
  | circle c => c.inspect
  | rectangle r => r.inspect
  | query q => q.inspect
  | store name _ => .ok (Text.ofString "<ParameterStore " ++ name ++ [.scalar '>'])

def inspectAll : List Value → Except RenderFailure (List Text)
  | [] => .ok []
  | v :: vs => do
    let t ← inspect v
    pure (t :: (← inspectAll vs))

def inspectMembers : List (Value × Value) → Except RenderFailure (List Text)
  | [] => .ok []
  | (k, v) :: ms => do
    let kt ← inspect k
    let vt ← inspect v
    pure ((kt ++ Text.ofString ": " ++ vt) :: (← inspectMembers ms))

/-- The name of a row filter's type, and its parts as named values. -/
def filterParts : RowFilter → Except RenderFailure (Text × List Text)
  | .field key operator value => do
    let shown ← inspect value
    let op : Text := operator.elim "None" Text.quoted
    pure ("FieldFilter",
      [Text.ofString "kind='field'", Text.ofString "key=" ++ key.quoted,
        Text.ofString "operator=" ++ op, Text.ofString "value=" ++ shown])
  | .group combinator operands => do
    let shown ← inspectFilters operands
    pure ("FilterGroup",
      [Text.ofString "kind='group'",
        Text.ofString "combinator=" ++ (Word.combinator combinator).inspect,
        Text.ofString "operands=" ++ tupleText shown])

def inspectFilters : List RowFilter → Except RenderFailure (List Text)
  | [] => .ok []
  | f :: fs => do
    let named ← filterParts f
    pure (partsText named :: (← inspectFilters fs))

end

/-- The text of a value as part of a parameter or a label. -/
def display : Value → Except RenderFailure Text
  | text t => .ok t
  | word w => .ok w.qualifiedName
  | filter f => do pure (Text.join " " (← filterParts f).2)
  | v => inspect v

mutual

/-- The queries that inspecting a value shows, in the order in which they are shown. -/
def shownQueries : Value → List QueryHandle
  | query q => [q]
  | list items | tuple items | set items => shownQueriesIn items
  | mapping members => shownQueriesInMembers members
  | filter f => shownQueriesOfFilter f
  | _ => []

def shownQueriesIn : List Value → List QueryHandle
  | [] => []
  | v :: vs => shownQueries v ++ shownQueriesIn vs

def shownQueriesInMembers : List (Value × Value) → List QueryHandle
  | [] => []
  | (k, v) :: ms => shownQueries k ++ shownQueries v ++ shownQueriesInMembers ms

def shownQueriesOfFilter : RowFilter → List QueryHandle
  | .field _ _ v => shownQueries v
  | .group _ fs => shownQueriesOfFilters fs

def shownQueriesOfFilters : List RowFilter → List QueryHandle
  | [] => []
  | f :: fs => shownQueriesOfFilter f ++ shownQueriesOfFilters fs

end

/-- What showing a value records, up to the first query that has no text. -/
def serializations (v : Value) : List Serialization :=
  let shown := v.shownQueries
  let textual (q : QueryHandle) : Bool := match q.text with
    | .ok _ => true
    | .error _ => false
  let before := shown.takeWhile textual
  (before ++ (shown.drop before.length).take 1).flatMap (·.serializations)

end Value

end RowQuery
