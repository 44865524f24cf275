import RowQuery.Filter.Wire
import RowQuery.Number.Literal
import RowQuery.Query.Basic
import RowQuery.Store.Payload
import RowQuery.Text.Lowercase

/-!
# Queries from options

A query from options, which are texts or lists of texts: row filters as JSON, areas as numbers
between commas, sorts as a field and a direction, and field names between commas. Row filters come
first, then the areas, and then they are grouped if the options ask for it.
-/

set_option autoImplicit false

namespace RowQuery

/-- What the options say. An option that is missing is null; the others may be of any type, but only a
text can be read. -/
structure Options where
  search : Value
  /-- The search term must match exactly. -/
  exact : Value
  limit : Value
  offset : Value
  sort : Value
  select : Value
  /-- Row filters as JSON text. -/
  filters : Value
  /-- Latitude, longitude and radius. -/
  circle : Value
  /-- Latitude and longitude of the top left and of the bottom right corner. -/
  rect : Value
  /-- Which row filters must match: `all` or `any`. -/
  combine : Value
  includeCount : Value
  threshold : Value

namespace Options

/-- Options of which none is given. -/
def none : Options :=
  ⟨.null, .null, .null, .null, .null, .null, .null, .null, .null, .null, .null, .null⟩

/-- The text of an option that is to be cut into pieces by an operation. -/
def cutText (operation : Text) : Value → Except Failure Text
  | .octets _ => .error (.defect .textNotOctets)
  | v =>
    match v.text? with
    | some t => .ok t
    | Option.none => .error (.defect (.noAttribute v.typeName operation))

/-- The pieces of an option between commas, without the blanks around them. -/
def pieces (v : Value) : Except Failure (List Text) :=
  (cutText "split" v).map fun t => (t.split (.scalar ',')).map Text.trim

def readNumbers (option : Text) (count : Nat) (raw : Value) : Except Failure (List Value) := do
  let parts ← pieces raw
  if parts.length ≠ count then
    .error (.argument (.numberCount option count (← raw.displayed).text))
  else
    match parts.mapM Literal.binary64? with
    | some numbers => pure (numbers.map .float)
    | Option.none => .error (.argument (.notNumbers option (← raw.displayed).text))

/-- The JSON text of an option; octets must be its UTF-8 form. -/
def jsonText (raw : Value) : Except Failure Text :=
  match raw.looseText? with
  | some t => .ok t
  | Option.none => .error (.defect (.notJsonText raw.typeName))

def readFilter (raw : Value) : Except Failure RowFilter := do
  match Json.read (← jsonText raw) with
  | .error e => .error (.filter (.badText raw e))
  | .ok j => RowFilter.ofWire j.toValue

def readCircle (raw : Value) : Except Failure Circle := do
  match ← readNumbers "--circle" 3 raw with
  | [lat, lon, meters] => Circle.make lat lon meters
  | _ => .error (.argument (.numberCount "--circle" 3 []))

def readRect (raw : Value) : Except Failure Rectangle := do
  match ← readNumbers "--rect" 4 raw with
  | [a, b, c, d] => Rectangle.make a b c d
  | _ => .error (.argument (.numberCount "--rect" 4 []))

/-- The field and the direction of a sort; what follows the first colon is the direction. -/
def readSort (token : Value) : Except Failure (Text × Direction) := do
  let t ← cutText "partition" token
  let (field, written) := (t.splitFirst? (.scalar ':')).getD (t, [])
  let direction := written.lower
  if direction.isEmpty || direction = Direction.asc.wire then pure (field, .asc)
  else if direction = Direction.desc.wire then pure (field, .desc)
  else .error (.argument (.badDirection direction))

/-- The names between the commas of an option, blank ones left out. -/
def readSelect (raw : Value) : Except Failure (List Text) :=
  (pieces raw).map fun names => names.filter (!·.isEmpty)

def readCombine (mode : Value) : Except Failure Combinator :=
  if mode.equal (.ofString "all") then .ok .and
  else if mode.equal (.ofString "any") then .ok .or
  else mode.displayed >>= fun shown => .error (.argument (.badMatch shown.text))

def logger : Text := "factual_query.cli"

/-- Warns of a threshold that is not documented. -/
def noteThreshold (v : Value) : Action Store Unit :=
  if Threshold.all.any fun t => v.equal (.text t.wire) then pure ()
  else do
    let shown ← Action.displayed v
    let known := Text.join ", " (Threshold.all.map fun t => t.wire.quoted)
    Action.record [⟨.warning, logger,
      Text.ofString "Threshold '" ++ shown.text ++ Text.ofString "' is not one of [" ++ known ++
        Text.ofString "], passing it through", [], Option.none⟩]

/-- Runs an action on an option, if it is given. -/
def given (f : Value → Action Store Unit) : Value → Action Store Unit
  | .null => pure ()
  | v => f v

/-- Runs an action on an option, if it is given and not empty. -/
def filled (f : Value → Action Store Unit) (v : Value) : Action Store Unit :=
  if v.isTruthy then f v else pure ()

def each (f : Value → Action Store Unit) : Value → Action Store Unit :=
  filled fun v => do Action.forEach f (← Action.lift v.loop)

def addSearch (o : Options) : Action Store Unit :=
  given (fun v => if o.exact.isTruthy then Query.searchExact v else Query.search v) o.search

def addFilters (o : Options) : Action Store Unit :=
  each (fun raw => Action.lift (readFilter raw) >>= Store.addRowFilter) o.filters

def addAreas (o : Options) : Action Store Unit := do
  filled (fun raw => do Query.within (.circle (← Action.lift (readCircle raw)))) o.circle
  filled (fun raw => do Query.within (.rectangle (← Action.lift (readRect raw)))) o.rect

def addGroup (o : Options) : Action Store Unit :=
  given (fun mode => do
    let c ← Action.lift (readCombine mode)
    let _ ← Store.fold c []
    pure ()) o.combine

def addSorts (o : Options) : Action Store Unit :=
  each (fun token => do
    let (field, direction) ← Action.lift (readSort token)
    Query.sort direction (.text field)) o.sort

def addSelects (o : Options) : Action Store Unit :=
  each (fun raw => do
    let names ← Action.lift (readSelect raw)
    Query.only [.list (names.map .text)]) o.select

def addThreshold (o : Options) : Action Store Unit :=
  given (fun v => do
    noteThreshold v
    Query.threshold v) o.threshold

/-- Writes everything that the options ask for. -/
def apply (o : Options) : Action Store Unit := do
  addSearch o
  addFilters o
  addAreas o
  addGroup o
  addSorts o
  addSelects o
  given Query.limit o.limit
  given Query.offset o.offset
  filled (fun _ => Query.includeRowCount (.bool true)) o.includeCount
  addThreshold o

/-- The query of the options, with what building it recorded. -/
def build (o : Options) : Outcome Store Unit := o.apply (Store.empty Parameter.filters.name)

end Options

end RowQuery
