import RowQuery.Command.Arguments
import RowQuery.Command.Markup
import RowQuery.Log.Root
import RowQuery.Log.Timed
import RowQuery.Options
import RowQuery.Store.Decoding
import RowQuery.Text.Controls
import RowQuery.Url.ReadPath

/-!
# The command line

Two commands: one builds a query from options and prints its query string, its URL or its parameters;
the other one decodes a query string. The library's own errors are shown and logged; every other
error ends the program.
-/

set_option autoImplicit false

namespace RowQuery.Command

inductive Shown where
  | markup (t : Text)
  | table (title : Text) (columns : List Text) (rows : List (List Text))

/-- Where lines are printed. -/
structure Stream where
  /-- A terminal gets control sequences as they are. -/
  terminal : Bool
  /-- The failure of a text that the stream does not take, as when its encoding lacks a character. -/
  refusal : Text → Option Failure

namespace Stream

/-- What is printed for a text: on no terminal, without control sequences. -/
def shown (stream : Stream) (t : Text) : Text := if stream.terminal then t else t.dropControls

/-- A stream in UTF-8 that is no terminal. It takes no lone surrogate halves. -/
def utf8 : Stream where
  terminal := false
  refusal t :=
    match Percent.characters t with
    | .ok _ => none
    | .error f => some (.defect (.unrenderable f))

end Stream

structure Printed where
  console : List Shown
  output : Text
  root : Root

structure Report where
  exitCode : Nat
  console : List Shown
  /-- What was printed; nothing is said of it when the arguments were wrong. -/
  output : Option Text
  /-- An error that ended the program. -/
  escaped : Option Failure
  events : List Event

/-- The options before the command. -/
inductive CommonOption where
  | logLevel | logFormat
  deriving DecidableEq

inductive BuildOption where
  | search | exact | limit | offset | sort | select | filter | circle | rect | combine | includeCount
  | threshold | table | url | json
  deriving DecidableEq

def commonSpecs : List (Arguments.Spec CommonOption) :=
  [⟨.logLevel, "--log-level", none, true⟩, ⟨.logFormat, "--log-format", none, true⟩]

def jsonSpec : Arguments.Spec BuildOption := ⟨.json, "--json", none, false⟩

def buildSpecs : List (Arguments.Spec BuildOption) :=
  [⟨.search, "--search", some 'q', true⟩, ⟨.exact, "--exact", none, false⟩,
    ⟨.limit, "--limit", some 'l', true⟩, ⟨.offset, "--offset", none, true⟩,
    ⟨.sort, "--sort", some 's', true⟩, ⟨.select, "--select", none, true⟩,
    ⟨.filter, "--filter", some 'f', true⟩, ⟨.circle, "--circle", none, true⟩,
    ⟨.rect, "--rect", none, true⟩, ⟨.combine, "--match", some 'm', true⟩,
    ⟨.includeCount, "--include-count", none, false⟩, ⟨.threshold, "--threshold", none, true⟩,
    ⟨.table, "--table", some 't', true⟩, ⟨.url, "--url", none, false⟩, jsonSpec]

inductive Form where
  | queryString | url | json
  deriving DecidableEq

inductive Request where
  | build (options : Options) (table : Option Text) (form : Form)
  | decode (queryString : Text) (json : Bool)

def readBuild (args : List Text) : Option Request := do
  let p ← Arguments.read buildSpecs true args
  if !p.operands.isEmpty then none
  let limit ← p.int? .limit
  let offset ← p.int? .offset
  let options : Options :=
    { search := p.textValue .search, exact := .bool (p.has .exact)
      limit := limit.elim .null .int, offset := offset.elim .null .int
      sort := p.textValues .sort, select := p.textValues .select, filters := p.textValues .filter
      circle := p.textValue .circle, rect := p.textValue .rect, combine := p.textValue .combine
      includeCount := .bool (p.has .includeCount), threshold := p.textValue .threshold }
  let form := if p.has .json then Form.json else if p.has .url then .url else .queryString
  some (.build options (p.last? .table) form)

def readDecode (args : List Text) : Option Request := do
  let p ← Arguments.read [jsonSpec] true args
  match p.operands with
  | [queryString] => some (.decode queryString (p.has .json))
  | _ => none

def reader? (name : Text) : Option (List Text → Option Request) :=
  if name = Text.ofString "build" then some readBuild
  else if name = Text.ofString "decode" then some readDecode
  else none

def show? (s : Shown) : Action Printed Unit := fun p =>
  ⟨.ok (), { p with console := p.console ++ [s] }, []⟩

/-- Prints a line, or nothing if the stream does not take it. -/
def print (stream : Stream) (t : Text) : Action Printed Unit := fun p =>
  let line := stream.shown t ++ [.scalar '\n']
  match stream.refusal line with
  | none => ⟨.ok (), { p with output := p.output ++ line }, []⟩
  | some e => ⟨.error e, p, []⟩

/-- Works on a store of its own. -/
def onStore {α : Type} (s : Store) (x : Action Store α) : Action Printed (α × Store) := fun p =>
  let o := x s
  ⟨o.result.map fun a => (a, o.state), p, o.events⟩

/-- Logs and shows one of the library's own errors; the exit code is one. -/
def reportOwn (e : Raised) (context : Value) : Action Printed Nat := do
  logError (← Action.read).root.level Options.logger e context
  show? (.markup (Text.ofString "[red]Error:[/red] " ++ Markup.escape e.text))
  pure 1

/-- Runs an action; one of the library's own errors goes to a handler. -/
def orElse {α : Type} (x : Action Printed α) (onOwn : Raised → Action Printed Nat)
    (next : α → Action Printed Nat) : Action Printed Nat := fun p =>
  let o := x p
  match o.result with
  | .ok a =>
    let rest := next a o.state
    ⟨rest.result, rest.state, o.events ++ rest.events⟩
  | .error e =>
    if e.kind.isOwn then
      let rest := onOwn e.toRaised o.state
      ⟨rest.result, rest.state, o.events ++ rest.events⟩
    else ⟨.error e, o.state, o.events⟩

def indentedText (v : Value) : Action Printed Text :=
  Action.lift <| ((Json.ofValue ⟨true, false⟩ v).map (Json.render Json.indented)).mapError
    fun f => .defect (.unrenderable f)

/-- Builds the query between two reports to the log, and renders it. -/
def buildTimed (options : Options) (context : List (Value × Value)) :
    Action Printed (Text × Store) := fun p =>
  let timing : Timing :=
    ⟨"build_query", Options.logger, .debug, context, Binary64.zero, Binary64.zero⟩
  let body : Action Store Text := do
    options.apply
    Store.rendered
  let o := timing.run p.root.level body ⟨none, Store.empty Parameter.filters.name⟩
  ⟨o.result.map fun t => (t, o.state.state), p, o.events⟩

def printQuery (stream : Stream) (settings : Settings) (table : Value) (form : Form)
    (queryString : Text) (s : Store) : Action Printed Unit :=
  match form with
  | .queryString => print stream queryString
  | .url => do
    let (t, _) ← onStore s (ReadPath.url settings table .null)
    print stream t
  | .json => do
    let ps ← Action.lift (Parameters.decode queryString (.text Parameter.filters.name))
    print stream (← indentedText ps.toValue)

def runBuild (stream : Stream) (settings : Settings) (options : Options) (table : Option Text)
    (form : Form) : Action Printed Nat :=
  let tableValue : Value := table.elim .null .text
  let context : List (Value × Value) := [(.ofString "table", tableValue)]
  orElse (buildTimed options context) (fun e => reportOwn e (.mapping context)) fun built => do
    printQuery stream settings tableValue form built.1 built.2
    pure 0

def parameterRow (p : Text × Value) : Action Printed (List Text) := do
  let shown ← if p.1 = Parameter.filters.name then indentedText p.2
    else Action.lift (p.2.displayed.map (·.text))
  pure [p.1, Markup.escape shown]

/-- Shows parameters as a table, and their number. -/
def showTable (ps : Parameters) : Action Printed Unit := do
  let rows ← ps.mapM parameterRow
  show? (.table "Query Parameters" ["Parameter", "Value"] rows)
  show? (.markup (Text.ofString "\n[green]Total parameters: " ++ Text.ofNat ps.length ++
    Text.ofString "[/green]"))

def runDecode (stream : Stream) (queryString : Text) (json : Bool) : Action Printed Nat :=
  orElse (Action.lift (Parameters.decode queryString (.text Parameter.filters.name)))
    (fun e => reportOwn e .null) fun ps => do
      if json then print stream (← indentedText ps.toValue) else showTable ps
      pure 0

def Request.run (stream : Stream) (settings : Settings) : Request → Action Printed Nat
  | build options table form => runBuild stream settings options table form
  | decode queryString json => runDecode stream queryString json

def misused (events : List Event) : Report := ⟨2, [], none, none, events⟩

/-- The report on a run. Events that do not pass the threshold are left out. -/
def report (o : Outcome Printed Nat) : Report :=
  let events := o.events.filter fun e => o.state.root.level.passes e.level
  match o.result with
  | .ok code => ⟨code, o.state.console, some o.state.output, none, events⟩
  | .error e => ⟨1, o.state.console, some o.state.output, some e, events⟩

def setup (settings : Settings) (p : Arguments.Parsed CommonOption) : Outcome Root Unit :=
  Root.setup settings false ⟨p.textValue .logLevel, p.textValue .logFormat, .bool false⟩ Root.initial

/-- Runs the program. The command must be known before the logging is set up, and its arguments are
read afterwards. -/
def run (stream : Stream) (settings : Settings) (args : List Text) : Report :=
  match Arguments.read commonSpecs false args with
  | none => misused []
  | some common =>
    match common.operands with
    | [] => misused []
    | name :: rest =>
      match reader? name with
      | none => misused []
      | some readRequest =>
        let started := setup settings common
        match readRequest rest with
        | none => misused started.events
        | some request =>
          let o := request.run stream settings ⟨[], [], started.state⟩
          report { o with events := started.events ++ o.events }

end RowQuery.Command
