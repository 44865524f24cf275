import RowQuery.Log.Emission
import RowQuery.Log.Formatter
import RowQuery.Settings
import RowQuery.Text.Lowercase

/-!
# The root of the loggers

The root has a threshold and handlers, each with a threshold of its own. Setting up the logging
replaces the handlers by one; once there are handlers it only does so when it is forced.
-/

set_option autoImplicit false

namespace RowQuery

structure Handler where
  /-- A handler without a formatter writes nothing. -/
  formatter : Option Formatter
  level : Level

structure Root where
  level : Level
  handlers : List Handler

namespace Root

/-- Before any set-up warnings pass, and there is no handler. -/
def initial : Root := ⟨.warning, []⟩

/-- A root with handlers of other origin. -/
def withHandlers (count : Nat) : Root := ⟨.warning, List.replicate count ⟨none, 0⟩⟩

/-- The name of the logger that a caller asks for. -/
def loggerName (name : Text) : Text := if name.isEmpty then Text.ofString "root" else name

/-- The text of a record on a handler, ended by a line break. A record that has no text is left
out. -/
def handle (zone : Zone) (h : Handler) (r : Record) : Text × Record :=
  match h.formatter with
  | none => ([], r)
  | some f =>
    let o := f.format zone r
    match o.result with
    | .ok t => (t ++ [.scalar '\n'], o.state)
    | .error _ => ([], o.state)

/-- What the handlers that an event reaches write, one after the other. -/
def handleAll (zone : Zone) (level : Level) : List Handler → Record → Text
  | [], _ => []
  | h :: hs, r =>
    if h.level ≤ level then
      let (written, r) := handle zone h r
      written ++ handleAll zone level hs r
    else handleAll zone level hs r

/-- What is written where there is no handler: the messages of warnings and worse. -/
def lastResort (level : Level) (r : Record) : Text :=
  if level < Level.warning then []
  else
    let text : Except Failure Text := do
      let message ← r.message
      (← r.reported).withReport message
    text.toOption.elim [] fun t => t ++ [.scalar '\n']

/-- What an event writes, in a zone of local time. -/
def written (root : Root) (zone : Zone) (created : Binary64) (e : Event) : Text :=
  if !root.level.passes e.level then []
  else
    let r := Record.ofEvent created e
    if root.handlers.isEmpty then lastResort e.level r else handleAll zone e.level root.handlers r

/-- The upper case of a code point, as far as it bears on the names of levels: the dotless `ı` is the
only letter outside ASCII whose upper case is an ASCII letter of one of the names. -/
def upper (c : CodePoint) : CodePoint :=
  if c.toNat = 0x131 then .scalar 'I' else
  if 0x61 ≤ c.toNat && c.toNat ≤ 0x7A then CodePoint.ofNat (c.toNat - 0x20) else c

def levelNames : List (String × Level) :=
  [("DEBUG", .debug), ("INFO", .info), ("WARNING", .warning), ("ERROR", .error),
    ("CRITICAL", .critical)]

/-- The level of a name in any case; an unknown name is the level of information. A name must be a
text, or octets, which are no name. -/
def readLevel (name : Value) : Except Failure Level :=
  match name, name.text? with
  | _, some t =>
    .ok (((levelNames.find? fun p => Text.ofString p.1 = t.map upper).map Prod.snd).getD .info)
  | .octets _, none => .ok .info
  | v, none => .error (.defect (.noAttribute v.typeName "upper"))

def readFormat (terminal : Bool) (name : Value) : Except Failure Formatter :=
  match name, name.text? with
  | _, some t => .ok (if t.lower = Text.ofString "json" then .json else .text terminal)
  | .octets _, none => .ok (.text terminal)
  | v, none => .error (.defect (.noAttribute v.typeName "lower"))

structure Setup where
  level : Value
  format : Value
  force : Value

/-- An option, or the setting where it is missing or empty. -/
def choose (option : Value) (setting : Text) : Value :=
  if option.isTruthy then option else .text setting

/-- Whether a set-up takes effect. -/
def isEffective (root : Root) (s : Setup) : Bool := s.force.isTruthy || root.handlers.isEmpty

def setupMessage (level format : Value) : Except Failure Text := do
  let shownLevel ← level.displayed
  let shownFormat ← format.displayed
  pure (Text.ofString "Logging configured: level=" ++ shownLevel.text ++
    Text.ofString ", format=" ++ shownFormat.text)

/-- Replaces the handlers by one. The old ones are gone even if there is no such format. -/
def configure (terminal : Bool) (level format : Value) : Action Root Unit := do
  let root ← Action.read
  let threshold ← Action.lift (readLevel level)
  Action.write { root with handlers := [] }
  let formatter ← Action.lift (readFormat terminal format)
  Action.write ⟨threshold, [⟨some formatter, threshold⟩]⟩
  let message ← Action.lift (setupMessage level format)
  Action.emit threshold ⟨.debug, "root", message, [], none⟩

def setup (settings : Settings) (terminal : Bool) (s : Setup) : Action Root Unit := do
  if (← Action.read).isEffective s then
    configure terminal (choose s.level settings.logLevel) (choose s.format settings.logFormat)

end Root

end RowQuery
