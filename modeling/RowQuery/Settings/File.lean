import RowQuery.Text.Blank

/-!
# Settings files

A settings file binds names to values, one binding a line: `NAME=value`, with an optional `export` in
front. A value in quotes may hold escapes and line breaks; any other value ends where its line ends or
where a comment starts. A comment starts with `#` after a blank. In a value `${NAME}` stands for what
is bound to the name so far, and `${NAME:-other}` for `other` where nothing is bound. Lines that
cannot be read are passed over.
-/

set_option autoImplicit false

namespace RowQuery

/-- Values by name; the first one of a name counts. -/
abbrev Environment := List (Text × Text)

/-- A name with its value; a name alone on its line has none. -/
abbrev Binding := Text × Option Text

namespace SettingsFile

/-- Whether a code point is a blank within a line. -/
def isGap (c : CodePoint) : Bool := c.isBlank && c != .scalar '\n'

def skipGap (t : Text) : Text := t.dropWhile isGap

def line (t : Text) : Text := t.takeWhile (· ≠ .scalar '\n')

/-- The text from the end of the line on. -/
def afterLine (t : Text) : Text := t.dropWhile (· ≠ .scalar '\n')

/-- The next line, where only blanks and a comment are left of this one. -/
def endLine? (t : Text) : Option Text :=
  match skipGap t with
  | [] => some []
  | .scalar '\n' :: t => some t
  | .scalar '#' :: t => some ((afterLine t).drop 1)
  | _ => none

/-- The inside of a quoted value and what follows it. A quote after a backslash does not end the
value, unless no quote without one follows; then the last quote ends it. -/
def readQuoted? (mark : CodePoint) : Text → Option (Text × Text)
  | [] => none
  | c :: t =>
    if c = mark then some ([], t)
    else if c = .scalar '\\' then
      match t with
      | [] => none
      | d :: u =>
        if d = mark then
          match readQuoted? mark u with
          | some (inside, rest) => some (c :: d :: inside, rest)
          | none => some ([c], u)
        else (readQuoted? mark (d :: u)).map fun p => (c :: p.1, p.2)
    else (readQuoted? mark t).map fun p => (c :: p.1, p.2)

/-- Replaces escapes by what they stand for; a backslash before another letter stands for itself. -/
def unescape (escapes : List (Char × Char)) : Text → Text
  | .scalar '\\' :: .scalar c :: t =>
    match escapes.lookup c with
    | some d => .scalar d :: unescape escapes t
    | none => .scalar '\\' :: unescape escapes (.scalar c :: t)
  | c :: t => c :: unescape escapes t
  | [] => []

def singleEscapes : List (Char × Char) := [('\\', '\\'), ('\'', '\'')]

def doubleEscapes : List (Char × Char) :=
  [('\\', '\\'), ('\'', '\''), ('"', '"'), ('a', '\x07'), ('b', '\x08'), ('f', '\x0c'), ('n', '\n'),
    ('r', '\r'), ('t', '\t'), ('v', '\x0b')]

/-- Cuts a value at a comment, which follows a blank. -/
def cutComment : Text → Text
  | [] => []
  | c :: t => if c.isBlank && t.head? = some (.scalar '#') then [] else c :: cutComment t

/-- What is read at a place: something with the text behind it, or the place where reading failed. -/
abbrev Reading (α : Type) := Except Text (α × Text)

def readValue (t : Text) : Reading (Option Text) :=
  match t with
  | .scalar '=' :: t =>
    let quoted (mark : Char) (escapes : List (Char × Char)) (inside place : Text) :
        Reading (Option Text) :=
      match readQuoted? (.scalar mark) inside with
      | some (v, rest) => .ok (some (unescape escapes v), rest)
      | none => .error place
    match skipGap t with
    | place@(.scalar '\'' :: inside) => quoted '\'' singleEscapes inside place
    | place@(.scalar '"' :: inside) => quoted '"' doubleEscapes inside place
    | _ => .ok (some (cutComment (line t)).trim, afterLine t)
  | t => .ok (none, t)

/-- Whether a code point may be part of a name without quotes. -/
def isNamePart (c : CodePoint) : Bool := c ≠ .scalar '=' && c ≠ .scalar '#' && !c.isBlank

/-- The name at the start of a line; a comment has none. -/
def readName (t : Text) : Reading (Option Text) :=
  match t with
  | .scalar '#' :: _ => .ok (none, t)
  | .scalar '\'' :: inside =>
    let name := inside.takeWhile (· ≠ .scalar '\'')
    match inside.dropWhile (· ≠ .scalar '\'') with
    | _ :: rest => if name.isEmpty then .error t else .ok (some name, rest)
    | [] => .error t
  | t =>
    let name := t.takeWhile isNamePart
    if name.isEmpty then .error t else .ok (some name, t.dropWhile isNamePart)

/-- Passes over `export` in front of a name. -/
def skipExport (t : Text) : Text :=
  let rest := t.drop 6
  if t.startsWith "export" && rest.head?.any isGap then skipGap rest else t

/-- The binding at the start of a text, where it has one, and the text behind its line. -/
def readBinding (t : Text) : Except Text (Option Binding × Text) := do
  let (name, t) ← readName (skipExport t)
  let (value, t) ← readValue (skipGap t)
  match endLine? t with
  | some rest => pure (name.map fun n => (n, value), rest)
  | none => .error t

/-- The bindings of a text, in order. Every step passes over at least one code point. -/
def readBindings : Nat → Text → List Binding
  | 0, _ => []
  | fuel + 1, t =>
    match t.dropWhile CodePoint.isBlank with
    | [] => []
    | t =>
      match readBinding t with
      | .ok (binding, rest) => binding.toList ++ readBindings fuel rest
      | .error place => readBindings fuel ((afterLine place).drop 1)

/-- A variable after its dollar sign: the name, what stands for it where nothing is bound, and the
text behind. -/
def readVariable? (t : Text) : Option (Text × Text × Text) :=
  match t with
  | (.scalar '\x7b') :: t =>
    let isPart (c : CodePoint) : Bool := c ≠ .scalar '\x7d' && c ≠ .scalar ':'
    let name := t.takeWhile isPart
    match t.dropWhile isPart with
    | .scalar '\x7d' :: rest => some (name, [], rest)
    | .scalar ':' :: .scalar '-' :: t =>
      match t.dropWhile (· ≠ .scalar '\x7d') with
      | _ :: rest => some (name, t.takeWhile (· ≠ .scalar '\x7d'), rest)
      | [] => none
    | _ => none
  | _ => none

/-- Puts the values of variables into a value. A variable whose name stands alone on its line is
empty. -/
def expand (bound : Text → Option (Option Text)) : Nat → Text → Text
  | 0, t => t
  | _ + 1, [] => []
  | fuel + 1, c :: t =>
    match if c = .scalar '$' then readVariable? t else none with
    | some (name, other, rest) => ((bound name).getD (some other)).getD [] ++ expand bound fuel rest
    | none => c :: expand bound fuel t

/-- What is bound to a name: by the last binding of it, else by the environment. -/
def bound (environment : Environment) (latestFirst : List Binding) (name : Text) :
    Option (Option Text) :=
  (latestFirst.lookup name).or ((environment.lookup name).map some)

/-- Adds a binding in front of those before it, whose values it may use. -/
def addBinding (environment : Environment) (latestFirst : List Binding) (b : Binding) : List Binding :=
  (b.1, b.2.map fun v => expand (bound environment latestFirst) v.length v) :: latestFirst

/-- Line breaks of every kind become one. -/
def normalizeLines : Text → Text
  | .scalar '\r' :: .scalar '\n' :: t => .scalar '\n' :: normalizeLines t
  | .scalar '\r' :: t => .scalar '\n' :: normalizeLines t
  | c :: t => c :: normalizeLines t
  | [] => []

/-- The text of a file without a mark of the byte order. -/
def dropMark : Text → Text
  | .scalar '\uFEFF' :: t => t
  | t => t

/-- The bindings of a settings file, the latest first. -/
def bindings (environment : Environment) (t : Text) : List Binding :=
  let t := normalizeLines (dropMark t)
  (readBindings (t.length + 1) t).foldl (addBinding environment) []

end SettingsFile

end RowQuery
