import RowQuery.Json.Basic

/-!
# JSON text

Three layouts of JSON data: the compact one of the wire, the one-line one of log records, which is
pure ASCII, and the indented one for people.
-/

set_option autoImplicit false

namespace RowQuery.Json

structure Layout where
  /-- Code points outside the printable ASCII range are escaped. -/
  ascii : Bool
  comma : Text
  colon : Text
  /-- Spaces per level, where each element has a line of its own. -/
  indent : Option Nat

/-- The wire: no blank outside strings, code points outside ASCII as they are. -/
def wire : Layout := ⟨false, ",", ":", none⟩

/-- Log records: one line of ASCII. -/
def record : Layout := ⟨true, ", ", ": ", none⟩

/-- For people: two spaces per level. -/
def indented : Layout := ⟨false, ",", ": ", some 2⟩

def escapeUnit (n : Nat) : Text := .scalar '\\' :: .scalar 'u' :: Text.ofHex 4 n

/-- An escape by number; a code point beyond 16 bits becomes a surrogate pair. -/
def escapeByNumber (n : Nat) : Text :=
  if n < 0x10000 then escapeUnit n
  else escapeUnit (0xD800 + (n - 0x10000) / 0x400) ++ escapeUnit (0xDC00 + (n - 0x10000) % 0x400)

/-- A code point inside a string. -/
def escaped (ascii : Bool) (c : CodePoint) : Text :=
  match c with
  | .scalar '"' => [.scalar '\\', .scalar '"']
  | .scalar '\\' => [.scalar '\\', .scalar '\\']
  | .scalar '\n' => [.scalar '\\', .scalar 'n']
  | .scalar '\r' => [.scalar '\\', .scalar 'r']
  | .scalar '\t' => [.scalar '\\', .scalar 't']
  | .scalar '\x08' => [.scalar '\\', .scalar 'b']
  | .scalar '\x0c' => [.scalar '\\', .scalar 'f']
  | c => if c.toNat < 0x20 || (ascii && 0x7F ≤ c.toNat) then escapeByNumber c.toNat else [c]

def quotedText (ascii : Bool) (t : Text) : Text :=
  .scalar '"' :: t.flatMap (escaped ascii) ++ [.scalar '"']

/-- What separates elements on a level: nothing, or a line break and the indentation. -/
def Layout.gap (layout : Layout) (level : Nat) : Text :=
  match layout.indent with
  | none => []
  | some spaces => .scalar '\n' :: List.replicate (spaces * level) (.scalar ' ')

mutual

/-- The text of JSON data that stands on a level. -/
def renderAt (layout : Layout) (level : Nat) : Json → Text
  | null => Text.ofString "null"
  | bool b => Text.ofString (if b then "true" else "false")
  | int n => Text.ofInt n
  | float x => floatText x
  | text t => quotedText layout.ascii t
  | array [] => Text.ofString "[]"
  | array (j :: js) =>
    .scalar '[' :: layout.gap (level + 1) ++ renderAt layout (level + 1) j ++
      renderItems layout level js
  | object [] => [.scalar '{', .scalar '}']
  | object ((k, j) :: ms) =>
    .scalar '{' :: layout.gap (level + 1) ++ quotedText layout.ascii k ++ layout.colon ++
      renderAt layout (level + 1) j ++ renderMembers layout level ms

/-- The rest of an array on a level, after its first element. -/
def renderItems (layout : Layout) (level : Nat) : List Json → Text
  | [] => layout.gap level ++ [.scalar ']']
  | j :: js =>
    layout.comma ++ layout.gap (level + 1) ++ renderAt layout (level + 1) j ++
      renderItems layout level js

/-- The rest of an object on a level, after its first member. -/
def renderMembers (layout : Layout) (level : Nat) : List (Text × Json) → Text
  | [] => layout.gap level ++ [.scalar '}']
  | (k, j) :: ms =>
    layout.comma ++ layout.gap (level + 1) ++ quotedText layout.ascii k ++ layout.colon ++
      renderAt layout (level + 1) j ++ renderMembers layout level ms

end

def render (layout : Layout) (j : Json) : Text := renderAt layout 0 j

end RowQuery.Json

namespace RowQuery

def Value.toJsonText (v : Value) : Except RenderFailure Text :=
  (Json.ofValue Json.strict v).map (Json.render Json.wire)

end RowQuery
