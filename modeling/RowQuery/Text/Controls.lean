import RowQuery.Text.Basic

/-!
# Terminal control sequences

A control sequence is an escape character, an opening bracket, parameters and a letter. Output that no
terminal reads is printed without them.
-/

set_option autoImplicit false

namespace RowQuery

namespace CodePoint

/-- Whether a code point may stand between the bracket and the letter of a control sequence. -/
def isControlParameter (c : CodePoint) : Bool :=
  (0x30 ≤ c.toNat && c.toNat ≤ 0x39) || c == .scalar ';' || c == .scalar '?'

def isAsciiLetter (c : CodePoint) : Bool :=
  (0x41 ≤ c.toNat && c.toNat ≤ 0x5A) || (0x61 ≤ c.toNat && c.toNat ≤ 0x7A)

end CodePoint

namespace Text

/-- The length of the control sequence at the start of a text; zero where there is none. -/
def controlLength : Text → Nat
  | .scalar '\x1b' :: .scalar '[' :: t =>
    let parameters := t.takeWhile CodePoint.isControlParameter
    if (t.drop parameters.length).head?.any CodePoint.isAsciiLetter then parameters.length + 3 else 0
  | _ => 0

/-- The text without control sequences; its first `skip` code points belong to a sequence before. -/
def dropControlsFrom : Nat → Text → Text
  | _, [] => []
  | skip + 1, _ :: t => dropControlsFrom skip t
  | 0, c :: t =>
    match controlLength (c :: t) with
    | 0 => c :: dropControlsFrom 0 t
    | n + 1 => dropControlsFrom n t

/-- The text without control sequences. What is left when they are gone may look like one. -/
def dropControls (t : Text) : Text := dropControlsFrom 0 t

end Text

end RowQuery
