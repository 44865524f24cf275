import RowQuery.Number.Literal
import RowQuery.Value.Basic

/-!
# Command line arguments

Arguments are options and operands. An option has a long name and perhaps a letter; it takes a value
or it is a flag. Flags and one option with a value may share a dash. Two dashes end the options.
-/

set_option autoImplicit false

namespace RowQuery.Arguments

/-- An option of a command. -/
structure Spec (κ : Type) where
  key : κ
  long : String
  short : Option Char
  takesValue : Bool

/-- The options that were given, in order, and the operands. The value of a flag is empty. -/
structure Parsed (κ : Type) where
  options : List (κ × Text)
  operands : List Text

variable {κ : Type}

/-- What an argument settles, and the option whose value is the next argument. -/
abbrev Step (κ : Type) := List (κ × Text) × Option κ

/-- Reads options that share a dash, by their letters. -/
def readLetters (specs : List (Spec κ)) : Text → Option (Step κ)
  | [] => some ([], none)
  | c :: t =>
    match specs.find? fun s => s.short.map CodePoint.scalar = some c with
    | none => none
    | some s =>
      if s.takesValue then
        if t.isEmpty then some ([], some s.key) else some ([(s.key, t)], none)
      else (readLetters specs t).map fun p => ((s.key, []) :: p.1, p.2)

/-- Reads an option by its long name; a value may follow after an equals sign. -/
def readLong (specs : List (Spec κ)) (arg : Text) : Option (Step κ) :=
  let (name, value) : Text × Option Text := match arg.splitFirst? (.scalar '=') with
    | some (name, value) => (name, some value)
    | none => (arg, none)
  match specs.find? fun s => Text.ofString s.long = name with
  | none => none
  | some s =>
    match s.takesValue, value with
    | true, some v => some ([(s.key, v)], none)
    | true, none => some ([], some s.key)
    | false, some _ => none
    | false, none => some ([(s.key, [])], none)

/-- Whether an argument is an option; a dash alone is an operand. -/
def isOption : Text → Bool
  | .scalar '-' :: _ :: _ => true
  | _ => false

def readOption (specs : List (Spec κ)) : Text → Option (Step κ)
  | arg@(.scalar '-' :: .scalar '-' :: _) => readLong specs arg
  | arg => readLetters specs (arg.drop 1)

/-- Reads arguments. Where operands and options do not mix, the first operand ends the options. -/
def read (specs : List (Spec κ)) (mixed : Bool) : List Text → Option (Parsed κ)
  | [] => some ⟨[], []⟩
  | arg :: args =>
    if arg = Text.ofString "--" then some ⟨[], args⟩
    else if isOption arg then
      match readOption specs arg, args with
      | none, _ => none
      | some (settled, none), args =>
        (read specs mixed args).map fun p => { p with options := settled ++ p.options }
      | some (_, some _), [] => none
      | some (settled, some key), value :: args =>
        (read specs mixed args).map fun p =>
          { p with options := settled ++ (key, value) :: p.options }
    else if mixed then
      (read specs mixed args).map fun p => { p with operands := arg :: p.operands }
    else some ⟨[], arg :: args⟩

namespace Parsed

variable [DecidableEq κ]

def all (p : Parsed κ) (key : κ) : List Text :=
  (p.options.filter fun o => o.1 = key).map Prod.snd

def last? (p : Parsed κ) (key : κ) : Option Text := (p.all key).getLast?

def has (p : Parsed κ) (key : κ) : Bool := !(p.all key).isEmpty

/-- The last value of an option as a value; null where it was not given. -/
def textValue (p : Parsed κ) (key : κ) : Value := (p.last? key).elim .null .text

def textValues (p : Parsed κ) (key : κ) : Value := .list ((p.all key).map .text)

/-- The last value of an option as an integer, which it must be if the option was given. -/
def int? (p : Parsed κ) (key : κ) : Option (Option Int) :=
  ((p.last? key).map Literal.int?).elim (some none) fun n => n.map some

end Parsed

end RowQuery.Arguments
