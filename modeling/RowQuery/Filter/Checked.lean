import RowQuery.Failure
import RowQuery.Text.Utf8
import RowQuery.Value.Equality

/-!
# Checked row filters

Row filters made from named parts that any caller may give. Every part is checked; a failure lists
the bad parts in order. An operand is kept as a scalar, a list or a mapping with text keys, in which
no NaN and no infinity occurs; what else lists and mappings hold is not looked into.
-/

set_option autoImplicit false

namespace RowQuery

namespace Value

/-- The text of a text, a word, or octets that are well-formed UTF-8. -/
def looseText? : Value → Option Text
  | octets bs => (Utf8.decode? bs).map Text.ofChars
  | v => v.text?

/-- The members of a mapping with texts as keys, if all keys have one. -/
def textKeyed? (members : List (Value × Value)) : Option (List (Value × Value)) :=
  members.foldlM (fun kept m => m.1.looseText?.map fun k => insertMember kept (.text k) m.2) []

/-- The form in which a row filter keeps an operand, if it can hold it. -/
def operand? : Value → Option Value
  | word w => some (.text w.wire)
  | v@null | v@(bool _) | v@(int _) | v@(float _) | v@(text _) => some v
  | mapping members => (textKeyed? members).map mapping
  | octets _ => none
  | v => v.elements?.map list

end Value

namespace RowFilter

/-- The parts of a row filter by name, as a caller gives them. -/
abbrev Parts := List (Value × Value)

def part? (parts : Parts) (part : FilterPart) : Option Value :=
  (parts.find? fun p => p.1.sameKey (.text part.name)).map Prod.snd

/-- The outcome of checking one part. -/
abbrev Checked (α : Type) := Except PartProblem α

def problem {α : Type} : Checked α → List PartProblem
  | .ok _ => []
  | .error p => [p]

/-- The kind, where it is given, is the one that is made. -/
def checkKind (kind : Text) : Option Value → Checked Unit
  | none => .ok ()
  | some (.text t) => if t = kind then .ok () else .error ⟨.kind, none⟩
  | some _ => .error ⟨.kind, none⟩

def checkKey (v : Option Value) : Checked Text :=
  match v.bind Value.looseText? with
  | some key => .ok key
  | none => .error ⟨.key, none⟩

def checkOperator : Option Value → Checked (Option Text)
  | none | some .null => .ok none
  | some v =>
    match v.looseText? with
    | some operator => .ok (some operator)
    | none => .error ⟨.operator, none⟩

def checkValue (v : Option Value) : Checked Value :=
  match (v.getD .null).operand? with
  | none => .error ⟨.value, none⟩
  | some kept => if kept.isFinite then .ok kept else .error ⟨.value, some kept⟩

def checkCombinator : Option Value → Checked Combinator
  | some (.word (.combinator c)) => .ok c
  | some (.text t) => (Combinator.ofWire? t).elim (.error ⟨.combinator, none⟩) .ok
  | some (.octets bs) =>
    (((Utf8.decode? bs).map Text.ofChars).bind Combinator.ofWire?).elim
      (.error ⟨.combinator, none⟩) .ok
  | _ => .error ⟨.combinator, none⟩

def fieldOfParts (parts : Parts) : Except (List PartProblem) RowFilter :=
  let kind := checkKind "field" (part? parts .kind)
  let key := checkKey (part? parts .key)
  let operator := checkOperator (part? parts .operator)
  let value := checkValue (part? parts .value)
  match kind, key, operator, value with
  | .ok _, .ok key, .ok operator, .ok value => .ok (field key operator value)
  | _, _, _, _ => .error (problem kind ++ problem key ++ problem operator ++ problem value)

def groupOfParts (parts : Parts) (operands : Checked (List RowFilter)) :
    Except (List PartProblem) RowFilter :=
  let kind := checkKind "group" (part? parts .kind)
  let combinator := checkCombinator (part? parts .combinator)
  match kind, combinator, operands with
  | .ok _, .ok combinator, .ok operands => .ok (group combinator operands)
  | _, _, _ => .error (problem kind ++ problem combinator ++ problem operands)

/-- A problem inside an operand is a problem of the operands; the first one counts. -/
def asOperandProblem (problems : List PartProblem) : PartProblem :=
  ⟨.operands, problems.head?.bind (·.nonFinite)⟩

mutual

/-- One operand of a group: a row filter, or a mapping of parts that names its kind. -/
def checkOperand : Value → Checked RowFilter
  | .filter f => .ok f
  | .mapping members =>
    match (part? members .kind).bind Value.text? with
    | some kind =>
      if kind = Text.ofString "field" then
        (fieldOfParts members).mapError asOperandProblem
      else if kind = Text.ofString "group" then
        (groupOfParts members (checkOperandsIn members)).mapError asOperandProblem
      else .error ⟨.operands, none⟩
    | none => .error ⟨.operands, none⟩
  | _ => .error ⟨.operands, none⟩

/-- The operands among the parts of a group. -/
def checkOperandsIn : Parts → Checked (List RowFilter)
  | [] => .error ⟨.operands, none⟩
  | (name, v) :: parts =>
    if name.sameKey (.text FilterPart.operands.name) then checkOperands v
    else checkOperandsIn parts

/-- The operands of a group: at least one, in order. -/
def checkOperands : Value → Checked (List RowFilter)
  | .list items | .tuple items | .set items =>
    if items.isEmpty then .error ⟨.operands, none⟩ else checkEach items
  | _ => .error ⟨.operands, none⟩

def checkEach : List Value → Checked (List RowFilter)
  | [] => .ok []
  | v :: vs =>
    match checkOperand v with
    | .error p => .error p
    | .ok f => (checkEach vs).map (f :: ·)

end

def invalid (problems : List PartProblem) : Failure := .defect (.invalidFilter problems)

def makeField (parts : Parts) : Except Failure RowFilter := (fieldOfParts parts).mapError invalid

def makeGroup (parts : Parts) : Except Failure RowFilter :=
  (groupOfParts parts (checkOperandsIn parts)).mapError invalid

end RowFilter

end RowQuery
