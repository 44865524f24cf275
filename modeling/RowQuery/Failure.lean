import RowQuery.ErrorKind
import RowQuery.Json.Reader

/-!
# Failures

Why a call fails. Each cause is a constructor with what its message shows; wording, kind and details
are functions of the cause.
-/

set_option autoImplicit false

namespace RowQuery

/-- A value together with its text in the message. -/
structure Shown where
  value : Value
  text : Text

inductive EntryKind where
  | scalar | commaList | rowFilters
  deriving DecidableEq

def EntryKind.name : EntryKind → Text
  | scalar => "scalar"
  | commaList => "comma_list"
  | rowFilters => "row_filters"

/-- An argument that the library cannot represent. -/
inductive ArgumentProblem where
  | unsupportedScalar (key value : Shown)
  | nonFiniteParameter (key value : Shown)
  | nonFiniteOperand (key value : Shown) (operator : Operator)
  | notRowFilter (type : Text)
  | notQuery (type : Text)
  | notShape (type : Text)
  | notInteger (name : Text) (value : Shown)
  | notWhole (name : Text) (value : Shown)
  | badWeight (name : Text) (value : Shown)
  | notNumber (name : Text) (value : Shown)
  | outOfRange (name : Text) (bound : Nat) (value : Shown)
  | badRadius (value : Shown)
  | emptyTable
  | numberCount (option : Text) (count : Nat) (raw : Text)
  | notNumbers (option raw : Text)
  | badDirection (direction : Text)
  | badMatch (mode : Text)

/-- A row filter in wire form that cannot be parsed. -/
inductive FilterProblem where
  | notSingleKey (data : Shown)
  | nonFinite (data : Shown)
  | badOperands (key operands : Shown) (data : Value)
  | badText (raw : Value) (error : Json.ReadError)
  | badParameter (key raw : Text) (error : Json.ReadError)
  | notArray (key : Text) (value : Value)

inductive FilterPart where
  | kind | key | operator | value | combinator | operands
  deriving DecidableEq

def FilterPart.name : FilterPart → Text
  | kind => "kind"
  | key => "key"
  | operator => "operator"
  | value => "value"
  | combinator => "combinator"
  | operands => "operands"

/-- A part that is not valid; with the operand, if all that is wrong is a number that is not finite. -/
structure PartProblem where
  part : FilterPart
  nonFinite : Option Value

/-- The two amounts of a directive in a message template. -/
inductive AmountPart where
  | width | precision
  deriving DecidableEq

namespace AmountPart

def name : AmountPart → Text
  | width => "width"
  | precision => "precision"

/-- The bits of a machine word that holds the amount, its sign apart. -/
def bits : AmountPart → Nat
  | width => 63
  | precision => 31

def wordName : AmountPart → Text
  | width => "ssize_t"
  | precision => "int"

end AmountPart

/-- What keeps values from being put into a message template. -/
inductive TemplateProblem where
  | tooFewValues
  | tooManyValues
  | noMapping
  | indexed (elements : Text)
  | missingKey (key : Text)
  | openKey
  | openDirective
  | unknownConversion (c : CodePoint) (index : Nat)
  | badAmount
  /-- An amount that is written out does not fit its machine word. -/
  | amountTooLarge (part : AmountPart)
  /-- An amount that is taken from the values does not fit its machine word. -/
  | amountOverflow (part : AmountPart)
  /-- More digits are asked for than a whole number can be given. -/
  | precisionTooLarge
  /-- The text of a directive would be longer than the memory. -/
  | tooWide
  | notReal (conversion : CodePoint) (type : Text)
  | notWhole (conversion : CodePoint) (type : Text)
  | notFloat (type : Text)
  | notCodePoint
  | noSuchCodePoint
  | nanToInt
  | infiniteToInt

/-- A value of a type that the call cannot work with. -/
inductive Defect where
  | unrenderable (failure : RenderFailure)
  | invalidFilter (problems : List PartProblem)
  | badCombinator (value : Shown)
  | unhashable (type : Text)
  | notIterable (type : Text)
  | noAttribute (type name : Text)
  | notText
  | textNotOctets
  | prefixNotOctets
  | tooLarge
  | unknownEntry (kind : Shown)
  | badFormat (type : Text)
  | noFormat (type : Text)
  | template (problem : TemplateProblem)
  | attributeTaken (name : Text)
  | notMapping (type : Text)
  | yearOutOfRange (year : Int)
  | yearTooLarge
  | timeOutOfRange
  /-- The year of a time does not fit the calendar of the system. -/
  | noCalendar
  | undefinedTime
  | notTime (type : Text)
  | noLength (type : Text)
  | noElements (type : Text)
  /-- There is no element at a place; with what the elements make up. -/
  | noElement (container : Text)
  /-- No member of a mapping has this number as its key. -/
  | missingNumber (n : Int)
  | notJoinable (type : Text)
  | notJsonText (type : Text)
  | repeatedArgument (name : Text)
  | badKeyword

inductive Failure where
  | argument (problem : ArgumentProblem)
  | filter (problem : FilterProblem)
  | conflict (key : Shown) (kind : EntryKind)
  | defect (defect : Defect)
  /-- An error that the caller's own code raised. -/
  | raised (error : Raised)

namespace RenderFailure

def kind : RenderFailure → ErrorKind
  | notSerializable _ | badKey _ => .type
  | nonFinite | tooManyDigits => .value
  | unencodable .. => .encoding
  | endless => .recursion

def message : RenderFailure → Text
  | notSerializable type =>
    Text.ofString "Object of type " ++ type ++ Text.ofString " is not JSON serializable"
  | badKey type => Text.ofString "keys must be str, int, float, bool or None, not " ++ type
  | nonFinite => "Out of range float values are not JSON compliant"
  | tooManyDigits =>
    Text.ofString "Exceeds the limit (4300 digits) for integer string conversion; " ++
      Text.ofString "use sys.set_int_max_str_digits() to increase the limit"
  | unencodable half first last =>
    (if first = last then
      Text.ofString "'utf-8' codec can't encode character '" ++
        CodePoint.escapeByNumber half.toNat ++ Text.ofString "' in position " ++ Text.ofNat first
    else
      Text.ofString "'utf-8' codec can't encode characters in position " ++ Text.ofNat first ++
        [.scalar '-'] ++ Text.ofNat last) ++
      Text.ofString ": surrogates not allowed"
  | endless => "maximum recursion depth exceeded"

end RenderFailure

namespace ArgumentProblem

def mustBe (name : Text) (rule : String) (got : Text) : Text :=
  name ++ Text.ofString " must be " ++ Text.ofString rule ++ Text.ofString ", got " ++ got

/-- The end of a message on NaN or infinity. -/
def mustBeFinite (got : Text) : Text :=
  Text.ofString " must not contain NaN or infinity, got " ++ got

def message : ArgumentProblem → Text
  | unsupportedScalar key value =>
    Text.ofString "Unsupported value for '" ++ key.text ++ Text.ofString "': " ++ value.text
  | nonFiniteParameter key value =>
    Text.ofString "Value for '" ++ key.text ++ [.scalar '\''] ++ mustBeFinite value.text
  | nonFiniteOperand key value _ =>
    Text.ofString "Filter on '" ++ key.text ++ [.scalar '\''] ++ mustBeFinite value.text
  | notRowFilter type => Text.ofString "Expected a row filter, got " ++ type
  | notQuery type => Text.ofString "Expected Query instances, got " ++ type
  | notShape type => Text.ofString "within() expects a Circle or Rectangle, got " ++ type
  | notInteger name value => mustBe name "an integer" value.text
  | notWhole name value => mustBe name "a whole number" value.text
  | badWeight name value => mustBe name "a finite number" value.text
  | notNumber name value => mustBe name "a number" value.text
  | outOfRange name bound value =>
    name ++ Text.ofString " must be a finite value within [-" ++ Text.ofNat bound ++
      Text.ofString ", " ++ Text.ofNat bound ++ Text.ofString "], got " ++ value.text
  | badRadius value => mustBe "meters" "a positive finite number" value.text
  | emptyTable => "table must be a non-empty string"
  | numberCount option count raw =>
    option ++ Text.ofString " expects " ++ Text.ofNat count ++
      Text.ofString " comma-separated numbers, got '" ++ raw ++ [.scalar '\'']
  | notNumbers option raw =>
    option ++ Text.ofString " expects numbers, got '" ++ raw ++ [.scalar '\'']
  | badDirection direction =>
    Text.ofString "Sort direction must be 'asc' or 'desc', got '" ++ direction ++ [.scalar '\'']
  | badMatch mode =>
    Text.ofString "--match must be 'all' or 'any', got '" ++ mode ++ [.scalar '\'']

def details : ArgumentProblem → List (Value × Value)
  | unsupportedScalar key value =>
    [(.ofString "key", key.value), (.ofString "type", .text value.value.typeName)]
  | nonFiniteParameter key _ => [(.ofString "key", key.value)]
  | nonFiniteOperand key _ operator =>
    [(.ofString "key", key.value), (.ofString "operator", .text operator.wire)]
  | notRowFilter type | notQuery type | notShape type => [(.ofString "type", .text type)]
  | notInteger name value | notWhole name value | badWeight name value | notNumber name value
  | outOfRange name _ value => [(.text name, value.value)]
  | badRadius value => [(.ofString "meters", value.value)]
  | emptyTable | numberCount .. | notNumbers .. | badDirection _ | badMatch _ => []

end ArgumentProblem

namespace FilterProblem

def message : FilterProblem → Text
  | notSingleKey data =>
    Text.ofString "Row filter must be an object with exactly one key, got " ++ data.text
  | nonFinite data => Text.ofString "Row filter" ++ ArgumentProblem.mustBeFinite data.text
  | badOperands key operands _ =>
    ArgumentProblem.mustBe (Text.ofString "Operands of '" ++ key.text ++ [.scalar '\''])
      "a non-empty list" operands.text
  | badText _ error => Text.ofString "Filter is not valid JSON: " ++ error.message
  | badParameter key _ error =>
    Text.ofString "Parameter '" ++ key ++ Text.ofString "' is not valid JSON: " ++ error.message
  | notArray key _ =>
    Text.ofString "Parameter '" ++ key ++ Text.ofString "' must be a JSON array"

def details : FilterProblem → List (Value × Value)
  | notSingleKey data | nonFinite data => [(.ofString "filter", data.value)]
  | badOperands _ _ data => [(.ofString "filter", data)]
  | badText raw _ => [(.ofString "filter", raw)]
  | badParameter _ raw _ => [(.ofString "value", .text raw)]
  | notArray _ value => [(.ofString "value", value)]

end FilterProblem

namespace PartProblem

def message (p : PartProblem) : Text :=
  match p.nonFinite with
  | none => p.part.name
  | some operand =>
    p.part.name ++ Text.ofString ": Value error, " ++
      match operand.inspect with
      | .ok shown => Text.ofString "Filter value" ++ ArgumentProblem.mustBeFinite shown
      | .error failure => failure.message

end PartProblem

namespace TemplateProblem

def kind : TemplateProblem → ErrorKind
  | missingKey _ => .key
  | openKey | openDirective | unknownConversion .. | nanToInt | amountTooLarge _ => .value
  | noSuchCodePoint | infiniteToInt | amountOverflow _ | precisionTooLarge => .overflow
  | tooWide => .memory
  | tooFewValues | tooManyValues | noMapping | indexed _ | badAmount | notReal .. | notWhole .. | notFloat _
  | notCodePoint => .type

/-- A code point that is shown if it is printable ASCII. -/
def shown (c : CodePoint) : CodePoint := if 31 ≤ c.toNat && c.toNat ≤ 126 then c else .scalar '?'

def message : TemplateProblem → Text
  | tooFewValues => "not enough arguments for format string"
  | tooManyValues => "not all arguments converted during string formatting"
  | noMapping => "format requires a mapping"
  | indexed elements => elements ++ Text.ofString " indices must be integers or slices, not str"
  | missingKey key => key
  | openKey => "incomplete format key"
  | openDirective => "incomplete format"
  | unknownConversion c index =>
    Text.ofString "unsupported format character '" ++ shown c :: Text.ofString "' (0x" ++
      Text.ofHex 0 c.toNat ++ Text.ofString ") at index " ++ Text.ofNat index
  | badAmount => "* wants int"
  | amountTooLarge part => part.name ++ Text.ofString " too big"
  | amountOverflow part => Text.ofString "Python int too large to convert to C " ++ part.wordName
  | precisionTooLarge => "precision too large"
  | tooWide => []
  | notReal c type =>
    .scalar '%' :: c :: Text.ofString " format: a real number is required, not " ++ type
  | notWhole c type =>
    .scalar '%' :: c :: Text.ofString " format: an integer is required, not " ++ type
  | notFloat type => Text.ofString "must be real number, not " ++ type
  | notCodePoint => "%c requires int or char"
  | noSuchCodePoint => "%c arg not in range(0x110000)"
  | nanToInt => "cannot convert float NaN to integer"
  | infiniteToInt => "cannot convert float infinity to integer"

end TemplateProblem

namespace Defect

def kind : Defect → ErrorKind
  | unrenderable f => f.kind
  | invalidFilter _ => .validation
  | badCombinator _ | badFormat _ | yearOutOfRange _ | undefinedTime => .value
  | unhashable _ | notIterable _ | notText | textNotOctets | prefixNotOctets | unknownEntry _
  | noFormat _ | notMapping _ | notTime _ | noLength _ | noElements _ | notJoinable _ | notJsonText _
  | repeatedArgument _ | badKeyword => .type
  | template p => p.kind
  | noAttribute .. => .noAttribute
  | tooLarge | timeOutOfRange | yearTooLarge => .overflow
  | noCalendar => .system
  | noElement _ => .index
  | attributeTaken _ | missingNumber _ => .key

/-- The message, before the kind of the error shapes it. -/
def message : Defect → Text
  | unrenderable f => f.message
  | invalidFilter problems => Text.join "; " (problems.map PartProblem.message)
  | badCombinator value => value.text ++ Text.ofString " is not a valid Combinator"
  | unhashable type => Text.ofString "unhashable type: '" ++ type ++ [.scalar '\'']
  | notIterable type =>
    [.scalar '\''] ++ type ++ Text.ofString "' object is not iterable"
  | noAttribute type name =>
    [.scalar '\''] ++ type ++ Text.ofString "' object has no attribute '" ++ name ++
      [.scalar '\'']
  | notText => "quote_from_bytes() expected bytes"
  | textNotOctets => "a bytes-like object is required, not 'str'"
  | prefixNotOctets => "startswith first arg must be bytes or a tuple of bytes, not str"
  | tooLarge => "int too large to convert to float"
  | unknownEntry entryKind => Text.ofString "Unknown parameter entry kind: " ++ entryKind.text
  | badFormat type =>
    Text.ofString "Unknown format code 'f' for object of type '" ++ type ++ [.scalar '\'']
  | noFormat type =>
    Text.ofString "unsupported format string passed to " ++ type ++ Text.ofString ".__format__"
  | template p => p.message
  | notMapping type => [.scalar '\''] ++ type ++ Text.ofString "' object is not a mapping"
  | attributeTaken name =>
    Text.ofString "Attempt to overwrite " ++ name.quoted ++ Text.ofString " in LogRecord"
  | missingNumber n => Text.ofInt n
  | noLength type => Text.ofString "object of type '" ++ type ++ Text.ofString "' has no len()"
  | noElements type =>
    [.scalar '\''] ++ type ++ Text.ofString "' object is not subscriptable"
  | noElement container =>
    (if container.isEmpty then container else container ++ [.scalar ' ']) ++
      Text.ofString "index out of range"
  | notJoinable type =>
    Text.ofString "can only concatenate str (not \"" ++ type ++ Text.ofString "\") to str"
  | notJsonText type =>
    Text.ofString "the JSON object must be str, bytes or bytearray, not " ++ type
  | repeatedArgument name =>
    Text.ofString "TimedOperation.__init__() got multiple values for argument '" ++ name ++
      [.scalar '\'']
  | badKeyword => "keywords must be strings"
  | notTime type =>
    [.scalar '\''] ++ type ++ Text.ofString "' object cannot be interpreted as an integer"
  | yearTooLarge => "signed integer is greater than maximum"
  | noCalendar => "[Errno 75] Value too large for defined data type"
  | yearOutOfRange year => Text.ofString "year " ++ Text.ofInt year ++ Text.ofString " is out of range"
  | timeOutOfRange => "timestamp out of range for platform time_t"
  | undefinedTime => "Invalid value NaN (not a number)"

end Defect

namespace Failure

def kind : Failure → ErrorKind
  | argument _ => .invalidArgument
  | filter _ => .filterParse
  | conflict .. => .conflict
  | defect d => d.kind
  | raised r => r.kind

def toRaised : Failure → Raised
  | argument p => .make .invalidArgument p.message none (.mapping p.details)
  | filter p => .make .filterParse p.message none (.mapping p.details)
  | conflict key kind =>
    .make .conflict
      (Text.ofString "Parameter '" ++ key.text ++ Text.ofString "' already holds a " ++ kind.name ++
        Text.ofString " entry")
      none (.mapping [(.ofString "key", key.value), (.ofString "kind", .text kind.name)])
  | defect (.missingNumber n) => ⟨.key, Text.ofInt n, none, .mapping []⟩
  | defect d => .make d.kind d.message none .null
  | raised r => r

/-- The kind of the error that led to this one, if there is one. -/
def cause? : Failure → Option Text
  | argument (.notNumbers ..) => some ErrorKind.value.name
  | filter (.badText _ error) | filter (.badParameter _ _ error) =>
    match error with
    | .malformed .. => some "JSONDecodeError"
    | .tooManyDigits _ => some ErrorKind.value.name
  | _ => none

end Failure

instance : Coe RenderFailure Failure := ⟨fun f => .defect (.unrenderable f)⟩

namespace Value

/-- The value with its text inside a message. -/
def inspected (v : Value) : Except Failure Shown :=
  match v.inspect with
  | .ok t => .ok ⟨v, t⟩
  | .error f => .error f

/-- The value with its text as part of a label. -/
def displayed (v : Value) : Except Failure Shown :=
  match v.display with
  | .ok t => .ok ⟨v, t⟩
  | .error f => .error f

end Value

end RowQuery
