import RowQuery.Value.Inspect

/-!
# Kinds of errors

The kinds of errors that reach a caller or a log. Four kinds are the library's own: they are told
apart by a code and carry details. An invalid argument is also a bad value, and a row filter that
cannot be parsed is an invalid argument.
-/

set_option autoImplicit false

namespace RowQuery

inductive ErrorKind where
  | query | invalidArgument | filterParse | conflict
  | value | type | key | index | runtime | overflow | encoding | noAttribute | recursion | memory | system
  | validation
  deriving DecidableEq

namespace ErrorKind

def name : ErrorKind → Text
  | query => "FactualQueryError"
  | invalidArgument => "InvalidArgumentError"
  | filterParse => "FilterParseError"
  | conflict => "ParameterConflictError"
  | value => "ValueError"
  | type => "TypeError"
  | key => "KeyError"
  | index => "IndexError"
  | runtime => "RuntimeError"
  | overflow => "OverflowError"
  | encoding => "UnicodeEncodeError"
  | noAttribute => "AttributeError"
  | recursion => "RecursionError"
  | memory => "MemoryError"
  | system => "OSError"
  | validation => "ValidationError"

/-- The kinds that a caller may raise by hand. -/
def raisable : List ErrorKind :=
  [query, invalidArgument, filterParse, conflict, value, type, key, runtime]

def ofName? (t : Text) : Option ErrorKind := raisable.find? (·.name = t)

/-- The kinds that an error of a kind also belongs to, itself first. -/
def lineage : ErrorKind → List ErrorKind
  | invalidArgument => [invalidArgument, query, value]
  | filterParse => [filterParse, invalidArgument, query, value]
  | conflict => [conflict, query]
  | encoding => [encoding, value]
  | recursion => [recursion, runtime]
  | k => [k]

def isOwn (k : ErrorKind) : Bool := k.lineage.contains query

/-- The code that tells the library's own kinds apart. -/
def code? : ErrorKind → Option Text
  | query => some "query_error"
  | invalidArgument => some "invalid_argument"
  | filterParse => some "filter_parse_error"
  | conflict => some "parameter_conflict"
  | _ => none

/-- The name with the place where the library's own kinds are defined. -/
def qualifiedName (k : ErrorKind) : Text :=
  if k.isOwn then Text.ofString "factual_query.errors." ++ k.name else k.name

/-- The text of an error of the kind with a message. A missing key is quoted. -/
def display : ErrorKind → Text → Text
  | key, message => message.quoted
  | _, message => message

end ErrorKind

/-- An error as callers and logs see it. -/
structure Raised where
  kind : ErrorKind
  /-- The text of the error. -/
  text : Text
  /-- Only the library's own kinds have a code. -/
  code : Option Text
  details : Value

namespace Raised

/-- An error made by hand. An absent code is the code of the kind; only the library's own kinds have
a code and details. Details that are empty are an empty mapping. -/
def make (kind : ErrorKind) (message : Text) (code : Option Text) (details : Value) : Raised where
  kind := kind
  text := kind.display message
  code := if kind.isOwn then code.or kind.code? else none
  details := if kind.isOwn && details.isTruthy then details else .mapping []

/-- The line that ends the report of an error in a log. -/
def line (r : Raised) : Text :=
  if r.text.isEmpty then r.kind.qualifiedName
  else r.kind.qualifiedName ++ Text.ofString ": " ++ r.text

end Raised

end RowQuery
