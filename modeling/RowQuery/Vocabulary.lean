import RowQuery.Text.Basic

/-!
# Wire vocabulary

The fixed words of a read request: parameter names, operators of row filters, the two combinators,
the words of geo shapes, sort directions and existence thresholds. Each word has a written form and a
name; words other than the documented ones are passed through by the library, never rejected.
-/

set_option autoImplicit false

namespace RowQuery

inductive Parameter where
  | limit | offset | search | sort | select | includeCount | threshold | filters
  deriving DecidableEq

namespace Parameter

def name : Parameter → Text
  | limit => "limit"
  | offset => "offset"
  | search => "q"
  | sort => "sort"
  | select => "select"
  | includeCount => "include_count"
  | threshold => "threshold"
  | filters => "filters"

end Parameter

inductive Operator where
  | eq | neq | isIn | notIn | beginsWith | notBeginsWith | beginsWithAny | notBeginsWithAny | blank
  | gt | gte | lt | lte | search | includes | includesAny
  deriving DecidableEq

namespace Operator

def words : Operator → String × String
  | eq => ("EQ", "$eq")
  | neq => ("NEQ", "$neq")
  | isIn => ("IN", "$in")
  | notIn => ("NIN", "$nin")
  | beginsWith => ("BW", "$bw")
  | notBeginsWith => ("NBW", "$nbw")
  | beginsWithAny => ("BWIN", "$bwin")
  | notBeginsWithAny => ("NBWIN", "$nbwin")
  | blank => ("BLANK", "$blank")
  | gt => ("GT", "$gt")
  | gte => ("GTE", "$gte")
  | lt => ("LT", "$lt")
  | lte => ("LTE", "$lte")
  | search => ("SEARCH", "$search")
  | includes => ("INCLUDES", "$includes")
  | includesAny => ("INCLUDES_ANY", "$includes_any")

def wire (o : Operator) : Text := Text.ofString o.words.2

def all : List Operator :=
  [eq, neq, isIn, notIn, beginsWith, notBeginsWith, beginsWithAny, notBeginsWithAny, blank, gt, gte,
    lt, lte, search, includes, includesAny]

end Operator

inductive Combinator where
  | and | or
  deriving DecidableEq

namespace Combinator

def words : Combinator → String × String
  | and => ("AND", "$and")
  | or => ("OR", "$or")

def wire (c : Combinator) : Text := Text.ofString c.words.2

/-- The combinator of a wire form. -/
def ofWire? (t : Text) : Option Combinator :=
  if t = and.wire then some and else if t = or.wire then some or else none

end Combinator

inductive GeoWord where
  | circle | rect | center | meters
  deriving DecidableEq

namespace GeoWord

def words : GeoWord → String × String
  | circle => ("CIRCLE", "$circle")
  | rect => ("RECT", "$rect")
  | center => ("CENTER", "$center")
  | meters => ("METERS", "$meters")

def wire (w : GeoWord) : Text := Text.ofString w.words.2

end GeoWord

/-- The key of the row filter that a geo shape becomes. -/
def geoKey : Text := "geo"

inductive Direction where
  | asc | desc
  deriving DecidableEq

namespace Direction

def words : Direction → String × String
  | asc => ("ASC", "asc")
  | desc => ("DESC", "desc")

def wire (d : Direction) : Text := Text.ofString d.words.2

end Direction

inductive Threshold where
  | confident | default | comprehensive
  deriving DecidableEq

namespace Threshold

def words : Threshold → String × String
  | confident => ("CONFIDENT", "confident")
  | default => ("DEFAULT", "default")
  | comprehensive => ("COMPREHENSIVE", "comprehensive")

def wire (t : Threshold) : Text := Text.ofString t.words.2

def all : List Threshold := [confident, default, comprehensive]

end Threshold

/-- Any word of the five vocabularies that a caller may pass in place of its text. -/
inductive Word where
  | operator (o : Operator)
  | combinator (c : Combinator)
  | geo (w : GeoWord)
  | direction (d : Direction)
  | threshold (t : Threshold)
  deriving DecidableEq

namespace Word

/-- The name of the vocabulary, the name of the word and its wire form. -/
def parts : Word → String × String × String
  | operator o => ("Operator", o.words)
  | combinator c => ("Combinator", c.words)
  | geo w => ("GeoOperator", w.words)
  | direction d => ("SortDirection", d.words)
  | threshold t => ("Threshold", t.words)

def wire (w : Word) : Text := Text.ofString w.parts.2.2

def qualifiedName (w : Word) : Text :=
  Text.ofString w.parts.1 ++ [.scalar '.'] ++ Text.ofString w.parts.2.1

def all : List Word :=
  Operator.all.map operator ++ [combinator .and, combinator .or, geo .circle, geo .rect, geo .center,
    geo .meters, direction .asc, direction .desc] ++ Threshold.all.map threshold

def ofQualifiedName? (t : Text) : Option Word := all.find? (·.qualifiedName = t)

end Word

/-- The documented values of a parameter, where it has a fixed vocabulary. -/
def documentedValues? (parameter : Text) : Option (List Text) :=
  if parameter = Parameter.threshold.name then some (Threshold.all.map Threshold.wire)
  else if parameter = Parameter.sort.name then some [Direction.asc.wire, Direction.desc.wire]
  else none

end RowQuery
