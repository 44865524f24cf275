import RowQuery.Failure

/-!
# Geo shapes

Circles and rectangles with checked coordinates, and the row filters that they become. A coordinate is
a whole or a finite double precision number within the bound of its axis; bounds are inclusive and
compared exactly.
-/

set_option autoImplicit false

namespace RowQuery

namespace Number

/-- The number that a value is; truth values are no numbers. -/
def ofValue? : Value → Option Number
  | .int n => some (int n)
  | .float x => some (float x)
  | _ => none

/-- Whether the number is finite; an integer must be within the range of double precision. -/
def checkFinite : Number → Except Failure Bool
  | int n => if (Binary64.ofInt n).isFinite then .ok true else .error (.defect .tooLarge)
  | float x => .ok x.isFinite

/-- Whether the number lies in `[-bound, bound]`. -/
def isWithin (bound : Nat) : Number → Bool
  | int n => n.natAbs ≤ bound
  | float x => x.isWithin bound

def isPositive : Number → Bool
  | int n => 0 < n
  | float x => x.isPositive

end Number

/-- Fails with a problem that shows a value. -/
def Value.refuse {α : Type} (v : Value) (problem : Shown → ArgumentProblem) : Except Failure α :=
  v.inspected >>= fun shown => .error (.argument (problem shown))

def checkCoordinate (name : Text) (bound : Nat) (v : Value) : Except Failure Number :=
  match Number.ofValue? v with
  | none => v.refuse (.notNumber name)
  | some n => do
    if (← n.checkFinite) && n.isWithin bound then pure n else v.refuse (.outOfRange name bound)

def checkLatitude (name : Text) (v : Value) : Except Failure Number := checkCoordinate name 90 v

def checkLongitude (name : Text) (v : Value) : Except Failure Number := checkCoordinate name 180 v

def checkMeters (v : Value) : Except Failure Number :=
  match Number.ofValue? v with
  | none => v.refuse .badRadius
  | some n => do if (← n.checkFinite) && n.isPositive then pure n else v.refuse .badRadius

namespace Circle

def make (latitude longitude meters : Value) : Except Failure Circle := do
  let lat ← checkLatitude "latitude" latitude
  let lon ← checkLongitude "longitude" longitude
  let m ← checkMeters meters
  pure ⟨lat, lon, m⟩

def toFilter (c : Circle) : RowFilter :=
  .field geoKey (some GeoWord.circle.wire)
    (.mapping [(.text GeoWord.center.wire, .list [c.latitude.toValue, c.longitude.toValue]),
      (.text GeoWord.meters.wire, c.meters.toValue)])

end Circle

namespace Rectangle

def make (topLeftLat topLeftLon bottomRightLat bottomRightLon : Value) :
    Except Failure Rectangle := do
  let a ← checkLatitude "top_left_lat" topLeftLat
  let b ← checkLongitude "top_left_lon" topLeftLon
  let c ← checkLatitude "bottom_right_lat" bottomRightLat
  let d ← checkLongitude "bottom_right_lon" bottomRightLon
  pure ⟨a, b, c, d⟩

def toFilter (r : Rectangle) : RowFilter :=
  .field geoKey (some GeoWord.rect.wire)
    (.list [.list [r.topLeftLat.toValue, r.topLeftLon.toValue],
      .list [r.bottomRightLat.toValue, r.bottomRightLon.toValue]])

end Rectangle

def Value.shapeFilter? : Value → Option RowFilter
  | .circle c => some c.toFilter
  | .rectangle r => some r.toFilter
  | _ => none

end RowQuery
