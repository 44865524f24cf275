import RowQuery.Failure

/-!
# Time stamps

The text in local time of a time that is given in seconds since the start of 1970 in universal time.
There are two forms: one to the microsecond, rounded, ties to even, and one to the second, cut off.
What local time is at a moment, the system decides.
-/

set_option autoImplicit false

namespace RowQuery

/-- The rule of local time: by how many seconds it is ahead of universal time at a second of the
latter. -/
structure Zone where
  offset : Int → Int

namespace Zone

/-- Where local time is universal time. -/
def universal : Zone := ⟨fun _ => 0⟩

/-- The second of local time. -/
def localSecond (zone : Zone) (seconds : Int) : Int := seconds + zone.offset seconds

end Zone

namespace Timestamp

/-- A day of the calendar. -/
structure Date where
  year : Int
  month : Nat
  day : Nat

/-- The date of a day, counted from the first of January 1970. The year is taken to start in March, so
that the leap day ends it; then the months alternate in length with a period of five. -/
def dateOfDay (day : Int) : Date :=
  let shifted := day + 719468
  let era := shifted / 146097
  let dayOfEra := (shifted % 146097).toNat
  let yearOfEra := (dayOfEra - dayOfEra / 1460 + dayOfEra / 36524 - dayOfEra / 146096) / 365
  let dayOfYear := dayOfEra - (365 * yearOfEra + yearOfEra / 4 - yearOfEra / 100)
  let shiftedMonth := (5 * dayOfYear + 2) / 153
  let month := if shiftedMonth < 10 then shiftedMonth + 3 else shiftedMonth - 9
  let year := (yearOfEra : Int) + era * 400 + (if month ≤ 2 then 1 else 0)
  ⟨year, month, dayOfYear - (153 * shiftedMonth + 2) / 5 + 1⟩

def daySeconds : Nat := 86400

def twoDigits (n : Nat) : Text := (Text.ofNat n).padStart 2 (.scalar '0')

def dateText (year : Text) (date : Date) : Text :=
  year ++ .scalar '-' :: twoDigits date.month ++ .scalar '-' :: twoDigits date.day

def clockText (second : Nat) : Text :=
  twoDigits (second / 3600) ++ .scalar ':' :: twoDigits (second / 60 % 60) ++
    .scalar ':' :: twoDigits (second % 60)

/-- The day and the second of the day. -/
def splitDay (seconds : Int) : Int × Nat :=
  (seconds / daySeconds, (seconds % daySeconds).toNat)

/-- Fails for seconds that no machine word holds. -/
def checkSeconds (seconds : Int) : Except Failure Int :=
  if -(Nat.pow 2 63 : Int) ≤ seconds ∧ seconds < Nat.pow 2 63 then .ok seconds
  else .error (.defect .timeOutOfRange)

/-- The exact time in units of double precision, where a machine word holds its seconds. -/
def checkUnits (x : Binary64) : Except Failure Int :=
  match x.units? with
  | some u => do
    let _ ← checkSeconds (u.tdiv Binary64.unitsPerOne)
    pure u
  | none =>
    match x with
    | .undefined _ => .error (.defect .undefinedTime)
    | _ => .error (.defect .timeOutOfRange)

/-- The date of a second. The calendar of the system counts the years from 1900 in a machine word. -/
def dateOfSecond (seconds : Int) : Except Failure Date :=
  let date := dateOfDay (splitDay seconds).1
  if -(Nat.pow 2 31 : Int) ≤ date.year - 1900 ∧ date.year - 1900 < Nat.pow 2 31 then .ok date
  else .error (.defect .noCalendar)

/-- The seconds and the microseconds of a time. The fraction is scaled in double precision before it
is rounded. -/
def toMicroseconds (u : Int) : Int × Nat :=
  let one : Int := Binary64.unitsPerOne
  let whole := u.tdiv one
  let scaled := ((Binary64.ofUnits false (u - whole * one)).times 1000000).units?.getD 0
  let rounded := roundHalfEven scaled.natAbs Binary64.unitsPerOne
  if scaled < 0 && rounded != 0 then (whole - 1, 1000000 - rounded)
  else if 1000000 ≤ rounded then (whole + 1, rounded - 1000000)
  else (whole, rounded)

/-- The date of a second in a year of four digits at most. The year in the message is a machine word,
which goes round. -/
def shortDate (seconds : Int) : Except Failure Date := do
  let date ← dateOfSecond seconds
  if date.year < 1 ∨ 9999 < date.year then
    .error (.defect (.yearOutOfRange (date.year.bmod (Nat.pow 2 32))))
  else .ok date

/-- The local date of a second. Whether the clocks were turned back is looked for a day before and, if
they were, by as much before the second. There must be such dates at these moments too. -/
def localDate (zone : Zone) (seconds : Int) : Except Failure Date := do
  let date ← shortDate (zone.localSecond seconds)
  let dayBefore := zone.localSecond (seconds - daySeconds)
  let _ ← shortDate dayBefore
  let turned := zone.localSecond seconds - dayBefore - daySeconds
  if turned < 0 then
    let _ ← shortDate (zone.localSecond (seconds + turned))
    pure date
  else pure date

def secondsAndMicros : Number → Except Failure (Int × Nat)
  | .int n => (checkSeconds n).map fun s => (s, 0)
  | .float x => (checkUnits x).map toMicroseconds

def wholeSeconds : Number → Except Failure Int
  | .int n => checkSeconds n
  | .float x => (checkUnits x).map (· / (Binary64.unitsPerOne : Int))

/-- The time to the microsecond; a whole second has no fraction. -/
def precise (zone : Zone) (n : Number) : Except Failure Text := do
  let (seconds, micros) ← secondsAndMicros n
  let date ← localDate zone seconds
  let fraction : Text :=
    if micros = 0 then []
    else .scalar '.' :: (Text.ofNat micros).padStart 6 (.scalar '0')
  pure (dateText ((Text.ofNat date.year.toNat).padStart 4 (.scalar '0')) date ++ .scalar 'T' ::
    clockText (splitDay (zone.localSecond seconds)).2 ++ fraction)

/-- The time to the second. The year must fit a machine word. -/
def toSecond (zone : Zone) (n : Number) : Except Failure Text := do
  let seconds := zone.localSecond (← wholeSeconds n)
  let date ← dateOfSecond seconds
  if (Nat.pow 2 31 : Int) ≤ date.year then .error (.defect .yearTooLarge)
  else
    pure (dateText (Text.ofInt date.year) date ++ .scalar ' ' :: clockText (splitDay seconds).2)

end Timestamp

end RowQuery
