import Kaufbot.Library.Printf

/-!
The C library's broken-down time. `gmtime` is the proleptic Gregorian calendar;
local time depends on the machine's time zone and is a parameter, with the
field ranges the C standard promises for a broken-down time.
-/

/-- `struct tm`, as far as names, timestamps and `mktime` read it. -/
structure Tm where
  sec : Int
  min : Int
  hour : Int
  mday : Int
  mon : Int
  year : Int
  isdst : Int
deriving DecidableEq, Repr

namespace Tm

/-- The ranges of a broken-down time returned by the C library. The year is counted from
1900, and `tm_year + 1900` is an `int` computation of the callers. -/
structure InRange (t : Tm) : Prop where
  sec : 0 ≤ t.sec ∧ t.sec ≤ 60
  min : 0 ≤ t.min ∧ t.min ≤ 59
  hour : 0 ≤ t.hour ∧ t.hour ≤ 23
  mday : 1 ≤ t.mday ∧ t.mday ≤ 31
  mon : 0 ≤ t.mon ∧ t.mon ≤ 11
  year : -(2 ^ 31) ≤ t.year ∧ t.year + 1900 < 2 ^ 31

instance (t : Tm) : Decidable t.InRange :=
  decidable_of_iff
    ((0 ≤ t.sec ∧ t.sec ≤ 60) ∧ (0 ≤ t.min ∧ t.min ≤ 59) ∧ (0 ≤ t.hour ∧ t.hour ≤ 23) ∧
      (1 ≤ t.mday ∧ t.mday ≤ 31) ∧ (0 ≤ t.mon ∧ t.mon ≤ 11) ∧
      (-(2 ^ 31) ≤ t.year ∧ t.year + 1900 < 2 ^ 31))
    ⟨fun ⟨a, b, c, d, e, f⟩ => ⟨a, b, c, d, e, f⟩, fun ⟨a, b, c, d, e, f⟩ => ⟨a, b, c, d, e, f⟩⟩

end Tm

/-- The civil date of a day counted from 1970-01-01, as year, month from 1 and day. -/
def civilOfDays (days : Int) : Int × Int × Int :=
  let z := days + 719468
  let era := z / 146097
  let doe := z % 146097
  let yoe := (doe - doe / 1460 + doe / 36524 - doe / 146096) / 365
  let doy := doe - (365 * yoe + yoe / 4 - yoe / 100)
  let mp := (5 * doy + 2) / 153
  let month := if mp < 10 then mp + 3 else mp - 9
  (yoe + era * 400 + (if month ≤ 2 then 1 else 0), month, doy - (153 * mp + 2) / 5 + 1)

/-- The day, counted from 1970-01-01, of a civil date. The month is taken modulo twelve. -/
def daysOfCivil (year month day : Int) : Int :=
  let y := year + (month - 1) / 12 - (if (month - 1) % 12 < 2 then 1 else 0)
  let m := (month - 1) % 12 + 1
  let era := y / 400
  let yoe := y % 400
  let doy := (153 * (if m > 2 then m - 3 else m + 9) + 2) / 5 + day - 1
  era * 146097 + (yoe * 365 + yoe / 4 - yoe / 100 + doy) - 719468

def gmtime (t : Int) : Tm :=
  let (year, month, day) := civilOfDays (t / 86400)
  let s := t % 86400
  { sec := s % 60, min := s / 60 % 60, hour := s / 3600, mday := day, mon := month - 1,
    year := year - 1900, isdst := 0 }

/-- The inverse of `gmtime`; fields out of range are carried over, as by `mktime`. -/
def timegm (t : Tm) : Int :=
  daysOfCivil (t.year + 1900) (t.mon + 1) t.mday * 86400 + t.hour * 3600 + t.min * 60 + t.sec

structure TimeZone where
  localtime : Int → Tm
  mktime : Tm → Int
  localtime_inRange : ∀ t, (localtime t).InRange

/-- Coordinated universal time, for clock readings whose year fits an `int`. -/
def TimeZone.utc : TimeZone where
  localtime t := if (gmtime t).InRange then gmtime t else gmtime 0
  mktime := timegm
  localtime_inRange t := by
    split
    · assumption
    · decide

example : gmtime 951827696 =
    { sec := 56, min := 34, hour := 12, mday := 29, mon := 1, year := 100, isdst := 0 } := by
  decide

example : timegm (gmtime 951827696) = 951827696 := by decide

example : timegm { gmtime 951827696 with mday := 30 } = 951827696 + 86400 := by decide
