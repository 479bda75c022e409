import RecordQuery.Number.Decimal

/-!
# Instants

A moment in time, counted in milliseconds from the start of 1970 in UTC, with its two written forms:
the ISO form with milliseconds, and the long form with the names of the day and the month.
-/

namespace RecordQuery

/-- The greatest distance from the start of 1970, in milliseconds: a hundred million days. -/
def instantLimit : Nat := 8640000000000000

/-- Milliseconds since the start of 1970 in UTC, within the limit on either side. -/
structure Instant where
  millis : Int
  withinLimit : millis.natAbs ≤ instantLimit
  deriving DecidableEq

namespace Instant

/-- The instant of a count of milliseconds, if it is within the limit. -/
def ofMillis? (n : Int) : Option Instant :=
  if h : n.natAbs ≤ instantLimit then some ⟨n, h⟩ else none

/-- A calendar day of the proleptic Gregorian calendar, months and days counted from one. -/
structure Day where
  year : Int
  month : Nat
  day : Nat

/-- The calendar day that lies a count of days after the start of 1970. Years are counted from
March, so that the leap day is the last day of one; 400 such years have 146097 days. -/
def dayOf (days : Int) : Day :=
  let z := days + 719468
  let era := z.fdiv 146097
  let ofEra := (z - era * 146097).toNat
  let yearOfEra := (ofEra - ofEra / 1460 + ofEra / 36524 - ofEra / 146096) / 365
  let ofYear := ofEra - (365 * yearOfEra + yearOfEra / 4 - yearOfEra / 100)
  let fromMarch := (5 * ofYear + 2) / 153
  let month := if fromMarch < 10 then fromMarch + 3 else fromMarch - 9
  { year := yearOfEra + era * 400 + (if month ≤ 2 then 1 else 0)
    month := month
    day := ofYear - (153 * fromMarch + 2) / 5 + 1 }

/-- The count of whole days since the start of 1970. -/
def days (t : Instant) : Int :=
  t.millis.fdiv 86400000

/-- The milliseconds since midnight. -/
def ofDay (t : Instant) : Nat :=
  (t.millis.fmod 86400000).toNat

/-- A number in at least `width` digits, with zeros in front. -/
def padded (width n : Nat) : String :=
  let ds := digits n
  .ofList (List.replicate (width - ds.length) '0' ++ ds)

/-- Hours, minutes and seconds. -/
def clock (t : Instant) : String :=
  let s := t.ofDay / 1000
  padded 2 (s / 3600) ++ ":" ++ padded 2 (s / 60 % 60) ++ ":" ++ padded 2 (s % 60)

/-- The year of the ISO form: four digits, or a sign and six if four do not suffice. -/
def isoYear (year : Int) : String :=
  if 0 ≤ year ∧ year ≤ 9999 then padded 4 year.toNat
  else (if year < 0 then "-" else "+") ++ padded 6 year.natAbs

/-- The ISO form, such as `2007-09-21T00:00:00.000Z`. -/
def isoText (t : Instant) : String :=
  let d := dayOf t.days
  isoYear d.year ++ "-" ++ padded 2 d.month ++ "-" ++ padded 2 d.day ++ "T" ++ t.clock ++ "."
    ++ padded 3 (t.ofDay % 1000) ++ "Z"

/-- The names of the months. -/
def monthNames : List String :=
  ["Jan", "Feb", "Mar", "Apr", "May", "Jun", "Jul", "Aug", "Sep", "Oct", "Nov", "Dec"]

/-- The names of the days of the week; the first day of 1970 was a Thursday. -/
def weekdayNames : List String :=
  ["Thu", "Fri", "Sat", "Sun", "Mon", "Tue", "Wed"]

/-- The long form, such as `Thu Jan 01 1970 00:00:00 GMT+0000 (Coordinated Universal Time)`. -/
def longText (t : Instant) : String :=
  let d := dayOf t.days
  weekdayNames.getD (t.days.fmod 7).toNat "" ++ " " ++ monthNames.getD (d.month - 1) "" ++ " "
    ++ padded 2 d.day ++ " " ++ (if d.year < 0 then "-" else "") ++ padded 4 d.year.natAbs ++ " "
    ++ t.clock ++ " GMT+0000 (Coordinated Universal Time)"

end Instant

end RecordQuery
