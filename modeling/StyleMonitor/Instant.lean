import StyleMonitor.Decimal

/-!
Instants and spans of time, and the calendar. An instant is a number of nanoseconds since the
start of 1970, negative before it; a span is a number of nanoseconds. Dates are those of the
Gregorian calendar in universal time, extended to all years.
-/

namespace StyleMonitor

/-- A point in time. -/
structure Instant where
  nanos : Int
  deriving DecidableEq, Repr

namespace Instant

/-- The nanoseconds of a millisecond. -/
def perMilli : Int := 1000000

/-- The instant so many milliseconds after the start of 1970. -/
def ofMillis (millis : Int) : Instant := ⟨millis * perMilli⟩

/-- The whole milliseconds of an instant, rounded down. -/
def millis (instant : Instant) : Int := instant.nanos / perMilli

/-- The nanoseconds past the whole milliseconds. -/
def subMillis (instant : Instant) : Int := instant.nanos % perMilli

/-- The milliseconds of an instant as a number of 64 bits (`to_millis`): zero before 1970, and the
largest such number past its range. -/
def recordedMillis (instant : Instant) : Nat :=
  min instant.millis.toNat (Nat.pow 2 64 - 1)

theorem millis_ofMillis (millis : Int) : (ofMillis millis).millis = millis := by
  simp [ofMillis, Instant.millis, perMilli]

end Instant

/-- A day of the calendar. -/
structure Date where
  year : Int
  month : Nat
  day : Nat
  deriving DecidableEq, Repr

namespace Date

/-- The days of 400 years. -/
def perEra : Int := 146097

/-- The date so many days after the first of January 1970. Years are counted from the first of
March here, so that a leap day is the last day of its year. -/
def ofDays (days : Int) : Date :=
  let shifted := days + 719468
  let era := shifted / perEra
  let dayOfEra := (shifted % perEra).toNat
  let yearOfEra := (dayOfEra - dayOfEra / 1460 + dayOfEra / 36524 - dayOfEra / 146096) / 365
  let dayOfYear := dayOfEra - (365 * yearOfEra + yearOfEra / 4 - yearOfEra / 100)
  let monthFromMarch := (5 * dayOfYear + 2) / 153
  let day := dayOfYear - (153 * monthFromMarch + 2) / 5 + 1
  let month := if monthFromMarch < 10 then monthFromMarch + 3 else monthFromMarch - 9
  ⟨yearOfEra + era * 400 + (if month ≤ 2 then 1 else 0), month, day⟩

/-- A year as it is written: four digits, with a sign when they do not suffice. -/
def yearText (year : Int) : String :=
  if year < 0 then "-" ++ Decimal.padded 4 year.natAbs
  else if year < 10000 then Decimal.padded 4 year.natAbs
  else "+" ++ Decimal.text year.natAbs

/-- A date as it is written. -/
def text (date : Date) : String :=
  yearText date.year ++ "-" ++ Decimal.padded 2 date.month ++ "-" ++ Decimal.padded 2 date.day

end Date

namespace Instant

/-- The seconds of a day. -/
def perDay : Int := 86400

/-- The whole seconds of an instant, rounded down. -/
def seconds (instant : Instant) : Int := instant.nanos / 1000000000

/-- The day of an instant. -/
def date (instant : Instant) : Date := Date.ofDays (instant.seconds / perDay)

/-- The calendar covers the instants of these years. -/
def inCalendar (instant : Instant) : Bool :=
  let year := instant.date.year
  year ≤ 262142 && -262143 ≤ year

/-- An instant as it is written (`format_time`): date, time of day and offset from universal time.
Outside the calendar there is none. -/
def text? (instant : Instant) : Option String :=
  if instant.inCalendar then
    let second := (instant.seconds % perDay).toNat
    some (instant.date.text ++ " " ++ Decimal.padded 2 (second / 3600) ++ ":" ++
      Decimal.padded 2 (second / 60 % 60) ++ ":" ++ Decimal.padded 2 (second % 60) ++ " +00:00")
  else none

end Instant

end StyleMonitor
