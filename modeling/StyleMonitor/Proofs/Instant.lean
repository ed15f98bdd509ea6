import Mathlib.Logic.Function.Basic
import StyleMonitor.Instant

/-!
# The calendar

A date is read off a number of days in eras of 400 years, each of which is made of centuries, and
those of cycles of four years. It lies in the year in which the day lies, so an instant is in the
calendar between two new years.
-/

namespace StyleMonitor

namespace Date

/-! ### Eras -/

/-- The year in an era of one of its days. -/
def yearOfEra (day : Nat) : Nat :=
  (day - day / 1460 + day / 36524 - day / 146096) / 365

/-- The days of an era before one of its years. -/
def daysBefore (year : Nat) : Nat :=
  365 * year + year / 4 - year / 100

/-- A day of an era by its century and its cycle of four years. A century is a day short of the
cycles, but for the last one. -/
structure Cycles (day century cycle rest : Nat) : Prop where
  whole : day = 36524 * century + 1461 * cycle + rest
  centuries : century ≤ 3
  cycles : cycle ≤ 24
  days : rest ≤ 1460
  short : century < 3 → 1461 * cycle + rest < 36524

variable {day century cycle rest : Nat}

theorem exists_cycles (inEra : day < 146097) :
    ∃ century cycle rest, Cycles day century cycle rest := by
  let century := min (day / 36524) 3
  refine ⟨century, (day - 36524 * century) / 1461, (day - 36524 * century) % 1461, ?_⟩
  have split := Nat.div_add_mod (day - 36524 * century) 1461
  constructor <;> omega

theorem Cycles.yearOfEra (cycles : Cycles day century cycle rest) :
    yearOfEra day = 100 * century + 4 * cycle + min (rest / 365) 3 := by
  obtain ⟨whole, _, _, _, short⟩ := cycles
  rw [Date.yearOfEra]
  have fours : day / 1460 = 25 * century + cycle + (24 * century + cycle + rest) / 1460 := by omega
  rcases Nat.lt_or_ge day 146096 with inside | last
  · have hundreds : day / 36524 = century := by omega
    have eras : day / 146096 = 0 := by omega
    rw [fours, hundreds, eras]
    omega
  · obtain rfl : day = 146096 := by omega
    omega

/-- A day of an era lies in its year. The last year has the leap day of the era. -/
theorem daysBefore_yearOfEra (inEra : day < 146097) :
    yearOfEra day < 400 ∧ daysBefore (yearOfEra day) ≤ day ∧
      day < daysBefore (yearOfEra day + 1) + (yearOfEra day + 1) / 400 := by
  obtain ⟨century, cycle, rest, cycles⟩ := exists_cycles inEra
  rw [cycles.yearOfEra]
  obtain ⟨rfl, _, _, _, short⟩ := cycles
  generalize isYear : min (rest / 365) 3 = year
  have fours : (100 * century + 4 * cycle + year) / 4 = 25 * century + cycle := by omega
  have hundreds : (100 * century + 4 * cycle + year) / 100 = century := by omega
  refine ⟨by omega, by rw [daysBefore]; omega, ?_⟩
  rw [daysBefore]
  rcases Nat.lt_or_ge year 3 with early | late
  · have fours : (100 * century + 4 * cycle + year + 1) / 4 = 25 * century + cycle := by omega
    have hundreds : (100 * century + 4 * cycle + year + 1) / 100 = century := by omega
    omega
  · obtain rfl : year = 3 := by omega
    have fours : (100 * century + 4 * cycle + 3 + 1) / 4 = 25 * century + cycle + 1 := by omega
    rcases Nat.lt_or_ge cycle 24 with inside | last
    · have hundreds : (100 * century + 4 * cycle + 3 + 1) / 100 = century := by omega
      omega
    · have hundreds : (100 * century + 4 * cycle + 3 + 1) / 100 = century + 1 := by omega
      rcases Nat.lt_or_ge century 3 with _ | _ <;> omega

theorem daysBefore_succ {year : Nat} (inEra : year < 400) :
    daysBefore (year + 1) + (year + 1) / 400 ≤ daysBefore year + 366 := by
  rcases Nat.lt_or_ge year 399 with early | late
  · have eras : (year + 1) / 400 = 0 := by omega
    simp only [daysBefore, eras]
    omega
  · obtain rfl : year = 399 := by omega
    decide

/-! ### Years -/

/-- The days from the first of March of the year 0 to that of another year. -/
def marchFirst (year : Int) : Int :=
  365 * year + year / 4 - year / 100 + year / 400

/-- The days from the start of 1970 to the start of a year. -/
def newYear (year : Int) : Int :=
  marchFirst (year - 1) + 306 - 719468

theorem marchFirst_succ (year : Int) : marchFirst year + 365 ≤ marchFirst (year + 1) := by
  simp only [marchFirst]
  omega

theorem marchFirst_era (era : Int) (year : Nat) :
    marchFirst (year + era * 400) = 146097 * era + daysBefore year + year / 400 := by
  simp only [marchFirst, daysBefore]
  omega

theorem newYear_succ (year : Int) : newYear (year + 1) = marchFirst year + 306 - 719468 := by
  rw [newYear, Int.add_sub_cancel]

theorem newYear_mono {first second : Int} (before : first ≤ second) :
    newYear first ≤ newYear second := by
  simp only [newYear, marchFirst]
  omega

/-- January and February belong to the next year. -/
theorem month_le_two_iff (rest : Nat) (inYear : rest ≤ 365) :
    (if (5 * rest + 2) / 153 < 10 then (5 * rest + 2) / 153 + 3 else (5 * rest + 2) / 153 - 9) ≤ 2
      ↔ 306 ≤ rest := by
  split <;> omega

theorem year_ofDays (days : Int) : ∃ (era : Int) (day : Nat), day < 146097 ∧
    days + 719468 = 146097 * era + day ∧
    (ofDays days).year = yearOfEra day + era * 400 +
      if 306 ≤ day - daysBefore (yearOfEra day) then 1 else 0 := by
  refine ⟨(days + 719468) / 146097, ((days + 719468) % 146097).toNat, by omega, by omega, ?_⟩
  have inYear : ((days + 719468) % 146097).toNat -
      daysBefore (yearOfEra ((days + 719468) % 146097).toNat) ≤ 365 := by
    generalize isDay : ((days + 719468) % 146097).toNat = day
    obtain ⟨inside, -, ends⟩ := daysBefore_yearOfEra (show day < 146097 by omega)
    have := daysBefore_succ inside
    omega
  exact congrArg (HAdd.hAdd _) (if_congr (month_le_two_iff _ inYear) rfl rfl)

/-- A day lies in the year of its date. -/
theorem newYear_year (days : Int) :
    newYear (ofDays days).year ≤ days ∧ days < newYear ((ofDays days).year + 1) := by
  obtain ⟨era, day, inEra, whole, isYear⟩ := year_ofDays days
  obtain ⟨inside, begins, ends⟩ := daysBefore_yearOfEra inEra
  rw [isYear]
  generalize yearOfEra day = year at inside begins ends ⊢
  have own := marchFirst_era era year
  have next := marchFirst_era era (year + 1)
  rw [Int.natCast_add, Int.natCast_one, Int.add_right_comm] at next
  split
  · rw [newYear_succ, newYear_succ]
    omega
  · have before := marchFirst_succ (year + era * 400 - 1)
    rw [Int.sub_add_cancel] at before
    rw [Int.add_zero, newYear_succ, newYear]
    omega

theorem year_le_iff (days year : Int) :
    (ofDays days).year ≤ year ↔ days < newYear (year + 1) := by
  obtain ⟨first, last⟩ := newYear_year days
  constructor
  · intro before
    exact Int.lt_of_lt_of_le last (newYear_mono (Int.add_le_add_right before 1))
  · intro before
    refine Int.not_lt.mp fun later => ?_
    have first := Int.le_trans (newYear_mono later) first
    omega

end Date

namespace Instant

theorem ofMillis_natCast_injective :
    Function.Injective fun millis : Nat => Instant.ofMillis millis := by
  intro first second same
  have counts := congrArg Instant.millis same
  rw [millis_ofMillis, millis_ofMillis] at counts
  exact Int.ofNat.inj counts

/-- The milliseconds from the start of 1970 to the end of the calendar. -/
def calendarMillis : Nat := 8210266876800000

theorem inCalendar_iff (instant : Instant) : instant.inCalendar = true ↔
    Date.newYear (-262143) ≤ instant.seconds / perDay ∧
      instant.seconds / perDay < Date.newYear 262143 := by
  have early : instant.date.year ≤ -262144 ↔ instant.seconds / perDay < Date.newYear (-262143) :=
    Date.year_le_iff _ _
  have ends : instant.date.year ≤ 262142 ↔ instant.seconds / perDay < Date.newYear 262143 :=
    Date.year_le_iff _ _
  rw [inCalendar, Bool.and_eq_true, decide_eq_true_iff, decide_eq_true_iff, ends]
  omega

/-- An instant after the start of 1970 is in the calendar up to its end. -/
theorem inCalendar_ofMillis (millis : Nat) :
    (ofMillis millis).inCalendar = true ↔ millis < calendarMillis := by
  rw [inCalendar_iff]
  have first : Date.newYear (-262143) = -96465292 := by decide
  have last : Date.newYear 262143 = 95026237 := by decide
  rw [first, last]
  simp only [ofMillis, seconds, perDay, perMilli, calendarMillis]
  omega

end Instant

end StyleMonitor
