/-! Dates and times of day, counted in whole seconds from the start of the year 1970. -/

namespace ParamLens.Log

/-- A date and a time of day. -/
structure Moment where
  year : Int
  month : Int
  day : Int
  hour : Int
  minute : Int
  second : Int
deriving DecidableEq, Repr

/-- The days from the first of March of the year zero up to the start of the year 1970. -/
def daysBeforeEpoch : Int := 719468

/-- The days in four hundred years, after which the calendar repeats. -/
def daysPerEra : Int := 146097

/-- The year of an era, which starts in March, on the given day of the era. -/
def yearOfEra (day : Int) : Int :=
  (day - day / 1460 + day / 36524 - day / 146096) / 365

/-- The year, the month and the day of a day counted from the start of the year 1970. -/
def dateOf (days : Int) : Int × Int × Int :=
  let shifted := days + daysBeforeEpoch
  let era := shifted / daysPerEra
  let day := shifted % daysPerEra
  let year := yearOfEra day
  let dayOfYear := day - (365 * year + year / 4 - year / 100)
  let month := (5 * dayOfYear + 2) / 153
  let calendarMonth := if month < 10 then month + 3 else month - 9
  (year + era * 400 + (if calendarMonth ≤ 2 then 1 else 0), calendarMonth,
    dayOfYear - (153 * month + 2) / 5 + 1)

/-- The moment at a number of seconds. -/
def momentOf (seconds : Int) : Moment :=
  let (year, month, day) := dateOf (seconds / 86400)
  let rest := seconds % 86400
  ⟨year, month, day, rest / 3600, rest % 3600 / 60, rest % 60⟩

end ParamLens.Log
