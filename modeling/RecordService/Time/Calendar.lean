/-!
# Dates

Instants count milliseconds from the start of the year 1970, in universal time and without leap
seconds. `Calendar.text` writes one as a date and a time of day with three decimal places and a
closing `Z`, as in `2024-01-01T00:00:00.000Z`.
-/

namespace RecordService.Calendar

/-- A day of the calendar. -/
structure Date where
  year : Int
  month : Nat
  day : Nat
  deriving DecidableEq, Repr

/-- The milliseconds of a day. -/
def dayLength : Nat := 86400000

/-- The date of the day that comes `days` days after the first of January 1970. The years are
taken to begin in March, so that a leap day ends one, and come in cycles of 400 years. -/
def dateOfDays (days : Int) : Date :=
  let fromMarch := days + 719468
  let inCycle := (fromMarch % 146097).toNat
  let yearInCycle := (inCycle - inCycle / 1460 + inCycle / 36524 - inCycle / 146096) / 365
  let inYear := inCycle - (365 * yearInCycle + yearInCycle / 4 - yearInCycle / 100)
  let fromMarchMonth := (5 * inYear + 2) / 153
  let day := inYear - (153 * fromMarchMonth + 2) / 5 + 1
  let month := if fromMarchMonth < 10 then fromMarchMonth + 3 else fromMarchMonth - 9
  let year := fromMarch / 146097 * 400 + yearInCycle
  ⟨if month ≤ 2 then year + 1 else year, month, day⟩

/-- A number in decimal with at least `width` digits. -/
def padded (width n : Nat) : String :=
  let digits := toString n
  String.ofList (List.replicate (width - digits.length) '0') ++ digits

/-- The text of a year: four digits, with a sign if it is not one of the years 0 to 9999. -/
def yearText (year : Int) : String :=
  if 0 ≤ year ∧ year ≤ 9999 then padded 4 year.toNat
  else (if year < 0 then "-" else "+") ++ padded 4 year.natAbs

/-- The text of an instant. -/
def text (at_ : Int) : String :=
  let date := dateOfDays (at_ / dayLength)
  let ms := (at_ % dayLength).toNat
  yearText date.year ++ "-" ++ padded 2 date.month ++ "-" ++ padded 2 date.day ++ "T" ++
    padded 2 (ms / 3600000) ++ ":" ++ padded 2 (ms / 60000 % 60) ++ ":" ++
    padded 2 (ms / 1000 % 60) ++ "." ++ padded 3 (ms % 1000) ++ "Z"

end RecordService.Calendar
