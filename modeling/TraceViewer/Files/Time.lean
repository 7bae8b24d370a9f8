import TraceViewer.Number.Fixed

/-!
Points of time as dates of the Gregorian calendar. The calendar repeats every 400 years, and a
year is counted from March here, so that the day that some years lack is its last one.
-/

namespace TraceViewer.Time

/-- The days of 400 years. -/
def eraDays : Int := 146097

/-- The days from March 1 of year 0 to January 1 of 1970. -/
def epochDay : Int := 719468

/-- Year, month and day of a day counted from the start of 1970. -/
def date (day : Int) : Int × Nat × Nat :=
  let fromEpoch := day + epochDay
  let era := Int.fdiv fromEpoch eraDays
  let dayOfEra := (fromEpoch - era * eraDays).toNat
  let yearOfEra := (dayOfEra - dayOfEra / 1460 + dayOfEra / 36524 - dayOfEra / 146096) / 365
  let dayOfYear := dayOfEra - (365 * yearOfEra + yearOfEra / 4 - yearOfEra / 100)
  let fromMarch := (5 * dayOfYear + 2) / 153
  let dayOfMonth := dayOfYear - (153 * fromMarch + 2) / 5 + 1
  let month := if fromMarch < 10 then fromMarch + 3 else fromMarch - 9
  let year := yearOfEra + era * 400
  (if month ≤ 2 then year + 1 else year, month, dayOfMonth)

/-- A number with zeros before it up to a number of digits. -/
def padded (digits n : Nat) : String :=
  let text := Nat.toDigits 10 n
  .ofList (List.replicate (digits - text.length) '0' ++ text)

/-- A year of four digits, with a sign before years that are negative or need more. -/
def yearText (year : Int) : String :=
  if year < 0 then "-" ++ padded 4 year.natAbs
  else if 9999 < year then "+" ++ padded 4 year.natAbs
  else padded 4 year.natAbs

/-- The date and time of a second counted from the start of 1970, as in "2024-01-02T03:04:05Z". -/
def stamp (seconds : Int) : String :=
  let day := Int.fdiv seconds 86400
  let second := (seconds - day * 86400).toNat
  let (year, month, dayOfMonth) := date day
  yearText year ++ "-" ++ padded 2 month ++ "-" ++ padded 2 dayOfMonth ++ "T" ++
    padded 2 (second / 3600) ++ ":" ++ padded 2 (second / 60 % 60) ++ ":" ++
    padded 2 (second % 60) ++ "Z"

end TraceViewer.Time
