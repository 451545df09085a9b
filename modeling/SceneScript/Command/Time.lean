import SceneScript.Number.Decimal

/-!
# Times of reports

A time is written as date and time of day in universal time, from the seconds since the beginning
of 1970. Years are counted from March, so that the leap day is the last of a year.
-/

namespace SceneScript.Command

/-- A number in decimal, with zeros in front up to a width. -/
def padded (width n : Nat) : String :=
  let digits := decimalDigits n
  String.ofList (List.replicate (width - digits.length) '0' ++ digits)

/-- A date. -/
structure Date where
  /-- The year. -/
  year : Nat
  /-- The month, from one. -/
  month : Nat
  /-- The day of the month, from one. -/
  day : Nat
  deriving DecidableEq, Repr

/-- The date of a day, counted from the first of January 1970. -/
def Date.ofDay (n : Nat) : Date :=
  let days := n + 719468
  let era := days / 146097
  let dayOfEra := days % 146097
  let yearOfEra := (dayOfEra - dayOfEra / 1460 + dayOfEra / 36524 - dayOfEra / 146096) / 365
  let dayOfYear := dayOfEra - (365 * yearOfEra + yearOfEra / 4 - yearOfEra / 100)
  let monthFromMarch := (5 * dayOfYear + 2) / 153
  let day := dayOfYear - (153 * monthFromMarch + 2) / 5 + 1
  let month := if monthFromMarch < 10 then monthFromMarch + 3 else monthFromMarch - 9
  let year := yearOfEra + era * 400 + (if month ≤ 2 then 1 else 0)
  ⟨year, month, day⟩

/-- The time a number of seconds after the beginning of 1970. -/
def timeText (seconds : Nat) : String :=
  let date := Date.ofDay (seconds / 86400)
  let rest := seconds % 86400
  padded 4 date.year ++ "-" ++ padded 2 date.month ++ "-" ++ padded 2 date.day ++ "T"
    ++ padded 2 (rest / 3600) ++ ":" ++ padded 2 (rest / 60 % 60) ++ ":" ++ padded 2 (rest % 60)
    ++ "Z"

example : timeText 0 = "1970-01-01T00:00:00Z" := by decide +kernel

example : timeText 951827696 = "2000-02-29T12:34:56Z" := by decide +kernel

example : timeText 1735689599 = "2024-12-31T23:59:59Z" := by decide +kernel

end SceneScript.Command
