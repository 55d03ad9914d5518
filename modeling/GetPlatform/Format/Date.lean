import Mathlib.Data.String.Basic

set_option autoImplicit false

/-! # Dates

A `Date` is an instant, in milliseconds from the start of 1970. Its calendar date in UTC is computed
from the number of its day, with years that start in March, so that a leap day ends one. -/

structure Date where
  ms : Int
  deriving DecidableEq

namespace Date

def dayNumber (d : Date) : Int := d.ms / 86400000

/-- Year, month and day of the month of a day. -/
def civil (day : Int) : Int × Int × Int :=
  let era := (day + 719468) / 146097
  let dayOfEra := (day + 719468) % 146097
  let yearOfEra := (dayOfEra - dayOfEra / 1460 + dayOfEra / 36524 - dayOfEra / 146096) / 365
  let dayOfYear := dayOfEra - (365 * yearOfEra + yearOfEra / 4 - yearOfEra / 100)
  let fromMarch := (5 * dayOfYear + 2) / 153
  let month := if fromMarch < 10 then fromMarch + 3 else fromMarch - 9
  (yearOfEra + era * 400 + if month ≤ 2 then 1 else 0, month,
    dayOfYear - (153 * fromMarch + 2) / 5 + 1)

example : civil 0 = (1970, 1, 1) ∧ civil 19782 = (2024, 2, 29) ∧ civil (-1) = (1969, 12, 31) := by
  decide

def getUTCFullYear (d : Date) : Int := (civil d.dayNumber).1

/-- January is zero. -/
def getUTCMonth (d : Date) : Int := (civil d.dayNumber).2.1 - 1

/-- `padStart`, for the text of a number. -/
def padStart (n : Int) (width : Nat) : String :=
  let text := toString n
  .ofList (List.replicate (width - text.length) '0') ++ text

/-- A year has four digits, or a sign and six. -/
def isoYear (year : Int) : String :=
  if 0 ≤ year ∧ year ≤ 9999 then padStart year 4
  else (if year < 0 then "-" else "+") ++ padStart year.natAbs 6

def toISOString (d : Date) : String :=
  let (year, month, day) := civil d.dayNumber
  let ms := d.ms % 86400000
  isoYear year ++ "-" ++ padStart month 2 ++ "-" ++ padStart day 2 ++ "T" ++
    padStart (ms / 3600000) 2 ++ ":" ++ padStart (ms / 60000 % 60) 2 ++ ":" ++
    padStart (ms / 1000 % 60) 2 ++ "." ++ padStart (ms % 1000) 3 ++ "Z"

end Date
