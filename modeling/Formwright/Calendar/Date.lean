import Formwright.Text.Numeral

/-
  Days of the proleptic Gregorian calendar, years 1 to 9999, and their count from the first day.
-/

namespace Formwright.Calendar

/-- A day of the calendar. -/
structure Date where
  year : Nat
  month : Nat
  day : Nat
  deriving Repr, DecidableEq

def isLeap (year : Nat) : Bool := year % 4 == 0 && (year % 100 != 0 || year % 400 == 0)

def daysInMonth (year month : Nat) : Nat :=
  if month = 2 then (if isLeap year then 29 else 28)
  else if month = 4 ∨ month = 6 ∨ month = 9 ∨ month = 11 then 30
  else 31

/-- What keeps three numbers from being a day. -/
inductive DateFault where
  | year (n : Nat)
  | month
  | day
  deriving Repr, DecidableEq

/-- The day with these numbers, checked from the year down. -/
def Date.check (year month day : Nat) : Except DateFault Date :=
  if year = 0 ∨ 9999 < year then .error (.year year)
  else if month = 0 ∨ 12 < month then .error .month
  else if day = 0 ∨ daysInMonth year month < day then .error .day
  else .ok ⟨year, month, day⟩

/-- The number of days in the years before a year. -/
def daysBeforeYear (year : Nat) : Nat :=
  let y := year - 1
  365 * y + y / 4 - y / 100 + y / 400

/-- The number of days in the months before a month of a year. -/
def daysBeforeMonth (year month : Nat) : Nat :=
  (List.range (month - 1)).foldl (fun n m => n + daysInMonth year (m + 1)) 0

namespace Date

/-- The number of days from the first day of year 1, which has number 0. -/
def number (d : Date) : Nat := daysBeforeYear d.year + daysBeforeMonth d.year d.month + (d.day - 1)

/-- Year and month are found by counting back from a bound that is never too small. -/
def ofNumber (n : Nat) : Date :=
  let guess := n / 365 + 1
  let year := ((List.range (guess / 1000 + 8)).find? fun k => daysBeforeYear (guess - k) ≤ n).elim 1 (guess - ·)
  let rest := n - daysBeforeYear year
  let month := ((List.range 12).find? fun k => daysBeforeMonth year (12 - k) ≤ rest).elim 1 (12 - ·)
  ⟨year, month, rest - daysBeforeMonth year month + 1⟩

/-- The number of days in years 1 to 9999. -/
def count : Nat := daysBeforeYear 10000

/-- Year, month and day of fixed width between hyphens. -/
def isoText (d : Date) : String :=
  Text.paddedNat 4 d.year ++ "-" ++ Text.paddedNat 2 d.month ++ "-" ++ Text.paddedNat 2 d.day

/-- The order of days. -/
def before (a b : Date) : Bool :=
  a.year < b.year || (a.year == b.year && (a.month < b.month || (a.month == b.month && a.day < b.day)))

end Date

example : (Date.mk 2024 1 1).number = 738885 ∧ Date.ofNumber 738885 = ⟨2024, 1, 1⟩ := by decide +kernel

end Formwright.Calendar
