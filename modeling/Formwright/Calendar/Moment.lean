import Formwright.Calendar.Date

/-
  Moments: a day with a time of day, to the microsecond, and perhaps a distance from universal time.
-/

namespace Formwright.Calendar

/-- A time of day; `zone` is the distance from universal time in minutes. -/
structure Moment where
  date : Date
  hour : Nat
  minute : Nat
  second : Nat
  micro : Nat
  zone : Option Int
  deriving Repr, DecidableEq

/-- What keeps numbers from being a moment. -/
inductive MomentFault where
  | date (fault : DateFault)
  | hour
  | minute
  | second
  | zone (minutes : Int)
  deriving Repr, DecidableEq

/-- The moment with these numbers, checked zone first, then from the year down. -/
def Moment.check (year month day hour minute second micro : Nat) (zone : Option Int) :
    Except MomentFault Moment := do
  match zone with
  | some z => if 1440 ≤ z.natAbs then throw (.zone z)
  | none => pure ()
  let date ← (Date.check year month day).mapError .date
  if 24 ≤ hour then throw .hour
  if 60 ≤ minute then throw .minute
  if 60 ≤ second then throw .second
  return ⟨date, hour, minute, second, micro, zone⟩

namespace Moment

/-- The distance from universal time: sign, hours, minutes. -/
def zoneText (z : Int) : String :=
  (if z < 0 then "-" else "+") ++ Text.paddedNat 2 (z.natAbs / 60) ++ ":" ++ Text.paddedNat 2 (z.natAbs % 60)

/-- Day, separator, time of day; microseconds only when there are some. -/
def isoText (m : Moment) (separator : String) : String :=
  m.date.isoText ++ separator ++ Text.paddedNat 2 m.hour ++ ":" ++ Text.paddedNat 2 m.minute ++ ":" ++
    Text.paddedNat 2 m.second ++ (if m.micro = 0 then "" else "." ++ Text.paddedNat 6 m.micro) ++
    (m.zone.map zoneText).getD ""

/-- Microseconds since the start of year 1, the zone not regarded. -/
def localMicros (m : Moment) : Int :=
  ((((Int.ofNat m.date.number * 24 + m.hour) * 60 + m.minute) * 60) + m.second) * 1000000 + m.micro

/-- Microseconds since the start of year 1 in universal time. -/
def universalMicros (m : Moment) : Int := m.localMicros - m.zone.getD 0 * 60000000

/-- The moment of a number of microseconds since the start of year 1, without a zone; none outside
the calendar. -/
def ofMicros? (n : Int) : Option Moment :=
  let perDay := 86400000000
  if n < 0 ∨ Int.ofNat (Date.count * perDay) ≤ n then none
  else
    let k := n.toNat
    let inDay := k % perDay
    let seconds := inDay / 1000000
    some ⟨Date.ofNumber (k / perDay), seconds / 3600, seconds / 60 % 60, seconds % 60, inDay % 1000000, none⟩

end Moment

example : ((Moment.ofMicros? ((Moment.mk ⟨2024, 1, 1⟩ 0 0 0 0 none).localMicros + 1500000)).map (·.isoText "T"))
    = some "2024-01-01T00:00:01.500000" := by decide +kernel

end Formwright.Calendar
