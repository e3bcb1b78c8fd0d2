import FailureWire.Number.Decimal

/-!
# Instants

An instant is a whole number of milliseconds since the beginning of 1970, within 100 million days of
it. It is written as a calendar date and a time of day in UTC; years outside 0 to 9999 have a sign and
six digits. `Instant.longChars` writes it for people instead.

`Instant.chars` is `Date.prototype.toISOString`, `Instant.longChars` is `Date.prototype.toString`.
-/

namespace FailureWire.Instant

/-- The last instant, and by sign the first one. -/
def limit : Int := 8640000000000000

def dayLength : Int := 86400000

/-- The number of days from the beginning of 1970 to a day of the calendar. Years are counted from
March, in cycles of 400 years. -/
def daysFromCivil (year : Int) (month day : Nat) : Int :=
  let y := if month ≤ 2 then year - 1 else year
  let cycle := y / 400
  let yearOfCycle := y % 400
  let shifted : Int := (month + 9) % 12
  let dayOfYear := (153 * shifted + 2) / 5 + day - 1
  let dayOfCycle := yearOfCycle * 365 + yearOfCycle / 4 - yearOfCycle / 100 + dayOfYear
  cycle * 146097 + dayOfCycle - 719468

/-- The year, month and day of a number of days since the beginning of 1970. -/
def civilFromDays (days : Int) : Int × Nat × Nat :=
  let z := days + 719468
  let cycle := z / 146097
  let dayOfCycle := z % 146097
  let yearOfCycle :=
    (dayOfCycle - dayOfCycle / 1460 + dayOfCycle / 36524 - dayOfCycle / 146096) / 365
  let dayOfYear := dayOfCycle - (365 * yearOfCycle + yearOfCycle / 4 - yearOfCycle / 100)
  let shifted := (5 * dayOfYear + 2) / 153
  let day := dayOfYear - (153 * shifted + 2) / 5 + 1
  let month := if shifted < 10 then shifted + 3 else shifted - 9
  let year := yearOfCycle + cycle * 400
  (if month ≤ 2 then year + 1 else year, month.toNat, day.toNat)

/-- Decimal digits, with zeros in front up to a width. -/
def padded (width n : Nat) : List Char :=
  let digits := Nat.toDigits 10 n
  List.replicate (width - digits.length) '0' ++ digits

def yearChars (year : Int) : List Char :=
  if 0 ≤ year ∧ year ≤ 9999 then padded 4 year.toNat
  else (if year < 0 then '-' else '+') :: padded 6 year.natAbs

def chars (ms : Int) : List Char :=
  let (year, month, day) := civilFromDays (ms / dayLength)
  let t := (ms % dayLength).toNat
  yearChars year ++ '-' :: padded 2 month ++ '-' :: padded 2 day ++
    'T' :: padded 2 (t / 3600000) ++ ':' :: padded 2 (t / 60000 % 60) ++
    ':' :: padded 2 (t / 1000 % 60) ++ '.' :: padded 3 (t % 1000) ++ ['Z']

/-- The names of the days of the week, from the day of the beginning of 1970 on. -/
def weekdays : List String := ["Thu", "Fri", "Sat", "Sun", "Mon", "Tue", "Wed"]

def monthNames : List String :=
  ["Jan", "Feb", "Mar", "Apr", "May", "Jun", "Jul", "Aug", "Sep", "Oct", "Nov", "Dec"]

/-- An instant as text for people, with the day of the week and the zone. -/
def longChars (ms : Int) : List Char :=
  let days := ms / dayLength
  let (year, month, day) := civilFromDays days
  let t := (ms % dayLength).toNat
  let sign := if year < 0 then ['-'] else []
  (weekdays.getD (days % 7).toNat "").toList ++ ' ' :: (monthNames.getD (month - 1) "").toList ++
    ' ' :: padded 2 day ++ ' ' :: sign ++ padded 4 year.natAbs ++ ' ' :: padded 2 (t / 3600000) ++
    ':' :: padded 2 (t / 60000 % 60) ++ ':' :: padded 2 (t / 1000 % 60) ++
    " GMT+0000 (Coordinated Universal Time)".toList

/-- The number of an instant, cut to whole milliseconds; not-a-number outside the range. -/
def ofNumber (n : Number) : Number :=
  if n.isFinite then
    let ms := if n.isNegative then -(-n.value).floor else n.value.floor
    if -limit ≤ ms ∧ ms ≤ limit then .ofInt ms else .nan
  else .nan

end FailureWire.Instant
