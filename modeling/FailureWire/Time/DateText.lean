import FailureWire.Time.Instant
import FailureWire.Time.Token

/-!
# Reading date texts

A date text is read in one of two ways. The strict way takes the calendar form that `Instant.chars`
writes, of which the month, the day, the time and its parts may be missing; a date alone is a date in
UTC. Where that form fails before its time begins, the loose way goes on with what is left: numbers
with a colon behind them are times, other numbers are days, months and years in the orders that people
write them, and words name months, halves of the day and time zones.

A time without a zone is a time in UTC, in either way.

It is what `new Date(text)` does.
-/

namespace FailureWire

/-- A date text as far as it is read. -/
structure DateReading where
  /-- The numbers of the date, at most three: year, month and day if the form is strict. -/
  date : List Int := []
  strict : Bool := false
  month : Option Nat := none
  /-- Hour, minute, second and millisecond, as far as they are read. -/
  time : List Nat := []
  /-- The hours that the half of the day adds. -/
  half : Option Nat := none
  zoneIsBehind : Option Bool := none
  zoneHour : Option Nat := none
  zoneMinute : Option Nat := none
deriving Repr

namespace DateReading

/-! ## Parts -/

/-- Whether the next part of the time may be this number. -/
def expectsTime (r : DateReading) (n : Nat) : Bool :=
  match r.time.length with
  | 1 | 2 => n < 60
  | 3 => n < 1000
  | _ => false

def addDate (r : DateReading) (n : Int) : Option DateReading :=
  if r.date.length < 3 then some { r with date := r.date ++ [n] } else none

def addTime (r : DateReading) (n : Nat) : Option DateReading :=
  if r.time.length < 4 then some { r with time := r.time ++ [n] } else none

/-- The time with zeros for the parts that are missing. -/
def fillTime (time : List Nat) : List Nat := time ++ List.replicate (4 - time.length) 0

/-- Adds the last number of the time, if it has room. -/
def endTime (r : DateReading) (n : Nat) : DateReading :=
  { r with time := fillTime ((r.time ++ [n]).take 4) }

def setZone (r : DateReading) (hours : Int) : DateReading :=
  { r with zoneIsBehind := some (hours < 0), zoneHour := some hours.natAbs, zoneMinute := some 0 }

/-- The milliseconds that the digits of a fraction of a second stand for. -/
def fraction (n digits : Nat) : Nat :=
  match digits with
  | 1 => n * 100
  | 2 => n * 10
  | digits => n / Nat.pow 10 (min digits DateToken.maxDigits - 3)

/-! ## The strict form -/

/-- How far the strict form reaches. -/
inductive Strict where
  | complete (r : DateReading)
  /-- It fails in the date; so much is read, and these tokens are left. -/
  | date (r : DateReading) (rest : List DateToken)
  /-- It fails behind the date. -/
  | broken

/-- A zone that ends a text, after its sign. -/
def strictZone (r : DateReading) (isBehind : Bool) : List DateToken → Option DateReading
  | [.number n 4] =>
    if n / 100 < 24 ∧ n % 100 < 60 then
      some { r with zoneIsBehind := isBehind, zoneHour := some (n / 100), zoneMinute := some (n % 100) }
    else none
  | [.number h 2, .sign ':', .number m 2] =>
    if h < 24 ∧ m < 60 then
      some { r with zoneIsBehind := isBehind, zoneHour := some h, zoneMinute := some m }
    else none
  | _ => none

def strictEnd (r : DateReading) : List DateToken → Option DateReading
  | [] => some r
  | [.word (.zone _) 1] => some (r.setZone 0)
  | .sign '+' :: rest => strictZone r false rest
  | .sign '-' :: rest => strictZone r true rest
  | _ => none

/-- A time and what follows it. The hour 24 allows for zeros only. -/
def strictTime (r : DateReading) : List DateToken → Option DateReading
  | .number h 2 :: .sign ':' :: .number m 2 :: rest =>
    let fits (n : Nat) (limit : Nat) : Bool := n < limit && (h ≠ 24 || n = 0)
    if h ≤ 24 ∧ fits m 60 then
      match rest with
      | .sign ':' :: .number s 2 :: rest =>
        if fits s 60 then
          match rest with
          | .sign '.' :: .number f digits :: rest =>
            if h ≠ 24 ∨ f = 0 then strictEnd { r with time := [h, m, s, fraction f digits] } rest
            else none
          | rest => strictEnd { r with time := [h, m, s] } rest
        else none
      | rest => strictEnd { r with time := [h, m] } rest
    else none
  | _ => none

/-- What follows a date: a time, or nothing. -/
def afterDate (r : DateReading) : List DateToken → Strict
  | [] => .complete { r.setZone 0 with strict := true }
  | .word .timeMark _ :: rest =>
    match strictTime { r with strict := true } rest with
    | some r => .complete r
    | none => .broken
  | rest => .date r rest

def strictDay (r : DateReading) : List DateToken → Strict
  | .sign '-' :: .number d 2 :: rest =>
    if 1 ≤ d ∧ d ≤ 31 then afterDate { r with date := r.date ++ [(d : Int)] } rest
    else .date r (.number d 2 :: rest)
  | .sign '-' :: rest => .date r rest
  | rest => afterDate r rest

def strictMonth (r : DateReading) : List DateToken → Strict
  | .sign '-' :: .number m 2 :: rest =>
    if 1 ≤ m ∧ m ≤ 12 then strictDay { r with date := r.date ++ [(m : Int)] } rest
    else .date r (.number m 2 :: rest)
  | .sign '-' :: rest => .date r rest
  | rest => afterDate r rest

/-- The year and what follows it: four digits, or a sign and six digits other than `-000000`. -/
def strictYear : List DateToken → Strict
  | .number y 4 :: rest => strictMonth { date := [(y : Int)] } rest
  | .sign '+' :: .number y 6 :: rest => strictMonth { date := [(y : Int)] } rest
  | .sign '-' :: .number y 6 :: rest =>
    if y = 0 then .date {} (.sign '-' :: rest) else strictMonth { date := [-(y : Int)] } rest
  | rest => .date {} rest

/-! ## The loose form -/

/-- A token that may stand behind a complete time. -/
def endsTime : List DateToken → Bool
  | [] | .blank :: _ | .word (.zone _) 1 :: _ | .sign '+' :: _ | .sign '-' :: _ => true
  | _ => false

/-- Leaves out a hyphen. -/
def skipHyphen : List DateToken → List DateToken
  | .sign '-' :: rest => rest
  | rest => rest

/-- Reads a number of a zone, a time or a date, with what follows it. -/
def looseNumber (r : DateReading) (n : Nat) (rest : List DateToken) :
    Option (DateReading × List DateToken) :=
  if r.zoneHour.isSome && r.zoneMinute.isNone && n < 60 then
    some ({ r with zoneMinute := some n }, rest)
  else if r.expectsTime n then if endsTime rest then some (r.endTime n, rest) else none
  else (r.addDate n).map fun r => (r, skipHyphen rest)

def looseNumberAndSigns (r : DateReading) (n : Nat) :
    List DateToken → Option (DateReading × List DateToken)
  | .sign ':' :: .sign ':' :: rest =>
    if r.time.isEmpty then some ({ r with time := [n, 0] }, rest) else none
  | .sign ':' :: .sign '.' :: rest => (r.addTime n).map fun r => (r, rest)
  | .sign ':' :: rest => (r.addTime n).map fun r => (r, rest)
  | .sign '.' :: rest =>
    if r.expectsTime n then
      match rest with
      | .number f digits :: rest =>
        (r.addTime n).map fun r => (r.endTime (fraction f digits), rest)
      | _ => none
    else looseNumber r n rest
  | rest => looseNumber r n rest

/-- Reads a word; `started` if a number was read before it. One that means nothing may only stand at
the beginning, and not right before a number. -/
def looseWord (r : DateReading) (started : Bool) (w : DateWord) (rest : List DateToken) :
    Option (DateReading × List DateToken) :=
  let nothing : Option (DateReading × List DateToken) :=
    match rest with
    | .number _ _ :: _ => none
    | rest => if started then none else some (r, rest)
  match w with
  | .half hours => if r.time.isEmpty then nothing else some ({ r with half := hours }, rest)
  | .month n => some ({ r with month := n }, skipHyphen rest)
  | .zone hours => if started then some (r.setZone hours, rest) else nothing
  | .timeMark | .unknown => nothing

/-- Reads the hours of a zone after its sign, and its minutes unless a colon follows. -/
def looseZone (r : DateReading) (isBehind : Bool) (rest : List DateToken) :
    Option (DateReading × List DateToken) :=
  let (n, digits, rest) := match rest with
    | .number n digits :: rest => (n, digits, rest)
    | rest => (0, 0, rest)
  let r := { r with zoneIsBehind := isBehind }
  match rest with
  | .sign ':' :: _ => some ({ r with zoneHour := some n, zoneMinute := none }, rest)
  | rest =>
    if digits = 1 ∨ digits = 2 then some ({ r with zoneHour := some n, zoneMinute := some 0 }, rest)
    else if digits = 3 ∨ digits = 4 then
      some ({ r with zoneHour := some (n / 100), zoneMinute := some (n % 100) }, rest)
    else none

/-- Whether a sign begins a zone: behind a time, or behind the name of UTC. -/
def mayBeginZone (r : DateReading) : Bool :=
  !r.time.isEmpty || (r.zoneHour = some 0 && r.zoneMinute = some 0)

/-- Reads the tokens that are left; `started` once a number was read. -/
def looseWithin : Nat → Bool → DateReading → List DateToken → Option DateReading
  | 0, _, r, _ => some r
  | _, _, r, [] => some r
  | fuel + 1, _, r, .number n _ :: rest => do
    let (r, rest) ← looseNumberAndSigns r n rest
    looseWithin fuel true r rest
  | fuel + 1, started, r, .word w _ :: rest => do
    let (r, rest) ← looseWord r started w rest
    looseWithin fuel started r rest
  | fuel + 1, started, r, .sign c :: rest =>
    if (c = '+' ∨ c = '-') ∧ r.mayBeginZone then do
      let (r, rest) ← looseZone r (c = '-') rest
      looseWithin fuel true r rest
    else if (c = '+' ∨ c = '-' ∨ c = ')') ∧ started then none
    else looseWithin fuel started r rest
  | fuel + 1, started, r, .blank :: rest | fuel + 1, started, r, .other :: rest =>
    looseWithin fuel started r rest

def ofTokens? (tokens : List DateToken) : Option DateReading :=
  match strictYear tokens with
  | .complete r => some r
  | .date r rest => looseWithin rest.length (!r.date.isEmpty) r rest
  | .broken => none

/-! ## Instants -/

/-- A year of two digits stands for one of the years from 1950 to 2049. -/
def fullYear (year : Int) : Int :=
  if 0 ≤ year ∧ year < 50 then year + 2000
  else if 50 ≤ year ∧ year < 100 then year + 1900
  else year

/-- The year, the month and the day. Without the name of a month, a first number that is no day is the
year, and otherwise the month; with it, it is the year or the day. -/
def civil? (r : DateReading) : Option (Int × Nat × Nat) :=
  let isDay (n : Int) : Bool := 1 ≤ n && n ≤ 31
  match r.date ++ List.replicate (3 - r.date.length) 1 with
  | [a, b, c] =>
    let (year, month, day) := match r.month with
      | some m => if isDay a then (b, (m : Int), a) else (a, (m : Int), b)
      | none => if r.strict || !isDay a then (a, b, c) else (c, a, b)
    let year := if r.strict then year else fullYear year
    if !r.date.isEmpty && 1 ≤ month && month ≤ 12 && isDay day then
      some (year, month.toNat, day.toNat)
    else none
  | _ => none

def timeOfDay? (r : DateReading) : Option Nat :=
  match fillTime r.time with
  | [hour, minute, second, milli] =>
    let hour? : Option Nat := match r.half with
      | none => some hour
      | some more => if hour ≤ 12 then some (hour % 12 + more) else none
    match hour? with
    | none => none
    | some hour =>
      let fits := hour < 24 && minute < 60 && second < 60 && milli < 1000
      let ends := hour = 24 && minute = 0 && second = 0 && milli = 0
      if fits || ends then some (((hour * 60 + minute) * 60 + second) * 1000 + milli) else none
  | _ => none

/-- The largest offset of a zone, in seconds. -/
def maxOffset : Nat := 2147483647

/-- The milliseconds by which the zone is ahead of UTC. -/
def offset? (r : DateReading) : Option Int :=
  match r.zoneIsBehind with
  | none => some 0
  | some isBehind =>
    let seconds := (r.zoneHour.getD 0 * 3600 + r.zoneMinute.getD 0 * 60) % Nat.pow 2 32
    if maxOffset < seconds then none
    else some ((if isBehind then -(seconds : Int) else seconds) * 1000)

def instant? (r : DateReading) : Option Int := do
  let (year, month, day) ← r.civil?
  let time ← r.timeOfDay?
  let offset ← r.offset?
  let ms := Instant.daysFromCivil year month day * Instant.dayLength + time - offset
  if -Instant.limit ≤ ms ∧ ms ≤ Instant.limit then some ms else none

end DateReading

namespace Instant

def parse? (s : List Char) : Option Int :=
  (DateReading.ofTokens? (DateToken.ofText s)).bind DateReading.instant?

end Instant
end FailureWire
