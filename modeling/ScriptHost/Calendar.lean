/-!
# Dates and times

Points in time as seconds and nanoseconds since the start of 1970 in UTC, and their civil form in the
Gregorian calendar.

* `daysOfCivil`, `civilOfDays`: day numbers and dates, each the other's inverse.
* `Timestamp.rfc3339`, `Timestamp.plain`: written forms.
* `Timestamp.ofRfc3339?`: reads a date and a time with an offset.
-/

namespace ScriptHost

/-! ## Days -/

/-- A date of the Gregorian calendar; month and day count from 1. -/
structure Date where
  year : Int
  month : Nat
  day : Nat
deriving Repr, DecidableEq

/-- Days from the start of 1970 to a date. Years are counted from March, so that the day that leap
years add comes last. -/
def daysOfCivil (year : Int) (month : Int) (day : Int) : Int :=
  let y := if month ≤ 2 then year - 1 else year
  let era := y.fdiv 400
  let yearOfEra := y - era * 400
  let monthFromMarch := (month + 9).fmod 12
  let dayOfYear := (153 * monthFromMarch + 2) / 5 + day - 1
  let dayOfEra := yearOfEra * 365 + yearOfEra / 4 - yearOfEra / 100 + dayOfYear
  era * 146097 + dayOfEra - 719468

/-- The date that lies a number of days after the start of 1970. -/
def civilOfDays (days : Int) : Date :=
  let z := days + 719468
  let era := z.fdiv 146097
  let dayOfEra := z - era * 146097
  let yearOfEra := (dayOfEra - dayOfEra / 1460 + dayOfEra / 36524 - dayOfEra / 146096) / 365
  let dayOfYear := dayOfEra - (365 * yearOfEra + yearOfEra / 4 - yearOfEra / 100)
  let monthFromMarch := (5 * dayOfYear + 2) / 153
  let day := dayOfYear - (153 * monthFromMarch + 2) / 5 + 1
  let month := if monthFromMarch < 10 then monthFromMarch + 3 else monthFromMarch - 9
  ⟨yearOfEra + era * 400 + (if month ≤ 2 then 1 else 0), month.toNat, day.toNat⟩

/-- The day of the week, from 0 for Sunday. -/
def weekdayOfDays (days : Int) : Nat := ((days + 4).fmod 7).toNat

/-- A date and a time of day. -/
structure Civil where
  date : Date
  hour : Nat
  minute : Nat
  second : Nat
  weekday : Nat
  /-- The day of the year, from 0. -/
  yearday : Nat
deriving Repr, DecidableEq

/-- The civil form of a number of seconds since the start of 1970. -/
def civilOfSeconds (seconds : Int) : Civil :=
  let days := seconds.fdiv 86400
  let rest := (seconds.fmod 86400).toNat
  let date := civilOfDays days
  { date
    hour := rest / 3600
    minute := rest / 60 % 60
    second := rest % 60
    weekday := weekdayOfDays days
    yearday := (days - daysOfCivil date.year 1 1).toNat }

/-! ## Points in time -/

/-- A point in time: seconds since the start of 1970, and nanoseconds after them. A leap second is the
second before it with nanoseconds beyond a second. -/
structure Timestamp where
  seconds : Int
  nanos : Nat := 0
deriving Repr, DecidableEq

/-- A natural number with zeros in front up to a width. -/
def padZeros (width n : Nat) : String :=
  let ds := toString n
  "".pushn '0' (width - ds.length) ++ ds

namespace Timestamp

/-- The year with at least four digits. -/
def yearText (year : Int) : String :=
  if year < 0 then "-" ++ padZeros 4 year.natAbs
  else if 9999 < year then "+" ++ toString year
  else padZeros 4 year.toNat

/-- The date and the time of day, with a mark between them. -/
def dateTime (mark : String) (t : Timestamp) : String :=
  let c := civilOfSeconds t.seconds
  yearText c.date.year ++ "-" ++ padZeros 2 c.date.month ++ "-" ++ padZeros 2 c.date.day ++ mark
    ++ padZeros 2 c.hour ++ ":" ++ padZeros 2 c.minute
    ++ ":" ++ padZeros 2 (c.second + t.nanos / 1000000000)

/-- The fraction of a second: none, or as many groups of three digits as it takes. -/
def fractionText (t : Timestamp) : String :=
  let nanos := t.nanos % 1000000000
  if nanos == 0 then ""
  else if nanos % 1000000 == 0 then "." ++ padZeros 3 (nanos / 1000000)
  else if nanos % 1000 == 0 then "." ++ padZeros 6 (nanos / 1000)
  else "." ++ padZeros 9 nanos

/-- The form for listings. -/
def plain (t : Timestamp) : String := t.dateTime " "

/-- The form for documents. -/
def rfc3339 (t : Timestamp) : String := t.dateTime "T" ++ t.fractionText ++ "Z"

/-! ## Reading -/

/-- A number of exactly `width` digits at the front. -/
def takeNumber (width : Nat) (cs : List Char) : Option (Nat × List Char) :=
  let ds := cs.take width
  if ds.length == width && ds.all Char.isDigit then
    some (ds.foldl (fun n c => 10 * n + (c.toNat - '0'.toNat)) 0, cs.drop width)
  else none

/-- One of the given characters at the front. -/
def takeMark (marks : List Char) : List Char → Option (List Char)
  | c :: cs => if marks.contains c then some cs else none
  | [] => none

/-- A fraction of a second in nanoseconds; digits after the ninth do not count. -/
def takeFraction : List Char → Nat × List Char
  | '.' :: cs =>
    let ds := cs.takeWhile Char.isDigit
    let nine := (ds ++ List.replicate 9 '0').take 9
    (nine.foldl (fun n c => 10 * n + (c.toNat - '0'.toNat)) 0, cs.dropWhile Char.isDigit)
  | cs => (0, cs)

/-- An offset from UTC in seconds. -/
def takeOffset (cs : List Char) : Option (Int × List Char) :=
  match cs with
  | 'Z' :: rest => some (0, rest)
  | 'z' :: rest => some (0, rest)
  | sign :: rest => do
    let negative ← if sign == '-' then some true else if sign == '+' then some false else none
    let (hours, rest) ← takeNumber 2 rest
    let rest ← takeMark [':'] rest
    let (minutes, rest) ← takeNumber 2 rest
    let seconds : Int := hours * 3600 + minutes * 60
    some (if negative then -seconds else seconds, rest)
  | [] => none

/-- The point in time that a text writes as a date, a time of day and an offset. -/
def ofRfc3339? (s : String) : Option Timestamp := do
  let (year, cs) ← takeNumber 4 s.toList
  let cs ← takeMark ['-'] cs
  let (month, cs) ← takeNumber 2 cs
  let cs ← takeMark ['-'] cs
  let (day, cs) ← takeNumber 2 cs
  let cs ← takeMark ['T', 't', ' '] cs
  let (hour, cs) ← takeNumber 2 cs
  let cs ← takeMark [':'] cs
  let (minute, cs) ← takeNumber 2 cs
  let cs ← takeMark [':'] cs
  let (second, cs) ← takeNumber 2 cs
  let (nanos, cs) := takeFraction cs
  let (offset, cs) ← takeOffset cs
  guard cs.isEmpty
  let days := daysOfCivil year month day
  let seconds := days * 86400 + hour * 3600 + minute * 60 - offset
  some (if second == 60 then ⟨seconds + 59, 1000000000 + nanos⟩ else ⟨seconds + second, nanos⟩)

end Timestamp

end ScriptHost
