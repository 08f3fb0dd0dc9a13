import ScriptHost.Calendar
import ScriptHost.Guest.Native

/-!
# The clock library

The time of day and its civil form. Local time is UTC.
-/

namespace ScriptHost.Guest

/-! ## Written dates -/

/-- The names of the days of the week, from Sunday. -/
def weekdayNames : List String :=
  ["Sunday", "Monday", "Tuesday", "Wednesday", "Thursday", "Friday", "Saturday"]

/-- The names of the months. -/
def monthNames : List String :=
  ["January", "February", "March", "April", "May", "June", "July", "August", "September",
    "October", "November", "December"]

/-- The name at a place. -/
def nameAt (names : List String) (i : Nat) : String := (names[i]?).getD "?"

/-- A short name: three letters. -/
def shortName (s : String) : String := (s.take 3).toString

/-- A number of two digits or more, with a blank in place of a zero in front. -/
def padBlank (n : Nat) : String := if n < 10 then " " ++ toString n else toString n

/-- A year as the text of a number. -/
def yearNumber (year : Int) : String := toString year

/-- The hour on a clock of twelve. -/
def hourOfTwelve (hour : Nat) : Nat := if hour % 12 == 0 then 12 else hour % 12

/-- The week of the year, where weeks start on a day of the week. -/
def weekOfYear (c : Civil) (start : Nat) : Nat := (c.yearday + 7 - (c.weekday + 7 - start) % 7) / 7

/-- The week of the year and the year that it belongs to; the first week has the first Thursday. -/
def standardWeek (c : Civil) : Int × Nat :=
  let monday := (c.weekday + 6) % 7
  let week := (c.yearday + 10 - (monday + 1)) / 7
  let year := c.date.year
  let isLong := fun (y : Int) =>
    let lastDay := fun (y : Int) => (y + y.fdiv 4 - y.fdiv 100 + y.fdiv 400) % 7
    lastDay y == 4 || lastDay (y - 1) == 3
  if week == 0 then (year - 1, if isLong (year - 1) then 53 else 52)
  else if week == 53 && !isLong year then (year + 1, 1)
  else (year, week)

/-- What a conversion letter writes that is made of no others; `zone` is the name of the time zone. -/
def dateField? (zone : String) (c : Civil) : Char → Option String
  | 'a' => some (shortName (nameAt weekdayNames c.weekday))
  | 'A' => some (nameAt weekdayNames c.weekday)
  | 'b' => some (shortName (nameAt monthNames (c.date.month - 1)))
  | 'h' => some (shortName (nameAt monthNames (c.date.month - 1)))
  | 'B' => some (nameAt monthNames (c.date.month - 1))
  | 'C' => some (padZeros 2 (c.date.year.fdiv 100).toNat)
  | 'd' => some (padZeros 2 c.date.day)
  | 'e' => some (padBlank c.date.day)
  | 'g' => some (padZeros 2 ((standardWeek c).1 % 100).toNat)
  | 'G' => some (yearNumber (standardWeek c).1)
  | 'H' => some (padZeros 2 c.hour)
  | 'I' => some (padZeros 2 (hourOfTwelve c.hour))
  | 'j' => some (padZeros 3 (c.yearday + 1))
  | 'm' => some (padZeros 2 c.date.month)
  | 'M' => some (padZeros 2 c.minute)
  | 'n' => some "\n"
  | 'p' => some (if c.hour < 12 then "AM" else "PM")
  | 'S' => some (padZeros 2 c.second)
  | 't' => some "\t"
  | 'u' => some (toString (if c.weekday == 0 then 7 else c.weekday))
  | 'U' => some (padZeros 2 (weekOfYear c 0))
  | 'V' => some (padZeros 2 (standardWeek c).2)
  | 'w' => some (toString c.weekday)
  | 'W' => some (padZeros 2 (weekOfYear c 1))
  | 'y' => some (padZeros 2 (c.date.year % 100).toNat)
  | 'Y' => some (yearNumber c.date.year)
  | 'z' => some "+0000"
  | 'Z' => some zone
  | '%' => some "%"
  | _ => none

/-- The conversions that a conversion letter stands for. -/
def dateGroup? : Char → Option String
  | 'c' => some "a b e H:M:S Y"
  | 'D' => some "m/d/y"
  | 'F' => some "Y-m-d"
  | 'r' => some "I:M:S p"
  | 'R' => some "H:M"
  | 'T' => some "H:M:S"
  | 'x' => some "m/d/y"
  | 'X' => some "H:M:S"
  | _ => none

/-- What a conversion letter writes. -/
def dateText? (zone : String) (c : Civil) (letter : Char) : Option String :=
  match dateGroup? letter with
  | some group =>
    some (String.join (group.toList.map fun l =>
      if l.isAlpha then (dateField? zone c l).getD "" else String.ofList [l]))
  | none => dateField? zone c letter

/-- The letters that a modifier may stand before. -/
def modified : Char → List Char
  | 'E' => "cCxXyY".toList
  | 'O' => "deHImMSuUVwWy".toList
  | _ => []

/-- A time in a format, or the rest of the format from a conversion on that there is none of. -/
def writeDate (zone : String) (c : Civil) : List Char → String → Except String String
  | [], out => .ok out
  | '%' :: m :: letter :: rest, out =>
    if (modified m).contains letter then
      writeDate zone c rest (out ++ (dateText? zone c letter).getD "")
    else
      match dateText? zone c m with
      | some s => writeDate zone c (letter :: rest) (out ++ s)
      | none => .error (String.ofList (m :: letter :: rest))
  | ['%', letter], out =>
    match dateText? zone c letter with
    | some s => .ok (out ++ s)
    | none => .error (String.ofList [letter])
  | ['%'], _ => .error ""
  | ch :: rest, out => writeDate zone c rest (out.push ch)

/-- Whether the year of a date, counted from 1900, is a number of 32 bits. -/
def hasShortYear (c : Civil) : Bool :=
  -0x80000000 ≤ c.date.year - 1900 && c.date.year - 1900 < 0x80000000

namespace Library

/-! ## Dates as tables -/

/-- The fields of a date table. -/
def dateFields (c : Civil) : List (String × Value) :=
  let int := fun (n : Int) => Value.int (Int64.ofInt n)
  [("year", int c.date.year), ("month", int c.date.month), ("day", int c.date.day),
    ("hour", int c.hour), ("min", int c.minute), ("sec", int c.second),
    ("yday", int (c.yearday + 1)), ("wday", int (c.weekday + 1)), ("isdst", .bool false)]

/-- An integer field of a date table. Counted from `origin` it is a number of 32 bits. -/
def dateNumber (t : Value) (name : String) (default : Option Int) (origin : Int) : NativeM Int := do
  let v ← getField t (.ofText name)
  match v.toInteger? with
  | some i =>
    let i := i.toInt
    if (if 0 ≤ i then i - origin < 0x80000000 else origin - 0x80000000 ≤ i) then pure i
    else fault s!"field '{name}' is out-of-bound"
  | none =>
    match v, default with
    | .nil, some d => pure d
    | .nil, none => fault s!"field '{name}' missing in date table"
    | _, _ => fault s!"field '{name}' is not an integer"

/-- The seconds of a date table, whose fields are brought into their ranges. The second before the epoch
counts as none. -/
def timeOfTable (r : Ref) : NativeM Outcome := do
  let t := Value.table r
  let year ← dateNumber t "year" none 1900
  let month ← dateNumber t "month" none 1
  let day ← dateNumber t "day" none 0
  let hour ← dateNumber t "hour" (some 12) 0
  let minute ← dateNumber t "min" (some 0) 0
  let second ← dateNumber t "sec" (some 0) 0
  let year := year + (month - 1).fdiv 12
  let month := (month - 1).fmod 12 + 1
  let days := daysOfCivil year month 1 + (day - 1)
  let seconds := days * 86400 + hour * 3600 + minute * 60 + second
  let civil := civilOfSeconds seconds
  if !hasShortYear civil then fault "time result cannot be represented in this installation"
  else
    modifyHeap fun h =>
      (dateFields civil).foldl (fun h field => h.rawSetText r field.1 field.2) h
    if seconds == -1 then fault "time result cannot be represented in this installation"
    else result (.int (Int64.ofInt seconds))

/-! ## Functions -/

/-- Now, in seconds. -/
def nowSeconds : NativeM Int := inWorld do pure (← Host.read).now.seconds

/-- The time now, or of a date table. -/
def clockTime (args : Args) : NativeM Outcome := do
  if args.isNone 1 then result (.int (Int64.ofInt (← nowSeconds)))
  else timeOfTable (← checkTable args 1)

/-- A time as a text or as a table. -/
def clockDate (args : Args) : NativeM Outcome := do
  let format := Text.decodeLossy (← optBytes args 1 "%c".toUTF8)
  let seconds ← if args.isNone 2 then nowSeconds else do pure (← checkInt args 2).toInt
  let (cs, zone) := match format.toList with
    | '!' :: rest => (rest, "GMT")
    | cs => (cs, "UTC")
  let civil := civilOfSeconds seconds
  if !hasShortYear civil then fault "date result cannot be represented in this installation"
  else if cs == ['*', 't'] then
    let t := (dateFields civil).foldl (fun (t : Table) field => t.setText field.1 field.2) {}
    result (.table (← allocate fun h => h.allocTable t))
  else
    match writeDate zone civil cs "" with
    | .ok s => result (.ofText s)
    | .error rest => badArgument 1 s!"invalid conversion specifier '%{rest}'"

/-- The functions of the clock library. -/
def clock (f : ClockFn) (args : Args) : NativeM Outcome := do
  match f with
  | .clock => result (.float 0.0)
  | .date => clockDate args
  | .difftime => do
    let a ← checkInt args 1
    result (.float (Float.ofInt ((a.toInt) - (← checkInt args 2).toInt)))
  | .time => clockTime args

end Library

end ScriptHost.Guest
