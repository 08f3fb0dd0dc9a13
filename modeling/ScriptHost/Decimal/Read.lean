import ScriptHost.Decimal.Binary

/-!
# Reading decimal numbers

`readDecimal` takes a decimal with an optional fraction and exponent off the front of a list of
characters; `toFloat` gives the floating-point number nearest to it. `readFloat?` reads a whole text,
in which the names of infinity and of not-a-number may stand too.
-/

namespace ScriptHost.Decimal

/-- The digits at the front, and what follows them. -/
def spanDigits (cs : List Char) : List Char × List Char :=
  (cs.takeWhile Char.isDigit, cs.dropWhile Char.isDigit)

/-- The natural number that decimal digits write. -/
def natOfDigits (cs : List Char) : Nat :=
  cs.foldl (fun n c => 10 * n + (c.toNat - '0'.toNat)) 0

/-- An exponent: `e` or `E`, an optional sign and at least one digit. Without one the exponent is
zero and nothing is taken. -/
def readExponent (cs : List Char) : Int × List Char :=
  match cs with
  | c :: rest =>
    if c == 'e' || c == 'E' then
      let (negative, digits) :=
        match rest with
        | '-' :: r => (true, r)
        | '+' :: r => (false, r)
        | r => (false, r)
      match spanDigits digits with
      | ([], _) => (0, cs)
      | (ds, after) => (if negative then -(natOfDigits ds : Int) else natOfDigits ds, after)
    else (0, cs)
  | [] => (0, [])

/-- A decimal number without a sign at the front: its coefficient, its exponent and what follows.
There is at least one digit before the exponent. -/
def readDecimal (cs : List Char) : Option (Nat × Int × List Char) :=
  let (whole, rest) := spanDigits cs
  let (fraction, rest) :=
    match rest with
    | '.' :: r => spanDigits r
    | r => ([], r)
  if whole.isEmpty && fraction.isEmpty then none
  else
    let (e, rest) := readExponent rest
    some (natOfDigits (whole ++ fraction), e - fraction.length, rest)

/-- The floating-point number nearest to `c · 10^e`. -/
def toFloat (c : Nat) (e : Int) : Float :=
  if c == 0 then 0.0
  else
    let size := digitCount c + e
    if 400 < size then 1.0 / 0.0
    else if size < -400 then 0.0
    else Float.ofScientific c (e < 0) e.natAbs

/-- The floating-point number that a text writes. -/
def readFloat? (s : String) : Option Float :=
  let (negative, cs) :=
    match s.toList with
    | '-' :: r => (true, r)
    | '+' :: r => (false, r)
    | r => (false, r)
  let magnitude : Option Float :=
    match String.ofList (cs.map Char.toLower) with
    | "inf" => some (1.0 / 0.0)
    | "infinity" => some (1.0 / 0.0)
    | "nan" => some (0.0 / 0.0)
    | _ =>
      match readDecimal cs with
      | some (c, e, []) => some (toFloat c e)
      | _ => none
  magnitude.map fun x => if negative then -x else x

end ScriptHost.Decimal
