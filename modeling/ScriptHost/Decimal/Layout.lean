import ScriptHost.Decimal.Shortest

/-!
# Written forms of decimals

* `positional`, `scientific`: the digits of a decimal around its point, or with an exponent.
* `Style` and `Style.write`: how a number format writes floating-point numbers with the fewest digits.
* `fixed`, `exponential`, `general`: a given number of digits, the last one rounded to nearest.
-/

namespace ScriptHost.Decimal

/-- The digits of a coefficient. -/
def Numeral.digits (d : Numeral) : List Char := Nat.toDigits 10 d.coefficient

/-- The number of digits before the point; negative for zeros after it. -/
def Numeral.point (d : Numeral) : Int := d.digits.length + d.exponent

/-- `n` zeros. -/
def zeros (n : Nat) : List Char := List.replicate n '0'

/-- The digits before and after the point. -/
def Numeral.split (d : Numeral) : List Char × List Char :=
  let ds := d.digits
  let p := d.point
  if p ≤ 0 then (['0'], zeros (-p).toNat ++ ds)
  else if (ds.length : Int) ≤ p then (ds ++ zeros (p.toNat - ds.length), [])
  else (ds.take p.toNat, ds.drop p.toNat)

/-- The decimal without an exponent; a whole number gets `.0` if `pointed`. -/
def Numeral.positional (pointed : Bool) (d : Numeral) : String :=
  match d.split with
  | (whole, []) => String.ofList whole ++ (if pointed then ".0" else "")
  | (whole, rest) => String.ofList whole ++ "." ++ String.ofList rest

/-- An exponent with its sign and at least `width` digits. -/
def exponentText (width : Nat) (e : Int) : String :=
  let ds := Nat.toDigits 10 e.natAbs
  (if e < 0 then "-" else "+") ++ String.ofList (zeros (width - ds.length) ++ ds)

/-- One digit, the others after a point, and the exponent. -/
def Numeral.scientific (width : Nat) (d : Numeral) : String :=
  let mantissa :=
    match d.digits with
    | [] => ""
    | [c] => String.ofList [c]
    | c :: cs => String.ofList (c :: '.' :: cs)
  mantissa ++ "e" ++ exponentText width (d.point - 1)

/-! ## Fewest digits -/

/-- How a format writes floating-point numbers. -/
structure Style where
  tie : Tie
  /-- Whole numbers are written with `.0`. -/
  pointed : Bool
  /-- The places of the point, counted from the first digit, that are written without an exponent;
  all of them if absent. -/
  positionalPoints : Option (Int × Int)
  infinity : String
  negativeInfinity : String
  nan : String

/-- The number in the given style. -/
def Style.write (s : Style) (x : Float) : String :=
  match FloatParts.ofFloat x with
  | .nan => s.nan
  | .infinite negative => if negative then s.negativeInfinity else s.infinity
  | .finite negative m q =>
    let d := if m == 0 then ⟨0, 0⟩ else shortest s.tie m q
    let body :=
      match s.positionalPoints with
      | none => d.positional s.pointed
      | some (first, last) =>
        if first ≤ d.point && d.point ≤ last then d.positional s.pointed else d.scientific 1
    (if negative then "-" else "") ++ body

/-- Text for people: never an exponent, and no point in a whole number. -/
def plain : Style := ⟨.up, false, none, "inf", "-inf", "NaN"⟩

/-- Numbers of a JSON document: positional from `1e-5` to below `1e16`, and always recognisable as
floating-point numbers. What is not finite has no number and is written as null. -/
def json : Style := ⟨.toEven, true, some (-4, 16), "null", "null", "null"⟩

/-! ## A given number of digits -/

/-- A fraction with `places` digits after the point. -/
def fixed (places : Nat) (f : Fraction) : String :=
  let d : Numeral := ⟨(f.shift (-(places : Int))).round, -(places : Int)⟩
  if places == 0 then String.ofList d.digits else
  let ds := d.digits
  let ds := zeros (places + 1 - ds.length) ++ ds
  let whole := ds.length - places
  String.ofList (ds.take whole) ++ "." ++ String.ofList (ds.drop whole)

/-- A fraction rounded to `count` significant digits, for positive `count`. -/
def significant (count : Nat) (f : Fraction) : Numeral :=
  if f.num == 0 then ⟨0, 0⟩ else
  let guess := f.magnitude - count
  let e := if (f.shift guess).num / (f.shift guess).den < Nat.pow 10 (count - 1) then guess - 1 else guess
  let c := (f.shift e).round
  if c == Nat.pow 10 count then ⟨Nat.pow 10 (count - 1), e + 1⟩ else ⟨c, e⟩

/-- Digits without the zeros at their end. -/
def dropTrailingZeros (ds : List Char) : List Char := (ds.reverse.dropWhile (· == '0')).reverse

/-- One digit, `places` digits after the point, and an exponent of at least two digits. -/
def exponential (places : Nat) (f : Fraction) : String :=
  let d := significant (places + 1) f
  let ds := d.digits
  let ds := ds ++ zeros (places + 1 - ds.length)
  let e : Int := if d.coefficient == 0 then 0 else d.point - 1
  let mantissa :=
    match ds with
    | [] => ""
    | c :: [] => String.ofList [c]
    | c :: cs => String.ofList (c :: '.' :: cs)
  mantissa ++ "e" ++ exponentText 2 e

/-- At most `count` significant digits, positional unless the exponent is below -4 or not below
`count`; zeros at the end are kept only if `padded`. -/
def general (padded : Bool) (count : Nat) (f : Fraction) : String :=
  let count := max count 1
  let d := significant count f
  let e : Int := if d.coefficient == 0 then 0 else d.point - 1
  let ds := d.digits ++ zeros (count - d.digits.length)
  let kept := fun cs => if padded then cs else dropTrailingZeros cs
  let pointed := fun (whole rest : List Char) =>
    match kept rest with
    | [] => String.ofList whole
    | cs => String.ofList (whole ++ '.' :: cs)
  if e < -4 || (count : Int) ≤ e then
    pointed (ds.take 1) (ds.drop 1) ++ "e" ++ exponentText 2 e
  else if e < 0 then
    pointed ['0'] (zeros (-e - 1).toNat ++ ds)
  else
    pointed (ds.take (e.toNat + 1)) (ds.drop (e.toNat + 1))

end ScriptHost.Decimal
