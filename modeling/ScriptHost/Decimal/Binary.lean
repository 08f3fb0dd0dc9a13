/-!
# Floating-point numbers as exact values

A finite `Float` is `± m · 2^q` with natural `m`. `FloatParts.ofFloat` reads this from its bits, so
that decimal texts can be computed in exact arithmetic on natural numbers.
-/

namespace ScriptHost.Decimal

/-- A floating-point number taken apart. -/
inductive FloatParts where
  | nan
  | infinite (negative : Bool)
  /-- The number `± mantissa · 2^exponent`. -/
  | finite (negative : Bool) (mantissa : Nat) (exponent : Int)
deriving Repr, DecidableEq

/-- The parts of a number given by its 64 bits. -/
def FloatParts.ofBits (bits : Nat) : FloatParts :=
  let negative := bits / 0x8000000000000000 % 2 == 1
  let fraction : Nat := bits % 0x10000000000000
  let exponent : Nat := bits / 0x10000000000000 % 0x800
  if exponent == 2047 then
    if fraction == 0 then .infinite negative else .nan
  else if exponent == 0 then .finite negative fraction (-1074)
  else .finite negative (0x10000000000000 + fraction) ((exponent : Int) - 1075)

/-- The parts of a floating-point number. -/
def FloatParts.ofFloat (x : Float) : FloatParts := .ofBits x.toBits.toNat

/-! ## Positive fractions -/

/-- A positive number as a numerator over a denominator. -/
structure Fraction where
  num : Nat
  den : Nat
deriving Repr, DecidableEq

/-- The number `m · 2^q`. -/
def Fraction.ofBinary (m : Nat) (q : Int) : Fraction :=
  ⟨m * Nat.pow 2 q.toNat, Nat.pow 2 (-q).toNat⟩

/-- The fraction divided by `10^e`. -/
def Fraction.shift (f : Fraction) (e : Int) : Fraction :=
  ⟨f.num * Nat.pow 10 (-e).toNat, f.den * Nat.pow 10 e.toNat⟩

/-- The number of decimal digits of a natural number; zero has one. -/
def digitCount (n : Nat) : Nat := (Nat.toDigits 10 n).length

/-- An exponent `e` such that the fraction is below `10^e` and not much smaller: it is at least
`10^(e-2)`. -/
def Fraction.magnitude (f : Fraction) : Int :=
  if f.den ≤ f.num then digitCount (f.num / f.den)
  else 2 - (digitCount (f.den / f.num) : Int)

/-- The natural number nearest to a fraction, the even one of two. -/
def Fraction.round (f : Fraction) : Nat :=
  let quotient := f.num / f.den
  let rest := 2 * (f.num % f.den)
  if rest < f.den then quotient
  else if f.den < rest then quotient + 1
  else if quotient % 2 == 0 then quotient else quotient + 1

end ScriptHost.Decimal
