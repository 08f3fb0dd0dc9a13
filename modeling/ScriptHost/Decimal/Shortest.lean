import ScriptHost.Decimal.Binary

/-!
# The shortest decimal that reads back

`shortest tie m q` is a decimal `c · 10^e` that lies in the interval of the numbers which round to
`m · 2^q`, with as few digits as possible. The grids of multiples of `10^e` are tried from coarse to
fine; on each, only the two neighbours of the value can be nearest to it.
-/

namespace ScriptHost.Decimal

/-- The decimal `coefficient · 10^exponent`. -/
structure Numeral where
  coefficient : Nat
  exponent : Int
deriving Repr, DecidableEq

/-- Which of two equally near decimals is chosen. -/
inductive Tie where
  | toEven
  | up
deriving Repr, DecidableEq

/-- The numbers that round to `m · 2^q`, in quarters of `2^q`. The ends belong to the interval iff
`m` is even; below a power of two the lower half is half as wide. -/
structure Interval where
  value : Fraction
  low : Fraction
  high : Fraction
  closed : Bool

/-- The rounding interval of `m · 2^q`. -/
def Interval.ofBinary (m : Nat) (q : Int) : Interval :=
  let below := if m == 0x10000000000000 && decide (-1074 < q) then 1 else 2
  { value := .ofBinary m q
    low := .ofBinary (4 * m - below) (q - 2)
    high := .ofBinary (4 * m + 2) (q - 2)
    closed := m % 2 == 0 }

/-- Whether `k · 10^e` lies in the interval. -/
def Interval.holds (i : Interval) (k : Nat) (e : Int) : Bool :=
  let low := i.low.shift e
  let high := i.high.shift e
  if i.closed then decide (low.num ≤ k * low.den) && decide (k * high.den ≤ high.num)
  else decide (low.num < k * low.den) && decide (k * high.den < high.num)

/-- The point of the grid of multiples of `10^e` that is nearest to the value, if one of the value's
two neighbours on the grid lies in the interval. -/
def Interval.onGrid? (i : Interval) (tie : Tie) (e : Int) : Option Nat :=
  let v := i.value.shift e
  let k := v.num / v.den
  let rest := 2 * (v.num % v.den)
  match i.holds k e, i.holds (k + 1) e with
  | false, false => none
  | true, false => some k
  | false, true => some (k + 1)
  | true, true =>
    if rest < v.den then some k
    else if v.den < rest then some (k + 1)
    else match tie with
      | .up => some (k + 1)
      | .toEven => some (if k % 2 == 0 then k else k + 1)

/-- Try grids from `10^e` down. -/
def Interval.search (i : Interval) (tie : Tie) : Nat → Int → Numeral
  | 0, e => ⟨i.value.round, e⟩
  | fuel + 1, e =>
    match i.onGrid? tie e with
    | some k => ⟨k, e⟩
    | none => i.search tie fuel (e - 1)

/-- The shortest decimal that rounds to `m · 2^q`, for positive `m`. Eighteen significant digits
always suffice. -/
def shortest (tie : Tie) (m : Nat) (q : Int) : Numeral :=
  let i := Interval.ofBinary m q
  i.search tie 22 i.value.magnitude

end ScriptHost.Decimal
