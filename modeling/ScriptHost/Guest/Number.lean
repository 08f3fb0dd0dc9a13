import ScriptHost.Decimal.Layout
import ScriptHost.Decimal.Read
import ScriptHost.Guest.Value

/-!
# Guest numbers

Numerals of the guest language, the text of a number, and the conversions between numbers, strings and
integers.

* `readNumeral?`: the number that the characters of a numeral write.
* `numberText`: the text of a number.
* `Value.toNumber?`, `Value.toInteger?`: conversions of a value, strings included.
* `Arith`, `Arith.apply`: arithmetic on two numbers.
-/

namespace ScriptHost.Guest

/-! ## Reading -/

/-- The characters that the guest language skips around numerals. -/
def isSpace (c : Char) : Bool := c == ' ' || (9 ≤ c.toNat && c.toNat ≤ 13)

/-- The value of a hexadecimal digit. -/
def hexValue? (c : Char) : Option Nat :=
  if c.isDigit then some (c.toNat - '0'.toNat)
  else if 'a' ≤ c && c ≤ 'f' then some (c.toNat - 'a'.toNat + 10)
  else if 'A' ≤ c && c ≤ 'F' then some (c.toNat - 'A'.toNat + 10)
  else none

/-- Whether a character is a hexadecimal digit. -/
def isHexDigit (c : Char) : Bool := (hexValue? c).isSome

/-- The natural number that hexadecimal digits write. -/
def natOfHex (cs : List Char) : Nat := cs.foldl (fun n c => 16 * n + (hexValue? c).getD 0) 0

/-- A binary exponent: `p` or `P`, an optional sign and at least one digit. -/
def readBinaryExponent (cs : List Char) : Option Int :=
  match cs with
  | [] => some 0
  | p :: rest =>
    if p == 'p' || p == 'P' then
      let (negative, digits) :=
        match rest with
        | '-' :: r => (true, r)
        | '+' :: r => (false, r)
        | r => (false, r)
      if digits.isEmpty || !digits.all Char.isDigit then none
      else
        let n : Int := Decimal.natOfDigits digits
        some (if negative then -n else n)
    else none

/-- The floating-point number `m · 2^e`. -/
def floatOfBinary (m : Nat) (e : Int) : Float :=
  if m == 0 then 0.0
  else if 5000 < (m.log2 : Int) + e then 1.0 / 0.0
  else if (m.log2 : Int) + e < -5000 then 0.0
  else
    let spare := m.log2 - 62
    (Float.ofNat (m >>> spare)).scaleB (e + spare)

/-- The number that a numeral with hexadecimal digits writes, after its `0x`. Integers wrap around. -/
def readHexNumeral? (cs : List Char) : Option Value :=
  let whole := cs.takeWhile isHexDigit
  match cs.dropWhile isHexDigit with
  | [] => if whole.isEmpty then none else some (.int (Int64.ofNat (natOfHex whole)))
  | '.' :: rest =>
    let fraction := rest.takeWhile isHexDigit
    if whole.isEmpty && fraction.isEmpty then none
    else
      (readBinaryExponent (rest.dropWhile isHexDigit)).map fun e =>
        .float (floatOfBinary (natOfHex (whole ++ fraction)) (e - 4 * fraction.length))
  | rest =>
    if whole.isEmpty then none
    else (readBinaryExponent rest).map fun e => .float (floatOfBinary (natOfHex whole) e)

/-- The number that a decimal numeral writes: an integer if it has only digits and fits. -/
def readDecimalNumeral? (cs : List Char) : Option Value :=
  if !cs.isEmpty && cs.all Char.isDigit && Decimal.natOfDigits cs < 0x8000000000000000 then
    some (.int (Int64.ofNat (Decimal.natOfDigits cs)))
  else
    match Decimal.readDecimal cs with
    | some (c, e, []) => some (.float (Decimal.toFloat c e))
    | _ => none

/-- The number that a numeral without a sign writes. -/
def readNumeral? (cs : List Char) : Option Value :=
  match cs with
  | '0' :: 'x' :: rest => readHexNumeral? rest
  | '0' :: 'X' :: rest => readHexNumeral? rest
  | _ => readDecimalNumeral? cs

/-- A number with the opposite sign. -/
def negateNumber : Value → Value
  | .int i => .int (-i)
  | .float x => .float (-x)
  | v => v

/-- The number that a text writes: a numeral with an optional sign and blanks around it. -/
def readNumber? (cs : List Char) : Option Value :=
  let cs := ((cs.dropWhile isSpace).reverse.dropWhile isSpace).reverse
  match cs with
  | '-' :: rest =>
    if rest == "9223372036854775808".toList then some (.int Int64.minValue)
    else (readNumeral? rest).map negateNumber
  | '+' :: rest => readNumeral? rest
  | _ => readNumeral? cs

/-- The bytes of a string as characters of one byte each. -/
def byteChars (b : ByteArray) : List Char := b.data.toList.map fun x => Char.ofNat x.toNat

/-- The number that a string writes. -/
def numberOfString? (b : ByteArray) : Option Value := readNumber? (byteChars b)

/-! ## Writing -/

/-- The fraction that a floating-point number is, without its sign. -/
def magnitudeOf (x : Float) : Decimal.Fraction :=
  match Decimal.FloatParts.ofFloat x with
  | .finite _ m q => .ofBinary m q
  | _ => ⟨0, 1⟩

/-- Whether a number has a minus sign. -/
def isNegative (x : Float) : Bool :=
  match Decimal.FloatParts.ofFloat x with
  | .finite negative _ _ => negative
  | .infinite negative => negative
  | .nan => true

/-- The text of a floating-point number: at most fourteen digits, and always recognisable as one. -/
def floatText (x : Float) : String :=
  let sign := if isNegative x then "-" else ""
  match Decimal.FloatParts.ofFloat x with
  | .nan => "-nan"
  | .infinite _ => sign ++ "inf"
  | .finite _ m q =>
    let body := Decimal.general false 14 (.ofBinary m q)
    let whole := body.toList.all fun c => c.isDigit
    sign ++ body ++ (if whole then ".0" else "")

/-- The text of a number. -/
def numberText? : Value → Option String
  | .int i => some (toString i.toInt)
  | .float x => some (floatText x)
  | _ => none

/-! ## Conversions -/

/-- The floating-point number that a number is. -/
def Value.asFloat? : Value → Option Float
  | .int i => some i.toFloat
  | .float x => some x
  | _ => none

/-- The number that a number or a string is. -/
def Value.toNumber? : Value → Option Value
  | .int i => some (.int i)
  | .float x => some (.float x)
  | .str b => numberOfString? b
  | _ => none

/-- The integer that a whole number is. -/
def Value.asInteger? : Value → Option Int64
  | .int i => some i
  | .float x => wholeInt? x
  | _ => none

/-- The integer that a number or a string is. -/
def Value.toInteger? (v : Value) : Option Int64 := v.toNumber?.bind Value.asInteger?

/-- The string that a string or a number is. -/
def Value.toBytes? : Value → Option ByteArray
  | .str b => some b
  | v => (numberText? v).map String.toUTF8

/-! ## Arithmetic -/

/-- Operations on numbers. -/
inductive Arith where
  | add | sub | mul | div | mod | pow | idiv | unm | band | bor | bxor | shl | shr | bnot
deriving Repr, DecidableEq

/-- The name of an operation's metamethod. -/
def Arith.event : Arith → String
  | .add => "__add"
  | .sub => "__sub"
  | .mul => "__mul"
  | .div => "__div"
  | .mod => "__mod"
  | .pow => "__pow"
  | .idiv => "__idiv"
  | .unm => "__unm"
  | .band => "__band"
  | .bor => "__bor"
  | .bxor => "__bxor"
  | .shl => "__shl"
  | .shr => "__shr"
  | .bnot => "__bnot"

/-- Whether an operation works on bits, so that it needs integers. -/
def Arith.isBitwise : Arith → Bool
  | .band => true
  | .bor => true
  | .bxor => true
  | .shl => true
  | .shr => true
  | .bnot => true
  | _ => false

/-- Bits shifted to the left, or to the right for a negative amount. All bits leave at 64 places. -/
def shiftLeft (x amount : Int64) : Int64 :=
  let n := amount.toInt
  if n ≤ -64 || 64 ≤ n then 0
  else if 0 ≤ n then (x.toUInt64 <<< n.toNat.toUInt64).toInt64
  else (x.toUInt64 >>> (-n).toNat.toUInt64).toInt64

/-- The integer quotient rounded down; the divisor is not zero. -/
def floorDiv (x y : Int64) : Int64 := if y == -1 then -x else Int64.ofInt (x.toInt.fdiv y.toInt)

/-- What the integer quotient leaves, with the sign of the divisor, which is not zero. -/
def floorMod (x y : Int64) : Int64 := if y == -1 then 0 else Int64.ofInt (x.toInt.fmod y.toInt)

/-- The whole number towards zero. -/
def truncate (x : Float) : Float := if x < 0.0 then x.ceil else x.floor

/-- The exact remainder of a division whose quotient is rounded towards zero. -/
def floatRemainder (x y : Float) : Float :=
  match Decimal.FloatParts.ofFloat x, Decimal.FloatParts.ofFloat y with
  | .finite negative m q, .finite _ n p =>
    if n == 0 then 0.0 / 0.0
    else
      let low := min q p
      let a := m <<< (q - low).toNat
      let b := n <<< (p - low).toNat
      let r := floatOfBinary (a % b) low
      if negative then -r else r
  | .finite .., .infinite _ => x
  | _, _ => 0.0 / 0.0

/-- The remainder with the sign of the divisor. -/
def floatMod (x y : Float) : Float :=
  let r := floatRemainder x y
  if r * y < 0.0 then r + y else r

/-- Why an operation on two numbers has no result. -/
inductive ArithFault where
  | zeroDivisor
  | zeroModulus
  /-- A number that is not whole, where bits are needed. -/
  | notInteger
deriving Repr, DecidableEq

/-- An operation on floating-point numbers. -/
def Arith.onFloats (op : Arith) (x y : Float) : Except ArithFault Value :=
  match op with
  | .add => .ok (.float (x + y))
  | .sub => .ok (.float (x - y))
  | .mul => .ok (.float (x * y))
  | .div => .ok (.float (x / y))
  | .mod => .ok (.float (floatMod x y))
  | .pow => .ok (.float (if y == 2.0 then x * x else Float.pow x y))
  | .idiv => .ok (.float (x / y).floor)
  | .unm => .ok (.float (-x))
  | _ => .error .notInteger

/-- An operation on integers, which wrap around; division and powers give floating-point numbers. -/
def Arith.onInts (op : Arith) (x y : Int64) : Except ArithFault Value :=
  match op with
  | .add => .ok (.int (x + y))
  | .sub => .ok (.int (x - y))
  | .mul => .ok (.int (x * y))
  | .div => op.onFloats x.toFloat y.toFloat
  | .mod => if y == 0 then .error .zeroModulus else .ok (.int (floorMod x y))
  | .pow => op.onFloats x.toFloat y.toFloat
  | .idiv => if y == 0 then .error .zeroDivisor else .ok (.int (floorDiv x y))
  | .unm => .ok (.int (-x))
  | .band => .ok (.int (x &&& y))
  | .bor => .ok (.int (x ||| y))
  | .bxor => .ok (.int (x ^^^ y))
  | .shl => .ok (.int (shiftLeft x y))
  | .shr => .ok (.int (shiftLeft x (-y)))
  | .bnot => .ok (.int (~~~ x))

/-- An operation on two numbers; nothing if one of the values is no number. -/
def Arith.apply (op : Arith) (a b : Value) : Option (Except ArithFault Value) :=
  match a, b with
  | .int x, .int y => some (op.onInts x y)
  | _, _ =>
    match a.asFloat?, b.asFloat? with
    | some x, some y =>
      if op.isBitwise then
        match a.asInteger?, b.asInteger? with
        | some i, some j => some (op.onInts i j)
        | _, _ => some (.error .notInteger)
      else some (op.onFloats x y)
    | _, _ => none

/-! ## Order -/

/-- Whether an integer is below a floating-point number. -/
def intLtFloat (i : Int64) (x : Float) : Bool :=
  if x.isNaN then false
  else if (9223372036854775808.0 : Float) ≤ x then true
  else if x ≤ (-9223372036854775808.0 : Float) then false
  else
    let up := x.ceil
    i < up.toInt64 || (up == 9223372036854775808.0)

/-- Whether an integer is at most a floating-point number. -/
def intLeFloat (i : Int64) (x : Float) : Bool :=
  if x.isNaN then false
  else if (9223372036854775808.0 : Float) ≤ x then true
  else if x < (-9223372036854775808.0 : Float) then false
  else i ≤ x.floor.toInt64

/-- Whether a number is below another. -/
def numberLt? (a b : Value) : Option Bool :=
  match a, b with
  | .int x, .int y => some (x < y)
  | .float x, .float y => some (x < y)
  | .int x, .float y => some (intLtFloat x y)
  | .float x, .int y => some (!x.isNaN && !intLeFloat y x)
  | _, _ => none

/-- Whether a number is at most another. -/
def numberLe? (a b : Value) : Option Bool :=
  match a, b with
  | .int x, .int y => some (x ≤ y)
  | .float x, .float y => some (x ≤ y)
  | .int x, .float y => some (intLeFloat x y)
  | .float x, .int y => some (!x.isNaN && !intLtFloat y x)
  | _, _ => none

/-- The order of strings by their bytes. -/
def bytesLt : List UInt8 → List UInt8 → Bool
  | [], [] => false
  | [], _ :: _ => true
  | _ :: _, [] => false
  | x :: xs, y :: ys => x < y || (x == y && bytesLt xs ys)

end ScriptHost.Guest
