import ScriptHost.Guest.Number

/-!
# Format directives

How `string.format` writes a value that a directive such as `%5.2f` asks for. A directive has flags, a width
and a precision, and ends with the letter of its conversion.

* `Directive.ofChars`: the directive that characters write.
* `Directive.integer`, `Directive.float`, `Directive.text`: what it makes of a value.
* `quotedBytes`, `literalFloat`: a value as the source would write it.
-/

namespace ScriptHost.Guest

/-- A directive. -/
structure Directive where
  flags : List Char
  width : Nat
  precision : Option Nat
  conversion : Char
deriving Repr

namespace Directive

/-- At most two digits at the front, as a number, and what follows them. -/
def takeTwo (cs : List Char) : Nat × List Char :=
  let ds := (cs.take 2).takeWhile Char.isDigit
  (Decimal.natOfDigits ds, cs.drop ds.length)

/-- The directive that the characters after `%` write, with the conversion at their end. Only some flags
are allowed, and for some conversions no precision. -/
def ofChars (cs : List Char) (conversion : Char) (allowed : List Char) (precise : Bool) :
    Option Directive :=
  let flags := cs.takeWhile allowed.contains
  let cs := cs.drop flags.length
  if cs.head? == some '0' then none
  else
    let (width, cs) := takeTwo cs
    match cs with
    | [] => some ⟨flags, width, none, conversion⟩
    | '.' :: cs =>
      let (precision, cs) := takeTwo cs
      if precise && cs.isEmpty then some ⟨flags, width, some precision, conversion⟩ else none
    | _ => none

/-- Whether a flag is set. -/
def has (d : Directive) (flag : Char) : Bool := d.flags.contains flag

/-- Blanks, or zeros after the sign, up to the width. -/
def pad (d : Directive) (zeros : Bool) (sign body : String) : String :=
  let missing := d.width - (sign.length + body.length)
  if d.has '-' then sign ++ body ++ String.ofList (List.replicate missing ' ')
  else if zeros then sign ++ String.ofList (List.replicate missing '0') ++ body
  else String.ofList (List.replicate missing ' ') ++ sign ++ body

/-- The sign of a number. -/
def sign (d : Directive) (negative : Bool) : String :=
  if negative then "-" else if d.has '+' then "+" else if d.has ' ' then " " else ""

/-- The digits of a number in a base, at least as many as the precision. -/
def digits (d : Directive) (base n : Nat) : String :=
  let ds := if n == 0 && d.precision == some 0 then [] else Nat.toDigits base n
  String.ofList (List.replicate (d.precision.getD 1 - ds.length) '0' ++ ds)

/-- An integer. -/
def integer (d : Directive) (i : Int64) : String :=
  let zeros := d.has '0' && d.precision.isNone
  let unsigned := i.toUInt64.toNat
  match d.conversion with
  | 'x' =>
    d.pad zeros (if d.has '#' && unsigned != 0 then "0x" else "") (d.digits 16 unsigned)
  | 'X' =>
    let body := (d.digits 16 unsigned).map Char.toUpper
    d.pad zeros (if d.has '#' && unsigned != 0 then "0X" else "") body
  | 'o' =>
    let body := d.digits 8 unsigned
    d.pad zeros "" (if d.has '#' && !body.startsWith "0" then "0" ++ body else body)
  | 'u' => d.pad zeros "" (d.digits 10 unsigned)
  | _ => d.pad zeros (d.sign (i < 0)) (d.digits 10 i.toInt.natAbs)

/-- The hexadecimal digits of a fraction of 52 bits, rounded to `places`, with a carry into the digit before
the point. -/
def hexFraction (fraction : Nat) (places : Option Nat) : Nat × String :=
  match places with
  | none =>
    let ds := Nat.toDigits 16 fraction
    let ds := List.replicate (13 - ds.length) '0' ++ ds
    (0, String.ofList (Decimal.dropTrailingZeros ds))
  | some n =>
    if 13 ≤ n then
      let ds := Nat.toDigits 16 fraction
      (0, String.ofList (List.replicate (13 - ds.length) '0' ++ ds ++ List.replicate (n - 13) '0'))
    else
      let unit := Nat.pow 16 (13 - n)
      let half := unit / 2
      let q := fraction / unit
      let r := fraction % unit
      let q := if half < r || (r == half && q % 2 == 1) then q + 1 else q
      let ds := Nat.toDigits 16 (q % Nat.pow 16 n)
      (q / Nat.pow 16 n,
        if n == 0 then "" else String.ofList (List.replicate (n - ds.length) '0' ++ ds))

/-- The magnitude of a finite number in hexadecimal with a binary exponent. -/
def hexBody (x : Float) (places : Option Nat) (pointed : Bool) : String :=
  let bits := x.toBits.toNat % 0x8000000000000000
  let biased : Nat := bits / 0x10000000000000
  let fraction : Nat := bits % 0x10000000000000
  let (carry, ds) := hexFraction fraction places
  let lead := (if biased == 0 then 0 else 1) + carry
  let e : Int := if bits == 0 then 0 else if biased == 0 then -1022 else (biased : Int) - 1023
  let point := if ds.isEmpty && !pointed then "" else "."
  let sign := if e < 0 then "-" else "+"
  s!"0x{lead}{point}{ds}p{sign}{e.natAbs}"

/-- A floating-point number. -/
def float (d : Directive) (x : Float) : String :=
  let sign := d.sign (isNegative x)
  let places := d.precision.getD 6
  let upper := d.conversion.isUpper
  let cased := fun (s : String) => if upper then s.map Char.toUpper else s
  let pointed := fun (s : String) =>
    if d.has '#' && !s.toList.contains '.' then
      match s.toList.span (fun c => c != 'e') with
      | (whole, rest) => String.ofList (whole ++ '.' :: rest)
    else s
  match Decimal.FloatParts.ofFloat x with
  | .nan => d.pad false sign (cased "nan")
  | .infinite _ => d.pad false sign (cased "inf")
  | .finite .. =>
    let f := magnitudeOf x
    match d.conversion.toLower with
    | 'f' => d.pad (d.has '0') sign (cased (pointed (Decimal.fixed places f)))
    | 'e' => d.pad (d.has '0') sign (cased (pointed (Decimal.exponential places f)))
    | 'a' =>
      let body := cased (hexBody x d.precision (d.has '#'))
      d.pad (d.has '0') (sign ++ (body.take 2).toString) (body.drop 2).toString
    | _ => d.pad (d.has '0') sign (cased (pointed (Decimal.general (d.has '#') places f)))

/-- Bytes, cut at the precision. -/
def text (d : Directive) (b : ByteArray) : ByteArray :=
  let b := match d.precision with
    | some n => b.extract 0 n
    | none => b
  let missing := ⟨Array.replicate (d.width - b.size) 32⟩
  if d.has '-' then b ++ missing else missing ++ b

end Directive

/-! ## Literals -/

/-- A floating-point number as the source would write it. -/
def literalFloat (x : Float) : String :=
  match Decimal.FloatParts.ofFloat x with
  | .nan => "(0/0)"
  | .infinite negative => if negative then "-1e9999" else "1e9999"
  | .finite negative .. =>
    (if negative then "-" else "") ++ Directive.hexBody x none false

/-- An integer as the source would write it. -/
def literalInt (i : Int64) : String :=
  if i == Int64.minValue then "0x8000000000000000" else toString i.toInt

/-- The inside of a string as the source would write it. -/
def quotedInside : List UInt8 → List UInt8
  | [] => []
  | b :: rest =>
    let c := Char.ofNat b.toNat
    let nextIsDigit := (rest.head?.map fun d => (Char.ofNat d.toNat).isDigit).getD false
    if c == '"' || c == '\\' || c == '\n' then 92 :: b :: quotedInside rest
    else if b < 32 || b == 127 then
      let ds := (toString b.toNat).toList
      let ds := if nextIsDigit then List.replicate (3 - ds.length) '0' ++ ds else ds
      92 :: ds.map (fun d => d.toNat.toUInt8) ++ quotedInside rest
    else b :: quotedInside rest

/-- A string as the source would write it. -/
def quotedBytes (b : ByteArray) : ByteArray :=
  ⟨(34 :: quotedInside b.data.toList ++ [34]).toArray⟩

end ScriptHost.Guest
