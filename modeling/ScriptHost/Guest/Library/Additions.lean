import ScriptHost.Guest.Library.Conversion
import ScriptHost.Text.Blank

/-!
# The host's additions

Helpers for texts and numbers that the host adds to the shared environment.
-/

namespace ScriptHost.Guest

/-- A power of ten by repeated squaring; the exponent is halved at most `fuel` times. -/
def powerOfTen (square result : Float) : Nat → Nat → Float
  | 0, _ => result
  | fuel + 1, n =>
    let result := if n % 2 == 1 then result * square else result
    if n / 2 == 0 then result else powerOfTen (square * square) result fuel (n / 2)

/-- What a number is multiplied by so that the digits to be kept stand before the point. -/
def roundingFactor (digits : Int) : Float :=
  let p := powerOfTen 10.0 1.0 64 digits.natAbs
  if digits < 0 then 1.0 / p else p

/-- A number with a number of digits after the point; halves go away from zero. -/
def roundDigits (x : Float) (digits : Int) : Float :=
  let factor := roundingFactor digits
  (x * factor).round / factor

/-- A number moved between bounds. -/
def clampFloat (x low high : Float) : Float :=
  let x := if x < low then low else x
  if x > high then high else x

/-- A sequence of texts. -/
def textTable (texts : List String) : Table :=
  (texts.foldl (fun (acc : Table × Int64) s => (acc.1.set (.int acc.2) (.ofText s), acc.2 + 1))
    (({} : Table), (1 : Int64))).1

namespace Library

/-- The helpers. -/
def util (f : UtilFn) (args : Args) : NativeM Outcome := do
  match f with
  | .split =>
    let text ← accept none args 1 Value.takeText
    let sep ← accept none args 2 (Value.takeOption Value.takeText)
    let r ← allocate fun h => h.allocTable (textTable (Text.parts (sep.getD ",") text))
    result (.table r)
  | .trim => do
    let text ← accept none args 1 Value.takeText
    result (.ofText (Text.trim text))
  | .startsWith => do
    let text ← accept none args 1 Value.takeText
    let start ← accept none args 2 Value.takeText
    result (.bool (start.toList.isPrefixOf text.toList))
  | .endsWith => do
    let text ← accept none args 1 Value.takeText
    let stop ← accept none args 2 Value.takeText
    result (.bool (stop.toList.isSuffixOf text.toList))
  | .clamp => do
    let x ← accept none args 1 Value.takeNumber
    let low ← accept none args 2 Value.takeNumber
    let high ← accept none args 3 Value.takeNumber
    if low.isNaN || high.isNaN || low > high then
      let low := Decimal.plain.write low
      let high := Decimal.plain.write high
      hostFault (.runtime s!"clamp: invalid bounds [{low}, {high}]")
    else result (.float (clampFloat x low high))
  | .round => do
    let x ← accept none args 1 Value.takeNumber
    let digits ← accept none args 2 (Value.takeOption Value.takeSmall)
    result (.float (roundDigits x (digits.getD 0)))

end Library

end ScriptHost.Guest
