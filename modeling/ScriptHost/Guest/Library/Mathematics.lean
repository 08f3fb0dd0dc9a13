import ScriptHost.Guest.Native

/-!
# The mathematics library

Functions on numbers, and a generator of random numbers that a seed determines.
-/

namespace ScriptHost.Guest

/-! ## Random numbers -/

/-- Bits moved to the left, around the end. -/
def rotateLeft (x : UInt64) (n : UInt64) : UInt64 := (x <<< n) ||| (x >>> (64 - n))

/-- The next random word. -/
def RandomState.next (s : RandomState) : UInt64 × RandomState :=
  let c := s.c ^^^ s.a
  let d := s.d ^^^ s.b
  (rotateLeft (s.b * 5) 7 * 9,
    ⟨s.a ^^^ d, s.b ^^^ c, c ^^^ (s.b <<< 17), rotateLeft d 45⟩)

/-- The state after `n` more words. -/
def RandomState.skip (s : RandomState) : Nat → RandomState
  | 0 => s
  | n + 1 => s.next.2.skip n

/-- The state that two seeds determine. -/
def RandomState.ofSeeds (a b : UInt64) : RandomState := skip ⟨a, 0xFF, b, 0⟩ 16

/-- The smallest number not below `n` that is all ones in binary. -/
def onesAbove (n : UInt64) : UInt64 := if n == 0 then 0 else (Nat.pow 2 (n.toNat.log2 + 1) - 1).toUInt64

/-- A random number of at most `n`: words are drawn until one fits; `fuel` bounds their number. -/
def RandomState.below (mask n : UInt64) : Nat → UInt64 → RandomState → UInt64 × RandomState
  | 0, _, s => (0, s)
  | fuel + 1, word, s =>
    if word &&& mask ≤ n then (word &&& mask, s)
    else
      let (word, s) := s.next
      below mask n fuel word s

namespace Library

/-- Draw a random word. -/
def drawWord : NativeM UInt64 := do
  let (word, s) := (← getHeap).random.next
  modifyHeap fun h => { h with random := s }
  pure word

/-- A random number: a fraction, or an integer between bounds. -/
def mathRandom (args : Args) : NativeM Outcome := do
  let word ← drawWord
  let between := fun (low up : Int64) => do
    if up < low then badArgument args.length "interval is empty"
    else
      let n := up.toUInt64 - low.toUInt64
      let (k, s) := (← getHeap).random.below (onesAbove n) n 1000 word
      modifyHeap fun h => { h with random := s }
      result (.int (k + low.toUInt64).toInt64)
  match args.length with
  | 0 => result (.float ((word >>> 11).toFloat * (0.5 : Float).scaleB (-52)))
  | 1 =>
    let up ← checkInt args 1
    if up == 0 then result (.int word.toInt64) else between 1 up
  | 2 => do between (← checkInt args 1) (← checkInt args 2)
  | _ => fault "wrong number of arguments"

/-- Set the state of the generator of random numbers. -/
def mathSeed (args : Args) : NativeM Outcome := do
  let (a, b) ← if args.isEmpty then pure ((0 : Int64), (0 : Int64))
    else do
      let a ← match ← checkNumber args 1 with
        | .int i => pure i
        | v => pure ((v.asInteger?).getD ((v.asFloat?.getD 0.0).toBits.toInt64))
      pure (a, ← optInt args 2 0)
  modifyHeap fun h => { h with random := RandomState.ofSeeds a.toUInt64 b.toUInt64 }
  results [.int a, .int b]

/-! ## Functions -/

/-- A whole number as an integer, if it fits. -/
def wholeValue (x : Float) : Value :=
  match wholeInt? x with
  | some i => .int i
  | none => .float x

/-- A function on floating-point numbers. -/
def onFloat (f : Float → Float) (args : Args) : NativeM Outcome := do
  result (.float (f (← checkFloat args 1)))

/-- Whether a number is below another. -/
def isBelow (a b : Value) : Bool := (numberLt? a b).getD false

/-- The best of the arguments from position `i` on. -/
def bestOf (better : Value → Value → Bool) (args : Args) (i : Nat) (best : Value) :
    Nat → NativeM Value
  | 0 => pure best
  | left + 1 => do
    let v ← checkNumber args i
    bestOf better args (i + 1) (if better v best then v else best) left

/-- A fraction of at least a half and below one, and the exponent of two that scales it to a number. -/
def splitExponent (x : Float) : Float × Int :=
  if x == 0.0 || x.isNaN || x.isInf then (x, 0) else x.frExp

/-- The remainder of a division that rounds towards zero. -/
def mathFmod (args : Args) : NativeM Outcome := do
  let a ← checkNumber args 1
  let b ← checkNumber args 2
  match a, b with
  | .int x, .int y =>
    if y == 0 then badArgument 2 "zero"
    else result (.int (if y == -1 then 0 else Int64.ofInt (x.toInt.tmod y.toInt)))
  | _, _ => result (.float (floatRemainder (a.asFloat?.getD 0.0) (b.asFloat?.getD 0.0)))

/-- A logarithm. -/
def mathLog (args : Args) : NativeM Outcome := do
  let x ← checkFloat args 1
  if args.isNone 2 then result (.float x.log)
  else
    let base ← checkFloat args 2
    if base == 2.0 then result (.float x.log2)
    else if base == 10.0 then result (.float x.log10)
    else result (.float (x.log / base.log))

/-- The whole part and the rest of a number. -/
def mathModf (args : Args) : NativeM Outcome := do
  match args.get 1 with
  | .int i => results [.int i, .float 0.0]
  | _ =>
    let x ← checkFloat args 1
    let whole := truncate x
    results [.float whole, .float (if x == whole then 0.0 else x - whole)]

/-- The functions of the mathematics library. -/
def math (f : MathFn) (args : Args) : NativeM Outcome := do
  match f with
  | .abs =>
    match args.get 1 with
    | .int i => result (.int (if i < 0 then -i else i))
    | _ => onFloat Float.abs args
  | .acos => onFloat Float.acos args
  | .asin => onFloat Float.asin args
  | .atan => do
    let y ← checkFloat args 1
    let x ← if args.isNone 2 then pure 1.0 else checkFloat args 2
    result (.float (Float.atan2 y x))
  | .atan2 => do
    let y ← checkFloat args 1
    result (.float (Float.atan2 y (← checkFloat args 2)))
  | .ceil =>
    match args.get 1 with
    | .int i => result (.int i)
    | _ => do result (wholeValue (← checkFloat args 1).ceil)
  | .cos => onFloat Float.cos args
  | .cosh => onFloat Float.cosh args
  | .deg => onFloat (fun x => x * (180.0 / 3.141592653589793)) args
  | .exp => onFloat Float.exp args
  | .floor =>
    match args.get 1 with
    | .int i => result (.int i)
    | _ => do result (wholeValue (← checkFloat args 1).floor)
  | .fmod => mathFmod args
  | .frexp => do
    let (m, e) := splitExponent (← checkFloat args 1)
    results [.float m, .int (Int64.ofInt e)]
  | .ldexp => do
    let x ← checkFloat args 1
    result (.float (x.scaleB (← checkInt args 2).toInt))
  | .log => mathLog args
  | .log10 => onFloat Float.log10 args
  | .max => do
    let first ← checkNumber args 1
    result (← bestOf (fun v best => isBelow best v) args 2 first (args.length - 1))
  | .min => do
    let first ← checkNumber args 1
    result (← bestOf isBelow args 2 first (args.length - 1))
  | .modf => mathModf args
  | .pow => do
    let x ← checkFloat args 1
    result (.float (Float.pow x (← checkFloat args 2)))
  | .rad => onFloat (fun x => x * (3.141592653589793 / 180.0)) args
  | .random => mathRandom args
  | .randomseed => mathSeed args
  | .sin => onFloat Float.sin args
  | .sinh => onFloat Float.sinh args
  | .sqrt => onFloat Float.sqrt args
  | .tan => onFloat Float.tan args
  | .tanh => onFloat Float.tanh args
  | .tointeger => do
    match (args.get 1).toInteger? with
    | some i => result (.int i)
    | none =>
      let _ ← checkAny args 1
      result .nil
  | .type => do
    match ← checkAny args 1 with
    | .int _ => result (.ofText "integer")
    | .float _ => result (.ofText "float")
    | _ => result .nil
  | .ult => do
    let a ← checkInt args 1
    let b ← checkInt args 2
    result (.bool (a.toUInt64 < b.toUInt64))

end Library

end ScriptHost.Guest
