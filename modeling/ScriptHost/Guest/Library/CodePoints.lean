import ScriptHost.Guest.Native

/-!
# The library of encoded text

Code points in strings of UTF-8, of up to six bytes each where surrogates and large numbers are allowed.
-/

namespace ScriptHost.Guest

/-! ## Encoding -/

/-- The bytes that continue a code point, `count` of them, the last one first. -/
def continuationBytes : Nat → Nat → List UInt8
  | 0, _ => []
  | count + 1, n => (0x80 + n % 64).toUInt8 :: continuationBytes count (n / 64)

/-- The bytes of a code point. -/
def encodePoint (n : Nat) : List UInt8 :=
  if n < 0x80 then [n.toUInt8]
  else
    let count := if n < 0x800 then 1 else if n < 0x10000 then 2 else if n < 0x200000 then 3
      else if n < 0x4000000 then 4 else 5
    let lead := 256 - (1 <<< (7 - count)) + (n >>> (6 * count))
    lead.toUInt8 :: (continuationBytes count n).reverse

/-- Whether a byte continues a code point. -/
def continues (b : UInt8) : Bool := b &&& 0xC0 == 0x80

/-- Whether the byte at a place continues a code point. -/
def continuesAt (s : ByteArray) (i : Nat) : Bool := ((s.data[i]?).map continues).getD false

/-- The number of bytes that continue the code point that a byte starts. -/
def followers (b : UInt8) : Option Nat :=
  if b < 0x80 then some 0
  else if b < 0xC0 then none
  else if b < 0xE0 then some 1
  else if b < 0xF0 then some 2
  else if b < 0xF8 then some 3
  else if b < 0xFC then some 4
  else if b < 0xFE then some 5
  else none

/-- The number that `count` continuation bytes add to. -/
def readFollowers (s : ByteArray) (i acc : Nat) : Nat → Option Nat
  | 0 => some acc
  | count + 1 =>
    match s.data[i]? with
    | some b => if continues b then readFollowers s (i + 1) (acc * 64 + b.toNat % 64) count else none
    | none => none

/-- The least number that needs a number of continuation bytes. -/
def leastPoint : Nat → Nat
  | 0 => 0
  | 1 => 0x80
  | 2 => 0x800
  | 3 => 0x10000
  | 4 => 0x200000
  | _ => 0x4000000

/-- The code point at a place, and the place after it. -/
def decodePoint (s : ByteArray) (i : Nat) (strict : Bool) : Option (Nat × Nat) := do
  let lead ← s.data[i]?
  let count ← followers lead
  let start := if count == 0 then lead.toNat else lead.toNat % Nat.pow 2 (6 - count)
  let n ← readFollowers s (i + 1) start count
  if n < leastPoint count then none
  else if strict && (0x10FFFF < n || (0xD800 ≤ n && n ≤ 0xDFFF)) then none
  else some (n, i + 1 + count)

/-- A place counted from the end if negative. -/
def fromEnd (i : Int64) (size : Nat) : Int :=
  let i := i.toInt
  if 0 ≤ i then i else if (size : Int) < -i then 0 else size + i + 1

namespace Library

/-- What is said of bytes that are no code point. -/
def invalidPoint : String := "invalid UTF-8 code"

/-- The bytes of code points, from position `i` on. -/
def charsOf (args : Args) (i : Nat) : List Value → ByteArray → NativeM ByteArray
  | [], out => pure out
  | _ :: rest, out => do
    let n ← checkInt args i
    if n < 0 || 0x7FFFFFFF < n then badArgument i "value out of range"
    else charsOf args (i + 1) rest (out ++ ⟨(encodePoint n.toInt.toNat).toArray⟩)

/-- The code points that start in a stretch; `fuel` bounds their number. -/
def pointsBetween (s : ByteArray) (strict : Bool) (stop : Nat) : Nat → Nat → List Value →
    NativeM (List Value)
  | 0, _, found => pure found.reverse
  | fuel + 1, i, found => do
    if stop ≤ i then pure found.reverse
    else
      match decodePoint s i strict with
      | some (n, next) => pointsBetween s strict stop fuel next (.int (Int64.ofNat n) :: found)
      | none => fault invalidPoint

/-- The code points of a stretch. -/
def utf8Codepoint (args : Args) : NativeM Outcome := do
  let s ← checkBytes args 1
  let i ← optInt args 2 1
  let first := fromEnd i s.size
  let last := fromEnd (← optInt args 3 (Int64.ofInt first)) s.size
  if first < 1 then badArgument 2 "out of bounds"
  else if (s.size : Int) < last then badArgument 3 "out of bounds"
  else
    results (← pointsBetween s (!(args.get 4).truthy) last.toNat s.size (first.toNat - 1) [])

/-- The number of code points in a stretch, or the place of what is none; `last` is the place of the last
byte. -/
def countPoints (s : ByteArray) (strict : Bool) (last : Int) : Nat → Nat → Nat → NativeM Outcome
  | 0, _, n => result (.int (Int64.ofNat n))
  | fuel + 1, i, n => do
    if last < i then result (.int (Int64.ofNat n))
    else
      match decodePoint s i strict with
      | some (_, next) => countPoints s strict last fuel next (n + 1)
      | none => results [.nil, .int (Int64.ofNat (i + 1))]

/-- The number of code points of a stretch. -/
def utf8Len (args : Args) : NativeM Outcome := do
  let s ← checkBytes args 1
  let first := fromEnd (← optInt args 2 1) s.size
  let last := fromEnd (← optInt args 3 (-1)) s.size
  if first < 1 || (s.size : Int) < first - 1 then badArgument 2 "initial position out of bounds"
  else if (s.size : Int) ≤ last - 1 then badArgument 3 "final position out of bounds"
  else countPoints s (!(args.get 4).truthy) (last - 1) (s.size + 1) (first.toNat - 1) 0

/-- The start of the code point before a place. -/
def pointBefore (s : ByteArray) : Nat → Nat
  | 0 => 0
  | i + 1 => if continuesAt s i then pointBefore s i else i

/-- The start of the code point after a place; `fuel` bounds the bytes. -/
def pointAfter (s : ByteArray) : Nat → Nat → Nat
  | 0, i => i
  | fuel + 1, i => if continuesAt s i then pointAfter s fuel (i + 1) else i

/-- The place `n` code points before another, and how many are missing. -/
def pointsBack (s : ByteArray) : Nat → Nat → Nat × Nat
  | 0, i => (i, 0)
  | n + 1, 0 => (0, n + 1)
  | n + 1, i => pointsBack s n (pointBefore s i)

/-- The place `n` code points after another, and how many are missing. -/
def pointsForth (s : ByteArray) : Nat → Nat → Nat × Nat
  | 0, i => (i, 0)
  | n + 1, i =>
    if i < s.size then pointsForth s n (pointAfter s s.size (i + 1)) else (i, n + 1)

/-- The place of a code point counted from another place. -/
def utf8Offset (args : Args) : NativeM Outcome := do
  let s ← checkBytes args 1
  let n ← checkInt args 2
  let default := if 0 < n then 1 else Int64.ofNat (s.size + 1)
  let start := fromEnd (← optInt args 3 default) s.size
  if start < 1 || (s.size : Int) < start - 1 then badArgument 3 "position out of bounds"
  else
    let i := start.toNat - 1
    let answer := fun (r : Nat × Nat) =>
      result (if r.2 == 0 then .int (Int64.ofNat (r.1 + 1)) else .nil)
    if n == 0 then answer (if continuesAt s i then pointBefore s i else i, 0)
    else if continuesAt s i then fault "initial position is a continuation byte"
    else if n < 0 then answer (pointsBack s n.toInt.natAbs i)
    else answer (pointsForth s (n.toInt.toNat - 1) i)

/-- The next code point of a string. -/
def codesStep (args : Args) : NativeM Outcome := do
  let s ← checkBytes args 1
  let n := ((args.get 2).toInteger?.getD 0).toUInt64.toNat
  let i := if n < s.size then pointAfter s s.size n else n
  if s.size ≤ i then results []
  else
    match decodePoint s i true with
    | some (point, next) =>
      if continuesAt s next then fault invalidPoint
      else results [.int (Int64.ofNat (i + 1)), .int (Int64.ofNat point)]
    | none => fault invalidPoint

/-- The pattern of one code point. -/
def pointPattern : ByteArray :=
  ⟨#[91, 0, 45, 127, 194, 45, 253, 93, 91, 128, 45, 191, 93, 42]⟩

/-- The functions of the library of encoded text. -/
def utf8 (f : Utf8Fn) (args : Args) : NativeM Outcome := do
  match f with
  | .char => do result (.str (← charsOf args 1 args ByteArray.empty))
  | .codepoint => utf8Codepoint args
  | .codes => do
    let s ← checkBytes args 1
    if continuesAt s 0 then badArgument 1 invalidPoint
    else results [.native .codesStep, .str s, .int 0]
  | .len => utf8Len args
  | .offset => utf8Offset args

end Library

end ScriptHost.Guest
