import ScriptHost.Guest.Format
import ScriptHost.Guest.Library.Base
import ScriptHost.Guest.Pattern

/-!
# The string library

Functions on strings, which are bytes, and arithmetic on strings that write numbers.
-/

namespace ScriptHost.Guest

/-! ## Places -/

/-- The place that a number means as the start of a stretch of `size` bytes, counted from 1; negative
numbers count from the end. -/
def startPlace (i : Int64) (size : Nat) : Nat :=
  let i := i.toInt
  if 0 < i then i.toNat
  else if i == 0 || i < -(size : Int) then 1
  else (size + i + 1).toNat

/-- The place that a number means as the end of a stretch. -/
def endPlace (i : Int64) (size : Nat) : Nat :=
  let i := i.toInt
  if (size : Int) < i then size
  else if 0 ≤ i then i.toNat
  else if i < -(size : Int) then 0
  else (size + i + 1).toNat

/-- ASCII letters of a string changed. -/
def mapBytes (f : Char → Char) (b : ByteArray) : ByteArray :=
  ⟨b.data.map fun x => if x < 128 then (f (Char.ofNat x.toNat)).toNat.toUInt8 else x⟩

/-- `n` copies of a string, with a separator between them. -/
def copies (b sep : ByteArray) (out : ByteArray) : Nat → ByteArray
  | 0 => out
  | 1 => out ++ b
  | n + 1 => copies b sep (out ++ b ++ sep) n

namespace Library

/-! ## Parts and bytes -/

/-- The bytes of a stretch, as numbers. -/
def stringByte (args : Args) : NativeM Outcome := do
  let s ← checkBytes args 1
  let first ← optInt args 2 1
  let last ← optInt args 3 first
  let bytes := s.extract (startPlace first s.size - 1) (endPlace last s.size)
  results (bytes.data.toList.map fun b => .int (Int64.ofNat b.toNat))

/-- The bytes that numbers write, from position `i` on. -/
def bytesOfCodes (args : Args) (i : Nat) : List Value → ByteArray → NativeM ByteArray
  | [], out => pure out
  | _ :: rest, out => do
    let n ← checkInt args i
    if n < 0 || 255 < n then badArgument i "value out of range"
    else bytesOfCodes args (i + 1) rest (out.push n.toUInt64.toUInt8)

/-- A stretch of a string. -/
def stringSub (args : Args) : NativeM Outcome := do
  let s ← checkBytes args 1
  let first ← checkInt args 2
  let last ← optInt args 3 (-1)
  result (.str (s.extract (startPlace first s.size - 1) (endPlace last s.size)))

/-- The largest size of a string. -/
def maxSize : Nat := 0x7FFFFFFFFFFFFFFF

/-- The largest size of a string that there is memory for. -/
def maxAllocation : Nat := 0x100000000

/-- Copies of a string. -/
def stringRep (args : Args) : NativeM Outcome := do
  let s ← checkBytes args 1
  let n ← checkInt args 2
  let sep ← optBytes args 3 ByteArray.empty
  if n ≤ 0 then result (.str ByteArray.empty)
  else
    let count := n.toInt.toNat
    if maxSize / count ≤ s.size + sep.size && 0 < s.size + sep.size then
      fault "resulting string too large"
    else if s.size + sep.size == 0 then result (.str ByteArray.empty)
    else if maxAllocation < count * (s.size + sep.size) then bareFault "not enough memory"
    else result (.str (copies s sep ByteArray.empty count))

/-! ## Patterns -/

/-- What a match comes to. -/
def matched {α : Type} (r : Except String α) : NativeM α :=
  match r with
  | .ok a => pure a
  | .error message => fault message

/-- Find a pattern, for its place or for its captures. -/
def stringFind (wantPlace : Bool) (args : Args) : NativeM Outcome := do
  let s ← checkBytes args 1
  let p ← checkBytes args 2
  let start := startPlace (← optInt args 3 1) s.size - 1
  if s.size < start then result .nil
  else if wantPlace && ((args.get 4).truthy || isPlainPattern p) then
    match findPlain s p start (s.size - start) with
    | some i => results [.int (Int64.ofNat (i + 1)), .int (Int64.ofNat (i + p.size))]
    | none => result .nil
  else
    let pattern := Pattern.ofBytes p true
    let left := if pattern.anchored then 0 else s.size - start
    match ← matched (findMatch s pattern.items start left) with
    | none => result .nil
    | some (first, stop, caps) =>
      if wantPlace then
        let values ← if caps.isEmpty then pure [] else matched (captureValues s first stop caps)
        results (.int (Int64.ofNat (first + 1)) :: .int (Int64.ofNat stop) :: values)
      else results (← matched (captureValues s first stop caps))

/-- An iterator over the matches of a pattern. Its state is a table: the string, the pattern, the next place
to look at, and the end of the last match. -/
def stringGmatch (args : Args) : NativeM Outcome := do
  let s ← checkBytes args 1
  let p ← checkBytes args 2
  let start := min (startPlace (← optInt args 3 1) s.size - 1) (s.size + 1)
  let state : Table := {}
  let state := state.set (.int 1) (.str s)
  let state := state.set (.int 2) (.str p)
  let state := state.set (.int 3) (.int (Int64.ofNat start))
  let state := state.set (.int 4) (.int (-1))
  let r ← allocate fun h => h.allocTable state
  result (.native (.gmatchStep r))

/-- The first match at one of `left + 1` places that does not end where the last one did. -/
def findNewMatch (s : ByteArray) (items : List PatternItem) (last : Int64) (i : Nat) :
    Nat → Except String (Option (Nat × Nat × List Captured))
  | 0 => do
    match ← matchItems s items i [] with
    | some (e, caps) => pure (if Int64.ofNat e == last then none else some (i, e, caps))
    | none => pure none
  | left + 1 => do
    match ← matchItems s items i [] with
    | some (e, caps) =>
      if Int64.ofNat e == last then findNewMatch s items last (i + 1) left
      else pure (some (i, e, caps))
    | none => findNewMatch s items last (i + 1) left

/-- The next match of an iterator. -/
def gmatchStep (state : Ref) : NativeM Outcome := do
  let t := (← getHeap).table state
  match t.getInt 1, t.getInt 2, t.getInt 3, t.getInt 4 with
  | .str s, .str p, .int start, .int last =>
    let start := start.toInt.toNat
    if s.size < start then result .nil
    else
      let items := (Pattern.ofBytes p false).items
      match ← matched (findNewMatch s items last start (s.size - start)) with
      | none =>
        modifyHeap fun h => h.rawSet state (.int 3) (.int (Int64.ofNat (s.size + 1)))
        result .nil
      | some (first, stop, caps) =>
        modifyHeap fun h => (h.rawSet state (.int 3) (.int (Int64.ofNat stop))).rawSet state
          (.int 4) (.int (Int64.ofNat stop))
        results (← matched (captureValues s first stop caps))
  | _, _, _, _ => result .nil

/-- A replacement text with its captures filled in. -/
def fillReplacement (whole : Value) (values : List Value) : List UInt8 → ByteArray →
    Except String ByteArray
  | [], out => .ok out
  | 37 :: d :: rest, out =>
    let c := Char.ofNat d.toNat
    if d == 37 then fillReplacement whole values rest (out.push 37)
    else if c == '0' then
      fillReplacement whole values rest (out ++ (whole.toBytes?.getD ByteArray.empty))
    else if c.isDigit then
      match values[c.toNat - '1'.toNat]? with
      | some v => fillReplacement whole values rest (out ++ (v.toBytes?.getD ByteArray.empty))
      | none => .error s!"invalid capture index %{c} in replacement string"
    else .error "invalid use of '%' in replacement string"
  | [37], _ => .error "invalid use of '%' in replacement string"
  | b :: rest, out => fillReplacement whole values rest (out.push b)

/-- What takes the place of a match. -/
def replacement (filler : Value) (s : ByteArray) (first stop : Nat) (caps : List Captured) :
    NativeM ByteArray := do
  let whole := s.extract first stop
  let values ← matched (captureValues s first stop caps)
  let keep := fun (v : Value) => do
    if !v.truthy then pure whole
    else
      match v.toBytes? with
      | some b => pure b
      | none => fault s!"invalid replacement value (a {v.typeName})"
  match filler with
  | .table _ => keep (← getField filler (values.headD .nil))
  | .closure _ => keep ((← callGuest filler values).headD .nil)
  | .native _ => keep ((← callGuest filler values).headD .nil)
  | v =>
    let text := (v.toBytes?.getD ByteArray.empty).data.toList
    matched (fillReplacement (.str whole) values text ByteArray.empty)

/-- Replace matches from a place on, at most `most` of them; `fuel` bounds the places. -/
def replaceAll (filler : Value) (s : ByteArray) (pattern : Pattern) (most : Int64) :
    Nat → Nat → Option Nat → Int64 → ByteArray → NativeM (ByteArray × Int64)
  | 0, _, _, count, out => pure (out, count)
  | fuel + 1, i, last, count, out => do
    if most ≤ count then pure (out ++ s.extract i s.size, count)
    else
      match ← matched (matchItems s pattern.items i []) with
      | some (stop, caps) =>
        if last == some stop then
          if i < s.size && !pattern.anchored then
            replaceAll filler s pattern most fuel (i + 1) last count (out ++ s.extract i (i + 1))
          else pure (out ++ s.extract i s.size, count)
        else
          let out := out ++ (← replacement filler s i stop caps)
          if pattern.anchored then pure (out ++ s.extract stop s.size, count + 1)
          else replaceAll filler s pattern most fuel stop (some stop) (count + 1) out
      | none =>
        if i < s.size && !pattern.anchored then
          replaceAll filler s pattern most fuel (i + 1) last count (out ++ s.extract i (i + 1))
        else pure (out ++ s.extract i s.size, count)

/-- Replace the matches of a pattern. -/
def stringGsub (args : Args) : NativeM Outcome := do
  let s ← checkBytes args 1
  let p ← checkBytes args 2
  let filler := args.get 3
  let usable := match filler with
    | .table _ => true
    | v => v.isFunction || v.toBytes?.isSome
  if !usable then wrongType args 3 "string/function/table"
  else
    let most ← optInt args 4 (Int64.ofNat (s.size + 1))
    let (out, count) ←
      replaceAll filler s (Pattern.ofBytes p true) most (2 * s.size + 3) 0 none 0 ByteArray.empty
    results [.str out, .int count]

/-! ## Formatting -/

/-- The text of a value now, which a metamethod may write. -/
def textOf (v : Value) : NativeM ByteArray := do
  let h ← getHeap
  match h.metamethod v "__tostring" with
  | .nil => pure (h.plainText v)
  | f =>
    match (← callGuest f [v]).headD .nil with
    | .str b => pure b
    | x =>
      match x.toBytes? with
      | some b => pure b
      | none => fault "'__tostring' must return a string"

/-- The directive of a format, checked. -/
def directive (cs : List Char) (conversion : Char) (allowed : String) (precise : Bool) :
    NativeM Directive := do
  match Directive.ofChars cs conversion allowed.toList precise with
  | some d => pure d
  | none => fault (s!"invalid conversion '%{String.ofList (cs ++ [conversion])}' to 'format'")

/-- What a conversion makes of the argument at a position. -/
def formatArgument (args : Args) (i : Nat) (cs : List Char) (conversion : Char) :
    NativeM ByteArray := do
  let ofInt := fun (allowed : String) => do
    let n ← checkInt args i
    let d ← directive cs conversion allowed true
    pure (d.integer n).toUTF8
  let ofFloat := do
    let x ← checkFloat args i
    let d ← directive cs conversion "-+ #0" true
    pure (d.float x).toUTF8
  match conversion with
  | 'd' => ofInt "-+0 "
  | 'i' => ofInt "-+0 "
  | 'u' => ofInt "-0"
  | 'x' => ofInt "-#0"
  | 'X' => ofInt "-#0"
  | 'o' => ofInt "-#0"
  | 'a' => ofFloat
  | 'A' => ofFloat
  | 'e' => ofFloat
  | 'E' => ofFloat
  | 'f' => ofFloat
  | 'F' => ofFloat
  | 'g' => ofFloat
  | 'G' => ofFloat
  | 'c' =>
    let n ← checkInt args i
    let d ← directive cs conversion "-" false
    pure (d.text ⟨#[n.toUInt64.toUInt8]⟩)
  | 'p' =>
    let d ← directive cs conversion "-" false
    let v := args.get i
    let text := match v with
      | .table _ => addressText v
      | .closure _ => addressText v
      | .native _ => addressText v
      | .thread _ => addressText v
      | .object _ => addressText v
      | .light => addressText v
      | _ => "(null)"
    pure (d.text text.toUTF8)
  | 's' =>
    let b ← textOf (args.get i)
    if cs.isEmpty then pure b
    else if b.data.contains 0 then badArgument i "string contains zeros"
    else
      let d ← directive cs conversion "-" true
      pure (d.text b)
  | 'q' =>
    if !cs.isEmpty then fault "specifier '%q' cannot have modifiers"
    else
      match args.get i with
      | .str b => pure (quotedBytes b)
      | .int n => pure (literalInt n).toUTF8
      | .float x => pure (literalFloat x).toUTF8
      | .nil => pure "nil".toUTF8
      | .bool b => pure (if b then "true" else "false").toUTF8
      | _ => badArgument i "value has no literal form"
  | c => fault s!"invalid conversion '%{String.ofList (cs ++ [c])}' to 'format'"

/-- The characters that may stand between `%` and the letter of a conversion. -/
def isDirectiveChar (b : UInt8) : Bool := "-+ #0123456789.".toList.contains (Char.ofNat b.toNat)

/-- Write a format; the next directive takes the argument after position `i`. -/
def formatLoop (args : Args) : Nat → List UInt8 → Nat → ByteArray → NativeM ByteArray
  | 0, _, _, out => pure out
  | _, [], _, out => pure out
  | fuel + 1, b :: rest, i, out => do
    if b != 37 then formatLoop args fuel rest i (out.push b)
    else if rest.head? == some 37 then formatLoop args fuel (rest.drop 1) i (out.push 37)
    else
      let i := i + 1
      let modifiers := rest.takeWhile isDirectiveChar
      if !args.has i then badArgument i "no value"
      else if 22 ≤ modifiers.length + 1 then fault "invalid format string to 'format'"
      else
        let cs := modifiers.map fun b => Char.ofNat b.toNat
        match rest.drop modifiers.length with
        | [] => fault s!"invalid conversion '%{String.ofList cs}' to 'format'"
        | c :: rest =>
          let piece ← formatArgument args i cs (Char.ofNat c.toNat)
          formatLoop args fuel rest i (out ++ piece)

/-! ## The library -/

/-- The functions of the string library. -/
def string (f : StringFn) (args : Args) : NativeM Outcome := do
  match f with
  | .byte => stringByte args
  | .char => do result (.str (← bytesOfCodes args 1 args ByteArray.empty))
  | .dump => do
    let _ ← checkFunction args 1
    fault "unable to dump given function"
  | .find => stringFind true args
  | .format => do
    let s ← checkBytes args 1
    result (.str (← formatLoop args s.size s.data.toList 1 ByteArray.empty))
  | .gmatch => stringGmatch args
  | .gsub => stringGsub args
  | .len => do result (.int (Int64.ofNat (← checkBytes args 1).size))
  | .lower => do result (.str (mapBytes Char.toLower (← checkBytes args 1)))
  | .match => stringFind false args
  | .rep => stringRep args
  | .reverse => do result (.str ⟨(← checkBytes args 1).data.reverse⟩)
  | .sub => stringSub args
  | .upper => do result (.str (mapBytes Char.toUpper (← checkBytes args 1)))
  | .pack => fault "packed data is not supported"
  | .packsize => fault "packed data is not supported"
  | .unpack => fault "packed data is not supported"

/-! ## Arithmetic -/

/-- The operation on numbers. -/
def stringOperation : StringArith → Arith
  | .add => .add
  | .sub => .sub
  | .mul => .mul
  | .mod => .mod
  | .pow => .pow
  | .div => .div
  | .idiv => .idiv
  | .unm => .unm

/-- Arithmetic on operands of which one is a string at least. -/
def stringArith (f : StringArith) (args : Args) : NativeM Outcome := do
  let op := stringOperation f
  let a := args.get 1
  let b := args.get 2
  match a.toNumber?, b.toNumber? with
  | some x, some y =>
    match op.apply x y with
    | some (.ok v) => result v
    | some (.error .zeroDivisor) => bareFault "attempt to perform 'n//0'"
    | some (.error .zeroModulus) => bareFault "attempt to perform 'n%%0'"
    | _ => bareFault "number has no integer representation"
  | _, _ =>
    let h ← getHeap
    let isText := match b with
      | .str _ => true
      | _ => false
    match isText, h.metamethod b op.event with
    | false, .nil =>
      fault (s!"attempt to {(op.event.drop 2).toString} a '{a.typeName}' with a '{b.typeName}'")
    | false, g => pure (.call g [a, b] [.adapt (.exactly 1)])
    | true, _ =>
      fault (s!"attempt to {(op.event.drop 2).toString} a '{a.typeName}' with a '{b.typeName}'")

end Library

end ScriptHost.Guest
