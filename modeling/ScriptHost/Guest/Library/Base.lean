import ScriptHost.Guest.Compile
import ScriptHost.Guest.Native
import ScriptHost.Guest.Parser

/-!
# The base library

The functions that guest code has without a namespace.
-/

namespace ScriptHost.Guest

/-! ## Chunks -/

/-- The code of a chunk, or why its source is none. Only source is accepted, no compiled code. -/
def compileChunk (name : String) (source : ByteArray) : Except String Code :=
  if source.data[0]? == some 0x1B then
    .error "attempt to load a binary chunk (mode is 't')"
  else (parseChunk name source).map (Compile.chunk (chunkTitle name))

/-- A closure of a chunk with a table of globals. -/
def Heap.closeChunk (h : Heap) (code : Code) (globals : Value) : Ref × Heap :=
  let (cell, h) := h.allocCell globals
  h.allocClosure ⟨code, #[cell]⟩

/-! ## Texts of values -/

/-- The hexadecimal number by which the text of a value without a text tells it from others. -/
def addressText (v : Value) : String :=
  let number :=
    match v with
    | .table r => r
    | .closure r => r
    | .thread r => r
    | _ => 0
  let ds := Nat.toDigits 16 (0x55550000 + 64 * number)
  "0x" ++ String.ofList (List.replicate (14 - ds.length) '0' ++ ds)

/-- The text of a value that no metamethod writes. -/
def Heap.plainText (h : Heap) (v : Value) : ByteArray :=
  match v with
  | .nil => "nil".toUTF8
  | .bool b => (if b then "true" else "false").toUTF8
  | .str b => b
  | .object (.task id _) => s!"task#{id}".toUTF8
  | .object (.failure r) => (h.failure r).display.toUTF8
  | .light => s!"userdata: {addressText v}".toUTF8
  | v =>
    match numberText? v with
    | some s => s.toUTF8
    | none => s!"{h.typeTitle v}: {addressText v}".toUTF8

/-! ## Numbers of other bases -/

/-- The value of a digit of any base. -/
def digitOfBase? (c : Char) : Option Nat :=
  if c.isDigit then some (c.toNat - '0'.toNat)
  else if c.isAlpha then some (c.toLower.toNat - 'a'.toNat + 10)
  else none

/-- The integer that a text writes in a base. -/
def readInBase? (base : Nat) (cs : List Char) : Option Int64 :=
  let cs := ((cs.dropWhile isSpace).reverse.dropWhile isSpace).reverse
  let (negative, ds) :=
    match cs with
    | '-' :: r => (true, r)
    | '+' :: r => (false, r)
    | r => (false, r)
  if ds.isEmpty || !ds.all (fun c => (digitOfBase? c).any (· < base)) then none
  else
    let n := ds.foldl (fun n c => base * n + (digitOfBase? c).getD 0) 0
    some (if negative then -Int64.ofNat n else Int64.ofNat n)

namespace Library

/-! ## Functions -/

/-- The error value with a place in front, if it is a string and the level asks for one. -/
def located (v : Value) (level : Int64) : NativeM Value := do
  match v with
  | .str b =>
    if 0 < level then
      let place := placeAt level.toInt.toNat (← read).frames
      pure (.str (place.toUTF8 ++ b))
    else pure v
  | v => pure v

/-- The next entry of a table. -/
def nextEntry (r : Ref) (k : Value) : NativeM Outcome := do
  let t := (← getHeap).table r
  let found := match k.toKey?, k with
    | none, .nil => t.entryAfter none
    | none, _ => .error ()
    | some key, _ => t.entryAfter (some key)
  match found with
  | .error () => bareFault "invalid key to 'next'"
  | .ok none => result .nil
  | .ok (some (key, v)) => results [key.toValue, v]

/-- The text of a value, which a metamethod may write. -/
def tostring (v : Value) : NativeM Outcome := do
  let h ← getHeap
  match h.metamethod v "__tostring" with
  | .nil => result (.str (h.plainText v))
  | f => pure (.call f [v] [.adapt .string])

/-- The arguments that `select` gives. -/
def select (args : Args) : NativeM Outcome := do
  let rest := args.drop 1
  let isCount := match args.get 1 with
    | .str b => b == "#".toUTF8
    | _ => false
  if isCount then result (.int (Int64.ofNat rest.length))
  else
    let n ← checkInt args 1
    if n < 0 then
      let back := (-n.toInt).toNat
      if rest.length < back then badArgument 1 "index out of range"
      else results (rest.drop (rest.length - back))
    else if n == 0 then badArgument 1 "index out of range"
    else results (rest.drop (n.toInt.toNat - 1))

/-- A metatable put on a table. -/
def setmetatable (args : Args) : NativeM Outcome := do
  let r ← checkTable args 1
  let behind ← match args.has 2, args.get 2 with
    | true, .nil => pure none
    | true, .table m => pure (some m)
    | _, _ => wrongType args 2 "nil or table"
  if !((← getHeap).metamethod (.table r) "__metatable").isNil then
    fault "cannot change a protected metatable"
  else
    modifyHeap fun h => h.modifyTable r fun t => { t with metatable := behind }
    result (.table r)

/-- The metatable of a value, or what it says in place of itself. -/
def getmetatable (args : Args) : NativeM Outcome := do
  let v ← checkAny args 1
  match v with
  | .object _ => result (.bool false)
  | v =>
    let h ← getHeap
    match h.metatable? v with
    | none => result .nil
    | some m =>
      match (h.table m).getText "__metatable" with
      | .nil => result (.table m)
      | stand => result stand

/-- The number that a value is. -/
def tonumber (args : Args) : NativeM Outcome := do
  if args.isNone 2 then
    let v ← checkAny args 1
    result (v.toNumber?.getD .nil)
  else
    let base ← checkInt args 2
    match args.get 1 with
    | .str b =>
      if base < 2 || 36 < base then badArgument 2 "base out of range"
      else
        match readInBase? base.toInt.toNat (byteChars b) with
        | some n => result (.int n)
        | none => result .nil
    | _ => wrongType args 1 "string"

/-- A chunk of source as a function. -/
def load (args : Args) : NativeM Outcome := do
  match args.get 1 with
  | .str source =>
    let name ← optBytes args 2 source
    let globals ← if args.has 4 then pure (args.get 4)
      else do pure (.table (← getHeap).globals)
    match compileChunk (Text.decodeLossy name) source with
    | .error message => results [.nil, .ofText message]
    | .ok code => do
      let r ← allocate fun h => h.closeChunk code globals
      result (.closure r)
  | _ => wrongType args 1 "function"

/-- The functions of the base library. -/
def base (f : BaseFn) (args : Args) : NativeM Outcome := do
  match f with
  | .assert =>
    let v ← checkAny args 1
    if v.truthy then results args
    else
      let message := if args.has 2 then args.get 2 else .ofText "assertion failed!"
      pure (.raise (← located message 1))
  | .collectgarbage => result (.int 0)
  | .error =>
    let level ← optInt args 2 1
    pure (.raise (← located (args.get 1) level))
  | .getmetatable => getmetatable args
  | .ipairs =>
    let v ← checkAny args 1
    results [.native .ipairsStep, v, .int 0]
  | .load => load args
  | .next => do nextEntry (← checkTable args 1) (args.get 2)
  | .pairs =>
    let v ← checkAny args 1
    match (← getHeap).metamethod v "__pairs" with
    | .nil => results [.native (.base .next), v, .nil]
    | f => pure (.call f [v] [.adapt (.exactly 3)])
  | .pcall =>
    let f ← checkAny args 1
    pure (.call f (args.drop 1) [.protect none])
  | .print => results []
  | .rawequal =>
    let a ← checkAny args 1
    let b ← checkAny args 2
    result (.bool (a.rawEquals b))
  | .rawget =>
    let r ← checkTable args 1
    let k ← checkAny args 2
    result ((← getHeap).rawGet r k)
  | .rawlen =>
    match args.get 1 with
    | .table r => result (.int (Int64.ofNat ((← getHeap).table r).border))
    | .str b => result (.int (Int64.ofNat b.size))
    | _ => wrongType args 1 "table or string"
  | .rawset =>
    let r ← checkTable args 1
    let k ← checkAny args 2
    let v ← checkAny args 3
    match k.toKey? with
    | some key =>
      modifyHeap fun h => h.rawSet r key v
      result (.table r)
    | none => bareFault (if k.isNil then "table index is nil" else "table index is NaN")
  | .select => select args
  | .setmetatable => setmetatable args
  | .tonumber => tonumber args
  | .tostring => do tostring (← checkAny args 1)
  | .type => do result (.ofText (← checkAny args 1).typeName)
  | .xpcall =>
    let handler ← checkFunction args 2
    pure (.call (args.get 1) (args.drop 2) [.protect (some handler)])

/-- The iteration step of `ipairs`. -/
def ipairsStep (args : Args) : NativeM Outcome := do
  let i ← checkInt args 2
  let v ← getField (args.get 1) (.int (i + 1))
  if v.isNil then result .nil else results [.int (i + 1), v]

end Library

end ScriptHost.Guest
