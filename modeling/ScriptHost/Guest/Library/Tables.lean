import ScriptHost.Guest.Native

/-!
# The table library

Functions on tables as sequences. They read and write with metamethods, so that they also work on tables
that only look like sequences, and cannot write to frozen ones.
-/

namespace ScriptHost.Guest.Library

/-! ## Sequences -/

/-- An argument that can be used as a table for some events. -/
def checkSequence (args : Args) (i : Nat) (events : List String) : NativeM Value := do
  match args.get i with
  | .table r => pure (.table r)
  | v =>
    let h ← getHeap
    if (h.metatable? v).isSome && events.all (fun e => !(h.metamethod v e).isNil) then pure v
    else wrongType args i "table"

/-- The item at an index. -/
def getItem (t : Value) (i : Int64) : NativeM Value := getField t (.int i)

/-- Set the item at an index. -/
def setItem (t : Value) (i : Int64) (v : Value) : NativeM Unit := setField t (.int i) v

/-- Move the items from `i` down to `last + 1` up by one; `count` is their number. -/
def moveUp (t : Value) (i : Int64) : Nat → NativeM Unit
  | 0 => pure ()
  | count + 1 => do
    setItem t i (← getItem t (i - 1))
    moveUp t (i - 1) count

/-- Move `count` items from `i + 1` on down by one. -/
def moveDown (t : Value) (i : Int64) : Nat → NativeM Unit
  | 0 => pure ()
  | count + 1 => do
    setItem t i (← getItem t (i + 1))
    moveDown t (i + 1) count

/-- Whether `i` is one of the first `n` places, all taken as natural numbers of 64 bits. -/
def isPlace (i n : Int64) : Bool := (i - 1).toUInt64 < n.toUInt64

/-- Put an item into a sequence. -/
def tableInsert (args : Args) : NativeM Outcome := do
  let t ← checkSequence args 1 ["__index", "__newindex", "__len"]
  let stop := (← lengthOf t) + 1
  match args.length with
  | 2 =>
    setItem t stop (args.get 2)
    results []
  | 3 =>
    let i ← checkInt args 2
    if !isPlace i stop then badArgument 2 "position out of bounds"
    else
      moveUp t stop (stop - i).toInt.toNat
      setItem t i (args.get 3)
      results []
  | _ => fault "wrong number of arguments to 'insert'"

/-- Take an item out of a sequence. -/
def tableRemove (args : Args) : NativeM Outcome := do
  let t ← checkSequence args 1 ["__index", "__newindex", "__len"]
  let size ← lengthOf t
  let i ← optInt args 2 size
  if i != size && !((i - 1).toUInt64 ≤ size.toUInt64) then badArgument 2 "position out of bounds"
  else
    let v ← getItem t i
    let count := if i < size then (size - i).toInt.toNat else 0
    moveDown t i count
    setItem t (i + Int64.ofNat count) .nil
    result v

/-- The items from `i` on as one string, `count` of them, with a separator. -/
def concatItems (t : Value) (sep : ByteArray) (i : Int64) (out : ByteArray) :
    Nat → NativeM ByteArray
  | 0 => pure out
  | count + 1 => do
    match (← getItem t i).toBytes? with
    | none => fault s!"invalid value (at index {i.toInt}) in table for 'concat'"
    | some b =>
      let out := out ++ b
      concatItems t sep (i + 1) (if count == 0 then out else out ++ sep) count

/-- The items of a sequence as one string. -/
def tableConcat (args : Args) : NativeM Outcome := do
  let t ← checkSequence args 1 ["__index", "__len"]
  let size ← lengthOf t
  let sep ← optBytes args 2 ByteArray.empty
  let first ← optInt args 3 1
  let last ← optInt args 4 size
  let count := (last.toInt - first.toInt + 1).toNat
  result (.str (← concatItems t sep first ByteArray.empty count))

/-- The items from `i` on, `count` of them, after those in `found`, which are in reverse. -/
def takeItems (t : Value) (i : Int64) (found : List Value) : Nat → NativeM (List Value)
  | 0 => pure found.reverse
  | count + 1 => do takeItems t (i + 1) ((← getItem t i) :: found) count

/-- The largest number of values that a function can give. -/
def maxResults : Nat := 999000

/-- The items of a sequence as values. -/
def tableUnpack (args : Args) : NativeM Outcome := do
  let t := args.get 1
  let first ← optInt args 2 1
  let last ← if args.isNone 3 then lengthOf t else checkInt args 3
  let count := (last.toInt - first.toInt + 1).toNat
  if maxResults ≤ count then fault "too many results to unpack"
  else results (← takeItems t first [] count)

/-- The arguments as a table. -/
def tablePack (args : Args) : NativeM Outcome := do
  let filled := args.foldl
    (fun (acc : Table × Int64) v => (acc.1.set (.int acc.2) v, acc.2 + 1))
    (({} : Table), (1 : Int64))
  let t := filled.1.setText "n" (.int (Int64.ofNat args.length))
  let r ← allocate fun h => h.allocTable t
  result (.table r)

/-- Copy `count` items from `f` on to `t` on, by steps of one. -/
def copyItems (source target : Value) (f t step : Int64) : Nat → NativeM Unit
  | 0 => pure ()
  | count + 1 => do
    setItem target t (← getItem source f)
    copyItems source target (f + step) (t + step) step count

/-- Copy items within a sequence or to another one. -/
def tableMove (args : Args) : NativeM Outcome := do
  let f ← checkInt args 2
  let e ← checkInt args 3
  let t ← checkInt args 4
  let place := if args.isNone 5 then 1 else 5
  let source ← checkSequence args 1 ["__index"]
  let target ← checkSequence args place ["__newindex"]
  if f ≤ e then
    let n := e.toInt - f.toInt + 1
    if !(0 < f || e < Int64.maxValue + f) then badArgument 3 "too many elements to move"
    else if t.toInt > Int64.maxValue.toInt - n + 1 then badArgument 4 "destination wrap around"
    else if e < t || t ≤ f || (place != 1 && !(source.rawEquals target)) then
      copyItems source target f t 1 n.toNat
    else copyItems source target e (t + Int64.ofInt (n - 1)) (-1) n.toNat
  result (args.get place)

/-! ## Sorting -/

/-- Whether a value comes before another, by an order function or by the guest language's order. -/
def comesBefore (order : Option Value) (a b : Value) : NativeM Bool := do
  match order with
  | some f => do pure ((← callGuest f [a, b]).headD .nil).truthy
  | none =>
    match numberLt? a b with
    | some r => pure r
    | none =>
      match a, b with
      | .str x, .str y => pure (bytesLt x.data.toList y.data.toList)
      | _, _ =>
        let h ← getHeap
        let f := match h.metamethod a "__lt" with
          | .nil => h.metamethod b "__lt"
          | f => f
        if f.isNil then bareFault (orderMessage h a b)
        else do pure ((← callGuest f [a, b]).headD .nil).truthy

/-- Exchange the values at two places. -/
def putBoth (t : Value) (i j : Int64) (atI atJ : Value) : NativeM Unit := do
  setItem t i atI
  setItem t j atJ

/-- The first place after `i` whose item does not come before the pivot. -/
def scanUp (t : Value) (order : Option Value) (pivot : Value) (up i : Int64) :
    Nat → NativeM (Int64 × Value)
  | 0 => fault "invalid order function for sorting"
  | fuel + 1 => do
    let i := i + 1
    let v ← getItem t i
    if ← comesBefore order v pivot then
      if i == up - 1 then fault "invalid order function for sorting"
      else scanUp t order pivot up i fuel
    else pure (i, v)

/-- The last place before `j` whose item does not come after the pivot. -/
def scanDown (t : Value) (order : Option Value) (pivot : Value) (i j : Int64) :
    Nat → NativeM (Int64 × Value)
  | 0 => fault "invalid order function for sorting"
  | fuel + 1 => do
    let j := j - 1
    let v ← getItem t j
    if ← comesBefore order pivot v then
      if j < i then fault "invalid order function for sorting"
      else scanDown t order pivot i j fuel
    else pure (j, v)

/-- Move the items before the pivot in front of the others; the pivot stands at `up - 1`. Gives its
place in the end. -/
def partition (t : Value) (order : Option Value) (pivot : Value) (up : Int64) :
    Nat → Int64 → Int64 → NativeM Int64
  | 0, _, _ => fault "invalid order function for sorting"
  | fuel + 1, i, j => do
    let (i, atI) ← scanUp t order pivot up i (fuel + 1)
    let (j, atJ) ← scanDown t order pivot i j (fuel + 1)
    if j < i then
      putBoth t (up - 1) i atI pivot
      pure i
    else
      putBoth t i j atJ atI
      partition t order pivot up fuel i j

/-- Exchange the items at two places if the second comes before the first. -/
def orderPair (t : Value) (order : Option Value) (i j : Int64) : NativeM Unit := do
  let a ← getItem t i
  let b ← getItem t j
  if ← comesBefore order b a then putBoth t i j b a

/-- Sort the items between two places by their middle one; `fuel` bounds the nesting. -/
def sortBetween (t : Value) (order : Option Value) : Nat → Int64 → Int64 → NativeM Unit
  | 0, _, _ => pure ()
  | fuel + 1, low, up => do
    if up ≤ low then pure ()
    else
      orderPair t order low up
      if up - low == 1 then pure ()
      else
        let middle := Int64.ofInt ((low.toInt + up.toInt) / 2)
        let m ← getItem t middle
        let a ← getItem t low
        if ← comesBefore order m a then putBoth t middle low a m
        else
          let b ← getItem t up
          if ← comesBefore order b m then putBoth t middle up b m
        if up - low == 2 then pure ()
        else
          let pivot ← getItem t middle
          let v ← getItem t (up - 1)
          putBoth t middle (up - 1) v pivot
          let size := (up - low).toInt.toNat + 1
          let place ← partition t order pivot up size low (up - 1)
          if place - low < up - place then
            sortBetween t order fuel low (place - 1)
            sortBetween t order fuel (place + 1) up
          else
            sortBetween t order fuel (place + 1) up
            sortBetween t order fuel low (place - 1)

/-- Sort a sequence in place. -/
def tableSort (args : Args) : NativeM Outcome := do
  let t ← checkSequence args 1 ["__index", "__newindex", "__len"]
  let n ← lengthOf t
  if 1 < n then
    if 0x7FFFFFFF ≤ n then badArgument 1 "array too big"
    else
      let order ← if args.isNone 2 then pure none else do pure (some (← checkFunction args 2))
      sortBetween t order n.toInt.toNat 1 n
  results []

/-- The functions of the table library. -/
def table (f : TableFn) (args : Args) : NativeM Outcome :=
  match f with
  | .concat => tableConcat args
  | .insert => tableInsert args
  | .move => tableMove args
  | .pack => tablePack args
  | .remove => tableRemove args
  | .sort => tableSort args
  | .unpack => tableUnpack args

end ScriptHost.Guest.Library
