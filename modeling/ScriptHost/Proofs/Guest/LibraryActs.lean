import ScriptHost.Guest.Library
import ScriptHost.Proofs.Guest.Acting

/-!
# The libraries act

What the guest language's own libraries do to the world: they change the heap and call guest functions, and nothing
else. One lemma for each function that has steps; loops go by induction on what bounds them.
-/

namespace ScriptHost.Guest.Acting

variable {α : Type}

/-! ## The base library -/

@[grind ←] theorem located (v : Value) (level : Int64) : Acting (Library.located v level) := by
  unfold Library.located
  grind

@[grind ←] theorem nextEntry (r : Ref) (k : Value) : Acting (Library.nextEntry r k) := by
  unfold Library.nextEntry
  grind

@[grind ←] theorem tostring (v : Value) : Acting (Library.tostring v) := by
  unfold Library.tostring
  grind

@[grind ←] theorem select (args : Args) : Acting (Library.select args) := by
  unfold Library.select
  grind

@[grind ←] theorem setmetatable (args : Args) : Acting (Library.setmetatable args) := by
  unfold Library.setmetatable
  grind

@[grind ←] theorem getmetatable (args : Args) : Acting (Library.getmetatable args) := by
  unfold Library.getmetatable
  grind

@[grind ←] theorem tonumber (args : Args) : Acting (Library.tonumber args) := by
  unfold Library.tonumber
  grind

@[grind ←] theorem load (args : Args) : Acting (Library.load args) := by
  unfold Library.load
  split
  · refine .bind (.optBytes args 2 _) fun name => ?_
    split <;> grind
  · exact .wrongType args 1 "function"

@[grind ←] theorem base (f : BaseFn) (args : Args) : Acting (Library.base f args) := by
  unfold Library.base
  cases f <;> grind

@[grind ←] theorem ipairsStep (args : Args) : Acting (Library.ipairsStep args) := by
  unfold Library.ipairsStep
  grind

/-! ## The coroutine library -/

@[grind ←] theorem checkThread (args : Args) (i : ℕ) : Acting (Library.checkThread args i) := by
  unfold Library.checkThread
  grind

@[grind ←] theorem newThread (args : Args) : Acting (Library.newThread args) := by
  unfold Library.newThread
  grind

@[grind ←] theorem closeThread (r : Ref) : Acting (Library.closeThread r) := by
  unfold Library.closeThread
  grind

@[grind ←] theorem coroutine (f : CoroutineFn) (args : Args) : Acting (Library.coroutine f args) := by
  unfold Library.coroutine
  cases f <;> grind

/-! ## The string library -/

@[grind ←] theorem stringByte (args : Args) : Acting (Library.stringByte args) := by
  unfold Library.stringByte
  grind

@[grind ←] theorem bytesOfCodes (args : Args) (i : ℕ) (vs : List Value) (out : ByteArray) :
    Acting (Library.bytesOfCodes args i vs out) := by
  induction vs generalizing i out with
  | nil => exact .pure out
  | cons v vs ih =>
    unfold Library.bytesOfCodes
    grind

@[grind ←] theorem stringSub (args : Args) : Acting (Library.stringSub args) := by
  unfold Library.stringSub
  grind

@[grind ←] theorem stringRep (args : Args) : Acting (Library.stringRep args) := by
  unfold Library.stringRep
  grind

@[grind ←] theorem matched (r : Except String α) : Acting (Library.matched r) := by
  unfold Library.matched
  grind

@[grind ←] theorem stringFind (wantPlace : Bool) (args : Args) : Acting (Library.stringFind wantPlace args) := by
  unfold Library.stringFind
  grind

@[grind ←] theorem stringGmatch (args : Args) : Acting (Library.stringGmatch args) := by
  unfold Library.stringGmatch
  grind

@[grind ←] theorem gmatchStep (state : Ref) : Acting (Library.gmatchStep state) := by
  refine .bind .getHeap fun h => ?_
  extract_lets t
  split
  · grind
  · exact .result .nil

@[grind ←] theorem replacement (filler : Value) (s : ByteArray) (first stop : ℕ) (caps : List Captured) :
    Acting (Library.replacement filler s first stop caps) := by
  unfold Library.replacement
  grind

@[grind ←] theorem replaceAll (filler : Value) (s : ByteArray) (pattern : Pattern) (most : Int64) (fuel i : ℕ)
    (last : Option ℕ) (count : Int64) (out : ByteArray) :
    Acting (Library.replaceAll filler s pattern most fuel i last count out) := by
  induction fuel generalizing i last count out with
  | zero => exact .pure _
  | succ fuel ih =>
    unfold Library.replaceAll
    grind

@[grind ←] theorem stringGsub (args : Args) : Acting (Library.stringGsub args) := by
  unfold Library.stringGsub
  grind

@[grind ←] theorem textOf (v : Value) : Acting (Library.textOf v) := by
  unfold Library.textOf
  grind

@[grind ←] theorem directive (cs : List Char) (conversion : Char) (allowed : String) (precise : Bool) :
    Acting (Library.directive cs conversion allowed precise) := by
  unfold Library.directive
  grind

@[grind ←] theorem formatArgument (args : Args) (i : ℕ) (cs : List Char) (conversion : Char) :
    Acting (Library.formatArgument args i cs conversion) := by
  unfold Library.formatArgument
  split
  -- what the argument is matters to its literal form only
  case h_18 => cases args.get i <;> grind
  all_goals grind

@[grind ←] theorem formatLoop (args : Args) (fuel : ℕ) (bytes : List UInt8) (i : ℕ) (out : ByteArray) :
    Acting (Library.formatLoop args fuel bytes i out) := by
  induction fuel generalizing bytes i out with
  | zero =>
    unfold Library.formatLoop
    exact .pure out
  | succ fuel ih =>
    unfold Library.formatLoop
    grind

@[grind ←] theorem string (f : StringFn) (args : Args) : Acting (Library.string f args) := by
  unfold Library.string
  cases f <;> grind

@[grind ←] theorem stringArith (f : StringArith) (args : Args) : Acting (Library.stringArith f args) := by
  unfold Library.stringArith
  grind

/-! ## The table library -/

@[grind ←] theorem checkSequence (args : Args) (i : ℕ) (events : List String) :
    Acting (Library.checkSequence args i events) := by
  unfold Library.checkSequence
  grind

@[grind ←] theorem getItem (t : Value) (i : Int64) : Acting (Library.getItem t i) := .getField t _

@[grind ←] theorem setItem (t : Value) (i : Int64) (v : Value) : Acting (Library.setItem t i v) :=
  .setField t _ v

@[grind ←] theorem moveUp (t : Value) (i : Int64) (count : ℕ) : Acting (Library.moveUp t i count) := by
  induction count generalizing i with
  | zero => exact .pure ()
  | succ count ih =>
    unfold Library.moveUp
    grind

@[grind ←] theorem moveDown (t : Value) (i : Int64) (count : ℕ) : Acting (Library.moveDown t i count) := by
  induction count generalizing i with
  | zero => exact .pure ()
  | succ count ih =>
    unfold Library.moveDown
    grind

@[grind ←] theorem tableInsert (args : Args) : Acting (Library.tableInsert args) := by
  unfold Library.tableInsert
  grind

@[grind ←] theorem tableRemove (args : Args) : Acting (Library.tableRemove args) := by
  unfold Library.tableRemove
  grind

@[grind ←] theorem concatItems (t : Value) (sep : ByteArray) (i : Int64) (out : ByteArray) (count : ℕ) :
    Acting (Library.concatItems t sep i out count) := by
  induction count generalizing i out with
  | zero => exact .pure out
  | succ count ih =>
    unfold Library.concatItems
    grind

@[grind ←] theorem tableConcat (args : Args) : Acting (Library.tableConcat args) := by
  unfold Library.tableConcat
  grind

@[grind ←] theorem takeItems (t : Value) (i : Int64) (found : List Value) (count : ℕ) :
    Acting (Library.takeItems t i found count) := by
  induction count generalizing i found with
  | zero => exact .pure _
  | succ count ih =>
    unfold Library.takeItems
    grind

@[grind ←] theorem tableUnpack (args : Args) : Acting (Library.tableUnpack args) := by
  unfold Library.tableUnpack
  grind

@[grind ←] theorem tablePack (args : Args) : Acting (Library.tablePack args) := by
  unfold Library.tablePack
  grind

@[grind ←] theorem copyItems (source target : Value) (f t step : Int64) (count : ℕ) :
    Acting (Library.copyItems source target f t step count) := by
  induction count generalizing f t with
  | zero => exact .pure ()
  | succ count ih =>
    unfold Library.copyItems
    grind

@[grind ←] theorem tableMove (args : Args) : Acting (Library.tableMove args) := by
  unfold Library.tableMove
  grind

@[grind ←] theorem comesBefore (order : Option Value) (a b : Value) : Acting (Library.comesBefore order a b) := by
  unfold Library.comesBefore
  grind

@[grind ←] theorem putBoth (t : Value) (i j : Int64) (atI atJ : Value) : Acting (Library.putBoth t i j atI atJ) := by
  unfold Library.putBoth
  grind

@[grind ←] theorem scanUp (t : Value) (order : Option Value) (pivot : Value) (up i : Int64) (fuel : ℕ) :
    Acting (Library.scanUp t order pivot up i fuel) := by
  induction fuel generalizing i with
  | zero => exact .fault _
  | succ fuel ih =>
    unfold Library.scanUp
    grind

@[grind ←] theorem scanDown (t : Value) (order : Option Value) (pivot : Value) (i j : Int64) (fuel : ℕ) :
    Acting (Library.scanDown t order pivot i j fuel) := by
  induction fuel generalizing j with
  | zero => exact .fault _
  | succ fuel ih =>
    unfold Library.scanDown
    grind

@[grind ←] theorem partition (t : Value) (order : Option Value) (pivot : Value) (up : Int64) (fuel : ℕ)
    (i j : Int64) : Acting (Library.partition t order pivot up fuel i j) := by
  induction fuel generalizing i j with
  | zero => exact .fault _
  | succ fuel ih =>
    unfold Library.partition
    grind

@[grind ←] theorem orderPair (t : Value) (order : Option Value) (i j : Int64) :
    Acting (Library.orderPair t order i j) := by
  unfold Library.orderPair
  grind

@[grind ←] theorem sortBetween (t : Value) (order : Option Value) (fuel : ℕ) (low up : Int64) :
    Acting (Library.sortBetween t order fuel low up) := by
  induction fuel generalizing low up with
  | zero => exact .pure ()
  | succ fuel ih =>
    unfold Library.sortBetween
    split
    · exact .pure ()
    · refine .bind (.orderPair t order low up) fun _ => ?_
      split
      · exact .pure ()
      · extract_lets middle size rest
        -- what is done when the pivot is in the middle
        have hrest : ∀ u, Acting (rest u) := by
          intro u
          dsimp only [rest]
          grind
        clear_value rest
        grind

@[grind ←] theorem tableSort (args : Args) : Acting (Library.tableSort args) := by
  unfold Library.tableSort
  grind

@[grind ←] theorem table (f : TableFn) (args : Args) : Acting (Library.table f args) := by
  unfold Library.table
  cases f <;> grind

/-! ## The mathematics library -/

@[grind ←] theorem drawWord : Acting Library.drawWord := by
  unfold Library.drawWord
  grind

@[grind ←] theorem mathRandom (args : Args) : Acting (Library.mathRandom args) := by
  unfold Library.mathRandom
  grind

@[grind ←] theorem mathSeed (args : Args) : Acting (Library.mathSeed args) := by
  unfold Library.mathSeed
  grind

@[grind ←] theorem onFloat (f : Float → Float) (args : Args) : Acting (Library.onFloat f args) := by
  unfold Library.onFloat
  grind

@[grind ←] theorem bestOf (better : Value → Value → Bool) (args : Args) (i : ℕ) (best : Value) (left : ℕ) :
    Acting (Library.bestOf better args i best left) := by
  induction left generalizing i best with
  | zero => exact .pure best
  | succ left ih =>
    unfold Library.bestOf
    grind

@[grind ←] theorem mathFmod (args : Args) : Acting (Library.mathFmod args) := by
  unfold Library.mathFmod
  grind

@[grind ←] theorem mathLog (args : Args) : Acting (Library.mathLog args) := by
  unfold Library.mathLog
  grind

@[grind ←] theorem mathModf (args : Args) : Acting (Library.mathModf args) := by
  unfold Library.mathModf
  grind

@[grind ←] theorem math (f : MathFn) (args : Args) : Acting (Library.math f args) := by
  unfold Library.math
  cases f <;> grind

/-! ## The library of encoded text -/

@[grind ←] theorem charsOf (args : Args) (i : ℕ) (vs : List Value) (out : ByteArray) :
    Acting (Library.charsOf args i vs out) := by
  induction vs generalizing i out with
  | nil => exact .pure out
  | cons v vs ih =>
    unfold Library.charsOf
    grind

@[grind ←] theorem pointsBetween (s : ByteArray) (strict : Bool) (stop fuel i : ℕ) (found : List Value) :
    Acting (Library.pointsBetween s strict stop fuel i found) := by
  induction fuel generalizing i found with
  | zero => exact .pure _
  | succ fuel ih =>
    unfold Library.pointsBetween
    grind

@[grind ←] theorem utf8Codepoint (args : Args) : Acting (Library.utf8Codepoint args) := by
  unfold Library.utf8Codepoint
  grind

@[grind ←] theorem countPoints (s : ByteArray) (strict : Bool) (last : Int) (fuel i n : ℕ) :
    Acting (Library.countPoints s strict last fuel i n) := by
  induction fuel generalizing i n with
  | zero => exact .result _
  | succ fuel ih =>
    unfold Library.countPoints
    grind

@[grind ←] theorem utf8Len (args : Args) : Acting (Library.utf8Len args) := by
  unfold Library.utf8Len
  grind

@[grind ←] theorem utf8Offset (args : Args) : Acting (Library.utf8Offset args) := by
  unfold Library.utf8Offset
  grind

@[grind ←] theorem codesStep (args : Args) : Acting (Library.codesStep args) := by
  unfold Library.codesStep
  grind

@[grind ←] theorem utf8 (f : Utf8Fn) (args : Args) : Acting (Library.utf8 f args) := by
  unfold Library.utf8
  cases f <;> grind

/-! ## The clock library -/

@[grind ←] theorem dateNumber (t : Value) (name : String) (default : Option Int) (origin : Int) :
    Acting (Library.dateNumber t name default origin) := by
  unfold Library.dateNumber
  grind

@[grind ←] theorem timeOfTable (r : Ref) : Acting (Library.timeOfTable r) := by
  unfold Library.timeOfTable
  grind

@[grind ←] theorem nowSeconds : Acting Library.nowSeconds :=
  .inWorld (.bind .read fun _ => .pure _)

@[grind ←] theorem clockTime (args : Args) : Acting (Library.clockTime args) := by
  unfold Library.clockTime
  grind

@[grind ←] theorem clockDate (args : Args) : Acting (Library.clockDate args) := by
  unfold Library.clockDate
  grind

@[grind ←] theorem clock (f : ClockFn) (args : Args) : Acting (Library.clock f args) := by
  unfold Library.clock
  cases f <;> grind

end ScriptHost.Guest.Acting
