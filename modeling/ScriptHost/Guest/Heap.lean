import ScriptHost.GuestError
import ScriptHost.Guest.Code
import ScriptHost.Guest.Table

/-!
# The heap

The objects that guest values refer to, and the frames of running functions.

* `Heap.allocTable`, `Heap.table`, `Heap.modifyTable`: tables by their place.
* `Heap.metamethod`: what a value's metatable says.
* `Heap.index`, `Heap.assign`: reading and writing a field, as far as tables and their metatables decide
  it; where a function decides, they say which.
-/

namespace ScriptHost.Guest

/-! ## Frames -/

/-- A running function of guest code. -/
structure Activation where
  code : Code
  pc : Nat := 0
  upvalues : Array Ref
  locals : Array Value
  /-- The cells of captured locals; empty if there are none. -/
  boxes : Array Ref := #[]
  varargs : List Value := []
  stack : List Value := []
  /-- The list of values beside the stack. -/
  beside : List Value := []
  /-- How many results of the call in progress go onto the stack; all go beside it if absent. -/
  want : Option Nat := none
  /-- The number of functions of guest code around this one. -/
  depth : Nat := 0
deriving Inhabited

/-- What happens to the results of a call before the frame below gets them. -/
inductive Adapt where
  /-- An instruction's metamethod: nothing. -/
  | event
  /-- An instruction's comparison: whether the first result counts as true, or as false if negated. -/
  | truth (negated : Bool)
  /-- A number of results. -/
  | exactly (count : Nat)
  /-- The first result, which must be a string. -/
  | string
deriving Repr, DecidableEq

/-- A frame of a coroutine's stack. -/
inductive Frame where
  | guest (a : Activation)
  /-- A protected call, with the handler of its errors. -/
  | protect (handler : Option Value)
  /-- The handler of a protected call's error runs above. -/
  | handling (handler : Value) (depth : Nat)
  | adapt (how : Adapt)
  /-- The bottom of a coroutine that was resumed, and the coroutine that resumed it; a wrapped one
  passes its errors on. -/
  | resumed (thread : Ref) (wrapped : Bool) (resumer : Option Ref)
deriving Inhabited

/-! ## Objects -/

/-- A closure: the code and the cells of its upvalues. -/
structure Closure where
  code : Code
  upvalues : Array Ref
deriving Inhabited

/-- What a coroutine is doing. -/
inductive ThreadState where
  /-- It has not begun to run its function. -/
  | fresh (f : Value)
  /-- It waits in a yield, with its frames. -/
  | suspended (frames : List Frame)
  | running
  /-- It has resumed another coroutine. -/
  | normal
  /-- It has ended, perhaps by an error that nobody has seen since. -/
  | dead (error : Option Value)
deriving Inhabited

/-- The state of the generator of random numbers: four words. -/
structure RandomState where
  a : UInt64 := 0x9E3779B97F4A7C15
  b : UInt64 := 0xBF58476D1CE4E5B9
  c : UInt64 := 0x94D049BB133111EB
  d : UInt64 := 0x2545F4914F6CDD1D
deriving Inhabited

/-- Guest objects by kind, the metatable of strings, the tables of the interpreter's globals and of the
frozen environment, the coroutine that runs if it is not the main one, which has the first place among
the coroutines, how deeply native functions that call guest functions are nested, and the state of the
generator of random numbers. -/
structure Heap where
  tables : Array Table := #[]
  cells : Array Value := #[]
  closures : Array Closure := #[]
  threads : Array ThreadState := #[.running]
  failures : Array GuestError := #[]
  stringMeta : Option Ref := none
  globals : Ref := 0
  shared : Ref := 0
  current : Option Ref := none
  nesting : Nat := 0
  random : RandomState := {}
deriving Inhabited

namespace Heap

/-! ## Allocation and access -/

/-- A new table. -/
def allocTable (h : Heap) (t : Table) : Ref × Heap :=
  (h.tables.size, { h with tables := h.tables.push t })

/-- A new cell. -/
def allocCell (h : Heap) (v : Value) : Ref × Heap :=
  (h.cells.size, { h with cells := h.cells.push v })

/-- A new closure. -/
def allocClosure (h : Heap) (c : Closure) : Ref × Heap :=
  (h.closures.size, { h with closures := h.closures.push c })

/-- A new coroutine. -/
def allocThread (h : Heap) (t : ThreadState) : Ref × Heap :=
  (h.threads.size, { h with threads := h.threads.push t })

/-- A new error object. -/
def allocFailure (h : Heap) (e : GuestError) : Ref × Heap :=
  (h.failures.size, { h with failures := h.failures.push e })

/-- The table at a place. -/
def table (h : Heap) (r : Ref) : Table := (h.tables[r]?).getD {}

/-- Change the table at a place. -/
def modifyTable (h : Heap) (r : Ref) (f : Table → Table) : Heap :=
  { h with tables := h.tables.modify r f }

/-- The value in a cell. -/
def cell (h : Heap) (r : Ref) : Value := (h.cells[r]?).getD .nil

/-- Put a value into a cell. -/
def setCell (h : Heap) (r : Ref) (v : Value) : Heap := { h with cells := h.cells.set! r v }

/-- The state of a coroutine. -/
def thread (h : Heap) (r : Ref) : ThreadState := (h.threads[r]?).getD (.dead none)

/-- Change the state of a coroutine. -/
def setThread (h : Heap) (r : Ref) (t : ThreadState) : Heap :=
  { h with threads := h.threads.set! r t }

/-- The error behind an error object. -/
def failure (h : Heap) (r : Ref) : GuestError := (h.failures[r]?).getD .wrongUserData

/-! ## Raw access -/

/-- The field of a table without metamethods. -/
def rawGet (h : Heap) (r : Ref) (k : Value) : Value :=
  match k.toKey? with
  | some key => (h.table r).get key
  | none => .nil

/-- Set the field of a table without metamethods. -/
def rawSet (h : Heap) (r : Ref) (k : Key) (v : Value) : Heap := h.modifyTable r fun t => t.set k v

/-- Set the field of a table that a text names. -/
def rawSetText (h : Heap) (r : Ref) (name : String) (v : Value) : Heap :=
  h.modifyTable r fun t => t.setText name v

/-! ## Metatables -/

/-- The metatable of a value. The host's objects have none that guest code could see. -/
def metatable? (h : Heap) : Value → Option Ref
  | .table r => (h.table r).metatable
  | .str _ => h.stringMeta
  | _ => none

/-- The metamethod of a value for an event; nil if there is none. -/
def metamethod (h : Heap) (v : Value) (event : String) : Value :=
  match h.metatable? v with
  | some m => (h.table m).getText event
  | none => .nil

/-- The type of a value as messages name it: tables and objects can have a name of their own. -/
def typeTitle (h : Heap) (v : Value) : String :=
  match v with
  | .table _ =>
    match h.metamethod v "__name" with
    | .str b => Text.decodeLossy b
    | _ => "table"
  | .object o => o.typeName?.getD "userdata"
  | v => v.typeName

/-! ## Fields -/

/-- What reading a field comes to. -/
inductive Reading where
  | value (v : Value)
  /-- A function decides, called with the object and the key. -/
  | call (f object : Value)
  /-- A field of a host object. -/
  | field (o : HostObject)
  /-- The value has no fields. -/
  | fault (v : Value)
  | endless

/-- The number of metatables through which a field is looked up. -/
def maxChain : Nat := 2000

/-- Look a field up through at most `fuel` metatables. -/
def indexLoop (h : Heap) (k : Value) : Nat → Value → Reading
  | 0, _ => .endless
  | fuel + 1, v =>
    match v with
    | .table r =>
      let found := h.rawGet r k
      if !found.isNil then .value found
      else
        match h.metamethod v "__index" with
        | .nil => .value .nil
        | .closure c => .call (.closure c) v
        | .native f => .call (.native f) v
        | next => h.indexLoop k fuel next
    | .object o =>
      match o with
      | .failure _ => .fault v
      | _ => .field o
    | _ =>
      match h.metamethod v "__index" with
      | .nil => .fault v
      | .closure c => .call (.closure c) v
      | .native f => .call (.native f) v
      | next => h.indexLoop k fuel next

/-- Read a field. -/
def index (h : Heap) (v k : Value) : Reading := h.indexLoop k maxChain v

/-- What writing a field comes to. -/
inductive Writing where
  /-- A field of a table is set. -/
  | set (r : Ref) (k : Key)
  /-- A function decides, called with the object, the key and the value. -/
  | call (f object : Value)
  | fault (v : Value)
  /-- The value cannot be a key: it is nil, or not a number. -/
  | badKey (name : String)
  | endless

/-- Where a field of a table is written, whatever its metatable says. -/
def assignRaw (r : Ref) (k : Value) : Writing :=
  match k.toKey? with
  | some key => .set r key
  | none => .badKey (if k.isNil then "nil" else "NaN")

/-- Where a field is written, through at most `fuel` metatables. -/
def assignLoop (h : Heap) (k : Value) : Nat → Value → Writing
  | 0, _ => .endless
  | fuel + 1, object =>
    match object with
    | .table r =>
      match h.metamethod object "__newindex" with
      | .nil => assignRaw r k
      | f =>
        if !(h.rawGet r k).isNil then assignRaw r k
        else if f.isFunction then .call f object
        else h.assignLoop k fuel f
    | _ =>
      match h.metamethod object "__newindex" with
      | .nil => .fault object
      | f => if f.isFunction then .call f object else h.assignLoop k fuel f

/-- Where a field is written. -/
def assign (h : Heap) (object k : Value) : Writing := h.assignLoop k maxChain object

end Heap

end ScriptHost.Guest
