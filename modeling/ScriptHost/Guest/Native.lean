import ScriptHost.Guest.Heap
import ScriptHost.Host

/-!
# Native functions

How native functions are written: they take a list of arguments, may read and change the world, may call
guest functions, and come to an outcome.

* `Outcome`: what a native function comes to. Errors are told by their cause; where an error took place and
  what the call named the function is added by whoever called it.
* `Args`: the arguments, with the checks that the guest language's own functions make.
* `getField`, `setField`, `lengthOf`: table access with metamethods.
-/

namespace ScriptHost.Guest

/-- The world that guest code runs in: a host whose guest is the heap. -/
abbrev World := Host Heap Value

/-- Operations on the world. -/
abbrev WorldM := HostM Heap Value

/-- What a run of guest code comes to. -/
inductive RunResult where
  | finished (values : List Value)
  | failed (error : Value)
  /-- The number of steps that were allowed is used up. -/
  | exhausted

/-- What a native function comes to. -/
inductive Outcome where
  | values (vs : List Value)
  | raise (error : Value)
  /-- An error with a message, which is the caller's. -/
  | fault (message : String)
  /-- An argument that is refused. -/
  | badArgument (position : Nat) (message : String)
  /-- An error that the host raises. -/
  | hostFault (error : GuestError)
  /-- The results are those of a call, after they have gone through frames. -/
  | call (f : Value) (arguments : List Value) (frames : List Frame)
  | resume (thread : Ref) (arguments : List Value) (wrapped : Bool)
  | yield (vs : List Value)
  | exhausted

/-- What a native function is told about its call: how to call guest functions, the frames of its
callers, and what the call named it. -/
structure CallContext where
  call : Value → List Value → World → RunResult × World
  frames : List Frame
  what : Option Described

/-- Native code. -/
abbrev NativeM := ReaderT CallContext (ExceptT Outcome WorldM)

/-! ## The world -/

/-- The heap. -/
def getHeap : NativeM Heap := fun _ => fun w => (.ok w.guest, w)

/-- Change the heap. -/
def modifyHeap (f : Heap → Heap) : NativeM Unit :=
  fun _ => fun w => (.ok (), { w with guest := f w.guest })

/-- Make a heap object. -/
def allocate {α : Type} (f : Heap → α × Heap) : NativeM α :=
  fun _ => fun w => let (a, guest) := f w.guest; (.ok a, { w with guest })

/-- Do something in the world. -/
def inWorld {α : Type} (act : WorldM α) : NativeM α :=
  fun _ => fun w => let (a, w) := act w; (.ok a, w)

/-- Fail. -/
def failWith {α : Type} (o : Outcome) : NativeM α := throw o

/-- Fail with a message. -/
def fault {α : Type} (message : String) : NativeM α := failWith (.fault message)

/-- Fail with a message that names no place. -/
def bareFault {α : Type} (message : String) : NativeM α := failWith (.raise (.ofText message))

/-- Results. -/
def results (vs : List Value) : NativeM Outcome := pure (.values vs)

/-- One result. -/
def result (v : Value) : NativeM Outcome := pure (.values [v])

/-- Call a guest function and wait for its results. -/
def callGuest (f : Value) (args : List Value) : NativeM (List Value) :=
  fun context => fun w =>
    match context.call f args w with
    | (.finished vs, w) => (.ok vs, w)
    | (.failed e, w) => (.error (.raise e), w)
    | (.exhausted, w) => (.error .exhausted, w)

/-! ## Arguments -/

/-- The arguments of a call. -/
abbrev Args := List Value

/-- The argument at a position, which counts from 1; nil if it is missing. -/
def Args.get (args : Args) (i : Nat) : Value := (args[i - 1]?).getD .nil

/-- Whether there is an argument at a position. -/
def Args.has (args : Args) (i : Nat) : Bool := decide (i ≤ args.length)

/-- An argument that is refused. -/
def badArgument {α : Type} (i : Nat) (message : String) : NativeM α :=
  failWith (.badArgument i message)

/-- The type of an argument in messages. -/
def argumentTitle (args : Args) (i : Nat) : NativeM String := do
  if args.has i then
    match args.get i with
    | .light => pure "light userdata"
    | v => do pure ((← getHeap).typeTitle v)
  else pure "no value"

/-- An argument of another type than expected. -/
def wrongType {α : Type} (args : Args) (i : Nat) (expected : String) : NativeM α := do
  badArgument i s!"{expected} expected, got {← argumentTitle args i}"

/-- Whether an argument is missing or nil. -/
def Args.isNone (args : Args) (i : Nat) : Bool := (args.get i).isNil

/-- An argument that must be there. -/
def checkAny (args : Args) (i : Nat) : NativeM Value :=
  if args.has i then pure (args.get i) else badArgument i "value expected"

/-- A table. -/
def checkTable (args : Args) (i : Nat) : NativeM Ref := do
  match args.get i with
  | .table r => pure r
  | _ => wrongType args i "table"

/-- An integer. -/
def checkInt (args : Args) (i : Nat) : NativeM Int64 := do
  match (args.get i).toNumber? with
  | none => wrongType args i "number"
  | some v =>
    match v.asInteger? with
    | some n => pure n
    | none => badArgument i "number has no integer representation"

/-- An integer, or a given one if the argument is missing. -/
def optInt (args : Args) (i : Nat) (default : Int64) : NativeM Int64 :=
  if args.isNone i then pure default else checkInt args i

/-- A number. -/
def checkNumber (args : Args) (i : Nat) : NativeM Value := do
  match (args.get i).toNumber? with
  | none => wrongType args i "number"
  | some v => pure v

/-- A floating-point number. -/
def checkFloat (args : Args) (i : Nat) : NativeM Float := do
  pure ((← checkNumber args i).asFloat?.getD 0.0)

/-- A string; numbers are written. -/
def checkBytes (args : Args) (i : Nat) : NativeM ByteArray := do
  match (args.get i).toBytes? with
  | some b => pure b
  | none => wrongType args i "string"

/-- A string, or a given one if the argument is missing. -/
def optBytes (args : Args) (i : Nat) (default : ByteArray) : NativeM ByteArray :=
  if args.isNone i then pure default else checkBytes args i

/-- A function. -/
def checkFunction (args : Args) (i : Nat) : NativeM Value := do
  if (args.get i).isFunction then pure (args.get i) else wrongType args i "function"

/-! ## Access with metamethods -/

/-- A field of a host object. -/
def objectField (w : World) (o : HostObject) (k : Value) : Value :=
  match k with
  | .str b =>
    match o, Text.decodeLossy b with
    | .control n, "name" => .ofText? ((w.control? n).map Control.name)
    | .control n, "folder" => .ofText? ((w.control? n).bind Control.folder)
    | .control _, "on_load" => .native (.control .onLoad)
    | .control _, "on_unload" => .native (.control .onUnload)
    | .control _, "register_command" => .native (.control .registerCommand)
    | .control _, "share" => .native (.control .share)
    | .control _, "unshare" => .native (.control .unshare)
    | .logger .., "debug" => .native (.logger .debug)
    | .logger .., "info" => .native (.logger .info)
    | .logger .., "warn" => .native (.logger .warn)
    | .logger .., "error" => .native (.logger .error)
    | .scheduler .., "run" => .native (.scheduler .run)
    | .scheduler .., "run_async" => .native (.scheduler .runAsync)
    | .scheduler .., "run_later" => .native (.scheduler .runLater)
    | .scheduler .., "run_later_async" => .native (.scheduler .runLaterAsync)
    | .scheduler .., "run_repeating" => .native (.scheduler .runRepeating)
    | .scheduler .., "run_repeating_async" => .native (.scheduler .runRepeatingAsync)
    | .scheduler .., "cancel" => .native (.scheduler .cancel)
    | .scheduler .., "pending" => .native (.scheduler .pending)
    | .task id _, "id" => .int (Int64.ofNat id)
    | .task .., "cancel" => .native .taskCancel
    | _, _ => .nil
  | _ => .nil

/-- The message of an access to a value that does not have it. -/
def accessMessage (h : Heap) (access : String) (v : Value) : String :=
  s!"attempt to {access} a {h.typeTitle v} value"

/-- The message of a comparison of values that have no order. -/
def orderMessage (h : Heap) (a b : Value) : String :=
  let s := h.typeTitle a
  let t := h.typeTitle b
  if s == t then s!"attempt to compare two {s} values" else s!"attempt to compare {s} with {t}"

/-- The message of metatables that lead in a circle. -/
def chainMessage (event : String) : String := s!"'{event}' chain too long; possibly a loop"

/-- Read a field. -/
def getField (v k : Value) : NativeM Value := do
  match (← getHeap).index v k with
  | .value found => pure found
  | .call f object => do pure ((← callGuest f [object, k]).headD .nil)
  | .field o => fun _ => fun w => (.ok (objectField w o k), w)
  | .fault v => bareFault (accessMessage (← getHeap) "index" v)
  | .endless => bareFault (chainMessage "__index")

/-- Write a field. -/
def setField (v k x : Value) : NativeM Unit := do
  match (← getHeap).assign v k with
  | .set r key => modifyHeap fun h => h.rawSet r key x
  | .call f object => do let _ ← callGuest f [object, k, x]
  | .fault v => bareFault (accessMessage (← getHeap) "index" v)
  | .badKey name => bareFault s!"table index is {name}"
  | .endless => bareFault (chainMessage "__newindex")

/-- The length of a value, as an integer. -/
def lengthOf (v : Value) : NativeM Int64 := do
  let h ← getHeap
  match v with
  | .str b => pure (Int64.ofNat b.size)
  | _ =>
    match h.metamethod v "__len", v with
    | .nil, .table r => pure (Int64.ofNat (h.table r).border)
    | .nil, _ => bareFault (accessMessage h "get length of" v)
    | f, _ =>
      match ((← callGuest f [v]).headD .nil).toInteger? with
      | some n => pure n
      | none => fault "object length is not an integer"

/-! ## Positions -/

/-- The place in the source that a frame has reached: the chunk and the line. -/
def Activation.place (a : Activation) : String := s!"{a.code.chunk}:{a.code.line (a.pc - 1)}: "

/-- The place in the source at a level of callers, the direct caller being level 1. Native callers have
none. -/
def placeAt : Nat → List Frame → String
  | _, [] => ""
  | 0, _ => ""
  | 1, .guest a :: _ => a.place
  | level + 1, .guest _ :: frames => placeAt level frames
  | level, .adapt .event :: frames => placeAt level frames
  | level, .adapt (.truth _) :: frames => placeAt level frames
  | 1, _ :: _ => ""
  | level + 1, _ :: frames => placeAt level frames

end ScriptHost.Guest
