import ScriptHost.Guest.Library

/-!
# The machine

Guest code runs in small steps. A state has a focus (an activation that runs, a call to be made, values that
are given back, or an error on its way out) and the frames that wait for it.

* `execute`: an instruction.
* `Activation.receive`, `give`, `raise`: how frames take values and errors.
* `step`, `runSteps`: a step, and steps until there is a result.
* `callFunction`: a call from outside.
-/

namespace ScriptHost.Guest

/-! ## States -/

/-- What a state is about to do. -/
inductive Focus where
  | run (a : Activation)
  | call (f : Value) (args : List Value) (what : Option Described)
  | give (vs : List Value)
  | raise (e : Value)
  /-- Nothing more: a call that a native function waited for took all its steps. -/
  | halt

/-- The frames that wait, and the number of those that are not guest functions. -/
structure CallStack where
  frames : List Frame := []
  level : Nat := 0

/-- A focus and the frames below it. -/
structure State where
  focus : Focus
  waiting : CallStack

/-- Whether a frame is one of a native function. -/
def Frame.isNative : Frame → Bool
  | .guest _ => false
  | _ => true

/-- The number of frames of native functions. -/
def nativeFrames (frames : List Frame) : Nat := (frames.filter Frame.isNative).length

/-- How deeply native functions can be nested. -/
def maxLevel : Nat := 200

/-- How deeply functions of guest code can be nested. -/
def maxDepth : Nat := 190000

/-- More frames on top. -/
def CallStack.add (s : CallStack) (frames : List Frame) : CallStack :=
  ⟨frames ++ s.frames, s.level + nativeFrames frames⟩

/-- Frames without the topmost one, which was a native function's. -/
def CallStack.leave (s : CallStack) (frames : List Frame) : CallStack := ⟨frames, s.level - 1⟩

/-- The depth of the topmost guest function. -/
def depthOf : List Frame → Nat
  | [] => 0
  | .guest a :: _ => a.depth
  | _ :: rest => depthOf rest

/-! ## Activations -/

/-- The first `n` values, with nils for those that are missing. -/
def takeValues : Nat → List Value → List Value
  | 0, _ => []
  | n + 1, [] => .nil :: takeValues n []
  | n + 1, v :: vs => v :: takeValues n vs

/-- Values pushed one after the other. -/
def pushAll (vs stack : List Value) : List Value := vs.foldl (fun stack v => v :: stack) stack

/-- Values put into locals from `i` on. -/
def setFrom (locals : Array Value) (i : Nat) : List Value → Array Value
  | [] => locals
  | v :: vs => setFrom (locals.set! i v) (i + 1) vs

/-- A closure about to run with arguments. -/
def Closure.activate (c : Closure) (args : List Value) (depth : Nat) : Activation :=
  { code := c.code
    upvalues := c.upvalues
    locals := setFrom (Array.replicate c.code.locals .nil) 0 (args.take c.code.params)
    varargs := if c.code.isVararg then args.drop c.code.params else []
    depth }

/-- An activation that gets the results of its call. -/
def Activation.receive (a : Activation) (vs : List Value) : Activation :=
  match a.want with
  | some 1 => { a with stack := vs.headD .nil :: a.stack }
  | some n => { a with stack := pushAll (takeValues n vs) a.stack }
  | none => { a with beside := vs }

/-- An activation with another stack, waiting for a number of results. -/
def Activation.await (a : Activation) (stack : List Value) (want : Option Nat) : Frame :=
  .guest { a with stack, want }

/-! ## Faults -/

/-- What a message says about a value, if something is known. -/
def aboutValue (what : Option Described) : String :=
  match what with
  | some d => s!" ({d.kind} '{d.name}')"
  | none => ""

/-- An error of the instruction that an activation runs. -/
def Activation.fault (a : Activation) (message : String) : Focus :=
  .raise (.ofText (a.place ++ message))

/-- The message of an arithmetic operation on what has none. -/
def arithMessage (h : Heap) (op : Arith) (x y : Value) (left right : Option Described) : String :=
  let isNumber := fun (v : Value) => v.asFloat?.isSome
  if op.isBitwise && isNumber x && isNumber y then
    let what := if x.asInteger?.isNone then left else right
    s!"number{aboutValue what} has no integer representation"
  else
    let access := if op.isBitwise then "perform bitwise operation on" else "perform arithmetic on"
    if isNumber x then accessMessage h access y ++ aboutValue right
    else accessMessage h access x ++ aboutValue left

/-- The metamethod of the first of two operands that has one. -/
def binaryEvent (h : Heap) (x y : Value) (event : String) : Value :=
  match h.metamethod x event with
  | .nil => h.metamethod y event
  | f => f

/-- What an event is called in messages. -/
def eventWhat (event : String) : Option Described :=
  some ⟨"metamethod", (event.drop 2).toString⟩

/-! ## Loops -/

/-- The bounds of a loop over integers: the number of further turns and the first value, if there is one. -/
def integerTurns (first limit step : Int64) : Option UInt64 :=
  if step > 0 then
    if first > limit then none else some ((limit.toUInt64 - first.toUInt64) / step.toUInt64)
  else if first < limit then none
  else some ((first.toUInt64 - limit.toUInt64) / ((-(step + 1)).toUInt64 + 1))

/-- The limit of a loop over integers as an integer: rounded into the loop; nothing if the loop has no
turn. -/
def integerLimit (limit : Value) (step : Int64) : Option Int64 :=
  match limit with
  | .int i => some i
  | v =>
    let x := v.asFloat?.getD 0.0
    let rounded := if step < 0 then x.ceil else x.floor
    match wholeInt? rounded with
    | some i => some i
    | none =>
      if 0.0 < x then (if step < 0 then none else some Int64.maxValue)
      else if step > 0 then none
      else some Int64.minValue

/-- What a loop's bound must be. -/
def loopMessage (h : Heap) (name : String) (v : Value) : String :=
  s!"bad 'for' {name} (number expected, got {h.typeTitle v})"

/-- How a loop begins: with three hidden values and a first one, or not at all. -/
def prepareLoop (h : Heap) (first limit step : Value) :
    Except String (Option (Value × Value × Value × Value)) :=
  match first, step with
  | .int i, .int s =>
    if s == 0 then .error "'for' step is zero"
    else
      match limit.toNumber? with
      | none => .error (loopMessage h "limit" limit)
      | some l =>
        match (integerLimit l s).bind fun l => integerTurns i l s with
        | none => .ok none
        | some turns => .ok (some (.int turns.toInt64, step, first, first))
  | _, _ =>
    match limit.toNumber?, step.toNumber?, first.toNumber? with
    | none, _, _ => .error (loopMessage h "limit" limit)
    | _, none, _ => .error (loopMessage h "step" step)
    | _, _, none => .error (loopMessage h "initial value" first)
    | some l, some s, some i =>
      let l := l.asFloat?.getD 0.0
      let s := s.asFloat?.getD 0.0
      let i := i.asFloat?.getD 0.0
      if s == 0.0 then .error "'for' step is zero"
      else if (if 0.0 < s then l < i else i < l) then .ok none
      else .ok (some (.float l, .float s, .float i, .float i))

/-- The next turn of a loop: the hidden values and the value of the turn. -/
def nextTurn (limit step current : Value) : Option (Value × Value) :=
  match limit, step, current with
  | .int turns, .int s, .int i =>
    if turns.toUInt64 == 0 then none
    else some (.int (turns.toUInt64 - 1).toInt64, .int (i + s))
  | .float l, .float s, .float i =>
    let i := i + s
    if (if 0.0 < s then i ≤ l else l ≤ i) then some (limit, .float i) else none
  | _, _, _ => none

/-! ## Instructions -/

/-- Set the items of a table from an index on. -/
def setItems (h : Heap) (r : Ref) (i : Nat) : List Value → Heap
  | [] => h
  | v :: vs => setItems (h.rawSet r (.int (Int64.ofNat i)) v) r (i + 1) vs

/-- The cells that a closure captures. -/
def captureCells (a : Activation) (captures : List Capture) : Array Ref :=
  (captures.map fun
    | .inFrame id => a.boxes.getD id 0
    | .upvalue i => a.upvalues.getD i 0).toArray

/-- Two strings or numbers as one string. -/
def concatBytes? (x y : Value) : Option ByteArray :=
  match x, y with
  | .str a, .str b => some (a ++ b)
  | _, _ => do
    let a ← x.toBytes?
    let b ← y.toBytes?
    pure (a ++ b)

/-- What a comparison comes to. -/
inductive Compared where
  | known (b : Bool)
  /-- A metamethod decides. -/
  | call (f x y : Value) (event : String) (negated : Bool)
  | fault (message : String)

/-- The order of two values, by a rule for numbers and one for strings, or by a metamethod. -/
def compareOrder (h : Heap) (x y : Value) (isStrict : Bool) : Compared :=
  match if isStrict then numberLt? x y else numberLe? x y with
  | some b => .known b
  | none =>
    match x, y with
    | .str a, .str b =>
      if isStrict then .known (bytesLt a.data.toList b.data.toList)
      else .known (!bytesLt b.data.toList a.data.toList)
    | _, _ =>
      let event := if isStrict then "__lt" else "__le"
      match binaryEvent h x y event with
      | .nil =>
        match isStrict, binaryEvent h y x "__lt" with
        | false, .nil => .fault (orderMessage h x y)
        | false, f => .call f y x "__lt" true
        | true, _ => .fault (orderMessage h x y)
      | f => .call f x y event false

/-- Whether two values are equal; tables can have a metamethod for it. -/
def compareEqual (h : Heap) (x y : Value) (negated : Bool) : Compared :=
  if x.rawEquals y then .known (!negated)
  else
    match x, y with
    | .table _, .table _ =>
      match binaryEvent h x y "__eq" with
      | .nil => .known negated
      | f => .call f x y "__eq" negated
    | _, _ => .known negated

/-- A comparison. -/
def compareValues (h : Heap) (op : Comparison) (x y : Value) : Compared :=
  match op with
  | .eq => compareEqual h x y false
  | .ne => compareEqual h x y true
  | .lt => compareOrder h x y true
  | .le => compareOrder h x y false
  | .gt => compareOrder h y x true
  | .ge => compareOrder h y x false

/-- Call a metamethod for an instruction. -/
def callEvent (a : Activation) (s : CallStack) (stack : List Value) (want : Nat) (f : Value)
    (args : List Value) (event : String) : State :=
  ⟨.call f args (eventWhat event), s.add [.adapt .event, a.await stack (some want)]⟩

/-- A fault of an access to a field; `v` is the object itself, or what its metatable led to. -/
def indexFault (h : Heap) (a : Activation) (event : String) (object v : Value)
    (what : Option Described) : Focus :=
  let about := if (h.metamethod object event).isNil then aboutValue what else ""
  a.fault (accessMessage h "index" v ++ about)

/-- Run an instruction; the activation is already past it. -/
def execute (a : Activation) (s : CallStack) (i : Instr) (w : World) : State × World :=
  let next := fun (a : Activation) => (⟨.run a, s⟩ : State)
  let stop := fun (focus : Focus) => (⟨focus, s⟩ : State)
  match i, a.stack with
  | .push v, stack => (next { a with stack := v :: stack }, w)
  | .drop count, stack => (next { a with stack := stack.drop count }, w)
  | .dup, v :: stack => (next { a with stack := v :: v :: stack }, w)
  | .swap, x :: y :: stack => (next { a with stack := y :: x :: stack }, w)
  | .getLocal id, stack => (next { a with stack := a.locals.getD id .nil :: stack }, w)
  | .setLocal id, v :: stack => (next { a with locals := a.locals.set! id v, stack }, w)
  | .box id, v :: stack =>
    let (cell, guest) := w.guest.allocCell v
    let boxes := if id < a.boxes.size then a.boxes
      else a.boxes ++ Array.replicate (id + 1 - a.boxes.size) 0
    (next { a with boxes := boxes.set! id cell, stack }, { w with guest })
  | .getBox id, stack =>
    (next { a with stack := w.guest.cell (a.boxes.getD id 0) :: stack }, w)
  | .setBox id, v :: stack =>
    (next { a with stack }, { w with guest := w.guest.setCell (a.boxes.getD id 0) v })
  | .getUpvalue i, stack =>
    (next { a with stack := w.guest.cell (a.upvalues.getD i 0) :: stack }, w)
  | .setUpvalue i, v :: stack =>
    (next { a with stack }, { w with guest := w.guest.setCell (a.upvalues.getD i 0) v })
  | .index what, k :: object :: stack =>
    match w.guest.index object k with
    | .value v => (next { a with stack := v :: stack }, w)
    | .call f o => (callEvent a s stack 1 f [o, k] "__index", w)
    | .field o => (next { a with stack := objectField w o k :: stack }, w)
    | .fault v => (stop (indexFault w.guest a "__index" object v what), w)
    | .endless => (stop (a.fault (chainMessage "__index")), w)
  | .store depth what, v :: stack =>
    let k := stack.getD depth .nil
    let object := stack.getD (depth + 1) .nil
    match w.guest.assign object k with
    | .set r key => (next { a with stack }, { w with guest := w.guest.rawSet r key v })
    | .call f o => (callEvent a s stack 0 f [o, k, v] "__newindex", w)
    | .fault x => (stop (indexFault w.guest a "__newindex" object x what), w)
    | .badKey name => (stop (a.fault s!"table index is {name}"), w)
    | .endless => (stop (a.fault (chainMessage "__newindex")), w)
  | .newTable hint, stack =>
    let (r, guest) := w.guest.allocTable { hint }
    (next { a with stack := .table r :: stack }, { w with guest })
  | .setField depth, v :: k :: stack =>
    match stack.getD depth .nil, k.toKey? with
    | .table r, some key => (next { a with stack }, { w with guest := w.guest.rawSet r key v })
    | _, _ => (stop (a.fault (s!"table index is " ++ if k.isNil then "nil" else "NaN")), w)
  | .setItems first count isOpen, stack =>
    let items := (stack.take count).reverse ++ (if isOpen then a.beside else [])
    let stack := stack.drop count
    match stack with
    | .table r :: _ =>
      (next { a with stack, beside := [] }, { w with guest := setItems w.guest r first items })
    | _ => (next { a with stack }, w)
  | .arith op left right, y :: x :: stack =>
    match op.apply x y with
    | some (.ok v) => (next { a with stack := v :: stack }, w)
    | some (.error .zeroDivisor) => (stop (a.fault "attempt to perform 'n//0'"), w)
    | some (.error .zeroModulus) => (stop (a.fault "attempt to perform 'n%%0'"), w)
    | _ =>
      match binaryEvent w.guest x y op.event with
      | .nil => (stop (a.fault (arithMessage w.guest op x y left right)), w)
      | f => (callEvent a s stack 1 f [x, y] op.event, w)
  | .unary op what, x :: stack =>
    match op.apply x x with
    | some (.ok v) => (next { a with stack := v :: stack }, w)
    | _ =>
      match w.guest.metamethod x op.event with
      | .nil => (stop (a.fault (arithMessage w.guest op x x what what)), w)
      | f => (callEvent a s stack 1 f [x, x] op.event, w)
  | .concat left right, y :: x :: stack =>
    match concatBytes? x y with
    | some b => (next { a with stack := .str b :: stack }, w)
    | none =>
      match binaryEvent w.guest x y "__concat" with
      | .nil =>
        let message := if x.toBytes?.isSome
          then accessMessage w.guest "concatenate" y ++ aboutValue right
          else accessMessage w.guest "concatenate" x ++ aboutValue left
        (stop (a.fault message), w)
      | f => (callEvent a s stack 1 f [x, y] "__concat", w)
  | .compare op, y :: x :: stack =>
    match compareValues w.guest op x y with
    | .known b => (next { a with stack := .bool b :: stack }, w)
    | .fault message => (stop (a.fault message), w)
    | .call f x y event negated =>
      (⟨.call f [x, y] (eventWhat event),
        s.add [.adapt (.truth negated), a.await stack (some 1)]⟩, w)
  | .not, v :: stack => (next { a with stack := .bool (!v.truthy) :: stack }, w)
  | .len what, v :: stack =>
    match v, w.guest.metamethod v "__len" with
    | .str b, _ => (next { a with stack := .int (Int64.ofNat b.size) :: stack }, w)
    | .table r, .nil =>
      (next { a with stack := .int (Int64.ofNat (w.guest.table r).border) :: stack }, w)
    | _, .nil =>
      (stop (a.fault (accessMessage w.guest "get length of" v ++ aboutValue what)), w)
    | _, f => (callEvent a s stack 1 f [v, v] "__len", w)
  | .jump target, _ => (next { a with pc := target }, w)
  | .jumpFalse target, v :: stack =>
    (next (if v.truthy then { a with stack } else { a with stack, pc := target }), w)
  | .jumpAnd target, v :: stack =>
    (next (if v.truthy then { a with stack } else { a with pc := target }), w)
  | .jumpOr target, v :: stack =>
    (next (if v.truthy then { a with pc := target } else { a with stack }), w)
  | .closure child, stack =>
    let code := a.code.children.getD child default
    let (r, guest) := w.guest.allocClosure ⟨code, captureCells a code.captures⟩
    (next { a with stack := .closure r :: stack }, { w with guest })
  | .call count isOpen want what, stack =>
    let args := (stack.take count).reverse ++ (if isOpen then a.beside else [])
    match stack.drop count with
    | f :: stack =>
      (⟨.call f args what, s.add [.guest { a with stack, want, beside := [] }]⟩, w)
    | [] => (next a, w)
  | .tailCall count isOpen what, stack =>
    let args := (stack.take count).reverse ++ (if isOpen then a.beside else [])
    match stack.drop count with
    | .closure r :: _ => (⟨.call (.closure r) args what, s⟩, w)
    | f :: stack =>
      (⟨.call f args what, s.add [.guest { a with stack, want := none, beside := [] }]⟩, w)
    | [] => (next a, w)
  | .vararg want, stack =>
    match want with
    | some n => (next { a with stack := pushAll (takeValues n a.varargs) stack }, w)
    | none => (next { a with beside := a.varargs }, w)
  | .ret count isOpen, stack =>
    (stop (.give ((stack.take count).reverse ++ (if isOpen then a.beside else []))), w)
  | .forPrepare hidden exit, step :: limit :: first :: stack =>
    match prepareLoop w.guest first limit step with
    | .error message => (stop (a.fault message), w)
    | .ok none => (next { a with stack, pc := exit }, w)
    | .ok (some (x, y, z, v)) =>
      (next { a with stack := v :: stack, locals := setFrom a.locals hidden [x, y, z] }, w)
  | .forStep hidden body, stack =>
    match nextTurn (a.locals.getD hidden .nil) (a.locals.getD (hidden + 1) .nil)
      (a.locals.getD (hidden + 2) .nil) with
    | none => (next a, w)
    | some (limit, v) =>
      let locals := (a.locals.set! hidden limit).set! (hidden + 2) v
      (next { a with stack := v :: stack, locals, pc := body }, w)
  | .iterate hidden count, stack =>
    let args := [a.locals.getD (hidden + 1) .nil, a.locals.getD (hidden + 2) .nil]
    (⟨.call (a.locals.getD hidden .nil) args (some ⟨"for iterator", "for iterator"⟩),
      s.add [a.await stack (some count)]⟩, w)
  | .iterateTest hidden count exit, stack =>
    match stack.getD (count - 1) .nil with
    | .nil => (next { a with stack := stack.drop count, pc := exit }, w)
    | v => (next { a with locals := a.locals.set! (hidden + 2) v }, w)
  | _, _ => (next a, w)

/-! ## Values and errors on their way out -/

/-- A coroutine has ended or waits: the coroutine that resumed it runs again. -/
def Heap.handBack (h : Heap) (thread : Ref) (state : ThreadState) (resumer : Option Ref) : Heap :=
  let h := h.setThread thread state
  let h := match resumer with
    | some r => h.setThread r .running
    | none => h
  { h with current := resumer }

/-- Give values to the topmost frame. -/
def give (vs : List Value) (s : CallStack) (w : World) : State × World :=
  match s.frames with
  | [] => (⟨.give vs, s⟩, w)
  | .guest a :: frames => (⟨.run (a.receive vs), ⟨frames, s.level⟩⟩, w)
  | .protect _ :: frames => (⟨.give (.bool true :: vs), s.leave frames⟩, w)
  | .handling _ _ :: frames => (⟨.give [.bool false, vs.headD .nil], s.leave frames⟩, w)
  | .adapt how :: frames =>
    let focus := match how with
      | .event => .give vs
      | .truth negated => .give [.bool ((vs.headD .nil).truthy != negated)]
      | .exactly n => .give (takeValues n vs)
      | .string =>
        match (vs.headD .nil).toBytes? with
        | some b => .give [.str b]
        | none => .raise (.ofText (placeAt 1 frames ++ "'__tostring' must return a string"))
    (⟨focus, s.leave frames⟩, w)
  | .resumed thread wrapped resumer :: frames =>
    let guest := w.guest.handBack thread (.dead none) resumer
    (⟨.give (if wrapped then vs else .bool true :: vs), s.leave frames⟩, { w with guest })

/-- An error with a place in front, if it is a string. -/
def placedError (e : Value) (place : String) : Value :=
  match e with
  | .str b => .str (place.toUTF8 ++ b)
  | e => e

/-- How often the handler of an error is called for errors of its own. -/
def maxHandling : Nat := 20

/-- Pass an error to the topmost frame. -/
def raise (e : Value) (s : CallStack) (w : World) : State × World :=
  match s.frames with
  | [] => (⟨.raise e, s⟩, w)
  | .guest _ :: frames => (⟨.raise e, ⟨frames, s.level⟩⟩, w)
  | .protect none :: frames => (⟨.give [.bool false, e], s.leave frames⟩, w)
  | .protect (some handler) :: frames =>
    (⟨.call handler [e] none, ⟨.handling handler 0 :: frames, s.level⟩⟩, w)
  | .handling handler n :: frames =>
    if maxHandling ≤ n then
      (⟨.give [.bool false, .ofText "error in error handling"], s.leave frames⟩, w)
    else (⟨.call handler [e] none, ⟨.handling handler (n + 1) :: frames, s.level⟩⟩, w)
  | .adapt _ :: frames => (⟨.raise e, s.leave frames⟩, w)
  | .resumed thread wrapped resumer :: frames =>
    let guest := w.guest.handBack thread (.dead (if wrapped then none else some e)) resumer
    let focus := if wrapped then .raise (placedError e (placeAt 1 frames))
      else .give [.bool false, e]
    (⟨focus, s.leave frames⟩, { w with guest })

/-! ## Coroutines -/

/-- The frames of the running coroutine, the bottom frame and those of who resumed it; nothing if native
code in between waits for a result. -/
def splitFrames (above : List Frame) : List Frame → Option (List Frame × Frame × List Frame)
  | [] => none
  | .resumed thread wrapped resumer :: frames =>
    some (above.reverse, .resumed thread wrapped resumer, frames)
  | .adapt .string :: _ => none
  | .handling _ _ :: _ => none
  | frame :: frames => splitFrames (frame :: above) frames

/-- Leave the running coroutine with values for who resumed it. -/
def yieldValues (vs : List Value) (s : CallStack) (w : World) : State × World :=
  let refuse := fun (message : String) => ((⟨.raise (.ofText message), s⟩ : State), w)
  match w.guest.current with
  | none => refuse "attempt to yield from outside a coroutine"
  | some _ =>
    match splitFrames [] s.frames with
    | some (above, .resumed thread wrapped resumer, frames) =>
      let guest := w.guest.handBack thread (.suspended above) resumer
      let focus := .give (if wrapped then vs else .bool true :: vs)
      (⟨focus, ⟨frames, s.level - 1 - nativeFrames above⟩⟩, { w with guest })
    | _ => refuse "attempt to yield across a C-call boundary"

/-- Resume a coroutine with values. -/
def resumeThread (thread : Ref) (args : List Value) (wrapped : Bool) (s : CallStack)
    (w : World) : State × World :=
  let refuse := fun (message : String) =>
    let focus := if wrapped then .raise (.ofText (placeAt 1 s.frames ++ message))
      else .give [.bool false, .ofText message]
    ((⟨focus, s⟩ : State), w)
  let resumer := w.guest.current
  let enter := fun (focus : Focus) (frames : List Frame) =>
    if maxLevel ≤ s.level + w.guest.nesting then refuse "C stack overflow"
    else
      let guest := w.guest
      let guest := match resumer with
        | some r => guest.setThread r .normal
        | none => guest
      let guest := { guest.setThread thread .running with current := some thread }
      (⟨focus, s.add (frames ++ [.resumed thread wrapped resumer])⟩, { w with guest })
  match w.guest.thread thread with
  | .fresh f => enter (.call f args none) []
  | .suspended frames => enter (.give args) frames
  | .dead _ => refuse "cannot resume dead coroutine"
  | _ => refuse "cannot resume non-suspended coroutine"

/-! ## Calls -/

/-- The traceback of an error that a host function raised. -/
def tracebackHeading : String := "stack traceback:\n\t[C]: in ?"

/-- What becomes of a state whose focus was a native function's call. -/
def settle (f : Native) (what : Option Described) (o : Outcome) (s : CallStack) (w : World) :
    State × World :=
  let stop := fun (focus : Focus) => ((⟨focus, s⟩ : State), w)
  match o with
  | .values vs => stop (.give vs)
  | .raise e => stop (.raise e)
  | .fault message => stop (.raise (.ofText (placeAt 1 s.frames ++ message)))
  | .badArgument position message =>
    stop (.raise (.ofText (placeAt 1 s.frames ++ refusal f what position message)))
  | .hostFault e =>
    let (r, guest) := w.guest.allocFailure (.callback tracebackHeading e)
    (⟨.raise (.object (.failure r)), s⟩, { w with guest })
  | .call g args frames => (⟨.call g args none, s.add frames⟩, w)
  | .resume thread args wrapped => resumeThread thread args wrapped s w
  | .yield vs => yieldValues vs s w
  | .exhausted => stop .halt

/-- Call a value. -/
def callValue (nested : Value → List Value → World → RunResult × World) (f : Value)
    (args : List Value) (what : Option Described) (s : CallStack) (w : World) : State × World :=
  let refuse := fun (message : String) =>
    ((⟨.raise (.ofText (placeAt 1 s.frames ++ message)), s⟩ : State), w)
  let isDeep := match s.frames with
    | frame :: _ => frame.isNative && maxLevel ≤ s.level + w.guest.nesting
    | [] => false
  if isDeep then refuse "C stack overflow"
  else
    match f with
    | .closure r =>
      let depth := depthOf s.frames + 1
      if maxDepth ≤ depth then refuse "stack overflow"
      else
        match w.guest.closures[r]? with
        | some c => (⟨.run (c.activate args depth), s⟩, w)
        | none => (⟨.give [], s⟩, w)
    | .native n =>
      let nesting := w.guest.nesting
      let level := s.level
      let call := fun (g : Value) (args : List Value) (w : World) =>
        let (r, w) := nested g args
          { w with guest := { w.guest with nesting := nesting + level + 1 } }
        (r, { w with guest := { w.guest with nesting } })
      match n.apply args ⟨call, s.frames, what⟩ w with
      | (.ok o, w) => settle n what o s w
      | (.error o, w) => settle n what o s w
    | v =>
      match w.guest.metamethod v "__call" with
      | .nil => refuse (accessMessage w.guest "call" v ++ aboutValue what)
      | g => (⟨.call g (v :: args) what, s⟩, w)

/-! ## Runs -/

/-- What a step comes to. -/
inductive Step where
  | next (s : State)
  | done (r : RunResult)

/-- One step. -/
def step (nested : Value → List Value → World → RunResult × World) (s : State) (w : World) :
    Step × World :=
  match s with
  | ⟨.run a, waiting⟩ =>
    match a.code.instrs[a.pc]? with
    | some i =>
      let (s, w) := execute { a with pc := a.pc + 1 } waiting i w
      (.next s, w)
    | none => (.next ⟨.give [], waiting⟩, w)
  | ⟨.call f args what, waiting⟩ =>
    let (s, w) := callValue nested f args what waiting w
    (.next s, w)
  | ⟨.give vs, waiting⟩ =>
    if waiting.frames.isEmpty then (.done (.finished vs), w)
    else
      let (s, w) := give vs waiting w
      (.next s, w)
  | ⟨.raise e, waiting⟩ =>
    if waiting.frames.isEmpty then (.done (.failed e), w)
    else
      let (s, w) := raise e waiting w
      (.next s, w)
  | ⟨.halt, _⟩ => (.done .exhausted, w)

/-- Steps until there is a result, at most `fuel` of them; calls that native functions wait for have as
many steps as are left. -/
def runSteps : Nat → State → World → RunResult × World
  | 0, _, w => (.exhausted, w)
  | fuel + 1, s, w =>
    match step (fun f args w => runSteps fuel ⟨.call f args none, {}⟩ w) s w with
    | (.done r, w) => (r, w)
    | (.next s, w) => runSteps fuel s w

/-- The number of steps that a call from outside may take. -/
def stepLimit : Nat := 1000000000000000

/-- Call a value from outside. -/
def callFunction (f : Value) (args : List Value) (w : World) : RunResult × World :=
  runSteps stepLimit ⟨.call f args none, {}⟩ w

end ScriptHost.Guest
