import ScriptHost.Guest.Syntax

/-!
# Code

The instructions that a chunk is compiled to. They work on a stack of values, on the locals of the running
function, and on the cells of locals that closures capture. A value list of unknown length (the results
of a call, the extra arguments) is kept beside the stack until the next instruction takes it; an
instruction that takes it is open.
-/

namespace ScriptHost.Guest

/-- An instruction. `want` tells how many values are pushed; if absent, all of them go beside the
stack. -/
inductive Instr where
  | push (v : Value)
  | drop (count : Nat)
  | dup
  | swap
  | getLocal (id : Nat)
  | setLocal (id : Nat)
  /-- Pop a value into a new cell for a local. -/
  | box (id : Nat)
  | getBox (id : Nat)
  | setBox (id : Nat)
  | getUpvalue (index : Nat)
  | setUpvalue (index : Nat)
  /-- Pop a key and an object, push the field. -/
  | index (what : Option Described)
  /-- Pop a value and store it; the key stands `depth` below, and the object below the key. -/
  | store (depth : Nat) (what : Option Described)
  | newTable (hint : Nat)
  /-- Pop a value and a key, and set the field of the table `depth` below. -/
  | setField (depth : Nat)
  /-- Pop items and put them into the table below them, from an index on. -/
  | setItems (first count : Nat) (isOpen : Bool)
  | arith (op : Arith) (left right : Option Described)
  | unary (op : Arith) (what : Option Described)
  | concat (left right : Option Described)
  | compare (op : Comparison)
  | not
  | len (what : Option Described)
  | jump (target : Nat)
  /-- Pop a value and jump if it is false. -/
  | jumpFalse (target : Nat)
  /-- Jump and keep the value if it is false, else pop it. -/
  | jumpAnd (target : Nat)
  /-- Jump and keep the value if it is true, else pop it. -/
  | jumpOr (target : Nat)
  /-- Push a closure of a function of this function. -/
  | closure (child : Nat)
  | call (count : Nat) (isOpen : Bool) (want : Option Nat) (what : Option Described)
  /-- A call whose results the function returns. -/
  | tailCall (count : Nat) (isOpen : Bool) (what : Option Described)
  | vararg (want : Option Nat)
  | ret (count : Nat) (isOpen : Bool)
  /-- Pop the bounds and the step of a loop into three hidden locals; push the first value, or jump if
  there is none. -/
  | forPrepare (hidden exit : Nat)
  /-- Push the next value of a loop and jump to its body, if there is one. -/
  | forStep (hidden body : Nat)
  /-- Call the iterator in the hidden locals of a loop. -/
  | iterate (hidden count : Nat)
  /-- Jump if the first of the values that the iterator gave is nil, else remember it. -/
  | iterateTest (hidden count exit : Nat)
deriving DecidableEq, Inhabited

/-- A compiled function. -/
structure Code where
  chunk : String
  params : Nat
  isVararg : Bool
  locals : Nat
  captures : List Capture
  instrs : Array Instr
  lines : Array Nat
  children : Array Code

instance : Inhabited Code := ⟨⟨"", 0, false, 0, [], #[], #[], #[]⟩⟩

mutual

/-- Whether two functions are the same. -/
def Code.decEq : (c d : Code) → Decidable (c = d)
  | ⟨chunk, params, isVararg, locals, captures, instrs, lines, ⟨children⟩⟩,
    ⟨chunk', params', isVararg', locals', captures', instrs', lines', ⟨children'⟩⟩ =>
    have := Code.decEqAll children children'
    decidable_of_iff (chunk = chunk' ∧ params = params' ∧ isVararg = isVararg' ∧ locals = locals' ∧
      captures = captures' ∧ instrs = instrs' ∧ lines = lines' ∧ children = children') (by simp)

/-- Whether functions are the same, one by one. -/
def Code.decEqAll : (cs ds : List Code) → Decidable (cs = ds)
  | [], [] => isTrue rfl
  | [], _ :: _ => isFalse (by simp)
  | _ :: _, [] => isFalse (by simp)
  | c :: cs, d :: ds =>
    have := Code.decEq c d
    have := Code.decEqAll cs ds
    decidable_of_iff (c = d ∧ cs = ds) (by simp)

end

instance : DecidableEq Code := Code.decEq

/-- The line of an instruction. -/
def Code.line (c : Code) (pc : Nat) : Nat := (c.lines[pc]?).getD 0

end ScriptHost.Guest
