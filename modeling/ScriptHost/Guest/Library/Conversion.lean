import ScriptHost.Guest.Native

/-!
# Arguments of host functions

What the host's own functions accept from guest code. Numbers count as texts and texts that write numbers
as numbers; a number loses its fraction where a whole one is asked for.

* `Value.takeText`, `Value.takeNumber`, `Value.takeCount`, `Value.takeFunction`: what a value is taken as.
* `accept`: the same for an argument of a call.
* `checkSelf`: the object that a method was called on.
-/

namespace ScriptHost.Guest

/-! ## Values -/

/-- A value that is not what was asked for. -/
def Value.refused {α : Type} (v : Value) (target : String) (detail : Option String) :
    Except GuestError α :=
  .error (.conversion v.kindName target detail)

/-- A text. -/
def Value.takeText (v : Value) : Except GuestError String :=
  match v with
  | .str b =>
    match Text.decode? b with
    | .ok s => .ok s
    | .error e => v.refused "String" (some e.message)
  | v =>
    match numberText? v with
    | some s => .ok s
    | none => v.refused "String" (some "expected string or number")

/-- What is expected where a number is. -/
def numberExpected : String := "expected number or string coercible to number"

/-- A number. -/
def Value.takeNumber (v : Value) : Except GuestError Float :=
  match v.toNumber?.bind Value.asFloat? with
  | some x => .ok x
  | none => v.refused "f64" (some numberExpected)

/-- The whole number towards zero, if there is one. -/
def wholePart? (x : Float) : Option Int :=
  match Decimal.FloatParts.ofFloat x with
  | .finite negative m q =>
    let n : Nat := if 0 ≤ q then m <<< q.toNat else m >>> q.natAbs
    some (if negative then -(n : Int) else n)
  | _ => none

/-- A floating-point number that is whole counts as an integer. -/
def Value.settled (v : Value) : Value :=
  match v with
  | .float x => (wholeInt? x).elim v .int
  | v => v

/-- A whole number within bounds, of a type with a name. -/
def Value.takeWhole (v : Value) (target : String) (low high : Int) : Except GuestError Int :=
  let v := v.settled
  match v.toNumber? with
  | none => v.refused target (some numberExpected)
  | some n =>
    let whole := match n with
      | .int i => some i.toInt
      | n => wholePart? (n.asFloat?.getD 0.0)
    match whole with
    | some i =>
      if low ≤ i && i ≤ high then .ok i else v.refused target (some "out of range")
    | none => v.refused target (some "out of range")

/-- A number of ticks. -/
def Value.takeCount (v : Value) : Except GuestError Nat :=
  (v.takeWhole "u64" 0 0xFFFFFFFFFFFFFFFF).map Int.toNat

/-- A small integer. -/
def Value.takeSmall (v : Value) : Except GuestError Int := v.takeWhole "i32" (-0x80000000) 0x7FFFFFFF

/-- A function. -/
def Value.takeFunction (v : Value) : Except GuestError Value :=
  if v.isFunction then .ok v else v.refused "function" none

/-- Something, or nothing if the value is nil. -/
def Value.takeOption {α : Type} (take : Value → Except GuestError α) (v : Value) :
    Except GuestError (Option α) :=
  if v.isNil then .ok none else (take v).map some

namespace Library

/-! ## Calls -/

/-- The host refuses. -/
def hostFault {α : Type} (e : GuestError) : NativeM α := failWith (.hostFault e)

/-- The argument at a position, taken as something. Methods have names, and count their object. -/
def accept {α : Type} (method : Option String) (args : Args) (i : Nat)
    (take : Value → Except GuestError α) : NativeM α :=
  match take (args.get i) with
  | .ok a => pure a
  | .error e => hostFault (.badArgument method i none e)

/-- The object that a method of a type was called on. -/
def checkSelf {α : Type} (typeName method : String) (args : Args) (take : HostObject → Option α) :
    NativeM α :=
  let refuse := fun (e : GuestError) =>
    hostFault (.badArgument (some s!"{typeName}.{method}") 1 (some "self") e)
  match args with
  | [] => refuse (.conversion "missing argument" "userdata" none)
  | .object o :: _ =>
    match take o with
    | some a => pure a
    | none => refuse .wrongUserData
  | v :: _ =>
    refuse (.conversion v.kindName "userdata" (some s!"expected userdata of type '{typeName}'"))

/-- What the host answers, or its error. -/
def answer {α : Type} (act : WorldM (Except HostError α)) : NativeM α := do
  match ← inWorld act with
  | .ok a => pure a
  | .error e => hostFault (.raised (.other e.message))

end Library

end ScriptHost.Guest
