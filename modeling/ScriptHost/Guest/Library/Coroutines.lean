import ScriptHost.Guest.Native

/-!
# The coroutine library

Coroutines are made, resumed, and asked about. The first place among them is the main one's, which is
never resumed.
-/

namespace ScriptHost.Guest.Library

/-- What a coroutine is doing, as the guest language names it. -/
def statusName (h : Heap) (r : Ref) : String :=
  if h.current == (if r == 0 then none else some r) then "running"
  else
    match h.thread r with
    | .fresh _ => "suspended"
    | .suspended _ => "suspended"
    | .running => "normal"
    | .normal => "normal"
    | .dead _ => "dead"

/-- A coroutine. -/
def checkThread (args : Args) (i : Nat) : NativeM Ref := do
  match args.get i with
  | .thread r => pure r
  | _ => wrongType args i "coroutine"

/-- A new coroutine that runs a function. -/
def newThread (args : Args) : NativeM Ref := do
  let f ← checkFunction args 1
  allocate fun h => h.allocThread (.fresh f)

/-- End a coroutine that does not run; tells the error that ended it, once. -/
def closeThread (r : Ref) : NativeM Outcome := do
  let h ← getHeap
  let status := statusName h r
  if status == "suspended" || status == "dead" then
    modifyHeap fun h => h.setThread r (.dead none)
    match h.thread r with
    | .dead (some e) => results [.bool false, e]
    | _ => result (.bool true)
  else fault s!"cannot close a {status} coroutine"

/-- The functions of the coroutine library. -/
def coroutine (f : CoroutineFn) (args : Args) : NativeM Outcome := do
  match f with
  | .close => do closeThread (← checkThread args 1)
  | .create => do result (.thread (← newThread args))
  | .isyieldable => do result (.bool (← getHeap).current.isSome)
  | .resume => do pure (.resume (← checkThread args 1) (args.drop 1) false)
  | .running => do
    let current := (← getHeap).current
    results [.thread (current.getD 0), .bool current.isNone]
  | .status => do
    let r ← checkThread args 1
    result (.ofText (statusName (← getHeap) r))
  | .wrap => do result (.native (.wrapped (← newThread args)))
  | .yield => pure (.yield args)

end ScriptHost.Guest.Library
