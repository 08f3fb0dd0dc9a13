import ScriptHost.Guest.Display
import ScriptHost.Guest.Library.Conversion

/-!
# Functions behind frozen tables and script globals

A frozen table refuses writes, and shows the length and the entries of the table behind it. A name that a
script's own globals lack means a shared object, or else a name of the frozen environment.
-/

namespace ScriptHost.Guest

/-- What a name means below a script's own globals: nil is no shared object. -/
def lookupShared (w : World) (k : Value) : Heap.Reading :=
  let object := match k with
    | .str b =>
      match Text.decode? b with
      | .ok name => (w.objects.get? name).getD .nil
      | .error _ => .nil
    | _ => .nil
  if object.isNil then w.guest.index (.table w.guest.shared) k else .value object

namespace Library

/-- Refuse a write. -/
def refuseWrite (args : Args) : NativeM Outcome :=
  hostFault (.raised (.violation (args.get 2).keyText))

/-- The length of the table behind a frozen one. -/
def frozenLength (behind : Ref) : NativeM Outcome := do
  result (.int (Int64.ofNat ((← getHeap).table behind).border))

/-- Iteration over the table behind a frozen one. -/
def frozenPairs (behind : Ref) : NativeM Outcome :=
  results [.native (.base .next), .table behind, .nil]

/-- What a name means that a script's own globals lack. -/
def resolve (args : Args) : NativeM Outcome := do
  match lookupShared (← inWorld Host.read) (args.get 2) with
  | .value v => result v
  | _ => result .nil

end Library

end ScriptHost.Guest
