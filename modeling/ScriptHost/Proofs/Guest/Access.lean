import Mathlib.Logic.Relation
import ScriptHost.Guest.Sandbox
import ScriptHost.Proofs.Guest.Guarded

/-!
# Guest code at tables

What guest code can do with tables: read and write fields, take lengths, and call the base functions that work
on tables. A guest can use the values that it knows, and knows what it was given and what its accesses gave.

* `Access`, `Access.run`: one access, by the interpreter's own operations.
* `Visitor`, `Visitor.run`: a guest in a world, and what a series of moves leads to.
* `Visitor.Able`: a guest that uses what it knows.
* `Visitor.handed`: the tables that `pairs` has handed to the guest as the state of an iteration.
* `Heap.Belongs`: the tables of the shared environment.
-/

namespace ScriptHost.Guest

/-! ## Accesses -/

/-- The base functions that work on tables, as far as scripts see them. -/
def tableFunctions : List BaseFn :=
  [.getmetatable, .ipairs, .next, .pairs, .rawget, .rawlen, .setmetatable]

/-- What guest code does with tables. -/
inductive Access where
  /-- A new table. -/
  | create
  /-- A name that the sandbox's own globals do not have. -/
  | name (k : Value)
  | index (v k : Value)
  | assign (v k x : Value)
  | length (v : Value)
  | call (f : BaseFn) (args : List Value)
  /-- A step of an iteration by `ipairs`. -/
  | step (args : List Value)

namespace Access

/-- The values that an access is done with. -/
def operands : Access → List Value
  | .create => []
  | .name k => [k]
  | .index v k => [v, k]
  | .assign v k x => [v, k, x]
  | .length v => [v]
  | .call _ args => args
  | .step args => args

/-- The results of a native function's call. -/
def results : Outcome → NativeM (List Value)
  | .values vs => pure vs
  | .call f args [.adapt (.exactly n)] => do pure (takeValues n (← callGuest f args))
  | o => failWith o

/-- An access, which gives values. -/
def run : Access → NativeM (List Value)
  | .create => do pure [.table (← allocate fun h => h.allocTable {})]
  | .name k => do results (← Native.resolve.apply [.nil, k])
  | .index v k => do pure [← getField v k]
  | .assign v k x => do
    setField v k x
    pure []
  | .length v => do pure [.int (← lengthOf v)]
  | .call f args => do results (← (Native.base f).apply args)
  | .step args => do results (← Native.ipairsStep.apply args)

/-- Whether `setmetatable` takes a value as a metatable, or for none. -/
def takesMetatable : Value → Bool
  | .nil => true
  | .table _ => true
  | _ => false

/-- The table that an access changes, if it changes one that is there. -/
def target? (h : Heap) : Access → Option Ref
  | .assign v k _ =>
    match h.assign v k with
    | .set r _ => some r
    | _ => none
  | .call .setmetatable (.table r :: v :: _) =>
    if takesMetatable v && (h.metamethod (.table r) "__metatable").isNil then some r else none
  | _ => none

/-- The table that `pairs` gives for the iteration over another one. -/
def handed : Access → List Value → List Ref
  | .call .pairs (.table q :: _), [_, .table r, _] => if q = r then [] else [r]
  | .call .pairs _, [_, .table r, _] => [r]
  | _, _ => []

end Access

/-! ## Calls on the way -/

/-- The functions that the host puts into metatables. -/
def Native.isHosts : Native → Bool
  | .refuseWrite => true
  | .frozenLength _ => true
  | .frozenPairs _ => true
  | .resolve => true
  | _ => false

/-- Calls that an access makes on its way. The host's functions run. What a function of the guest does is a move
of its own; here it has an answer only. -/
def callAlong (answer : List Value) (f : Value) (args : List Value) (w : World) :
    RunResult × World :=
  match f with
  | .native n => if n.isHosts then callFunction (.native n) args w else (.finished answer, w)
  | _ => (.finished answer, w)

/-- The context of an access. -/
def along (answer : List Value) : CallContext := ⟨callAlong answer, [], none⟩

/-! ## Visitors -/

/-- An access, and what the guest's own functions answer on its way. -/
structure Move where
  access : Access
  answer : List Value := []

/-- A guest in a world: the values that it knows, and the tables that `pairs` has handed to it. -/
structure Visitor where
  world : World
  known : List Value
  handed : List Ref := []

namespace Visitor

/-- A guest in a new host. It knows the frozen environment, below whose names it would otherwise be. -/
def start (heap : Heap) (bindings : List Binding) : Visitor :=
  let world := newHost heap bindings
  { world, known := [.table world.guest.shared] }

/-- The heap. -/
abbrev heap (g : Visitor) : Heap := g.world.guest

/-- A move. A guest learns the results of an access that does not fail. -/
def perform (g : Visitor) (m : Move) : Visitor :=
  match m.access.run (along m.answer) g.world with
  | (.ok vs, world) =>
    { world, known := vs ++ g.known, handed := m.access.handed vs ++ g.handed }
  | (.error _, world) => { g with world }

/-- A series of moves. -/
def run (g : Visitor) (moves : List Move) : Visitor := moves.foldl perform g

/-- A value that refers to no table needs not be learnt. -/
def Knows (g : Visitor) (v : Value) : Prop := v.ref? = none ∨ v ∈ g.known

/-- A guest can do a move: it knows all values that the move takes. -/
structure Can (g : Visitor) (m : Move) : Prop where
  operands : ∀ v ∈ m.access.operands, g.Knows v
  answer : ∀ v ∈ m.answer, g.Knows v
  shared : ∀ f args, m.access = .call f args → f ∈ tableFunctions

/-- A guest can do a series of moves. -/
def Able : Visitor → List Move → Prop
  | _, [] => True
  | g, m :: moves => g.Can m ∧ (g.perform m).Able moves

end Visitor

/-! ## The shared environment -/

namespace Heap

/-- A table has another as its metatable, as a value or as a key. -/
inductive Leads (h : Heap) : Ref → Ref → Prop where
  | metatable {r m : Ref} (hm : (h.table r).metatable = some m) : Leads h r m
  | value {r q : Ref} (k : Key) (hq : (h.table r).get k = .table q) : Leads h r q
  | key {r q : Ref} (hq : ((h.table r).get (.table q)).isNil = false) : Leads h r q

/-- A table of the shared environment: one that can be reached from its root. -/
def Belongs (h : Heap) : Ref → Prop := Relation.ReflTransGen h.Leads h.shared

/-- A table that can be reached from a key of the shared environment. Keys are neither copied nor frozen. -/
def Loose (h : Heap) (r : Ref) : Prop :=
  ∃ b q, h.Belongs b ∧ ((h.table b).get (.table q)).isNil = false ∧
    Relation.ReflTransGen h.Leads q r

/-- What a path of keys leads to from a table, as long as there are tables on the way. -/
def follow (h : Heap) : Value → List Value → Option Value
  | v, [] => some v
  | .table r, k :: path =>
    match h.index (.table r) k with
    | .value v => h.follow v path
    | _ => none
  | _, _ :: _ => none

end Heap

namespace Visitor

/-- Whether no write of a run takes effect on a table of the shared environment of `h₀` that `pairs` has handed out
by then, or that can be reached from a key. -/
def Spares (h₀ : Heap) : Visitor → List Move → Prop
  | _, [] => True
  | g, m :: moves =>
    (∀ r, m.access.target? g.heap = some r → h₀.Belongs r → r ∉ g.handed ∧ ¬h₀.Loose r) ∧
      (g.perform m).Spares h₀ moves

/-- Whether no write of a run takes effect on any table of the shared environment of `h₀`. -/
def Respects (h₀ : Heap) : Visitor → List Move → Prop
  | _, [] => True
  | g, m :: moves =>
    (∀ r, m.access.target? g.heap = some r → ¬h₀.Belongs r) ∧ (g.perform m).Respects h₀ moves

end Visitor

end ScriptHost.Guest
