import ScriptHost.Guest.Globals

/-!
# The frozen environment

The shared environment of all scripts: library namespaces, harmless base functions, helpers of the host, and
the host's own bindings. It is copied deeply, and every table of the copy is put behind a proxy that can be
read and not written. Both passes remember which tables they have met, so that a table that is reached twice
is copied once and has one proxy, even one that contains itself.

* `Heap.copyTable`: a deep copy of a table.
* `Heap.freezeTable`: the proxy of a private table.
* `Heap.buildShared`: the whole environment.
-/

namespace ScriptHost.Guest

/-! ## Copies -/

/-- A heap, and what the tables met so far have become. -/
structure Visit where
  heap : Heap
  known : Std.HashMap Ref Ref := {}

/-- Work on a heap that remembers what tables have become. -/
abbrev VisitM := StateM Visit

/-- Visits that are nested in each other: `visit` is given the visit below it, and `last` is the one at the
bottom. -/
def nested (visit : (Ref → VisitM Ref) → Ref → VisitM Ref) (last : Ref → VisitM Ref) :
    Nat → Ref → VisitM Ref
  | 0 => last
  | fuel + 1 => visit (nested visit last fuel)

/-- A new table that stands for an old one. -/
def standFor (r : Ref) : VisitM Ref := modifyGet fun s =>
  let (new, heap) := s.heap.allocTable {}
  (new, { s with heap, known := s.known.insert r new })

/-- Set an entry of a table. -/
def setEntry (r : Ref) (k : Key) (v : Value) : VisitM Unit :=
  modify fun s => { s with heap := s.heap.rawSet r k v }

/-- Copy entries into a table; `copy` copies a table. -/
def copyEntries (copy : Ref → VisitM Ref) (target : Ref) : List (Key × Value) → VisitM Unit
  | [] => pure ()
  | (k, v) :: rest => do
    match v with
    | .table r => setEntry target k (.table (← copy r))
    | v => setEntry target k v
    copyEntries copy target rest

/-- A copy of a table, if there is none yet; `copy` copies the tables in it. Everything else is shared, metatables
are dropped. -/
def copyVisit (copy : Ref → VisitM Ref) (r : Ref) : VisitM Ref := do
  match (← get).known[r]? with
  | some known => pure known
  | none =>
    let new ← standFor r
    copyEntries copy new ((← get).heap.table r).entries
    pure new

/-- A copy of a table and of the tables in it. `fuel` bounds the nesting, which the number of tables bounds. -/
def copyDeep : Nat → Ref → VisitM Ref := nested copyVisit pure

/-- A deep copy of a table. -/
def Heap.copyTable (h : Heap) (r : Ref) : Ref × Heap :=
  let (copy, s) := copyDeep (h.tables.size + 1) r |>.run { heap := h }
  (copy, s.heap)

/-! ## Proxies -/

/-- The metatable of the proxy of a table. -/
def proxyFields (behind : Ref) : List (String × Value) := [
  ("__index", .table behind), ("__newindex", .native .refuseWrite),
  ("__len", .native (.frozenLength behind)), ("__pairs", .native (.frozenPairs behind)),
  ("__metatable", .bool false)]

/-- Give a proxy its metatable. -/
def sealProxy (proxy behind : Ref) : VisitM Unit := modify fun s =>
  let (metatable, heap) := s.heap.allocTable (namedTable (proxyFields behind))
  { s with heap := heap.modifyTable proxy fun t => { t with metatable := some metatable } }

/-- Put the tables among entries behind proxies; `freeze` freezes a table. -/
def freezeEntries (freeze : Ref → VisitM Ref) (target : Ref) : List (Key × Value) → VisitM Unit
  | [] => pure ()
  | (k, v) :: rest => do
    match v with
    | .table r => setEntry target k (.table (← freeze r))
    | _ => pure ()
    freezeEntries freeze target rest

/-- The proxy of a table, which is made if there is none yet; `freeze` freezes the tables in it. -/
def freezeVisit (freeze : Ref → VisitM Ref) (r : Ref) : VisitM Ref := do
  match (← get).known[r]? with
  | some known => pure known
  | none =>
    let proxy ← standFor r
    freezeEntries freeze r ((← get).heap.table r).entries
    sealProxy proxy r
    pure proxy

/-- The proxy of a table whose inner tables are put behind proxies too. -/
def freezeDeep : Nat → Ref → VisitM Ref := nested freezeVisit pure

/-- The proxy of a table. -/
def Heap.freezeTable (h : Heap) (r : Ref) : Ref × Heap :=
  let (proxy, s) := freezeDeep (h.tables.size + 1) r |>.run { heap := h }
  (proxy, s.heap)

/-! ## The environment -/

/-- The libraries that scripts see whole. -/
def sharedNamespaces : List String := ["string", "table", "math", "utf8", "coroutine"]

/-- The functions of the clock library that scripts see. -/
def sharedClock : List String := ["time", "clock", "date", "difftime"]

/-- The base functions that scripts see. A function that writes without metamethods is not among them:
it could write to a frozen table. -/
def sharedBase : List String := ["assert", "error", "ipairs", "next", "pairs", "pcall", "xpcall",
  "select", "tonumber", "tostring", "type", "rawequal", "rawlen", "rawget", "getmetatable",
  "setmetatable"]

/-- A name and a value that the host adds to the shared environment. -/
abbrev Binding := String × Value

/-- Add a binding; it replaces one of the same name and comes last. -/
def addBinding (bindings : List Binding) (b : Binding) : List Binding :=
  bindings.filter (fun old => old.1 != b.1) ++ [b]

namespace Heap

/-- The fields of a table under names. -/
def pick (h : Heap) (r : Ref) (names : List String) : List (String × Value) :=
  names.map fun name => (name, h.rawGet r (.ofText name))

/-- The table that the shared environment is a frozen copy of. -/
def assembleShared (h : Heap) (bindings : List Binding) : Ref × Heap :=
  let clockFields := match h.rawGet h.globals (.ofText "os") with
    | .table os => h.pick os sharedClock
    | _ => []
  let fields := h.pick h.globals sharedNamespaces
  let (os, h) := h.allocTable (namedTable clockFields)
  let (util, h) := h.allocTable (namedTable (natives .util utilNames))
  let fields := fields ++ [("os", .table os)] ++ h.pick h.globals sharedBase
    ++ [("util", .table util)] ++ bindings
  h.allocTable (namedTable fields)

/-- Point the fields of strings to the frozen string library, and hide their metatable. -/
def lockStrings (h : Heap) : Heap :=
  let frozen := match h.index (.table h.shared) (.ofText "string") with
    | .value v => v
    | _ => .nil
  match h.stringMeta with
  | none => h
  | some r =>
    if ((h.table r).getText "__metatable").isNil then
      (h.rawSetText r "__index" frozen).rawSetText r "__metatable" (.bool false)
    else h

/-- Build the shared environment. -/
def buildShared (h : Heap) (bindings : List Binding) : Heap :=
  let (assembled, h) := h.assembleShared bindings
  let (copy, h) := h.copyTable assembled
  let (root, h) := h.freezeTable copy
  lockStrings { h with shared := root }

end Heap

/-- What is logged when the shared environment is built. -/
def sharedRecord (bindings : List Binding) : Record :=
  ⟨.debug, "luna::environment::shared",
    s!"Shared environment built ({sharedNamespaces.length + 2} namespaces, {bindings.length} host bindings)"⟩

/-- The name and version of the host program. -/
def programVersion : String := "0.4.0"

/-- The bindings of a host that has none of its own: who it is. -/
def defaultBindings (h : Heap) : List Binding × Heap :=
  let (r, h) := h.allocTable (namedTable [("name", .ofText "luna"),
    ("version", .ofText programVersion), ("lua", .ofText "5.4")])
  ([("host", .table r)], h)

end ScriptHost.Guest
