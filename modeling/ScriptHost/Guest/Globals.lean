import ScriptHost.Guest.Library

/-!
# Globals

The tables that an interpreter starts with: the libraries and the base functions.

* `Heap.start`: the heap of a new interpreter, whose globals are its first table.
* `Heap.bindText`: a value under a name.
-/

namespace ScriptHost.Guest

/-! ## Namespaces -/

/-- Named values of a kind of native function. -/
def natives {α : Type} (make : α → Native) (names : List (String × α)) : List (String × Value) :=
  names.map fun (name, f) => (name, .native (make f))

/-- A table with entries under names. -/
def namedTable (entries : List (String × Value)) : Table :=
  entries.foldl (fun t (name, v) => t.setText name v) {}

/-- The constants of the mathematics library. -/
def mathConstants : List (String × Value) := [
  ("pi", .float 3.141592653589793), ("huge", .float (1.0 / 0.0)),
  ("maxinteger", .int Int64.maxValue), ("mininteger", .int Int64.minValue)]

/-- The libraries with a namespace. -/
def namespaces : List (String × List (String × Value)) := [
  ("string", natives .string stringNames),
  ("table", natives .table tableNames),
  ("math", natives .math mathNames ++ mathConstants),
  ("utf8", natives .utf8 utf8Names ++ [("charpattern", .str Library.pointPattern)]),
  ("coroutine", natives .coroutine coroutineNames),
  ("os", natives .clock clockNames)]

namespace Heap

/-- Put a value under a name into a table. -/
def bindText (h : Heap) (r : Ref) (entry : String × Value) : Heap :=
  h.rawSetText r entry.1 entry.2

/-- Add a namespace to a table. -/
def addNamespace (h : Heap) (r : Ref) (entry : String × List (String × Value)) : Heap :=
  let (inner, h) := h.allocTable (namedTable entry.2)
  h.rawSetText r entry.1 (.table inner)

/-- The metatable of strings: a string's fields are those of the string library, and arithmetic works on
strings that write numbers. -/
def addStringMeta (h : Heap) : Heap :=
  let fields := ("__index", h.rawGet h.globals (.ofText "string"))
    :: natives .stringArith stringArithNames
  let (r, h) := h.allocTable (namedTable fields)
  { h with stringMeta := some r }

/-- The heap of a new interpreter. -/
def start : Heap :=
  let (globals, h) := ({} : Heap).allocTable (namedTable (natives .base baseNames))
  let h := { h with globals }
  let h := namespaces.foldl (fun h entry => h.addNamespace globals entry) h
  let h := h.bindText globals ("_G", .table globals)
  (h.bindText globals ("_VERSION", .ofText "Lua 5.4")).addStringMeta

end Heap

end ScriptHost.Guest
