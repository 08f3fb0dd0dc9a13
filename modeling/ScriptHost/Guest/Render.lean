import ScriptHost.Guest.Call
import ScriptHost.Guest.Display
import ScriptHost.Json

/-!
# Guest values as JSON

Tables are read as guest code reads them, with its own iteration and length, so that frozen tables show what
is behind them. A table whose keys are `1` to its length is an array, any other an object. A table within
itself is shown as a cycle, and what is nested too deeply or comes too late is cut off.
-/

namespace ScriptHost.Guest

/-! ## Limits -/

/-- Tables nested deeper than this are cut off. -/
def maxNesting : Nat := 16

/-- The number of tables that are shown of a value. -/
def maxTables : Nat := 4096

/-- The number of entries that are read of a table. -/
def maxEntries : Nat := 10000

/-! ## Reading tables -/

/-- Entries of an iteration after those in `found`, which are in reverse. -/
def iterate (next state : Value) (found : List (Value × Value)) :
    Nat → Value → WorldM (Except GuestError (List (Value × Value)))
  | 0, _ => pure (.ok found.reverse)
  | left + 1, k => do
    match ← callGuestFunction next [state, k] with
    | .error e => pure (.error e)
    | .ok vs =>
      let k := vs.headD .nil
      if k.isNil then pure (.ok found.reverse)
      else iterate next state ((k, (vs.drop 1).headD .nil) :: found) left k

/-- The entries and the length of a table, as guest code sees them. -/
def visibleEntries (t : Value) : WorldM (Except GuestError (List (Value × Value) × Nat)) := do
  match ← callGuestFunction (.native (.base .pairs)) [t] with
  | .error e => pure (.error e)
  | .ok vs =>
    match (vs.headD .nil).takeFunction with
    | .error e => pure (.error e)
    | .ok next =>
      match ← iterate next ((vs.drop 1).headD .nil) [] maxEntries ((vs.drop 2).headD .nil) with
      | .error e => pure (.error e)
      | .ok entries =>
        match ← runNative (lengthOf t) with
        | .error e => pure (.error e)
        | .ok n => pure (.ok (entries, n.toInt.toNat))

/-! ## Shapes -/

/-- The place of a key in a sequence of a length, from zero. -/
def sequencePlace? (size : Nat) (k : Value) : Option Nat :=
  match k with
  | .int i => if 1 ≤ i.toInt && i.toInt ≤ size then some (i.toInt.toNat - 1) else none
  | _ => none

/-- Whether entries are a sequence of a length. -/
def isSequence (entries : List (Value × Value)) (size : Nat) : Bool :=
  0 < size && entries.length == size &&
    entries.all fun entry => (sequencePlace? size entry.1).isSome

/-- The items of a sequence, each at its place; a place without an entry holds null. -/
def sequenceJson (size : Nat) (entries : List (Value × Json)) : Json :=
  .arr (entries.foldl (fun items (k, j) =>
    match sequencePlace? size k with
    | some i => items.set! i j
    | none => items) (Array.replicate size Json.null)).toList

/-- A value that is no table. -/
def scalarJson (v : Value) : Json :=
  match v with
  | .nil => .null
  | .bool b => .bool b
  | .int i => .int i.toInt
  | .float x => .float x
  | .str b => .str (Text.decodeLossy b)
  | v => .str v.placeholder

/-! ## Conversion -/

/-- Conversion counts the tables that it has entered. -/
abbrev RenderM := StateT Nat WorldM

/-- The value of every entry converted. -/
def convertEntries (convert : Value → RenderM Json) :
    List (Value × Value) → RenderM (List (Value × Json))
  | [] => pure []
  | (k, v) :: rest => do
    let j ← convert v
    let rest ← convertEntries convert rest
    pure ((k, j) :: rest)

/-- A value as JSON. `path` holds the tables around it, and `left` is how much deeper tables may be
nested. -/
def convert : Nat → List Ref → Value → RenderM Json
  | left, path, .table r => do
    if path.contains r then pure (.str "<cycle>")
    else
      match left with
      | 0 => pure (.str "<table>")
      | left + 1 =>
        if maxTables ≤ (← get) then pure (.str "<table>")
        else
          match ← (visibleEntries (.table r) : WorldM _) with
          | .error _ => pure (.str "<table>")
          | .ok (entries, size) =>
            modify (· + 1)
            let converted ← convertEntries (convert left (r :: path)) entries
            if isSequence entries size then pure (sequenceJson size converted)
            else pure (.ofMembers (converted.map fun (k, j) => (k.keyText, j)))
  | _, _, v => pure (scalarJson v)

/-- A value as JSON. -/
def toJson (v : Value) : WorldM Json := do
  pure (← (convert maxNesting [] v).run 0).1

end ScriptHost.Guest
