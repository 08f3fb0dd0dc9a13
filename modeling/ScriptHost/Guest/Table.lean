import ScriptHost.Guest.Value
import Std.Data.HashMap

/-!
# Tables

A table holds its entries in the order in which their keys were first set, and an index of that order. An
entry that is set to nil keeps its place, so that an iteration can go on from it.

* `get`, `set`: one entry.
* `entryAfter`: the next entry that is not nil.
* `border`: a length, an `n` such that entry `n` is not nil (or `n` is zero) and entry `n + 1` is.
* `entries`: all entries that are not nil.
-/

namespace ScriptHost.Guest

/-- Entries, the place of each key among them, the metatable, and the size a constructor announced. -/
structure Table where
  slots : Array (Key × Value) := #[]
  index : Std.HashMap Key Nat := {}
  metatable : Option Ref := none
  hint : Nat := 0
deriving Inhabited

namespace Table

/-- The value of the entry at a place. -/
def valueAt (t : Table) (i : Nat) : Value :=
  match t.slots[i]? with
  | some (_, v) => v
  | none => .nil

/-- The value of a key; nil if there is no entry. -/
def get (t : Table) (k : Key) : Value :=
  match t.index[k]? with
  | some i => t.valueAt i
  | none => .nil

/-- The value of an integer key. -/
def getInt (t : Table) (i : Int64) : Value := t.get (.int i)

/-- The value of a text as key. -/
def getText (t : Table) (s : String) : Value := t.get (.str s.toUTF8)

/-- Set the value of a key. A new key takes the last place; nil makes no new entry. -/
def set (t : Table) (k : Key) (v : Value) : Table :=
  match t.index[k]? with
  | some i => { t with slots := t.slots.modify i fun slot => (slot.1, v) }
  | none =>
    if v.isNil then t
    else
      let place := t.slots.size
      { t with slots := t.slots.push (k, v), index := t.index.insert k place }

/-- Set the value of a text as key. -/
def setText (t : Table) (s : String) (v : Value) : Table := t.set (.str s.toUTF8) v

/-! ## Iteration -/

/-- The entries that are not nil, in order. -/
def entries (t : Table) : List (Key × Value) :=
  t.slots.toList.filter fun slot => !slot.2.isNil

/-- The first entry from a place on that is not nil; `fuel` is the number of places left. -/
def entryFrom (t : Table) : Nat → Nat → Option (Key × Value)
  | 0, _ => none
  | fuel + 1, i =>
    match t.slots[i]? with
    | none => none
    | some slot => if slot.2.isNil then t.entryFrom fuel (i + 1) else some slot

/-- The first entry, or the first after a key. A key that was never set has no place. -/
def entryAfter (t : Table) (k : Option Key) : Except Unit (Option (Key × Value)) :=
  match k with
  | none => .ok (t.entryFrom t.slots.size 0)
  | some k =>
    match t.index[k]? with
    | none => .error ()
    | some i => .ok (t.entryFrom (t.slots.size - (i + 1)) (i + 1))

/-! ## Length -/

/-- Whether the entry with a natural number as key is nil. -/
def lacks (t : Table) (n : Nat) : Bool := (t.getInt (Int64.ofNat n)).isNil

/-- A border between `low`, which is zero or has an entry, and `high`, which has none; `fuel` bounds
the halvings. -/
def borderBetween (t : Table) : Nat → Nat → Nat → Nat
  | 0, low, _ => low
  | fuel + 1, low, high =>
    if high ≤ low + 1 then low
    else
      let middle := (low + high) / 2
      if t.lacks middle then t.borderBetween fuel low middle
      else t.borderBetween fuel middle high

/-- The largest number that can be the key of an entry. -/
def maxKey : Nat := 0x7fffffffffffffff

/-- A border above `low`, which has an entry, found by doubling as long as the double can be a key; `fuel`
bounds the doublings. -/
def borderAbove (t : Table) : Nat → Nat → Nat
  | 0, low => low
  | fuel + 1, low =>
    if low ≤ maxKey / 2 then
      if t.lacks (2 * low) then t.borderBetween 64 low (2 * low)
      else t.borderAbove fuel (2 * low)
    else if t.lacks maxKey then t.borderBetween 64 low maxKey
    else maxKey

/-- A border: the length of a sequence. -/
def border (t : Table) : Nat :=
  if 0 < t.hint && t.lacks t.hint then t.borderBetween 64 0 t.hint
  else if t.lacks (t.hint + 1) then t.hint
  else t.borderAbove 63 (t.hint + 1)

end Table

end ScriptHost.Guest
