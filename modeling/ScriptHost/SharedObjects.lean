import ScriptHost.HostError
import ScriptHost.Log
import Std.Data.TreeMap

/-!
# Shared objects

Named values that every script sees, with their owners. Values and owners are kept in two stores that
change together. The host may replace or remove any entry, a script only its own.

* `register`, `unregister`, `releaseOwnedBy`: changes.
* `get?`, `owner?`, `names`: questions.
-/

namespace ScriptHost

/-- Who registered a shared object. -/
inductive Owner where
  | host
  | script (name : String)
deriving Repr, DecidableEq

/-- The written form of an owner. -/
def Owner.text : Owner → String
  | .host => "host"
  | .script name => s!"script '{name}'"

/-- Whether the owner may change an entry that `existing` registered. -/
def Owner.mayChange (owner existing : Owner) : Bool := owner == .host || owner == existing

/-- The shared values and their owners, by name. -/
structure SharedObjects (α : Type) where
  values : Std.TreeMap String α := {}
  owners : Std.TreeMap String Owner := {}

namespace SharedObjects

variable {α : Type}

/-- The value under a name. -/
def get? (s : SharedObjects α) (name : String) : Option α := s.values.get? name

/-- The owner of a name. -/
def owner? (s : SharedObjects α) (name : String) : Option Owner := s.owners.get? name

/-- The names in use, in order. -/
def names (s : SharedObjects α) : List String := s.owners.keys

/-- The objects without those of the given names. -/
def erase (s : SharedObjects α) (name : String) : SharedObjects α :=
  ⟨s.values.erase name, s.owners.erase name⟩

/-- Remove a name; tells whether it was in use. -/
def unregister (s : SharedObjects α) (owner : Owner) (name : String) :
    Except HostError (Bool × SharedObjects α) :=
  match s.owner? name with
  | none => .ok (false, s)
  | some existing =>
    if owner.mayChange existing then .ok (true, s.erase name)
    else .error (.sharedObject s!"'{name}' is registered by {existing.text}")

/-- What is logged when a value is registered. -/
def registered (owner : Owner) (name : String) : Record :=
  ⟨.debug, "luna::environment::objects", s!"Shared object '{name}' registered by {owner.text}"⟩

/-- Put a value under a name, or remove the name if there is none; gives what is to be logged. -/
def register (s : SharedObjects α) (owner : Owner) (name : String) (value : Option α) :
    Except HostError (List Record × SharedObjects α) :=
  match value with
  | none => (s.unregister owner name).map fun (_, s) => ([], s)
  | some value =>
    let refused :=
      match s.owner? name with
      | none => none
      | some existing => if owner.mayChange existing then none else some existing
    match refused with
    | some existing =>
      .error (.sharedObject s!"'{name}' is already registered by {existing.text}")
    | none =>
      .ok ([registered owner name],
        ⟨s.values.insert name value, s.owners.insert name owner⟩)

/-- The names that a script owns, in order. -/
def ownedBy (s : SharedObjects α) (script : String) : List String :=
  (s.owners.toList.filter fun entry => entry.2 == .script script).map Prod.fst

/-- Remove every entry of a script; gives their number. -/
def releaseOwnedBy (s : SharedObjects α) (script : String) : Nat × SharedObjects α :=
  let owned := s.ownedBy script
  (owned.length, owned.foldl erase s)

end SharedObjects

end ScriptHost
