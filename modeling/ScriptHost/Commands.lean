import ScriptHost.HostError
import ScriptHost.Log
import Std.Data.TreeMap

/-!
# Commands

The commands that scripts have published. A name belongs to the script that published it first, until it
is withdrawn. The table counts the times it presented a change to its users: `sync` does so only when
an entry was changed since the last time.
-/

namespace ScriptHost

/-- A published command. -/
structure Command where
  name : String
  owner : String
  description : Option String
deriving Repr, DecidableEq

/-- The published commands by name, whether some changed since the last sync, and the number of
syncs that presented changes. -/
structure CommandTable where
  entries : Std.TreeMap String Command := {}
  changed : Bool := false
  syncs : Nat := 0

namespace CommandTable

/-- The published commands, by name. -/
def list (t : CommandTable) : List Command := t.entries.values

/-- The number of published commands. -/
def size (t : CommandTable) : Nat := t.entries.size

/-- The command of a name. -/
def get? (t : CommandTable) (name : String) : Option Command := t.entries.get? name

/-- The script that published a command. -/
def owner? (t : CommandTable) (name : String) : Option String := (t.get? name).map Command.owner

/-- Publish a command, unless another script has published one of that name. -/
def register (t : CommandTable) (command : Command) : Except HostError CommandTable :=
  match t.get? command.name with
  | none => .ok { t with entries := t.entries.insert command.name command, changed := true }
  | some existing =>
    if existing.owner != command.owner then
      .error (.command
        s!"'{command.name}' is already registered by script '{existing.owner}'")
    else if existing == command then .ok t
    else .ok { t with entries := t.entries.insert command.name command, changed := true }

/-- Withdraw a command; tells whether it was published. -/
def unregister (t : CommandTable) (name : String) : Bool × CommandTable :=
  match t.get? name with
  | none => (false, t)
  | some _ => (true, { t with entries := t.entries.erase name, changed := true })

/-- Present the changes since the last time; gives what is to be logged. -/
def sync (t : CommandTable) : List Record × CommandTable :=
  if t.changed then
    ([⟨.debug, "luna::host::commands", s!"Command table synced ({t.size} commands)"⟩],
      { t with changed := false, syncs := t.syncs + 1 })
  else ([], t)

/-- The names that a script has published, in order. -/
def ownedBy (t : CommandTable) (script : String) : List String :=
  (t.list.filter fun c => c.owner == script).map Command.name

end CommandTable

end ScriptHost
