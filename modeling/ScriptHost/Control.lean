import ScriptHost.Text.Blank

/-!
# Control objects

What a script tells the host about its own life: hooks to be called after it is loaded and before it is
unloaded, and the commands it declares. A script's control object outlives the script, since other scripts
may keep it; it is emptied when the script is unloaded.
-/

namespace ScriptHost

/-- A command that a script declares, with the guest function that carries it out. -/
structure DeclaredCommand (α : Type) where
  name : String
  description : Option String
  handler : α
deriving Repr

/-- The hooks and commands of a script, in the order of their declaration. -/
structure Control (α : Type) where
  name : String
  folder : Option String
  loadHooks : List α := []
  unloadHooks : List α := []
  commands : List (DeclaredCommand α) := []
deriving Repr, Inhabited

/-- Command names are not empty and hold no blanks, so that they are words of a console line. -/
def isCommandName (name : String) : Bool := !name.isEmpty && !name.toList.any Text.isBlank

namespace Control

variable {α : Type}

/-- Add a hook to be called after loading. -/
def addLoadHook (c : Control α) (hook : α) : Control α :=
  { c with loadHooks := c.loadHooks ++ [hook] }

/-- Add a hook to be called before unloading. -/
def addUnloadHook (c : Control α) (hook : α) : Control α :=
  { c with unloadHooks := c.unloadHooks ++ [hook] }

/-- Declare a command; it replaces one of the same name and comes last. -/
def addCommand (c : Control α) (command : DeclaredCommand α) : Control α :=
  { c with commands := c.commands.filter (fun d => d.name != command.name) ++ [command] }

/-- The declared command of a name. -/
def command? (c : Control α) (name : String) : Option (DeclaredCommand α) :=
  c.commands.find? fun d => d.name == name

/-- Drop every hook and command. -/
def clear (c : Control α) : Control α :=
  { c with loadHooks := [], unloadHooks := [], commands := [] }

end Control

end ScriptHost
