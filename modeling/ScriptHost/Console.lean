import ScriptHost.HostError
import ScriptHost.Text.Blank
import ScriptHost.Text.Lowercase

/-!
# The console

One line of the console is one instruction: its first word, in any case, says what to do, and the other
words are the arguments. `parseLine` reads a line; a blank line holds no instruction.
-/

namespace ScriptHost

/-- An instruction of the console. -/
inductive Instruction where
  | help
  | exit
  | list
  | bundles
  | commands
  | load (name : String)
  | loadAll
  | unload (name : String)
  | reload (name : String)
  | get (script path : String)
  | tick (count : Nat)
  | call (command : String) (arguments : List String)
deriving Repr, DecidableEq

/-- The text that `help` shows. -/
def consoleHelp : String := "Commands:
  list                      Loaded scripts
  bundles                   Bundles in the scripts directory
  commands                  Commands registered by scripts
  load <name>               Load a bundle
  load-all                  Load every bundle
  unload <name>             Unload a script
  reload <name>             Reload a script from its origin
  get <script> <path>       Read a variable, e.g. `get greet state.count`
  tick [n]                  Advance the scheduler n ticks (default 1)
  call <command> [args...]  Invoke a script command
  help                      Show this help
  exit                      Leave the console"

namespace Instruction

/-- The error of a line that does not have the form of its instruction. -/
def usage (form : String) : HostError := .host s!"usage: {form}"

/-- A natural number below `2^64`: decimal digits, after an optional plus sign. -/
def readCount? (s : String) : Option Nat :=
  let digits :=
    match s.toList with
    | '+' :: cs => cs
    | cs => cs
  if digits.isEmpty || !digits.all Char.isDigit then none
  else
    let n := digits.foldl (fun n c => 10 * n + (c.toNat - '0'.toNat)) 0
    if n < 0x10000000000000000 then some n else none

/-- The only argument. -/
def single (form : String) : List String → Except HostError String
  | [name] => .ok name
  | _ => .error (usage form)

/-- The instruction that a first word in lower case and the other words make. -/
def ofWords (head : String) (rest : List String) : Except HostError Instruction :=
  match head with
  | "help" | "?" => .ok .help
  | "exit" | "quit" | "q" => .ok .exit
  | "list" | "ls" => .ok .list
  | "bundles" => .ok .bundles
  | "commands" => .ok .commands
  | "load" => (single "load <name>" rest).map .load
  | "load-all" => .ok .loadAll
  | "unload" => (single "unload <name>" rest).map .unload
  | "reload" => (single "reload <name>" rest).map .reload
  | "get" =>
    match rest with
    | [script, path] => .ok (.get script path)
    | _ => .error (usage "get <script> <path>")
  | "tick" =>
    match rest with
    | [] => .ok (.tick 1)
    | [n] =>
      match readCount? n with
      | some n => .ok (.tick n)
      | none => .error (usage "tick [n]")
    | _ => .error (usage "tick [n]")
  | "call" =>
    match rest with
    | command :: arguments => .ok (.call command arguments)
    | [] => .error (usage "call <command> [args...]")
  | other => .error (.host s!"Unknown console command '{other}' (try 'help')")

/-- The instruction that a line holds, if it holds any. -/
def parseLine (line : String) : Except HostError (Option Instruction) :=
  match Text.words line with
  | [] => .ok none
  | head :: rest => (ofWords (Text.lowercase head) rest).map some

end Instruction

end ScriptHost
