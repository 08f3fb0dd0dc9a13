import ScriptHost.Log
import ScriptHost.Report

/-!
# Settings

What a run of the program is told: the command to carry out, where bundles lie, what loading a loaded
script does, and how results and log records are shown.
-/

namespace ScriptHost

/-- What loading a script does that is already loaded. -/
inductive DoubleLoad where
  /-- The load is refused. -/
  | reject
  /-- The running instance is unloaded first. -/
  | reload
deriving Repr, DecidableEq

/-- The name of a policy in the settings. -/
def DoubleLoad.name : DoubleLoad → String
  | .reject => "reject"
  | .reload => "reload"

/-- The most detailed level of the records that are shown; with none, no record is. -/
structure LogFilter where
  level : Option Level
deriving Repr, DecidableEq

/-- Whether a record of a level is shown. -/
def LogFilter.shows (f : LogFilter) (level : Level) : Bool :=
  match f.level with
  | none => false
  | some most => level.rank ≤ most.rank

/-- The name of a filter. -/
def LogFilter.name (f : LogFilter) : String :=
  match f.level with
  | none => "OFF"
  | some level => level.name

/-- The filter of a name, in any case. -/
def LogFilter.ofName? (s : String) : Option LogFilter :=
  match String.ofList (s.toList.map Char.toUpper) with
  | "OFF" => some ⟨none⟩
  | "ERROR" => some ⟨some .error⟩
  | "WARN" => some ⟨some .warn⟩
  | "INFO" => some ⟨some .info⟩
  | "DEBUG" => some ⟨some .debug⟩
  | "TRACE" => some ⟨some .trace⟩
  | _ => none

/-- What the program is asked to do. Tick counts are numbers of ticks to run. -/
inductive Task where
  | run (bundles : List String) (intervalMs : Nat) (ticks : Option Nat)
  | list
  | get (script path : String) (ticks : Nat)
  | call (command : String) (arguments : List String) (ticks : Nat)
  | repl
deriving Repr, DecidableEq

/-- The settings of a run. -/
structure Settings where
  task : Task
  scriptsDir : String := "scripts"
  entryPoint : String := "main.lua"
  doubleLoad : DoubleLoad := .reject
  format : Format := .human
  verbose : Bool := false
  logLevel : Option LogFilter := none
deriving Repr, DecidableEq

/-- Milliseconds between two ticks of a run; other tasks have the usual number. -/
def Settings.tickMs (s : Settings) : Nat :=
  match s.task with
  | .run _ intervalMs _ => intervalMs
  | _ => 50

/-- The number of ticks after which a run stops by itself. -/
def Settings.maxTicks (s : Settings) : Option Nat :=
  match s.task with
  | .run _ _ ticks => ticks
  | _ => none

end ScriptHost
