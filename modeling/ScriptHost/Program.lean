import ScriptHost.Arguments
import ScriptHost.Lifecycle
import ScriptHost.LogFilter

/-!
# The program

What the command line does: it reads its arguments, carries out the command on a new host, and shows reports
on its output, log records and errors on its error output.

* `perform`: a command on a host, with the reports that it shows.
* `runProgram`: the whole program on a file tree.
-/

namespace ScriptHost

variable {γ α : Type}

/-! ## Commands -/

/-- A number of milliseconds, in the largest unit that leaves a whole part. -/
def durationText (ms : Nat) : String :=
  if ms == 0 then "0ns"
  else if ms < 1000 then s!"{ms}ms"
  else
    let rest := ms % 1000
    let digits := padZeros 3 rest
    let fraction := if rest == 0 then ""
      else "." ++ String.ofList (Decimal.dropTrailingZeros digits.toList)
    s!"{ms / 1000}{fraction}s"

/-- Load bundles by name, or all there are if none is named. -/
def loadNamed (g : Guest γ α) (names : List String) :
    HostM γ α (Except HostError (List Outcome)) := do
  if names.isEmpty then Host.loadAll g
  else do pure (.ok (← Host.forScripts (Host.loadBundle g) names))

/-- Run the loop until it stops, and unload everything. -/
def runLoop (g : Guest γ α) (intervalMs : Nat) (ticks : Option Nat) : HostM γ α (List Outcome) := do
  let count := (← Host.read).loadedScripts.length
  log (Host.loopRecord .info
    (s!"Running {count} script(s), tick every {durationText intervalMs} "
      ++ "(Press Ctrl+C to stop)"))
  let done ← Host.runUntilStopped g ticks true
  log (Host.loopRecord .info s!"Stopped after {done} tick(s)")
  Host.shutdown g

/-- What a command shows, and how it ends. -/
structure Shown where
  reports : List Report := []
  error : Option HostError := none

/-- A command that fails after some reports. -/
def Shown.failed (e : HostError) (reports : List Report) : Shown := ⟨reports, some e⟩

/-- Carry out a command. -/
def perform (g : Guest γ α) (s : Settings) : HostM γ α Shown := do
  match s.task with
  | .run bundles intervalMs ticks =>
    match ← loadNamed g bundles with
    | .error e => pure (.failed e [])
    | .ok outcomes =>
      let unloaded ← runLoop g intervalMs ticks
      pure ⟨.outcomes outcomes :: if s.verbose then [.outcomes unloaded] else [], none⟩
  | .list =>
    let h ← Host.read
    match h.bundles.list h.files with
    | .error e => pure (.failed e [])
    | .ok names => pure ⟨[.bundles h.bundles.root names], none⟩
  | .get script path ticks =>
    match ← Host.loadAll g with
    | .error e => pure (.failed e [])
    | .ok _ =>
      if (← Host.read).isLoaded script then
        let _ ← Host.runTicks g ticks
        let item ← Host.inspect g script path
        let _ ← Host.shutdown g
        pure ⟨[.variable item], none⟩
      else pure (.failed (.notLoaded script) [])
  | .call command arguments ticks =>
    match ← Host.loadAll g with
    | .error e => pure (.failed e [])
    | .ok _ =>
      match ← Host.dispatch g command arguments with
      | .error e => pure (.failed e [])
      | .ok text =>
        let _ ← Host.runTicks g ticks
        let _ ← Host.shutdown g
        pure ⟨[.message text], none⟩
  | .repl =>
    let e := HostError.host "REPL not enabled. Rebuild with --features repl"
    let h ← Host.read
    if h.files.isFolder h.bundles.root then
      match ← Host.loadAll g with
      | .error e => pure (.failed e [])
      | .ok outcomes => pure (.failed e [.outcomes outcomes])
    else pure (.failed e [])

/-! ## The whole program -/

/-- What a run of the program leaves: its exit code and its two outputs. -/
structure ProgramResult where
  code : Nat
  output : String := ""
  errors : String := ""
deriving Repr, DecidableEq

/-- The environment variables that the program knows. -/
structure ProgramEnvironment where
  options : OptionEnvironment
  logSpec : Option String := none

/-- Which records a run shows: those that the environment asks for, or else the settings. -/
def Settings.logSpec (s : Settings) (environment : Option String) : LogSpec × List String :=
  match environment with
  | some text => LogSpec.ofText text
  | none =>
    let usual : LogFilter := ⟨some (if s.verbose then .debug else .info)⟩
    (LogSpec.all (s.logLevel.getD usual), [])

/-- Lines of text. -/
def textLines (lines : List String) : String := String.join (lines.map fun l => l ++ "\n")

/-- Whether a command needs a host. -/
def Task.needsHost : Task → Bool
  | .list => false
  | _ => true

/-- The name and version of the program. -/
def versionText (version : String) : String := s!"luna {version}\n"

/-- How to call the program. -/
def usageText : String := "Host and hot-reload sandboxed Lua scripts

Usage: luna [OPTIONS] <COMMAND>

Commands:
  run   Load bundles and run their tasks
  list  List the bundles
  get   Read a variable of a script
  call  Invoke a command of a script
  repl  Open the console
"

/-- Run the program with a new host. -/
def runProgram (g : Guest γ α) (host : Host γ α) (version : String) (arguments : List String)
    (environment : ProgramEnvironment) : ProgramResult :=
  match readArguments arguments environment.options with
  | .error .displayHelp => { code := 0, output := usageText }
  | .error .displayVersion => { code := 0, output := versionText version }
  | .error _ => { code := 2, errors := usageText }
  | .ok s =>
    let (spec, warnings) := s.logSpec environment.logSpec
    let host := { host with
      policy := s.doubleLoad
      bundles := ⟨s.scriptsDir, s.entryPoint⟩
      records := if s.task.needsHost then host.records else #[] }
    let (shown, host) := perform g s host
    let records := (host.records.toList.filter spec.shows).map Record.line
    let failure := match shown.error with
      | some e => [s!"Error: {e.message}"]
      | none => []
    { code := if shown.error.isSome then 1 else 0
      output := textLines (shown.reports.map fun r => r.write s.format)
      errors := textLines (warnings ++ records ++ failure) }

end ScriptHost
