import ScriptHost.Console
import ScriptHost.Settings

/-!
# Command-line arguments

The arguments of the program are read at two levels: before the subcommand and after it. Options that
concern every subcommand may stand at both, and in the environment too.

A value is checked when the next argument that is understood, or the end of the level, shows that the
option has all it gets; so an argument that is not understood is reported before a value that is bad.
A level is finished (values, environment, what must be there) before the level around it.

* `scan`, `Scan.finish`: one level.
* `readArguments`: the settings of a whole command line, or what is wrong with it.
-/

namespace ScriptHost

/-- Why a command line is not carried out. Asking for help or the version counts too. -/
inductive UsageError where
  | unknownArgument
  | invalidValue
  | valueValidation
  | tooManyValues
  | argumentConflict
  | missingRequiredArgument
  | missingSubcommand
  | invalidSubcommand
  | displayHelp
  | displayHelpOnMissingArgumentOrSubcommand
  | displayVersion
deriving Repr, DecidableEq

/-- The environment variables that stand for options. -/
structure OptionEnvironment where
  scriptsDir : Option String := none
  entryPoint : Option String := none
  doubleLoad : Option String := none
deriving Repr, DecidableEq

namespace Arguments

/-! ## Options -/

/-- The options that take a value. -/
inductive Opt where
  | scriptsDir
  | entryPoint
  | onDoubleLoad
  | logLevel
  | intervalMs
  | ticks
deriving Repr, DecidableEq

/-- The options that take none. -/
inductive Flag where
  | json
  | verbose
  | help
  | version
deriving Repr, DecidableEq

/-- What was given at one level, or comes from the environment. -/
structure Given where
  scriptsDir : Option String := none
  entryPoint : Option String := none
  doubleLoad : Option DoubleLoad := none
  logLevel : Option LogFilter := none
  intervalMs : Option Nat := none
  ticks : Option Nat := none
  json : Bool := false
  verbose : Bool := false
  words : List String := []
deriving Repr, DecidableEq

/-- Whether an option has its value. -/
def Given.has (g : Given) : Opt → Bool
  | .scriptsDir => g.scriptsDir.isSome
  | .entryPoint => g.entryPoint.isSome
  | .onDoubleLoad => g.doubleLoad.isSome
  | .logLevel => g.logLevel.isSome
  | .intervalMs => g.intervalMs.isSome
  | .ticks => g.ticks.isSome

/-- The policy of a name. -/
def readDoubleLoad? : String → Option DoubleLoad
  | "reject" => some .reject
  | "reload" => some .reload
  | _ => none

/-- Give an option the value that a text writes. -/
def Given.put (g : Given) (opt : Opt) (text : String) : Except UsageError Given :=
  match opt with
  | .scriptsDir =>
    if text.isEmpty then .error .invalidValue else .ok { g with scriptsDir := some text }
  | .entryPoint => .ok { g with entryPoint := some text }
  | .onDoubleLoad =>
    match readDoubleLoad? text with
    | some policy => .ok { g with doubleLoad := some policy }
    | none => .error .invalidValue
  | .logLevel =>
    match LogFilter.ofName? text with
    | some filter => .ok { g with logLevel := some filter }
    | none => .error .valueValidation
  | .intervalMs =>
    match Instruction.readCount? text with
    | some n => .ok { g with intervalMs := some n }
    | none => .error .valueValidation
  | .ticks =>
    match Instruction.readCount? text with
    | some n => .ok { g with ticks := some n }
    | none => .error .valueValidation

/-! ## One level -/

/-- What can stand at a level: its own options beside the common ones, whether the version can be
asked for, and how many words it takes (any number if absent). -/
structure Place where
  own : List Opt
  asksVersion : Bool
  maxWords : Option Nat
deriving Repr, DecidableEq

/-- The options that can stand at every level. -/
def commonOptions : List Opt := [.scriptsDir, .entryPoint, .onDoubleLoad, .logLevel]

/-- The option of a long name. -/
def Place.opt? (p : Place) (name : String) : Option Opt :=
  let known : Option Opt :=
    match name with
    | "scripts-dir" => some .scriptsDir
    | "entry-point" => some .entryPoint
    | "on-double-load" => some .onDoubleLoad
    | "log-level" => some .logLevel
    | "interval-ms" => some .intervalMs
    | "ticks" => some .ticks
    | _ => none
  known.filter fun opt => (commonOptions ++ p.own).contains opt

/-- The flag of a long name. -/
def Place.longFlag? (p : Place) : String → Option Flag
  | "json" => some .json
  | "verbose" => some .verbose
  | "help" => some .help
  | "version" => if p.asksVersion then some .version else none
  | _ => none

/-- The flag of a letter. -/
def Place.shortFlag? (p : Place) (c : Char) : Option Flag :=
  if c == 'v' then some .verbose
  else if c == 'h' then some .help
  else if c == 'V' && p.asksVersion then some .version
  else none

/-- A level that has been read so far: what is given, an option whose value is not checked yet or not
there yet, and whether all that follows are words. -/
structure Scan where
  given : Given := {}
  pending : Option (Opt × Option String) := none
  onlyWords : Bool := false
deriving Repr, DecidableEq

/-- Check the value of the option that is pending. -/
def Scan.settle (s : Scan) : Except UsageError Scan :=
  match s.pending with
  | none => .ok s
  | some (_, none) => .error .invalidValue
  | some (opt, some text) =>
    if s.given.has opt then .error .argumentConflict
    else (s.given.put opt text).map fun given => { s with given, pending := none }

/-- Whether the next argument is the value of an option. -/
def Scan.awaitsValue (s : Scan) : Bool :=
  match s.pending with
  | some (_, none) => true
  | _ => false

/-- A flag that is understood. -/
def Scan.flag (s : Scan) (flag : Flag) : Except UsageError Scan := do
  let s ← s.settle
  match flag with
  | .json =>
    if s.given.json then .error .argumentConflict
    else .ok { s with given := { s.given with json := true } }
  | .verbose =>
    if s.given.verbose then .error .argumentConflict
    else .ok { s with given := { s.given with verbose := true } }
  | .help => .error .displayHelp
  | .version => .error .displayVersion

/-- Letters after a single hyphen. -/
def Scan.letters (p : Place) (s : Scan) : List Char → Except UsageError Scan
  | [] => .ok s
  | c :: cs =>
    match p.shortFlag? c with
    | none => .error .unknownArgument
    | some flag => do letters p (← s.flag flag) cs

/-- A name after two hyphens, perhaps with a value after an equals sign. -/
def Scan.long (p : Place) (s : Scan) (body : List Char) : Except UsageError Scan :=
  let name := String.ofList (body.takeWhile (· != '='))
  let attached :=
    match body.dropWhile (· != '=') with
    | [] => none
    | _ :: value => some (String.ofList value)
  match p.opt? name, p.longFlag? name, attached with
  | some opt, _, value => do
    let s ← s.settle
    let s := { s with pending := some (opt, value) }
    if value.isSome then s.settle else .ok s
  | none, some flag, none => s.flag flag
  | none, some _, some _ => .error .tooManyValues
  | none, none, _ => .error .unknownArgument

/-- A word: a value that no option takes. -/
def Scan.word (p : Place) (s : Scan) (arg : String) : Except UsageError Scan :=
  let room :=
    match p.maxWords with
    | none => true
    | some n => decide (s.given.words.length < n)
  if room then do
    let s ← s.settle
    .ok { s with given := { s.given with words := s.given.words ++ [arg] } }
  else .error .unknownArgument

/-- The next argument of a level. -/
def Scan.next (p : Place) (s : Scan) (arg : String) : Except UsageError Scan :=
  if s.onlyWords then s.word p arg
  else
    match arg.toList with
    | ['-', '-'] => .ok { s with onlyWords := true }
    | '-' :: '-' :: body => s.long p body
    | '-' :: c :: cs => s.letters p (c :: cs)
    | _ =>
      match s.pending with
      | some (opt, none) => .ok { s with pending := some (opt, some arg) }
      | _ => s.word p arg

/-- Give an option its value from the environment, if it was not given. -/
def fromEnvironment (given env : Given) (opt : Opt) : Option String → Except UsageError Given
  | none => .ok env
  | some text => if given.has opt then .ok env else env.put opt text

/-- The end of a level: what was given, and what the environment adds. -/
def Scan.finish (s : Scan) (e : OptionEnvironment) : Except UsageError (Given × Given) := do
  let s ← s.settle
  let env ← fromEnvironment s.given {} .scriptsDir e.scriptsDir
  let env ← fromEnvironment s.given env .entryPoint e.entryPoint
  let env ← fromEnvironment s.given env .onDoubleLoad e.doubleLoad
  .ok (s.given, env)

/-! ## The subcommand -/

/-- What can stand after a subcommand, and how many words must. -/
def subcommand? : String → Option (Place × Nat)
  | "run" => some (⟨[.intervalMs, .ticks], false, none⟩, 0)
  | "list" => some (⟨[], false, some 0⟩, 0)
  | "get" => some (⟨[.ticks], false, some 2⟩, 2)
  | "call" => some (⟨[.ticks], false, none⟩, 1)
  | "repl" => some (⟨[], false, some 0⟩, 0)
  | _ => none

/-- Read the arguments after a subcommand. -/
def readSubcommand (p : Place) (minWords : Nat) (e : OptionEnvironment) (args : List String) :
    Except UsageError (Given × Given) := do
  let scan ← args.foldlM (Scan.next p) {}
  let (given, env) ← scan.finish e
  if given.words.length < minWords then .error .missingRequiredArgument
  else .ok (given, env)

/-- What `help` shows: the help of a subcommand or of the program, if there is such a one. -/
def helpError : List String → UsageError
  | [] => .displayHelp
  | [name] =>
    if (subcommand? name).isSome || name == "help" then .displayHelp else .invalidSubcommand
  | _ => .invalidSubcommand

/-! ## The whole command line -/

/-- What can stand before the subcommand. -/
def topPlace : Place := ⟨[], true, some 0⟩

/-- The subcommand of a command line with what was given and what comes from the environment at its
level and at the one around it. -/
structure Reading where
  name : String
  inner : Given × Given
  outer : Given × Given

/-- Read the arguments before the subcommand and, at the subcommand, the rest. -/
def readTop (e : OptionEnvironment) (s : Scan) : List String → Except UsageError Reading
  | [] => do
    let (given, env) ← s.finish e
    if given == {} && env == {} then .error .displayHelpOnMissingArgumentOrSubcommand
    else .error .missingSubcommand
  | arg :: args =>
    let isWord := s.onlyWords || !arg.toList.head? == some '-' || arg == "-"
    if isWord && !(s.awaitsValue && !s.onlyWords) then
      if !s.onlyWords && arg == "help" then .error (helpError args)
      else
        match subcommand? arg with
        | some (p, minWords) =>
          if s.onlyWords then .error .unknownArgument
          else do
            let inner ← readSubcommand p minWords e args
            let outer ← s.finish e
            .ok ⟨arg, inner, outer⟩
        | none =>
          if s.onlyWords && arg == "help" then .error .unknownArgument
          else .error .invalidSubcommand
    else do readTop e (← s.next topPlace arg) args

/-- The value of an option: from the inner level, else the outer one, else the environment. -/
def Reading.pick {α : Type} (r : Reading) (field : Given → Option α) (default : α) : α :=
  ((field r.inner.1).or ((field r.outer.1).or ((field r.inner.2).or (field r.outer.2)))).getD
    default

/-- The task of a subcommand. -/
def Reading.task (r : Reading) : Task :=
  let given := r.inner.1
  match r.name, given.words with
  | "run", bundles => .run bundles (given.intervalMs.getD 50) given.ticks
  | "get", script :: path :: _ => .get script path (given.ticks.getD 0)
  | "call", command :: arguments => .call command arguments (given.ticks.getD 0)
  | "repl", _ => .repl
  | _, _ => .list

/-- The settings that a reading amounts to. -/
def Reading.settings (r : Reading) : Settings :=
  { task := r.task
    scriptsDir := r.pick Given.scriptsDir "scripts"
    entryPoint := r.pick Given.entryPoint "main.lua"
    doubleLoad := r.pick Given.doubleLoad .reject
    format := if r.inner.1.json || r.outer.1.json then .json else .human
    verbose := r.inner.1.verbose || r.outer.1.verbose
    logLevel := (r.inner.1.logLevel).or r.outer.1.logLevel }

end Arguments

/-- The settings of a command line, whose first word is the program's name. -/
def readArguments (argv : List String) (e : OptionEnvironment) : Except UsageError Settings :=
  (Arguments.readTop e {} (argv.drop 1)).map Arguments.Reading.settings

end ScriptHost
