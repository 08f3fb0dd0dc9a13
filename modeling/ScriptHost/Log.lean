/-!
# The log

What the host reports while it works: records with a level, a target that tells which part of the
host or which script speaks, and a message. `MonadLog` is the ability to report.
-/

namespace ScriptHost

/-- How much a log record matters. -/
inductive Level where
  | error
  | warn
  | info
  | debug
  | trace
deriving Repr, DecidableEq

/-- The rank of a level: the more it matters, the smaller. -/
def Level.rank : Level → Nat
  | .error => 1
  | .warn => 2
  | .info => 3
  | .debug => 4
  | .trace => 5

/-- The name of a level. -/
def Level.name : Level → String
  | .error => "ERROR"
  | .warn => "WARN"
  | .info => "INFO"
  | .debug => "DEBUG"
  | .trace => "TRACE"

/-- A log record. -/
structure Record where
  level : Level
  target : String
  message : String
deriving Repr, DecidableEq

/-- Contexts in which records can be logged. -/
class MonadLog (m : Type → Type) where
  log : Record → m Unit

export MonadLog (log)

/-! ## Script loggers -/

/-- The target of a script's own records. -/
def scriptTarget (script : String) : String := "luna::script::" ++ script

/-- A record in the name of a script. -/
def scriptRecord (level : Level) (script message : String) : Record :=
  ⟨level, scriptTarget script, s!"[{script}] {message}"⟩

end ScriptHost
