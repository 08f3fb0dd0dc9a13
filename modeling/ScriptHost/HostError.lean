import ScriptHost.GuestError

/-!
# Host errors

Why an operation of the host fails. `HostError.ofGuest` sorts an error of guest code by its cause:
source that is no chunk, a write to a frozen table, or any other failure.
-/

namespace ScriptHost

/-- Why an operation of the host fails. -/
inductive HostError where
  | parsing (script message : String)
  | execution (script message : String)
  | protection (script message : String)
  | notLoaded (script : String)
  | alreadyLoaded (script : String)
  | invalidName (text : String)
  | handleMisuse (text : String)
  | sharedObject (text : String)
  | command (text : String)
  | unknownCommand (name : String)
  | bundle (text : String)
  | host (text : String)
  | guest (error : GuestError)
  | files (text : String)
deriving Repr, DecidableEq

namespace HostError

/-- The wording of a host error. -/
def message : HostError → String
  | .parsing script text => s!"Parse error in script '{script}': {text}"
  | .execution script text => s!"Execution error in script '{script}': {text}"
  | .protection script text => s!"Protection violation in script '{script}': {text}"
  | .notLoaded script => s!"Script not loaded: {script}"
  | .alreadyLoaded script => s!"Script '{script}' is already loaded"
  | .invalidName text => s!"Invalid name: {text}"
  | .handleMisuse text => s!"Handle misuse: {text}"
  | .sharedObject text => s!"Shared object error: {text}"
  | .command text => s!"Command error: {text}"
  | .unknownCommand name => s!"Unknown command: {name}"
  | .bundle text => s!"Bundle error: {text}"
  | .host text => s!"Host error: {text}"
  | .guest error => s!"Lua error: {error.display}"
  | .files text => s!"IO error: {text}"

/-- The script that an error is about, if it names one. -/
def script? : HostError → Option String
  | .parsing script _ => some script
  | .execution script _ => some script
  | .protection script _ => some script
  | .notLoaded script => some script
  | .alreadyLoaded script => some script
  | _ => none

/-- Sort an error of guest code that ran on behalf of a script. -/
def ofGuest (script : String) (e : GuestError) : HostError :=
  match e with
  | .parsing message => .parsing script message
  | _ =>
    match e.base with
    | .raised (.violation key) => .protection script (Raised.violation key).message
    | _ => .execution script e.display

/-- The script of a sorted error is the one it ran for. -/
theorem script?_ofGuest (script : String) (e : GuestError) :
    (ofGuest script e).script? = some script := by
  unfold ofGuest
  split
  · rfl
  · split <;> rfl

end HostError

/-! ## Outcomes -/

/-- How one script fared in an operation on several. -/
structure Outcome where
  script : String
  success : Bool
  error : Option String
deriving Repr, DecidableEq

/-- The outcome that a result is. -/
def Outcome.ofResult (script : String) : Except HostError Unit → Outcome
  | .ok () => ⟨script, true, none⟩
  | .error e => ⟨script, false, some e.message⟩

end ScriptHost
