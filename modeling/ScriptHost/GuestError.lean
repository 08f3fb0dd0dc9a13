import ScriptHost.Text.Blank
import ScriptHost.Text.Split

/-!
# Guest errors

What can go wrong while guest code runs on behalf of the host. An error starts at a cause and may
gain layers on its way out: each host function it passes adds a stack traceback, and a host may add
context.

* `GuestError.display`: the text of an error with all its layers.
* `GuestError.base`: the cause under the layers.
-/

namespace ScriptHost

/-- What a host function can raise that is not the guest language's own error. -/
inductive Raised where
  /-- A write to the frozen field with this name. -/
  | violation (key : String)
  | other (text : String)
deriving Repr, DecidableEq

/-- The wording of a raised cause. -/
def Raised.message : Raised → String
  | .violation key => s!"attempt to modify read-only field '{key}'"
  | .other text => text

/-- An error of guest code, as the host sees it. -/
inductive GuestError where
  /-- The source is not a chunk. -/
  | parsing (message : String)
  | runtime (text : String)
  | raised (cause : Raised)
  /-- Too many values for the guest's stack. -/
  | stackFull
  /-- A guest value that a host function cannot take. -/
  | conversion (source target : String) (detail : Option String)
  | wrongUserData
  /-- A host function's argument, by name or position, that is refused for a cause. -/
  | badArgument (function : Option String) (position : Nat) (name : Option String)
      (cause : GuestError)
  | callback (traceback : String) (cause : GuestError)
  | context (text : String) (cause : GuestError)
deriving Repr, DecidableEq, Inhabited

namespace GuestError

/-! ## Layers -/

/-- The cause under all layers. -/
def base : GuestError → GuestError
  | .callback _ cause => cause.base
  | .context _ cause => cause.base
  | e => e

/-- The first error that is no host function's layer. -/
def belowCallbacks : GuestError → GuestError
  | .callback _ cause => cause.belowCallbacks
  | e => e

/-- The traceback of the innermost of the host functions' layers at the front. -/
def innerTraceback? : GuestError → Option String
  | .callback traceback cause => some (cause.innerTraceback?.getD traceback)
  | _ => none

/-! ## Text -/

/-- The parts of `s` before and from the first occurrence of `p`. -/
def breakAt? (p : List Char) : List Char → Option (List Char × List Char)
  | [] => if p.isEmpty then some ([], []) else none
  | c :: s =>
    if p.isPrefixOf (c :: s) then some ([], c :: s)
    else (breakAt? p s).map fun (before, rest) => (c :: before, rest)

/-- A text without the copies of `p` at its start; `fuel` bounds their number. -/
def dropCopies (p : List Char) : Nat → List Char → List Char
  | 0, s => s
  | fuel + 1, s =>
    match Text.afterPrefix? p s with
    | some rest => dropCopies p fuel rest
    | none => s

/-- A traceback without its heading and the blanks around it. -/
def tracebackBody (traceback : String) : String :=
  Text.trim (String.ofList
    (dropCopies "stack traceback:".toList traceback.length traceback.toList))

/-- The traceback lines of an error whose outermost layer has the traceback `outer` and whose
innermost has `inner`: the frames that the outer layer saw are marked. -/
def tracebackText (outer : String) (inner : Option String) : String :=
  match inner with
  | none => Text.trimEnd outer ++ "\n"
  | some inner =>
    match breakAt? (tracebackBody outer).toList inner.toList with
    | some (before, rest) =>
      String.ofList before ++ ">" ++ Text.trimEnd (String.ofList rest) ++ "\n"
    | none => Text.trimEnd inner ++ "\n"

/-- The text of an error. `layered` holds the outermost traceback and the innermost one so far of the
host functions' layers just left. -/
def displayAfter : Option (String × Option String) → GuestError → String
  | none, .callback traceback cause => displayAfter (some (traceback, none)) cause
  | some (outer, _), .callback traceback cause => displayAfter (some (outer, some traceback)) cause
  | layered, e =>
    let text :=
      match e with
      | .parsing message => s!"syntax error: {message}"
      | .runtime text => s!"runtime error: {text}"
      | .raised cause => cause.message
      | .stackFull => "out of Lua stack, too many arguments to a Lua function or too many "
          ++ "return values from a callback"
      | .conversion source target detail =>
        let reason := match detail with
          | some d => s!" ({d})"
          | none => ""
        s!"error converting Lua {source} to {target}{reason}"
      | .wrongUserData => "userdata is not expected type"
      | .badArgument function position name cause =>
        let which := match name with
          | some n => s!"`{n}`"
          | none => s!"#{position}"
        let place := match function with
          | some f => s!" to `{f}`"
          | none => ""
        s!"bad argument {which}{place}: {displayAfter none cause}"
      | .context text cause => s!"{text}\n{displayAfter none cause}"
      | .callback _ cause => displayAfter none cause
    match layered with
    | none => text
    | some (outer, inner) => text ++ "\n" ++ tracebackText outer inner

/-- The text of an error with all its layers. -/
def display (e : GuestError) : String := displayAfter none e

end GuestError

end ScriptHost
