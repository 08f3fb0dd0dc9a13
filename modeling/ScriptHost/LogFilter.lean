import ScriptHost.Settings
import ScriptHost.Text.Blank
import ScriptHost.Text.Split

/-!
# Which log records are shown

A log specification is a list of directives with commas between them. A directive sets the level for the
targets that start with a name, or for all targets if it has no name; of the directives that match a target
the one with the longest name counts. After a slash may follow a text that messages must contain.

* `LogSpec.ofText`: reads a specification; what is wrong in it is skipped with a warning.
* `LogSpec.shows`: whether a record is shown.
* `Record.line`: a shown record.
-/

namespace ScriptHost

/-- The level for targets that start with a name. -/
structure Directive where
  target : String
  filter : LogFilter
deriving Repr, DecidableEq

/-- Directives in the order of the specification, and a text that messages must contain. -/
structure LogSpec where
  directives : List Directive
  within : Option String := none
deriving Repr, DecidableEq

namespace LogSpec

/-- One level for all targets. -/
def all (f : LogFilter) : LogSpec := ⟨[⟨"", f⟩], none⟩

/-! ## Reading -/

/-- Every level. -/
def everything : LogFilter := ⟨some .trace⟩

/-- A warning about a part of a specification. -/
def warning (part : String) : String :=
  s!"warning: invalid logging spec '{part}', ignoring it"

/-- The directive that a part of a specification writes. -/
def readDirective (part : String) : Except String Directive :=
  match Text.parts "=" part with
  | [name] =>
    match LogFilter.ofName? name with
    | some f => .ok ⟨"", f⟩
    | none => .ok ⟨name, everything⟩
  | [name, level] =>
    let level := Text.trim level
    match LogFilter.ofName? level with
    | some f => .ok ⟨name, f⟩
    | none => if level.isEmpty then .ok ⟨name, everything⟩ else .error (warning level)
  | _ => .error (warning part)

/-- Put a directive in place of one for the same targets, or at the end. -/
def addDirective (ds : List Directive) (d : Directive) : List Directive :=
  if ds.any fun old => old.target == d.target then
    ds.map fun old => if old.target == d.target then d else old
  else ds ++ [d]

/-- The directives of parts, and the warnings about them. -/
def readDirectives (parts : List String) : List Directive × List String :=
  parts.foldl (fun (ds, warnings) part =>
    let part := Text.trim part
    if part.isEmpty then (ds, warnings)
    else
      match readDirective part with
      | .ok d => (addDirective ds d, warnings)
      | .error w => (ds, warnings ++ [w])) ([], [])

/-- The specification that a text writes, and the warnings about it. -/
def ofText (s : String) : LogSpec × List String :=
  match Text.parts "/" s with
  | [directives] =>
    let (ds, warnings) := readDirectives (Text.parts "," directives)
    (⟨ds, none⟩, warnings)
  | [directives, within] =>
    let (ds, warnings) := readDirectives (Text.parts "," directives)
    (⟨ds, some within⟩, warnings)
  | _ =>
    (⟨[], none⟩,
      [s!"warning: invalid logging spec '{s}', ignoring it (too many '/'s)"])

/-! ## Records -/

/-- Whether a directive is about a target. -/
def Directive.matches (target : String) (d : Directive) : Bool := target.startsWith d.target

/-- The directive that counts for a target: of those that match, one with the longest name. -/
def directiveFor? (s : LogSpec) (target : String) : Option Directive :=
  s.directives.foldl (fun best d =>
    if Directive.matches target d then
      match best with
      | some b => if b.target.utf8ByteSize ≤ d.target.utf8ByteSize then some d else best
      | none => some d
    else best) none

/-- Whether a record is shown. Without any directive only errors are. -/
def shows (s : LogSpec) (r : Record) : Bool :=
  let filter :=
    if s.directives.isEmpty then some ⟨some .error⟩
    else (s.directiveFor? r.target).map fun d => d.filter
  match filter with
  | none => false
  | some f =>
    f.shows r.level &&
      match s.within with
      | some text => (Text.parts text r.message).length != 1 || text.isEmpty
      | none => true

end LogSpec

/-- A record as it is shown: the lines of a message after the first are indented. -/
def Record.line (r : Record) : String :=
  let level := r.level.name.pushn ' ' (5 - r.level.name.length)
  let message := "\n    ".intercalate (Text.parts "\n" r.message)
  s!"[{level} {r.target}] {message}"

end ScriptHost
