import ScriptHost.Calendar
import ScriptHost.Commands
import ScriptHost.Json
import ScriptHost.Text.Blank

/-!
# Reports

What the program shows: how scripts fared, what there is, a variable's value, or a message. A report is
written for people (`Report.human`) or as a JSON document (`Report.json`).
-/

namespace ScriptHost

/-- Where a script is in its life. -/
inductive Phase where
  | unloaded
  | loading
  | loaded
  | unloading
deriving Repr, DecidableEq

/-- The name of a phase. -/
def Phase.name : Phase → String
  | .unloaded => "unloaded"
  | .loading => "loading"
  | .loaded => "loaded"
  | .unloading => "unloading"

/-- A loaded script, for listings. The folder is absent for a script that did not come from a
bundle. -/
structure ScriptSummary where
  name : String
  phase : Phase
  folder : Option String
  loadedAt : Timestamp
  tasks : Nat
  commands : List String

/-- A variable of a script; the value is absent if the path leads nowhere. -/
structure Variable where
  script : String
  path : String
  value : Option Json

/-- What the program shows. -/
inductive Report where
  | outcomes (items : List Outcome)
  | bundles (root : String) (names : List String)
  | scripts (items : List ScriptSummary)
  | commands (items : List Command)
  | variable (item : Variable)
  | message (text : String)

/-- The two written forms of a report. -/
inductive Format where
  | human
  | json
deriving Repr, DecidableEq

/-! ## Columns -/

/-- A text with blanks after it up to a width in characters. -/
def padRight (width : Nat) (s : String) : String := s.pushn ' ' (width - s.length)

/-- A text with blanks before it up to a width in characters. -/
def padLeft (width : Nat) (s : String) : String := "".pushn ' ' (width - s.length) ++ s

namespace Report

/-! ## For people -/

/-- The line of one outcome. -/
def outcomeLine (o : Outcome) : String :=
  match o.error with
  | none => s!"  ok      {o.script}\n"
  | some e => s!"  FAILED  {o.script}: {e}\n"

/-- The headings above listed scripts. -/
def scriptHeadings : String :=
  padRight 20 "NAME" ++ " " ++ padRight 10 "STATE" ++ " " ++ padLeft 5 "TASKS" ++ "  "
    ++ padRight 20 "LOADED" ++ " COMMANDS\n"

/-- The line of one script. The state stands as it is, whatever its width. -/
def scriptLine (s : ScriptSummary) : String :=
  padRight 20 s.name ++ " " ++ s.phase.name ++ " " ++ padLeft 5 (toString s.tasks) ++ "  "
    ++ padRight 20 s.loadedAt.plain ++ " " ++ ", ".intercalate s.commands ++ "\n"

/-- The line of one command. -/
def commandLine (c : Command) : String :=
  "  " ++ padRight 16 c.name ++ " " ++ padRight 16 s!"({c.owner})" ++ " "
    ++ c.description.getD "" ++ "\n"

/-- The texts one after the other, without blanks at the end. -/
def lines (texts : List String) : String := Text.trimEnd (String.join texts)

/-- The form for people. -/
def human : Report → String
  | .outcomes [] => "No scripts"
  | .outcomes items =>
    let failed := (items.filter fun o => !o.success).length
    String.join (items.map outcomeLine) ++ s!"\n{items.length} script(s), {failed} failed"
  | .bundles root names =>
    let title := s!"Bundles in {root}"
    let shown := if names.isEmpty then ["(none)"] else names.map fun name => s!"  {name}\n"
    lines ([title, "\n", "".pushn '-' title.utf8ByteSize, "\n"] ++ shown)
  | .scripts [] => "No scripts loaded"
  | .scripts items => lines (scriptHeadings :: items.map scriptLine)
  | .commands [] => "No commands registered"
  | .commands items => lines (items.map commandLine)
  | .variable item =>
    match item.value with
    | some (.str s) => s
    | some value => value.compact
    | none => s!"{item.script}: '{item.path}' is not set"
  | .message text => text

/-! ## As a document -/

/-- The object of an outcome. -/
def outcomeJson (o : Outcome) : Json :=
  .ofMembers [("script", .str o.script), ("success", .bool o.success),
    ("error", .ofOption o.error)]

/-- The object of a script. -/
def scriptJson (s : ScriptSummary) : Json :=
  .ofMembers [("name", .str s.name), ("state", .str s.phase.name), ("folder", .ofOption s.folder),
    ("loaded_at", .str s.loadedAt.rfc3339), ("tasks", .int s.tasks),
    ("commands", .arr (s.commands.map .str))]

/-- The object of a command. -/
def commandJson (c : Command) : Json :=
  .ofMembers [("name", .str c.name), ("owner", .str c.owner),
    ("description", .ofOption c.description)]

/-- The document of a report. -/
def document : Report → Json
  | .outcomes items => .ofMembers [("outcomes", .arr (items.map outcomeJson))]
  | .bundles root names =>
    .ofMembers [("root", .str root), ("bundles", .arr (names.map .str))]
  | .scripts items => .ofMembers [("scripts", .arr (items.map scriptJson))]
  | .commands items => .ofMembers [("commands", .arr (items.map commandJson))]
  | .variable item =>
    .ofMembers [("script", .str item.script), ("path", .str item.path),
      ("value", item.value.getD .null)]
  | .message text => .ofMembers [("message", .str text)]

/-- The report in a format. -/
def write (r : Report) : Format → String
  | .human => r.human
  | .json => r.document.pretty

end Report

end ScriptHost
