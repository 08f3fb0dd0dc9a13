import ScriptHost.Guest.Sandbox
import ScriptHost.Program

/-!
# The command line

The program on the files whose names standard input lists, one a line, as `find scripts` prints them. Reports
go to standard output, log records and errors to standard error.
-/

namespace ScriptHost

/-- A file tree with what a name stands for: a file, or a folder if no file can be read. -/
def addNamed (t : FileTree) (name : String) : IO FileTree := do
  try
    pure (t.write name (← IO.FS.readBinFile name))
  catch _ =>
    pure (t.makeFolder name)

/-- The file tree whose names a stream lists. -/
partial def readTree (input : IO.FS.Stream) (t : FileTree) : IO FileTree := do
  let line ← input.getLine
  if line.isEmpty then pure t
  else
    let name := (line.dropEndWhile fun c => c == '\n' || c == '\r').toString
    readTree input (← if name.isEmpty then pure t else addNamed t name)

/-- The environment variables that the program knows. -/
def readEnvironment : IO ProgramEnvironment := do
  let options : OptionEnvironment := ⟨← IO.getEnv "LUNA_SCRIPTS_DIR", ← IO.getEnv "LUNA_ENTRY_POINT",
    ← IO.getEnv "LUNA_DOUBLE_LOAD"⟩
  pure ⟨options, ← IO.getEnv "RUST_LOG"⟩

end ScriptHost

open ScriptHost in
/-- Run the program; gives its exit code. -/
def main (arguments : List String) : IO UInt32 := do
  let (bindings, heap) := Guest.defaultBindings Guest.Heap.start
  let files ← readTree (← IO.getStdin) {}
  let host := { Guest.newHost heap bindings with files }
  let r := runProgram Guest.interpreter host Guest.programVersion ("luna" :: arguments)
    (← readEnvironment)
  IO.print r.output
  IO.eprint r.errors
  pure r.code.toUInt32
