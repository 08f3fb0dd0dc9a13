import ScriptHost.HostError

/-!
# Script names

A script's name is also the name of its bundle folder and of its log target, so it is a non-empty
word of ASCII letters, digits, underscores and hyphens.
-/

namespace ScriptHost

/-- Characters that a script name may hold: ASCII letters, digits, underscore and hyphen. -/
def isNameChar (c : Char) : Bool := c.isAlphanum || c == '_' || c == '-'

/-- A script name is not empty and holds name characters only. -/
def isScriptName (name : String) : Bool :=
  !name.isEmpty && name.toList.all isNameChar

/-- The error of a name that is none. -/
def nameError (name : String) : HostError :=
  .invalidName s!"'{name}' (use letters, digits, '_' and '-')"

example : isScriptName "my-script_2" = true := by decide +kernel
example : isScriptName "a\n" = false := by decide +kernel
example : isScriptName "é" = false := by decide +kernel

end ScriptHost
