import ScriptHost.Guest.Number
import ScriptHost.Text.Utf8

/-!
# Shown values

The short text of a value for people, in which a table or a function is only named by its kind.
-/

namespace ScriptHost.Guest

/-- The kind of a value in angle brackets. -/
def Value.placeholder (v : Value) : String := s!"<{v.kindName}>"

/-- The short text of a value. -/
def Value.display (v : Value) : String :=
  match v with
  | .nil => "nil"
  | .bool b => if b then "true" else "false"
  | .int i => toString i.toInt
  | .float x => Decimal.plain.write x
  | .str b => Text.decodeLossy b
  | v => v.placeholder

/-- The short texts of values, with tabs between them. -/
def displayAll (vs : List Value) : String := "\t".intercalate (vs.map Value.display)

/-- The name of a key: its short text, except that nil is only named by its kind. -/
def Value.keyText (v : Value) : String := if v.isNil then v.placeholder else v.display

end ScriptHost.Guest
