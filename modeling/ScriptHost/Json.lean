import ScriptHost.Decimal.Layout
import Std.Data.TreeMap

/-!
# JSON documents

The values of a JSON document, and its two written forms: `compact`, on one line, and `pretty`, with
one member or element a line and two blanks for each level. The members of an object are sorted by
name (`ofMembers`).
-/

namespace ScriptHost

/-- A JSON value. The members of an object stand in the order in which they are written. -/
inductive Json where
  | null
  | bool (b : Bool)
  | int (i : Int)
  | float (x : Float)
  | str (s : String)
  | arr (items : List Json)
  | obj (members : List (String × Json))
deriving Inhabited

namespace Json

/-- The object with the given members, sorted by name; of two members with one name the later one
counts. -/
def ofMembers (members : List (String × Json)) : Json :=
  .obj (members.foldl (fun m (k, v) => m.insert k v) (∅ : Std.TreeMap String Json)).toList

/-- A text or null. -/
def ofOption (s : Option String) : Json :=
  match s with
  | some s => .str s
  | none => .null

/-! ## Texts -/

/-- Two lower-case hexadecimal digits. -/
def hexByte (n : Nat) : String :=
  String.ofList [Nat.digitChar (n / 16 % 16), Nat.digitChar (n % 16)]

/-- A character as it stands between quotes. -/
def escapeChar (c : Char) : String :=
  if c == '"' then "\\\""
  else if c == '\\' then "\\\\"
  else if c == '\n' then "\\n"
  else if c == '\r' then "\\r"
  else if c == '\t' then "\\t"
  else if c.toNat == 8 then "\\b"
  else if c.toNat == 12 then "\\f"
  else if c.toNat < 0x20 then "\\u00" ++ hexByte c.toNat
  else c.toString

/-- Append a quoted text. -/
def writeText (out : String) (s : String) : String :=
  (s.foldl (fun out c =>
    if c.toNat < 0x20 || c == '"' || c == '\\' then out ++ escapeChar c else out.push c)
    (out.push '"')).push '"'

/-- Append a value that has no parts. -/
def writeScalar (out : String) : Json → String
  | .null => out ++ "null"
  | .bool true => out ++ "true"
  | .bool false => out ++ "false"
  | .int i => out ++ toString i
  | .float x => out ++ Decimal.json.write x
  | .str s => writeText out s
  | .arr _ => out
  | .obj _ => out

/-! ## The compact form -/

mutual

/-- Append the compact form of a value. -/
def writeCompact (out : String) : Json → String
  | .arr [] => out ++ "[]"
  | .arr (item :: items) => (writeItems (writeCompact (out.push '[') item) items).push ']'
  | .obj [] => out ++ "\x7b\x7d"
  | .obj ((name, value) :: members) =>
    (writeMembers (writeCompact ((writeText (out.push '\x7b') name).push ':') value)
      members).push '\x7d'
  | .null => writeScalar out .null
  | .bool b => writeScalar out (.bool b)
  | .int i => writeScalar out (.int i)
  | .float x => writeScalar out (.float x)
  | .str s => writeScalar out (.str s)

/-- Append elements, each after a comma. -/
def writeItems (out : String) : List Json → String
  | [] => out
  | item :: items => writeItems (writeCompact (out.push ',') item) items

/-- Append members, each after a comma. -/
def writeMembers (out : String) : List (String × Json) → String
  | [] => out
  | (name, value) :: members =>
    writeMembers (writeCompact ((writeText (out.push ',') name).push ':') value) members

end

/-- The value on one line, without blanks. -/
def compact (j : Json) : String := writeCompact "" j

/-! ## The pretty form -/

/-- Append a line break and the blanks of a level. -/
def writeBreak (out : String) (level : Nat) : String :=
  (out.push '\n') ++ "".pushn ' ' (2 * level)

mutual

/-- Append the pretty form of a value whose first line starts at a level. -/
def writePretty (level : Nat) (out : String) : Json → String
  | .arr [] => out ++ "[]"
  | .arr (item :: items) =>
    let first := writePretty (level + 1) (writeBreak (out.push '[') (level + 1)) item
    (writeBreak (writePrettyItems (level + 1) first items) level).push ']'
  | .obj [] => out ++ "\x7b\x7d"
  | .obj ((name, value) :: members) =>
    let label := writeText (writeBreak (out.push '\x7b') (level + 1)) name ++ ": "
    let first := writePretty (level + 1) label value
    (writeBreak (writePrettyMembers (level + 1) first members) level).push '\x7d'
  | .null => writeScalar out .null
  | .bool b => writeScalar out (.bool b)
  | .int i => writeScalar out (.int i)
  | .float x => writeScalar out (.float x)
  | .str s => writeScalar out (.str s)

/-- Append elements, each on lines of its own after a comma. -/
def writePrettyItems (level : Nat) (out : String) : List Json → String
  | [] => out
  | item :: items =>
    writePrettyItems level (writePretty level (writeBreak (out.push ',') level) item) items

/-- Append members, each on lines of its own after a comma. -/
def writePrettyMembers (level : Nat) (out : String) : List (String × Json) → String
  | [] => out
  | (name, value) :: members =>
    let label := writeText (writeBreak (out.push ',') level) name ++ ": "
    writePrettyMembers level (writePretty level label value) members

end

/-- The value with one member or element a line. -/
def pretty (j : Json) : String := writePretty 0 "" j

end Json

end ScriptHost
