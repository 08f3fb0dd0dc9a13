import ScriptHost.Guest.Value

/-!
# The names of native functions

Which functions the guest language's libraries hold, and under which names. `Native.qualifiedName?` is the
name that messages give a function whose call does not name it.
-/

namespace ScriptHost.Guest

/-- The base library. -/
def baseNames : List (String × BaseFn) := [
  ("assert", .assert), ("collectgarbage", .collectgarbage), ("error", .error),
  ("getmetatable", .getmetatable), ("ipairs", .ipairs), ("load", .load), ("next", .next),
  ("pairs", .pairs), ("pcall", .pcall), ("print", .print), ("rawequal", .rawequal),
  ("rawget", .rawget), ("rawlen", .rawlen), ("rawset", .rawset), ("select", .select),
  ("setmetatable", .setmetatable), ("tonumber", .tonumber), ("tostring", .tostring),
  ("type", .type), ("xpcall", .xpcall)]

/-- The string library. -/
def stringNames : List (String × StringFn) := [
  ("byte", .byte), ("char", .char), ("dump", .dump), ("find", .find), ("format", .format),
  ("gmatch", .gmatch), ("gsub", .gsub), ("len", .len), ("lower", .lower), ("match", .match),
  ("pack", .pack), ("packsize", .packsize), ("rep", .rep), ("reverse", .reverse), ("sub", .sub),
  ("unpack", .unpack), ("upper", .upper)]

/-- Arithmetic on strings, by its metamethods. -/
def stringArithNames : List (String × StringArith) := [
  ("__add", .add), ("__sub", .sub), ("__mul", .mul), ("__mod", .mod), ("__pow", .pow),
  ("__div", .div), ("__idiv", .idiv), ("__unm", .unm)]

/-- The table library. -/
def tableNames : List (String × TableFn) := [
  ("concat", .concat), ("insert", .insert), ("move", .move), ("pack", .pack), ("remove", .remove),
  ("sort", .sort), ("unpack", .unpack)]

/-- The mathematics library. -/
def mathNames : List (String × MathFn) := [
  ("abs", .abs), ("acos", .acos), ("asin", .asin), ("atan", .atan), ("atan2", .atan2),
  ("ceil", .ceil), ("cos", .cos), ("cosh", .cosh), ("deg", .deg), ("exp", .exp),
  ("floor", .floor), ("fmod", .fmod), ("frexp", .frexp), ("ldexp", .ldexp), ("log", .log),
  ("log10", .log10), ("max", .max), ("min", .min), ("modf", .modf), ("pow", .pow), ("rad", .rad),
  ("random", .random), ("randomseed", .randomseed), ("sin", .sin), ("sinh", .sinh),
  ("sqrt", .sqrt), ("tan", .tan), ("tanh", .tanh), ("tointeger", .tointeger), ("type", .type),
  ("ult", .ult)]

/-- The coroutine library. -/
def coroutineNames : List (String × CoroutineFn) := [
  ("close", .close), ("create", .create), ("isyieldable", .isyieldable), ("resume", .resume),
  ("running", .running), ("status", .status), ("wrap", .wrap), ("yield", .yield)]

/-- The library of encoded text. -/
def utf8Names : List (String × Utf8Fn) := [
  ("char", .char), ("codepoint", .codepoint), ("codes", .codes), ("len", .len),
  ("offset", .offset)]

/-- The clock library. -/
def clockNames : List (String × ClockFn) := [
  ("clock", .clock), ("date", .date), ("difftime", .difftime), ("time", .time)]

/-- The host's additions. -/
def utilNames : List (String × UtilFn) := [
  ("split", .split), ("trim", .trim), ("starts_with", .startsWith), ("ends_with", .endsWith),
  ("clamp", .clamp), ("round", .round)]

/-- The name of a function in a list. -/
def nameIn? {α : Type} [BEq α] (names : List (String × α)) (f : α) : Option String :=
  (names.find? fun entry => entry.2 == f).map Prod.fst

/-- The name of a function of the guest language's libraries, with its namespace. -/
def Native.qualifiedName? : Native → Option String
  | .base f => nameIn? baseNames f
  | .string f => (nameIn? stringNames f).map ("string." ++ ·)
  | .table f => (nameIn? tableNames f).map ("table." ++ ·)
  | .math f => (nameIn? mathNames f).map ("math." ++ ·)
  | .coroutine f => (nameIn? coroutineNames f).map ("coroutine." ++ ·)
  | .utf8 f => (nameIn? utf8Names f).map ("utf8." ++ ·)
  | .clock f => (nameIn? clockNames f).map ("os." ++ ·)
  | _ => none

end ScriptHost.Guest
