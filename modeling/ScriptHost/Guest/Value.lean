/-!
# Guest values

The values of the guest language, Lua 5.4. Strings are bytes. Tables, closures, coroutines and host
errors live in a heap, and a value holds their number there. Native functions and the objects that the
host hands to scripts are told apart by what they are.

* `Value`, `Key`: values, and the values that can index a table.
* `Value.toKey?`: the key that a value is. A floating-point number that is whole is the same key as the
  integer; nil and not-a-number are no keys.
* `Value.rawEquals`: the equality of the guest language.
-/

namespace ScriptHost.Guest

/-- The place of an object in its part of the heap. -/
abbrev Ref := Nat

/-! ## Native functions -/

/-- Functions of the base library. -/
inductive BaseFn where
  | assert | collectgarbage | error | getmetatable | ipairs | load | next | pairs | pcall | print
  | rawequal | rawget | rawlen | rawset | select | setmetatable | tonumber | tostring | type
  | xpcall
deriving Repr, DecidableEq, Hashable

/-- Functions of the string library. -/
inductive StringFn where
  | byte | char | dump | find | format | gmatch | gsub | len | lower | match | pack | packsize
  | rep | reverse | sub | unpack | upper
deriving Repr, DecidableEq, Hashable

/-- Arithmetic on strings that write numbers. -/
inductive StringArith where
  | add | sub | mul | mod | pow | div | idiv | unm
deriving Repr, DecidableEq, Hashable

/-- Functions of the table library. -/
inductive TableFn where
  | concat | insert | move | pack | remove | sort | unpack
deriving Repr, DecidableEq, Hashable

/-- Functions of the mathematics library. -/
inductive MathFn where
  | abs | acos | asin | atan | atan2 | ceil | cos | cosh | deg | exp | floor | fmod | frexp | ldexp
  | log | log10 | max | min | modf | pow | rad | random | randomseed | sin | sinh | sqrt | tan
  | tanh | tointeger | type | ult
deriving Repr, DecidableEq, Hashable

/-- Functions of the coroutine library. -/
inductive CoroutineFn where
  | close | create | isyieldable | resume | running | status | wrap | yield
deriving Repr, DecidableEq, Hashable

/-- Functions of the text-encoding library. -/
inductive Utf8Fn where
  | char | codepoint | codes | len | offset
deriving Repr, DecidableEq, Hashable

/-- Functions of the clock library. -/
inductive ClockFn where
  | clock | date | difftime | time
deriving Repr, DecidableEq, Hashable

/-- Helpers that the host adds to the shared environment. -/
inductive UtilFn where
  | split | trim | startsWith | endsWith | clamp | round
deriving Repr, DecidableEq, Hashable

/-- Methods of a script's control object. -/
inductive ControlMethod where
  | onLoad | onUnload | registerCommand | share | unshare
deriving Repr, DecidableEq, Hashable

/-- Methods of a script's logger. -/
inductive LoggerMethod where
  | debug | info | warn | error
deriving Repr, DecidableEq, Hashable

/-- Methods of a script's scheduler object. -/
inductive SchedulerMethod where
  | run | runAsync | runLater | runLaterAsync | runRepeating | runRepeatingAsync | cancel | pending
deriving Repr, DecidableEq, Hashable

/-- The native functions. Some carry what they were made for: a table, a coroutine, a script. -/
inductive Native where
  | base (f : BaseFn)
  | string (f : StringFn)
  | stringArith (f : StringArith)
  | table (f : TableFn)
  | math (f : MathFn)
  | coroutine (f : CoroutineFn)
  | utf8 (f : Utf8Fn)
  | clock (f : ClockFn)
  | util (f : UtilFn)
  | control (f : ControlMethod)
  | logger (f : LoggerMethod)
  | scheduler (f : SchedulerMethod)
  | taskCancel
  /-- The iteration step of `ipairs`. -/
  | ipairsStep
  /-- The iteration step of the code points of a string. -/
  | codesStep
  /-- The iteration step of the matches of a pattern; its state is a cell. -/
  | gmatchStep (state : Ref)
  /-- Resumes a coroutine and passes its errors on. -/
  | wrapped (thread : Ref)
  /-- Refuses a write to a frozen table. -/
  | refuseWrite
  /-- The length of the table behind a frozen one. -/
  | frozenLength (behind : Ref)
  /-- Iteration over the table behind a frozen one. -/
  | frozenPairs (behind : Ref)
  /-- What a name means that a script's own globals do not have. -/
  | resolve
  /-- Logs in the name of a script. -/
  | print (script : String) (serial : Nat)
  /-- Reads a module of a bundle folder. -/
  | readModule (folder : Option String) (serial : Nat)
  /-- Does nothing. -/
  | idle
deriving Repr, DecidableEq, Hashable

/-! ## Values -/

/-- The objects that the host hands to scripts. -/
inductive HostObject where
  /-- The control object with this number. -/
  | control (number : Nat)
  | logger (script : String) (serial : Nat)
  | scheduler (script : String) (serial : Nat)
  /-- A task of a script. -/
  | task (id : Nat) (script : String)
  /-- An error that a host function raised, by its place among those. -/
  | failure (ref : Ref)
deriving Repr, DecidableEq, Hashable

section

/-- Strings are compared by the bytes they hold. -/
local instance (priority := 2000) decidableEqBytes : DecidableEq ByteArray := ByteArray.instDecidableEq

/-- A value of the guest language. -/
inductive Value where
  | nil
  | bool (b : Bool)
  | int (i : Int64)
  | float (x : Float)
  | str (s : ByteArray)
  | table (ref : Ref)
  | closure (ref : Ref)
  | native (f : Native)
  | thread (ref : Ref)
  | object (o : HostObject)
  /-- An address without a meaning. -/
  | light
deriving DecidableEq, Inhabited

/-- A value that can index a table. Numbers that are not whole are given by their bits. -/
inductive Key where
  | bool (b : Bool)
  | int (i : Int64)
  | float (bits : UInt64)
  | str (s : ByteArray)
  | table (ref : Ref)
  | closure (ref : Ref)
  | native (f : Native)
  | thread (ref : Ref)
  | object (o : HostObject)
  | light
deriving DecidableEq, Hashable

end

/-! ## Numbers as keys -/

/-- The integer that a floating-point number is, if it is one. -/
def wholeInt? (x : Float) : Option Int64 :=
  if (-9223372036854775808.0 : Float) ≤ x && x < (9223372036854775808.0 : Float) then
    let i := x.toInt64
    if i.toFloat == x then some i else none
  else none

/-- The key that a value is. -/
def Value.toKey? : Value → Option Key
  | .nil => none
  | .bool b => some (.bool b)
  | .int i => some (.int i)
  | .float x =>
    match wholeInt? x with
    | some i => some (.int i)
    | none => if x.isNaN then none else some (.float x.toBits)
  | .str s => some (.str s)
  | .table r => some (.table r)
  | .closure r => some (.closure r)
  | .native f => some (.native f)
  | .thread r => some (.thread r)
  | .object o => some (.object o)
  | .light => some .light

/-- The value that a key stands for. -/
def Key.toValue : Key → Value
  | .bool b => .bool b
  | .int i => .int i
  | .float bits => .float (Float.ofBits bits)
  | .str s => .str s
  | .table r => .table r
  | .closure r => .closure r
  | .native f => .native f
  | .thread r => .thread r
  | .object o => .object o
  | .light => .light

/-! ## Questions about values -/

/-- Whether a value is nil. -/
def Value.isNil : Value → Bool
  | .nil => true
  | _ => false

/-- Whether a value counts as true: all but nil and false. -/
def Value.truthy : Value → Bool
  | .nil => false
  | .bool b => b
  | _ => true

/-- Whether a value is a function. -/
def Value.isFunction : Value → Bool
  | .closure _ => true
  | .native _ => true
  | _ => false

/-- Equality without metamethods. An integer and a floating-point number are equal if they are the
same number. -/
def Value.rawEquals (a b : Value) : Bool :=
  match a, b with
  | .nil, .nil => true
  | .bool x, .bool y => x == y
  | .int x, .int y => x == y
  | .float x, .float y => x == y
  | .int x, .float y => wholeInt? y == some x
  | .float x, .int y => wholeInt? x == some y
  | .str x, .str y => x == y
  | .table x, .table y => x == y
  | .closure x, .closure y => x == y
  | .native x, .native y => x == y
  | .thread x, .thread y => x == y
  | .object x, .object y => x == y
  | .light, .light => true
  | _, _ => false

/-- The type of a value, as the guest language names it. -/
def Value.typeName : Value → String
  | .nil => "nil"
  | .bool _ => "boolean"
  | .int _ => "number"
  | .float _ => "number"
  | .str _ => "string"
  | .table _ => "table"
  | .closure _ => "function"
  | .native _ => "function"
  | .thread _ => "thread"
  | .object _ => "userdata"
  | .light => "userdata"

/-- The name of an object's type, which the guest sees in messages; host errors have none. -/
def HostObject.typeName? : HostObject → Option String
  | .control _ => some "ScriptControl"
  | .logger .. => some "ScriptLogger"
  | .scheduler .. => some "SchedulerApi"
  | .task .. => some "TaskRef"
  | .failure _ => none

/-- The kind of a value, as the host names it: numbers are told apart, and so are host errors. -/
def Value.kindName : Value → String
  | .nil => "nil"
  | .bool _ => "boolean"
  | .int _ => "integer"
  | .float _ => "number"
  | .str _ => "string"
  | .table _ => "table"
  | .closure _ => "function"
  | .native _ => "function"
  | .thread _ => "thread"
  | .object (.failure _) => "error"
  | .object _ => "userdata"
  | .light => "lightuserdata"

/-- The string with the bytes of a text. -/
def Value.ofText (s : String) : Value := .str s.toUTF8

/-- A text or nil. -/
def Value.ofText? (s : Option String) : Value :=
  match s with
  | some s => .ofText s
  | none => .nil

end ScriptHost.Guest
