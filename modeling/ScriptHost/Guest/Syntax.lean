import ScriptHost.Guest.Number
import ScriptHost.Text.Utf8

/-!
# Syntax

Chunks of guest source as trees. Names are resolved: a variable is a local of its function, one of the
function's upvalues, or a field of the table that the variable `_ENV` holds. Locals have numbers that are
unique in their function.
-/

namespace ScriptHost.Guest

/-- A resolved variable. -/
inductive Variable where
  | inFrame (id : Nat) (name : String)
  | upvalue (index : Nat) (name : String)
deriving Repr, DecidableEq, Inhabited

/-- The name of a variable. -/
def Variable.name : Variable → String
  | .inFrame _ name => name
  | .upvalue _ name => name

/-- Where a closure takes an upvalue from when it is made: a local of the function around it, or one
of that function's upvalues. -/
inductive Capture where
  | inFrame (id : Nat)
  | upvalue (index : Nat)
deriving Repr, DecidableEq, Inhabited

/-- Comparisons. -/
inductive Comparison where
  | eq | ne | lt | le | gt | ge
deriving Repr, DecidableEq

/-- Operators with two operands that are both evaluated. -/
inductive BinaryOp where
  | arith (op : Arith)
  | concat
  | compare (op : Comparison)
deriving Repr, DecidableEq

/-- Operators with one operand. -/
inductive UnaryOp where
  | arith (op : Arith)
  | not
  | len
deriving Repr, DecidableEq

mutual

/-- An expression. Lines are those that messages name. -/
inductive Expr where
  | const (v : Value)
  | vararg
  | var (v : Variable)
  | index (line : Nat) (object key : Expr)
  | call (line : Nat) (function : Expr) (arguments : List Expr)
  | method (line nameLine : Nat) (object : Expr) (name : String) (arguments : List Expr)
  | function (line : Nat) (body : Body)
  | binary (line : Nat) (op : BinaryOp) (left right : Expr)
  | unary (line : Nat) (op : UnaryOp) (operand : Expr)
  | and (left right : Expr)
  | or (left right : Expr)
  | paren (inner : Expr)
  | table (line : Nat) (fields : List Field)

/-- A field of a table constructor. -/
inductive Field where
  | item (value : Expr)
  | pair (line : Nat) (key value : Expr)

/-- A statement. -/
inductive Stmt where
  | call (line : Nat) (e : Expr)
  | assign (line : Nat) (targets values : List Expr)
  | locals (line : Nat) (ids : List Nat) (values : List Expr)
  /-- A local function, which sees itself. -/
  | localFunction (line : Nat) (id : Nat) (body : Body)
  | block (body : List Stmt)
  | whileLoop (line : Nat) (condition : Expr) (body : List Stmt)
  | repeatLoop (line : Nat) (body : List Stmt) (condition : Expr)
  | branch (line : Nat) (condition : Expr) (yes no : List Stmt)
  /-- The first of the three hidden locals, and the loop's own variable. -/
  | numericFor (line : Nat) (hidden id : Nat) (first last : Expr) (step : Option Expr)
      (body : List Stmt)
  | genericFor (line : Nat) (hidden : Nat) (ids : List Nat) (values : List Expr) (body : List Stmt)
  | goto (line : Nat) (label : String)
  | label (name : String)
  | ret (line : Nat) (values : List Expr)

/-- The body of a function: the number of parameters, which are the first locals, whether it takes
more arguments than those, the number of locals, which locals closures capture, where its upvalues
come from, and its statements. -/
inductive Body where
  | mk (params : Nat) (isVararg : Bool) (locals : Nat) (captured : List Nat)
      (captures : List Capture) (block : List Stmt)

end

instance : Inhabited Expr := ⟨.const .nil⟩

instance : Inhabited Stmt := ⟨.block []⟩

instance : Inhabited Body := ⟨.mk 0 false 0 [] [] []⟩

/-! ## Names of expressions -/

/-- What messages say a value is: a kind and a name, such as a global and the global's name. -/
structure Described where
  kind : String
  name : String
deriving Repr, DecidableEq

/-- What messages say the value of an expression is, if they can say it. -/
def Expr.described? : Expr → Option Described
  | .const (.str b) => some ⟨"constant", Text.decodeLossy b⟩
  | .var (.inFrame _ name) => some ⟨"local", name⟩
  | .var (.upvalue _ name) => some ⟨"upvalue", name⟩
  | .index _ (.var v) key =>
    let kind := if v.name == "_ENV" then "global" else "field"
    match key with
    | .const (.str b) => some ⟨kind, Text.decodeLossy b⟩
    | .const (.int i) => some ⟨"field", if 0 ≤ i && i ≤ 255 then "integer index" else "?"⟩
    | _ => some ⟨kind, "?"⟩
  | .index _ _ key =>
    match key with
    | .const (.str b) => some ⟨"field", Text.decodeLossy b⟩
    | .const (.int i) => some ⟨"field", if 0 ≤ i && i ≤ 255 then "integer index" else "?"⟩
    | _ => some ⟨"field", "?"⟩
  | .paren inner => inner.described?
  | _ => none

/-- Whether an expression can give several values. -/
def Expr.isOpen : Expr → Bool
  | .vararg => true
  | .call .. => true
  | .method .. => true
  | _ => false

end ScriptHost.Guest
