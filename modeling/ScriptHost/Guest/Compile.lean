import ScriptHost.Guest.Code

/-!
# Compiling

Trees to instructions. While a function is compiled, jumps go to numbered marks; when its end is
reached, each mark's place is known and `Builder.finish` puts it in.
-/

namespace ScriptHost.Guest

/-- A function under construction, and the places of the marks met so far. -/
structure Builder where
  chunk : String
  captured : List Nat
  instrs : Array Instr := #[]
  lines : Array Nat := #[]
  children : Array Code := #[]
  marks : Array Nat := #[]

/-- Compiling changes a builder. -/
abbrev CompileM := StateM Builder

namespace Compile

/-- The marks of the labels that are visible, innermost first. -/
abbrev Labels := List (String × Nat)

/-- Add an instruction of a line. -/
def emit (line : Nat) (i : Instr) : CompileM Unit :=
  modify fun b => { b with instrs := b.instrs.push i, lines := b.lines.push line }

/-- A new mark without a place. -/
def newMark : CompileM Nat :=
  modifyGet fun b => (b.marks.size, { b with marks := b.marks.push 0 })

/-- The next instruction is the place of a mark. -/
def placeMark (mark : Nat) : CompileM Unit :=
  modify fun b => { b with marks := b.marks.set! mark b.instrs.size }

/-- Whether closures capture a local. -/
def isCaptured (id : Nat) : CompileM Bool := do pure ((← get).captured.contains id)

/-- Pop a value into a local that becomes active. -/
def declare (line id : Nat) : CompileM Unit := do
  emit line (if ← isCaptured id then .box id else .setLocal id)

/-- Push a variable's value. -/
def getVariable (line : Nat) (v : Variable) : CompileM Unit := do
  match v with
  | .inFrame id _ => emit line (if ← isCaptured id then .getBox id else .getLocal id)
  | .upvalue i _ => emit line (.getUpvalue i)

/-- Pop a value into a variable. -/
def setVariable (line : Nat) (v : Variable) : CompileM Unit := do
  match v with
  | .inFrame id _ => emit line (if ← isCaptured id then .setBox id else .setLocal id)
  | .upvalue i _ => emit line (.setUpvalue i)

/-- The jump targets of an instruction, moved from marks to places. -/
def placeTargets (marks : Array Nat) : Instr → Instr
  | .jump t => .jump (marks[t]?.getD 0)
  | .jumpFalse t => .jumpFalse (marks[t]?.getD 0)
  | .jumpAnd t => .jumpAnd (marks[t]?.getD 0)
  | .jumpOr t => .jumpOr (marks[t]?.getD 0)
  | .forPrepare hidden t => .forPrepare hidden (marks[t]?.getD 0)
  | .forStep hidden t => .forStep hidden (marks[t]?.getD 0)
  | .iterateTest hidden count t => .iterateTest hidden count (marks[t]?.getD 0)
  | i => i

/-- The finished function. -/
def finish (b : Builder) (params : Nat) (isVararg : Bool) (locals : Nat) (captures : List Capture) :
    Code :=
  { chunk := b.chunk
    params
    isVararg
    locals
    captures
    instrs := b.instrs.map (placeTargets b.marks)
    lines := b.lines
    children := b.children }

/-- The labels that stand directly in a block. -/
def ownLabels (block : List Stmt) : List String :=
  block.filterMap fun
    | .label name => some name
    | _ => none

/-- Marks for labels. -/
def markLabels (outer : Labels) : List String → CompileM Labels
  | [] => pure outer
  | name :: names => do
    let mark ← newMark
    markLabels ((name, mark) :: outer) names

/-- The items that a table constructor keeps on the stack before it stores them. -/
def itemsPerFlush : Nat := 50

/-- The number of items without a key, which tells how large a table will be. -/
def itemCount (fields : List Field) : Nat :=
  (fields.filter fun
    | .item _ => true
    | .pair .. => false).length

/-- How many values of an expression are wanted: one; a number of them, for an open expression; all of
them, beside the stack; or all of them as the results of the function. -/
inductive Want where
  | one
  | count (n : Nat)
  | all
  | results

/-- The number of values that are pushed; none is known in advance if all are wanted. -/
def Want.pushed? : Want → Option Nat
  | .one => some 1
  | .count n => some n
  | .all => none
  | .results => none

/-- A call of the function below its arguments. -/
def emitCall (line : Nat) (want : Want) (count : Nat) (isOpen : Bool) (what : Option Described) :
    CompileM Unit :=
  match want with
  | .results => emit line (.tailCall count isOpen what)
  | want => emit line (.call count isOpen want.pushed? what)

/-- Below an object, the object's method of a name. -/
def emitMethod (line : Nat) (name : String) (what : Option Described) : CompileM Unit := do
  emit line .dup
  emit line (.push (.ofText name))
  emit line (.index what)
  emit line .swap

/-- Push nils. -/
def pushNils : Nat → CompileM Unit
  | 0 => pure ()
  | n + 1 => do
    emit 0 (.push .nil)
    pushNils n

/-- Add the code of a function within this one, and push a closure of it. -/
def emitClosure (line : Nat) (child : Code) : CompileM Unit := do
  let index := (← get).children.size
  modify fun b => { b with children := b.children.push child }
  emit line (.closure index)

/-- Cells for the parameters that closures capture, `count` of them from `id` on. -/
def boxParameters (id : Nat) : Nat → CompileM Unit
  | 0 => pure ()
  | count + 1 => do
    if ← isCaptured id then
      emit 0 (.getLocal id)
      emit 0 (.box id)
    boxParameters (id + 1) count

/-- Pop values into locals that become active, the last one first. -/
def declareAll (line : Nat) : List Nat → CompileM Unit
  | [] => pure ()
  | id :: ids => do
    declareAll line ids
    declare line id

/-- Pop values into targets, the last one first. Of `places` targets that are fields `before` stand
before these targets, and `values` values belong to targets before these. -/
def storeAll (line places before values : Nat) : List Expr → CompileM Unit
  | [] => pure ()
  | .var v :: targets => do
    storeAll line places before (values + 1) targets
    setVariable line v
  | .index _ object _ :: targets => do
    storeAll line places (before + 1) (values + 1) targets
    emit line (.store (values + 2 * (places - 1 - before)) object.described?)
  | _ :: targets => storeAll line places before (values + 1) targets

/-- The number of targets that are fields. -/
def placeCount (targets : List Expr) : Nat :=
  (targets.filter fun
    | .var _ => false
    | _ => true).length

/-- Whether the results of a function are those of the last call it makes. -/
def isTailCall : List Expr → Bool
  | [.call ..] => true
  | [.method ..] => true
  | _ => false

mutual

/-- Push values of an expression; one that is not open has one value. -/
def expr (want : Want) : Expr → CompileM Unit
  | .const v => emit 0 (.push v)
  | .vararg => emit 0 (.vararg want.pushed?)
  | .var v => getVariable 0 v
  | .index line object key => do
    expr .one object
    expr .one key
    emit line (.index object.described?)
  | .call line function arguments => do
    expr .one function
    let (count, isOpen) ← exprs .all arguments
    emitCall line want count isOpen function.described?
  | .method line nameLine object name arguments => do
    expr .one object
    emitMethod nameLine name object.described?
    let (count, isOpen) ← exprs .all arguments
    emitCall line want (count + 1) isOpen (some ⟨"method", name⟩)
  | .function line body => do emitClosure line (← functionCode body)
  | .binary line op left right => do
    expr .one left
    expr .one right
    match op with
    | .arith op => emit line (.arith op left.described? right.described?)
    | .concat => emit line (.concat left.described? right.described?)
    | .compare op => emit line (.compare op)
  | .unary line op operand => do
    expr .one operand
    match op with
    | .arith op => emit line (.unary op operand.described?)
    | .not => emit line .not
    | .len => emit line (.len operand.described?)
  | .and left right => do
    let done ← newMark
    expr .one left
    emit 0 (.jumpAnd done)
    expr .one right
    placeMark done
  | .or left right => do
    let done ← newMark
    expr .one left
    emit 0 (.jumpOr done)
    expr .one right
    placeMark done
  | .paren inner => expr .one inner
  | .table line items => do
    emit line (.newTable (itemCount items))
    fields line 1 0 items

/-- Push the values of expressions; the last one may be open, with all its values wanted. Gives the
number of values on the stack. -/
def exprs (last : Want) : List Expr → CompileM (Nat × Bool)
  | [] => pure (0, false)
  | e :: es => do
    if es.isEmpty && e.isOpen then
      expr last e
      pure (0, true)
    else
      expr .one e
      let (count, isOpen) ← exprs last es
      pure (count + 1, isOpen)

/-- Push exactly `want` values: the values of expressions, without the spare ones or with nils. -/
def exactly (want : Nat) : List Expr → CompileM Unit
  | [] => pushNils want
  | e :: es => do
    if es.isEmpty && e.isOpen && 0 < want then expr (.count want) e
    else
      expr .one e
      if want = 0 then emit 0 (.drop 1)
      exactly (want - 1) es

/-- The fields of a table constructor: `next` is the index of the next item to be stored, and
`waiting` items are on the stack. -/
def fields (line : Nat) (next waiting : Nat) : List Field → CompileM Unit
  | [] => if waiting = 0 then pure () else emit line (.setItems next waiting false)
  | .pair pairLine key value :: rest => do
    expr .one key
    expr .one value
    emit pairLine (.setField waiting)
    fields line next waiting rest
  | .item e :: rest => do
    if rest.isEmpty && e.isOpen then
      expr .all e
      emit line (.setItems next waiting true)
    else
      expr .one e
      if waiting + 1 = itemsPerFlush then
        emit line (.setItems next (waiting + 1) false)
        fields line (next + waiting + 1) 0 rest
      else fields line next (waiting + 1) rest

/-- The code of a function within the chunk. -/
def functionCode : Body → CompileM Code
  | .mk params isVararg locals captured captures statements => do
    let outer ← get
    set ({ chunk := outer.chunk, captured } : Builder)
    boxParameters 0 params
    stmts (← markLabels [] (ownLabels statements)) statements
    emit 0 (.ret 0 false)
    let inner ← get
    set outer
    pure (finish inner params isVararg locals captures)

/-- Statements one after the other, within visible labels. -/
def stmts (labels : Labels) : List Stmt → CompileM Unit
  | [] => pure ()
  | s :: rest => do
    stmt labels s
    stmts labels rest

/-- One statement. -/
def stmt (labels : Labels) : Stmt → CompileM Unit
  | .call _ e => expr (.count 0) e
  | .assign line targets values => do
    prefixes targets
    exactly targets.length values
    let places := placeCount targets
    storeAll line places 0 0 targets
    if places = 0 then pure () else emit line (.drop (2 * places))
  | .locals line ids values => do
    exactly ids.length values
    declareAll line ids
  | .localFunction line id body => do
    emit line (.push .nil)
    declare line id
    emitClosure line (← functionCode body)
    setVariable line (.inFrame id "")
  | .block body => do stmts (← markLabels labels (ownLabels body)) body
  | .whileLoop line condition body => do
    let start ← newMark
    let done ← newMark
    placeMark start
    expr .one condition
    emit line (.jumpFalse done)
    stmts (← markLabels (("break", done) :: labels) (ownLabels body)) body
    emit line (.jump start)
    placeMark done
  | .repeatLoop line body condition => do
    let start ← newMark
    let done ← newMark
    placeMark start
    stmts (← markLabels (("break", done) :: labels) (ownLabels body)) body
    expr .one condition
    emit line (.jumpFalse start)
    placeMark done
  | .branch line condition yes no => do
    let otherwise ← newMark
    let done ← newMark
    expr .one condition
    emit line (.jumpFalse otherwise)
    stmts (← markLabels labels (ownLabels yes)) yes
    emit line (.jump done)
    placeMark otherwise
    stmts (← markLabels labels (ownLabels no)) no
    placeMark done
  | .numericFor line hidden id first last step body => do
    let start ← newMark
    let done ← newMark
    expr .one first
    expr .one last
    match step with
    | some e => expr .one e
    | none => emit line (.push (.int 1))
    emit line (.forPrepare hidden done)
    placeMark start
    declare line id
    stmts (← markLabels (("break", done) :: labels) (ownLabels body)) body
    emit line (.forStep hidden start)
    placeMark done
  | .genericFor line hidden ids values body => do
    let start ← newMark
    let done ← newMark
    exactly 4 values
    emit line (.drop 1)
    emit line (.setLocal (hidden + 2))
    emit line (.setLocal (hidden + 1))
    emit line (.setLocal hidden)
    placeMark start
    emit line (.iterate hidden ids.length)
    emit line (.iterateTest hidden ids.length done)
    declareAll line ids
    stmts (← markLabels (("break", done) :: labels) (ownLabels body)) body
    emit line (.jump start)
    placeMark done
  | .goto line name =>
    match labels.lookup name with
    | some mark => emit line (.jump mark)
    | none => pure ()
  | .label name =>
    match labels.lookup name with
    | some mark => placeMark mark
    | none => pure ()
  | .ret line values => do
    let (count, isOpen) ← exprs (if isTailCall values then .results else .all) values
    emit line (.ret count isOpen)

/-- Push the objects and keys of the targets that are fields. -/
def prefixes : List Expr → CompileM Unit
  | [] => pure ()
  | .index _ object key :: targets => do
    expr .one object
    expr .one key
    prefixes targets
  | _ :: targets => prefixes targets

end

/-- The code of a chunk. -/
def chunk (title : String) (body : Body) : Code :=
  (functionCode body |>.run { chunk := title, captured := [] }).1

end Compile

end ScriptHost.Guest
