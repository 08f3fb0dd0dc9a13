import ScriptHost.Guest.Scope
import ScriptHost.Guest.Token

/-!
# Parsing

Guest source to trees. `parseChunk` reads a whole chunk; its errors are texts with the chunk's name and
the line, as the guest language words them.

The line that a message names for an index or a call is that of the token after which the value is
taken, so expressions get their lines from the parser where their value is used (`settled`).
-/

namespace ScriptHost.Guest

/-! ## Chunk names -/

/-- A chunk's name in messages. A name after `=` stands as it is and one after `@` is a file's; both are
shortened to fit sixty bytes. Anything else is source itself. -/
def chunkTitle (name : String) : String :=
  let bytes := name.toUTF8
  let text (b : ByteArray) : String := Text.decodeLossy b
  match name.toList with
  | '=' :: _ => if bytes.size < 60 then text (bytes.extract 1 bytes.size) else text (bytes.extract 1 60)
  | '@' :: _ =>
    if bytes.size < 60 then text (bytes.extract 1 bytes.size)
    else "..." ++ text (bytes.extract (bytes.size - 56) bytes.size)
  | cs =>
    let firstLine := String.ofList (cs.takeWhile (· != '\n'))
    if firstLine.length == cs.length && bytes.size < 45 then "[string \"" ++ name ++ "\"]"
    else
      let shown := text (firstLine.toUTF8.extract 0 (min firstLine.utf8ByteSize 45))
      "[string \"" ++ shown ++ "...\"]"

/-! ## State -/

/-- The tokens not read yet, the line of the last one read, and the functions around. -/
structure ParseState where
  chunk : String
  current : Lexeme
  rest : List Lexeme
  lastLine : Nat := 1
  scopes : List FunctionScope := []

/-- Parsing: a state, and an error text. -/
abbrev ParserM := StateT ParseState (Except String)

namespace Parse

/-- Fail at the current line. -/
def failHere {α : Type} (message : String) : ParserM α := do
  let s ← get
  throw s!"{s.chunk}:{s.current.line}: {message}"

/-- Fail at the current token, which the message names. -/
def failNear {α : Type} (message : String) : ParserM α := do
  failHere (nearMessage message (← get).current.near)

/-- The symbol or reserved word that the current token is; empty for others. -/
def word : ParserM String := do
  match (← get).current.token with
  | .word s => pure s
  | _ => pure ""

/-- Whether the current token is a word. -/
def sees (w : String) : ParserM Bool := do pure ((← word) == w)

/-- The line of the current token. -/
def line : ParserM Nat := do pure (← get).current.line

/-- Move on to the next token. -/
def advance : ParserM Unit := do
  let s ← get
  match s.rest with
  | [] => pure ()
  | next :: rest =>
    set { s with current := next, rest, lastLine := s.current.line }
    match next.token with
    | .bad message => failHere message
    | _ => pure ()

/-- Move past a word if it is the current token. -/
def accept (w : String) : ParserM Bool := do
  if ← sees w then
    advance
    pure true
  else pure false

/-- Move past a word that must be the current token. -/
def expect (w : String) : ParserM Unit := do
  if ← accept w then pure () else failNear s!"'{w}' expected"

/-- Move past a word that closes what another one opened on a line. -/
def expectClose (w opening : String) (openLine : Nat) : ParserM Unit := do
  if ← accept w then pure ()
  else if (← line) == openLine then failNear s!"'{w}' expected"
  else failNear s!"'{w}' expected (to close '{opening}' at line {openLine})"

/-- A name. -/
def name : ParserM String := do
  match (← get).current.token with
  | .name s =>
    advance
    pure s
  | _ => failNear "<name> expected"

/-! ## Names -/

/-- The innermost function. -/
def scope : ParserM FunctionScope := do pure ((← get).scopes.headD default)

/-- Change the innermost function. -/
def setScope (f : FunctionScope) : ParserM Unit :=
  modify fun s => { s with scopes := f :: s.scopes.drop 1 }

/-- Change the innermost function, or fail at the current line. -/
def changeScope (change : FunctionScope → Except String FunctionScope) : ParserM Unit := do
  match change (← scope) with
  | .ok f => setScope f
  | .error message => failHere message

/-- The most locals that can be active in a function. -/
def maxLocals : Nat := 200

/-- A number for a new local; `waiting` more have one and are not active yet. -/
def newLocal (waiting : Nat) : ParserM Nat := do
  let f ← scope
  if maxLocals < f.active.length + waiting + 1 then
    let place := if f.line == 0 then "main function" else s!"function at line {f.line}"
    failNear s!"too many local variables (limit is {maxLocals}) in {place}"
  else
    let (id, f) := f.newId
    setScope f
    pure id

/-- Make a local active. -/
def activate (name : String) (id : Nat) (readonly : Bool) : ParserM Unit :=
  changeScope fun f => .ok (f.activate ⟨name, id, readonly⟩)

/-- The variable that a name means, and whether it is readonly. -/
def findVariable (name : String) : ParserM (Option (Variable × Bool)) := do
  let s ← get
  let (found, scopes) := FunctionScope.resolve name s.scopes
  set { s with scopes }
  pure found

/-- The expression that a name stands for. -/
def nameExpr (line : Nat) (name : String) : ParserM Expr := do
  match ← findVariable name with
  | some (v, _) => pure (.var v)
  | none =>
    match ← findVariable "_ENV" with
    | some (v, _) => pure (.index line (.var v) (.const (.ofText name)))
    | none => pure (.const .nil)

/-- Refuse an assignment to a constant. -/
def checkAssignable (target : Expr) : ParserM Unit := do
  match target with
  | .var v =>
    match ← findVariable v.name with
    | some (_, true) => failHere s!"attempt to assign to const variable '{v.name}'"
    | _ => pure ()
  | _ => pure ()

/-! ## Values in use -/

/-- The expression with the line on which its value is taken: that of the last token read. -/
def settled (e : Expr) : ParserM Expr := do
  match e with
  | .index _ object key => pure (.index (← get).lastLine object key)
  | e => pure e

/-! ## Operators -/

/-- A binary operator: what it does, and how strongly it binds to the left and to the right. -/
inductive Infix where
  | op (op : BinaryOp)
  | and
  | or

/-- The binary operator of a symbol with its two binding strengths. -/
def infix? : String → Option (Infix × Nat × Nat)
  | "or" => some (.or, 1, 1)
  | "and" => some (.and, 2, 2)
  | "<" => some (.op (.compare .lt), 3, 3)
  | ">" => some (.op (.compare .gt), 3, 3)
  | "<=" => some (.op (.compare .le), 3, 3)
  | ">=" => some (.op (.compare .ge), 3, 3)
  | "~=" => some (.op (.compare .ne), 3, 3)
  | "==" => some (.op (.compare .eq), 3, 3)
  | "|" => some (.op (.arith .bor), 4, 4)
  | "~" => some (.op (.arith .bxor), 5, 5)
  | "&" => some (.op (.arith .band), 6, 6)
  | "<<" => some (.op (.arith .shl), 7, 7)
  | ">>" => some (.op (.arith .shr), 7, 7)
  | ".." => some (.op .concat, 9, 8)
  | "+" => some (.op (.arith .add), 10, 10)
  | "-" => some (.op (.arith .sub), 10, 10)
  | "*" => some (.op (.arith .mul), 11, 11)
  | "/" => some (.op (.arith .div), 11, 11)
  | "//" => some (.op (.arith .idiv), 11, 11)
  | "%" => some (.op (.arith .mod), 11, 11)
  | "^" => some (.op (.arith .pow), 14, 13)
  | _ => none

/-- The unary operator of a symbol. -/
def unary? : String → Option UnaryOp
  | "not" => some .not
  | "-" => some (.arith .unm)
  | "~" => some (.arith .bnot)
  | "#" => some .len
  | _ => none

/-- How strongly unary operators bind. -/
def unaryStrength : Nat := 12

/-- The expression of a binary operator; a minus before a numeral and the like are not computed here. -/
def Infix.build (i : Infix) (line : Nat) (left right : Expr) : Expr :=
  match i with
  | .op o => .binary line o left right
  | .and => .and left right
  | .or => .or left right

/-- Whether the current token ends a block. -/
def endsBlock (untilToo : Bool) : ParserM Bool := do
  match (← get).current.token with
  | .eof => pure true
  | .word w => pure (w == "else" || w == "elseif" || w == "end" || (untilToo && w == "until"))
  | _ => pure false

/-- An attribute after a local's name; tells whether the local is readonly. -/
def localAttribute : ParserM Bool := do
  if ← accept "<" then
    let attr ← name
    expect ">"
    if attr == "const" || attr == "close" then pure true
    else failHere s!"unknown attribute '{attr}'"
  else pure false

/-- Mark the last of several expressions as settled where they are used. -/
def settleLast : List Expr → ParserM (List Expr)
  | [] => pure []
  | [e] => do pure [← settled e]
  | e :: es => do pure (e :: (← settleLast es))

/-- The error of source that is nested too deeply. -/
def tooDeep {α : Type} : ParserM α := failHere "chunk has too many syntax levels"

/-! ## The grammar -/

mutual

/-- An expression whose operators bind more strongly than a limit; `fuel` bounds the nesting. -/
def expr : Nat → Nat → ParserM Expr
  | 0, _ => tooDeep
  | fuel + 1, limit => do
    let opLine ← line
    match unary? (← word) with
    | some op =>
      advance
      let operand ← settled (← expr fuel unaryStrength)
      operators fuel limit (.unary opLine op operand)
    | none => operators fuel limit (← simple fuel)

/-- Binary operators after their left operand. -/
def operators : Nat → Nat → Expr → ParserM Expr
  | 0, _, _ => tooDeep
  | fuel + 1, limit, left => do
    match infix? (← word) with
    | some (i, leftStrength, rightStrength) =>
      if limit < leftStrength then
        let opLine ← line
        advance
        let left ← settled left
        let right ← settled (← expr fuel rightStrength)
        operators fuel limit (i.build opLine left right)
      else pure left
    | none => pure left

/-- An expression without operators. -/
def simple : Nat → ParserM Expr
  | 0 => tooDeep
  | fuel + 1 => do
    match (← get).current.token with
    | .number v =>
      advance
      pure (.const v)
    | .str b =>
      advance
      pure (.const (.str b))
    | .word "nil" =>
      advance
      pure (.const .nil)
    | .word "true" =>
      advance
      pure (.const (.bool true))
    | .word "false" =>
      advance
      pure (.const (.bool false))
    | .word "..." =>
      if (← scope).isVararg then
        advance
        pure .vararg
      else failNear "cannot use '...' outside a vararg function"
    | .word "\x7b" => table fuel
    | .word "function" =>
      let start ← line
      advance
      function fuel false start
    | _ => suffixed fuel

/-- A name or an expression in parentheses. -/
def primary : Nat → ParserM Expr
  | 0 => tooDeep
  | fuel + 1 => do
    match (← get).current.token with
    | .name s =>
      let start ← line
      advance
      nameExpr start s
    | .word "(" =>
      let start ← line
      advance
      let e ← expr fuel 0
      expectClose ")" "(" start
      pure (.paren (← settled e))
    | _ => failNear "unexpected symbol"

/-- A primary expression with indices and calls after it. -/
def suffixed : Nat → ParserM Expr
  | 0 => tooDeep
  | fuel + 1 => do suffixes fuel (← primary fuel)

/-- Indices and calls. -/
def suffixes : Nat → Expr → ParserM Expr
  | 0, _ => tooDeep
  | fuel + 1, e => do
    match (← get).current.token with
    | .word "." =>
      let e ← settled e
      advance
      let field ← name
      suffixes fuel (.index (← get).lastLine e (.const (.ofText field)))
    | .word "[" =>
      let e ← settled e
      advance
      let key ← settled (← expr fuel 0)
      expect "]"
      suffixes fuel (.index (← get).lastLine e key)
    | .word ":" =>
      advance
      let field ← name
      let e ← settled e
      let nameLine := (← get).lastLine
      let callLine ← line
      let args ← arguments fuel
      suffixes fuel (.method callLine nameLine e field args)
    | .word "(" => callSuffix fuel e
    | .word "\x7b" => callSuffix fuel e
    | .str _ => callSuffix fuel e
    | _ => pure e

/-- A call after the called expression. -/
def callSuffix : Nat → Expr → ParserM Expr
  | 0, _ => tooDeep
  | fuel + 1, e => do
    let e ← settled e
    let callLine ← line
    let args ← arguments fuel
    suffixes fuel (.call callLine e args)

/-- The arguments of a call. -/
def arguments : Nat → ParserM (List Expr)
  | 0 => tooDeep
  | fuel + 1 => do
    match (← get).current.token with
    | .str b =>
      advance
      pure [.const (.str b)]
    | .word "\x7b" => pure [← table fuel]
    | .word "(" =>
      let start ← line
      advance
      if ← accept ")" then pure []
      else
        let args ← exprs fuel
        expectClose ")" "(" start
        settleLast args
    | _ => failNear "function arguments expected"

/-- One or more expressions. The last one is not settled yet. -/
def exprs : Nat → ParserM (List Expr)
  | 0 => tooDeep
  | fuel + 1 => do
    let e ← expr fuel 0
    if ← accept "," then
      let e ← settled e
      pure (e :: (← exprs fuel))
    else pure [e]

/-- A table constructor. -/
def table : Nat → ParserM Expr
  | 0 => tooDeep
  | fuel + 1 => do
    let start ← line
    expect "\x7b"
    let items ← fields fuel
    expectClose "\x7d" "\x7b" start
    match items.reverse with
    | .item e :: before => pure (.table start ((.item (← settled e) :: before).reverse))
    | _ => pure (.table start items)

/-- The fields of a table constructor. -/
def fields : Nat → ParserM (List Field)
  | 0 => tooDeep
  | fuel + 1 => do
    if ← sees "\x7d" then pure []
    else
      let item ← field fuel
      let more ← if ← accept "," then pure true else accept ";"
      if more then
        let item ← match item with
          | .item e => do pure (.item (← settled e))
          | item => pure item
        pure (item :: (← fields fuel))
      else pure [item]

/-- One field of a table constructor. -/
def field : Nat → ParserM Field
  | 0 => tooDeep
  | fuel + 1 => do
    let s ← get
    let isPair := match s.current.token, s.rest with
      | .name _, next :: _ =>
        match next.token with
        | .word "=" => true
        | _ => false
      | _, _ => false
    if isPair then
      let key ← name
      expect "="
      let value ← settled (← expr fuel 0)
      pure (.pair (← get).lastLine (.const (.ofText key)) value)
    else if ← sees "[" then
      advance
      let key ← settled (← expr fuel 0)
      expect "]"
      expect "="
      let value ← settled (← expr fuel 0)
      pure (.pair (← get).lastLine key value)
    else pure (.item (← expr fuel 0))

/-- Parameters after the opening parenthesis: their number; the last may stand for all arguments that
are left. -/
def parameters : Nat → Nat → ParserM Nat
  | 0, _ => tooDeep
  | fuel + 1, count => do
    match (← get).current.token with
    | .name s =>
      advance
      let id ← newLocal 0
      activate s id false
      if ← accept "," then parameters fuel (count + 1) else pure (count + 1)
    | .word "..." =>
      advance
      changeScope fun f => .ok { f with isVararg := true }
      pure count
    | _ => failNear "<name> or '...' expected"

/-- A function from its parameters on. A method has a first parameter for its object. -/
def function : Nat → Bool → Nat → ParserM Expr
  | 0, _, _ => tooDeep
  | fuel + 1, isMethod, start => do
    let opened : FunctionScope := { line := start, isVararg := false }
    modify fun s => { s with scopes := opened.enterBlock false :: s.scopes }
    expect "("
    if isMethod then
      let id ← newLocal 0
      activate "self" id false
    let own := if isMethod then 1 else 0
    let count ← if ← sees ")" then pure own else parameters fuel own
    expect ")"
    let body ← block fuel
    expectClose "end" "function" start
    changeScope FunctionScope.leaveBlock
    let f ← scope
    modify fun s => { s with scopes := s.scopes.drop 1 }
    let captures := f.upvalues.reverse.map ScopeUpvalue.source
    pure (.function start (.mk count f.isVararg f.nextId f.captured captures body))

/-- Statements up to the end of a block. -/
def block : Nat → ParserM (List Stmt)
  | 0 => tooDeep
  | fuel + 1 => do
    if ← endsBlock true then pure []
    else if ← sees "return" then statement fuel
    else
      let first ← statement fuel
      pure (first ++ (← block fuel))

/-- Statements in a scope of their own. -/
def scopedBlock : Nat → Bool → ParserM (List Stmt)
  | 0, _ => tooDeep
  | fuel + 1, isLoop => do
    changeScope fun f => .ok (f.enterBlock isLoop)
    let body ← block fuel
    changeScope FunctionScope.leaveBlock
    pure body

/-- A statement; labels and empty statements may bring the ones after them. -/
def statement : Nat → ParserM (List Stmt)
  | 0 => tooDeep
  | fuel + 1 => do
    let start ← line
    match ← word with
    | ";" =>
      advance
      pure []
    | "if" => do pure [← branch fuel start]
    | "while" =>
      advance
      let condition ← settled (← expr fuel 0)
      changeScope fun f => .ok (f.enterBlock true)
      expect "do"
      let body ← scopedBlock fuel false
      expectClose "end" "while" start
      changeScope FunctionScope.leaveBlock
      pure [.whileLoop start condition body]
    | "do" =>
      advance
      let body ← scopedBlock fuel false
      expectClose "end" "do" start
      pure [.block body]
    | "for" => do pure [← forLoop fuel start]
    | "repeat" =>
      advance
      changeScope fun f => .ok (f.enterBlock true)
      changeScope fun f => .ok (f.enterBlock false)
      let body ← block fuel
      expectClose "until" "repeat" start
      let condition ← settled (← expr fuel 0)
      changeScope FunctionScope.leaveBlock
      changeScope FunctionScope.leaveBlock
      pure [.repeatLoop start body condition]
    | "function" =>
      advance
      let target ← functionName fuel (← nameExpr start (← name))
      let value ← function fuel target.2 start
      checkAssignable target.1
      pure [.assign start [target.1] [value]]
    | "local" =>
      advance
      if ← accept "function" then
        let s ← name
        let id ← newLocal 0
        activate s id false
        match ← function fuel false start with
        | .function _ body => pure [.localFunction start id body]
        | _ => pure []
      else
        let ids ← localNames fuel 0
        let values ← if ← accept "=" then (do settleLast (← exprs fuel)) else pure []
        let last := (← get).lastLine
        for (s, id, readonly) in ids do
          activate s id readonly
        pure [.locals last (ids.map fun l => l.2.1) values]
    | "::" =>
      advance
      let s ← name
      expect "::"
      let skipped ← emptyStatements fuel
      let isLast ← endsBlock false
      changeScope fun f => f.addLabel s start isLast
      pure (.label s :: skipped)
    | "return" =>
      advance
      let values ← if (← endsBlock true) || (← sees ";") then pure []
        else (do settleLast (← exprs fuel))
      let last := (← get).lastLine
      let _ ← accept ";"
      pure [.ret last values]
    | "break" =>
      advance
      changeScope fun f => .ok (f.addJump "break" start)
      pure [.goto start "break"]
    | "goto" =>
      advance
      let jumpLine ← line
      let s ← name
      changeScope fun f => .ok (f.addJump s jumpLine)
      pure [.goto jumpLine s]
    | _ => do pure [← exprStatement fuel]

/-- Statements that do nothing, after a label. -/
def emptyStatements : Nat → ParserM (List Stmt)
  | 0 => tooDeep
  | fuel + 1 => do
    let w ← word
    if w == ";" || w == "::" then
      let first ← statement fuel
      pure (first ++ (← emptyStatements fuel))
    else pure []

/-- The rest of a function statement's name; tells whether it names a method. -/
def functionName : Nat → Expr → ParserM (Expr × Bool)
  | 0, _ => tooDeep
  | fuel + 1, e => do
    match ← word with
    | "." =>
      let e ← settled e
      advance
      let s ← name
      functionName fuel (.index (← get).lastLine e (.const (.ofText s)))
    | ":" =>
      let e ← settled e
      advance
      let s ← name
      pure (.index (← get).lastLine e (.const (.ofText s)), true)
    | _ => pure (e, false)

/-- The names of a local statement, with their numbers and whether they are readonly. -/
def localNames : Nat → Nat → ParserM (List (String × Nat × Bool))
  | 0, _ => tooDeep
  | fuel + 1, waiting => do
    let s ← name
    let id ← newLocal waiting
    let readonly ← localAttribute
    if ← accept "," then pure ((s, id, readonly) :: (← localNames fuel (waiting + 1)))
    else pure [(s, id, readonly)]

/-- A conditional from `if` or `elseif` on. -/
def branch : Nat → Nat → ParserM Stmt
  | 0, _ => tooDeep
  | fuel + 1, start => do
    advance
    let condition ← expr fuel 0
    expect "then"
    let condition ← settled condition
    let yes ← scopedBlock fuel false
    match ← word with
    | "elseif" => do pure (.branch start condition yes [← branch fuel start])
    | "else" =>
      advance
      let no ← scopedBlock fuel false
      expectClose "end" "if" start
      pure (.branch start condition yes no)
    | _ =>
      expectClose "end" "if" start
      pure (.branch start condition yes [])

/-- A loop from `for` on. -/
def forLoop : Nat → Nat → ParserM Stmt
  | 0, _ => tooDeep
  | fuel + 1, start => do
    advance
    changeScope fun f => .ok (f.enterBlock true)
    let s ← name
    let hidden ← newLocal 0
    activate "(for state)" hidden false
    activate "(for state)" (← newLocal 0) false
    activate "(for state)" (← newLocal 0) false
    let loop ← match ← word with
      | "=" =>
        advance
        let first ← settled (← expr fuel 0)
        expect ","
        let last ← settled (← expr fuel 0)
        let step ← if ← accept "," then (do pure (some (← settled (← expr fuel 0)))) else pure none
        expect "do"
        changeScope fun f => .ok (f.enterBlock false)
        let id ← newLocal 0
        activate s id false
        let body ← block fuel
        changeScope FunctionScope.leaveBlock
        pure (.numericFor start hidden id first last step body)
      | "," => genericFor fuel start hidden s
      | "in" => genericFor fuel start hidden s
      | _ => failNear "'=' or 'in' expected"
    expectClose "end" "for" start
    changeScope FunctionScope.leaveBlock
    pure loop

/-- A loop over an iterator, after its first name. -/
def genericFor : Nat → Nat → Nat → String → ParserM Stmt
  | 0, _, _, _ => tooDeep
  | fuel + 1, start, hidden, first => do
    activate "(for state)" (← newLocal 0) false
    let more ← moreNames fuel
    expect "in"
    let values ← settleLast (← exprs fuel)
    expect "do"
    changeScope fun f => .ok (f.enterBlock false)
    let ids ← (first :: more).mapM fun s => do
      let id ← newLocal 0
      activate s id false
      pure id
    let body ← block fuel
    changeScope FunctionScope.leaveBlock
    pure (.genericFor start hidden ids values body)

/-- Names after commas. -/
def moreNames : Nat → ParserM (List String)
  | 0 => tooDeep
  | fuel + 1 => do
    if ← accept "," then
      let s ← name
      pure (s :: (← moreNames fuel))
    else pure []

/-- A call or an assignment. -/
def exprStatement : Nat → ParserM Stmt
  | 0 => tooDeep
  | fuel + 1 => do
    let e ← suffixed fuel
    match ← word with
    | "=" => assignment fuel [e]
    | "," => assignment fuel [e]
    | _ =>
      match e with
      | .call callLine .. => pure (.call callLine e)
      | .method callLine .. => pure (.call callLine e)
      | _ => failNear "syntax error"

/-- The rest of an assignment; the targets so far are held in reverse. -/
def assignment : Nat → List Expr → ParserM Stmt
  | 0, _ => tooDeep
  | fuel + 1, targets => do
    match targets with
    | .var _ :: _ => pure ()
    | .index .. :: _ => pure ()
    | _ => failNear "syntax error"
    checkAssignable (targets.headD default)
    if ← accept "," then
      let e ← suffixed fuel
      assignment fuel (e :: targets)
    else
      expect "="
      let values ← settleLast (← exprs fuel)
      pure (.assign (← get).lastLine targets.reverse values)

end

/-- A whole chunk. -/
def chunk (fuel : Nat) : ParserM Body := do
  let main : FunctionScope :=
    { line := 0, isVararg := true, upvalues := [⟨"_ENV", .upvalue 0, false⟩] }
  modify fun s => { s with scopes := [main.enterBlock false] }
  match (← get).current.token with
  | .bad message => failHere message
  | _ => pure ()
  let body ← block fuel
  match (← get).current.token with
  | .eof => pure ()
  | _ => failNear "<eof> expected"
  changeScope FunctionScope.leaveBlock
  let f ← scope
  pure (.mk 0 true f.nextId f.captured [.upvalue 0] body)

end Parse

/-- The body of a chunk with a name, or why its source is none. The body's only upvalue is the table of
its globals. -/
def parseChunk (name : String) (source : ByteArray) : Except String Body :=
  let lexemes := tokens source
  let first := lexemes.headD ⟨.eof, 1, "<eof>"⟩
  let state : ParseState := { chunk := chunkTitle name, current := first, rest := lexemes.drop 1 }
  match (Parse.chunk (16 * lexemes.length + 64)).run state with
  | .ok (body, _) => .ok body
  | .error message => .error message

end ScriptHost.Guest
