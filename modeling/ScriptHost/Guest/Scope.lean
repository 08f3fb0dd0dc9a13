import ScriptHost.Guest.Syntax

/-!
# Scopes

What a parser knows about names while it is inside nested functions and blocks: which locals are active,
which upvalues each function has, which labels are visible, and which jumps still wait for their label.

* `FunctionScope.resolve`: the variable that a name means, capturing locals of outer functions.
* `FunctionScope.addLabel`, `FunctionScope.leaveBlock`: labels meet the jumps that wait for them.
-/

namespace ScriptHost.Guest

/-- An active local. -/
structure ActiveLocal where
  name : String
  id : Nat
  readonly : Bool
deriving Repr, DecidableEq, Inhabited

/-- An upvalue of a function. -/
structure ScopeUpvalue where
  name : String
  source : Capture
  readonly : Bool
deriving Repr, DecidableEq, Inhabited

/-- A visible label. -/
structure LabelInfo where
  name : String
  line : Nat
deriving Repr, DecidableEq

/-- A jump whose label has not been met: where it stands, and how many locals are active there. -/
structure PendingJump where
  name : String
  line : Nat
  active : Nat
deriving Repr, DecidableEq

/-- A block that is open: what was active, visible and waiting when it began. -/
structure OpenBlock where
  active : Nat
  labels : List LabelInfo
  jumps : Nat
  isLoop : Bool
deriving Repr, DecidableEq

/-- A function that is being read. Lists begin with what came last. -/
structure FunctionScope where
  line : Nat
  isVararg : Bool
  active : List ActiveLocal := []
  nextId : Nat := 0
  captured : List Nat := []
  upvalues : List ScopeUpvalue := []
  labels : List LabelInfo := []
  jumps : List PendingJump := []
  blocks : List OpenBlock := []
deriving Repr, Inhabited

namespace FunctionScope

/-! ## Names -/

/-- The index of an upvalue in the order of their addition. -/
def upvalueIndex? (f : FunctionScope) (name : String) : Option (Nat × Bool) :=
  match f.upvalues.findIdx? fun u => u.name == name with
  | some i =>
    match f.upvalues[i]? with
    | some u => some (f.upvalues.length - 1 - i, u.readonly)
    | none => none
  | none => none

/-- Add an upvalue; gives its index. -/
def addUpvalue (f : FunctionScope) (u : ScopeUpvalue) : Nat × FunctionScope :=
  (f.upvalues.length, { f with upvalues := u :: f.upvalues })

/-- Note that a closure captures a local. -/
def capture (f : FunctionScope) (id : Nat) : FunctionScope :=
  if f.captured.contains id then f else { f with captured := id :: f.captured }

/-- The variable that a name means in the first of nested functions, and whether it can be assigned;
nothing if no function knows the name. -/
def resolve (name : String) :
    List FunctionScope → Option (Variable × Bool) × List FunctionScope
  | [] => (none, [])
  | f :: outer =>
    match f.active.find? fun l => l.name == name with
    | some l => (some (.inFrame l.id name, l.readonly), f :: outer)
    | none =>
      match f.upvalueIndex? name with
      | some (i, readonly) => (some (.upvalue i name, readonly), f :: outer)
      | none =>
        match resolve name outer with
        | (none, outer) => (none, f :: outer)
        | (some (v, readonly), outer) =>
          let (source, outer) : Capture × List FunctionScope :=
            match v, outer with
            | .inFrame id _, g :: gs => (.inFrame id, g.capture id :: gs)
            | .inFrame id _, [] => (.inFrame id, [])
            | .upvalue i _, gs => (.upvalue i, gs)
          let (i, f) := f.addUpvalue ⟨name, source, readonly⟩
          (some (.upvalue i name, readonly), f :: outer)

/-- A new number for a local. -/
def newId (f : FunctionScope) : Nat × FunctionScope :=
  (f.nextId, { f with nextId := f.nextId + 1 })

/-- Make a local active. -/
def activate (f : FunctionScope) (l : ActiveLocal) : FunctionScope :=
  { f with active := l :: f.active }

/-! ## Blocks and labels -/

/-- Open a block. -/
def enterBlock (f : FunctionScope) (isLoop : Bool) : FunctionScope :=
  { f with blocks := ⟨f.active.length, f.labels, f.jumps.length, isLoop⟩ :: f.blocks }

/-- What was waiting when the innermost block began. -/
def outerJumps (f : FunctionScope) : Nat :=
  match f.blocks with
  | b :: _ => b.jumps
  | [] => 0

/-- What was active when the innermost block began. -/
def outerActive (f : FunctionScope) : Nat :=
  match f.blocks with
  | b :: _ => b.active
  | [] => 0

/-- The error of a jump past the declaration of a local. -/
def scopeError (f : FunctionScope) (jump : PendingJump) : String :=
  let name := ((f.active.reverse[jump.active]?).map ActiveLocal.name).getD "?"
  s!"<goto {jump.name}> at line {jump.line} jumps into the scope of local '{name}'"

/-- Let the jumps of the innermost block that wait for a label reach it. `active` locals are active at
the label. -/
def reachLabel (f : FunctionScope) (name : String) (active : Nat) : Except String FunctionScope :=
  let own := f.jumps.take (f.jumps.length - f.outerJumps)
  match own.reverse.find? fun j => j.name == name && decide (j.active < active) with
  | some jump => .error (f.scopeError jump)
  | none =>
    .ok { f with
      jumps := own.filter (fun j => j.name != name) ++ f.jumps.drop own.length }

/-- Add a label. At the end of a block the locals of the block no longer count. -/
def addLabel (f : FunctionScope) (name : String) (line : Nat) (isLast : Bool) :
    Except String FunctionScope :=
  match f.labels.find? fun l => l.name == name with
  | some l => .error s!"label '{name}' already defined on line {l.line}"
  | none =>
    ({ f with labels := ⟨name, line⟩ :: f.labels }).reachLabel name
      (if isLast then f.outerActive else f.active.length)

/-- Add a jump; it waits if its label is not visible yet. -/
def addJump (f : FunctionScope) (name : String) (line : Nat) : FunctionScope :=
  if f.labels.any fun l => l.name == name then f
  else { f with jumps := ⟨name, line, f.active.length⟩ :: f.jumps }

/-- The error of a jump that no label meets. -/
def jumpError (jump : PendingJump) : String :=
  if jump.name == "break" then s!"break outside loop at line {jump.line}"
  else s!"no visible label '{jump.name}' for <goto> at line {jump.line}"

/-- Close the innermost block. A loop is where its breaks go; other jumps wait in the block around. -/
def leaveBlock (f : FunctionScope) : Except String FunctionScope :=
  match f.blocks with
  | [] => .ok f
  | b :: blocks => do
    let f := { f with active := f.active.drop (f.active.length - b.active) }
    let f ← if b.isLoop then f.reachLabel "break" f.active.length else .ok f
    match blocks, f.jumps.reverse with
    | [], jump :: _ => .error (jumpError jump)
    | _, _ =>
      let jumps := f.jumps.map fun j => { j with active := min j.active b.active }
      .ok { f with labels := b.labels, blocks, jumps }

end FunctionScope

end ScriptHost.Guest
