import ScriptHost.Guest.Call

/-!
# Looking into scripts

What a name or a path means to a script, from outside.

* `resolveName`: a name, as guest code of the script would see it.
* `readPath`: a path of names with dots between them. Names after the first are fields of tables; one that
  writes an integer may also mean the field of that number.
-/

namespace ScriptHost.Guest

/-- What a name means to a script: one of its own globals, a shared object, or a name of the frozen
environment. -/
def resolveName (globals : Value) (name : String) : WorldM Value := do
  let w ← Host.read
  let own := match globals with
    | .table r => (w.guest.table r).getText name
    | _ => .nil
  if !own.isNil then pure own
  else
    match lookupShared w (.ofText name) with
    | .value v => pure v
    | _ => pure .nil

/-- The integer that a part of a path writes: digits after an optional sign. -/
def readIndex? (s : String) : Option Int64 :=
  let (negative, ds) := match s.toList with
    | '-' :: ds => (true, ds)
    | '+' :: ds => (false, ds)
    | ds => (false, ds)
  if ds.isEmpty || !ds.all Char.isDigit then none
  else
    let n : Int := Decimal.natOfDigits ds
    let i := if negative then -n else n
    if Int64.minValue.toInt ≤ i && i ≤ Int64.maxValue.toInt then some (Int64.ofInt i) else none

/-- The field of a table that a part of a path means; nil if there is none. -/
def readPart (t : Value) (part : String) : WorldM (Except GuestError Value) := do
  match ← readField t (.ofText part) with
  | .error e => pure (.error e)
  | .ok v =>
    match v, readIndex? part with
    | .nil, some i => readField t (.int i)
    | v, _ => pure (.ok v)

/-- What further parts of a path mean within a value. -/
def followParts (v : Value) : List String → WorldM (Option Value)
  | [] => pure (some v)
  | part :: rest => do
    match part.isEmpty, v with
    | false, .table r =>
      match ← readPart (.table r) part with
      | .error _ => pure none
      | .ok .nil => pure none
      | .ok next => followParts next rest
    | _, _ => pure none

/-- What a path means to a script. -/
def readPath (globals : Value) (path : String) : WorldM (Option Value) := do
  match Text.parts "." path with
  | [] => pure none
  | first :: rest =>
    if first.isEmpty then pure none
    else
      match ← resolveName globals first with
      | .nil => pure none
      | v => followParts v rest

end ScriptHost.Guest
