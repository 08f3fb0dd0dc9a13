import ScriptHost.Guest.Freeze
import ScriptHost.Guest.Inspect
import ScriptHost.Guest.Render

/-!
# Sandboxes

The globals of a script: a table of its own over the shared objects and the frozen environment. Reading a
name that the table lacks goes on below it; writing always stays in it.

* `newGlobals`: the globals of a new script.
* `interpreter`: the guest interpreter, as the host uses it.
-/

namespace ScriptHost.Guest

/-- Make a heap object. -/
def makeObject {α : Type} (f : Heap → α × Heap) : WorldM α :=
  fun w => let (a, guest) := f w.guest; (a, { w with guest })

/-! ## Importing -/

/-- The source of the function that imports modules. Each module runs once, with the globals of the script
that imports it. -/
def importSource : String := "
local read, load, env = ...
local loaded = {}
return function(module)
    local cached = loaded[module]
    if cached ~= nil then
        return cached
    end
    local source, chunkname = read(module)
    local chunk, err = load(source, chunkname, \"t\", env)
    if not chunk then
        error(err, 2)
    end
    local result = chunk(module)
    if result == nil then
        result = true
    end
    loaded[module] = result
    return result
end
"

/-- The code that makes an import function. -/
def importCode : Code :=
  match compileChunk "=import" importSource.toUTF8 with
  | .ok code => code
  | .error _ => default

/-- A new import function for a script. -/
def createImport (globals : Value) (folder : Option String) (number : Nat) : WorldM Value := do
  let maker ← makeObject fun h => h.closeChunk importCode (.table h.globals)
  let args := [.native (.readModule folder number), .native (.base .load), globals]
  match ← callGuestFunction (.closure maker) args with
  | .ok vs => pure (vs.headD .nil)
  | .error _ => pure .nil

/-! ## Globals -/

/-- The metatable of a script's globals. -/
def resolverFields : List (String × Value) := [
  ("__index", .native .resolve), ("__metatable", .bool false)]

/-- Set a name in a table. -/
def setName (r : Ref) (name : String) (v : Value) : WorldM Unit :=
  Host.change fun w => { w with guest := w.guest.rawSetText r name v }

/-- The globals of a new script. -/
def newGlobals (name : String) (folder : Option String) (number : Nat) : WorldM Value := do
  let metatable ← makeObject fun h => h.allocTable (namedTable resolverFields)
  let r ← makeObject fun h => h.allocTable { metatable := some metatable }
  setName r "_G" (.table r)
  setName r "script" (.object (.control number))
  setName r "logger" (.object (.logger name number))
  setName r "scheduler" (.object (.scheduler name number))
  setName r "print" (.native (.print name number))
  setName r "import" (← createImport (.table r) folder number)
  pure (.table r)

/-! ## The interpreter -/

/-- The function that runs a source with globals, or why the source is no chunk. -/
def compileSource (title : String) (globals : Value) (source : String) :
    WorldM (Except GuestError Value) := do
  match compileChunk title source.toUTF8 with
  | .error message => pure (.error (.parsing message))
  | .ok code => do
    let r ← makeObject fun h => h.closeChunk code globals
    pure (.ok (.closure r))

/-- The guest interpreter. -/
def interpreter : ScriptHost.Guest Heap Value where
  createGlobals := newGlobals
  compile name globals source := compileSource ("=" ++ name) globals source
  call := callGuestFunction
  ofText := Value.ofText
  display := displayAll
  readVariable globals path := do
    match ← readPath globals path with
    | some v => do pure (some (← toJson v))
    | none => pure none

/-- A host with a new interpreter whose scripts share bindings. -/
def newHost (heap : Heap) (bindings : List Binding) : World :=
  { guest := heap.buildShared bindings, records := #[sharedRecord bindings] }

end ScriptHost.Guest
