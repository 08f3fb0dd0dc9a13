import ScriptHost.Proofs.Host.Departures

/-!
# What happens in a run

An operation of the host is a course of happenings: stretches in which the guest is at work, bodies of scripts that
are loaded, and hooks, which are due at some moment and are then called. The trail of an operation tells them in
order.

* `Operation.trail`, `runTrail`: what happens in an operation, and in a run.
* `execAll_notes`: the calls of a trail are those that the host makes, neither more nor less.
-/

namespace ScriptHost

variable {γ α β δ : Type}

/-! ## Hooks -/

/-- When hooks are called: after loading, or before unloading. -/
inductive HookKind where
  | load
  | unload
deriving DecidableEq

/-- A kind of hooks in the log. -/
def HookKind.text : HookKind → String
  | .load => "load"
  | .unload => "unload"

/-- The hooks of a kind. -/
def Control.hooks : HookKind → Control α → List α
  | .load => Control.loadHooks
  | .unload => Control.unloadHooks

namespace Host

/-- The hooks of a kind that a control object has. -/
def hooksOf (kind : HookKind) (number : ℕ) (h : Host γ α) : List α :=
  ((h.control? number).map (Control.hooks kind)).getD []

/-- The record of a hook that raises an error: it is an error of the script. -/
def hookRecord (kind : HookKind) (name : String) (e : GuestError) : Record :=
  scriptRecord .error name s!"{kind.text} hook failed: {e.display}"

/-- The host when a hook has been called: an error is logged. -/
def hookDone (kind : HookKind) (name : String) : Except GuestError Unit × Host γ α → Host γ α
  | (.ok (), h) => h
  | (.error e, h) => { h with records := h.records.push (hookRecord kind name e) }

/-- The host when hooks have been called one after the other. -/
def hooksDone (g : Guest γ α) (kind : HookKind) (name : String) (hooks : List α) (h : Host γ α) : Host γ α :=
  hooks.foldl (fun h hook => hookDone kind name (g.run hook h)) h

theorem runHooks_one_eq (g : Guest γ α) (kind : HookKind) (name : String) (hook : α) (h : Host γ α) :
    runHooks g name kind.text [hook] h = ((), hookDone kind name (g.run hook h)) := by
  rw [runHooks, bind_run]
  generalize g.run hook h = answer
  obtain ⟨answer, h'⟩ := answer
  cases answer <;> rfl

/-- Hooks are called one after the other, whatever becomes of each. -/
theorem runHooks_eq (g : Guest γ α) (kind : HookKind) (name : String) (hooks : List α) (h : Host γ α) :
    runHooks g name kind.text hooks h = ((), hooksDone g kind name hooks h) := by
  induction hooks generalizing h with
  | nil => rfl
  | cons hook hooks ih =>
    rw [runHooks_cons, runHooks_one_eq, ih]
    rfl

end Host

/-! ## Happenings -/

open Host

/-- Something that happens while the host is in operation. -/
inductive Happening (γ α : Type) where
  /-- The guest is at work, but not on hooks or the body of a script that is loaded. -/
  | work (calls : List (Call γ α)) (stints : List (Stint γ α))
  /-- The body of a script runs, in surroundings with a control object of that number; it comes to its end, or
  fails. -/
  | body (name : String) (number : ℕ) (succeeds : Bool) (calls : List (Call γ α))
      (stints : List (Stint γ α))
  /-- The hooks of an instance are due, which is known by its control object. -/
  | due (kind : HookKind) (name : String) (number : ℕ) (host : Host γ α)
  /-- A hook of an instance is called. -/
  | hook (kind : HookKind) (number : ℕ) (function : α) (stint : Stint γ α)

namespace Happening

/-- The calls of the guest's functions. -/
def calls : Happening γ α → List (Call γ α)
  | .work calls _ => calls
  | .body _ _ _ calls _ => calls
  | .due .. => []
  | .hook _ _ function stint => [⟨function, [], stint.before⟩]

/-- The stints of the guest. -/
def stints : Happening γ α → List (Stint γ α)
  | .work _ stints => stints
  | .body _ _ _ _ stints => stints
  | .due .. => []
  | .hook _ _ _ stint => [stint]

/-- It is about the hooks of a kind that an instance has. -/
def Concerns (kind : HookKind) (number : ℕ) : Happening γ α → Prop
  | .work .. => False
  | .body .. => False
  | .due kind' _ number' _ => kind' = kind ∧ number' = number
  | .hook kind' number' _ _ => kind' = kind ∧ number' = number

/-- The number of the control object that it is about. -/
def number? : Happening γ α → Option ℕ
  | .work .. => none
  | .body _ number _ _ _ => some number
  | .due _ _ number _ => some number
  | .hook _ number _ _ => some number

theorem number?_of_concerns {kind : HookKind} {number : ℕ} (e : Happening γ α)
    (hconcerns : e.Concerns kind number) : e.number? = some number := by
  cases e with
  | work calls stints => exact hconcerns.elim
  | body name n succeeds calls stints => exact hconcerns.elim
  | due k name n host => exact congrArg some hconcerns.2
  | hook k n function stint => exact congrArg some hconcerns.2

end Happening

namespace Host

variable {g : Guest γ α} {h : Host γ α} {name : String}

/-- The calls on a trail. -/
def callsOf (trail : List (Happening γ α)) : List (Call γ α) := trail.flatMap Happening.calls

/-- The stints on a trail. -/
def stintsOf (trail : List (Happening γ α)) : List (Stint γ α) := trail.flatMap Happening.stints

@[simp] theorem callsOf_append (trail later : List (Happening γ α)) :
    callsOf (trail ++ later) = callsOf trail ++ callsOf later := List.flatMap_append

@[simp] theorem callsOf_cons (e : Happening γ α) (later : List (Happening γ α)) :
    callsOf (e :: later) = e.calls ++ callsOf later := List.flatMap_cons

@[simp] theorem stintsOf_append (trail later : List (Happening γ α)) :
    stintsOf (trail ++ later) = stintsOf trail ++ stintsOf later := List.flatMap_append

@[simp] theorem stintsOf_singleton (e : Happening γ α) : stintsOf [e] = e.stints := List.flatMap_singleton ..

/-! ## Trails -/

/-- What the guest takes note of while the host does something. -/
def called (y : HostM (Noted γ α) α β) (h : Host γ α) : List (Call γ α) := (y (h.noting [])).2.guest.2

/-- Hooks are called one after the other. -/
def hookTrail (g : Guest γ α) (kind : HookKind) (name : String) (number : ℕ) :
    List α → Host γ α → List (Happening γ α)
  | [], _ => []
  | hook :: hooks, h =>
    .hook kind number hook ⟨h, (g.run hook h).2⟩ ::
      hookTrail g kind name number hooks (hookDone kind name (g.run hook h))

/-- The hooks of an instance are due, and are called. -/
def dueTrail (g : Guest γ α) (kind : HookKind) (name : String) (number : ℕ) (hooks : List α)
    (h : Host γ α) : List (Happening γ α) :=
  .due kind name number h :: hookTrail g kind name number hooks h

/-- The trail of an unload: the unload hooks that the script has then. -/
def unloadTrail (g : Guest γ α) (name : String) (h : Host γ α) : List (Happening γ α) :=
  match h.environment? name, h.isLoaded name with
  | some env, true =>
    dueTrail g .unload name env.control (h.unloadHooks env) (setPhase name (some .unloading) h).2
  | _, _ => []

theorem unloadTrail_of_not_loaded {g : Guest γ α} {name : String} {h : Host γ α}
    (hloaded : h.isLoaded name = false) : unloadTrail g name h = [] := by
  rw [unloadTrail, hloaded]
  cases h.environment? name <;> rfl

theorem unloadTrail_of_loaded {g : Guest γ α} {name : String} {env : Environment α} {h : Host γ α}
    (henv : h.environment? name = some env) (hloaded : h.isLoaded name = true) : unloadTrail g name h =
      dueTrail g .unload name env.control (h.unloadHooks env) (setPhase name (some .unloading) h).2 := by
  rw [unloadTrail, henv, hloaded]

/-- The trail of making room for a load: that of the unload, if an instance is replaced. -/
def makeRoomTrail (g : Guest γ α) (name : String) (h : Host γ α) : List (Happening γ α) :=
  if h.isLoaded name then
    match h.policy with
    | .reject => []
    | .reload =>
      unloadTrail g name
        ((log (lifeRecord .info s!"Script '{name}' is already loaded, replacing it") :
          HostM γ α Unit) h).2
  else []

/-- The trail of entering a script among the loaded ones: the load hooks that it has then. -/
def enterTrail (g : Guest γ α) (name : String) (env : Environment α) (h : Host γ α) :
    List (Happening γ α) :=
  let published := (publish name (h.entered name env)).2
  dueTrail g .load name env.control (published.loadHooks env) published

/-- The body of a script runs in new surroundings. -/
def bodyOf (g : Guest γ α) (name : String) (origin : Origin) (source : String) (h : Host γ α) :
    Happening γ α :=
  let begun := (setPhase name (some .loading) h).2
  .body name h.controls.size (instantiate g name origin source begun).1.isOk
    (called (instantiate g.noting name origin source) begun)
    (instantiateStints g name origin source begun)

/-- The trail of loading a script that is not loaded. -/
def bringUpTrail (g : Guest γ α) (name : String) (origin : Origin) (source : String) (h : Host γ α) :
    List (Happening γ α) :=
  let instantiated := instantiate g name origin source (setPhase name (some .loading) h).2
  bodyOf g name origin source h ::
    match instantiated.1 with
    | .error _ => []
    | .ok env => enterTrail g name env (setPhase name none instantiated.2).2

/-- The trail of loading a source of some origin. -/
def loadFromTrail (g : Guest γ α) (name : String) (origin : Origin) (source : String) (h : Host γ α) :
    List (Happening γ α) :=
  makeRoomTrail g name h ++
    match (makeRoom g name h).1 with
    | .error _ => []
    | .ok () => bringUpTrail g name origin source (makeRoom g name h).2

/-- The trail of loading a source as a script. -/
def loadTrail (g : Guest γ α) (source name : String) (h : Host γ α) : List (Happening γ α) :=
  if isScriptName name then loadFromTrail g name (.inline source) source h else []

/-- The trail of loading the entry point of a bundle. -/
def loadBundleTrail (g : Guest γ α) (name : String) (h : Host γ α) : List (Happening γ α) :=
  if isScriptName name then
    match h.bundles.read h.files name with
    | .error _ => []
    | .ok entry => loadFromTrail g name (.bundle entry.folder) entry.source h
  else []

/-- The trail of loading a script again from its origin. -/
def loadAgainTrail (g : Guest γ α) (name : String) : Origin → Host γ α → List (Happening γ α)
  | .bundle _ => loadBundleTrail g name
  | .inline source => loadFromTrail g name (.inline source) source

/-- The trail of unloading a script and loading it again. -/
def reloadTrail (g : Guest γ α) (name : String) (h : Host γ α) : List (Happening γ α) :=
  match h.environment? name with
  | none => []
  | some env =>
    unloadTrail g name h ++
      match (unload g name h).1 with
      | .error _ => []
      | .ok () => loadAgainTrail g name env.origin (unload g name h).2

/-- The trail of doing something for each of several scripts. -/
def scriptTrail (act : String → HostM γ α (Except HostError Unit))
    (trail : String → Host γ α → List (Happening γ α)) : List String → Host γ α → List (Happening γ α)
  | [], _ => []
  | name :: names, h => trail name h ++ scriptTrail act trail names (act name h).2

/-- The trail of loading every bundle. -/
def loadAllTrail (g : Guest γ α) (h : Host γ α) : List (Happening γ α) :=
  match h.bundles.list h.files with
  | .error _ => []
  | .ok names => scriptTrail (loadBundle g) (loadBundleTrail g) names h

/-- The trail of an operation. Where no script comes or goes it is a stretch of work. -/
def Operation.trail (g : Guest γ α) : Operation α → Host γ α → List (Happening γ α)
  | .load source name, h => loadTrail g source name h
  | .loadBundle name, h => loadBundleTrail g name h
  | .unload name, h => unloadTrail g name h
  | .reload name, h => reloadTrail g name h
  | .loadAll, h => loadAllTrail g h
  | .unloadAll, h => scriptTrail (Host.unload g) (unloadTrail g) h.loadedScripts h
  | op, h => [.work (op.exec g.noting (h.noting [])).guest.2 (op.stints g h)]

/-- The trail of a number of operations. -/
def runTrail (g : Guest γ α) : List (Operation α) → Host γ α → List (Happening γ α)
  | [], _ => []
  | op :: ops, h => op.trail g h ++ runTrail g ops (op.exec g h)

/-! ## The calls of a trail are those that are made -/

/-- The host is read, and what follows does not ask for the guest. -/
theorem Notes.reading {f : Host γ α → HostM γ α δ} {f' : Host (Noted γ α) α → HostM (Noted γ α) α δ}
    {calls : List (Call γ α)} (hblind : ∀ noted, f' (h.noting noted) = f' (h.noting []))
    (hf : Notes (f h) (f' (h.noting [])) h calls) : Notes (read >>= f) (read >>= f') h calls := by
  intro noted
  show f' (h.noting noted) (h.noting noted) = _
  rw [hblind]
  exact hf noted

/-- What comes before calls nothing. -/
theorem Notes.after_aside {x : HostM γ α β} {y : HostM (Noted γ α) α β} {f : β → HostM γ α δ}
    {f' : β → HostM (Noted γ α) α δ} {calls : List (Call γ α)} (hx : Notes x y h [])
    (hf : Notes (f (x h).1) (f' (x h).1) (x h).2 calls) : Notes (x >>= f) (y >>= f') h calls :=
  hx.bind hf

/-- What comes after calls nothing. -/
theorem Notes.before_aside {x : HostM γ α β} {y : HostM (Noted γ α) α β} {f : β → HostM γ α δ}
    {f' : β → HostM (Noted γ α) α δ} {calls : List (Call γ α)} (hx : Notes x y h calls)
    (hf : Notes (f (x h).1) (f' (x h).1) (x h).2 []) : Notes (x >>= f) (y >>= f') h calls := by
  have hall := hx.bind hf
  rw [List.append_nil] at hall
  exact hall

theorem Follows.notes_called {x : HostM γ α β} {y : HostM (Noted γ α) α β}
    (hxy : Follows (fun _ => True) x y) (h : Host γ α) : Notes x y h (called y h) := by
  obtain ⟨-, calls, -, hnotes⟩ := hxy h trivial
  have hcalls : called y h = calls := by
    rw [called, hnotes []]
    rfl
  rw [hcalls]
  exact hnotes

theorem runHooks_notes_trail (g : Guest γ α) (kind : HookKind) (name : String) (number : ℕ)
    (hooks : List α) (h : Host γ α) :
    Notes (runHooks g name kind.text hooks) (runHooks g.noting name kind.text hooks) h
      (callsOf (hookTrail g kind name number hooks h)) := by
  induction hooks generalizing h with
  | nil => exact (Aside.pure ()).notes h
  | cons hook hooks ih =>
    have hone := runHooks_one_notes g name kind.text hook h
    have hrest := ih (hookDone kind name (g.run hook h))
    intro noted
    rw [runHooks_cons (g := g.noting), runHooks_cons (g := g), hone noted, runHooks_one_eq]
    exact (hrest _).trans (by rw [hookTrail, callsOf_cons, List.append_assoc]; rfl)

theorem unload_notes_trail (g : Guest γ α) (name : String) (h : Host γ α) :
    Notes (unload g name) (unload g.noting name) h (callsOf (unloadTrail g name h)) := by
  unfold unload unloadTrail
  refine Notes.reading (fun _ => rfl) ?_
  rw [noting_environment?, noting_isLoaded]
  cases h.environment? name with
  | none => exact (Aside.pure _).notes h
  | some env =>
    cases h.isLoaded name with
    | false => exact (Aside.pure _).notes h
    | true => exact depart_notes name env (runHooks_notes_trail g .unload name env.control _ _)

theorem makeRoom_notes_trail (g : Guest γ α) (name : String) (h : Host γ α) :
    Notes (makeRoom g name) (makeRoom g.noting name) h (callsOf (makeRoomTrail g name h)) := by
  unfold makeRoom makeRoomTrail
  refine Notes.reading (fun _ => rfl) ?_
  rw [noting_isLoaded, noting_policy]
  cases h.isLoaded name with
  | false => exact (Aside.pure _).notes h
  | true =>
    cases h.policy with
    | reject => exact (Aside.pure _).notes h
    | reload => exact Notes.after_aside ((Aside.log _).notes h) (unload_notes_trail g name _)

theorem enter_notes_trail (g : Guest γ α) (name : String) (env : Environment α) (h : Host γ α) :
    Notes (enter g name env) (enter g.noting name env) h (callsOf (enterTrail g name env h)) := by
  have hentered : Aside (change fun h : Host γ α => h.entered name env)
      (change fun h => h.entered name env) := fun _ _ => ⟨rfl, rfl⟩
  refine Notes.after_aside (hentered.notes h) (Notes.after_aside ((Aside.publish name).notes _) ?_)
  refine Notes.reading (fun _ => rfl) (Notes.before_aside ?_ ?_)
  · exact runHooks_notes_trail g .load name env.control _ _
  · exact ((Aside.publish name).bind fun _ => .log _).notes _

theorem bringUp_notes_trail (hg : g.KeepsToApi) (name : String) (origin : Origin) (source : String)
    (h : Host γ α) : Notes (bringUp g name origin source) (bringUp g.noting name origin source) h
      (callsOf (bringUpTrail g name origin source h)) := by
  refine Notes.after_aside (notes_setPhase name _ h) ?_
  refine ((Follows.instantiate hg name origin source).notes_called _).bind ?_
  refine Notes.after_aside (notes_setPhase name none _) ?_
  cases (instantiate g name origin source (setPhase name (some .loading) h).2).1 with
  | error e => exact ((Aside.log _).bind fun _ => .pure _).notes _
  | ok env => exact Notes.before_aside (enter_notes_trail g name env _) ((Aside.pure _).notes _)

theorem loadFrom_notes_trail (hg : g.KeepsToApi) (name : String) (origin : Origin) (source : String)
    (h : Host γ α) : Notes (loadFrom g name origin source) (loadFrom g.noting name origin source) h
      (callsOf (loadFromTrail g name origin source h)) := by
  rw [loadFrom_eq, loadFrom_eq, loadFromTrail, callsOf_append]
  refine (makeRoom_notes_trail g name h).bind ?_
  cases (makeRoom g name h).1 with
  | error e => exact (Aside.pure _).notes _
  | ok _ => exact bringUp_notes_trail hg name origin source _

theorem load_notes_trail (hg : g.KeepsToApi) (source name : String) (h : Host γ α) :
    Notes (load g source name) (load g.noting source name) h (callsOf (loadTrail g source name h)) := by
  unfold load loadTrail
  cases isScriptName name with
  | false => exact (Aside.pure _).notes h
  | true => exact loadFrom_notes_trail hg name _ source h

theorem loadBundle_notes_trail (hg : g.KeepsToApi) (name : String) (h : Host γ α) :
    Notes (loadBundle g name) (loadBundle g.noting name) h (callsOf (loadBundleTrail g name h)) := by
  unfold loadBundle loadBundleTrail
  cases isScriptName name with
  | false => exact (Aside.pure _).notes h
  | true =>
    refine Notes.reading (fun _ => rfl) ?_
    rw [noting_bundles, noting_files]
    cases h.bundles.read h.files name with
    | error e => exact (Aside.pure _).notes h
    | ok entry => exact loadFrom_notes_trail hg name _ entry.source h

theorem reload_notes_trail (hg : g.KeepsToApi) (name : String) (h : Host γ α) :
    Notes (reload g name) (reload g.noting name) h (callsOf (reloadTrail g name h)) := by
  rw [reload_eq, reload_eq, reloadTrail]
  refine Notes.reading (fun _ => rfl) ?_
  rw [noting_environment?]
  cases h.environment? name with
  | none => exact (Aside.pure _).notes h
  | some env =>
    dsimp only
    rw [callsOf_append]
    refine (unload_notes_trail g name h).bind ?_
    cases (unload g name h).1 with
    | error e => exact (Aside.pure _).notes _
    | ok _ =>
      cases env.origin with
      | bundle folder => exact loadBundle_notes_trail hg name _
      | inline source => exact loadFrom_notes_trail hg name _ source _

theorem forScripts_notes_trail {act : String → HostM γ α (Except HostError Unit)}
    {act' : String → HostM (Noted γ α) α (Except HostError Unit)}
    {trail : String → Host γ α → List (Happening γ α)}
    (hact : ∀ name h, Notes (act name) (act' name) h (callsOf (trail name h))) (names : List String)
    (h : Host γ α) : Notes (forScripts act names) (forScripts act' names) h
      (callsOf (scriptTrail act trail names h)) := by
  induction names generalizing h with
  | nil => exact (Aside.pure _).notes h
  | cons name names ih =>
    rw [scriptTrail, callsOf_append]
    exact notes_forScripts_cons (hact name h) (ih _)

theorem loadAll_notes_trail (hg : g.KeepsToApi) (h : Host γ α) :
    Notes (loadAll g) (loadAll g.noting) h (callsOf (loadAllTrail g h)) := by
  unfold loadAll loadAllTrail
  refine Notes.reading (fun _ => rfl) ?_
  rw [noting_bundles, noting_files]
  cases h.bundles.list h.files with
  | error e => exact (Aside.pure _).notes h
  | ok names =>
    exact Notes.before_aside (forScripts_notes_trail (loadBundle_notes_trail hg) names h)
      ((Aside.pure _).notes _)

theorem unloadAll_notes_trail (g : Guest γ α) (h : Host γ α) :
    Notes (unloadAll g) (unloadAll g.noting) h
      (callsOf (scriptTrail (unload g) (unloadTrail g) h.loadedScripts h)) :=
  Notes.reading (fun _ => rfl) (forScripts_notes_trail (unload_notes_trail g) h.loadedScripts h)

/-- Where no script comes or goes the guest takes note of the calls, too. -/
theorem Operation.exec_notes_work (hg : g.KeepsToApi) (op : Operation α) (hkeeps : op.KeepsScripts)
    (h : Host γ α) : ∃ calls, ∀ noted,
      op.exec g.noting (h.noting noted) = (op.exec g h).noting (noted ++ calls) := by
  have hfollows : ∀ {β : Type} {x : HostM γ α β} {y : HostM (Noted γ α) α β},
      Follows (fun _ => True) x y →
        ∃ calls, ∀ noted, (y (h.noting noted)).2 = (x h).2.noting (noted ++ calls) := by
    intro β x y hxy
    exact ⟨called y h, fun noted => congrArg Prod.snd (hxy.notes_called h noted)⟩
  cases op with
  | load _ _ | loadBundle _ | unload _ | reload _ | loadAll | unloadAll => exact absurd hkeeps id
  | dispatch name arguments => exact hfollows (.dispatch hg name arguments)
  | inspect script path => exact hfollows (.inspect hg script path)
  | tick => exact hfollows (.tick hg)
  | share owner name value => exact hfollows (Aside.share owner name value).follows
  | unshare owner name => exact hfollows (Aside.unshare owner name).follows
  | releaseObjects script => exact hfollows (Aside.releaseObjects script).follows
  | schedule script callable lane mode =>
    exact hfollows (Aside.schedule script callable lane mode).follows
  | cancel script id => exact hfollows (Aside.cancelTask script id).follows
  | cancelAll script => exact hfollows (Aside.cancelAllTasks script).follows
  | register command =>
    refine ⟨[], fun noted => ?_⟩
    rw [List.append_nil, exec, exec, noting_commands]
    cases h.commands.register command <;> rfl
  | unregister name => exact ⟨[], fun noted => by rw [List.append_nil]; rfl⟩
  | sync => exact hfollows Aside.syncCommands.follows
  | call f arguments => exact hfollows (.call hg f arguments)
  | drift files now => exact ⟨[], fun noted => by rw [List.append_nil]; rfl⟩

/-- An operation calls what is on its trail. -/
theorem Operation.exec_notes (hg : g.KeepsToApi) (op : Operation α) (h : Host γ α)
    (noted : List (Call γ α)) :
    op.exec g.noting (h.noting noted) = (op.exec g h).noting (noted ++ callsOf (op.trail g h)) := by
  have hwork : op.KeepsScripts →
      op.trail g h = [.work (op.exec g.noting (h.noting [])).guest.2 (op.stints g h)] →
        op.exec g.noting (h.noting noted) = (op.exec g h).noting (noted ++ callsOf (op.trail g h)) := by
    intro hkeeps htrail
    obtain ⟨calls, hcalls⟩ := op.exec_notes_work hg hkeeps h
    rw [htrail, hcalls, hcalls]
    simp [callsOf, Happening.calls]
  cases op with
  | load source name => exact congrArg Prod.snd (load_notes_trail hg source name h noted)
  | loadBundle name => exact congrArg Prod.snd (loadBundle_notes_trail hg name h noted)
  | unload name => exact congrArg Prod.snd (unload_notes_trail g name h noted)
  | reload name => exact congrArg Prod.snd (reload_notes_trail hg name h noted)
  | loadAll => exact congrArg Prod.snd (loadAll_notes_trail hg h noted)
  | unloadAll => exact congrArg Prod.snd (unloadAll_notes_trail g h noted)
  | _ => exact hwork trivial rfl

/-- A run calls what is on its trail, and nothing else. -/
theorem execAll_notes (hg : g.KeepsToApi) (ops : List (Operation α)) (h : Host γ α)
    (noted : List (Call γ α)) : execAll g.noting ops (h.noting noted) =
      (execAll g ops h).noting (noted ++ callsOf (runTrail g ops h)) := by
  induction ops generalizing h noted with
  | nil => rw [runTrail, callsOf, List.flatMap_nil, List.append_nil]; rfl
  | cons op ops ih =>
    rw [runTrail, callsOf_append, ← List.append_assoc]
    exact (congrArg (execAll g.noting ops) (op.exec_notes hg h noted)).trans (ih _ _)

end Host
end ScriptHost
