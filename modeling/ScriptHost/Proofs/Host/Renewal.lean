import ScriptHost.Proofs.Guest.MethodCalls
import ScriptHost.Proofs.Host.Besides
import ScriptHost.Proofs.Host.OldTasks
import ScriptHost.Proofs.Host.OneTurn

/-!
# Loading a script again starts afresh

A loaded script can be loaded again by a reload, by an unload and a load from its origin, and, if its source was
handed over and loads replace what is loaded, by a load of the same source (`Renewal`). All of them come to the same
(`Renewal.run_eq`), and nothing that the old instance had has any bearing on it: from hosts that agree besides what
the script has they lead to hosts that are alike, with the same result (`renewal_starts_afresh`).

What this asks of the code that a load runs is met by the guest interpreter, where it runs a script that has hooks and
submits a task (`Guest.Caretaker.loadsAlike`).
-/

namespace ScriptHost
namespace Host

open Scheduler

variable {γ α : Type} {g : Guest γ α} {h : Host γ α} {name : String}

/-! ## Ways to load a script again -/

/-- How a script that is loaded can be loaded again. -/
inductive Renewal where
  | reload
  /-- It is unloaded, and then loaded from where it came from. -/
  | inTurn
  /-- Its source is loaded, which replaces what is loaded. -/
  | replacing
deriving DecidableEq

/-- Load a script from where it came from. -/
def loadOrigin (g : Guest γ α) (name : String) : Origin → HostM γ α (Except HostError Unit)
  | .bundle _ => loadBundle g name
  | .inline source => load g source name

/-- That operation. -/
def Operation.ofOrigin (name : String) : Origin → Operation α
  | .bundle _ => .loadBundle name
  | .inline source => .load source name

namespace Renewal

/-- Load a script again that came from somewhere. -/
def run (g : Guest γ α) (name : String) (origin : Origin) : Renewal → HostM γ α (Except HostError Unit)
  | .reload => Host.reload g name
  | .inTurn => do
    match ← unload g name with
    | .error e => pure (.error e)
    | .ok () => loadOrigin g name origin
  | .replacing => loadOrigin g name origin

/-- What is loaded is replaced under one of the two policies; this is about source that was handed over. -/
def AppliesTo (origin : Origin) (h : Host γ α) : Renewal → Prop
  | .replacing => h.policy = .reload ∧ ∃ source, origin = .inline source
  | _ => True

/-- The host when the unload begins: that something is replaced is logged. -/
def announced (name : String) (h : Host γ α) : Renewal → Host γ α
  | .replacing =>
    ((log (lifeRecord .info s!"Script '{name}' is already loaded, replacing it") : HostM γ α Unit) h).2
  | _ => h

/-- The host when the old instance is gone. -/
def gone (g : Guest γ α) (name : String) (h : Host γ α) (r : Renewal) : Host γ α :=
  (unload g name (r.announced name h)).2

end Renewal

theorem loadOrigin_eq (hname : isScriptName name = true) (origin : Origin) :
    loadOrigin g name origin = loadAgain g name origin := by
  cases origin with
  | bundle folder => rfl
  | inline source =>
    rw [loadOrigin, load, if_pos hname]
    rfl

theorem execAll_ofOrigin (origin : Origin) :
    execAll g [.ofOrigin name origin] h = (loadOrigin g name origin h).2 := by
  cases origin <;> rfl

/-- A loaded script can be unloaded. -/
theorem unload_ok (hg : g.KeepsToApi) (h₀ : Orderly none h) {env : Environment α}
    (henv : h.environment? name = some env) : (unload g name h).1 = .ok () := by
  have hloaded : h.isLoaded name = true := h₀.isLoaded_of_environment henv
  obtain ⟨env', records, -, heq⟩ := h₀.unload_eq hg hloaded
  rw [heq]

/-- A reload of a loaded script is a load where it is gone. -/
theorem reload_eq_loadAgain (hg : g.KeepsToApi) (h₀ : Orderly none h) {env : Environment α}
    (henv : h.environment? name = some env) :
    reload g name h = loadAgain g name env.origin (unload g name h).2 := by
  rw [reload_eq, read_bind, henv]
  dsimp only
  rw [bind_run, unload_ok hg h₀ henv]

/-- What was logged is no matter of order. -/
theorem Renewal.announced_orderly (h₀ : Orderly none h) (r : Renewal) :
    Orderly none (r.announced name h) := by
  cases r with
  | replacing => exact Tidy.log _ h h₀
  | reload => exact h₀
  | inTurn => exact h₀

/-- However a script is loaded again, it comes to a reload. -/
theorem Renewal.run_eq (hg : g.KeepsToApi) (h₀ : Orderly none h) (hnamed : WellNamed h)
    {env : Environment α} (henv : h.environment? name = some env) {r : Renewal}
    (happlies : r.AppliesTo env.origin h) :
    r.run g name env.origin h = loadAgain g name env.origin (r.gone g name h) ∧
      r.run g name env.origin h = Host.reload g name (r.announced name h) := by
  have hname := hnamed name env henv
  have hloaded : h.isLoaded name = true := h₀.isLoaded_of_environment henv
  cases r with
  | reload => exact ⟨reload_eq_loadAgain hg h₀ henv, rfl⟩
  | inTurn =>
    have hrun : Renewal.inTurn.run g name env.origin h =
        loadAgain g name env.origin (unload g name h).2 := by
      rw [Renewal.run, bind_run, unload_ok hg h₀ henv, loadOrigin_eq hname]
    exact ⟨hrun, hrun.trans (reload_eq_loadAgain hg h₀ henv).symm⟩
  | replacing =>
    obtain ⟨hpolicy, source, horigin⟩ := happlies
    have hlogged : Orderly none (Renewal.replacing.announced name h) := announced_orderly h₀ _
    have hout : (Renewal.replacing.gone g name h).isLoaded name = false := by
      rw [Renewal.gone, isLoaded_unload hg name hlogged, if_pos rfl]
    -- to replace an instance is to unload it, with a message before
    have hroom : makeRoom g name h = (.ok (), Renewal.replacing.gone g name h) := by
      rw [makeRoom_of_reload hloaded hpolicy]
      exact Prod.ext (unload_ok hg hlogged henv) rfl
    have hrun : Renewal.replacing.run g name env.origin h =
        loadAgain g name env.origin (Renewal.replacing.gone g name h) := by
      rw [Renewal.run, loadOrigin_eq hname, horigin]
      show loadFrom g name (.inline source) source h = loadFrom g name (.inline source) source _
      rw [loadFrom_eq, bind_run, bind_run, hroom, makeRoom_of_not_loaded hout]
    exact ⟨hrun, hrun.trans (reload_eq_loadAgain hg hlogged henv).symm⟩

/-! ## Starting afresh -/

theorem Renewal.exists_announced (r : Renewal) (name : String) (h : Host γ α) :
    ∃ records, r.announced name h = { h with records := records } := by
  cases r with
  | replacing => exact ⟨_, rfl⟩
  | reload => exact ⟨h.records, rfl⟩
  | inTurn => exact ⟨h.records, rfl⟩

/-- What is to be loaded again is the same when the old instance is gone: an unload writes no files. -/
theorem Renewal.again?_gone {L : Likeness γ α} {w : L.World} (hg : g.KeepsToApi) (h₀ : Orderly none h)
    {env : Environment α} (henv : h.environment? name = some env) (r : Renewal)
    (halone : L.DepartsAlone g w name env (r.announced name h)) (origin : Origin) :
    (r.gone g name h).again? name origin = h.again? name origin := by
  obtain ⟨records, heq⟩ := r.exists_announced name h
  have hlogged : (r.announced name h).environment? name = some env := by rw [heq]; exact henv
  obtain ⟨-, hgone⟩ := unload_departed hg (r.announced_orderly h₀) hlogged halone.own
  have hbundles : (r.gone g name h).bundles = h.bundles := hgone.bundles.trans (by rw [heq])
  have hfiles : (r.gone g name h).files = h.files := hgone.files.trans (by rw [heq])
  cases origin with
  | bundle folder => rw [again?, again?, hbundles, hfiles]
  | inline source => rfl

/-- Hosts that agree besides a script do so whatever is logged. -/
theorem besides_announced {L : Likeness γ α} {w : L.World} {env₁ env₂ : Environment α}
    {h₁ h₂ : Host γ α} (hbesides : L.Besides w name env₁ env₂ h₁ h₂) (r₁ r₂ : Renewal) :
    L.Besides w name env₁ env₂ (r₁.announced name h₁) (r₂.announced name h₂) := by
  obtain ⟨records₁, heq₁⟩ := r₁.exists_announced name h₁
  obtain ⟨records₂, heq₂⟩ := r₂.exists_announced name h₂
  rw [heq₁, heq₂]
  exact { hbesides with }

/-- What loading a script again comes to, in whatever way. -/
structure Renews (g : Guest γ α) (name : String) (origin : Origin) (h : Host γ α) (r : Renewal) : Prop where
  /-- It is a reload, apart from what is logged before. -/
  reload : r.run g name origin h = Host.reload g name (r.announced name h)
  /-- It is a load from the origin, where the old instance is gone. -/
  load : (r.run g name origin h).2 = execAll g [.ofOrigin name origin] (r.gone g name h)
  /-- The tasks that the old instance was given do not come back. -/
  issued : h.runner.issued ≤ (r.gone g name h).runner.issued
  noneReturns : NoneReturns g name (r.gone g name h)

/-- **Loading a script again starts afresh.** Two hosts have loaded a script from the same origin and agree besides
what the script has; its unload hooks act on nothing but what is its own, and the code that its load runs depends on
no numbers, clocks or logs. Then, in whatever way the script is loaded again in the one and in the other, the result
is the same and the hosts are alike afterwards: equal up to numbers, how often commands were presented, times and what
was logged. All ways of loading it again in a host come to a reload, and no task of the old instance can be used to
cancel one of the new, during its load or ever after. -/
theorem renewal_starts_afresh {L : Likeness γ α} {w : L.World} {env₁ env₂ : Environment α} {h₁ h₂ : Host γ α}
    (hg : g.KeepsToApi) (hreach₁ : Reachable g h₁) (hreach₂ : Reachable g h₂)
    (hbesides : L.Besides w name env₁ env₂ h₁ h₂)
    (hloads : ∀ origin source, h₁.again? name env₁.origin = .ok (origin, source) →
      g.LoadsAlike L w name origin.folder? source)
    (halone₁ : ∀ r : Renewal, r.AppliesTo env₁.origin h₁ →
      L.DepartsAlone g w name env₁ (r.announced name h₁))
    (halone₂ : ∀ r : Renewal, r.AppliesTo env₂.origin h₂ →
      L.DepartsAlone g w name env₂ (r.announced name h₂)) :
    (∀ r₁ r₂ : Renewal, r₁.AppliesTo env₁.origin h₁ → r₂.AppliesTo env₂.origin h₂ →
      (r₁.run g name env₁.origin h₁).1 = (r₂.run g name env₂.origin h₂).1 ∧
      ∃ w' ≥ w, L.LikeHost w' (r₁.run g name env₁.origin h₁).2 (r₂.run g name env₂.origin h₂).2) ∧
    ∀ r : Renewal, r.AppliesTo env₁.origin h₁ → Renews g name env₁.origin h₁ r := by
  have h₀₁ := hreach₁.orderly hg
  have h₀₂ := hreach₂.orderly hg
  have hnamed₁ := hreach₁.wellNamed hg
  obtain ⟨henv₁, henv₂⟩ := hbesides.environment
  constructor
  · intro r₁ r₂ happlies₁ happlies₂
    have hlogged₁ : Orderly none (r₁.announced name h₁) := r₁.announced_orderly h₀₁
    -- where the old instance has gone, the hosts are alike, and the script is not there
    have hlike : L.LikeHost w (r₁.gone g name h₁) (r₂.gone g name h₂) :=
      (besides_announced hbesides r₁ r₂).unloaded hg hlogged₁ (r₂.announced_orderly h₀₂)
        (halone₁ r₁ happlies₁) (halone₂ r₂ happlies₂)
    have hout : (r₁.gone g name h₁).isLoaded name = false := by
      rw [Renewal.gone, isLoaded_unload hg name hlogged₁, if_pos rfl]
    rw [(Renewal.run_eq hg h₀₁ hnamed₁ henv₁ happlies₁).1,
      (Renewal.run_eq hg h₀₂ (hreach₂.wellNamed hg) henv₂ happlies₂).1, ← hbesides.origin]
    obtain ⟨w', hw, hend, hresult⟩ := loadAgain_alike hlike hout env₁.origin fun origin source hagain =>
      hloads origin source ((r₁.again?_gone hg h₀₁ henv₁ (halone₁ r₁ happlies₁) env₁.origin).symm.trans hagain)
    exact ⟨hresult, w', hw, hend⟩
  · intro r happlies
    obtain ⟨hagain, hreload⟩ := Renewal.run_eq hg h₀₁ hnamed₁ henv₁ happlies
    -- the unloading issues no numbers, and what it cancels does not come back
    have hlogged : Orderly none (r.announced name h₁) := r.announced_orderly h₀₁
    have henv : (r.announced name h₁).environment? name = some env₁ :=
      (besides_announced hbesides r r).environment.1
    obtain ⟨-, hgone⟩ := unload_departed hg hlogged henv (halone₁ r happlies).own
    have hloaded : (r.announced name h₁).isLoaded name = true := hlogged.isLoaded_of_environment henv
    constructor
    case reload => exact hreload
    case load => rw [hagain, execAll_ofOrigin, loadOrigin_eq (hnamed₁ name env₁ henv₁)]
    case issued =>
      obtain ⟨records, heq⟩ := r.exists_announced name h₁
      have hissued : (r.announced name h₁).runner.issued = h₁.runner.issued := by rw [heq]
      exact hissued ▸ hgone.goesOn.tasks
    case noneReturns => exact noneReturns_unload hg hlogged hloaded

theorem Reachable.load (hreach : Reachable g h) (source name : String) : Reachable g (load g source name h).2 :=
  hreach.step (.load source name)

theorem Reachable.execAll (hreach : Reachable g h) (ops : List (Operation α)) :
    Reachable g (execAll g ops h) := by
  induction ops generalizing h with
  | nil => exact hreach
  | cons op ops ih => exact ih (hreach.step op)

end Host

/-! ## A script that cleans up -/

namespace Guest.Caretaker

open Host

variable {w w' : World} {h h' : Heap} {number : ℕ} {v : Value}

/-! ### The script -/

/-- A script that has one function called when it is loaded, when it is unloaded, and by a task. -/
def source : String := "local function tidy() end script:on_load(tidy) script:on_unload(tidy) scheduler:run(tidy)"

/-- The code of that function, which does nothing. -/
def tidyCode : Code where
  chunk := "caretaker"
  params := 0
  isVararg := false
  locals := 0
  captures := []
  instrs := #[.ret 0 false]
  lines := #[0]
  children := #[]

/-- The instructions that make the function. -/
def making : List Instr := [.push .nil, .setLocal 0, .closure 0, .setLocal 0]

def instrs : List Instr :=
  making ++ (methodCall "script" "on_load" ++ (methodCall "script" "on_unload" ++
    (methodCall "scheduler" "run" ++ [.ret 0 false])))

def code : Code where
  chunk := "caretaker"
  params := 0
  isVararg := true
  locals := 1
  captures := [.upvalue 0]
  instrs := instrs.toArray
  lines := #[1, 1, 1, 1, 0, 0, 1, 1, 1, 1, 1, 0, 1, 0, 0, 1, 1, 1, 1, 1, 0, 1, 0, 0, 1, 1, 1, 1, 1, 0, 1, 0]
  children := #[tidyCode]

theorem compileChunk_source : compileChunk "=caretaker" source.toUTF8 = .ok code := by
  decide +kernel

/-! ### What it makes -/

/-- The function of the script. -/
def IsTidy (h : Heap) (v : Value) : Prop := ∃ f, v = .closure f ∧ h.closures[f]? = some ⟨tidyCode, #[]⟩

/-- A table with the objects of the script, whose control object has a number. -/
structure Furnished (h : Heap) (number : ℕ) (g : Ref) : Prop where
  lt : g < h.tables.size
  script : h.rawGet g (.ofText "script") = .object (.control number)
  scheduler : h.rawGet g (.ofText "scheduler") = .object (.scheduler "caretaker" number)

/-- Globals of the script. -/
def AreGlobals (h : Heap) (number : ℕ) (v : Value) : Prop := ∃ g, v = .table g ∧ Furnished h number g

/-- The body of the script over globals of it. -/
def IsBody (h : Heap) (number : ℕ) (v : Value) : Prop :=
  ∃ f cell g, v = .closure f ∧ h.closures[f]? = some ⟨code, #[cell]⟩ ∧ h.cells[cell]? = some (.table g) ∧
    Furnished h number g

theorem IsTidy.grows (hv : IsTidy h v) (hh : h.Grows h') : IsTidy h' v := by
  obtain ⟨f, rfl, hclosure⟩ := hv
  exact ⟨f, rfl, hh.closures f _ hclosure⟩

theorem Furnished.grows {g : Ref} (hg : Furnished h number g) (hh : h.Grows h') : Furnished h' number g :=
  ⟨Nat.lt_of_lt_of_le hg.lt hh.size, (hh.rawGet hg.lt _).trans hg.script, (hh.rawGet hg.lt _).trans hg.scheduler⟩

theorem AreGlobals.grows (hv : AreGlobals h number v) (hh : h.Grows h') : AreGlobals h' number v := by
  obtain ⟨g, rfl, hg⟩ := hv
  exact ⟨g, rfl, hg.grows hh⟩

theorem IsBody.grows (hv : IsBody h number v) (hh : h.Grows h') : IsBody h' number v := by
  obtain ⟨f, cell, g, rfl, hclosure, hcell, hg⟩ := hv
  exact ⟨f, cell, g, rfl, hh.closures f _ hclosure, hh.cells cell _ hcell, hg.grows hh⟩

theorem isTidy_allocClosure (h : Heap) :
    IsTidy (h.allocClosure ⟨tidyCode, #[]⟩).2 (.closure h.closures.size) :=
  ⟨_, rfl, Array.getElem?_push_size⟩

theorem Furnished.of_ownObjects {g : Ref} (hlt : g < h.tables.size)
    (hown : ∀ entry ∈ ownObjects "caretaker" number, h.rawGet g (.ofText entry.1) = entry.2) : Furnished h number g :=
  ⟨hlt, hown ("script", _) (by simp [ownObjects]), hown ("scheduler", _) (by simp [ownObjects])⟩

theorem newGlobals_caretaker (w : World) (number : ℕ) :
    Enlarged w (newGlobals "caretaker" none number w).2 ∧
      AreGlobals (newGlobals "caretaker" none number w).2.guest number (newGlobals "caretaker" none number w).1 := by
  obtain ⟨g, hg, hnew⟩ := newGlobals_spec (w := w) "caretaker" none number
  exact ⟨hnew.enlarged, g, hg, .of_ownObjects hnew.sandbox.lt hnew.value⟩

theorem compile_source (w : World) (globals : Value) :
    interpreter.compile "caretaker" globals source w =
      (.ok (.closure w.guest.closures.size), { w with guest := (w.guest.closeChunk code globals).2 }) := by
  have htitle : "=" ++ "caretaker" = "=caretaker" := by decide
  show compileSource ("=" ++ "caretaker") globals source w = _
  rw [htitle, compileSource, compileChunk_source]
  rfl

theorem isBody_closeChunk {globals : Value} (hglobals : AreGlobals h number globals) :
    IsBody (h.closeChunk code globals).2 number (.closure h.closures.size) := by
  obtain ⟨g, rfl, hg⟩ := hglobals
  refine ⟨_, h.cells.size, g, rfl, Array.getElem?_push_size, ?_, hg.grows (.closeChunk h code _)⟩
  exact Array.getElem?_push_size

/-! ### What it does -/

theorem run_tidy (hv : IsTidy w.guest v) : interpreter.run v w = (.ok (), w) := by
  obtain ⟨f, rfl, hclosure⟩ := hv
  have hreturn : Advances 1 ((Closure.activate ⟨tidyCode, #[]⟩ [] 1).at {} w 0 []) (⟨.give [], {}⟩, w) :=
    .execute (i := .ret 0 false) rfl rfl
  exact run_of_advances hclosure hreturn (by decide)

/-- What the body of the script does to the host. -/
def acts (h : Heap) (number : ℕ) : List (Act Heap Value) :=
  [.think (h.allocClosure ⟨tidyCode, #[]⟩).2, .onLoad number (.closure h.closures.size),
    .onUnload number (.closure h.closures.size),
    .schedule "caretaker" (.closure h.closures.size) .sync .immediate]

/-- The body of the script at an instruction, when it has made the function. -/
def frame (cell : Ref) (tidy : Value) (pc : ℕ) (want : Option ℕ) : Activation :=
  { code, upvalues := #[cell], locals := #[tidy], depth := 1, pc, want }

theorem run_body (hbody : IsBody w.guest number v) (hbalances : Scheduler.Balances [] w.scheduler) :
    interpreter.run v w = (.ok (), Act.performAll (acts w.guest number) w) := by
  obtain ⟨f, cell, g, rfl, hclosure, hcell, hg⟩ := hbody
  let tidy : Ref := w.guest.closures.size
  let w₁ : World := { w with guest := (w.guest.allocClosure ⟨tidyCode, #[]⟩).2 }
  let w₂ := (Act.onLoad number (.closure tidy)).perform w₁
  let w₃ := (Act.onUnload number (.closure tidy)).perform w₂
  let w₄ := (Act.schedule "caretaker" (.closure tidy) .sync .immediate).perform w₃
  obtain ⟨-, hload⟩ := code.hasAt_instrs.append
  obtain ⟨hload, hunload⟩ := hload.append
  obtain ⟨hunload, hschedule⟩ := hunload.append
  have hmake : Advances 4 ((Closure.activate ⟨code, #[cell]⟩ [] 1).at {} w 0 [])
      ((frame cell (.closure tidy) 4 none).at {} w₁ 0 []) := by
    have hnil : Advances 1 ((Closure.activate ⟨code, #[cell]⟩ [] 1).at {} w 0 [])
        ((Closure.activate ⟨code, #[cell]⟩ [] 1).at {} w 1 [.nil]) := .execute (i := .push .nil) rfl rfl
    have hset : Advances 1 ((Closure.activate ⟨code, #[cell]⟩ [] 1).at {} w 1 [.nil])
        ((frame cell .nil 2 none).at {} w 0 []) := .execute (i := .setLocal 0) rfl rfl
    have hclose : Advances 1 ((frame cell .nil 2 none).at {} w 0 [])
        ((frame cell .nil 2 none).at {} w₁ 1 [.closure tidy]) := .execute (i := .closure 0) rfl rfl
    have hkeep : Advances 1 ((frame cell .nil 2 none).at {} w₁ 1 [.closure tidy])
        ((frame cell (.closure tidy) 4 none).at {} w₁ 0 []) := .execute (i := .setLocal 0) rfl rfl
    exact ((hnil.trans hset).trans hclose).trans hkeep
  have henv : w₁.guest.cell (#[cell].getD 0 0) = .table g := by
    show w.guest.cell cell = _
    rw [Heap.cell, hcell]
    rfl
  -- the three statements that follow call methods, and each of those is one act
  have honLoad : Advances 11 ((frame cell (.closure tidy) 4 none).at {} w₁ 0 [])
      ((frame cell (.closure tidy) 13 (some 0)).at {} w₂ 0 []) :=
    advances_methodCall hload rfl henv hg.script rfl (apply_onLoad number tidy)
  have honUnload : Advances 11 ((frame cell (.closure tidy) 13 (some 0)).at {} w₂ 0 [])
      ((frame cell (.closure tidy) 22 (some 0)).at {} w₃ 0 []) :=
    advances_methodCall hunload rfl henv hg.script rfl (apply_onUnload number tidy)
  obtain ⟨task, hrun⟩ := apply_run (w := w₃) hbalances "caretaker" number tidy
  have hsubmit : Advances 11 ((frame cell (.closure tidy) 22 (some 0)).at {} w₃ 0 [])
      ((frame cell (.closure tidy) 31 (some 0)).at {} w₄ 0 []) :=
    advances_methodCall hschedule.append.1 rfl henv hg.scheduler rfl hrun
  have hreturn : Advances 1 ((frame cell (.closure tidy) 31 (some 0)).at {} w₄ 0 []) (⟨.give [], {}⟩, w₄) :=
    .execute (i := .ret 0 false) rfl rfl
  exact run_of_advances hclosure ((((hmake.trans honLoad).trans honUnload).trans hsubmit).trans hreturn) (by decide)

/-! ### What it depends on -/

/-- A heap comes before those that it can grow to. -/
instance : Preorder Heap where
  le := Heap.Grows
  le_refl := .refl
  le_trans _ _ _ := .trans

variable {m m' : Matching × Heap × Heap} {i j : ℕ} {a b : Value} {s t : Heap}

/-- The function of the script in either run. -/
def BothTidy (m : Matching × Heap × Heap) (a b : Value) : Prop := IsTidy m.2.1 a ∧ IsTidy m.2.2 b

/-- Globals of the script in either run, with control objects that match. -/
def BothGlobals (m : Matching × Heap × Heap) (a b : Value) : Prop :=
  ∃ i j, m.1.control i j ∧ AreGlobals m.2.1 i a ∧ AreGlobals m.2.2 j b

theorem BothTidy.mono (hm : m ≤ m') (hab : BothTidy m a b) : BothTidy m' a b :=
  ⟨hab.1.grows hm.2.1, hab.2.grows hm.2.2⟩

theorem BothGlobals.mono (hm : m ≤ m') (hab : BothGlobals m a b) : BothGlobals m' a b := by
  obtain ⟨i, j, hij, ha, hb⟩ := hab
  exact ⟨i, j, hm.1.2.2 i j hij, ha.grows hm.2.1, hb.grows hm.2.2⟩

/-- What the two runs know of their heaps is that these have grown from two others. -/
def likeness : Likeness Heap Value where
  Own := Heap × Heap
  state m s t := m.2 ≤ (s, t)
  value m a b := BothTidy m a b ∨ BothGlobals m a b
  hook := BothTidy
  state_mono _ hstate := hstate
  value_mono hm := Or.imp (.mono hm) (.mono hm)
  hook_mono := .mono

/-- Both heaps grow. -/
theorem likeActs_think {h₁ h₂ : World} (hlike : likeness.LikeHost m h₁ h₂) (hs : h₁.guest.Grows s)
    (ht : h₂.guest.Grows t) : likeness.LikeActs m h₁ h₂ [.think s] [.think t] (m.1, (s, t)) :=
  have hgrown : m.2 ≤ (s, t) := le_trans (α := Heap × Heap) hlike.guest ⟨hs, ht⟩
  .cons (.think hgrown (le_refl (α := Heap × Heap) (s, t))) (.nil ..)

/-- The body does the like in both runs. -/
theorem runAlike_body (hij : m.1.control i j) (ha : IsBody m.2.1 i a) (hb : IsBody m.2.2 j b) :
    interpreter.RunAlike likeness m a b := by
  intro m' hm h₁ h₂ hlike
  have ha' : IsBody h₁.guest i a := (ha.grows hm.2.1).grows hlike.guest.1
  have hb' : IsBody h₂.guest j b := (hb.grows hm.2.2).grows hlike.guest.2
  have hij' : m'.1.control i j := hm.1.2.2 i j hij
  rw [run_body ha' hlike.tasks.balances.1, run_body hb' hlike.tasks.balances.2]
  have hgrown : m'.2 ≤ ((h₁.guest.allocClosure ⟨tidyCode, #[]⟩).2, (h₂.guest.allocClosure ⟨tidyCode, #[]⟩).2) :=
    le_trans (α := Heap × Heap) hlike.guest ⟨.allocClosure _ _, .allocClosure _ _⟩
  have htidy := And.intro (isTidy_allocClosure h₁.guest) (isTidy_allocClosure h₂.guest)
  exact ⟨acts h₁.guest i, acts h₂.guest j, _,
    .cons (.think hgrown (le_refl (α := Heap × Heap) _)) <| .cons (.onLoad hij' htidy) <|
      .cons (.onUnload hij' (Or.inl htidy)) <|
        .cons (.schedule "caretaker" (Or.inl htidy) .sync .immediate) <| .nil ..,
    rfl, rfl, rfl⟩

/-- **A load of the script depends on nothing** but what is alike. -/
theorem loadsAlike (m₀ : likeness.World) : interpreter.LoadsAlike likeness m₀ "caretaker" none source where
  hook m _ a b hab h₁ h₂ hlike := by
    rw [run_tidy (hab.1.grows hlike.guest.1), run_tidy (hab.2.grows hlike.guest.2)]
    exact ⟨[], [], m, .nil .., rfl, rfl, trivial⟩
  body m _ i j hij h₁ h₂ hlike := by
    obtain ⟨hmore₁, hglobals₁⟩ := newGlobals_caretaker h₁ i
    obtain ⟨hmore₂, hglobals₂⟩ := newGlobals_caretaker h₂ j
    refine ⟨_, _, _, likeActs_think hlike hmore₁.toGrows hmore₂.toGrows, hmore₁.rest, hmore₂.rest,
      Or.inr ⟨i, j, hij, hglobals₁, hglobals₂⟩, ?_⟩
    -- from now on the globals are there, in heaps that grow
    intro m' hm h₁' h₂' hlike'
    have ha := (hglobals₁.grows hm.2.1).grows hlike'.guest.1
    have hb := (hglobals₂.grows hm.2.2).grows hlike'.guest.2
    rw [compile_source, compile_source]
    exact ⟨_, _, _, likeActs_think hlike' (.closeChunk _ code _) (.closeChunk _ code _), rfl, rfl,
      .ok (runAlike_body (hm.1.2.2 i j hij) (isBody_closeChunk ha) (isBody_closeChunk hb))⟩

/-! ### Hosts that have loaded it -/

/-- A host in which the script has been loaded, and what it was before: the script's control object is the newest, and
nobody else has anything new. -/
structure Lodged (w w' : World) : Prop where
  spares : Spares "caretaker" w w'
  settings : SameSettings w w'
  tick : w'.runner.now = w.runner.now
  size : w'.controls.size = w.controls.size + 1
  control : ∃ tidy, IsTidy w'.guest tidy ∧
    w'.control? w.controls.size = some ⟨"caretaker", none, [tidy], [tidy], []⟩

variable {w'' : World}

theorem Lodged.keep (hlodged : Lodged w w') (hspares : Spares "caretaker" w' w'')
    (hsettings : SameSettings w' w'') (htick : w''.runner.now = w'.runner.now) (hguest : w''.guest = w'.guest)
    (hcontrols : w''.controls = w'.controls) : Lodged w w'' where
  spares := hlodged.spares.trans hspares
  settings := hlodged.settings.trans hsettings
  tick := htick.trans hlodged.tick
  size := hcontrols ▸ hlodged.size
  control := by
    obtain ⟨tidy, htidy, hcontrol⟩ := hlodged.control
    exact ⟨tidy, hguest ▸ htidy, by rw [Host.control?, hcontrols]; exact hcontrol⟩

theorem Lodged.logged (hlodged : Lodged w w') (records : Array Record) : Lodged w { w' with records := records } :=
  hlodged.keep (Spares.refl.logged records) ⟨rfl, rfl, rfl⟩ rfl rfl rfl

theorem Lodged.setPhase (hlodged : Lodged w w') (phase : Option Phase) :
    Lodged w (Host.setPhase "caretaker" phase w').2 :=
  hlodged.keep (Spares.refl.setPhase phase) ⟨rfl, rfl, rfl⟩ rfl rfl rfl

theorem Lodged.publish (hlodged : Lodged w w') : Lodged w (Host.publish "caretaker" w').2 := by
  have hspares := spares_publish "caretaker" w'
  obtain ⟨commands, records, heq, -⟩ := publish_eq "caretaker" w'
  rw [heq] at hspares ⊢
  exact hlodged.keep hspares ⟨rfl, rfl, rfl⟩ rfl rfl rfl

/-- The hooks of the script do nothing. -/
theorem runHooks_tidy {hooks : List Value} (hhooks : ∀ hook ∈ hooks, IsTidy w.guest hook) (kind : String) :
    runHooks interpreter "caretaker" kind hooks w = ((), w) := by
  induction hooks with
  | nil => rfl
  | cons hook hooks ih =>
    rw [List.forall_mem_cons] at hhooks
    rw [runHooks, bind_run, run_tidy hhooks.1]
    exact ih hhooks.2

theorem environments_publish (name : String) (w : World) : (Host.publish name w).2.environments = w.environments := by
  obtain ⟨commands, records, heq, -⟩ := publish_eq name w
  rw [heq]

/-- The script is entered among the loaded ones. -/
theorem Lodged.enter (hlodged : Lodged w w') (env : Environment Value) (henv : env.control = w.controls.size) :
    Lodged w (Host.enter interpreter "caretaker" env w').2 ∧
      (Host.enter interpreter "caretaker" env w').2.environment? "caretaker" = some env := by
  have hentered : Lodged w (w'.entered "caretaker" env) :=
    hlodged.keep (spares_entered "caretaker" env w') ⟨rfl, rfl, rfl⟩ rfl rfl rfl
  have hpublished : Lodged w (Host.publish "caretaker" (w'.entered "caretaker" env)).2 := hentered.publish
  obtain ⟨tidy, htidy, hcontrol⟩ := hpublished.control
  have hhooks : (Host.publish "caretaker" (w'.entered "caretaker" env)).2.loadHooks env = [tidy] := by
    rw [Host.loadHooks, henv, hcontrol]
    rfl
  obtain ⟨records, heq⟩ := enter_eq interpreter "caretaker" env w'
  rw [heq, hhooks, runHooks_tidy (by simpa using htidy)]
  refine ⟨hpublished.publish.logged records, ?_⟩
  show (Host.publish "caretaker" (Host.publish "caretaker" (w'.entered "caretaker" env)).2).2.environments.get? _ = _
  rw [environments_publish, environments_publish]
  exact (NameMap.get?_insert ..).trans (if_pos rfl)

/-- What the body of the script does, where the script has new surroundings. -/
theorem lodged_acts {guest : Heap} {records : Array Record} {w₁ : World}
    (hw₁ : w₁ = { w.withControl "caretaker" (.inline source) with guest := guest, records := records })
    (h₀ : Orderly none w₁) : Lodged w (Act.performAll (acts guest w.controls.size) w₁) := by
  have hnew : w₁.control? w.controls.size = some ⟨"caretaker", none, [], [], []⟩ := by
    rw [hw₁]
    exact Array.getElem?_push_size
  have hown : ∀ act ∈ acts guest w.controls.size, act.InNameOf "caretaker" w₁ := by
    intro act hact
    refine ⟨w.controls.size, ⟨_, hnew, rfl⟩, ?_⟩
    simp only [acts, List.mem_cons, List.not_mem_nil, or_false] at hact
    rcases hact with rfl | rfl | rfl | rfl <;> simp [Act.IsOwn]
  have hstart : Spares "caretaker" w w₁ := by
    have hspares : Spares "caretaker" w (w.withControl "caretaker" (.inline source)) := spares_withControl .refl _
    rw [hw₁]
    exact { hspares with }
  have hgoes := Act.performAll_goesOn (acts guest w.controls.size) h₀
  have hbooks := (Act.performAll_orderly (acts guest w.controls.size) h₀).2
  constructor
  case spares => exact hstart.trans (Act.performAll_spares _ hown h₀)
  case settings =>
    have hsettings : SameSettings w w₁ := by rw [hw₁]; exact ⟨rfl, rfl, rfl⟩
    exact hsettings.trans hbooks.sameSettings
  case tick => rw [hgoes.tick, hw₁]; rfl
  case size => rw [hgoes.controls, hw₁]; exact Array.size_push _
  case control =>
    -- the hooks are entered, and the task that is submitted does not matter to the control object
    let tidy : Value := .closure guest.closures.size
    let w₂ : World := { w₁ with guest := (guest.allocClosure ⟨tidyCode, #[]⟩).2 }
    let w₄ : World := (Act.onUnload w.controls.size tidy).perform ((Act.onLoad w.controls.size tidy).perform w₂)
    have hhooks : w₄.control? w.controls.size = some ⟨"caretaker", none, [tidy], [tidy], []⟩ := by
      have hnew₂ : w₂.control? w.controls.size = some ⟨"caretaker", none, [], [], []⟩ := hnew
      refine (control?_modify _ _ _).trans ((if_pos rfl).trans ?_)
      rw [show ((Act.onLoad w.controls.size tidy).perform w₂).control? w.controls.size = _ from
        (control?_modify _ _ _).trans (if_pos rfl), hnew₂]
      rfl
    obtain ⟨record, hscheduled⟩ := schedule_eq (h := w₄) h₀.tasks.balances "caretaker" tidy .sync .immediate
    refine ⟨tidy, ?_, ?_⟩
    · show IsTidy (schedule "caretaker" tidy .sync .immediate w₄).2.guest tidy
      rw [hscheduled]
      exact isTidy_allocClosure guest
    · show (schedule "caretaker" tidy .sync .immediate w₄).2.control? w.controls.size = _
      rw [hscheduled]
      exact hhooks

/-- The script comes into being in any host. -/
theorem instantiate_caretaker (h₀ : Orderly none w) :
    ∃ env w', instantiate interpreter "caretaker" (.inline source) source w = (.ok env, w') ∧
      env.origin = .inline source ∧ env.control = w.controls.size ∧ Lodged w w' := by
  obtain ⟨env, g, guest, records, hcreated, horigin, hcontrol, hg, -, -, hsandbox, hown⟩ :=
    Guest.createEnvironment_spec (w := w) "caretaker" (.inline source)
  have hglobals : AreGlobals guest w.controls.size env.globals := ⟨g, hg, .of_ownObjects hsandbox.lt hown⟩
  have hcreated₀ := ((Host.createEnvironment_spec interpreter_keepsToApi "caretaker" (.inline source)).1 none w h₀).1
  rw [hcreated] at hcreated₀
  let w₁ : World := { w.withControl "caretaker" (.inline source) with
    guest := (guest.closeChunk code env.globals).2, records := records }
  have hbody : IsBody w₁.guest w.controls.size (.closure guest.closures.size) := isBody_closeChunk hglobals
  have hclosed₀ : Orderly none w₁ := ((Act.think w₁.guest).perform_orderly hcreated₀).1
  exact ⟨env, _, instantiate_of_ok hcreated (compile_source _ _) (run_body hbody hclosed₀.tasks.balances), horigin,
    hcontrol, lodged_acts rfl hclosed₀⟩

/-- **The script can be loaded** in every host that has not loaded it. -/
theorem load_caretaker (h₀ : Orderly none w) (hout : w.isLoaded "caretaker" = false) :
    ∃ env w', load interpreter source "caretaker" w = (.ok (), w') ∧ Lodged w w' ∧
      w'.environment? "caretaker" = some env ∧ env.origin = .inline source ∧ env.control = w.controls.size := by
  obtain ⟨env, w', hbody, horigin, hcontrol, hlodged⟩ :=
    instantiate_caretaker (Tidy.setPhase "caretaker" (some .loading) w h₀)
  obtain ⟨hentered, henv⟩ := (hlodged.setPhase none).enter env hcontrol
  have hload : load interpreter source "caretaker" w =
      loadAgain interpreter "caretaker" (.inline source) w := by
    rw [← loadOrigin_eq (by decide)]
    rfl
  rw [hload, loadAgain_eq hout, again?]
  refine ⟨env, _, bringUp_of_ok hbody, ?_, henv, horigin, hcontrol⟩
  have hsettings := hentered.settings
  exact { hentered with
    spares := (Spares.refl.setPhase (some .loading)).trans hentered.spares
    settings := ⟨hsettings.policy, hsettings.bundles, hsettings.files⟩ }

/-! ### Two hosts -/

/-- A new host, where a load replaces what is loaded. -/
def start : World := { guest := Heap.start, policy := .reload }

/-- It has loaded the script. -/
def settled : World := (load interpreter source "caretaker" start).2

/-- The script also submits a task that repeats, and shares an object. -/
def bustle : List (Operation Value) :=
  [.schedule "caretaker" (.native (.base .tostring)) .async (.repeating 2 5),
    .share (.script "caretaker") "broom" (some (.int 1))]

/-- The same, with that. -/
def busy : World := execAll interpreter bustle settled

theorem start_reachable : Reachable interpreter start := .new Heap.start .reload _ _ _ _

theorem settled_reachable : Reachable interpreter settled := by
  rw [settled]
  exact start_reachable.load source "caretaker"

theorem busy_reachable : Reachable interpreter busy := settled_reachable.execAll _

/-- What is said here of both hosts: the script has been loaded into the new host. -/
def Loaded (w : World) : Prop :=
  Lodged start w ∧ ∃ env, w.environment? "caretaker" = some env ∧ env.origin = .inline source ∧ env.control = 0

theorem loaded_settled : Loaded settled := by
  obtain ⟨env, w', hload, hlodged, henv, horigin, hcontrol⟩ :=
    load_caretaker (start_reachable.orderly interpreter_keepsToApi) rfl
  rw [settled, hload]
  exact ⟨hlodged, env, henv, horigin, hcontrol⟩

/-- What the script does then, it does with its own objects. -/
theorem Loaded.after_bustle (hloaded : Loaded w) (h₀ : Orderly none w) : Loaded (execAll interpreter bustle w) := by
  obtain ⟨hlodged, env, henv, horigin, hcontrol⟩ := hloaded
  obtain ⟨tidy, -, hc⟩ := hlodged.control
  let scheduling : Act Heap Value := .schedule "caretaker" (.native (.base .tostring)) .async (.repeating 2 5)
  obtain ⟨record, hscheduled⟩ := schedule_eq h₀.tasks.balances "caretaker" (Value.native (.base .tostring)) .async
    (.repeating 2 5)
  have hname : (scheduling.perform w).controlName 0 = "caretaker" := by
    have hsame : (scheduling.perform w).control? 0 = w.control? 0 := by
      rw [Act.perform, hscheduled]
      rfl
    rw [controlName, hsame, show w.control? 0 = _ from hc]
    rfl
  have hacts : execAll interpreter bustle w =
      Act.performAll [scheduling, .share 0 "broom" (some (.int 1))] w :=
    congrArg (fun script => (share (.script script) "broom" (some (Value.int 1)) (scheduling.perform w)).2) hname.symm
  have hspares : Spares "caretaker" w (execAll interpreter bustle w) := by
    rw [hacts]
    refine Act.performAll_spares _ (fun act hact => ⟨0, ⟨_, hc, rfl⟩, ?_⟩) h₀
    rcases List.mem_pair.mp hact with rfl | rfl <;> rfl
  obtain ⟨objects, records, -, hshared⟩ := share_eq (h := scheduling.perform w) (.script "caretaker") "broom"
    (some (.int 1))
  have hafter : execAll interpreter bustle w = { w with
      runner := (scheduling.perform w).runner
      scheduler := (scheduling.perform w).scheduler
      objects := objects
      records := records } := by
    refine hshared.trans ?_
    rw [Act.perform, hscheduled]
  rw [hafter] at hspares ⊢
  have htick : (scheduling.perform w).runner.now = w.runner.now := by
    rw [Act.perform, hscheduled]
    rfl
  exact ⟨hlodged.keep hspares ⟨rfl, rfl, rfl⟩ htick rfl rfl, env, henv, horigin, hcontrol⟩

theorem loaded_busy : Loaded busy :=
  loaded_settled.after_bustle (settled_reachable.orderly interpreter_keepsToApi)

/-- Only the control objects of the script match. -/
def matched : likeness.World :=
  (⟨fun _ _ => False, fun _ _ => False, fun i j => i = 0 ∧ j = 0⟩, (settled.guest, busy.guest))

/-- In the new host nobody had anything, so hosts that have loaded the script since agree besides it. -/
theorem besides {w₁ w₂ : World} (h₁ : Loaded w₁) (h₂ : Loaded w₂) (hguest : matched.2 ≤ (w₁.guest, w₂.guest)) :
    ∃ env₁ env₂, env₁.control = 0 ∧ env₂.control = 0 ∧ env₁.origin = .inline source ∧
      likeness.Besides matched "caretaker" env₁ env₂ w₁ w₂ := by
  obtain ⟨hlodged₁, env₁, henv₁, horigin₁, hzero₁⟩ := h₁
  obtain ⟨hlodged₂, env₂, henv₂, horigin₂, hzero₂⟩ := h₂
  obtain ⟨tidy₁, -, hc₁⟩ := hlodged₁.control
  obtain ⟨tidy₂, -, hc₂⟩ := hlodged₂.control
  have hs₁ := hlodged₁.spares
  have hs₂ := hlodged₂.spares
  refine ⟨env₁, env₂, hzero₁, hzero₂, horigin₁, ?_⟩
  constructor
  case environment => exact ⟨henv₁, henv₂⟩
  case origin => exact horigin₁.trans horigin₂.symm
  case guest => exact hguest
  case tasks =>
    -- there are no other tasks, so none need to be matched
    have hnever : ∀ a b, Matching.Fits (fun _ _ => False) a b := fun _ _ =>
      ⟨⟨fun _ _ _ h => h.elim, fun _ _ _ h => h.elim⟩, fun _ _ h => h.elim⟩
    refine ⟨hnever _ _, hnever _ _, hlodged₁.tick.trans hlodged₂.tick.symm, ?_, ?_, fun _ _ h => h.elim,
      fun _ _ h => h.elim⟩
    · rw [hs₁.tasks.queue, hs₂.tasks.queue]
      exact .nil
    · rw [hs₁.tasks.handles, hs₂.tasks.handles]
      exact .nil
  case objects =>
    intro n
    rw [hs₁.objects n, hs₂.objects n, show start.objects.foreign? "caretaker" n = none by rfl]
    exact .none
  case commands => exact fun n => (hs₁.commands n).trans (hs₂.commands n).symm
  case numbers =>
    have hsize₁ : w₁.controls.size = 1 := hlodged₁.size
    have hsize₂ : w₂.controls.size = 1 := hlodged₂.size
    refine ⟨⟨?_, ?_⟩, ?_⟩
    · rintro i j k ⟨rfl, -⟩ ⟨rfl, -⟩
      rfl
    · rintro i j k ⟨-, rfl⟩ ⟨-, rfl⟩
      rfl
    · rintro i j ⟨rfl, rfl⟩
      exact ⟨hsize₁ ▸ Nat.one_pos, hsize₂ ▸ Nat.one_pos⟩
  case control =>
    refine ⟨⟨hzero₁, hzero₂⟩, ?_⟩
    rw [hzero₁, hzero₂, show w₁.control? 0 = _ from hc₁, show w₂.control? 0 = _ from hc₂]
    rfl
  case controls => exact fun i j hij hi => absurd (hij.1.trans hzero₁.symm) hi
  case loaded => exact fun n hn => (hs₁.loaded n hn).trans (hs₂.loaded n hn).symm
  case environments =>
    intro n hn
    rw [hs₁.environments n hn, hs₂.environments n hn, show start.environments.get? n = none by rfl]
    exact .none
  case phases => exact fun n hn => (hs₁.phases n hn).trans (hs₂.phases n hn).symm
  case policy => exact hlodged₁.settings.policy.trans hlodged₂.settings.policy.symm
  case bundles => exact hlodged₁.settings.bundles.trans hlodged₂.settings.bundles.symm
  case files => exact hlodged₁.settings.files.trans hlodged₂.settings.files.symm

/-- The unload hook of the script does nothing. -/
theorem departsAlone (hloaded : Loaded w) {env : Environment Value} (hzero : env.control = 0) (r : Renewal) :
    likeness.DepartsAlone interpreter matched "caretaker" env (r.announced "caretaker" w) := by
  obtain ⟨tidy, htidy, hc⟩ := hloaded.1.control
  obtain ⟨records, heq⟩ := r.exists_announced "caretaker" w
  rw [heq]
  have hhooks : ({ w with records := records } : World).unloadHooks env = [tidy] := by
    rw [unloadHooks, hzero]
    show ((w.control? 0).map Control.unloadHooks).getD [] = _
    rw [show w.control? 0 = _ from hc]
    rfl
  have hafter : (afterHooks interpreter "caretaker" env { w with records := records }).guest = w.guest := by
    have hstill : ∀ hook ∈ [tidy], IsTidy (Host.setPhase "caretaker" (some .unloading)
        { w with records := records }).2.guest hook := by
      intro hook hhook
      rw [List.mem_singleton.mp hhook]
      exact htidy
    rw [afterHooks, hhooks, runHooks_tidy hstill]
    rfl
  refine ⟨?_, fun t ht => ?_, fun t ht => ?_⟩
  · rw [hhooks]
    refine ⟨⟨[], by simp, ?_⟩, trivial⟩
    exact congrArg Prod.snd (run_tidy (w := (Host.setPhase "caretaker" (some .unloading)
      { w with records := records }).2) htidy)
  · rw [hafter]
    exact ht
  · rw [hafter]
    exact ht

end Guest.Caretaker

namespace Host

open Guest Guest.Caretaker

/-- The script is reloaded in the one host, and replaced by the same source in the other, where it has been busy. -/
theorem renewal_starts_afresh_caretaker :
    (reload interpreter "caretaker" settled).1 = (load interpreter source "caretaker" busy).1 ∧
      ∃ m ≥ matched, likeness.LikeHost m (reload interpreter "caretaker" settled).2
        (load interpreter source "caretaker" busy).2 := by
  obtain ⟨env₁, env₂, hzero₁, hzero₂, horigin, hbesides⟩ := besides loaded_settled loaded_busy
    (le_refl (α := Heap × Heap) _)
  have hloads : ∀ origin text, settled.again? "caretaker" env₁.origin = .ok (origin, text) →
      interpreter.LoadsAlike likeness matched "caretaker" origin.folder? text := by
    intro origin text hagain
    rw [horigin] at hagain
    cases hagain
    exact loadsAlike matched
  obtain ⟨hrenewed, -⟩ := renewal_starts_afresh interpreter_keepsToApi settled_reachable busy_reachable hbesides
    hloads (fun r _ => departsAlone loaded_settled hzero₁ r) (fun r _ => departsAlone loaded_busy hzero₂ r)
  have hpolicy : busy.policy = .reload := loaded_busy.1.settings.policy
  have horigin₂ : env₂.origin = .inline source := hbesides.origin.symm.trans horigin
  have hboth := hrenewed .reload .replacing trivial ⟨hpolicy, source, horigin₂⟩
  rw [horigin₂] at hboth
  exact hboth

end Host
end ScriptHost
