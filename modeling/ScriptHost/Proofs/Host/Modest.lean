import ScriptHost.Lifecycle
import ScriptHost.Proofs.Host.Orderly

/-!
# What leaves the books alone

`Modest x`: whenever the host is in order, also while a task is firing, `x` keeps it so and leaves its books as
they are. That is what guest calls are, and everything that the host does around them without entering a script
among the loaded ones or taking it out: hooks, clean-up, and the making of new surroundings.
-/

namespace ScriptHost
namespace Host

open Scheduler

variable {γ α β : Type} {g : Guest γ α}

theorem log_run (r : Record) (h : Host γ α) :
    (log r : HostM γ α Unit) h = ((), { h with records := h.records.push r }) := rfl

/-- Order is kept and the books are left alone. -/
def Modest (x : HostM γ α β) : Prop :=
  ∀ flying h, Orderly flying h → Orderly flying (x h).2 ∧ KeepsBooks h (x h).2

namespace Modest

theorem pure (b : β) : Modest (Pure.pure b : HostM γ α β) := fun _ h h₀ => ⟨h₀, KeepsBooks.refl h⟩

theorem bind {δ : Type} {x : HostM γ α β} {f : β → HostM γ α δ} (hx : Modest x)
    (hf : ∀ b, Modest (f b)) : Modest (x >>= f) := by
  intro flying h h₀
  obtain ⟨hmid, hbooks⟩ := hx flying h h₀
  obtain ⟨hend, hbooks'⟩ := hf (x h).1 flying (x h).2 hmid
  exact ⟨hend, hbooks.trans hbooks'⟩

theorem read : Modest (Host.read : HostM γ α (Host γ α)) := fun _ h h₀ => ⟨h₀, KeepsBooks.refl h⟩

theorem log (r : Record) : Modest (ScriptHost.log r : HostM γ α Unit) := fun _ _ h₀ =>
  (Act.report r).perform_orderly h₀

theorem logAll (rs : List Record) : Modest (Host.logAll rs : HostM γ α Unit) := by
  induction rs with
  | nil => exact Modest.pure ()
  | cons r rs ih => exact Modest.bind (Modest.log r) fun _ => ih

theorem performAll {x : HostM γ α β} (hx : ∀ h, ∃ acts, (x h).2 = Act.performAll acts h) :
    Modest x := by
  intro flying h h₀
  obtain ⟨acts, heq⟩ := hx h
  rw [heq]
  exact Act.performAll_orderly acts h₀

theorem changeControl (number : ℕ) {f : Control α → Control α} (hf : ∀ c, (f c).name = c.name) :
    Modest (Host.changeControl number f : HostM γ α Unit) := fun _ _ h₀ =>
  ⟨h₀.of_keepsBooks (keepsBooks_changeControl number f hf) h₀.tasks h₀.objects,
    keepsBooks_changeControl number f hf⟩

theorem run (hg : g.KeepsToApi) (f : α) : Modest (g.run f) :=
  Modest.bind (Modest.performAll (hg.call f [])) fun _ => Modest.pure _

theorem runHooks (hg : g.KeepsToApi) (name kind : String) (hooks : List α) :
    Modest (Host.runHooks g name kind hooks) := by
  induction hooks with
  | nil => exact Modest.pure ()
  | cons hook hooks ih =>
    unfold Host.runHooks
    refine Modest.bind (Modest.run hg hook) fun answer => ?_
    cases answer with
    | ok _ => exact ih
    | error e => exact Modest.bind (Modest.log _) fun _ => ih

theorem cancelAllTasks (script : String) :
    Modest (Host.cancelAllTasks script : HostM γ α CancelSummary) := by
  intro flying h h₀
  obtain ⟨records, heq⟩ := cancelAllTasks_eq h₀.tasks.balances script
  rw [heq]
  have hbooks := keepsBooks_with (h := h) h.guest
    (cancelEach h.runner ((h.scheduler.handlesOf script).map TaskHandle.task))
    (h.scheduler.dropAll script) h.objects records
  exact ⟨h₀.of_keepsBooks hbooks (h₀.tasks.cancelAll script) h₀.objects, hbooks⟩

theorem releaseObjects (script : String) :
    Modest (Host.releaseObjects script : HostM γ α Nat) := by
  intro flying h h₀
  have hbooks := keepsBooks_with (h := h) h.guest h.runner h.scheduler
    (h.objects.releaseOwnedBy script).2 h.records
  exact ⟨h₀.of_keepsBooks hbooks h₀.tasks (h₀.objects.releaseOwnedBy script), hbooks⟩

theorem discard (env : Environment α) : Modest (Host.discard env : HostM γ α Unit) := by
  unfold Host.discard
  refine Modest.bind (Modest.changeControl _ fun _ => rfl) fun _ => ?_
  refine Modest.bind (Modest.cancelAllTasks _) fun _ => ?_
  refine Modest.bind (Modest.releaseObjects _) fun _ => ?_
  exact Modest.log _

/-- A new control object is nobody's business. -/
theorem pushControl (c : Control α) :
    Modest (change fun h => { h with controls := h.controls.push c } : HostM γ α Unit) := by
  intro flying h h₀
  have hbooks : KeepsBooks h { h with controls := h.controls.push c } := by
    refine ⟨rfl, rfl, rfl, rfl, rfl, rfl, rfl, rfl, fun number c' hc' => ⟨c', ?_, rfl⟩⟩
    have hlt : number < h.controls.size := (Array.getElem?_eq_some_iff.mp hc').1
    show (h.controls.push c)[number]? = some c'
    rw [Array.getElem?_push_lt hlt, ← Array.getElem?_eq_getElem hlt]
    exact hc'
  exact ⟨h₀.of_keepsBooks hbooks h₀.tasks h₀.objects, hbooks⟩

end Modest

/-! ## New surroundings -/

/-- An environment has a control object of its own. -/
def HasControl (env : Environment α) (h : Host γ α) : Prop :=
  ∃ c, h.control? env.control = some c ∧ c.name = env.name

theorem HasControl.keep {env : Environment α} {h h' : Host γ α} (hc : HasControl env h)
    (hbooks : KeepsBooks h h') : HasControl env h' := by
  obtain ⟨c, hcontrol, hname⟩ := hc
  obtain ⟨c', hcontrol', hname'⟩ := hbooks.control _ c hcontrol
  exact ⟨c', hcontrol', hname'.trans hname⟩

/-- A transition is nothing to a control object. -/
theorem HasControl.setPhase {env : Environment α} {h : Host γ α} (hc : HasControl env h)
    (name : String) (phase : Option Phase) : HasControl env (Host.setPhase name phase h).2 := hc

theorem createEnvironment_spec (hg : g.KeepsToApi) (name : String) (origin : Origin) :
    Modest (createEnvironment g name origin) ∧
      ∀ flying h, Orderly flying h → (createEnvironment g name origin h).1.name = name ∧
        HasControl (createEnvironment g name origin h).1 (createEnvironment g name origin h).2 := by
  have hglobals : ∀ number, Modest (g.createGlobals name origin.folder? number) := fun number =>
    Modest.performAll (hg.createGlobals name origin.folder? number)
  constructor
  · unfold createEnvironment
    refine Modest.bind Modest.read fun h => ?_
    refine Modest.bind (Modest.pushControl _) fun _ => ?_
    refine Modest.bind (hglobals _) fun globals => ?_
    exact Modest.bind (Modest.log _) fun _ => Modest.bind Modest.read fun _ => Modest.pure _
  · intro flying h h₀
    refine ⟨rfl, ?_⟩
    -- the new control object is there when the globals are made, and keeps its name
    have hpush := (Modest.pushControl (γ := γ) { name, folder := origin.folder? }) flying h h₀
    have hnew : HasControl ⟨name, origin, h.now, (createEnvironment g name origin h).1.globals,
        h.controls.size⟩ { h with controls := h.controls.push { name, folder := origin.folder? } } :=
      ⟨{ name, folder := origin.folder? }, Array.getElem?_push_size, rfl⟩
    have hmade := hglobals h.controls.size flying _ hpush.1
    exact (hnew.keep hmade.2).keep (Modest.log _ flying _ hmade.1).2

/-- Run a source in globals. -/
def runSource (g : Guest γ α) (name : String) (globals : α) (source : String) :
    HostM γ α (Except GuestError Unit) := do
  match ← g.compile name globals source with
  | .error e => pure (.error e)
  | .ok body => g.run body

/-- Keep an environment whose body has come to its end, or discard it. -/
def keepOrDiscard (name : String) (env : Environment α) :
    Except GuestError Unit → HostM γ α (Except HostError (Environment α))
  | .ok () => pure (.ok env)
  | .error e => do
    discard env
    pure (.error (.ofGuest name e))

theorem instantiate_eq (g : Guest γ α) (name : String) (origin : Origin) (source : String) :
    instantiate g name origin source = (do
      let env ← createEnvironment g name origin
      let result ← runSource g name env.globals source
      keepOrDiscard name env result) := by
  unfold instantiate runSource
  refine congrArg (createEnvironment g name origin >>= ·) (funext fun env => ?_)
  rw [bind_assoc]
  refine congrArg (g.compile name env.globals source >>= ·) (funext fun answer => ?_)
  cases answer <;> rfl

theorem Modest.runSource (hg : g.KeepsToApi) (name : String) (globals : α) (source : String) :
    Modest (Host.runSource g name globals source) := by
  refine Modest.bind (Modest.performAll (hg.compile name globals source)) fun answer => ?_
  cases answer with
  | error e => exact Modest.pure _
  | ok body => exact Modest.run hg body

theorem Modest.keepOrDiscard (name : String) (env : Environment α)
    (result : Except GuestError Unit) :
    Modest (Host.keepOrDiscard name env result : HostM γ α _) := by
  cases result with
  | ok _ => exact Modest.pure _
  | error e => exact Modest.bind (Modest.discard env) fun _ => Modest.pure _

theorem instantiate_spec (hg : g.KeepsToApi) (name : String) (origin : Origin) (source : String) :
    Modest (instantiate g name origin source) ∧
      ∀ flying h env, Orderly flying h → (instantiate g name origin source h).1 = .ok env →
        env.name = name ∧ HasControl env (instantiate g name origin source h).2 := by
  obtain ⟨hmodest, hcreated⟩ := createEnvironment_spec hg name origin
  rw [instantiate_eq]
  constructor
  · refine Modest.bind hmodest fun env => ?_
    exact Modest.bind (Modest.runSource hg _ _ _) fun result => Modest.keepOrDiscard _ _ result
  · intro flying h env h₀ hok
    obtain ⟨hname, hcontrol⟩ := hcreated flying h h₀
    have hran := Modest.runSource hg name (createEnvironment g name origin h).1.globals source
      flying _ (hmodest flying h h₀).1
    revert hok
    show (Host.keepOrDiscard name (createEnvironment g name origin h).1
      (Host.runSource g name (createEnvironment g name origin h).1.globals source
        (createEnvironment g name origin h).2).1 _).1 = .ok env → _ ∧ HasControl env
      (Host.keepOrDiscard name (createEnvironment g name origin h).1
        (Host.runSource g name (createEnvironment g name origin h).1.globals source
          (createEnvironment g name origin h).2).1 _).2
    cases (Host.runSource g name (createEnvironment g name origin h).1.globals source
      (createEnvironment g name origin h).2).1 with
    | error e => exact fun hok => nomatch hok
    | ok _ =>
      -- what the body has done keeps the control object of the environment
      intro hok
      obtain rfl := Except.ok.inj hok
      exact ⟨hname, hcontrol.keep hran.2⟩

end Host
end ScriptHost
