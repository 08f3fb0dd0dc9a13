import ScriptHost.Proofs.Histories
import ScriptHost.Proofs.Host.HookLists
import ScriptHost.Proofs.Host.Logging
import ScriptHost.Proofs.Host.Routing

/-!
# Hooks run once, in order

The hooks of an instance are due at one moment for each kind: the load hooks when its body has come to its end and it
stands among the loaded scripts, the unload hooks when its unload begins. Then those are called that have been
registered by then, each once, in the order of their registration.

* `HooksRun g trail`: so it is with all hooks on a trail.
* `Told g past h`: the invariant of a run, which couples a host with what has happened. Instances arrive
  (`Told.arrive`) and depart (`Told.depart`); what else happens calls no hook (`Told.work`).
-/

namespace ScriptHost
namespace Host

variable {γ α : Type}

/-! ## What is right -/

/-- The hooks of an instance are due on a trail. -/
def Due (kind : HookKind) (name : String) (number : ℕ) (trail : List (Happening γ α)) : Prop :=
  ∃ host, .due kind name number host ∈ trail

/-- Hooks of a script are due on a trail. -/
def Begins (kind : HookKind) (name : String) (trail : List (Happening γ α)) : Prop :=
  ∃ number, Due kind name number trail

/-- When hooks of a kind are due these are called, each once and in order, one after the other, whatever becomes of
each. None is called before, and none afterwards. -/
structure CalledOnce (g : Guest γ α) (kind : HookKind) (name : String) (number : ℕ) (hooks : List α)
    (host : Host γ α) (before after : List (Happening γ α)) : Prop where
  first : ∀ e ∈ before, ¬ e.Concerns kind number
  now : ∃ rest, after = hookTrail g kind name number hooks host ++ rest ∧ ∀ e ∈ rest, ¬ e.Concerns kind number

/-- A load that succeeds, from a host `h`. When the load hooks are due, at `host`, the body has come to its end, and
the script is loaded and has published its commands, except where others had the names. The load succeeds whatever
the hooks do. -/
structure Arrival (g : Guest γ α) (name : String) (origin : Origin) (source : String) (env : Environment α)
    (hooks : List α) (h host : Host γ α) : Prop where
  body : (instantiate g name origin source (setPhase name (some .loading) h).2).1 = .ok env
  number : env.control = h.controls.size
  environment : host.environment? name = some env
  loaded : host.isLoaded name = true
  phase : host.phase name = .loaded
  published : ∀ d ∈ host.declared env,
    host.commands.owner? d.name = some ((h.commands.owner? d.name).getD name)
  result : ∃ commands records, bringUp g name origin source h =
    (.ok (), { hooksDone g .load name hooks host with commands := commands, records := records })

/-- An unload, from a host `h`. When the unload hooks are due, at `host`, nothing has been released. When they have
run, all that the script has is taken away, and the unload succeeds whatever they did. -/
structure Departure (g : Guest γ α) (name : String) (env : Environment α) (hooks : List α)
    (h host : Host γ α) : Prop where
  environment : h.environment? name = some env
  begun : host = (setPhase name (some .unloading) h).2
  result : ∃ records, unload g name h = (.ok (),
    { (hooksDone g .unload name hooks host).without name env.control with records := records })

/-- The moment at which the hooks of an instance are due. -/
inductive Moment (g : Guest γ α) (name : String) (number : ℕ) (hooks : List α) (host : Host γ α)
    (before : List (Happening γ α)) : HookKind → Prop
  /-- The body has just come to its end, and nothing was registered with the control object before it began. -/
  | load {origin : Origin} {source : String} {env : Environment α} {h : Host γ α}
      {earlier : List (Happening γ α)} (harrival : Arrival g name origin source env hooks h host)
      (hnumber : env.control = number)
      (hbefore : before = earlier ++ [bodyOf g name origin source h])
      (hnew : Enlisted .load number (stintsOf earlier) []) : Moment g name number hooks host before .load
  /-- The instance has been loaded. -/
  | unload {env : Environment α} {h : Host γ α} (hdeparture : Departure g name env hooks h host)
      (hnumber : env.control = number)
      (hloaded : Due .load name number before) : Moment g name number hooks host before .unload

/-- The hooks on a trail are called when they are due, once, and in order: those are called that the guest has
registered by then. -/
structure HooksRun (g : Guest γ α) (trail : List (Happening γ α)) : Prop where
  due : ∀ before kind name number host after, trail = before ++ .due kind name number host :: after →
    ∃ hooks, Enlisted kind number (stintsOf before) hooks ∧
      CalledOnce g kind name number hooks host before after ∧ Moment g name number hooks host before kind
  /-- No hook is called that is not due. -/
  hook : ∀ kind number function stint, .hook kind number function stint ∈ trail →
    ∃ name, Due kind name number trail
  /-- The hooks of an instance whose load has failed are never called. -/
  failed : ∀ name number calls stints, .body name number false calls stints ∈ trail →
    ∀ e ∈ trail, ∀ kind, ¬ e.Concerns kind number

/-- The errors of hooks are in the log, as errors of the script. -/
def Logged (g : Guest γ α) (trail : List (Happening γ α)) (h : Host γ α) : Prop :=
  ∀ kind number function stint e, .hook kind number function stint ∈ trail →
    (g.run function stint.before).1 = .error e →
      ∃ name, Due kind name number trail ∧ hookRecord kind name e ∈ h.records

variable {g : Guest γ α} {h h' ended host : Host γ α} {past later trail : List (Happening γ α)}
  {stints : List (Stint γ α)} {e : Happening γ α} {kind kind' : HookKind} {name name' : String}
  {number number' : ℕ} {hooks : List α} {env env' : Environment α}

/-! ## Trails of hooks -/

theorem mem_hookTrail (he : e ∈ hookTrail g kind name number hooks h) :
    ∃ function stint, e = .hook kind number function stint := by
  induction hooks generalizing h with
  | nil => cases he
  | cons hook hooks ih =>
    rcases List.mem_cons.mp he with rfl | he
    · exact ⟨_, _, rfl⟩
    · exact ih he

/-- The stints in which hooks are called. -/
theorem stintsOf_dueTrail (g : Guest γ α) (kind : HookKind) (name : String) (number : ℕ) (hooks : List α)
    (h : Host γ α) :
    stintsOf (dueTrail g kind name number hooks h) = hookStints g name kind.text hooks h := by
  show stintsOf (hookTrail g kind name number hooks h) = _
  induction hooks generalizing h with
  | nil => rfl
  | cons hook hooks ih =>
    rw [hookStints, runHooks_one_eq, ← ih]
    rfl

@[simp] theorem due_append :
    Due kind name number (trail ++ later) ↔ Due kind name number trail ∨ Due kind name number later := by
  simp [Due, exists_or]

@[simp] theorem due_nil : ¬ Due kind name number ([] : List (Happening γ α)) := by
  simp [Due]

/-- Where hooks are called nothing else is due. -/
@[simp] theorem due_dueTrail : Due kind name number (dueTrail g kind' name' number' hooks host) ↔
    kind = kind' ∧ name = name' ∧ number = number' := by
  constructor
  · intro hdue
    obtain ⟨host', hmem⟩ := hdue
    rcases List.mem_cons.mp hmem with heq | hmem
    · rw [Happening.due.injEq] at heq
      exact ⟨heq.1, heq.2.1, heq.2.2.1⟩
    · obtain ⟨function, stint, heq⟩ := mem_hookTrail hmem
      cases heq
  · rintro ⟨rfl, rfl, rfl⟩
    exact ⟨host, List.mem_cons_self⟩

@[simp] theorem begins_append :
    Begins kind name (trail ++ later) ↔ Begins kind name trail ∨ Begins kind name later := by
  simp [Begins, exists_or]

@[simp] theorem begins_nil : ¬ Begins kind name ([] : List (Happening γ α)) := by
  simp [Begins]

@[simp] theorem begins_dueTrail :
    Begins kind name (dueTrail g kind' name' number' hooks host) ↔ kind = kind' ∧ name = name' := by
  simp [Begins]

theorem Due.exists_concerns (hdue : Due kind name number trail) : ∃ e ∈ trail, e.Concerns kind number := by
  obtain ⟨host, hmem⟩ := hdue
  exact ⟨_, hmem, rfl, rfl⟩

/-- What happens where hooks are called is about them. -/
theorem concerns_of_mem_dueTrail (he : e ∈ dueTrail g kind name number hooks host) {k : HookKind} {n : ℕ}
    (hconcerns : e.Concerns k n) : k = kind ∧ n = number := by
  rcases List.mem_cons.mp he with rfl | he
  · exact ⟨hconcerns.1.symm, hconcerns.2.symm⟩
  · obtain ⟨function, stint, rfl⟩ := mem_hookTrail he
    exact ⟨hconcerns.1.symm, hconcerns.2.symm⟩

namespace HooksRun

/-- What is about hooks happens to those that are due. -/
theorem exists_due (hruns : HooksRun g trail) (he : e ∈ trail) (hconcerns : e.Concerns kind number) :
    ∃ name, Due kind name number trail := by
  cases e with
  | work calls stints => exact hconcerns.elim
  | body name n succeeds calls stints => exact hconcerns.elim
  | due k name n host =>
    obtain ⟨rfl, rfl⟩ := hconcerns
    exact ⟨name, host, he⟩
  | hook k n function stint =>
    obtain ⟨rfl, rfl⟩ := hconcerns
    exact hruns.hook k n function stint he

/-- The hooks of a kind that an instance has are due once. -/
theorem due_unique (hruns : HooksRun g trail) (hdue : Due kind name number trail)
    (hdue' : Due kind name' number trail) : name = name' := by
  obtain ⟨host, hmem⟩ := hdue
  obtain ⟨host', hmem'⟩ := hdue'
  obtain ⟨before, after, heq⟩ := List.append_of_mem hmem
  obtain ⟨hooks, -, ⟨hfirst, rest, hnow, hnever⟩, -⟩ := hruns.due before kind name number host after heq
  rw [heq, hnow, ← List.cons_append] at hmem'
  rcases List.mem_append.mp hmem' with hbefore | hafter
  · exact absurd ⟨rfl, rfl⟩ (hfirst _ hbefore)
  · rcases List.mem_append.mp hafter with hblock | hrest
    · exact (due_dueTrail.mp ⟨host', hblock⟩).2.1.symm
    · exact absurd ⟨rfl, rfl⟩ (hnever _ hrest)

theorem nil : HooksRun g ([] : List (Happening γ α)) where
  due before kind name number host after heq := by
    have hempty := congrArg List.length heq
    simp at hempty
  hook _ _ _ _ hmem := nomatch hmem
  failed _ _ _ _ hmem := nomatch hmem

/-- A trail goes on. What comes later must be right, and must not be about hooks that have been due. -/
theorem append (hpast : HooksRun g past)
    (hquiet : ∀ kind name number, Due kind name number past → ∀ e ∈ later, ¬ e.Concerns kind number)
    (hdue : ∀ before kind name number host after, later = before ++ .due kind name number host :: after →
      ∃ hooks, Enlisted kind number (stintsOf (past ++ before)) hooks ∧
        CalledOnce g kind name number hooks host (past ++ before) after ∧
        Moment g name number hooks host (past ++ before) kind)
    (hhook : ∀ kind number function stint, .hook kind number function stint ∈ later →
      ∃ name, Due kind name number later)
    (hfailed : ∀ name number calls stints, .body name number false calls stints ∈ past →
      ∀ e ∈ later, ∀ kind, ¬ e.Concerns kind number)
    (hfailing : ∀ name number calls stints, .body name number false calls stints ∈ later →
      ∀ e ∈ past ++ later, ∀ kind, ¬ e.Concerns kind number) : HooksRun g (past ++ later) where
  due before kind name number host after heq := by
    rcases append_split heq with ⟨before', rfl, hlater⟩ | ⟨after', rfl, hold⟩
    · exact hdue before' kind name number host after hlater
    · obtain ⟨hooks, henlisted, ⟨hfirst, rest, hnow, hnever⟩, hmoment⟩ :=
        hpast.due before kind name number host after' hold
      -- hooks that have been due are not called again later
      have hthen : Due kind name number past := ⟨host, by rw [hold]; simp⟩
      refine ⟨hooks, henlisted, ⟨hfirst, rest ++ later, by rw [hnow, List.append_assoc], ?_⟩, hmoment⟩
      exact List.forall_mem_append.mpr ⟨hnever, hquiet kind name number hthen⟩
  hook kind number function stint hmem := by
    rcases List.mem_append.mp hmem with hmem | hmem
    · exact (hpast.hook kind number function stint hmem).imp fun _ hthen => due_append.mpr (.inl hthen)
    · exact (hhook kind number function stint hmem).imp fun _ hthen => due_append.mpr (.inr hthen)
  failed name number calls stints hmem := by
    rcases List.mem_append.mp hmem with hmem | hmem
    · exact List.forall_mem_append.mpr
        ⟨hpast.failed name number calls stints hmem, hfailed name number calls stints hmem⟩
    · exact hfailing name number calls stints hmem

/-- What happens next is not about hooks. -/
theorem snoc (hpast : HooksRun g past) (e : Happening γ α) (hquiet : ∀ kind number, ¬ e.Concerns kind number)
    (hfailing : ∀ name number calls stints, e = .body name number false calls stints →
      ∀ e' ∈ past, ∀ kind, ¬ e'.Concerns kind number) : HooksRun g (past ++ [e]) := by
  apply hpast.append
  · intro kind _ number _ e' he'
    rw [List.mem_singleton.mp he']
    exact hquiet kind number
  · intro before kind name number host after heq
    have hmem : .due kind name number host ∈ [e] := by rw [heq]; simp
    exact absurd ⟨rfl, rfl⟩ (List.mem_singleton.mp hmem ▸ hquiet kind number)
  · intro kind number function stint hmem
    exact absurd ⟨rfl, rfl⟩ (List.mem_singleton.mp hmem ▸ hquiet kind number)
  · intro name number calls stints _ e' he' kind
    rw [List.mem_singleton.mp he']
    exact hquiet kind number
  · intro name number calls stints hmem e' he' kind
    rcases List.mem_append.mp he' with hold | hnew
    · exact hfailing name number calls stints (List.mem_singleton.mp hmem).symm e' hold kind
    · rw [List.mem_singleton.mp hnew]
      exact hquiet kind number

/-- Hooks are due, and are called. -/
theorem block (hpast : HooksRun g past) (henlisted : Enlisted kind number (stintsOf past) hooks)
    (hfirst : ∀ e ∈ past, ¬ e.Concerns kind number) (hmoment : Moment g name number hooks host past kind)
    (hsucceeds : ∀ name calls stints, .body name number false calls stints ∉ past) :
    HooksRun g (past ++ dueTrail g kind name number hooks host) := by
  apply hpast.append
  · intro kind' name' number' hthen e he hconcerns
    obtain ⟨rfl, rfl⟩ := concerns_of_mem_dueTrail he hconcerns
    obtain ⟨e', he', hconcerns'⟩ := hthen.exists_concerns
    exact hfirst e' he' hconcerns'
  · intro before kind' name' number' host' after heq
    cases before with
    | nil =>
      rw [dueTrail, List.nil_append, List.cons.injEq, Happening.due.injEq] at heq
      obtain ⟨⟨rfl, rfl, rfl, rfl⟩, hafter⟩ := heq
      rw [List.append_nil]
      refine ⟨hooks, henlisted, ⟨hfirst, [], ?_, by simp⟩, hmoment⟩
      rw [← hafter, List.append_nil]
    | cons e before =>
      -- among the calls of hooks nothing is due
      have hmem : .due kind' name' number' host' ∈ hookTrail g kind name number hooks host := by
        rw [(List.cons.inj heq).2]
        simp
      obtain ⟨function, stint, hhook⟩ := mem_hookTrail hmem
      cases hhook
  · intro kind' number' function stint hmem
    obtain ⟨rfl, rfl⟩ := concerns_of_mem_dueTrail hmem ⟨rfl, rfl⟩
    exact ⟨name, due_dueTrail.mpr ⟨rfl, rfl, rfl⟩⟩
  · intro name' number' calls stints hmem e he kind' hconcerns
    obtain ⟨rfl, rfl⟩ := concerns_of_mem_dueTrail he hconcerns
    exact hsucceeds name' calls stints hmem
  · intro name' number' calls stints hmem
    rcases List.mem_cons.mp hmem with heq | hmem
    · cases heq
    · obtain ⟨function, stint, heq⟩ := mem_hookTrail hmem
      cases heq

end HooksRun

/-! ## Errors of hooks -/

theorem logKept_hooksDone (hg : g.KeepsToApi) (kind : HookKind) (name : String) (hooks : List α)
    (h : Host γ α) : LogKept h (hooksDone g kind name hooks h) := by
  have hkept := Logs.runHooks hg name kind.text hooks h
  rw [runHooks_eq] at hkept
  exact hkept

theorem Logged.keep (hlogged : Logged g past h) (hkept : LogKept h h') : Logged g past h' := by
  intro kind number function stint e hmem hraises
  obtain ⟨name, hdue, hrecord⟩ := hlogged kind number function stint e hmem hraises
  exact ⟨name, hdue, hkept.mem hrecord⟩

theorem Logged.append_quiet (hlogged : Logged g past h) (hkept : LogKept h h')
    (hquiet : ∀ e ∈ later, ∀ kind number, ¬ e.Concerns kind number) : Logged g (past ++ later) h' := by
  intro kind number function stint e hmem hraises
  rcases List.mem_append.mp hmem with hold | hnew
  · obtain ⟨name, hdue, hrecord⟩ := hlogged kind number function stint e hold hraises
    exact ⟨name, due_append.mpr (.inl hdue), hkept.mem hrecord⟩
  · exact absurd ⟨rfl, rfl⟩ (hquiet _ hnew kind number)

/-- When hooks have been called, their errors are in the log. -/
theorem record_mem_hooksDone (hg : g.KeepsToApi) {function : α} {stint : Stint γ α} {e : GuestError}
    (hmem : .hook kind' number' function stint ∈ hookTrail g kind name number hooks h)
    (hraises : (g.run function stint.before).1 = .error e) :
    hookRecord kind name e ∈ (hooksDone g kind name hooks h).records := by
  induction hooks generalizing h with
  | nil => cases hmem
  | cons hook hooks ih =>
    rcases List.mem_cons.mp hmem with heq | hmem
    · rw [Happening.hook.injEq] at heq
      obtain ⟨-, -, rfl, rfl⟩ := heq
      have hdone : hookRecord kind name e ∈ (hookDone kind name (g.run function h)).records := by
        have hpair : g.run function h = (.error e, (g.run function h).2) := Prod.ext hraises rfl
        rw [hpair]
        exact Array.mem_push_self
      exact (logKept_hooksDone hg kind name hooks _).mem hdone
    · exact ih hmem

theorem Logged.block (hlogged : Logged g past h) (hg : g.KeepsToApi) (hkept : LogKept h host)
    (hended : LogKept (hooksDone g kind name hooks host) h') :
    Logged g (past ++ dueTrail g kind name number hooks host) h' := by
  intro kind' number' function stint e hmem hraises
  rcases List.mem_append.mp hmem with hold | hnew
  · obtain ⟨name', hdue, hrecord⟩ := hlogged kind' number' function stint e hold hraises
    have hthrough := (hkept.trans (logKept_hooksDone hg kind name hooks host)).trans hended
    exact ⟨name', due_append.mpr (.inl hdue), hthrough.mem hrecord⟩
  · obtain ⟨rfl, rfl⟩ := concerns_of_mem_dueTrail hnew ⟨rfl, rfl⟩
    refine ⟨name, due_append.mpr (.inr (due_dueTrail.mpr ⟨rfl, rfl, rfl⟩)), ?_⟩
    rcases List.mem_cons.mp hnew with heq | hcalled
    · cases heq
    · exact hended.mem (record_mem_hooksDone hg hcalled hraises)

/-! ## A host and what has happened -/

/-- A host fits what has happened. -/
structure Told (g : Guest γ α) (past : List (Happening γ α)) (h : Host γ α) : Prop where
  hooks : HooksRun g past
  numbers : ∀ e ∈ past, ∀ n, e.number? = some n → n < h.controls.size
  fresh : ∀ kind n, h.controls.size ≤ n → Enlisted kind n (stintsOf past) []
  /-- The instances that are there are those that have been loaded and not unloaded. -/
  instances : ∀ name n, (∃ env, h.environment? name = some env ∧ env.control = n) ↔
    Due .load name n past ∧ ∀ name', ¬ Due .unload name' n past
  /-- The control object of an instance has the hooks that have been registered with it. -/
  listed : ∀ name env, h.environment? name = some env → ∀ kind,
    Enlisted kind env.control (stintsOf past) (h.hooksOf kind env.control)
  logged : Logged g past h

/-- Hooks of an instance have been called one after the other: what there is of hooks has grown by those that were
registered meanwhile. -/
theorem Enrols.gains_dueTrail (kind : HookKind) (henrols : Enrols (hookStints g name kind.text hooks host) host h')
    (hcontrols : host.controls = h.controls) (number : ℕ) :
    Gains (stintsOf (dueTrail g kind name number hooks host)) h h' := by
  intro k n
  obtain ⟨later, henlisted, hgot⟩ := henrols.hooks k n
  rw [stintsOf_dueTrail]
  exact ⟨later, henlisted, by rw [hgot, hooksOf_congr hcontrols]⟩

/-- What a control object has is what has been registered with it, and so it is when it has got more. -/
theorem Gains.listed (hgains : Gains (stintsOf later) h h') {kind : HookKind} {number : ℕ}
    (hlisted : Enlisted kind number (stintsOf past) (h.hooksOf kind number)) :
    Enlisted kind number (stintsOf (past ++ later)) (h'.hooksOf kind number) := by
  obtain ⟨hooks, henlisted, hgot⟩ := hgains kind number
  rw [stintsOf_append, hgot]
  exact hlisted.append henlisted

namespace Told

theorem due (htold : Told g past h) (henv : h.environment? name = some env) :
    Due .load name env.control past ∧ ∀ name', ¬ Due .unload name' env.control past :=
  (htold.instances name env.control).mp ⟨env, henv, rfl⟩

theorem lt_of_due (htold : Told g past h) (hdue : Due kind name number past) :
    number < h.controls.size := by
  obtain ⟨e, he, hconcerns⟩ := hdue.exists_concerns
  exact htold.numbers e he number (e.number?_of_concerns hconcerns)

theorem control_lt (htold : Told g past h) (henv : h.environment? name = some env) :
    env.control < h.controls.size := htold.lt_of_due (htold.due henv).1

/-- No two scripts have one control object. -/
theorem apart (htold : Told g past h) (henv : h.environment? name = some env)
    (henv' : h.environment? name' = some env') (hsame : env.control = env'.control) : name = name' := by
  have hdue' := (htold.due henv').1
  rw [← hsame] at hdue'
  exact htold.hooks.due_unique (htold.due henv).1 hdue'

/-- Nothing has been about an instance that is yet to come. -/
theorem number?_ne (htold : Told g past h) (hnumber : h.controls.size ≤ number) (he : e ∈ past) :
    e.number? ≠ some number := by
  intro heq
  have hlt := htold.numbers e he number heq
  omega

/-- Only with control objects that are there hooks have been registered. -/
theorem fresh_append (htold : Told g past h) (hsize : h.controls.size ≤ h'.controls.size)
    (hgains : Gains (stintsOf later) h h') (kind : HookKind) (n : ℕ) (hn : h'.controls.size ≤ n) :
    Enlisted kind n (stintsOf (past ++ later)) [] := by
  have hold : Enlisted kind n (stintsOf past) (h.hooksOf kind n) := by
    rw [hooksOf_of_ge (by omega)]
    exact htold.fresh kind n (by omega)
  have hnew := hgains.listed hold
  rwa [hooksOf_of_ge hn] at hnew

/-- The hooks of an instance that is there are called. -/
theorem numbers_dueTrail (htold : Told g past h) (hnumber : number < h.controls.size) :
    ∀ e ∈ past ++ dueTrail g kind name number hooks host, ∀ n, e.number? = some n → n < h.controls.size := by
  refine List.forall_mem_append.mpr ⟨htold.numbers, fun e he n hn => ?_⟩
  rcases List.mem_cons.mp he with rfl | he
  · exact Option.some.inj hn ▸ hnumber
  · obtain ⟨function, stint, rfl⟩ := mem_hookTrail he
    exact Option.some.inj hn ▸ hnumber

/-- What is not in the books and the control objects does not matter. -/
theorem of_same (htold : Told g past h) (henvironments : h'.environments = h.environments)
    (hcontrols : h'.controls = h.controls) (hkept : LogKept h h') : Told g past h' where
  hooks := htold.hooks
  numbers := by rw [hcontrols]; exact htold.numbers
  fresh := by rw [hcontrols]; exact htold.fresh
  instances := by unfold environment?; rw [henvironments]; exact htold.instances
  listed name env henv kind := by
    rw [environment?, henvironments] at henv
    rw [hooksOf_congr hcontrols]
    exact htold.listed name env henv kind
  logged := htold.logged.keep hkept

/-- What happens next is not about the hooks of an instance. A new instance may have got its control object. -/
theorem snoc (htold : Told g past h) (e : Happening γ α) (henvironments : h'.environments = h.environments)
    (hsize : h.controls.size ≤ h'.controls.size)
    (hgains : Gains e.stints h h')
    (hquiet : ∀ kind n, ¬ e.Concerns kind n)
    (hnumber : ∀ n, e.number? = some n → h.controls.size ≤ n ∧ n < h'.controls.size)
    (hkept : LogKept h h') : Told g (past ++ [e]) h' := by
  -- what is not about hooks makes none due, so the instances are those that were there
  have hnotDue : ∀ kind name n, ¬ Due kind name n [e] := by
    intro kind name n hdue
    obtain ⟨e', he', hconcerns⟩ := hdue.exists_concerns
    rw [List.mem_singleton.mp he'] at hconcerns
    exact hquiet kind n hconcerns
  constructor
  case hooks =>
    refine htold.hooks.snoc e hquiet fun name number calls stints heq e' he' kind hconcerns => ?_
    have hge := (hnumber number (by rw [heq]; rfl)).1
    exact htold.number?_ne hge he' (e'.number?_of_concerns hconcerns)
  case numbers =>
    intro e' he' n hn
    rcases List.mem_append.mp he' with hold | hnew
    · have hlt := htold.numbers e' hold n hn
      omega
    · rw [List.mem_singleton.mp hnew] at hn
      exact (hnumber n hn).2
  case fresh => exact htold.fresh_append hsize (stintsOf_singleton e ▸ hgains)
  case instances =>
    intro name n
    unfold environment?
    rw [henvironments]
    simp only [due_append, hnotDue, or_false]
    exact htold.instances name n
  case listed =>
    intro name env henv kind
    rw [environment?, henvironments] at henv
    exact (stintsOf_singleton e ▸ hgains).listed (htold.listed name env henv kind)
  case logged =>
    refine htold.logged.append_quiet hkept fun e' he' => ?_
    rw [List.mem_singleton.mp he']
    exact hquiet

/-- The guest and the host are at work, but not on hooks. -/
theorem work (htold : Told g past h) (henrols : Enrols stints h h') (hkept : LogKept h h')
    (calls : List (Call γ α)) : Told g (past ++ [.work calls stints]) h' :=
  htold.snoc (.work calls stints) henrols.environments (Nat.le_of_eq henrols.size.symm) henrols.hooks
    (fun _ _ => id) (fun _ hn => nomatch hn) hkept

/-- The control object of a script that is not among the loaded ones is cleared. -/
theorem clear (htold : Told g past h) (number : ℕ)
    (hfree : ∀ n env, h.environment? n = some env → env.control ≠ number)
    (henvironments : h'.environments = h.environments)
    (hcontrols : h'.controls = h.controls.modify number Control.clear) (hkept : LogKept h h') :
    Told g past h' where
  hooks := htold.hooks
  numbers := by rw [hcontrols, Array.size_modify]; exact htold.numbers
  fresh := by rw [hcontrols, Array.size_modify]; exact htold.fresh
  instances := by unfold environment?; rw [henvironments]; exact htold.instances
  listed n env henv kind := by
    rw [environment?, henvironments] at henv
    rw [hooksOf_congr (h := { h with controls := h.controls.modify number Control.clear }) hcontrols,
      hooksOf_modify, if_neg (Ne.symm (hfree n env henv))]
    exact htold.listed n env henv kind
  logged := htold.logged.keep hkept

/-- An instance arrives, and its load hooks are called. -/
theorem arrive (htold : Told g past h) (hg : g.KeepsToApi) (hout : h.environment? name = none)
    (hnumber : env.control < h.controls.size) (hnew : ∀ e ∈ past, ∀ kind, ¬ e.Concerns kind env.control)
    (hsucceeds : ∀ name calls stints, .body name env.control false calls stints ∉ past)
    (hlisted : ∀ kind, Enlisted kind env.control (stintsOf past) (h.hooksOf kind env.control))
    (hmoment : Moment g name env.control (h.hooksOf .load env.control) host past .load)
    (henvironments : host.environments = h.environments.insert name env)
    (hcontrols : host.controls = h.controls) (hkept : LogKept h host)
    (henrols : Enrols (hookStints g name "load" (h.hooksOf .load env.control) host) host h')
    (hended : LogKept (hooksDone g .load name (h.hooksOf .load env.control) host) h') :
    Told g (past ++ dueTrail g .load name env.control (h.hooksOf .load env.control) host) h' := by
  have hsize : h'.controls.size = h.controls.size := henrols.size.trans (congrArg Array.size hcontrols)
  have hgains := henrols.gains_dueTrail .load hcontrols env.control
  have henvironment : ∀ n, h'.environment? n = if name = n then some env else h.environment? n := by
    intro n
    rw [environment?, henrols.environments, henvironments]
    exact NameMap.get?_insert ..
  -- nothing has been about this instance, so its hooks have not been due
  have hfirst : ∀ kind n, ¬ Due kind n env.control past := by
    intro kind n hdue
    obtain ⟨e, he, hconcerns⟩ := hdue.exists_concerns
    exact hnew e he kind hconcerns
  constructor
  case hooks => exact htold.hooks.block (hlisted .load) (fun e he => hnew e he .load) hmoment hsucceeds
  case numbers =>
    rw [hsize]
    exact htold.numbers_dueTrail hnumber
  case fresh => exact htold.fresh_append (Nat.le_of_eq hsize.symm) hgains
  case instances =>
    intro n m
    rw [henvironment]
    simp only [due_append, due_dueTrail, true_and, reduceCtorEq, false_and, or_false]
    -- the name was free, so that the instance is the only one under it
    by_cases hn : name = n
    · subst hn
      rw [if_pos rfl]
      constructor
      · rintro ⟨_, hsome, rfl⟩
        obtain rfl := Option.some.inj hsome
        exact ⟨.inr ⟨rfl, rfl⟩, hfirst .unload⟩
      · rintro ⟨hold | ⟨-, rfl⟩, hnever⟩
        · obtain ⟨env', henv', -⟩ := (htold.instances name m).mpr ⟨hold, hnever⟩
          rw [hout] at henv'
          cases henv'
        · exact ⟨env, rfl, rfl⟩
    · rw [if_neg hn]
      refine (htold.instances n m).trans (and_congr_left fun _ => ?_)
      exact (or_iff_left fun hboth => hn hboth.1.symm).symm
  case listed =>
    intro n env' henv' kind
    rw [henvironment] at henv'
    split at henv'
    · obtain rfl := Option.some.inj henv'
      exact hgains.listed (hlisted kind)
    · exact hgains.listed (htold.listed n env' henv' kind)
  case logged => exact htold.logged.block hg hkept hended

/-- The unload hooks of an instance are called, and it departs. -/
theorem depart (htold : Told g past h) (hg : g.KeepsToApi) (henv : h.environment? name = some env)
    (hmoment : Moment g name env.control (h.hooksOf .unload env.control) host past .unload)
    (henvironments : host.environments = h.environments) (hcontrols : host.controls = h.controls)
    (hkept : LogKept h host)
    (henrols : Enrols (hookStints g name "unload" (h.hooksOf .unload env.control) host) host ended)
    (hgone : h'.environments = ended.environments.erase name)
    (hcleared : h'.controls = ended.controls.modify env.control Control.clear)
    (hended : LogKept (hooksDone g .unload name (h.hooksOf .unload env.control) host) h') :
    Told g (past ++ dueTrail g .unload name env.control (h.hooksOf .unload env.control) host) h' := by
  obtain ⟨hloaded, hstays⟩ := htold.due henv
  have hends : ended.controls.size = h.controls.size := henrols.size.trans (congrArg Array.size hcontrols)
  have hsize : h'.controls.size = h.controls.size := by
    rw [hcleared, Array.size_modify, hends]
  have hgains := henrols.gains_dueTrail .unload hcontrols env.control
  -- only the control object of the instance that departs is cleared
  have hothers : ∀ kind n, n ≠ env.control → h'.hooksOf kind n = ended.hooksOf kind n := by
    intro kind n hn
    rw [hooksOf_congr (h := { ended with controls := ended.controls.modify env.control Control.clear })
      hcleared, hooksOf_modify, if_neg hn.symm]
  have henvironment : ∀ n, h'.environment? n = if name = n then none else h.environment? n := by
    intro n
    rw [environment?, hgone, henrols.environments, henvironments]
    exact NameMap.get?_erase ..
  constructor
  case hooks =>
    refine htold.hooks.block (htold.listed name env henv .unload) (fun e he hconcerns => ?_) hmoment
      fun n calls stints hfailed => ?_
    · obtain ⟨n, hdue⟩ := htold.hooks.exists_due he hconcerns
      exact hstays n hdue
    · obtain ⟨e, he, hconcerns⟩ := hloaded.exists_concerns
      exact htold.hooks.failed n env.control calls stints hfailed e he .load hconcerns
  case numbers =>
    rw [hsize]
    exact htold.numbers_dueTrail (htold.control_lt henv)
  case fresh =>
    rw [hcleared, Array.size_modify]
    exact htold.fresh_append (Nat.le_of_eq hends.symm) hgains
  case instances =>
    intro n m
    rw [henvironment]
    simp only [due_append, due_dueTrail, true_and, reduceCtorEq, false_and, or_false]
    constructor
    · rintro ⟨env', henv', rfl⟩
      split at henv'
      · cases henv'
      · rename_i hn
        obtain ⟨hthen, hnever⟩ := htold.due henv'
        refine ⟨hthen, fun n' hdue => hdue.elim (hnever n') fun hboth => ?_⟩
        exact hn (htold.apart henv henv' hboth.2.symm)
    · rintro ⟨hthen, hnever⟩
      obtain ⟨env', henv', rfl⟩ := (htold.instances n m).mpr
        ⟨hthen, fun n' hdue => hnever n' (.inl hdue)⟩
      refine ⟨env', ?_, rfl⟩
      -- another instance is under another name, since its unload hooks have not been due
      rw [if_neg]
      · exact henv'
      · rintro rfl
        obtain rfl := Option.some.inj (henv.symm.trans henv')
        exact hnever name (.inr ⟨rfl, rfl⟩)
  case listed =>
    intro n env' henv' kind
    rw [henvironment] at henv'
    split at henv'
    · cases henv'
    · rename_i hn
      have hother : env'.control ≠ env.control := fun hsame => hn (htold.apart henv' henv hsame).symm
      rw [hothers kind _ hother]
      exact hgains.listed (htold.listed n env' henv' kind)
  case logged => exact htold.logged.block hg hkept hended

end Told

end Host
end ScriptHost
