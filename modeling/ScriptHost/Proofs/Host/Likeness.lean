import Mathlib.Order.Basic
import ScriptHost.Proofs.Host.Steps
import ScriptHost.Proofs.SideBySide

/-!
# Hosts that are alike

Two hosts are alike if they differ in nothing but what nobody is meant to depend on: the numbers of tasks, pins and
control objects, how often the commands were presented, when scripts were loaded, what time it is, and what was
logged. Which numbers of the one host stand for which of the other is part of the relation, and more and more of them
do as both hosts go on.

* `Matching`: which numbers stand for which.
* `Likeness`: when states, values and load hooks of a guest are alike.
* `Likeness.LikeHost`: two hosts that are alike.
* `Likeness.Parallel`: two operations that leave hosts alike, and have like results.
-/

namespace ScriptHost

/-! ## Numbers -/

/-- Which tasks, pins and control objects of one host stand for which of another, by their numbers. -/
structure Matching where
  task : ℕ → ℕ → Prop
  pin : ℕ → ℕ → Prop
  control : ℕ → ℕ → Prop

namespace Matching

/-- A matching with more pairs. -/
instance : Preorder Matching where
  le m m' := (∀ i j, m.task i j → m'.task i j) ∧ (∀ i j, m.pin i j → m'.pin i j) ∧
    ∀ i j, m.control i j → m'.control i j
  le_refl _ := ⟨fun _ _ h => h, fun _ _ h => h, fun _ _ h => h⟩
  le_trans _ _ _ h h' := ⟨fun i j hij => h'.1 i j (h.1 i j hij),
    fun i j hij => h'.2.1 i j (h.2.1 i j hij), fun i j hij => h'.2.2 i j (h.2.2 i j hij)⟩

/-- A relation of numbers with one more pair. -/
def paired (R : ℕ → ℕ → Prop) (a b : ℕ) (i j : ℕ) : Prop := R i j ∨ i = a ∧ j = b

/-- A relation that matches numbers below two bounds, one to one. -/
structure Fits (R : ℕ → ℕ → Prop) (a b : ℕ) : Prop where
  unique : Relator.BiUnique R
  lt : ∀ i j, R i j → i < a ∧ j < b

variable {R : ℕ → ℕ → Prop} {a b a' b' i j i' j' : ℕ}

theorem Fits.iff (h : Fits R a b) (hij : R i j) (hij' : R i' j') : i = i' ↔ j = j' := by
  constructor
  · rintro rfl
    exact h.unique.2 hij hij'
  · rintro rfl
    exact h.unique.1 hij hij'

theorem Fits.mono (h : Fits R a b) (ha : a ≤ a') (hb : b ≤ b') : Fits R a' b' :=
  ⟨h.unique, fun i j hij => ⟨Nat.lt_of_lt_of_le (h.lt i j hij).1 ha,
    Nat.lt_of_lt_of_le (h.lt i j hij).2 hb⟩⟩

/-- The two bounds themselves can be matched. -/
theorem Fits.paired (h : Fits R a b) : Fits (paired R a b) (a + 1) (b + 1) := by
  refine ⟨⟨fun i i' j hij hij' => ?_, fun i j j' hij hij' => ?_⟩, fun i j hij => ?_⟩
  · rcases hij with hij | ⟨rfl, rfl⟩ <;> rcases hij' with hij' | ⟨rfl, hj⟩
    · exact h.unique.1 hij hij'
    · exact absurd hj (Nat.ne_of_lt (h.lt _ _ hij).2)
    · exact absurd rfl (Nat.ne_of_lt (h.lt _ _ hij').2)
    · rfl
  · rcases hij with hij | ⟨rfl, rfl⟩ <;> rcases hij' with hij' | ⟨hi, rfl⟩
    · exact h.unique.2 hij hij'
    · exact absurd hi (Nat.ne_of_lt (h.lt _ _ hij).1)
    · exact absurd rfl (Nat.ne_of_lt (h.lt _ _ hij').1)
    · rfl
  · rcases hij with hij | ⟨rfl, rfl⟩
    · have hlt := h.lt i j hij
      omega
    · omega

end Matching

/-! ## Guests -/

/-- When the states of a guest in two runs are alike, and when its values are. Most values are only kept by a host, but
load hooks it calls, so `hook` may ask more of them. What matches what is in part the guest's own affair: `Own` is what
it knows of that, in an order in which it may come to know more. -/
structure Likeness (γ α : Type) where
  Own : Type
  [order : Preorder Own]
  state : Matching × Own → γ → γ → Prop
  value : Matching × Own → α → α → Prop
  hook : Matching × Own → α → α → Prop
  state_mono : ∀ {m m' : Matching} {o : Own} {s t : γ}, m ≤ m' → state (m, o) s t → state (m', o) s t
  value_mono : ∀ {w w' : Matching × Own} {a b : α}, w ≤ w' → value w a b → value w' a b
  hook_mono : ∀ {w w' : Matching × Own} {a b : α}, w ≤ w' → hook w a b → hook w' a b

attribute [instance] Likeness.order

/-! ## Parts of a host -/

namespace Likeness

variable {γ α : Type}

/-- What matches what in two hosts. -/
abbrev World (L : Likeness γ α) := Matching × L.Own

variable (L : Likeness γ α) (w : L.World)

structure LikeSubmission (s t : Submission α) : Prop where
  ticket : w.1.pin s.ticket.raw t.ticket.raw
  script : s.script = t.script
  callable : Option.Rel (L.value w) s.callable t.callable
  oneShot : s.oneShot = t.oneShot

structure LikeEntry (d e : Waiting (Submission α)) : Prop where
  id : w.1.task d.id e.id
  lane : d.lane = e.lane
  due : d.due = e.due
  interval : d.interval = e.interval
  task : Option.Rel (L.LikeSubmission w) d.task e.task

structure LikeHandle (k l : TaskHandle) : Prop where
  script : k.script = l.script
  task : w.1.task k.task.raw l.task.raw
  pin : Option.Rel (fun p q : PinHandle => w.1.pin p.raw q.raw) k.pin l.pin

structure LikeCommand (c d : DeclaredCommand α) : Prop where
  name : c.name = d.name
  description : c.description = d.description
  handler : L.value w c.handler d.handler

structure LikeControl (c d : Control α) : Prop where
  name : c.name = d.name
  folder : c.folder = d.folder
  loadHooks : List.Forall₂ (L.hook w) c.loadHooks d.loadHooks
  unloadHooks : List.Forall₂ (L.value w) c.unloadHooks d.unloadHooks
  commands : List.Forall₂ (L.LikeCommand w) c.commands d.commands

structure LikeEnvironment (d e : Environment α) : Prop where
  name : d.name = e.name
  origin : d.origin = e.origin
  globals : L.value w d.globals e.globals
  control : w.1.control d.control e.control

/-- Runners and schedulers whose tasks are alike. The numbers that match are numbers that were given out. -/
structure LikeTasks (r₁ r₂ : TickRunner (Submission α)) (s₁ s₂ : Scheduler α) : Prop where
  numbers : Matching.Fits w.1.task (r₁.issued + 1) (r₂.issued + 1)
  pins : Matching.Fits w.1.pin (s₁.bridge.issued + 1) (s₂.bridge.issued + 1)
  tick : r₁.now = r₂.now
  queue : List.Forall₂ (L.LikeEntry w) r₁.queue r₂.queue
  handles : List.Forall₂ (L.LikeHandle w) s₁.handles s₂.handles
  pinned : ∀ p q : PinHandle, w.1.pin p.raw q.raw →
    Option.Rel (L.value w) (s₁.bridge.get? p) (s₂.bridge.get? q)
  live : s₁.live = s₂.live
  /-- What is pinned belongs to the tasks. -/
  balances : Scheduler.Balances [] s₁ ∧ Scheduler.Balances [] s₂

/-- Shared objects with the same owners and like values. -/
structure LikeObjects (s₁ s₂ : SharedObjects α) : Prop where
  owner : ∀ n, s₁.owner? n = s₂.owner? n
  value : ∀ n, Option.Rel (L.value w) (s₁.get? n) (s₂.get? n)

/-- Tables with the same commands, whose changes are presented or not. -/
structure SameCommands (t₁ t₂ : CommandTable) : Prop where
  entries : ∀ n, t₁.get? n = t₂.get? n
  changed : t₁.changed = t₂.changed

/-- Control objects that are alike, where their numbers match. -/
structure LikeControls (cs₁ cs₂ : Array (Control α)) : Prop where
  numbers : Matching.Fits w.1.control cs₁.size cs₂.size
  like : ∀ i j, w.1.control i j → Option.Rel (L.LikeControl w) cs₁[i]? cs₂[j]?

/-- Two hosts that are alike. -/
structure LikeHost (h₁ h₂ : Host γ α) : Prop where
  guest : L.state w h₁.guest h₂.guest
  tasks : L.LikeTasks w h₁.runner h₂.runner h₁.scheduler h₂.scheduler
  objects : L.LikeObjects w h₁.objects h₂.objects
  commands : SameCommands h₁.commands h₂.commands
  controls : L.LikeControls w h₁.controls h₂.controls
  loaded : ∀ n, h₁.loaded.get? n = h₂.loaded.get? n
  environments : ∀ n, Option.Rel (L.LikeEnvironment w) (h₁.environments.get? n) (h₂.environments.get? n)
  phases : ∀ n, h₁.phases.get? n = h₂.phases.get? n
  policy : h₁.policy = h₂.policy
  bundles : h₁.bundles = h₂.bundles
  files : h₁.files = h₂.files

/-! ## When more matches -/

variable {L w} {w' w'' : L.World}

theorem LikeSubmission.mono (hw : w ≤ w') {s t : Submission α} (h : L.LikeSubmission w s t) :
    L.LikeSubmission w' s t :=
  ⟨hw.1.2.1 _ _ h.ticket, h.script, rel_imp (fun _ _ => L.value_mono hw) h.callable, h.oneShot⟩

theorem LikeEntry.mono (hw : w ≤ w') {d e : Waiting (Submission α)} (h : L.LikeEntry w d e) :
    L.LikeEntry w' d e :=
  ⟨hw.1.1 _ _ h.id, h.lane, h.due, h.interval, rel_imp (fun _ _ => LikeSubmission.mono hw) h.task⟩

theorem LikeHandle.mono (hw : w ≤ w') {k l : TaskHandle} (h : L.LikeHandle w k l) :
    L.LikeHandle w' k l :=
  ⟨h.script, hw.1.1 _ _ h.task, rel_imp (fun _ _ => hw.1.2.1 _ _) h.pin⟩

theorem LikeCommand.mono (hw : w ≤ w') {c d : DeclaredCommand α} (h : L.LikeCommand w c d) :
    L.LikeCommand w' c d :=
  ⟨h.name, h.description, L.value_mono hw h.handler⟩

theorem values_mono (hw : w ≤ w') {as bs : List α} (h : List.Forall₂ (L.value w) as bs) :
    List.Forall₂ (L.value w') as bs :=
  h.imp fun _ _ => L.value_mono hw

theorem hooks_mono (hw : w ≤ w') {as bs : List α} (h : List.Forall₂ (L.hook w) as bs) :
    List.Forall₂ (L.hook w') as bs :=
  h.imp fun _ _ => L.hook_mono hw

theorem LikeControl.mono (hw : w ≤ w') {c d : Control α} (h : L.LikeControl w c d) :
    L.LikeControl w' c d :=
  ⟨h.name, h.folder, hooks_mono hw h.loadHooks, values_mono hw h.unloadHooks,
    h.commands.imp fun _ _ => LikeCommand.mono hw⟩

theorem LikeEnvironment.mono (hw : w ≤ w') {d e : Environment α} (h : L.LikeEnvironment w d e) :
    L.LikeEnvironment w' d e :=
  ⟨h.name, h.origin, L.value_mono hw h.globals, hw.1.2.2 _ _ h.control⟩

/-- New pairs of control objects, and what the guest comes to know, do not matter to tasks. -/
theorem LikeTasks.mono {r₁ r₂ : TickRunner (Submission α)} {s₁ s₂ : Scheduler α} (hw : w ≤ w')
    (htask : w'.1.task = w.1.task) (hpin : w'.1.pin = w.1.pin) (h : L.LikeTasks w r₁ r₂ s₁ s₂) :
    L.LikeTasks w' r₁ r₂ s₁ s₂ where
  numbers := htask ▸ h.numbers
  pins := hpin ▸ h.pins
  tick := h.tick
  queue := h.queue.imp fun _ _ => LikeEntry.mono hw
  handles := h.handles.imp fun _ _ => LikeHandle.mono hw
  pinned p q hpq := rel_imp (fun _ _ => L.value_mono hw) (h.pinned p q (hpin ▸ hpq))
  live := h.live
  balances := h.balances

theorem LikeObjects.mono {s₁ s₂ : SharedObjects α} (hw : w ≤ w') (h : L.LikeObjects w s₁ s₂) :
    L.LikeObjects w' s₁ s₂ :=
  ⟨h.owner, fun n => rel_imp (fun _ _ => L.value_mono hw) (h.value n)⟩

theorem LikeControls.mono {cs₁ cs₂ : Array (Control α)} (hw : w ≤ w')
    (hcontrol : w'.1.control = w.1.control) (h : L.LikeControls w cs₁ cs₂) : L.LikeControls w' cs₁ cs₂ :=
  ⟨hcontrol ▸ h.numbers, fun i j hij =>
    rel_imp (fun _ _ => LikeControl.mono hw) (h.like i j (hcontrol ▸ hij))⟩

/-! ## Operations that go alike -/

variable {β δ : Type} {x₁ x₂ : HostM γ α β} {f₁ f₂ : β → HostM γ α δ} {h₁ h₂ : Host γ α}

/-- What holds of results does not depend on how much matches. -/
def Same (L : Likeness γ α) (β : Type) : L.World → β → β → Prop := fun _ b c => b = c

/-- Whatever the results are. -/
def Anyhow (L : Likeness γ α) (β : Type) : L.World → β → β → Prop := fun _ _ _ => True

/-- Two hosts that are alike, with results that are: more may match by now. -/
def LikeOutcome (L : Likeness γ α) (w : L.World) (R : L.World → β → β → Prop)
    (r₁ r₂ : β × Host γ α) : Prop :=
  ∃ w' ≥ w, L.LikeHost w' r₁.2 r₂.2 ∧ R w' r₁.1 r₂.1

/-- From hosts that are alike two operations lead to hosts that are alike, and their results are. -/
def Parallel (L : Likeness γ α) (w : L.World) (x₁ x₂ : HostM γ α β) (R : L.World → β → β → Prop) :
    Prop :=
  ∀ h₁ h₂, L.LikeHost w h₁ h₂ → L.LikeOutcome w R (x₁ h₁) (x₂ h₂)

theorem LikeOutcome.mono {R : L.World → β → β → Prop} {r₁ r₂ : β × Host γ α} (hw : w ≤ w')
    (h : L.LikeOutcome w' R r₁ r₂) : L.LikeOutcome w R r₁ r₂ := by
  obtain ⟨w'', hw', hlike, hresult⟩ := h
  exact ⟨w'', le_trans hw hw', hlike, hresult⟩

namespace Parallel

theorem pure {R : L.World → β → β → Prop} {b c : β} (h : R w b c) :
    L.Parallel w (Pure.pure b) (Pure.pure c) R :=
  fun _ _ hlike => ⟨w, le_refl w, hlike, h⟩

theorem bind {R : L.World → β → β → Prop} {S : L.World → δ → δ → Prop} (hx : L.Parallel w x₁ x₂ R)
    (hf : ∀ w' ≥ w, ∀ b c, R w' b c → L.Parallel w' (f₁ b) (f₂ c) S) :
    L.Parallel w (x₁ >>= f₁) (x₂ >>= f₂) S := by
  intro h₁ h₂ hlike
  obtain ⟨w', hw, hlike', hresult⟩ := hx h₁ h₂ hlike
  exact (hf w' hw _ _ hresult _ _ hlike').mono hw

/-- Both hosts are read. -/
theorem reading {S : L.World → δ → δ → Prop} {f₁ f₂ : Host γ α → HostM γ α δ}
    (hf : ∀ h₁ h₂, L.LikeHost w h₁ h₂ → L.Parallel w (f₁ h₁) (f₂ h₂) S) :
    L.Parallel w (Host.read >>= f₁) (Host.read >>= f₂) S :=
  fun h₁ h₂ hlike => hf h₁ h₂ hlike h₁ h₂ hlike

/-- Hosts are changed in a way that keeps them alike. -/
theorem change {f₁ f₂ : Host γ α → Host γ α}
    (hf : ∀ h₁ h₂, L.LikeHost w h₁ h₂ → L.LikeHost w (f₁ h₁) (f₂ h₂)) :
    L.Parallel w (Host.change f₁) (Host.change f₂) (L.Same Unit) :=
  fun h₁ h₂ hlike => ⟨w, le_refl w, hf h₁ h₂ hlike, rfl⟩

end Parallel

/-- What was logged does not matter. -/
theorem LikeHost.logged (h : L.LikeHost w h₁ h₂) (records₁ records₂ : Array Record) :
    L.LikeHost w { h₁ with records := records₁ } { h₂ with records := records₂ } := { h with }

theorem Parallel.log (r₁ r₂ : Record) :
    L.Parallel w (ScriptHost.log r₁ : HostM γ α Unit) (ScriptHost.log r₂) (L.Same Unit) :=
  fun _ _ hlike => ⟨w, le_refl w, hlike.logged _ _, rfl⟩

theorem Parallel.logAll (rs₁ rs₂ : List Record) :
    L.Parallel w (Host.logAll rs₁ : HostM γ α Unit) (Host.logAll rs₂) (L.Same Unit) := by
  intro h₁ h₂ hlike
  obtain ⟨records₁, heq₁⟩ := Host.logAll_eq (h := h₁) rs₁
  obtain ⟨records₂, heq₂⟩ := Host.logAll_eq (h := h₂) rs₂
  rw [heq₁, heq₂]
  exact ⟨w, le_refl w, hlike.logged records₁ records₂, rfl⟩

end Likeness
end ScriptHost
