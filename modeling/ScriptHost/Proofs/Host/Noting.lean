import ScriptHost.Proofs.Host.Reach

/-!
# Taking note of what the host calls

The host calls functions of the guest: bodies, hooks, tasks, handlers of commands. `Guest.noting` is a guest that
takes note of each call, with the host as it was, and does besides what the guest does that it is made from. So the
host goes on as it would, and the notes tell what it called.

* `Aside x y`: `y` is `x` for a guest that takes notes, and calls nothing.
* `Notes x y h calls`: at a host `y` does what `x` does, and takes note of these calls.
* `Follows J x y`: so it does, with calls only while the transitions in progress are as `J` has it.
-/

namespace ScriptHost

/-- A call of a function of the guest, and the host at that moment. -/
structure Call (γ α : Type) where
  function : α
  arguments : List α
  host : Host γ α

/-- What a guest that takes notes keeps. -/
abbrev Noted (γ α : Type) := γ × List (Call γ α)

namespace Host

variable {γ α β δ : Type}

/-- The host with a guest that has taken notes. -/
def noting (h : Host γ α) (noted : List (Call γ α)) : Host (Noted γ α) α :=
  { h with guest := (h.guest, noted) }

/-- The host without the notes that its guest has taken. -/
def bare (h : Host (Noted γ α) α) : Host γ α := { h with guest := h.guest.1 }

/-- What a guest does is done by one that takes notes, too. -/
def aside (x : HostM γ α β) : HostM (Noted γ α) α β := fun h =>
  ((x h.bare).1, (x h.bare).2.noting h.guest.2)

end Host

open Host

variable {γ α β δ : Type}

/-- The guest that takes note of each call. -/
def Guest.noting (g : Guest γ α) : Guest (Noted γ α) α where
  createGlobals name folder number := aside (g.createGlobals name folder number)
  compile name globals source := aside (g.compile name globals source)
  call f args := fun h => aside (g.call f args) (h.bare.noting (h.guest.2 ++ [⟨f, args, h.bare⟩]))
  ofText := g.ofText
  display := g.display
  readVariable globals path := aside (g.readVariable globals path)

namespace Host

variable {g : Guest γ α} {h : Host γ α} {noted : List (Call γ α)}

/-! ## Parts of a host whose guest takes notes -/

@[simp] theorem noting_guest : (h.noting noted).guest = (h.guest, noted) := rfl
@[simp] theorem noting_objects : (h.noting noted).objects = h.objects := rfl
@[simp] theorem noting_commands : (h.noting noted).commands = h.commands := rfl
@[simp] theorem noting_bundles : (h.noting noted).bundles = h.bundles := rfl
@[simp] theorem noting_files : (h.noting noted).files = h.files := rfl
@[simp] theorem noting_policy : (h.noting noted).policy = h.policy := rfl
@[simp] theorem noting_isLoaded (name : String) : (h.noting noted).isLoaded name = h.isLoaded name := rfl
@[simp] theorem noting_environment? (name : String) :
    (h.noting noted).environment? name = h.environment? name := rfl
@[simp] theorem noting_control? (number : ℕ) : (h.noting noted).control? number = h.control? number := rfl
@[simp] theorem noting_declared (env : Environment α) : (h.noting noted).declared env = h.declared env := rfl
@[simp] theorem noting_findCommand (name : String) :
    (h.noting noted).findCommand name = h.findCommand name := rfl

/-! ## What calls nothing -/

/-- The two do the same, whatever the guest has taken note of. The transitions in progress stay as they are. -/
def Aside (x : HostM γ α β) (y : HostM (Noted γ α) α β) : Prop :=
  ∀ h noted, y (h.noting noted) = ((x h).1, (x h).2.noting noted) ∧ (x h).2.phases = h.phases

namespace Aside

theorem pure (b : β) : Aside (Pure.pure b : HostM γ α β) (Pure.pure b) := fun _ _ => ⟨rfl, rfl⟩

theorem bind {x : HostM γ α β} {y : HostM (Noted γ α) α β} {f : β → HostM γ α δ}
    {f' : β → HostM (Noted γ α) α δ} (hx : Aside x y) (hf : ∀ b, Aside (f b) (f' b)) :
    Aside (x >>= f) (y >>= f') := by
  intro h noted
  obtain ⟨hfirst, hphases⟩ := hx h noted
  obtain ⟨hrest, hphases'⟩ := hf (x h).1 (x h).2 noted
  refine ⟨?_, hphases'.trans hphases⟩
  show f' (y (h.noting noted)).1 (y (h.noting noted)).2 = _
  rw [hfirst]
  exact hrest

/-- The host is read, and what follows does not ask for the guest. -/
theorem reading {f : Host γ α → HostM γ α δ} {f' : Host (Noted γ α) α → HostM (Noted γ α) α δ}
    (hf : ∀ h noted, Aside (f h) (f' (h.noting noted))) : Aside (read >>= f) (read >>= f') :=
  fun h noted => hf h noted h noted

theorem log (r : Record) : Aside (ScriptHost.log r : HostM γ α Unit) (ScriptHost.log r) :=
  fun _ _ => ⟨rfl, rfl⟩

theorem logAll (rs : List Record) : Aside (Host.logAll rs : HostM γ α Unit) (Host.logAll rs) := by
  induction rs with
  | nil => exact .pure ()
  | cons r rs ih => exact .bind (.log r) fun _ => ih

theorem changeControl (number : ℕ) (f : Control α → Control α) :
    Aside (Host.changeControl number f : HostM γ α Unit) (Host.changeControl number f) :=
  fun _ _ => ⟨rfl, rfl⟩

/-! ### Objects -/

theorem share (owner : Owner) (name : String) (value : Option α) :
    Aside (Host.share owner name value : HostM γ α _) (Host.share owner name value) := by
  refine .reading fun h noted => ?_
  rw [noting_objects]
  cases h.objects.register owner name value with
  | error e => exact .pure _
  | ok result =>
    exact .bind (fun _ _ => ⟨rfl, rfl⟩) fun _ => .bind (.logAll _) fun _ => .pure _

theorem unshare (owner : Owner) (name : String) :
    Aside (Host.unshare owner name : HostM γ α _) (Host.unshare owner name) := by
  refine .reading fun h noted => ?_
  rw [noting_objects]
  cases h.objects.unregister owner name with
  | error e => exact .pure _
  | ok result => exact .bind (fun _ _ => ⟨rfl, rfl⟩) fun _ => .pure _

/-! ### Tasks -/

theorem scheduler {f : Scheduler α → HostM γ α δ} {f' : Scheduler α → HostM (Noted γ α) α δ}
    (hf : ∀ s, Aside (f s) (f' s)) :
    Aside (getThe (Scheduler α) >>= f) (getThe (Scheduler α) >>= f') :=
  .bind (fun _ _ => ⟨rfl, rfl⟩) hf

theorem setScheduler (s : Scheduler α) :
    Aside (set s : HostM γ α PUnit) (set s) := fun _ _ => ⟨rfl, rfl⟩

theorem modifyScheduler (f : Scheduler α → Scheduler α) :
    Aside (modifyThe (Scheduler α) f : HostM γ α PUnit) (modifyThe (Scheduler α) f) :=
  fun _ _ => ⟨rfl, rfl⟩

theorem runnerCancel (id : TaskId) :
    Aside ((taskRunner : TaskRunner (HostM γ α) α).cancel id)
      ((taskRunner : TaskRunner (HostM (Noted γ α) α) α).cancel id) := fun _ _ => ⟨rfl, rfl⟩

theorem unpinNow (pin : PinHandle) :
    Aside (Scheduler.unpinNow (α := α) pin : HostM γ α _) (Scheduler.unpinNow (α := α) pin) := by
  refine .scheduler fun s => ?_
  cases s.unpin pin with
  | error e => exact .pure _
  | ok s => exact .bind (.setScheduler s) fun _ => .pure _

theorem schedule (script : String) (callable : α) (lane : Lane) (mode : Mode) :
    Aside (Host.schedule script callable lane mode : HostM γ α _)
      (Host.schedule script callable lane mode) := by
  refine .scheduler fun s => .bind (.setScheduler _) fun _ => ?_
  refine .bind (fun _ _ => ⟨rfl, rfl⟩) fun id => .bind (.modifyScheduler _) fun _ => ?_
  cases mode.isTracked
  case' true => refine .bind (.pure _) fun released => ?_
  case' false => refine .bind (.unpinNow _) fun released => ?_
  all_goals
    cases released with
    | error e => exact .pure _
    | ok _ => exact .bind (.modifyScheduler _) fun _ => .bind (.log _) fun _ => .pure _

theorem cancelTask (script : String) (id : TaskId) :
    Aside (Host.cancelTask script id : HostM γ α _) (Host.cancelTask script id) := by
  refine .scheduler fun s => ?_
  cases s.ownedByOther script id with
  | true => exact .pure _
  | false =>
    refine .bind (.runnerCancel id) fun cancelled => .scheduler fun s => ?_
    refine .bind (.setScheduler _) fun _ => ?_
    cases (s.handles.find? (TaskHandle.isFor script id)).bind TaskHandle.pin with
    | none => exact .pure _
    | some pin => exact .bind (.unpinNow pin) fun _ => .pure _

theorem cancelHandles (script : String) (handles : List TaskHandle) (summary : CancelSummary) :
    Aside (Scheduler.cancelHandles (α := α) (taskRunner (γ := γ)) script summary handles)
      (Scheduler.cancelHandles (α := α) taskRunner script summary handles) := by
  induction handles generalizing summary with
  | nil => exact .pure _
  | cons handle handles ih =>
    refine .bind (.runnerCancel handle.task) fun _ => ?_
    cases handle.pin with
    | none => exact ih _
    | some pin =>
      refine .bind (.unpinNow pin) fun answer => ?_
      cases answer with
      | ok _ => exact ih _
      | error e => exact .bind (.log _) fun _ => ih _

theorem cancelAllTasks (script : String) :
    Aside (Host.cancelAllTasks script : HostM γ α _) (Host.cancelAllTasks script) := by
  refine .scheduler fun s => .bind (.setScheduler _) fun _ => ?_
  refine .bind (.cancelHandles script _ _) fun summary => ?_
  by_cases hsome : 0 < summary.cancelled
  · simp only [hsome, if_true]
    exact .bind (.log _) fun _ => .pure _
  · simp only [hsome, if_false]
    exact .pure _

theorem retireSubmission (task : Submission α) :
    Aside (Scheduler.retireSubmission task : HostM γ α Unit) (Scheduler.retireSubmission task) := by
  refine .scheduler fun s => ?_
  cases s.live with
  | false => exact .pure _
  | true =>
    cases s.accepted.get? task.ticket.raw with
    | none => exact .pure _
    | some id =>
      refine .scheduler fun s => .bind (.setScheduler _) fun _ => ?_
      cases (s.handles.find? (TaskHandle.isFor task.script id)).bind TaskHandle.pin with
      | none => exact .pure _
      | some pin =>
        refine .bind (.unpinNow pin) fun answer => ?_
        cases answer with
        | ok _ => exact .pure _
        | error e => exact .log _

/-! ### Commands -/

theorem syncCommands : Aside (Host.syncCommands : HostM γ α Unit) Host.syncCommands := by
  refine .reading fun h noted => ?_
  rw [noting_commands]
  exact .bind (fun _ _ => ⟨rfl, rfl⟩) fun _ => .logAll _

theorem publishAll (name : String) (commands : List (DeclaredCommand α)) :
    Aside (Host.publishAll name commands : HostM γ α Unit) (Host.publishAll name commands) := by
  induction commands with
  | nil => exact .pure _
  | cons c commands ih =>
    refine .reading fun h noted => ?_
    rw [noting_commands]
    cases h.commands.register ⟨c.name, name, c.description⟩ with
    | ok table => exact .bind (fun _ _ => ⟨rfl, rfl⟩) fun _ => ih
    | error e => exact .bind (.log _) fun _ => ih

theorem publish (name : String) : Aside (Host.publish name : HostM γ α Unit) (Host.publish name) := by
  refine .reading fun h noted => ?_
  rw [noting_environment?]
  cases h.environment? name with
  | none => exact .pure _
  | some env => exact .bind (.publishAll name _) fun _ => .syncCommands

theorem withdrawCommands (name : String) :
    Aside (Host.withdrawCommands name : HostM γ α Unit) (Host.withdrawCommands name) := by
  refine .reading fun h noted => ?_
  rw [noting_commands]
  exact .bind (fun _ _ => ⟨rfl, rfl⟩) fun _ => .syncCommands

/-! ### Surroundings -/

theorem releaseObjects (name : String) :
    Aside (Host.releaseObjects name : HostM γ α ℕ) (Host.releaseObjects name) := by
  refine .reading fun h noted => ?_
  rw [noting_objects]
  exact .bind (fun _ _ => ⟨rfl, rfl⟩) fun _ => .pure _

theorem discard (env : Environment α) :
    Aside (Host.discard env : HostM γ α Unit) (Host.discard env) :=
  .bind (.changeControl _ _) fun _ => .bind (.cancelAllTasks _) fun _ =>
    .bind (.releaseObjects _) fun _ => .log _

end Aside

/-! ## What a guest does -/

/-- An act of a guest that has taken notes. -/
def Act.noting (noted : List (Call γ α)) : Act γ α → Act (Noted γ α) α
  | .think state => .think (state, noted)
  | .report record => .report record
  | .onLoad number hook => .onLoad number hook
  | .onUnload number hook => .onUnload number hook
  | .declare number command => .declare number command
  | .share number object value => .share number object value
  | .unshare number object => .unshare number object
  | .schedule script callable lane mode => .schedule script callable lane mode
  | .cancel script id => .cancel script id

theorem Act.perform_noting (act : Act γ α) (h : Host γ α) (noted : List (Call γ α)) :
    (Act.noting noted act).perform (h.noting noted) = (act.perform h).noting noted ∧
      (act.perform h).phases = h.phases := by
  have hpart : ∀ {β : Type} {x : HostM γ α β} {y : HostM (Noted γ α) α β}, Aside x y →
      (y (h.noting noted)).2 = (x h).2.noting noted ∧ (x h).2.phases = h.phases := by
    intro β x y hxy
    obtain ⟨heq, hphases⟩ := hxy h noted
    exact ⟨congrArg Prod.snd heq, hphases⟩
  cases act with
  | think state => exact ⟨rfl, rfl⟩
  | report record => exact hpart (.log record)
  | onLoad number hook => exact hpart (.changeControl number _)
  | onUnload number hook => exact hpart (.changeControl number _)
  | declare number command => exact hpart (.changeControl number _)
  | share number object value => exact hpart (.share _ object value)
  | unshare number object => exact hpart (.unshare _ object)
  | schedule script callable lane mode => exact hpart (.schedule script callable lane mode)
  | cancel script id => exact hpart (.cancelTask script id)

theorem Act.performAll_noting (acts : List (Act γ α)) (h : Host γ α) (noted : List (Call γ α)) :
    Act.performAll (acts.map (Act.noting noted)) (h.noting noted) = (Act.performAll acts h).noting noted ∧
      (Act.performAll acts h).phases = h.phases := by
  induction acts generalizing h with
  | nil => exact ⟨rfl, rfl⟩
  | cons act acts ih =>
    obtain ⟨hact, hphases⟩ := Act.perform_noting act h noted
    obtain ⟨hacts, hphases'⟩ := ih (act.perform h)
    refine ⟨?_, hphases'.trans hphases⟩
    show Act.performAll (acts.map (Act.noting noted)) ((Act.noting noted act).perform (h.noting noted)) = _
    rw [hact]
    exact hacts

end Host

/-- A guest that takes notes keeps to the objects of the host if the guest that it is made from does. -/
theorem Guest.KeepsToApi.noting {g : Guest γ α} (hg : g.KeepsToApi) : g.noting.KeepsToApi := by
  have haside : ∀ {β : Type} {x : HostM γ α β}, (∀ h, ∃ acts, (x h).2 = Act.performAll acts h) →
      ∀ h, ∃ acts, (aside x h).2 = Act.performAll acts h := by
    intro β x hx h
    obtain ⟨acts, heq⟩ := hx h.bare
    refine ⟨acts.map (Act.noting h.guest.2), ?_⟩
    show (x h.bare).2.noting h.guest.2 = _
    rw [heq]
    exact (Act.performAll_noting acts h.bare h.guest.2).1.symm
  refine ⟨fun name folder number => haside (hg.createGlobals name folder number),
    fun name globals source => haside (hg.compile name globals source), fun f args h => ?_,
    fun globals path => haside (hg.readVariable globals path)⟩
  let noted : List (Call γ α) := h.guest.2 ++ [⟨f, args, h.bare⟩]
  obtain ⟨acts, heq⟩ := haside (hg.call f args) (h.bare.noting noted)
  exact ⟨.think (h.guest.1, noted) :: acts, heq⟩

namespace Host

variable {g : Guest γ α} {h : Host γ α} {J : Std.TreeMap String Phase → Prop} {name : String}

/-! ## What calls functions -/

/-- At a host the one does what the other does, and takes note of these calls. -/
def Notes (x : HostM γ α β) (y : HostM (Noted γ α) α β) (h : Host γ α) (calls : List (Call γ α)) : Prop :=
  ∀ noted, y (h.noting noted) = ((x h).1, (x h).2.noting (noted ++ calls))

theorem Notes.bind {x : HostM γ α β} {y : HostM (Noted γ α) α β} {f : β → HostM γ α δ}
    {f' : β → HostM (Noted γ α) α δ} {calls calls' : List (Call γ α)} (hx : Notes x y h calls)
    (hf : Notes (f (x h).1) (f' (x h).1) (x h).2 calls') :
    Notes (x >>= f) (y >>= f') h (calls ++ calls') := by
  intro noted
  show f' (y (h.noting noted)).1 (y (h.noting noted)).2 = _
  rw [hx noted, ← List.append_assoc]
  exact hf (noted ++ calls)

theorem Notes.bind_nil {x : HostM γ α β} {y : HostM (Noted γ α) α β} {f : β → HostM γ α δ}
    {f' : β → HostM (Noted γ α) α δ} (hx : Notes x y h [])
    (hf : Notes (f (x h).1) (f' (x h).1) (x h).2 []) : Notes (x >>= f) (y >>= f') h [] :=
  hx.bind hf

theorem Aside.notes {x : HostM γ α β} {y : HostM (Noted γ α) α β} (hxy : Aside x y) (h : Host γ α) :
    Notes x y h [] := by
  intro noted
  rw [List.append_nil]
  exact (hxy h noted).1

theorem notes_setPhase (name : String) (phase : Option Phase) (h : Host γ α) :
    Notes (setPhase name phase) (setPhase name phase) h [] := by
  intro noted
  rw [List.append_nil]
  rfl

/-- The two do the same, from where the transitions in progress are as `J` has it; and so they are at the end, and
whenever a function is called. -/
def Follows (J : Std.TreeMap String Phase → Prop) (x : HostM γ α β) (y : HostM (Noted γ α) α β) : Prop :=
  ∀ h, J h.phases → J (x h).2.phases ∧
    ∃ calls : List (Call γ α), (∀ call ∈ calls, J call.host.phases) ∧ Notes x y h calls

theorem Aside.follows {x : HostM γ α β} {y : HostM (Noted γ α) α β} (hxy : Aside x y) :
    Follows J x y := by
  intro h hJ
  refine ⟨?_, [], fun _ hcall => (nomatch hcall), hxy.notes h⟩
  rw [(hxy h []).2]
  exact hJ

namespace Follows

theorem pure (b : β) : Follows J (Pure.pure b : HostM γ α β) (Pure.pure b) := (Aside.pure b).follows

theorem bind {x : HostM γ α β} {y : HostM (Noted γ α) α β} {f : β → HostM γ α δ}
    {f' : β → HostM (Noted γ α) α δ} (hx : Follows J x y) (hf : ∀ b, Follows J (f b) (f' b)) :
    Follows J (x >>= f) (y >>= f') := by
  intro h hJ
  obtain ⟨hmid, calls, hcalls, hfirst⟩ := hx h hJ
  obtain ⟨hend, calls', hcalls', hrest⟩ := hf (x h).1 (x h).2 hmid
  refine ⟨hend, calls ++ calls', fun call hcall => ?_, hfirst.bind hrest⟩
  rcases List.mem_append.mp hcall with hcall | hcall
  · exact hcalls call hcall
  · exact hcalls' call hcall

/-- The host is read, and what follows does not ask for the guest. -/
theorem reading {f : Host γ α → HostM γ α δ} {f' : Host (Noted γ α) α → HostM (Noted γ α) α δ}
    (hblind : ∀ (h : Host γ α) noted, f' (h.noting noted) = f' (h.noting []))
    (hf : ∀ h, Follows J (f h) (f' (h.noting []))) : Follows J (read >>= f) (read >>= f') := by
  intro h hJ
  obtain ⟨hend, calls, hcalls, hnotes⟩ := hf h h hJ
  refine ⟨hend, calls, hcalls, fun noted => ?_⟩
  show f' (h.noting noted) (h.noting noted) = _
  rw [hblind]
  exact hnotes noted

theorem log (r : Record) : Follows J (ScriptHost.log r : HostM γ α Unit) (ScriptHost.log r) :=
  (Aside.log r).follows

/-- The guest does something that is no call. -/
theorem aside {x : HostM γ α β} (hx : ∀ h, ∃ acts, (x h).2 = Act.performAll acts h) :
    Follows J x (Host.aside x) := by
  intro h hJ
  obtain ⟨acts, heq⟩ := hx h
  refine ⟨?_, [], fun _ hcall => (nomatch hcall), fun noted => ?_⟩
  · rw [heq, (Act.performAll_noting acts h []).2]
    exact hJ
  · rw [List.append_nil]
    rfl

theorem call (hg : g.KeepsToApi) (f : α) (args : List α) :
    Follows J (g.call f args) (g.noting.call f args) := by
  intro h hJ
  obtain ⟨acts, heq⟩ := hg.call f args h
  refine ⟨?_, [⟨f, args, h⟩], fun call hcall => ?_, fun noted => rfl⟩
  · rw [heq, (Act.performAll_noting acts h []).2]
    exact hJ
  · rw [List.mem_singleton] at hcall
    rw [hcall]
    exact hJ

theorem run (hg : g.KeepsToApi) (f : α) : Follows J (g.run f) (g.noting.run f) :=
  .bind (.call hg f []) fun _ => .pure _

theorem runHooks (hg : g.KeepsToApi) (name kind : String) (hooks : List α) :
    Follows J (Host.runHooks g name kind hooks) (Host.runHooks g.noting name kind hooks) := by
  induction hooks with
  | nil => exact .pure _
  | cons hook hooks ih =>
    refine .bind (.run hg hook) fun answer => ?_
    cases answer with
    | ok _ => exact ih
    | error e => exact .bind (.log _) fun _ => ih

/-! ### Loading -/

theorem createEnvironment (hg : g.KeepsToApi) (name : String) (origin : Origin) :
    Follows J (Host.createEnvironment g name origin) (Host.createEnvironment g.noting name origin) := by
  refine .reading (fun _ _ => rfl) fun h => .bind (Aside.follows fun _ _ => ⟨rfl, rfl⟩) fun _ => ?_
  refine .bind (.aside (hg.createGlobals name origin.folder? h.controls.size)) fun globals => ?_
  exact .bind (.log _) fun _ => .reading (fun _ _ => rfl) fun _ => .pure _

theorem runSource (hg : g.KeepsToApi) (name : String) (globals : α) (source : String) :
    Follows J (Host.runSource g name globals source) (Host.runSource g.noting name globals source) := by
  refine .bind (.aside (hg.compile name globals source)) fun answer => ?_
  cases answer with
  | error e => exact .pure _
  | ok body => exact .run hg body

theorem instantiate (hg : g.KeepsToApi) (name : String) (origin : Origin) (source : String) :
    Follows J (Host.instantiate g name origin source) (Host.instantiate g.noting name origin source) := by
  rw [instantiate_eq, instantiate_eq]
  refine .bind (.createEnvironment hg name origin) fun env => ?_
  refine .bind (.runSource hg name env.globals source) fun result => ?_
  cases result with
  | ok _ => exact .pure _
  | error e => exact .bind (Aside.discard env).follows fun _ => .pure _

theorem enter (hg : g.KeepsToApi) (name : String) (env : Environment α) :
    Follows J (Host.enter g name env) (Host.enter g.noting name env) := by
  refine .bind (Aside.follows fun _ _ => ⟨rfl, rfl⟩) fun _ => ?_
  refine .bind (Aside.publish name).follows fun _ => .reading (fun _ _ => rfl) fun h => ?_
  rw [noting_control?]
  exact .bind (.runHooks hg name "load" _) fun _ =>
    .bind (Aside.publish name).follows fun _ => .log _

/-- A load is a transition, which must be allowed. -/
theorem bringUp (hg : g.KeepsToApi) (hloading : ∀ p, J p → J (p.insert name .loading))
    (hdone : ∀ p, J p → J (p.erase name)) (origin : Origin) (source : String) :
    Follows J (Host.bringUp g name origin source) (Host.bringUp g.noting name origin source) := by
  have hbegin : Follows J (setPhase name (some .loading) : HostM γ α Unit)
      (setPhase name (some .loading)) := fun h hJ =>
    ⟨hloading _ hJ, [], fun _ hcall => (nomatch hcall), notes_setPhase name _ h⟩
  have hend : Follows J (setPhase name none : HostM γ α Unit) (setPhase name none) := fun h hJ =>
    ⟨hdone _ hJ, [], fun _ hcall => (nomatch hcall), notes_setPhase name _ h⟩
  refine .bind hbegin fun _ => .bind (.instantiate hg name origin source) fun result => ?_
  refine .bind hend fun _ => ?_
  cases result with
  | error e => exact .bind (.log _) fun _ => .pure _
  | ok env => exact .bind (.enter hg name env) fun _ => .pure _

/-! ### Ticks -/

theorem runCallable (hg : g.KeepsToApi) (script : String) (callable : α) :
    Follows J (Scheduler.runCallable g.run script callable)
      (Scheduler.runCallable g.noting.run script callable) := by
  refine .bind (.run hg callable) fun answer => ?_
  cases answer with
  | ok _ => exact .pure _
  | error e => exact .log _

theorem fire (hg : g.KeepsToApi) (task : Submission α) :
    Follows J (Scheduler.fire (α := α) g.run task) (Scheduler.fire (α := α) g.noting.run task) := by
  unfold Scheduler.fire
  cases task.callable with
  | some callable =>
    exact .bind (.runCallable hg task.script callable) fun _ => (Aside.retireSubmission task).follows
  | none =>
    refine .bind (Aside.follows fun _ _ => ⟨rfl, rfl⟩) fun s => ?_
    cases s.live with
    | false => exact .pure _
    | true =>
      cases s.bridge.get? task.ticket with
      | none => exact .log _
      | some callable =>
        refine .bind (.runCallable hg task.script callable) fun _ => ?_
        cases task.oneShot with
        | true => exact (Aside.retireSubmission task).follows
        | false => exact .pure _

theorem fireAll (hg : g.KeepsToApi) (now fired : ℕ) (ids : List ℕ) :
    Follows J (TickRunner.fireAll (Scheduler.fire (α := α) g.run) now fired ids)
      (TickRunner.fireAll (Scheduler.fire (α := α) g.noting.run) now fired ids) := by
  induction ids generalizing fired with
  | nil => exact .pure _
  | cons id ids ih =>
    refine .bind (Aside.follows fun _ _ => ⟨rfl, rfl⟩) fun r => ?_
    cases r.task? id with
    | none => exact ih _
    | some task =>
      refine .bind (Aside.follows fun _ _ => ⟨rfl, rfl⟩) fun _ => .bind (.fire hg task) fun _ => ?_
      exact .bind (Aside.follows fun _ _ => ⟨rfl, rfl⟩) fun _ => ih _

theorem tick (hg : g.KeepsToApi) : Follows J (Host.tick g) (Host.tick g.noting) := by
  refine .bind ?_ fun fired => ?_
  · refine .bind (Aside.follows fun _ _ => ⟨rfl, rfl⟩) fun _ => ?_
    exact .bind (Aside.follows fun _ _ => ⟨rfl, rfl⟩) fun r => .fireAll hg _ _ _
  · by_cases hfired : 0 < fired
    · simp only [hfired, if_true]
      exact .reading (fun _ _ => rfl) fun _ => .bind (.log _) fun _ => .pure _
    · simp only [hfired, if_false]
      exact .pure _

theorem tickTimes (hg : g.KeepsToApi) (n fired : ℕ) :
    Follows J (Host.tickTimes g n fired) (Host.tickTimes g.noting n fired) := by
  induction n generalizing fired with
  | zero => exact .pure _
  | succ n ih => exact .bind (.tick hg) fun more => ih (fired + more)

/-! ### Commands and variables -/

theorem dispatch (hg : g.KeepsToApi) (name : String) (arguments : List String) :
    Follows J (Host.dispatch g name arguments) (Host.dispatch g.noting name arguments) := by
  refine .reading (fun _ _ => rfl) fun h => ?_
  rw [noting_findCommand]
  cases h.findCommand name with
  | none => exact .pure _
  | some found =>
    refine .bind (.log _) fun _ => .bind (.call hg _ _) fun answer => ?_
    cases answer with
    | ok values => exact .pure _
    | error e => exact .pure _

theorem inspect (hg : g.KeepsToApi) (script path : String) :
    Follows J (Host.inspect g script path) (Host.inspect g.noting script path) := by
  refine .reading (fun _ _ => rfl) fun h => ?_
  rw [noting_environment?]
  cases h.environment? script with
  | none => exact .bind (.pure _) fun _ => .pure _
  | some env => exact .bind (.aside (hg.readVariable env.globals path)) fun _ => .pure _

end Follows
end Host
end ScriptHost
