import ScriptHost.Proofs.Host.Unload

/-!
# What is logged stays in the log

`Logs x`: what was in the log before `x` is there afterwards, and comes first. So it is with all that guest code and
the host do (`Logs.exec`).
-/

namespace ScriptHost
namespace Host

open Scheduler

variable {γ α β δ : Type}

/-- The log has only grown, at its end. -/
def LogKept (h h' : Host γ α) : Prop := ∃ later, h'.records = h.records ++ later

namespace LogKept

variable {h h' h'' : Host γ α}

theorem of_same (hrecords : h'.records = h.records) : LogKept h h' :=
  ⟨#[], by rw [hrecords, Array.append_empty]⟩

theorem trans (hfirst : LogKept h h') (hrest : LogKept h' h'') : LogKept h h'' := by
  obtain ⟨first, hfirst⟩ := hfirst
  obtain ⟨later, hlater⟩ := hrest
  exact ⟨first ++ later, by rw [hlater, hfirst, Array.append_assoc]⟩

theorem mem (hkept : LogKept h h') {r : Record} (hr : r ∈ h.records) : r ∈ h'.records := by
  obtain ⟨later, heq⟩ := hkept
  rw [heq]
  exact Array.mem_append_left later hr

end LogKept

/-- What is in the log stays there. -/
def Logs (x : HostM γ α β) : Prop := ∀ h, LogKept h (x h).2

namespace Logs

/-- What does not log leaves the log as it is. -/
theorem silent {x : HostM γ α β} (hx : ∀ h, (x h).2.records = h.records) : Logs x := fun h =>
  .of_same (hx h)

theorem pure (b : β) : Logs (Pure.pure b : HostM γ α β) := .silent fun _ => rfl

theorem bind {x : HostM γ α β} {f : β → HostM γ α δ} (hx : Logs x) (hf : ∀ b, Logs (f b)) :
    Logs (x >>= f) := fun h => (hx h).trans (hf (x h).1 (x h).2)

theorem log (r : Record) : Logs (ScriptHost.log r : HostM γ α Unit) := fun _ => ⟨#[r], rfl⟩

theorem read : Logs (Host.read : HostM γ α (Host γ α)) := .silent fun _ => rfl

theorem logAll (rs : List Record) : Logs (Host.logAll rs : HostM γ α Unit) := by
  induction rs with
  | nil => exact .pure ()
  | cons r rs ih => exact .bind (.log r) fun _ => ih

/-! ## Tasks -/

theorem unpinNow (pin : PinHandle) :
    Logs (Scheduler.unpinNow (α := α) pin : HostM γ α (Except HostError Unit)) := by
  refine .bind (.silent fun _ => rfl) fun s => ?_
  cases s.unpin pin with
  | error e => exact .pure _
  | ok s => exact .bind (.silent fun _ => rfl) fun _ => .pure _

theorem cancelHandles (script : String) (handles : List TaskHandle) (summary : CancelSummary) :
    Logs (Scheduler.cancelHandles (α := α) (taskRunner (γ := γ)) script summary handles) := by
  induction handles generalizing summary with
  | nil => exact .pure _
  | cons handle handles ih =>
    refine .bind (.silent fun _ => rfl) fun _ => ?_
    cases handle.pin with
    | none => exact ih _
    | some pin =>
      refine .bind (.unpinNow pin) fun answer => ?_
      cases answer with
      | ok _ => exact ih _
      | error e => exact .bind (.log _) fun _ => ih _

theorem cancelAllTasks (script : String) : Logs (Host.cancelAllTasks script : HostM γ α _) := by
  refine .bind (.silent fun _ => rfl) fun s => .bind (.silent fun _ => rfl) fun _ => ?_
  refine .bind (.cancelHandles script _ _) fun summary => ?_
  by_cases hsome : 0 < summary.cancelled
  · simp only [hsome, if_true]
    exact .bind (.log _) fun _ => .pure _
  · simp only [hsome, if_false]
    exact .pure _

theorem schedule (script : String) (callable : α) (lane : Lane) (mode : Mode) :
    Logs (Host.schedule script callable lane mode : HostM γ α _) := by
  refine .bind (.silent fun _ => rfl) fun s => .bind (.silent fun _ => rfl) fun _ => ?_
  refine .bind (.silent fun _ => rfl) fun id => .bind (.silent fun _ => rfl) fun _ => ?_
  cases mode.isTracked
  case' true => refine .bind (.pure _) fun released => ?_
  case' false => refine .bind (.unpinNow _) fun released => ?_
  all_goals
    cases released with
    | error e => exact .pure _
    | ok _ => exact .bind (.silent fun _ => rfl) fun _ => .bind (.log _) fun _ => .pure _

theorem cancelTask (script : String) (id : TaskId) :
    Logs (Host.cancelTask script id : HostM γ α _) := by
  refine .bind (.silent fun _ => rfl) fun s => ?_
  cases s.ownedByOther script id with
  | true => exact .pure _
  | false =>
    refine .bind (.silent fun _ => rfl) fun cancelled => .bind (.silent fun _ => rfl) fun s => ?_
    refine .bind (.silent fun _ => rfl) fun _ => ?_
    cases (s.handles.find? (TaskHandle.isFor script id)).bind TaskHandle.pin with
    | none => exact .pure _
    | some pin => exact .bind (.unpinNow pin) fun _ => .pure _

theorem retireSubmission (task : Submission α) :
    Logs (Scheduler.retireSubmission task : HostM γ α Unit) := by
  refine .bind (.silent fun _ => rfl) fun s => ?_
  cases s.live with
  | false => exact .pure _
  | true =>
    cases s.accepted.get? task.ticket.raw with
    | none => exact .pure _
    | some id =>
      refine .bind (.silent fun _ => rfl) fun s => .bind (.silent fun _ => rfl) fun _ => ?_
      cases (s.handles.find? (TaskHandle.isFor task.script id)).bind TaskHandle.pin with
      | none => exact .pure _
      | some pin =>
        refine .bind (.unpinNow pin) fun answer => ?_
        cases answer with
        | ok _ => exact .pure _
        | error e => exact .log _

/-! ## Objects -/

theorem share (owner : Owner) (name : String) (value : Option α) :
    Logs (Host.share owner name value : HostM γ α _) := by
  refine .bind .read fun h => ?_
  cases h.objects.register owner name value with
  | error e => exact .pure _
  | ok result => exact .bind (.silent fun _ => rfl) fun _ => .bind (.logAll _) fun _ => .pure _

theorem unshare (owner : Owner) (name : String) :
    Logs (Host.unshare owner name : HostM γ α _) := by
  refine .bind .read fun h => ?_
  cases h.objects.unregister owner name with
  | error e => exact .pure _
  | ok result => exact .bind (.silent fun _ => rfl) fun _ => .pure _

theorem releaseObjects (name : String) : Logs (Host.releaseObjects name : HostM γ α ℕ) :=
  .silent fun _ => rfl

/-! ## Commands -/

theorem syncCommands : Logs (Host.syncCommands : HostM γ α Unit) :=
  .bind (.silent fun _ => rfl) fun _ => .bind (.silent fun _ => rfl) fun _ => .logAll _

theorem publishAll (name : String) (commands : List (DeclaredCommand α)) :
    Logs (Host.publishAll name commands : HostM γ α Unit) := by
  induction commands with
  | nil => exact .pure _
  | cons c commands ih =>
    refine .bind (.silent fun _ => rfl) fun h => ?_
    cases h.commands.register ⟨c.name, name, c.description⟩ with
    | ok table => exact .bind (.silent fun _ => rfl) fun _ => ih
    | error e => exact .bind (.log _) fun _ => ih

theorem publish (name : String) : Logs (Host.publish name : HostM γ α Unit) := by
  refine .bind (.silent fun _ => rfl) fun h => ?_
  cases h.environment? name with
  | none => exact .pure _
  | some env => exact .bind (.publishAll name _) fun _ => .syncCommands

theorem withdrawCommands (name : String) : Logs (Host.withdrawCommands name : HostM γ α Unit) :=
  .bind (.silent fun _ => rfl) fun _ => .bind (.silent fun _ => rfl) fun _ => .syncCommands

end Logs

/-! ## The guest -/

theorem logKept_performAll (acts : List (Act γ α)) (h : Host γ α) :
    LogKept h (Act.performAll acts h) := by
  induction acts generalizing h with
  | nil => exact .of_same rfl
  | cons act acts ih =>
    have hact : Logs (fun h => ((), act.perform h) : HostM γ α Unit) := by
      cases act with
      | think state => exact .silent fun _ => rfl
      | report record => exact .log record
      | onLoad number hook => exact .silent fun _ => rfl
      | onUnload number hook => exact .silent fun _ => rfl
      | declare number command => exact .silent fun _ => rfl
      | share number object value => exact fun h => Logs.share _ object value h
      | unshare number object => exact fun h => Logs.unshare _ object h
      | schedule script callable lane mode => exact Logs.schedule script callable lane mode
      | cancel script id => exact Logs.cancelTask script id
    exact (hact h).trans (ih (act.perform h))

variable {g : Guest γ α}

namespace Logs

theorem of_acts {x : HostM γ α β} (hx : ∀ h, ∃ acts, (x h).2 = Act.performAll acts h) : Logs x := by
  intro h
  obtain ⟨acts, heq⟩ := hx h
  rw [heq]
  exact logKept_performAll acts h

theorem run (hg : g.KeepsToApi) (f : α) : Logs (g.run f) := .of_acts (hg.call f [])

theorem runHooks (hg : g.KeepsToApi) (name kind : String) (hooks : List α) :
    Logs (Host.runHooks g name kind hooks) := by
  induction hooks with
  | nil => exact .pure _
  | cons hook hooks ih =>
    refine .bind (.run hg hook) fun answer => ?_
    cases answer with
    | ok _ => exact ih
    | error e => exact .bind (.log _) fun _ => ih

/-! ## Unloading and loading -/

theorem tearDown (name : String) (env : Environment α) (summary : CancelSummary) :
    Logs (Host.tearDown name env summary : HostM γ α (Except HostError Unit)) := by
  refine .bind (.withdrawCommands name) fun _ => .bind (.releaseObjects name) fun _ => ?_
  refine .bind (.silent fun _ => rfl) fun _ => .bind (.silent fun _ => rfl) fun _ => ?_
  exact .bind (.silent fun _ => rfl) fun _ => .bind (.log _) fun _ => .pure _

theorem unload (hg : g.KeepsToApi) (name : String) : Logs (Host.unload g name) := by
  refine .bind .read fun h => ?_
  split
  · refine .bind (.silent fun _ => rfl) fun _ => .bind (.runHooks hg name "unload" _) fun _ => ?_
    exact .bind (.cancelAllTasks name) fun _ => .tearDown name _ _
  · exact .pure _

theorem createEnvironment (hg : g.KeepsToApi) (name : String) (origin : Origin) :
    Logs (Host.createEnvironment g name origin) := by
  refine .bind .read fun h => .bind (.silent fun _ => rfl) fun _ => ?_
  refine .bind (.of_acts (hg.createGlobals name origin.folder? _)) fun globals => ?_
  exact .bind (.log _) fun _ => .bind .read fun _ => .pure _

theorem discard (env : Environment α) : Logs (Host.discard env : HostM γ α Unit) :=
  .bind (.silent fun _ => rfl) fun _ => .bind (.cancelAllTasks _) fun _ =>
    .bind (.releaseObjects _) fun _ => .log _

theorem instantiate (hg : g.KeepsToApi) (name : String) (origin : Origin) (source : String) :
    Logs (Host.instantiate g name origin source) := by
  rw [instantiate_eq]
  refine .bind (.createEnvironment hg name origin) fun env => .bind ?_ fun result => ?_
  · refine .bind (.of_acts (hg.compile name env.globals source)) fun answer => ?_
    cases answer with
    | error e => exact .pure _
    | ok body => exact .run hg body
  · cases result with
    | ok _ => exact .pure _
    | error e => exact .bind (.discard env) fun _ => .pure _

theorem enter (hg : g.KeepsToApi) (name : String) (env : Environment α) :
    Logs (Host.enter g name env) :=
  .bind (.silent fun _ => rfl) fun _ => .bind (.publish name) fun _ => .bind .read fun _ =>
    .bind (.runHooks hg name "load" _) fun _ => .bind (.publish name) fun _ => .log _

theorem bringUp (hg : g.KeepsToApi) (name : String) (origin : Origin) (source : String) :
    Logs (Host.bringUp g name origin source) := by
  refine .bind (.silent fun _ => rfl) fun _ => .bind (.instantiate hg name origin source) fun result => ?_
  refine .bind (.silent fun _ => rfl) fun _ => ?_
  cases result with
  | error e => exact .bind (.log _) fun _ => .pure _
  | ok env => exact .bind (.enter hg name env) fun _ => .pure _

theorem makeRoom (hg : g.KeepsToApi) (name : String) : Logs (Host.makeRoom g name) := by
  refine .bind .read fun h => ?_
  split
  · split
    · exact .pure _
    · exact .bind (.log _) fun _ => .unload hg name
  · exact .pure _

theorem loadFrom (hg : g.KeepsToApi) (name : String) (origin : Origin) (source : String) :
    Logs (Host.loadFrom g name origin source) := by
  rw [loadFrom_eq]
  refine .bind (.makeRoom hg name) fun room => ?_
  cases room with
  | error e => exact .pure _
  | ok _ => exact .bringUp hg name origin source

theorem load (hg : g.KeepsToApi) (source name : String) : Logs (Host.load g source name) := by
  unfold Host.load
  split
  · exact .loadFrom hg name _ source
  · exact .pure _

theorem loadBundle (hg : g.KeepsToApi) (name : String) : Logs (Host.loadBundle g name) := by
  unfold Host.loadBundle
  split
  · refine .bind .read fun h => ?_
    cases h.bundles.read h.files name with
    | error e => exact .pure _
    | ok entry => exact .loadFrom hg name _ entry.source
  · exact .pure _

theorem reload (hg : g.KeepsToApi) (name : String) : Logs (Host.reload g name) := by
  refine .bind .read fun h => ?_
  cases h.environment? name with
  | none => exact .pure _
  | some env =>
    refine .bind (.unload hg name) fun answer => ?_
    cases answer with
    | error e => exact .pure _
    | ok _ =>
      cases env.origin with
      | bundle folder => exact .loadBundle hg name
      | inline source => exact .loadFrom hg name _ source

theorem forScripts {act : String → HostM γ α (Except HostError Unit)} (hact : ∀ name, Logs (act name))
    (names : List String) : Logs (Host.forScripts act names) := by
  induction names with
  | nil => exact .pure _
  | cons name names ih => exact .bind (hact name) fun _ => .bind ih fun _ => .pure _

/-! ## Ticks -/

theorem runCallable (hg : g.KeepsToApi) (script : String) (callable : α) :
    Logs (Scheduler.runCallable g.run script callable) := by
  refine .bind (.run hg callable) fun answer => ?_
  cases answer with
  | ok _ => exact .pure _
  | error e => exact .log _

theorem fire (hg : g.KeepsToApi) (task : Submission α) :
    Logs (Scheduler.fire (α := α) g.run task) := by
  unfold Scheduler.fire
  cases task.callable with
  | some callable =>
    exact .bind (.runCallable hg task.script callable) fun _ => .retireSubmission task
  | none =>
    refine .bind (.silent fun _ => rfl) fun s => ?_
    cases s.live with
    | false => exact .pure _
    | true =>
      cases s.bridge.get? task.ticket with
      | none => exact .log _
      | some callable =>
        refine .bind (.runCallable hg task.script callable) fun _ => ?_
        cases task.oneShot with
        | true => exact .retireSubmission task
        | false => exact .pure _

theorem fireAll (hg : g.KeepsToApi) (now fired : ℕ) (ids : List ℕ) :
    Logs (TickRunner.fireAll (Scheduler.fire (α := α) g.run) now fired ids) := by
  induction ids generalizing fired with
  | nil => exact .pure _
  | cons id ids ih =>
    refine .bind (.silent fun _ => rfl) fun r => ?_
    cases r.task? id with
    | none => exact ih _
    | some task =>
      refine .bind (.silent fun _ => rfl) fun _ => .bind (.fire hg task) fun _ => ?_
      exact .bind (.silent fun _ => rfl) fun _ => ih _

theorem tick (hg : g.KeepsToApi) : Logs (Host.tick g) := by
  refine .bind ?_ fun fired => ?_
  · refine .bind (.silent fun _ => rfl) fun _ => .bind (.silent fun _ => rfl) fun r => ?_
    exact .fireAll hg _ _ _
  · by_cases hfired : 0 < fired
    · simp only [hfired, if_true]
      exact .bind .read fun _ => .bind (.log _) fun _ => .pure _
    · simp only [hfired, if_false]
      exact .pure _

/-! ## Operations -/

theorem dispatch (hg : g.KeepsToApi) (name : String) (arguments : List String) :
    Logs (Host.dispatch g name arguments) := by
  refine .bind .read fun h => ?_
  cases h.findCommand name with
  | none => exact .pure _
  | some found =>
    refine .bind (.log _) fun _ => .bind (.of_acts (hg.call _ _)) fun answer => ?_
    cases answer with
    | ok values => exact .pure _
    | error e => exact .pure _

theorem inspect (hg : g.KeepsToApi) (script path : String) : Logs (Host.inspect g script path) := by
  refine .bind .read fun h => ?_
  cases h.environment? script with
  | none => exact .bind (.pure _) fun _ => .pure _
  | some env => exact .bind (.of_acts (hg.readVariable env.globals path)) fun _ => .pure _

theorem loadAll (hg : g.KeepsToApi) : Logs (Host.loadAll g) := by
  refine .bind .read fun h => ?_
  cases h.bundles.list h.files with
  | error e => exact .pure _
  | ok names => exact .bind (.forScripts (.loadBundle hg) names) fun _ => .pure _

/-- What is in the log stays there, whatever is done with the host. -/
theorem exec (hg : g.KeepsToApi) (op : Operation α) :
    Logs (fun h => ((), op.exec g h) : HostM γ α Unit) := by
  cases op with
  | load source name => exact Logs.load hg source name
  | loadBundle name => exact Logs.loadBundle hg name
  | unload name => exact Logs.unload hg name
  | reload name => exact Logs.reload hg name
  | loadAll => exact Logs.loadAll hg
  | unloadAll => exact fun h => Logs.forScripts (.unload hg) h.loadedScripts h
  | dispatch name arguments => exact Logs.dispatch hg name arguments
  | inspect script path => exact Logs.inspect hg script path
  | tick => exact Logs.tick hg
  | share owner name value => exact Logs.share owner name value
  | unshare owner name => exact Logs.unshare owner name
  | releaseObjects script => exact Logs.releaseObjects script
  | schedule script callable lane mode => exact Logs.schedule script callable lane mode
  | cancel script id => exact Logs.cancelTask script id
  | cancelAll script => exact Logs.cancelAllTasks script
  | register command =>
    refine .silent fun h => ?_
    rw [Operation.exec]
    cases h.commands.register command <;> rfl
  | unregister name => exact .silent fun _ => rfl
  | sync => exact Logs.syncCommands
  | call f arguments => exact .of_acts (hg.call f arguments)
  | drift files now => exact .silent fun _ => rfl

end Logs

end Host
end ScriptHost
