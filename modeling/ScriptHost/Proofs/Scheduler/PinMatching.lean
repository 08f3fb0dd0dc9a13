import ScriptHost.Proofs.Scheduler.Balance
import ScriptHost.Proofs.Scheduler.Conduct

/-!
# Pins and task handles under any runner

The balance of pins is kept by whatever happens to a scheduler. `Upholds` is a triple for code on a rig: if
the record was sound before, it is sound after, even if the code is abandoned, and code that comes to its end
establishes its postcondition. Each call of the scheduler leaves the balance as it found it, given that the
runner does; a runner's own code consists of such calls, one level of nesting further in, so that the
induction is on the depth of nesting.
-/

namespace ScriptHost
namespace Scheduler

variable {σ α β : Type}

/-! ## Sound records -/

/-- What must be true of everything on record: pins and handles match whenever no call is in progress,
every submission and every cancel is answered without an error, `cancelAll` has released one pin for every
pinned handle that it removed, and the scheduler never had to report that a pin could not be released. -/
def Seen.Sound : Seen α → Prop
  | .rest s => PinsMatch s
  | .submitted answer => ∃ id, answer = .ok id
  | .cancelled answer => ∃ found, answer = .ok found
  | .cancelledAll withPin summary => summary.released = withPin
  | .logged r => ¬ (r.level = .error ∧ r.target = "luna::scheduler")

/-- A rig with nothing unsound on record. -/
def Rig.Clean (rig : Rig σ α) : Prop := ∀ e ∈ rig.seen, e.Sound

theorem Rig.Clean.note {rig : Rig σ α} (h : rig.Clean) {e : Seen α} (he : e.Sound) :
    Rig.Clean { rig with seen := e :: rig.seen } := by
  intro e' hmem
  rcases List.mem_cons.mp hmem with rfl | hmem
  · exact he
  · exact h e' hmem

/-! ## Triples -/

/-- Code keeps records sound, and establishes `Q` from `P` if it comes to its end. -/
def Upholds (P : Rig σ α → Prop) (x : RigM σ α β) (Q : β → Rig σ α → Prop) : Prop :=
  ∀ rig, rig.Clean → P rig →
    Rig.Clean (x rig).2 ∧ ∀ b, (x rig).1 = .ok b → Q b (x rig).2

theorem bind_apply {γ : Type} (x : RigM σ α β) (f : β → RigM σ α γ) (rig : Rig σ α) :
    (x >>= f) rig = match x rig with
      | (.ok b, rig') => f b rig'
      | (.error e, rig') => (.error e, rig') := by
  simp only [bind, ExceptT.bind, ExceptT.mk, ExceptT.bindCont, StateT.bind]
  rcases x rig with ⟨(e | b), rig'⟩ <;> rfl

namespace Upholds

variable {γ : Type} {P : Rig σ α → Prop} {x : RigM σ α β} {Q : β → Rig σ α → Prop}

theorem pure (b : β) (h : ∀ rig, P rig → Q b rig) :
    Upholds P (Pure.pure b : RigM σ α β) Q := by
  intro rig hclean hP
  refine ⟨hclean, fun b' hb => ?_⟩
  obtain rfl : b = b' := by injection hb
  exact h rig hP

theorem bind {R : β → Rig σ α → Prop} {f : β → RigM σ α γ} {Q : γ → Rig σ α → Prop}
    (hx : Upholds P x R) (hf : ∀ b, Upholds (R b) (f b) Q) :
    Upholds P (x >>= f) Q := by
  intro rig hclean hP
  obtain ⟨hclean', hR⟩ := hx rig hclean hP
  rw [bind_apply]
  rcases hxr : x rig with ⟨(e | b), rig'⟩ <;> rw [hxr] at hclean' hR
  · exact ⟨hclean', fun c hc => by simp at hc⟩
  · exact hf b rig' hclean' (hR b rfl)

theorem weaken {P' : Rig σ α → Prop} {Q' : β → Rig σ α → Prop} (h : Upholds P x Q)
    (hP : ∀ rig, P' rig → P rig) (hQ : ∀ b rig, Q b rig → Q' b rig) :
    Upholds P' x Q' := by
  intro rig hclean hP'
  obtain ⟨hclean', hb⟩ := h rig hclean (hP rig hP')
  exact ⟨hclean', fun b hok => hQ b _ (hb b hok)⟩

/-- Something that is true whatever the rig can be used as a fact. -/
theorem of_fact {p : Prop} (h : p → Upholds P x Q) :
    Upholds (fun rig => p ∧ P rig) x Q :=
  fun rig hclean hP => h hP.1 rig hclean hP.2

theorem get : Upholds (α := α) P (getThe (Scheduler α)) fun s rig => s = rig.scheduler ∧ P rig := by
  intro rig hclean hP
  refine ⟨hclean, fun s hs => ?_⟩
  injection hs with hs
  exact ⟨hs.symm, hP⟩

theorem set {s : Scheduler α} {Q : Unit → Rig σ α → Prop}
    (h : ∀ rig, P rig → Q () { rig with scheduler := s }) :
    Upholds P (MonadStateOf.set s) Q :=
  fun rig hclean hP => ⟨hclean, fun _ _ => h rig hP⟩

theorem modify {f : Scheduler α → Scheduler α} {Q : Unit → Rig σ α → Prop}
    (h : ∀ rig, P rig → Q () { rig with scheduler := f rig.scheduler }) :
    Upholds P (modifyThe (Scheduler α) f) Q :=
  fun rig hclean hP => ⟨hclean, fun _ _ => h rig hP⟩

theorem note {e : Seen α} {Q : Unit → Rig σ α → Prop} (he : ∀ rig, P rig → e.Sound)
    (h : ∀ rig, P rig → Q () { rig with seen := e :: rig.seen }) :
    Upholds P (RigM.note e) Q :=
  fun rig hclean hP => ⟨hclean.note (he rig hP), fun _ _ => h rig hP⟩

theorem abandon : Upholds P (RigM.abandon : RigM σ α β) Q :=
  fun _ hclean _ => ⟨hclean, fun _ hb => by simp [RigM.abandon] at hb⟩

end Upholds

/-! ## Calls of the scheduler -/

/-- A rig whose pins balance with some held besides. -/
def InBalance (held : List PinHandle) (rig : Rig σ α) : Prop := Balances held rig.scheduler

/-- A runner that leaves every balance as it finds it. -/
structure Steady (runner : TaskRunner (RigM σ α) α) : Prop where
  submit : ∀ held task lane mode,
    Upholds (InBalance held) (runner.submit task lane mode) fun _ => InBalance held
  cancel : ∀ held id, Upholds (InBalance held) (runner.cancel id) fun _ => InBalance held

variable {held : List PinHandle} {runner : TaskRunner (RigM σ α) α}

/-- What is logged at another level than `error` is sound. -/
theorem upholds_log (level : Level) (message : String) (hlevel : level ≠ .error) :
    Upholds (σ := σ) (α := α) (InBalance held) (log (record level message))
      fun _ => InBalance held :=
  Upholds.note (fun _ _ h => hlevel h.1) fun _ h => h

/-- A pin that the call holds is released, without an error. -/
theorem upholds_unpinNow (pin : PinHandle) :
    Upholds (σ := σ) (α := α) (InBalance (pin :: held)) (unpinNow (α := α) pin)
      fun answer rig => answer = .ok () ∧ InBalance held rig := by
  unfold unpinNow
  refine Upholds.bind Upholds.get fun s => ?_
  intro rig hclean ⟨hs, hlevel⟩
  subst hs
  obtain ⟨hunpin, hafter⟩ := Balances.unpin hlevel
  rw [hunpin]
  exact ⟨hclean, fun answer hok => ⟨by injection hok with hok; exact hok.symm, hafter⟩⟩

/-- The end of a submission: the new handle takes the pin over. -/
theorem upholds_track (k : TaskHandle) (message : String) (id : TaskId) :
    Upholds (σ := σ) (α := α) (InBalance (k.pin.toList ++ held))
      (do
        modifyThe (Scheduler α) fun s => { s with handles := s.handles ++ [k] }
        log (record .debug message)
        pure (Except.ok id))
      fun answer rig => (∃ id, answer = Except.ok (ε := HostError) id) ∧ InBalance held rig := by
  refine Upholds.bind (Upholds.modify (Q := fun _ => InBalance held)
    fun rig h => Balances.track h) fun _ => ?_
  refine Upholds.bind (upholds_log .debug message (by decide)) fun _ => ?_
  exact Upholds.pure _ fun rig h => ⟨⟨id, rfl⟩, h⟩

theorem upholds_submit (hrunner : Steady runner) (script : String) (callable : α) (lane : Lane)
    (mode : Mode) :
    Upholds (InBalance held) (submit runner script callable lane mode)
      fun answer rig => (∃ id, answer = .ok id) ∧ InBalance held rig := by
  unfold submit
  refine Upholds.bind Upholds.get fun s => ?_
  dsimp only
  refine Upholds.bind (Upholds.set (Q := fun _ => InBalance ((s.bridge.pin callable).1 :: held))
    fun rig ⟨hs, h⟩ => hs ▸ Balances.pin h callable) fun _ => ?_
  refine Upholds.bind (hrunner.submit _ _ lane mode) fun id => ?_
  refine Upholds.bind (Upholds.modify (Q := fun _ => InBalance ((s.bridge.pin callable).1 :: held))
    fun rig h => Balances.accept h _) fun _ => ?_
  -- a tracked task keeps the pin for its handle, an immediate one gives it up
  cases hmode : mode.isTracked with
  | true =>
    simp only [if_true]
    refine Upholds.bind (R := fun answer rig => answer = .ok () ∧
      InBalance ((s.bridge.pin callable).1 :: held) rig)
      (Upholds.pure _ fun rig h => ⟨rfl, h⟩) fun answer => Upholds.of_fact ?_
    rintro rfl
    exact upholds_track ⟨script, id, some (s.bridge.pin callable).1⟩ _ id
  | false =>
    simp only [Bool.false_eq_true, if_false]
    refine Upholds.bind (upholds_unpinNow _) fun answer => Upholds.of_fact ?_
    rintro rfl
    exact upholds_track ⟨script, id, none⟩ _ id

/-- Retiring a task releases the pin of its handle, if there is one. -/
theorem upholds_retire (script : String) (id : TaskId) :
    Upholds (σ := σ) (α := α) (InBalance held) (retire (α := α) script id)
      fun _ => InBalance held := by
  unfold retire
  refine Upholds.bind Upholds.get fun s => ?_
  dsimp only
  refine Upholds.bind (Upholds.set (Q := fun _ =>
    InBalance (((s.untrack script id).1.bind TaskHandle.pin).toList ++ held))
    fun rig ⟨hs, h⟩ => hs ▸ Balances.untrack h script id) fun _ => ?_
  cases hpin : (s.untrack script id).1.bind TaskHandle.pin with
  | none => exact Upholds.pure _ fun rig h => h
  | some pin =>
    refine Upholds.bind (upholds_unpinNow pin) fun answer => Upholds.of_fact ?_
    rintro rfl
    exact Upholds.pure _ fun rig h => h

theorem upholds_retireSubmission (task : Submission α) :
    Upholds (σ := σ) (α := α) (InBalance held) (retireSubmission task) fun _ => InBalance held := by
  unfold retireSubmission
  refine Upholds.bind Upholds.get fun s => ?_
  refine Upholds.weaken (P := InBalance held) (Q := fun _ => InBalance held) ?_
    (fun _ h => h.2) fun _ _ h => h
  split
  · exact upholds_retire _ _
  · exact Upholds.pure _ fun rig h => h

theorem scriptTarget_ne_scheduler (script : String) : scriptTarget script ≠ "luna::scheduler" := by
  intro h
  have hprefix := congrArg (fun s => s.toList.take 9) h
  simp [scriptTarget, String.toList_append] at hprefix

/-- What a script's code comes to is logged in the script's name. -/
theorem upholds_runCallable {call : α → RigM σ α (Except GuestError Unit)}
    (hcall : ∀ c, Upholds (InBalance held) (call c) fun _ => InBalance held)
    (script : String) (callable : α) :
    Upholds (InBalance held) (runCallable call script callable) fun _ => InBalance held := by
  unfold runCallable
  refine Upholds.bind (hcall callable) fun answer => ?_
  split
  · exact Upholds.pure _ fun rig h => h
  · exact Upholds.note (fun _ _ h => scriptTarget_ne_scheduler script h.2) fun _ h => h

/-- What happens when a task's turn comes: its callable may run, and the task may retire. -/
theorem upholds_fire {call : α → RigM σ α (Except GuestError Unit)}
    (hcall : ∀ c, Upholds (InBalance held) (call c) fun _ => InBalance held)
    (task : Submission α) :
    Upholds (InBalance held) (fire call task) fun _ => InBalance held := by
  unfold fire
  split
  · exact Upholds.bind (upholds_runCallable hcall _ _) fun _ => upholds_retireSubmission task
  · refine Upholds.bind Upholds.get fun s => ?_
    refine Upholds.weaken (P := InBalance held) (Q := fun _ => InBalance held) ?_
      (fun _ h => h.2) fun _ _ h => h
    split
    · exact Upholds.pure _ fun rig h => h
    · split
      · exact upholds_log .debug _ (by decide)
      · refine Upholds.bind (upholds_runCallable hcall _ _) fun _ => ?_
        split
        · exact upholds_retireSubmission task
        · exact Upholds.pure _ fun rig h => h

/-- The code around the balance: whatever the runner answers, a cancel is answered without an error. -/
theorem upholds_cancel (hrunner : Steady runner) (script : String) (id : TaskId) :
    Upholds (InBalance held) (cancel (α := α) runner script id)
      fun answer rig => (∃ found, answer = .ok found) ∧ InBalance held rig := by
  unfold cancel
  refine Upholds.bind Upholds.get fun s => ?_
  refine Upholds.weaken (P := InBalance held)
    (Q := fun answer rig => (∃ found, answer = .ok found) ∧ InBalance held rig) ?_
    (fun _ h => h.2) fun _ _ h => h
  split
  · exact Upholds.pure _ fun rig h => ⟨⟨false, rfl⟩, h⟩
  · refine Upholds.bind (hrunner.cancel held id) fun found => ?_
    refine Upholds.bind Upholds.get fun s => ?_
    dsimp only
    refine Upholds.bind (Upholds.set (Q := fun _ =>
      InBalance (((s.untrack script id).1.bind TaskHandle.pin).toList ++ held))
      fun rig ⟨hs, h⟩ => hs ▸ Balances.untrack h script id) fun _ => ?_
    cases hpin : (s.untrack script id).1.bind TaskHandle.pin with
    | none => exact Upholds.pure _ fun rig h => ⟨⟨found, rfl⟩, h⟩
    | some pin =>
      refine Upholds.bind (upholds_unpinNow pin) fun answer => Upholds.of_fact ?_
      rintro rfl
      exact Upholds.pure _ fun rig h => ⟨⟨true, rfl⟩, h⟩

/-- Cancelling the listed tasks releases each of their pins, which the call holds until then. -/
theorem upholds_cancelHandles (hrunner : Steady runner) (script : String)
    (handles : List TaskHandle) (summary : CancelSummary) :
    Upholds (InBalance (pinsOf handles ++ held)) (cancelHandles runner script summary handles)
      fun answer rig => answer.released = summary.released + (pinsOf handles).length ∧
        InBalance held rig := by
  induction handles generalizing summary with
  | nil => exact Upholds.pure _ fun rig h => ⟨rfl, h⟩
  | cons k handles ih =>
    unfold cancelHandles
    refine Upholds.bind (hrunner.cancel _ k.task) fun _ => ?_
    dsimp only
    cases hpin : k.pin with
    | none =>
      simp only [pinsOf, List.filterMap_cons, hpin]
      exact ih _
    | some pin =>
      simp only [pinsOf, List.filterMap_cons, hpin]
      refine Upholds.bind (upholds_unpinNow pin) fun answer => Upholds.of_fact ?_
      rintro rfl
      refine Upholds.weaken (ih _) (fun _ h => h) fun answer rig h => ⟨?_, h.2⟩
      rw [h.1, List.length_cons]
      exact Nat.add_right_comm _ 1 _

theorem upholds_cancelAll (hrunner : Steady runner) (script : String) (withPin : Nat) :
    Upholds (fun rig => (pinsOf (rig.scheduler.handlesOf script)).length = withPin ∧
        InBalance held rig)
      (cancelAll (α := α) runner script)
      fun summary rig => summary.released = withPin ∧ InBalance held rig := by
  unfold cancelAll
  refine Upholds.bind Upholds.get fun s => ?_
  refine Upholds.bind (Upholds.set (Q := fun _ rig =>
    (pinsOf (s.handlesOf script)).length = withPin ∧
      InBalance (pinsOf (s.handlesOf script) ++ held) rig)
    fun rig ⟨hs, hcount, h⟩ => hs ▸ ⟨hcount, Balances.dropScript h script⟩) fun _ => ?_
  -- how many handles had pins is known when they have been removed
  refine Upholds.of_fact fun hcount => ?_
  refine Upholds.bind (upholds_cancelHandles hrunner script _ {}) fun summary => ?_
  refine Upholds.weaken (P := fun rig => summary.released = withPin ∧ InBalance held rig)
    (Q := fun answer rig => answer.released = withPin ∧ InBalance held rig) ?_ ?_ fun _ _ h => h
  · dsimp only
    split
    · exact Upholds.bind (R := fun _ rig => summary.released = withPin ∧ InBalance held rig)
        (Upholds.note (fun _ _ h => by simp [record] at h) fun _ h => h)
        fun _ => Upholds.pure _ fun rig h => h
    · exact Upholds.pure _ fun rig h => h
  · intro rig h
    exact ⟨by rw [h.1, ← hcount]; exact Nat.zero_add _, h.2⟩

/-! ## Runs -/

theorem upholds_pause {isRest : Bool} (hrest : isRest = true → held = []) :
    Upholds (σ := σ) (α := α) (InBalance held) (RigM.pause isRest) fun _ => InBalance held := by
  unfold RigM.pause
  cases isRest with
  | false => exact Upholds.pure _ fun rig h => h
  | true =>
    refine Upholds.bind Upholds.get fun s => Upholds.note (fun rig ⟨hs, h⟩ => ?_) fun rig h => h.2
    rw [hrest rfl] at h
    exact hs ▸ Balances.pinsMatch h

/-- Code leaves every balance as it finds it, if the runner and the callables do. While no call is in
progress nothing is held besides. -/
theorem upholds_exec (hrunner : Steady runner) {call : α → RigM σ α (Except GuestError Unit)}
    (hcall : ∀ c, Upholds (InBalance held) (call c) fun _ => InBalance held)
    (isRest : Bool) (hrest : isRest = true → held = []) (code : Conduct σ α β) :
    Upholds (InBalance held) (code.exec runner call isRest) fun _ => InBalance held := by
  -- before each step a scheduler at rest is put on record; calls are noted with their answers
  induction code with
  | done b => exact Upholds.bind (upholds_pause hrest) fun _ => Upholds.pure b fun rig h => h
  | own f next ih =>
    refine Upholds.bind (upholds_pause hrest) fun _ => ?_
    refine Upholds.bind (R := fun _ => InBalance held) ?_ fun own => ih own
    exact fun rig hclean h => ⟨hclean, fun _ _ => h⟩
  | look next ih =>
    refine Upholds.bind (upholds_pause hrest) fun _ => ?_
    exact Upholds.bind Upholds.get fun s => (ih s).weaken (fun _ h => h.2) fun _ _ h => h
  | submit script callable lane mode next ih =>
    refine Upholds.bind (upholds_pause hrest) fun _ => ?_
    refine Upholds.bind (upholds_submit hrunner script callable lane mode) fun answer => ?_
    refine Upholds.bind (R := fun _ => InBalance held) ?_ fun _ => ih answer
    exact Upholds.note (fun _ h => h.1) fun _ h => h.2
  | cancel script id next ih =>
    refine Upholds.bind (upholds_pause hrest) fun _ => ?_
    refine Upholds.bind (upholds_cancel hrunner script id) fun answer => ?_
    refine Upholds.bind (R := fun _ => InBalance held) ?_ fun _ => ih answer
    exact Upholds.note (fun _ h => h.1) fun _ h => h.2
  | cancelAll script next ih =>
    refine Upholds.bind (upholds_pause hrest) fun _ => ?_
    refine Upholds.bind Upholds.get fun s => ?_
    dsimp only
    refine Upholds.bind (R := fun summary rig =>
      summary.released = (s.handlesOf script).countP (fun h => h.pin.isSome) ∧ InBalance held rig)
      ((upholds_cancelAll hrunner script _).weaken (fun rig h => ⟨h.1 ▸ length_pinsOf _, h.2⟩)
        fun _ _ h => h) fun summary => ?_
    refine Upholds.bind (R := fun _ => InBalance held) ?_ fun _ => ih summary
    exact Upholds.note (fun _ h => h.1) fun _ h => h.2
  | fire task next ih =>
    refine Upholds.bind (upholds_pause hrest) fun _ => ?_
    exact Upholds.bind (upholds_fire hcall task) fun _ => ih

/-- At every depth of nesting the runner leaves every balance as it finds it. So does a callable, as long
as nothing is held besides while no call is in progress. -/
theorem crew_steady (b : Behaviour σ α) (depth : Nat) :
    Steady (crew b depth).runner ∧
      ∀ held isRest c, (isRest = true → held = []) →
        Upholds (InBalance held) ((crew b depth).call isRest c) fun _ => InBalance held := by
  induction depth with
  | zero => exact ⟨⟨fun _ _ _ _ => Upholds.abandon, fun _ _ => Upholds.abandon⟩,
      fun _ _ _ _ => Upholds.abandon⟩
  | succ depth ih =>
    obtain ⟨hrunner, hcall⟩ := ih
    have hwithin : ∀ held, ∀ c, Upholds (InBalance held) ((crew b depth).call false c)
        fun _ => InBalance held := fun held c => hcall held false c fun h => nomatch h
    refine ⟨⟨fun held task lane mode => ?_, fun held id => ?_⟩, fun held isRest c hrest => ?_⟩
    · exact upholds_exec hrunner (hwithin held) false (fun h => nomatch h) _
    · exact upholds_exec hrunner (hwithin held) false (fun h => nomatch h) _
    · exact upholds_exec hrunner (fun c => hcall held isRest c hrest) isRest hrest _

/-- **Pins and task handles correspond.** Under any runner and any callables, whatever code does with a new
scheduler and however deeply calls nest: whenever no call is in progress the live pins are exactly those of
the task handles, each of one handle; every submit and every cancel is answered without an error; and
`cancelAll` has released one pin for every handle with a pin that it removed. -/
theorem pins_match_handles (b : Behaviour σ α) (depth : Nat) (code : Conduct σ α β) (own : σ) :
    (∀ e ∈ (code.run b depth own).2.seen, e.Sound) ∧
      ∀ result, (code.run b depth own).1 = .ok result →
        PinsMatch (code.run b depth own).2.scheduler := by
  obtain ⟨hrunner, hcall⟩ := crew_steady b depth
  have hexec := upholds_exec hrunner (fun c => hcall [] true c fun _ => rfl) true (fun _ => rfl) code
  obtain ⟨hclean, hend⟩ := hexec { own } (fun e h => nomatch h) balances_empty
  exact ⟨hclean, fun result hok => Balances.pinsMatch (hend result hok)⟩

end Scheduler
end ScriptHost
