import Mathlib.Data.List.Range
import ScriptHost.Proofs.Histories
import ScriptHost.Proofs.TickRunner.Account
import ScriptHost.Proofs.TickRunner.FiringOrder

/-!
# The firing schedule

`Recorded` is what the history of a runner shows at any moment: the accounts of all tasks are in order. Every
step of code and every turn of a task in a tick keeps it, so that it holds at the end of every run
(`Recorded.run`), and with it the schedule of every task (`fires_on_schedule`).
-/

namespace ScriptHost
namespace TickRunner

variable {σ τ : Type} {flying : Option ℕ} {todo : List ℕ} {st : Stage σ τ} {body : τ → Deed σ τ}

/-- What the history shows of a runner; while the runner is `busy`, a tick is in progress. -/
structure Chronicle (busy : Prop) (r : TickRunner (ℕ × τ)) (history : List Event) : Prop where
  past : ∀ e ∈ history, e.tick ≤ r.now
  unfinished : busy → ∀ count, Event.ticked r.now count ∉ history
  known : ∀ e ∈ history, ∀ id t, e.firing? id = some t → 1 ≤ id ∧ id ≤ r.issued

/-- The tasks that have their turns ahead of them stand in line, behind those that have fired in the tick. -/
structure Lined (todo : List ℕ) (st : Stage σ τ) : Prop where
  sublist : todo.Sublist (lineUp st.history)
  behind : ∀ i, Event.fired st.runner.now i ∈ st.history → ∀ j ∈ todo, [i, j].Sublist (lineUp st.history)

/-- The invariant of a runner at work. -/
structure Recorded (flying : Option ℕ) (todo : List ℕ) (st : Stage σ τ) : Prop where
  standing : Standing flying todo st.runner
  inOrder : InOrder flying st
  chronicle : Chronicle (flying ≠ none ∨ todo ≠ []) st.runner st.history
  lined : Lined todo st
  accounts : ∀ before s id lane mode after,
    st.history = before ++ .submitted s id lane mode :: after →
      firings id before = [] ∧ Account (lineUp st.history) flying todo st.runner s id mode after

theorem lined_nil (st : Stage σ τ) : Lined [] st := ⟨List.nil_sublist _, fun _ _ _ hj => nomatch hj⟩

theorem recorded_empty (own : σ) : Recorded (τ := τ) none [] { own } where
  standing := standing_empty
  inOrder := inOrder_empty own
  chronicle := ⟨(fun _ h => nomatch h), (fun _ _ h => nomatch h), (fun _ h => nomatch h)⟩
  lined := lined_nil _
  accounts before s id lane mode after h := by simp at h

/-! ## Events on record -/

/-- A longer history, by an event that is no submission. -/
theorem Chronicle.note {busy busy' : Prop} {r r' : TickRunner (ℕ × τ)} {history : List Event}
    {x : Event} (h : Chronicle busy r history) (hnow : r'.now = r.now) (hissued : r'.issued = r.issued)
    (hbusy : busy' → busy) (htick : x.tick ≤ r.now)
    (hticked : busy' → ∀ count, x ≠ .ticked r.now count)
    (hknown : ∀ id t, x.firing? id = some t → 1 ≤ id ∧ id ≤ r.issued) :
    Chronicle busy' r' (history ++ [x]) where
  past e he := by
    rw [hnow]
    rcases List.mem_append.mp he with he | he
    · exact h.past e he
    · rw [List.mem_singleton.mp he]
      exact htick
  unfinished hin count hmem := by
    rw [hnow] at hmem
    rcases List.mem_append.mp hmem with hmem | hmem
    · exact h.unfinished (hbusy hin) count hmem
    · exact hticked hin count (List.mem_singleton.mp hmem).symm
  known e he id t ht := by
    rw [hissued]
    rcases List.mem_append.mp he with he | he
    · exact h.known e he id t ht
    · rw [List.mem_singleton.mp he] at ht
      exact hknown id t ht

theorem Chronicle.keep {busy busy' : Prop} {r r' : TickRunner (ℕ × τ)} {history : List Event}
    (h : Chronicle busy r history) (hnow : r'.now = r.now) (hissued : r'.issued = r.issued)
    (hbusy : busy' → busy) : Chronicle busy' r' history where
  past := hnow ▸ h.past
  unfinished hin := hnow ▸ h.unfinished (hbusy hin)
  known := hissued ▸ h.known

/-- A task on record has one of the numbers issued so far. -/
theorem Recorded.number_le (h : Recorded flying todo st) {s id : ℕ} {lane : Lane} {mode : Mode}
    (hmem : Event.submitted s id lane mode ∈ st.history) : id ≤ st.runner.issued := by
  have hnumber : id ∈ st.history.filterMap Event.number? := List.mem_filterMap.mpr ⟨_, hmem, rfl⟩
  rw [h.inOrder.numbers, List.mem_range'_1] at hnumber
  omega

/-- Every number issued so far belongs to a task on record. -/
theorem Recorded.exists_submitted (h : Recorded flying todo st) {id : ℕ} (hpos : 1 ≤ id)
    (hle : id ≤ st.runner.issued) : ∃ s lane mode, Event.submitted s id lane mode ∈ st.history := by
  have hnumber : id ∈ st.history.filterMap Event.number? := by
    rw [h.inOrder.numbers, List.mem_range'_1]
    omega
  obtain ⟨e, he, hid⟩ := List.mem_filterMap.mp hnumber
  cases e with
  | submitted s id' lane mode =>
    obtain rfl := Option.some.inj hid
    exact ⟨s, lane, mode, he⟩
  | cancelled tick id' found => cases hid
  | fired tick id' => cases hid
  | ticked tick count => cases hid

/-- The line may get longer while no task fires. -/
theorem Lined.later (h : Lined todo st) {st' : Stage σ τ} {more : List Event}
    (hnow : st'.runner.now = st.runner.now) (hhistory : st'.history = st.history ++ more)
    (hmore : ∀ i, Event.fired st.runner.now i ∉ more) : Lined todo st' where
  sublist := by
    rw [hhistory]
    exact h.sublist.trans (lineUp_sublist _ _)
  behind i hi j hj := by
    rw [hnow, hhistory] at hi
    rw [hhistory]
    have hold := (List.mem_append.mp hi).resolve_right (hmore i)
    exact (h.behind i hold j hj).trans (lineUp_sublist _ _)

/-- The first of the line fires. -/
theorem Lined.launch {id : ℕ} {task : ℕ × τ} (h : Lined (id :: todo) st) (hnumber : task.1 = id) :
    Lined todo (st.launch task id) where
  sublist := (List.sublist_of_cons_sublist h.sublist).trans (lineUp_sublist _ _)
  behind i hi j hj := by
    refine List.Sublist.trans ?_ (lineUp_sublist _ _)
    rcases List.mem_append.mp hi with hi | hi
    · exact h.behind i hi j (List.mem_cons_of_mem id hj)
    · obtain ⟨-, rfl⟩ := Event.fired.inj (List.mem_singleton.mp hi)
      rw [hnumber]
      exact ((List.singleton_sublist.mpr hj).cons_cons id).trans h.sublist

/-- An event that is no submission adds to the accounts that there are. -/
theorem accounts_note {history : List Event} {x : Event} (hx : x.number? = none)
    {P P' : List Event → ℕ → ℕ → Lane → Mode → List Event → Prop}
    (h : ∀ before s id lane mode after,
      history = before ++ .submitted s id lane mode :: after → P before s id lane mode after)
    (hstep : ∀ before s id lane mode after,
      history = before ++ .submitted s id lane mode :: after → P before s id lane mode after →
        P' before s id lane mode (after ++ [x])) :
    ∀ before s id lane mode after,
      history ++ [x] = before ++ .submitted s id lane mode :: after →
        P' before s id lane mode after := by
  intro before s id lane mode after hsplit
  rcases append_singleton_split hsplit with ⟨_, _, rfl⟩ | ⟨after', rfl, hbefore⟩
  · cases hx
  · exact hstep before s id lane mode after' hbefore (h before s id lane mode after' hbefore)

theorem mem_of_split {history before after : List Event} {x : Event}
    (h : history = before ++ x :: after) : x ∈ history := by
  rw [h]
  exact List.mem_append_right before List.mem_cons_self

theorem mem_of_mem_after {history before after : List Event} {x y : Event}
    (h : history = before ++ x :: after) (hy : y ∈ after) : y ∈ history := by
  rw [h]
  exact List.mem_append_right before (List.mem_cons_of_mem x hy)

/-! ## Code -/

theorem Recorded.submit (h : Recorded flying todo st) (hnow : st.runner.now < lastTick) (task : τ)
    (lane : Lane) (mode : Mode) : Recorded flying todo (st.submit task lane mode).2 where
  standing := h.standing.submit hnow _ lane mode
  inOrder := h.inOrder.submit task lane mode
  lined := h.lined.later rfl rfl (by simp)
  chronicle := by
    refine ⟨fun e he => ?_, fun hin count hmem => ?_, fun e he id t ht => ?_⟩
    · rcases List.mem_append.mp he with he | he
      · exact h.chronicle.past e he
      · rw [List.mem_singleton.mp he]
        exact Nat.le_refl _
    · rcases List.mem_append.mp hmem with hmem | hmem
      · exact h.chronicle.unfinished hin count hmem
      · cases List.mem_singleton.mp hmem
    · show 1 ≤ id ∧ id ≤ st.runner.issued + 1
      rcases List.mem_append.mp he with he | he
      · have hle := h.chronicle.known e he id t ht
        omega
      · rw [List.mem_singleton.mp he] at ht
        cases ht
  accounts before s id lane' mode' after hsplit := by
    rcases append_singleton_split hsplit with ⟨rfl, rfl, hnew⟩ | ⟨after', rfl, hbefore⟩
    · obtain ⟨rfl, rfl, rfl, rfl⟩ := Event.submitted.inj hnew
      -- the account of the new task is opened; its number has not fired before
      refine ⟨firings_eq_nil fun e he => ?_, Account.submit h.standing hnow⟩
      cases ht : e.firing? (st.runner.issued + 1) with
      | none => rfl
      | some t => exact absurd (h.chronicle.known e he _ t ht).2 (Nat.not_succ_le_self _)
    · obtain ⟨hfirst, haccount⟩ := h.accounts before s id lane' mode' after' hbefore
      have hle := h.number_le (mem_of_split hbefore)
      refine ⟨hfirst, Account.mono ?_ (lineUp_sublist _ _)⟩
      -- the accounts of the others stay: none of them has the entry that is new
      refine haccount.frame rfl (fun e hid => ?_) Iff.rfl Iff.rfl fun x hx => ?_
      · refine ⟨fun he => (mem_submit.mp he).resolve_right ?_, fun he => mem_submit.mpr (.inl he)⟩
        rintro rfl
        exact absurd (hid.trans_le hle) (Nat.not_succ_le_self _)
      · rw [List.mem_singleton.mp hx]
        exact ⟨fun hc => hc, rfl⟩

theorem Recorded.cancel (h : Recorded flying todo st) (id : TaskId) :
    Recorded flying todo (st.cancel id).2 where
  standing := h.standing.cancel id
  inOrder := h.inOrder.cancel id
  chronicle := h.chronicle.note rfl rfl (fun hin => hin) (Nat.le_refl _)
    (fun _ _ heq => nomatch heq) fun _ _ ht => nomatch ht
  lined := h.lined.later rfl rfl (by simp)
  accounts := by
    refine accounts_note rfl h.accounts fun before s i lane mode after _ => ?_
    rintro ⟨hfirst, haccount⟩
    refine ⟨hfirst, Account.mono ?_ (lineUp_sublist _ _)⟩
    by_cases hi : i = id.raw
    · subst hi
      exact haccount.cancel _
    · refine haccount.frame rfl (fun e hid => ?_) Iff.rfl Iff.rfl fun x hx => ?_
      · rw [show (st.cancel id).2.runner = (st.runner.cancel id).2 from rfl, mem_cancel]
        exact and_iff_left (hid ▸ hi)
      · rw [List.mem_singleton.mp hx]
        exact ⟨fun hc => hi hc.symm, rfl⟩

/-- Code keeps the record in order; no time passes while it runs. -/
theorem Recorded.exec (code : Deed σ τ) (h : Recorded flying todo st)
    (hnow : st.runner.now < lastTick) :
    Recorded flying todo (code.exec st) ∧ (code.exec st).runner.now = st.runner.now := by
  induction code generalizing st with
  | done => exact ⟨h, rfl⟩
  | own f next ih =>
    have hown : Recorded flying todo { st with own := f st.own } :=
      ⟨h.standing, h.inOrder.think _, h.chronicle, ⟨h.lined.sublist, h.lined.behind⟩, h.accounts⟩
    exact ih _ hown hnow
  | look next ih => exact ih _ _ h hnow
  | submit task lane mode next ih => exact ih _ (h.submit hnow task lane mode) hnow
  | cancel id next ih => exact ih _ (h.cancel id) hnow

/-! ## Ticks -/

theorem Recorded.dawn (h : Recorded none [] st) (hnow : st.runner.now + 1 < lastTick) :
    Recorded none st.dawn.runner.dueIds st.dawn where
  standing := h.standing.dawn
  inOrder := h.inOrder.dawn
  chronicle := ⟨fun e he => Nat.le_succ_of_le (h.chronicle.past e he),
    fun _ count hmem => absurd (h.chronicle.past _ hmem) (Nat.not_succ_le_self _), h.chronicle.known⟩
  lined := ⟨h.inOrder.dueIds_sublist,
    fun _ hi => absurd (h.chronicle.past _ hi) (Nat.not_succ_le_self _)⟩
  accounts before s id lane mode after hsplit := by
    obtain ⟨hfirst, haccount⟩ := h.accounts before s id lane mode after hsplit
    exact ⟨hfirst, haccount.dawn hnow fun x hx => h.chronicle.past x (mem_of_mem_after hsplit hx)⟩

theorem Recorded.skip {id : ℕ} (h : Recorded none (id :: todo) st)
    (hnone : st.runner.task? id = none) : Recorded none todo st where
  standing := h.standing.skip hnone
  inOrder := h.inOrder
  chronicle := h.chronicle.keep rfl rfl fun _ => .inr (List.cons_ne_nil id todo)
  lined := ⟨List.sublist_of_cons_sublist h.lined.sublist,
    fun i hi j hj => h.lined.behind i hi j (List.mem_cons_of_mem id hj)⟩
  accounts before s i lane mode after hsplit := by
    obtain ⟨hfirst, haccount⟩ := h.accounts before s i lane mode after hsplit
    refine ⟨hfirst, ?_⟩
    by_cases hi : i = id
    · subst hi
      refine haccount.skip (h.standing.not_mem_of_task? hnone)
        (fun x hx => h.chronicle.past x (mem_of_mem_after hsplit hx))
        (fun i hi => h.lined.behind i (mem_of_mem_after hsplit hi) _ List.mem_cons_self)
        fun count hmem => ?_
      exact h.chronicle.unfinished (.inr (List.cons_ne_nil _ todo)) count (mem_of_mem_after hsplit hmem)
    · rw [← List.append_nil after]
      refine haccount.frame rfl (fun _ _ => Iff.rfl) Iff.rfl ?_ fun x hx => nomatch hx
      rw [List.mem_cons]
      exact (or_iff_right hi).symm

theorem Recorded.launch {id : ℕ} {task : ℕ × τ} (h : Recorded none (id :: todo) st)
    (htask : st.runner.task? id = some task) :
    task.1 = id ∧ Recorded (some id) todo (st.launch task id) := by
  obtain ⟨e₀, he₀, hid₀, -⟩ := task?_eq_some htask
  obtain ⟨hpos, hle⟩ := h.standing.numbered e₀ he₀
  rw [hid₀] at hpos hle
  have hnumber : task.1 = id := h.inOrder.number_eq htask
  have hno : id ∉ todo := (List.nodup_cons.mp h.standing.nodup).1
  refine ⟨hnumber, h.standing.take, h.inOrder.launch htask, ?_, h.lined.launch hnumber, ?_⟩
  · refine h.chronicle.note rfl rfl (fun _ => .inr (List.cons_ne_nil id todo)) (Nat.le_refl _)
      (fun _ _ heq => by cases heq) fun i t ht => ?_
    rw [hnumber] at ht
    have hi : id = i := by
      by_contra hne
      simp [Event.firing?, hne] at ht
    exact hi ▸ ⟨hpos, hle⟩
  · refine accounts_note rfl h.accounts fun before s i lane mode after _ => ?_
    rintro ⟨hfirst, haccount⟩
    refine ⟨hfirst, Account.mono ?_ (lineUp_sublist _ _)⟩
    rw [hnumber]
    -- the turn is entered into the account of the task alone
    by_cases hi : i = id
    · subst hi
      exact haccount.take ⟨e₀, he₀, hid₀⟩ hno
    · refine haccount.frame rfl (fun e hid => ?_) ?_ ?_ fun x hx => ?_
      · rw [show (st.launch task id).runner = st.runner.take id from rfl, mem_take]
        constructor
        · rintro (⟨he, _⟩ | ⟨e', _, hid', rfl⟩)
          · exact he
          · exact absurd (hid.symm.trans hid') hi
        · exact fun he => .inl ⟨he, hid ▸ hi⟩
      · exact ⟨fun hf => absurd (Option.some.inj hf).symm hi, fun hf => by cases hf⟩
      · rw [List.mem_cons]
        exact (or_iff_right hi).symm
      · rw [List.mem_singleton.mp hx]
        exact ⟨fun hc => hc, if_neg fun heq => hi heq.symm⟩

theorem Recorded.land {id : ℕ} {task : ℕ × τ} (h : Recorded (some id) todo st)
    (hnow : st.runner.now < lastTick) (hnumber : task.1 = id) :
    Recorded none todo (st.land st.runner.now id task) where
  standing := h.standing.settle hnow task
  inOrder := h.inOrder.land _ hnumber
  chronicle := h.chronicle.keep rfl rfl fun _ => .inl (Option.some_ne_none id)
  lined := ⟨h.lined.sublist, h.lined.behind⟩
  accounts before s i lane mode after hsplit := by
    obtain ⟨hfirst, haccount⟩ := h.accounts before s i lane mode after hsplit
    refine ⟨hfirst, ?_⟩
    by_cases hi : i = id
    · subst hi
      -- the turn that ends is entered into the account of the task alone
      exact haccount.settle (h.standing.flown i rfl)
    · rw [← List.append_nil after]
      refine haccount.frame rfl (fun e hid => ?_) ?_ Iff.rfl fun x hx => nomatch hx
      · rw [show (st.land st.runner.now id task).runner =
          st.runner.settle st.runner.now id task from rfl, mem_settle]
        constructor
        · rintro (⟨he, _⟩ | ⟨e', _, hid', n, _, rfl⟩)
          · exact he
          · exact absurd (hid.symm.trans hid') hi
        · exact fun he => .inl ⟨he, hid ▸ hi⟩
      · exact Iff.intro (fun hf => nomatch hf) fun hf => absurd (Option.some.inj hf).symm hi

/-- Every due task gets its turn, whatever the tasks before it have done. -/
theorem Recorded.fireAll (body : τ → Deed σ τ) (ids : List ℕ) (fired : ℕ)
    (h : Recorded none ids st) (hnow : st.runner.now < lastTick) :
    Recorded none [] (TickRunner.fireAll (Stage.fire body) st.runner.now fired ids st).2 ∧
      (TickRunner.fireAll (Stage.fire body) st.runner.now fired ids st).2.runner.now =
        st.runner.now := by
  induction ids generalizing st fired with
  | nil => exact ⟨h, rfl⟩
  | cons id ids ih =>
    cases htask : st.runner.task? id with
    | none =>
      rw [fireAll_skip htask]
      exact ih fired (h.skip htask) hnow
    | some task =>
      -- a turn: the task is taken, its code runs, and the task is settled
      obtain ⟨hnumber, hlaunch⟩ := h.launch htask
      obtain ⟨hexec, hsame⟩ := hlaunch.exec (body task.2) hnow
      have hsame' : ((body task.2).exec (st.launch task id)).runner.now = st.runner.now := hsame
      have hland := hexec.land (hsame' ▸ hnow) hnumber
      rw [hsame'] at hland
      rw [fireAll_fire htask]
      have hrest := ih (fired + 1) hland (hsame' ▸ hnow)
      rw [show (((body task.2).exec (st.launch task id)).land st.runner.now id task).runner.now =
        st.runner.now from hsame'] at hrest
      exact hrest

theorem Recorded.ticked (h : Recorded none [] st) (count : ℕ) :
    Recorded none [] (st.note (.ticked st.runner.now count)) where
  standing := h.standing
  inOrder := h.inOrder.note rfl
  chronicle := h.chronicle.note rfl rfl (fun hin => hin) (Nat.le_refl _)
    (fun hin => absurd hin (by simp)) fun _ _ ht => nomatch ht
  lined := lined_nil _
  accounts := by
    refine accounts_note rfl h.accounts fun before s i lane mode after _ => ?_
    rintro ⟨hfirst, haccount⟩
    refine ⟨hfirst, Account.mono ?_ (lineUp_sublist _ _)⟩
    refine haccount.frame rfl (fun _ _ => Iff.rfl) Iff.rfl Iff.rfl fun x hx => ?_
    rw [List.mem_singleton.mp hx]
    exact ⟨fun hc => hc, rfl⟩

/-! ## Runs -/

/-- A turn of the host, of `ticksIn [turn]` ticks. -/
theorem Recorded.turn (turn : Turn σ τ) (h : Recorded none [] st)
    (hnow : st.runner.now + ticksIn [turn] < lastTick) :
    Recorded none [] (turn.exec body st) ∧
      (turn.exec body st).runner.now = st.runner.now + ticksIn [turn] := by
  cases turn with
  | act code => exact h.exec code hnow
  | tick =>
    have hall := Recorded.fireAll body st.dawn.runner.dueIds 0 (h.dawn hnow) hnow
    exact ⟨hall.1.ticked _, hall.2⟩

theorem Recorded.turns (turns : List (Turn σ τ)) (h : Recorded none [] st)
    (hnow : st.runner.now + ticksIn turns < lastTick) :
    Recorded none [] (turns.foldl (fun st turn => turn.exec body st) st) ∧
      (turns.foldl (fun st turn => turn.exec body st) st).runner.now =
        st.runner.now + ticksIn turns := by
  induction turns generalizing st with
  | nil => exact ⟨h, rfl⟩
  | cons turn turns ih =>
    have hsum : ticksIn (turn :: turns) = ticksIn [turn] + ticksIn turns := by
      unfold ticksIn
      rw [← List.countP_append]
      rfl
    rw [hsum, ← Nat.add_assoc] at hnow ⊢
    obtain ⟨hturn, hsame⟩ : Recorded none [] (turn.exec body st) ∧ _ := h.turn turn (by omega)
    rw [← hsame] at hnow ⊢
    exact ih hturn hnow

/-- What the history after its submission shows of a task that was submitted at tick `s`, when `now` is the
last tick and tasks take their turns in the order of `line`. -/
structure OnSchedule (line : List ℕ) (id s : ℕ) (mode : Mode) (now : ℕ) (after : List Event) : Prop where
  /-- It fires at most once in a tick. -/
  once : (firings id after).Pairwise (· < ·)
  /-- It fires only when it is due. -/
  due : ∀ t ∈ firings id after, mode.IsDue s t
  /-- It does not fire after a cancel. -/
  quiet : after.Pairwise fun e e' => e.Cancels id → e'.firing? id = none
  /-- It fires whenever it is due, if it was not cancelled before its turn in that tick. -/
  met : ∀ t ≤ now, mode.IsDue s t → t ∈ firings id after ∨ CalledOff line id t after

/-- **The firing schedule.** In every run of fewer than `lastTick` ticks, whatever the host and the tasks
submit and cancel: a task fires in exactly those ticks that are due by its mode and by the tick of its
submission, once in each, until it is cancelled, be it in the same tick before its turn. Nothing fires that was not submitted
before, tasks are numbered in the order of submission, and no tick that is reached or computed is beyond the
last tick that can be counted. -/
theorem fires_on_schedule (body : τ → Deed σ τ) (turns : List (Turn σ τ)) (own : σ)
    (hticks : ticksIn turns < lastTick) :
    (run body turns own).runner.now = ticksIn turns ∧
    (∀ before s id lane mode after,
      (run body turns own).history = before ++ .submitted s id lane mode :: after →
        firings id before = [] ∧
          OnSchedule (lineUp (run body turns own).history) id s mode (ticksIn turns) after) ∧
    (∀ t id, Event.fired t id ∈ (run body turns own).history →
      ∃ s lane mode, Event.submitted s id lane mode ∈ (run body turns own).history) ∧
    (run body turns own).history.filterMap Event.number? =
      List.range' 1 (run body turns own).runner.issued ∧
    (∀ e ∈ (run body turns own).history, e.tick + 1 ≤ lastTick) ∧
    ∀ e ∈ (run body turns own).runner.queue, e.due ≤ lastTick := by
  have hnow : ({ own } : Stage σ τ).runner.now + ticksIn turns < lastTick := by
    rw [show ({ own } : Stage σ τ).runner.now = 0 from rfl, Nat.zero_add]
    exact hticks
  obtain ⟨h, hlast⟩ : Recorded none [] (run body turns own) ∧ _ :=
    (recorded_empty own).turns turns hnow
  rw [show ({ own } : Stage σ τ).runner.now = 0 from rfl, Nat.zero_add] at hlast
  refine ⟨hlast, fun before s id lane mode after hsplit => ?_, fun t id hfired => ?_,
    h.inOrder.numbers, fun e he => ?_, h.standing.capped⟩
  · obtain ⟨hfirst, haccount⟩ := h.accounts before s id lane mode after hsplit
    refine ⟨hfirst, haccount.increasing, haccount.due, haccount.quiet, fun t hle hdue => ?_⟩
    refine haccount.met t hdue ?_
    rw [← hlast] at hle
    -- no task waits for its turn after the last tick, so that this has passed for all of them
    rcases Nat.lt_or_eq_of_le hle with hlt | heq
    · exact .inl hlt
    · exact .inr ⟨heq, fun hmem => nomatch hmem⟩
  · obtain ⟨hpos, hle⟩ := h.chronicle.known _ hfired id t (by simp [Event.firing?])
    exact h.exists_submitted hpos hle
  · have hpast : e.tick ≤ (run body turns own).runner.now := h.chronicle.past e he
    have hsame : (run body turns own).runner.now = ticksIn turns := hlast
    omega

/-- An immediate task that is cancelled by another before its turn. -/
theorem fires_on_schedule_cancelled_in_tick :
    OnSchedule [1, 2] 2 0 .immediate 3
      ((run (fun _ : Unit => Deed.cancel ⟨2⟩ fun _ => .done)
        [.act (.submit () .sync (.repeating 1 2) fun _ =>
          .submit () .async .immediate fun _ => .done), .tick, .tick, .tick] ()).history.drop 2) := by
  have h := fires_on_schedule (fun _ : Unit => Deed.cancel ⟨2⟩ fun _ => .done)
    [.act (.submit () .sync (.repeating 1 2) fun _ => .submit () .async .immediate fun _ => .done),
      .tick, .tick, .tick] () (by decide)
  exact (h.2.1 [.submitted 0 1 .sync (.repeating 1 2)] 0 2 .async .immediate _ rfl).2

end TickRunner
end ScriptHost
