import ScriptHost.Proofs.TickRunner.History

/-!
# The moments of a run

A runner at work takes many small steps: code submits and cancels, ticks begin and end, and in a tick each task
that is due takes its turn or is passed over. What holds at every moment at which code is at work is proved step
by step.

* `InOrder`: entries and history fit each other, whatever happens and however many ticks pass.
* `moments`: the stages of a run at which code is at work.
* `Steady`, `Lasting`: every step keeps a condition. `Steady.fireAll`, `Lasting.run`: then so does what is made
  of them.
-/

namespace ScriptHost
namespace TickRunner

variable {σ τ : Type}

/-! ## Order -/

/-- The number and the lane of a task, if the event is its submission. -/
def Event.submission? : Event → Option (ℕ × Lane)
  | .submitted _ id lane _ => some (id, lane)
  | _ => none

/-- The tasks that were submitted, in order. -/
def submissions (events : List Event) : List (ℕ × Lane) := events.filterMap Event.submission?

theorem submissions_append (events more : List Event) :
    submissions (events ++ more) = submissions events ++ submissions more :=
  List.filterMap_append

theorem fst_submission? (e : Event) : e.submission?.map Prod.fst = e.number? := by
  cases e <;> rfl

/-- Whatever becomes of an entry, it keeps its lane. -/
theorem settled_lane {now id : ℕ} {task : τ} {e b : Waiting τ}
    (h : (if e.id == id then Waiting.settled? now task e else some e) = some b) : b.lane = e.lane := by
  split at h
  · obtain ⟨n, _, rfl⟩ := Option.map_eq_some_iff.mp h
    rfl
  · obtain rfl := Option.some.inj h
    rfl

/-- What is left of a list shows of each element what the list showed. -/
theorem map_filterMap_sublist {α β : Type} {f : α → Option α} {g : α → β}
    (hf : ∀ a b, f a = some b → g b = g a) (l : List α) :
    ((l.filterMap f).map g).Sublist (l.map g) := by
  induction l with
  | nil => exact .slnil
  | cons a l ih =>
    cases hfa : f a with
    | none =>
      rw [List.filterMap_cons_none hfa]
      exact ih.cons _
    | some b =>
      rw [List.filterMap_cons_some hfa, List.map_cons, List.map_cons, hf a b hfa]
      exact ih.cons_cons _

/-- Entries and history fit each other; `flying` is the number of the task that is firing. -/
structure InOrder (flying : Option ℕ) (st : Stage σ τ) : Prop where
  entries : Entries flying st.runner
  /-- Tasks carry the number of their entry. -/
  tagged : ∀ e ∈ st.runner.queue, ∀ task, e.task = some task → task.1 = e.id
  /-- Every number that was issued is that of one submission. -/
  numbers : st.history.filterMap Event.number? = List.range' 1 st.runner.issued
  /-- Entries are in the order of submission, and in the lane of their submission. -/
  lined : (st.runner.queue.map fun e => (e.id, e.lane)).Sublist (submissions st.history)

section

variable {flying : Option ℕ} {st : Stage σ τ} {id : ℕ} {task : ℕ × τ}

theorem inOrder_empty (own : σ) : InOrder (τ := τ) none { own } where
  entries := entries_empty
  tagged _ h := nomatch h
  numbers := rfl
  lined := .slnil

/-- What the code around the runner keeps to itself does not matter. -/
theorem InOrder.think (h : InOrder flying st) (own : σ) : InOrder flying { st with own } :=
  ⟨h.entries, h.tagged, h.numbers, h.lined⟩

/-- An event that is no submission does not matter. -/
theorem InOrder.note (h : InOrder flying st) {e : Event} (he : e.submission? = none) :
    InOrder flying (st.note e) where
  entries := h.entries
  tagged := h.tagged
  numbers := by
    have hnumber : e.number? = none := by rw [← fst_submission?, he]; rfl
    show (st.history ++ [e]).filterMap Event.number? = _
    rw [List.filterMap_append, List.filterMap_cons_none hnumber, h.numbers]
    exact List.append_nil _
  lined := by
    show List.Sublist _ (submissions (st.history ++ [e]))
    rw [submissions_append]
    exact h.lined.trans (List.sublist_append_left _ _)

theorem InOrder.submit (h : InOrder flying st) (task : τ) (lane : Lane) (mode : Mode) :
    InOrder flying (st.submit task lane mode).2 where
  entries := h.entries.submit _ lane mode
  tagged e he x hx := by
    rcases mem_submit.mp he with he | rfl
    · exact h.tagged e he x hx
    · obtain rfl := Option.some.inj hx
      rfl
  numbers := by
    show (st.history ++ [_]).filterMap Event.number? = List.range' 1 (st.runner.issued + 1)
    rw [List.filterMap_append, h.numbers, List.range'_concat, Nat.one_mul, Nat.add_comm 1]
    rfl
  lined := by
    show (List.map _ (st.runner.queue ++ [_])).Sublist (submissions (st.history ++ [_]))
    rw [List.map_append, submissions_append]
    exact h.lined.append (List.Sublist.refl _)

theorem InOrder.cancel (h : InOrder flying st) (id : TaskId) :
    InOrder flying (st.cancel id).2 := by
  have hcancelled : InOrder flying { st with runner := (st.runner.cancel id).2 } :=
    ⟨h.entries.cancel id, fun e he => h.tagged e (mem_cancel.mp he).1, h.numbers,
      (List.filter_sublist.map _).trans h.lined⟩
  exact hcancelled.note rfl

theorem InOrder.dawn (h : InOrder none st) : InOrder none st.dawn :=
  ⟨⟨h.entries.ordered, h.entries.numbered, h.entries.held, h.entries.launched⟩, h.tagged, h.numbers, h.lined⟩

/-- What is due is in the queue, under a number that was issued. -/
theorem InOrder.number_le (h : InOrder flying st) (htask : st.runner.task? id = some task) :
    id ≤ st.runner.issued := by
  obtain ⟨e, he, rfl, _⟩ := task?_eq_some htask
  exact (h.entries.numbered e he).2

/-- A task that takes its turn carries its number. -/
theorem InOrder.number_eq (h : InOrder flying st) (htask : st.runner.task? id = some task) : task.1 = id := by
  obtain ⟨e, he, rfl, hheld⟩ := task?_eq_some htask
  exact h.tagged e he task hheld

theorem InOrder.launch (h : InOrder none st) (htask : st.runner.task? id = some task) :
    InOrder (some id) (st.launch task id) := by
  have htaken : InOrder (some id) { st with runner := st.runner.take id } := by
    refine ⟨h.entries.take (h.number_le htask), fun e he x hx => ?_, h.numbers, ?_⟩
    · rcases mem_take.mp he with ⟨he, _⟩ | ⟨e', _, _, rfl⟩
      · exact h.tagged e he x hx
      · cases hx
    · have hsame : (st.runner.take id).queue.map (fun e => (e.id, e.lane)) =
          st.runner.queue.map fun e => (e.id, e.lane) := by
        unfold take
        rw [List.map_map]
        refine List.map_congr_left fun e _ => ?_
        dsimp only [Function.comp]
        split <;> rfl
      show ((st.runner.take id).queue.map _).Sublist _
      rw [hsame]
      exact h.lined
  exact htaken.note rfl

theorem InOrder.land (h : InOrder (some id) st) (now : ℕ) (hnumber : task.1 = id) :
    InOrder none (st.land now id task) where
  entries := h.entries.settle now task
  tagged e he x hx := by
    rcases mem_settle.mp he with ⟨he, _⟩ | ⟨e', _, hid, n, _, rfl⟩
    · exact h.tagged e he x hx
    · obtain rfl := Option.some.inj hx
      exact hnumber.trans hid.symm
  numbers := h.numbers
  lined := by
    refine (map_filterMap_sublist (fun e b hb => ?_) _).trans h.lined
    exact Prod.ext (settled_id hb) (settled_lane hb)

end

/-! ## Every moment at which code is at work -/

/-- The stages that a piece of code finds: before each thing that it does, and at its end. -/
def Deed.moments : Deed σ τ → Stage σ τ → List (Stage σ τ)
  | .done, st => [st]
  | .own f next, st => st :: (next (f st.own)).moments { st with own := f st.own }
  | .look next, st => st :: (next st.runner.now st.runner.pending).moments st
  | .submit task lane mode next, st =>
    st :: (next (st.submit task lane mode).1).moments (st.submit task lane mode).2
  | .cancel id next, st => st :: (next (st.cancel id).1).moments (st.cancel id).2

/-- The stages that tasks find which fire one after the other. -/
def firingMoments (body : τ → Deed σ τ) : List ℕ → Stage σ τ → List (Stage σ τ)
  | [], _ => []
  | id :: ids, st =>
    match st.runner.task? id with
    | none => firingMoments body ids st
    | some task =>
      let fired := (body task.2).exec (st.launch task id)
      (body task.2).moments (st.launch task id) ++
        firingMoments body ids (fired.land st.runner.now id task)

/-- The stages of a turn of the host. -/
def Turn.moments (body : τ → Deed σ τ) : Turn σ τ → Stage σ τ → List (Stage σ τ)
  | .act code, st => code.moments st
  | .tick, st => firingMoments body st.dawn.runner.dueIds st.dawn

/-- The stages of several turns of the host: at the beginning and at the end of each, and meanwhile. -/
def turnMoments (body : τ → Deed σ τ) : List (Turn σ τ) → Stage σ τ → List (Stage σ τ)
  | [], st => [st]
  | turn :: turns, st => st :: turn.moments body st ++ turnMoments body turns (turn.exec body st)

/-- The stages of a run at which the host or a task is at work, in order; the last one is the end of the run. -/
def moments (body : τ → Deed σ τ) (turns : List (Turn σ τ)) (own : σ) : List (Stage σ τ) :=
  turnMoments body turns { own }

/-! ## Step by step -/

/-- Where a run is: between ticks; in a tick, with the numbers of the tasks that have their turns ahead of them; or
in the turn of a task. -/
inductive Situation where
  | between
  | waiting (rest : List ℕ)
  | firing (id : ℕ) (rest : List ℕ)

/-- The number of the task that is firing. -/
def Situation.flying : Situation → Option ℕ
  | .firing id _ => some id
  | _ => none

/-- The numbers of the tasks that have their turns ahead of them. -/
def Situation.rest : Situation → List ℕ
  | .between => []
  | .waiting rest => rest
  | .firing _ rest => rest

/-- Code may be at work. -/
def Situation.AtWork : Situation → Prop
  | .waiting _ => False
  | _ => True

/-- Every step of code and of firing tasks keeps a condition, if entries and history are in order. -/
structure Steady (P : Situation → Stage σ τ → Prop) : Prop where
  think : ∀ {sit st}, P sit st → ∀ own, P sit { st with own }
  submit : ∀ {sit st}, sit.AtWork → InOrder sit.flying st → P sit st →
    ∀ task lane mode, P sit (st.submit task lane mode).2
  cancel : ∀ {sit st}, sit.AtWork → InOrder sit.flying st → P sit st → ∀ id, P sit (st.cancel id).2
  skip : ∀ {st id rest}, InOrder none st → P (.waiting (id :: rest)) st → st.runner.task? id = none →
    P (.waiting rest) st
  launch : ∀ {st id task rest}, InOrder none st → P (.waiting (id :: rest)) st →
    st.runner.task? id = some task → task.1 = id → P (.firing id rest) (st.launch task id)
  land : ∀ {st id task rest}, InOrder (some id) st → P (.firing id rest) st → task.1 = id →
    P (.waiting rest) (st.land st.runner.now id task)

/-- Ticks keep it, too. -/
structure Lasting (P : Situation → Stage σ τ → Prop) : Prop extends Steady P where
  dawn : ∀ {st}, InOrder none st → P .between st → P (.waiting st.dawn.runner.dueIds) st.dawn
  dusk : ∀ {st}, InOrder none st → P (.waiting []) st → ∀ count,
    P .between (st.note (.ticked st.runner.now count))

/-- Entries and history are in order, and the condition holds. -/
structure Holds (P : Situation → Stage σ τ → Prop) (sit : Situation) (st : Stage σ τ) : Prop where
  inOrder : InOrder sit.flying st
  holds : P sit st

/-- It holds at a moment at which code may be at work. -/
def HoldsAt (P : Situation → Stage σ τ → Prop) (st : Stage σ τ) : Prop :=
  ∃ sit : Situation, sit.AtWork ∧ Holds P sit st

section

variable {P : Situation → Stage σ τ → Prop} {sit : Situation} {st : Stage σ τ} {id : ℕ}
  {rest : List ℕ} {task : ℕ × τ}

/-- A piece of code keeps what every step keeps, and time stands still meanwhile. -/
theorem Steady.exec (hP : Steady P) (hwork : sit.AtWork) (code : Deed σ τ) (h : Holds P sit st) :
    Holds P sit (code.exec st) ∧ (code.exec st).runner.now = st.runner.now ∧
      ∀ m ∈ code.moments st, HoldsAt P m := by
  have hfirst : HoldsAt P st := ⟨sit, hwork, h⟩
  induction code generalizing st with
  | done => exact ⟨h, rfl, List.forall_mem_singleton.mpr hfirst⟩
  | own f next ih =>
    have hthought : Holds P sit { st with own := f st.own } :=
      ⟨h.inOrder.think _, hP.think h.holds _⟩
    obtain ⟨hend, hnow, hmoments⟩ := ih (f st.own) hthought ⟨sit, hwork, hthought⟩
    exact ⟨hend, hnow, List.forall_mem_cons.mpr ⟨hfirst, hmoments⟩⟩
  | look next ih =>
    obtain ⟨hend, hnow, hmoments⟩ := ih st.runner.now st.runner.pending h hfirst
    exact ⟨hend, hnow, List.forall_mem_cons.mpr ⟨hfirst, hmoments⟩⟩
  | submit task lane mode next ih =>
    have hnext : Holds P sit (st.submit task lane mode).2 :=
      ⟨h.inOrder.submit task lane mode, hP.submit hwork h.inOrder h.holds task lane mode⟩
    obtain ⟨hend, hnow, hmoments⟩ := ih (st.submit task lane mode).1 hnext ⟨sit, hwork, hnext⟩
    exact ⟨hend, hnow, List.forall_mem_cons.mpr ⟨hfirst, hmoments⟩⟩
  | cancel id next ih =>
    have hnext : Holds P sit (st.cancel id).2 :=
      ⟨h.inOrder.cancel id, hP.cancel hwork h.inOrder h.holds id⟩
    obtain ⟨hend, hnow, hmoments⟩ := ih (st.cancel id).1 hnext ⟨sit, hwork, hnext⟩
    exact ⟨hend, hnow, List.forall_mem_cons.mpr ⟨hfirst, hmoments⟩⟩

/-- A task takes its turn. -/
theorem Steady.fire (hP : Steady P) (body : τ → Deed σ τ) (h : Holds P (.waiting (id :: rest)) st)
    (htask : st.runner.task? id = some task) :
    let fired := (body task.2).exec (st.launch task id)
    Holds P (.waiting rest) (fired.land st.runner.now id task) ∧ fired.runner.now = st.runner.now ∧
      ∀ m ∈ (body task.2).moments (st.launch task id), HoldsAt P m := by
  intro fired
  have hnumber : task.1 = id := h.inOrder.number_eq htask
  have hlaunched : Holds P (.firing id rest) (st.launch task id) :=
    ⟨h.inOrder.launch htask, hP.launch h.inOrder h.holds htask hnumber⟩
  have hwork : (Situation.firing id rest).AtWork := trivial
  obtain ⟨hfired, hnow, hmoments⟩ := hP.exec hwork (body task.2) hlaunched
  have hnow' : fired.runner.now = st.runner.now := hnow
  refine ⟨⟨hfired.inOrder.land _ hnumber, ?_⟩, hnow', hmoments⟩
  rw [← hnow']
  exact hP.land hfired.inOrder hfired.holds hnumber

/-- Whatever is due takes its turn, if it still waits then. -/
theorem Steady.fireAll (hP : Steady P) (body : τ → Deed σ τ) (count : ℕ) (h : Holds P (.waiting rest) st) :
    Holds P (.waiting []) (TickRunner.fireAll (Stage.fire body) st.runner.now count rest st).2 ∧
      (TickRunner.fireAll (Stage.fire body) st.runner.now count rest st).2.runner.now = st.runner.now ∧
      ∀ m ∈ firingMoments body rest st, HoldsAt P m := by
  induction rest generalizing st count with
  | nil => exact ⟨h, rfl, List.forall_mem_nil _⟩
  | cons id rest ih =>
    rw [firingMoments]
    cases htask : st.runner.task? id with
    | none =>
      rw [fireAll_skip htask]
      exact ih count ⟨h.inOrder, hP.skip h.inOrder h.holds htask⟩
    | some task =>
      obtain ⟨hlanded, hnow, hmoments⟩ := hP.fire body h htask
      obtain ⟨hend, hnow', hmoments'⟩ := ih (count + 1) hlanded
      rw [fireAll_fire htask]
      have hsame : (((body task.2).exec (st.launch task id)).land st.runner.now id task).runner.now =
        st.runner.now := hnow
      rw [hsame] at hend hnow'
      exact ⟨hend, hnow', List.forall_mem_append.mpr ⟨hmoments, hmoments'⟩⟩

/-- A turn of the host keeps what every step keeps. -/
theorem Lasting.turn (hP : Lasting P) (body : τ → Deed σ τ) (turn : Turn σ τ) (h : Holds P .between st) :
    Holds P .between (turn.exec body st) ∧ ∀ m ∈ turn.moments body st, HoldsAt P m := by
  cases turn with
  | act code =>
    have hwork : Situation.between.AtWork := trivial
    obtain ⟨hend, -, hmoments⟩ := hP.exec hwork code h
    exact ⟨hend, hmoments⟩
  | tick =>
    have hdawn : Holds P (.waiting st.dawn.runner.dueIds) st.dawn :=
      ⟨h.inOrder.dawn, hP.dawn h.inOrder h.holds⟩
    obtain ⟨hfired, -, hmoments⟩ := hP.fireAll body 0 hdawn
    exact ⟨⟨hfired.inOrder.note rfl, hP.dusk hfired.inOrder hfired.holds _⟩, hmoments⟩

theorem Lasting.turns (hP : Lasting P) (body : τ → Deed σ τ) (turns : List (Turn σ τ))
    (h : Holds P .between st) :
    Holds P .between (turns.foldl (fun st turn => turn.exec body st) st) ∧
      ∀ m ∈ turnMoments body turns st, HoldsAt P m := by
  have hfirst : HoldsAt P st := ⟨.between, trivial, h⟩
  induction turns generalizing st with
  | nil => exact ⟨h, List.forall_mem_singleton.mpr hfirst⟩
  | cons turn turns ih =>
    obtain ⟨hturn, hmoments⟩ := hP.turn body turn h
    obtain ⟨hend, hmoments'⟩ := ih hturn ⟨.between, trivial, hturn⟩
    exact ⟨hend, List.forall_mem_append.mpr ⟨List.forall_mem_cons.mpr ⟨hfirst, hmoments⟩, hmoments'⟩⟩

/-- What every step keeps holds at the end of every run and at every moment of it, if it holds at its start. -/
theorem Lasting.run (hP : Lasting P) (body : τ → Deed σ τ) (turns : List (Turn σ τ)) (own : σ)
    (hstart : P .between { own }) :
    Holds P .between (TickRunner.run body turns own) ∧ ∀ m ∈ moments body turns own, HoldsAt P m :=
  hP.turns body turns ⟨inOrder_empty own, hstart⟩

/-- Entries and history are in order after every run. -/
theorem inOrder_run (body : τ → Deed σ τ) (turns : List (Turn σ τ)) (own : σ) :
    InOrder none (TickRunner.run body turns own) := by
  have hany : Lasting fun (_ : Situation) (_ : Stage σ τ) => True :=
    ⟨⟨fun _ _ => trivial, fun _ _ _ _ _ _ => trivial, fun _ _ _ _ => trivial, fun _ _ _ => trivial,
      fun _ _ _ _ => trivial, fun _ _ _ => trivial⟩, fun _ _ => trivial, fun _ _ _ => trivial⟩
  exact (hany.run body turns own trivial).1.inOrder

end

end TickRunner
end ScriptHost
