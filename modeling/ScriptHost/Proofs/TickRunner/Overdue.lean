import ScriptHost.Proofs.TickRunner.Fates

/-!
# What is overdue

Between operations nothing in the queue is overdue. When a tick begins, what is due is listed once, and while the tasks
on the list take their turns, whatever is overdue is still ahead on it, but for the task whose turn it is.

* `Steady.and`, `Lasting.and`: conditions that steps keep, together.
* `lasting_timely`: every step keeps the due ticks in order, as long as the last tick has not come.
* `steady_through`: in a tick, what has its turn ahead is the end of the list.
* `overdue_are_ahead`: the entries at every moment of a run.
-/

namespace ScriptHost
namespace TickRunner

variable {σ τ : Type} {P Q : Situation → Stage σ τ → Prop}

/-! ## Conditions that steps keep -/

theorem Steady.and (hP : Steady P) (hQ : Steady Q) : Steady fun sit st => P sit st ∧ Q sit st where
  think h own := ⟨hP.think h.1 own, hQ.think h.2 own⟩
  submit hwork horder h task lane mode :=
    ⟨hP.submit hwork horder h.1 task lane mode, hQ.submit hwork horder h.2 task lane mode⟩
  cancel hwork horder h id := ⟨hP.cancel hwork horder h.1 id, hQ.cancel hwork horder h.2 id⟩
  skip horder h hnone := ⟨hP.skip horder h.1 hnone, hQ.skip horder h.2 hnone⟩
  launch horder h htask hnumber := ⟨hP.launch horder h.1 htask hnumber, hQ.launch horder h.2 htask hnumber⟩
  land horder h hnumber := ⟨hP.land horder h.1 hnumber, hQ.land horder h.2 hnumber⟩

theorem Lasting.and (hP : Lasting P) (hQ : Lasting Q) : Lasting fun sit st => P sit st ∧ Q sit st where
  toSteady := hP.toSteady.and hQ.toSteady
  dawn horder h := ⟨hP.dawn horder h.1, hQ.dawn horder h.2⟩
  dusk horder h count := ⟨hP.dusk horder h.1 count, hQ.dusk horder h.2 count⟩

/-- The last tick has come, or due ticks are in order. -/
def Timely (sit : Situation) (st : Stage σ τ) : Prop :=
  st.runner.now < lastTick → Standing sit.flying sit.rest st.runner

theorem lasting_timely : Lasting (Timely (σ := σ) (τ := τ)) where
  think h _ := h
  submit _ _ h _ lane mode hnow := (h hnow).submit hnow _ lane mode
  cancel _ _ h id hnow := (h hnow).cancel id
  skip _ h hnone hnow := (h hnow).skip hnone
  launch _ h _ _ hnow := (h hnow).take
  land _ h _ hnow := (h hnow).settle hnow _
  dawn _ h hnow := (h (Nat.lt_of_succ_lt hnow)).dawn
  dusk _ h _ hnow := h hnow

/-- In a tick that has come to a task of the list, what follows on the list has its turn ahead. -/
def Situation.Through (due : List ℕ) : Situation → Prop
  | .between => False
  | .waiting rest => rest <:+ due
  | .firing id rest => id :: rest <:+ due

theorem steady_through (due : List ℕ) : Steady fun sit (_ : Stage σ τ) => sit.Through due where
  think h _ := h
  submit _ _ h _ _ _ := h
  cancel _ _ h _ := h
  skip _ h _ := (List.suffix_cons _ _).trans h
  launch _ h _ _ := h
  land _ h _ := (List.suffix_cons _ _).trans h

theorem steady_between : Steady fun sit (_ : Stage σ τ) => sit = .between where
  think h _ := h
  submit _ _ h _ _ _ := h
  cancel _ _ h _ := h
  skip _ h _ := nomatch h
  launch _ h _ _ := nomatch h
  land _ h _ := nomatch h

/-! ## Entries -/

/-- A runner while no task fires. -/
structure AtRest (r : TickRunner τ) : Prop where
  ordered : r.Ordered
  held : ∀ e ∈ r.queue, e.task ≠ none
  numbered : ∀ e ∈ r.queue, 1 ≤ e.id ∧ e.id ≤ r.issued
  ahead : ∀ e ∈ r.queue, r.now < e.due
  paced : ∀ e ∈ r.queue, ∀ n, e.interval = some n → 1 ≤ n

/-- A runner while a task fires, in a tick at whose beginning the tasks `due` were due. -/
structure InTurn (due : List ℕ) (id : ℕ) (st : Stage σ τ) : Prop where
  ordered : st.runner.Ordered
  /-- Only its entry is without a task. -/
  alone : ∀ e ∈ st.runner.queue, e.task = none ↔ e.id = id
  /-- Its entry is there unless it was cancelled. -/
  there : st.runner.Has id ↔ ¬ TakenOut id st.history
  numbered : ∀ e ∈ st.runner.queue, 1 ≤ e.id ∧ e.id ≤ st.runner.issued
  paced : ∀ e ∈ st.runner.queue, ∀ n, e.interval = some n → 1 ≤ n
  once : due.Nodup
  /-- Every other entry that is overdue comes later on the list. -/
  ahead : ∃ done rest, due = done ++ id :: rest ∧
    ∀ e ∈ st.runner.queue, e.id ≠ id → e.due ≤ st.runner.now → e.id ∈ rest

section

variable {r : TickRunner τ} {st : Stage σ τ} {id : ℕ} {due rest : List ℕ}

theorem Standing.atRest (h : Standing none [] r) : AtRest r where
  ordered := h.ordered
  held e he htask := by cases (h.held e he).mp htask
  numbered := h.numbered
  ahead e he := by
    by_contra hdue
    cases h.overdue e he (Option.some_ne_none e.id).symm (Nat.le_of_not_lt hdue)
  paced := h.paced

/-- While a task is in flight, its entry leaves the queue by a cancel only. -/
theorem Reckoned.has_firing (h : Reckoned (.firing id rest) st) :
    st.runner.Has id ↔ ¬ TakenOut id st.history := by
  have hissued : Issued id st.history := h.known id (.inr (.inr (h.launched id rfl)))
  rw [h.present]
  constructor
  · exact fun hpresent => hpresent.2.1
  · exact fun hnot => ⟨hissued, hnot, fun hover => hover.2.2 rfl⟩

theorem Standing.inTurn (h : Standing (some id) rest st.runner) (hreckoned : Reckoned (.firing id rest) st)
    (hdue : id :: rest <:+ due) (honce : due.Nodup) : InTurn due id st where
  ordered := h.ordered
  alone e he := by
    rw [h.held e he, Option.some_inj]
    exact eq_comm
  there := hreckoned.has_firing
  numbered := h.numbered
  paced := h.paced
  once := honce
  ahead := by
    obtain ⟨done, hsplit⟩ := hdue
    refine ⟨done, rest, hsplit.symm, fun e he hother hlate => h.overdue e he ?_ hlate⟩
    exact fun hflying => hother (Option.some.inj hflying).symm

end

/-- **No entry is forgotten.** After any run of fewer ticks than can be counted, and whatever the host does then: every
entry holds its task under a number that was issued, is due at a later tick, and has a period of one tick at least if it
repeats. In the tick that may come next, at every moment at which a task is at work, there is the task that is firing;
only its entry is without a task, or it is not there, exactly if it was cancelled; and every other entry that is overdue
has its turn ahead in the tick. -/
theorem overdue_are_ahead (body : τ → Deed σ τ) (turns : List (Turn σ τ)) (own : σ) :
    let st := run body turns own
    (∀ code : Deed σ τ, ∀ m ∈ code.moments st, m.runner.now < lastTick → AtRest m.runner) ∧
    ∀ m ∈ Turn.tick.moments body st, m.runner.now < lastTick →
      ∃ id, inFlight m.history = some id ∧ InTurn st.dawn.runner.dueIds id m := by
  intro st
  have hlasting := lasting_timely.and (lasting_reckoned (σ := σ) (τ := τ))
  have hstart : Timely .between ({ own } : Stage σ τ) := fun _ => standing_empty
  obtain ⟨horder, htimely, hreckoned⟩ : Holds _ .between st :=
    (hlasting.run body turns own ⟨hstart, reckoned_empty own⟩).1
  constructor
  · intro code m hm hnow
    -- no task is at work between ticks, so nothing in the queue is overdue
    have hbetween := lasting_timely.toSteady.and (steady_between (σ := σ) (τ := τ))
    obtain ⟨-, -, hmoments⟩ := hbetween.exec (show Situation.between.AtWork from trivial) code ⟨horder, htimely, rfl⟩
    obtain ⟨sit, -, -, hat, rfl⟩ := hmoments m hm
    exact (hat hnow).atRest
  · intro m hm hnow
    -- a task is due once in the tick, so what is still due has not had its turn
    have honce : st.dawn.runner.dueIds.Nodup := Ordered.dueIds_nodup (r := st.dawn.runner) horder.entries.ordered
    have hdawn := hlasting.dawn horder ⟨htimely, hreckoned⟩
    obtain ⟨-, -, hmoments⟩ := (hlasting.toSteady.and (steady_through st.dawn.runner.dueIds)).fireAll body 0
      ⟨horder.dawn, hdawn, List.suffix_rfl⟩
    obtain ⟨sit, hwork, -, ⟨hat, hreckoned⟩, hthrough⟩ := hmoments m hm
    cases sit with
    | between => exact hthrough.elim
    | waiting rest => exact hwork.elim
    | firing id rest => exact ⟨id, hreckoned.flight hwork, (hat hnow).inTurn hreckoned hthrough honce⟩

/-- A task that fires has cancelled another one whose turn is ahead of it. -/
theorem overdue_are_ahead_mid_tick :
    let body := fun _ : Unit => (Deed.cancel ⟨2⟩ fun _ => .done : Deed Unit Unit)
    let st := run body [.act (.submit () .sync (.repeating 1 2) fun _ =>
      .submit () .async .immediate fun _ => .done)] ()
    AtRest st.runner ∧ ∃ m ∈ Turn.tick.moments body st,
      m.history = [.submitted 0 1 .sync (.repeating 1 2), .submitted 0 2 .async .immediate, .fired 1 1,
        .cancelled 1 2 true] ∧ m.runner.now < lastTick ∧ InTurn [1, 2] 1 m := by
  intro body st
  obtain ⟨hrest, hturns⟩ := overdue_are_ahead body [.act (.submit () .sync (.repeating 1 2) fun _ =>
    .submit () .async .immediate fun _ => .done)] ()
  have hmem := List.getElem_mem (n := 1) (l := Turn.tick.moments body st) (by decide)
  obtain ⟨id, hid, hturn⟩ := hturns _ hmem (by decide)
  obtain rfl : 1 = id := Option.some.inj hid
  exact ⟨hrest .done st (List.mem_singleton_self st) (by decide), _, hmem, by rfl, by decide, hturn⟩

end TickRunner
end ScriptHost
