import Mathlib.Data.List.Perm.Basic
import ScriptHost.Proofs.Histories
import ScriptHost.Proofs.TickRunner.Moments

/-!
# The order of firings within a tick

What is due when a tick begins is listed once, and the tasks on the list take their turns one after the other, while
each of them may change the queue. `Progress` relates what has fired so far to the list and to the queue; every step
keeps it, so that at the end of the tick (`tick_fires_in_order`) the tasks that fired are those that were due, in
line, but for those that were cancelled before their turns.
-/

namespace ScriptHost
namespace TickRunner

variable {σ τ : Type}

/-! ## Lines -/

/-- The number of the task, if the event is the start of a firing. -/
def Event.started? : Event → Option ℕ
  | .fired _ id => some id
  | _ => none

/-- The tasks that fired, in order. -/
def firedIn (events : List Event) : List ℕ := events.filterMap Event.started?

/-- The tasks that were submitted, the sync lane first, each lane in the order of submission. -/
def lineUp (events : List Event) : List ℕ :=
  ((submissions events).filter (fun s => s.2 == .sync) ++
    (submissions events).filter fun s => s.2 == .async).map Prod.fst

/-- A task was cancelled before its turn: until then, only tasks had fired that stand before it in the line. -/
def CutOff (line : List ℕ) (id : ℕ) (events : List Event) : Prop :=
  ∃ before t after, events = before ++ .cancelled t id true :: after ∧
    ∀ i ∈ firedIn before, [i, id].Sublist line

theorem firedIn_append (events more : List Event) : firedIn (events ++ more) = firedIn events ++ firedIn more :=
  List.filterMap_append

/-- The line gets longer, and nobody changes places in it. -/
theorem lineUp_sublist (events more : List Event) : (lineUp events).Sublist (lineUp (events ++ more)) := by
  have hlane : ∀ lane, ((submissions events).filter fun s => s.2 == lane).Sublist
      ((submissions (events ++ more)).filter fun s => s.2 == lane) := by
    intro lane
    rw [submissions_append]
    exact (List.sublist_append_left _ _).filter _
  exact ((hlane .sync).append (hlane .async)).map Prod.fst

/-- The line has the tasks that were submitted, each once. -/
theorem lineUp_perm (events : List Event) : (lineUp events).Perm (events.filterMap Event.number?) := by
  have hasync : (fun s : ℕ × Lane => s.2 == .async) = fun s => !(s.2 == .sync) := by
    funext s
    cases s.2 <;> rfl
  have hsubmitted : (submissions events).map Prod.fst = events.filterMap Event.number? := by
    unfold submissions
    rw [List.map_filterMap]
    exact List.filterMap_congr fun e _ => fst_submission? e
  unfold lineUp
  rw [hasync, ← hsubmitted]
  exact (List.filter_append_perm _ _).map _

theorem InOrder.nodup_lineUp {flying : Option ℕ} {st : Stage σ τ} (h : InOrder flying st) :
    (lineUp st.history).Nodup := by
  rw [(lineUp_perm _).nodup_iff, h.numbers]
  exact List.nodup_range'

/-- What is due stands in line. -/
theorem InOrder.dueIds_sublist {flying : Option ℕ} {st : Stage σ τ} (h : InOrder flying st) :
    st.dawn.runner.dueIds.Sublist (lineUp st.history) := by
  have hlane : ∀ lane, (st.dawn.runner.dueIn lane).Sublist
      (((submissions st.history).filter fun s => s.2 == lane).map Prod.fst) := by
    intro lane
    refine List.Sublist.trans ?_ ((h.lined.filter fun s => s.2 == lane).map Prod.fst)
    rw [List.filter_map, List.map_map]
    refine List.Sublist.map Waiting.id ?_
    refine (List.monotone_filter_right _ fun e he => ?_)
    exact (Bool.and_eq_true_iff.mp he).1
  unfold dueIds lineUp
  rw [List.map_append]
  exact (hlane .sync).append (hlane .async)

/-! ## Cancels -/

theorem CutOff.append {line : List ℕ} {id : ℕ} {events : List Event} (h : CutOff line id events)
    (more : List Event) : CutOff line id (events ++ more) := by
  obtain ⟨before, t, after, rfl, hbefore⟩ := h
  exact ⟨before, t, after ++ more, by simp, hbefore⟩

/-- A cancel is the last event or was there before. -/
theorem cutOff_note {line : List ℕ} {id : ℕ} {events : List Event} {x : Event} :
    CutOff line id (events ++ [x]) ↔ CutOff line id events ∨
      (∃ t, x = .cancelled t id true) ∧ ∀ i ∈ firedIn events, [i, id].Sublist line := by
  constructor
  · rintro ⟨before, t, after, heq, hbefore⟩
    rcases append_singleton_split heq with ⟨-, rfl, hlast⟩ | ⟨after', -, hinit⟩
    · exact .inr ⟨⟨t, hlast.symm⟩, hbefore⟩
    · exact .inl ⟨before, t, after', hinit, hbefore⟩
  · rintro (h | ⟨⟨t, rfl⟩, hbefore⟩)
    · exact h.append [x]
    · exact ⟨events, t, [], rfl, hbefore⟩

theorem cutOff_note_of_ne {line : List ℕ} {id : ℕ} {events : List Event} {x : Event}
    (hx : ∀ t, x ≠ .cancelled t id true) : CutOff line id (events ++ [x]) ↔ CutOff line id events := by
  rw [cutOff_note]
  refine or_iff_left ?_
  rintro ⟨⟨t, rfl⟩, _⟩
  exact hx t rfl

/-! ## Within a tick -/

/-- A tick so far: of the tasks that were due, `done` have had their turns, the last one perhaps only begun, and
`rest` have not; `events` is what happened in the tick. -/
structure Progress (line done rest : List ℕ) (events : List Event) (st : Stage σ τ) : Prop where
  inLine : (firedIn events).Sublist done
  fired : ∀ id ∈ firedIn events, ¬ CutOff line id events
  missed : ∀ id ∈ done, id ∉ firedIn events → CutOff line id events ∧ ¬ st.runner.Has id
  ahead : ∀ id ∈ rest, st.runner.Has id ↔ ¬ CutOff line id events
  issued : ∀ id ∈ done ++ rest, id ≤ st.runner.issued

/-- Where a tick is that began after `past`, when `due` was due. -/
def Underway (line due : List ℕ) (past : List Event) (sit : Situation) (st : Stage σ τ) : Prop :=
  ∃ done events, done ++ sit.rest = due ∧ st.history = past ++ events ∧
    (∀ id, sit.flying = some id → id ∈ firedIn events) ∧ Progress line done sit.rest events st

section

variable {line done rest : List ℕ} {events : List Event} {st : Stage σ τ} {id : ℕ} {task : ℕ × τ}

/-- When a tick begins, nothing has fired in it and no task has been cancelled. -/
theorem progress_dawn (h : InOrder none st) : Progress line [] st.dawn.runner.dueIds [] st.dawn where
  inLine := .slnil
  fired _ hid := nomatch hid
  missed _ hid := nomatch hid
  ahead id hid := by
    obtain ⟨e, he, heq, _⟩ := mem_dueIds.mp hid
    refine iff_of_true ⟨e, he, heq⟩ ?_
    rintro ⟨before, t, after, hsplit, -⟩
    exact List.append_ne_nil_of_right_ne_nil before (List.cons_ne_nil _ after) hsplit.symm
  issued id hid := by
    obtain ⟨e, he, heq, _⟩ := mem_dueIds.mp hid
    exact heq ▸ (h.entries.numbered e he).2

/-- A new task has a number of its own, so that it changes nothing for those that are due. -/
theorem Progress.submit (h : Progress line done rest events st) (task : τ) (lane : Lane) (mode : Mode) :
    Progress line done rest (events ++ [.submitted st.runner.now (st.runner.issued + 1) lane mode])
      (st.submit task lane mode).2 := by
  have hcut : ∀ id, CutOff line id (events ++ [.submitted st.runner.now (st.runner.issued + 1) lane mode]) ↔
      CutOff line id events := fun id => cutOff_note_of_ne (by intro t; simp)
  have hfired : firedIn (events ++ [.submitted st.runner.now (st.runner.issued + 1) lane mode]) =
      firedIn events := by simp [firedIn, Event.started?]
  -- those that are due have older numbers
  have hhas : ∀ id ∈ done ++ rest, (st.submit task lane mode).2.runner.Has id ↔ st.runner.Has id := by
    intro id hid
    refine has_submit.trans (or_iff_left ?_)
    have hle := h.issued id hid
    omega
  constructor
  · rw [hfired]
    exact h.inLine
  · intro id hid
    rw [hfired] at hid
    exact mt (hcut id).mp (h.fired id hid)
  · intro id hid hnot
    rw [hfired] at hnot
    rw [hcut, hhas id (List.mem_append_left _ hid)]
    exact h.missed id hid hnot
  · intro id hid
    rw [hcut, hhas id (List.mem_append_right _ hid)]
    exact h.ahead id hid
  · intro id hid
    exact Nat.le_succ_of_le (h.issued id hid)

/-- A cancel cuts off a task that has its turn ahead of it, and no other one. -/
theorem Progress.cancel (hline : line.Nodup) (hdue : (done ++ rest).Sublist line)
    (h : Progress line done rest events st) (id : TaskId) :
    Progress line done rest (events ++ [.cancelled st.runner.now id.raw (st.runner.cancel id).1])
      (st.cancel id).2 := by
  have hcut : ∀ i, CutOff line i (events ++ [.cancelled st.runner.now id.raw (st.runner.cancel id).1]) ↔
      CutOff line i events ∨
        (id.raw = i ∧ st.runner.Has i) ∧ ∀ j ∈ firedIn events, [j, i].Sublist line := by
    intro i
    rw [cutOff_note]
    refine or_congr_right (and_congr_left' ?_)
    have hany : (st.runner.cancel ⟨i⟩).1 = true ↔ st.runner.Has i := cancel_eq_true_iff
    rw [← hany]
    constructor
    · rintro ⟨t, heq⟩
      obtain ⟨-, rfl, hfound⟩ := Event.cancelled.inj heq
      exact ⟨rfl, hfound⟩
    · rintro ⟨rfl, hfound⟩
      exact ⟨st.runner.now, by rw [hfound]⟩
  have hfired : firedIn (events ++ [.cancelled st.runner.now id.raw (st.runner.cancel id).1]) =
      firedIn events := by simp [firedIn, Event.started?]
  constructor
  · rw [hfired]
    exact h.inLine
  · intro i hi
    rw [hfired] at hi
    rw [hcut]
    intro hor
    rcases hor with hold | ⟨-, hbefore⟩
    · exact h.fired i hi hold
    · -- no task stands before itself
      have htwice := hline.sublist (hbefore i hi)
      simp at htwice
  · intro i hi hnot
    rw [hfired] at hnot
    obtain ⟨hold, hgone⟩ := h.missed i hi hnot
    exact ⟨(hcut i).mpr (.inl hold), fun hhas => hgone (has_cancel.mp hhas).1⟩
  · intro i hi
    have hbefore : ∀ j ∈ firedIn events, [j, i].Sublist line := by
      intro j hj
      have hjdone : [j].Sublist done := List.singleton_sublist.mpr (h.inLine.subset hj)
      exact (hjdone.append (List.singleton_sublist.mpr hi)).trans hdue
    have hhas : (st.cancel id).2.runner.Has i ↔ st.runner.Has i ∧ i ≠ id.raw := has_cancel
    rw [hcut, hhas, and_iff_left hbefore, not_or, ← h.ahead i hi, not_and]
    refine and_congr_right fun hi => ⟨fun hne heq => absurd heq.symm hne, fun himp heq => himp heq.symm hi⟩
  · exact h.issued

/-- A task that has left the queue was cut off, since nothing else takes out a task that has its turn ahead of
it. -/
theorem Progress.skip (h : Progress line done (id :: rest) events st) (hgone : ¬ st.runner.Has id) :
    Progress line (done ++ [id]) rest events st where
  inLine := h.inLine.trans (List.sublist_append_left _ _)
  fired := h.fired
  missed i hi hnot := by
    rcases List.mem_append.mp hi with hi | hi
    · exact h.missed i hi hnot
    · obtain rfl := List.mem_singleton.mp hi
      exact ⟨not_not.mp (mt (h.ahead i List.mem_cons_self).mpr hgone), hgone⟩
  ahead i hi := h.ahead i (List.mem_cons_of_mem id hi)
  issued i hi := h.issued i (by simpa using hi)

/-- A task that is there when its turn comes fires, and it was not cut off. -/
theorem Progress.launch (h : Progress line done (id :: rest) events st) (hhas : st.runner.Has id)
    (hnumber : task.1 = id) :
    Progress line (done ++ [id]) rest (events ++ [.fired st.runner.now task.1]) (st.launch task id) := by
  have hcut : ∀ i, CutOff line i (events ++ [.fired st.runner.now task.1]) ↔ CutOff line i events :=
    fun i => cutOff_note_of_ne (by intro t; simp)
  have hfired : firedIn (events ++ [.fired st.runner.now task.1]) = firedIn events ++ [id] := by
    rw [firedIn_append, ← hnumber]
    rfl
  have hsame : ∀ i, (st.launch task id).runner.Has i ↔ st.runner.Has i := fun i => has_take
  constructor
  · rw [hfired]
    exact h.inLine.append (List.Sublist.refl _)
  · intro i hi
    rw [hcut]
    rw [hfired] at hi
    rcases List.mem_append.mp hi with hi | hi
    · exact h.fired i hi
    · obtain rfl := List.mem_singleton.mp hi
      -- a task that is there when its turn comes has not been cut off
      exact (h.ahead i List.mem_cons_self).mp hhas
  · intro i hi hnot
    rw [hfired, List.mem_append, not_or] at hnot
    rw [hcut, hsame]
    exact h.missed i ((List.mem_append.mp hi).resolve_right hnot.2) hnot.1
  · intro i hi
    rw [hcut, hsame]
    exact h.ahead i (List.mem_cons_of_mem id hi)
  · intro i hi
    exact h.issued i (by simpa using hi)

/-- The end of a turn concerns the task alone whose turn it was. -/
theorem Progress.land (h : Progress line done rest events st) (hnot : id ∉ rest) (now : ℕ) :
    Progress line done rest events (st.land now id task) where
  inLine := h.inLine
  fired := h.fired
  missed i hi hi' := by
    obtain ⟨hcut, hgone⟩ := h.missed i hi hi'
    refine ⟨hcut, ?_⟩
    intro hhas
    obtain ⟨e, he, heq, -⟩ := has_settle.mp hhas
    exact hgone ⟨e, he, heq⟩
  ahead i hi := by
    rw [← h.ahead i hi]
    refine has_settle.trans (exists_congr fun e => and_congr_right' (and_iff_left ?_))
    intro hself
    exact absurd (hself ▸ hi) hnot
  issued := h.issued

end

/-- Every step of a tick keeps its account. -/
theorem steady_underway {line due : List ℕ} (past : List Event) (hline : line.Nodup) (hdue : due.Sublist line) :
    Steady (σ := σ) (τ := τ) (Underway line due past) where
  think := by
    rintro sit st ⟨done, events, hdone, hhistory, hflying, h⟩ own
    exact ⟨done, events, hdone, hhistory, hflying, h.inLine, h.fired, h.missed, h.ahead, h.issued⟩
  submit := by
    rintro sit st - - ⟨done, events, hdone, hhistory, hflying, h⟩ task lane mode
    refine ⟨done, _, hdone, ?_, ?_, h.submit task lane mode⟩
    · rw [← List.append_assoc, ← hhistory]
      rfl
    · intro id hid
      rw [firedIn_append]
      exact List.mem_append_left _ (hflying id hid)
  cancel := by
    rintro sit st - - ⟨done, events, hdone, hhistory, hflying, h⟩ id
    refine ⟨done, _, hdone, ?_, ?_, h.cancel hline (hdone ▸ hdue) id⟩
    · rw [← List.append_assoc, ← hhistory]
      rfl
    · intro i hi
      rw [firedIn_append]
      exact List.mem_append_left _ (hflying i hi)
  skip := by
    rintro st id rest horder ⟨done, events, hdone, hhistory, -, h⟩ hnone
    refine ⟨done ++ [id], events, (List.append_assoc ..).trans hdone, hhistory, ?_, h.skip ?_⟩
    · intro i hi
      cases hi
    · exact horder.entries.not_has_of_task? hnone
  launch := by
    rintro st id task rest - ⟨done, events, hdone, hhistory, -, h⟩ htask hnumber
    refine ⟨done ++ [id], _, (List.append_assoc ..).trans hdone, ?_, ?_, h.launch (has_of_task? htask) hnumber⟩
    · rw [← List.append_assoc, ← hhistory]
      rfl
    · intro i hi
      obtain rfl := Option.some.inj hi
      rw [firedIn_append, hnumber]
      exact List.mem_append_right _ (List.mem_singleton.mpr rfl)
  land := by
    rintro st id task rest - ⟨done, events, hdone, hhistory, hflying, h⟩ hnumber
    have hid : id ∈ firedIn events := hflying id rfl
    refine ⟨done, events, hdone, hhistory, ?_, h.land ?_ _⟩
    · intro i hi
      cases hi
    · -- a number does not have two places in the line
      have hnodup : (done ++ rest).Nodup := hdone ▸ hline.sublist hdue
      exact fun hrest => (List.nodup_append.mp hnodup).2.2 id (h.inLine.subset hid) id hrest rfl

/-! ## Counting -/

theorem firedIn_exec (code : Deed σ τ) (st : Stage σ τ) :
    firedIn (code.exec st).history = firedIn st.history := by
  induction code generalizing st with
  | done => rfl
  | own f next ih => exact ih (f st.own) { st with own := f st.own }
  | look next ih => exact ih _ _ st
  | submit task lane mode next ih =>
    refine (ih (st.submit task lane mode).1 (st.submit task lane mode).2).trans ?_
    show firedIn (st.history ++ [_]) = _
    rw [firedIn_append]
    exact List.append_nil _
  | cancel id next ih =>
    refine (ih (st.cancel id).1 (st.cancel id).2).trans ?_
    show firedIn (st.history ++ [_]) = _
    rw [firedIn_append]
    exact List.append_nil _

/-- Whatever is counted has fired. -/
theorem fireAll_count (body : τ → Deed σ τ) (now : ℕ) (ids : List ℕ) (st : Stage σ τ) (count : ℕ) :
    (fireAll (Stage.fire body) now count ids st).1 + (firedIn st.history).length =
      count + (firedIn (fireAll (Stage.fire body) now count ids st).2.history).length := by
  induction ids generalizing st count with
  | nil => rfl
  | cons id ids ih =>
    cases htask : st.runner.task? id with
    | none =>
      rw [fireAll_skip htask]
      exact ih st count
    | some task =>
      rw [fireAll_fire htask]
      have hrest := ih (((body task.2).exec (st.launch task id)).land now id task) (count + 1)
      have hone : (firedIn (((body task.2).exec (st.launch task id)).land now id task).history).length =
          (firedIn st.history).length + 1 := by
        show (firedIn ((body task.2).exec (st.launch task id)).history).length = _
        rw [firedIn_exec]
        show (firedIn (st.history ++ [_])).length = _
        rw [firedIn_append, List.length_append]
        rfl
      omega

/-! ## The order of firings -/

/-- In a tick after any run, the tasks fire in line, sync before async and each lane in the order of submission:
those that were due, except those that were cancelled before their turns. What is submitted meanwhile does not fire,
and the tick gives the number of firings. -/
theorem tick_fires_in_order (body : τ → Deed σ τ) (turns : List (Turn σ τ)) (own : σ) :
    let st := run body turns own
    let ticked := tick (Stage.fire body) st
    ∃ events, ticked.2.history = st.history ++ events ∧
      (lineUp st.history).Nodup ∧ (firedIn events).Sublist (lineUp st.history) ∧
      (∀ id, id ∈ firedIn events ↔
        (∃ e ∈ st.runner.queue, e.id = id ∧ e.due ≤ st.runner.now + 1) ∧
          ¬ CutOff (lineUp st.history) id events) ∧
      (∀ id ∈ events.filterMap Event.number?, id ∉ firedIn events) ∧
      ticked.1 = (firedIn events).length := by
  intro st ticked
  have hstart : InOrder none st := inOrder_run body turns own
  have hline := hstart.nodup_lineUp
  have hdue := hstart.dueIds_sublist
  have hdawn : Holds (Underway (lineUp st.history) st.dawn.runner.dueIds st.history)
      (.waiting st.dawn.runner.dueIds) st.dawn := by
    refine ⟨hstart.dawn, [], [], rfl, (List.append_nil _).symm, ?_, progress_dawn hstart⟩
    intro id hid
    cases hid
  obtain ⟨⟨horder, done, events, hdone, hhistory, -, h⟩, -, -⟩ :=
    (steady_underway st.history hline hdue).fireAll body 0 hdawn
  obtain rfl : done = st.dawn.runner.dueIds := by rw [← hdone]; exact (List.append_nil _).symm
  have hticked : ticked.2.history = st.history ++ events := hhistory
  refine ⟨events, hticked, hline, h.inLine.trans hdue, ?_, ?_, ?_⟩
  · intro id
    have hmem : (∃ e ∈ st.runner.queue, e.id = id ∧ e.due ≤ st.runner.now + 1) ↔
        id ∈ st.dawn.runner.dueIds := (mem_dueIds (r := st.dawn.runner)).symm
    rw [hmem]
    constructor
    · intro hid
      exact ⟨h.inLine.subset hid, h.fired id hid⟩
    · rintro ⟨hid, hnot⟩
      by_contra hno
      exact hnot (h.missed id hid hno).1
  · intro id hnew hfired
    -- the line has the numbers that were issued before the tick, and no number is issued twice
    have hold : id ∈ st.history.filterMap Event.number? :=
      (lineUp_perm _).mem_iff.mp ((h.inLine.trans hdue).subset hfired)
    have hnodup : (ticked.2.history.filterMap Event.number?).Nodup := by
      rw [show ticked.2.history.filterMap Event.number? = _ from horder.numbers]
      exact List.nodup_range'
    rw [hticked, List.filterMap_append] at hnodup
    exact (List.nodup_append.mp hnodup).2.2 id hold id hnew rfl
  · have hcount := fireAll_count body st.dawn.runner.now st.dawn.runner.dueIds st.dawn 0
    have hticked' : ticked = fireAll (Stage.fire body) st.dawn.runner.now 0 st.dawn.runner.dueIds st.dawn := rfl
    rw [← hticked', hticked, firedIn_append, List.length_append] at hcount
    have hsame : st.dawn.history = st.history := rfl
    rw [hsame] at hcount
    omega

end TickRunner
end ScriptHost
