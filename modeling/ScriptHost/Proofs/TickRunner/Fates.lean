import ScriptHost.Proofs.TickRunner.FiringOrder

/-!
# What becomes of tasks

The history of a run tells of each task whether it is still to be reckoned with: it was submitted, no cancel has
taken it out, and it is not one that fires once and has done so. `Reckoned` relates that to the queue and holds at
every step, within a tick as well, where the entry of the task that is firing stays in the queue and may be cancelled
there. So the answers of cancels and the number of waiting tasks are true at every moment (`answers_are_true`), and
every task has one fate.
-/

namespace ScriptHost
namespace TickRunner

variable {σ τ : Type}

/-! ## What the history tells -/

/-- The task was submitted. -/
def Issued (id : ℕ) (events : List Event) : Prop := ∃ e ∈ events, e.number? = some id

/-- The event is a cancel that takes out the task. -/
def Event.TakesOut (id : ℕ) (e : Event) : Prop := ∃ tick, e = .cancelled tick id true

/-- A cancel has taken out the task. -/
def TakenOut (id : ℕ) (events : List Event) : Prop := ∃ e ∈ events, e.TakesOut id

/-- The event is the submission of the task, in a mode in which it fires once. -/
def Event.Schedules (id : ℕ) (e : Event) : Prop :=
  ∃ tick lane mode, e = .submitted tick id lane mode ∧ mode.interval? = none

/-- The task fires only once. -/
def FiresOnce (id : ℕ) (events : List Event) : Prop := ∃ e ∈ events, e.Schedules id

/-- The firing of the task has begun. -/
def Begun (id : ℕ) (events : List Event) : Prop := ∃ e ∈ events, e.started? = some id

/-- The task that is firing after an event, if `flying` was firing before. -/
def Event.flight (flying : Option ℕ) : Event → Option ℕ
  | .fired _ id => some id
  | .ticked .. => none
  | _ => flying

/-- The task that is firing. -/
def inFlight (events : List Event) : Option ℕ := events.foldl Event.flight none

/-- The task fires only once, and its firing is over. -/
def Over (id : ℕ) (events : List Event) : Prop :=
  FiresOnce id events ∧ Begun id events ∧ inFlight events ≠ some id

/-- The task is still to be reckoned with. -/
def Outstanding (id : ℕ) (events : List Event) : Prop :=
  Issued id events ∧ ¬ TakenOut id events ∧ ¬ Over id events

section

variable {id : ℕ} {events : List Event} {e : Event}

theorem exists_note {p : Event → Prop} : (∃ x ∈ events ++ [e], p x) ↔ (∃ x ∈ events, p x) ∨ p e := by
  simp only [List.mem_append, List.mem_singleton, or_and_right, exists_or, exists_eq_left]

theorem issued_note : Issued id (events ++ [e]) ↔ Issued id events ∨ e.number? = some id := exists_note

theorem takenOut_note : TakenOut id (events ++ [e]) ↔ TakenOut id events ∨ e.TakesOut id := exists_note

theorem firesOnce_note : FiresOnce id (events ++ [e]) ↔ FiresOnce id events ∨ e.Schedules id := exists_note

theorem begun_note : Begun id (events ++ [e]) ↔ Begun id events ∨ e.started? = some id := exists_note

theorem inFlight_note : inFlight (events ++ [e]) = e.flight (inFlight events) := List.foldl_concat ..

theorem issued_iff : Issued id events ↔ id ∈ events.filterMap Event.number? := List.mem_filterMap.symm

theorem not_takesOut_submitted {t n : ℕ} {lane : Lane} {mode : Mode} :
    ¬ (Event.submitted t n lane mode).TakesOut id := by
  rintro ⟨_, heq⟩
  cases heq

theorem not_takesOut_fired {t n : ℕ} : ¬ (Event.fired t n).TakesOut id := by
  rintro ⟨_, heq⟩
  cases heq

theorem takesOut_cancelled {t n : ℕ} {found : Bool} :
    (Event.cancelled t n found).TakesOut id ↔ n = id ∧ found = true := by
  constructor
  · rintro ⟨_, heq⟩
    obtain ⟨-, hn, hfound⟩ := Event.cancelled.inj heq
    exact ⟨hn, hfound⟩
  · rintro ⟨rfl, rfl⟩
    exact ⟨t, rfl⟩

theorem schedules_submitted {t n : ℕ} {lane : Lane} {mode : Mode} :
    (Event.submitted t n lane mode).Schedules id ↔ n = id ∧ mode.interval? = none := by
  constructor
  · rintro ⟨_, _, _, heq, honce⟩
    obtain ⟨-, hn, -, rfl⟩ := Event.submitted.inj heq
    exact ⟨hn, honce⟩
  · rintro ⟨rfl, honce⟩
    exact ⟨t, lane, mode, rfl, honce⟩

theorem issued_note_of_none (h : e.number? = none) : Issued id (events ++ [e]) ↔ Issued id events := by
  rw [issued_note, h]
  exact or_iff_left (Option.some_ne_none id).symm

theorem firesOnce_note_of_none (h : e.number? = none) : FiresOnce id (events ++ [e]) ↔ FiresOnce id events := by
  refine firesOnce_note.trans (or_iff_left ?_)
  rintro ⟨_, _, _, rfl, _⟩
  cases h

theorem begun_note_of_none (h : e.started? = none) : Begun id (events ++ [e]) ↔ Begun id events := by
  rw [begun_note, h]
  exact or_iff_left (Option.some_ne_none id).symm

end

/-! ## What the queue has -/

/-- No event before takes out what a later one takes out or fires. -/
def Settled (x y : Event) : Prop := ∀ id, x.TakesOut id → ¬ y.TakesOut id ∧ y.started? ≠ some id

/-- Queue and history agree. -/
structure Reckoned (sit : Situation) (st : Stage σ τ) : Prop where
  /-- While code is at work, the history shows which task is firing. -/
  flight : sit.AtWork → inFlight st.history = sit.flying
  launched : ∀ id, sit.flying = some id → Begun id st.history
  /-- Whatever is in the queue is still to be reckoned with. -/
  present : ∀ id, st.runner.Has id ↔ Issued id st.history ∧ ¬ TakenOut id st.history ∧
    ¬ (FiresOnce id st.history ∧ Begun id st.history ∧ sit.flying ≠ some id)
  modes : ∀ e ∈ st.runner.queue, e.interval = none ↔ FiresOnce e.id st.history
  /-- Nothing is told of a task before its submission. -/
  known : ∀ id, TakenOut id st.history ∨ FiresOnce id st.history ∨ Begun id st.history → Issued id st.history
  settled : st.history.Pairwise Settled
  /-- Every cancel has given the right answer. -/
  answered : ∀ before t id found after, st.history = before ++ .cancelled t id found :: after →
    (found = true ↔ Outstanding id before)

section

variable {sit : Situation} {st : Stage σ τ} {id : ℕ} {rest : List ℕ} {task : ℕ × τ}

theorem reckoned_empty (own : σ) : Reckoned (τ := τ) .between { own } where
  flight _ := rfl
  launched id hid := by cases hid
  present id := by
    refine iff_of_false ?_ ?_
    · rintro ⟨e, he, -⟩
      cases he
    · rintro ⟨⟨e, he, -⟩, -⟩
      cases he
  modes e he := by cases he
  known id hid := by
    rcases hid with ⟨e, he, -⟩ | ⟨e, he, -⟩ | ⟨e, he, -⟩ <;> cases he
  settled := .nil
  answered before t id found after hsplit :=
    absurd hsplit.symm (List.append_ne_nil_of_right_ne_nil before (List.cons_ne_nil _ after))

/-- The number of the next submission is not in the history. -/
theorem Reckoned.fresh (h : Reckoned sit st) (horder : InOrder sit.flying st) :
    ¬ Issued (st.runner.issued + 1) st.history ∧ ¬ TakenOut (st.runner.issued + 1) st.history ∧
      ¬ FiresOnce (st.runner.issued + 1) st.history ∧ ¬ Begun (st.runner.issued + 1) st.history := by
  have hnot : ¬ Issued (st.runner.issued + 1) st.history := by
    rw [issued_iff, horder.numbers, List.mem_range'_1]
    omega
  refine ⟨hnot, ?_, ?_, ?_⟩
  · exact fun htaken => hnot (h.known _ (.inl htaken))
  · exact fun honce => hnot (h.known _ (.inr (.inl honce)))
  · exact fun hbegun => hnot (h.known _ (.inr (.inr hbegun)))

/-- An event that is no cancel leaves the answers as they are. -/
theorem Reckoned.answered_note (h : Reckoned sit st) {e : Event} (he : ∀ t id found, e ≠ .cancelled t id found) :
    ∀ before t id found after, st.history ++ [e] = before ++ .cancelled t id found :: after →
      (found = true ↔ Outstanding id before) := by
  intro before t id found after hsplit
  rcases append_singleton_split hsplit with ⟨-, -, hlast⟩ | ⟨after', -, hinit⟩
  · exact absurd hlast.symm (he t id found)
  · exact h.answered before t id found after' hinit

/-- An event that takes out nothing and fires nothing settles nothing. -/
theorem Reckoned.settled_note (h : Reckoned sit st) {e : Event}
    (he : ∀ id, TakenOut id st.history → ¬ e.TakesOut id ∧ e.started? ≠ some id) :
    (st.history ++ [e]).Pairwise Settled := by
  refine List.pairwise_append.mpr ⟨h.settled, List.pairwise_singleton _ _, ?_⟩
  intro x hx y hy id hid
  obtain rfl := List.mem_singleton.mp hy
  exact he id ⟨x, hx, hid⟩

/-- What a cancel finds is still to be reckoned with. -/
theorem Reckoned.cancel_iff (h : Reckoned sit st) (hwork : sit.AtWork) (id : TaskId) :
    (st.runner.cancel id).1 = true ↔ Outstanding id.raw st.history := by
  rw [cancel_eq_true_iff, h.present, ← h.flight hwork]
  exact Iff.rfl

/-! ## Step by step -/

theorem Reckoned.submit (h : Reckoned sit st) (horder : InOrder sit.flying st) (task : τ) (lane : Lane)
    (mode : Mode) : Reckoned sit (st.submit task lane mode).2 := by
  obtain ⟨hissued, htaken, honce, hbegun⟩ := h.fresh horder
  have hhistory : (st.submit task lane mode).2.history =
      st.history ++ [.submitted st.runner.now (st.runner.issued + 1) lane mode] := rfl
  have hIssued : ∀ id, Issued id (st.submit task lane mode).2.history ↔
      Issued id st.history ∨ id = st.runner.issued + 1 := by
    intro id
    rw [hhistory, issued_note]
    exact or_congr_right (Option.some_inj.trans eq_comm)
  have hTaken : ∀ id, TakenOut id (st.submit task lane mode).2.history ↔ TakenOut id st.history :=
    fun id => takenOut_note.trans (or_iff_left not_takesOut_submitted)
  have hOnce : ∀ id, FiresOnce id (st.submit task lane mode).2.history ↔
      FiresOnce id st.history ∨ id = st.runner.issued + 1 ∧ mode.interval? = none := by
    intro id
    rw [hhistory, firesOnce_note, schedules_submitted, eq_comm]
  have hBegun : ∀ id, Begun id (st.submit task lane mode).2.history ↔ Begun id st.history :=
    fun id => begun_note_of_none rfl
  constructor
  · intro hwork
    rw [hhistory, inFlight_note]
    exact h.flight hwork
  · intro id hid
    exact (hBegun id).mpr (h.launched id hid)
  · intro id
    have hhas : (st.submit task lane mode).2.runner.Has id ↔ st.runner.Has id ∨ id = st.runner.issued + 1 :=
      has_submit
    rw [hhas, hIssued, hTaken, hOnce, hBegun, h.present id]
    -- the new number has been neither taken out nor begun; of the others nothing is said
    by_cases hnew : id = st.runner.issued + 1
    · subst hnew
      simp [htaken, hbegun]
    · simp [hnew]
  · intro e he
    rw [hOnce]
    rcases mem_submit.mp he with he | rfl
    · -- an entry that was there has another number than the new one
      have hne : e.id ≠ st.runner.issued + 1 := by
        have hle := (horder.entries.numbered e he).2
        omega
      rw [h.modes e he]
      exact (or_iff_left fun hnew => hne hnew.1).symm
    · exact ⟨fun hnone => .inr ⟨rfl, hnone⟩, fun hor => (hor.resolve_left honce).2⟩
  · intro id hid
    rw [hTaken, hOnce, hBegun] at hid
    rw [hIssued]
    rcases hid with hid | (hid | ⟨hid, -⟩) | hid
    · exact .inl (h.known id (.inl hid))
    · exact .inl (h.known id (.inr (.inl hid)))
    · exact .inr hid
    · exact .inl (h.known id (.inr (.inr hid)))
  · exact h.settled_note fun id _ => ⟨not_takesOut_submitted, (Option.some_ne_none id).symm⟩
  · exact h.answered_note (by intro t id found heq; cases heq)

theorem Reckoned.cancel (h : Reckoned sit st) (hwork : sit.AtWork) (id : TaskId) :
    Reckoned sit (st.cancel id).2 := by
  have hhistory : (st.cancel id).2.history =
      st.history ++ [.cancelled st.runner.now id.raw (st.runner.cancel id).1] := rfl
  have hIssued : ∀ i, Issued i (st.cancel id).2.history ↔ Issued i st.history :=
    fun i => issued_note_of_none rfl
  have hTaken : ∀ i, TakenOut i (st.cancel id).2.history ↔
      TakenOut i st.history ∨ id.raw = i ∧ st.runner.Has i := by
    intro i
    rw [hhistory, takenOut_note, takesOut_cancelled]
    refine or_congr_right (and_congr_right ?_)
    rintro rfl
    exact cancel_eq_true_iff
  have hOnce : ∀ i, FiresOnce i (st.cancel id).2.history ↔ FiresOnce i st.history :=
    fun i => firesOnce_note_of_none rfl
  have hBegun : ∀ i, Begun i (st.cancel id).2.history ↔ Begun i st.history :=
    fun i => begun_note_of_none rfl
  constructor
  · intro _
    rw [hhistory, inFlight_note]
    exact h.flight hwork
  · intro i hi
    exact (hBegun i).mpr (h.launched i hi)
  · intro i
    have hhas : (st.cancel id).2.runner.Has i ↔ st.runner.Has i ∧ i ≠ id.raw := has_cancel
    rw [hhas, hIssued, hTaken, hOnce, hBegun]
    -- what a cancel takes out is what was there under its number
    by_cases hi : id.raw = i
    · subst hi
      have hpresent := h.present id.raw
      simp only [ne_eq, not_true_eq_false, and_false, true_and, false_iff]
      rintro ⟨hissued, hnot, hover⟩
      rw [not_or] at hnot
      exact hnot.2 (hpresent.mpr ⟨hissued, hnot.1, hover⟩)
    · have hne : i ≠ id.raw := Ne.symm hi
      simp only [hi, hne, ne_eq, not_false_eq_true, and_true, false_and, or_false]
      exact h.present i
  · intro e he
    rw [hOnce]
    exact h.modes e (mem_cancel.mp he).1
  · intro i hi
    rw [hTaken, hOnce, hBegun] at hi
    rw [hIssued]
    rcases hi with (hi | ⟨-, hi⟩) | hi
    · exact h.known i (.inl hi)
    · exact ((h.present i).mp hi).1
    · exact h.known i (.inr hi)
  · refine h.settled_note ?_
    intro i hi
    refine ⟨?_, (Option.some_ne_none i).symm⟩
    rw [takesOut_cancelled]
    rintro ⟨rfl, hfound⟩
    exact ((h.present _).mp (cancel_eq_true_iff.mp hfound)).2.1 hi
  · intro before t i found after hsplit
    rw [hhistory] at hsplit
    rcases append_singleton_split hsplit with ⟨-, rfl, hlast⟩ | ⟨after', -, hinit⟩
    · obtain ⟨-, rfl, rfl⟩ := Event.cancelled.inj hlast
      exact h.cancel_iff hwork id
    · exact h.answered before t i found after' hinit

/-- A task that takes its turn is still in the queue, without its task. -/
theorem Reckoned.launch (h : Reckoned (.waiting (id :: rest)) st) (hhas : st.runner.Has id)
    (hnumber : task.1 = id) : Reckoned (.firing id rest) (st.launch task id) := by
  subst hnumber
  have hhistory : (st.launch task task.1).history = st.history ++ [.fired st.runner.now task.1] := rfl
  have hIssued : ∀ i, Issued i (st.launch task task.1).history ↔ Issued i st.history :=
    fun i => issued_note_of_none rfl
  have hTaken : ∀ i, TakenOut i (st.launch task task.1).history ↔ TakenOut i st.history :=
    fun i => takenOut_note.trans (or_iff_left not_takesOut_fired)
  have hOnce : ∀ i, FiresOnce i (st.launch task task.1).history ↔ FiresOnce i st.history :=
    fun i => firesOnce_note_of_none rfl
  have hBegun : ∀ i, Begun i (st.launch task task.1).history ↔ Begun i st.history ∨ task.1 = i := by
    intro i
    rw [hhistory, begun_note]
    exact or_congr_right Option.some_inj
  obtain ⟨hissued, hnot, -⟩ := (h.present task.1).mp hhas
  constructor
  · intro _
    rw [hhistory, inFlight_note]
    rfl
  · intro i hi
    exact (hBegun i).mpr (.inr (Option.some.inj hi))
  · intro i
    have hsame : (st.launch task task.1).runner.Has i ↔ st.runner.Has i := has_take
    rw [hsame, hIssued, hTaken, hOnce, hBegun]
    -- the task that begins stays in the queue: as long as it is in flight, it is not over
    by_cases hi : task.1 = i
    · subst hi
      refine iff_of_true hhas ⟨hissued, hnot, ?_⟩
      exact fun hover => hover.2.2 rfl
    · rw [h.present i]
      have hne : (Situation.firing task.1 rest).flying ≠ some i := fun heq => hi (Option.some.inj heq)
      have hne' : (Situation.waiting (task.1 :: rest)).flying ≠ some i := (Option.some_ne_none i).symm
      simp only [hi, hne, hne', or_false, ne_eq, not_false_eq_true]
  · intro e he
    rw [hOnce]
    rcases mem_take.mp he with ⟨he, -⟩ | ⟨e', he', -, rfl⟩
    · exact h.modes e he
    · exact h.modes e' he'
  · intro i hi
    rw [hTaken, hOnce, hBegun] at hi
    rw [hIssued]
    rcases hi with hi | hi | hi | rfl
    · exact h.known i (.inl hi)
    · exact h.known i (.inr (.inl hi))
    · exact h.known i (.inr (.inr hi))
    · exact hissued
  · refine h.settled_note ?_
    intro i hi
    refine ⟨not_takesOut_fired, ?_⟩
    intro heq
    obtain rfl := Option.some.inj heq
    exact hnot hi
  · exact h.answered_note (by intro t id found heq; cases heq)

/-- When a turn is over, a task leaves the queue that fires only once. -/
theorem Reckoned.land (h : Reckoned (.firing id rest) st) (now : ℕ) :
    Reckoned (.waiting rest) (st.land now id task) where
  flight hwork := hwork.elim
  launched i hi := by cases hi
  present i := by
    have hhas : (st.land now id task).runner.Has i ↔
        ∃ e ∈ st.runner.queue, e.id = i ∧ (i = id → e.interval ≠ none) := has_settle
    have hsame : (st.land now id task).history = st.history := rfl
    have hbegun : Begun id st.history := h.launched id rfl
    have hpresent := h.present i
    rw [hhas, hsame]
    by_cases hi : i = id
    · subst hi
      -- with its turn the task is over, exactly if it fires once; then its entry goes
      have hone : (∃ e ∈ st.runner.queue, e.id = i ∧ (i = i → e.interval ≠ none)) ↔
          st.runner.Has i ∧ ¬ FiresOnce i st.history := by
        constructor
        · rintro ⟨e, he, rfl, hagain⟩
          exact ⟨⟨e, he, rfl⟩, mt (h.modes e he).mpr (hagain rfl)⟩
        · rintro ⟨⟨e, he, rfl⟩, hagain⟩
          exact ⟨e, he, rfl, fun _ => mt (h.modes e he).mp hagain⟩
      rw [hone, hpresent]
      simp [Situation.flying, hbegun, and_assoc]
    · have hany : (∃ e ∈ st.runner.queue, e.id = i ∧ (i = id → e.interval ≠ none)) ↔ st.runner.Has i :=
        exists_congr fun e => and_congr_right' (and_iff_left fun heq => absurd heq hi)
      rw [hany, hpresent]
      simp [Situation.flying, Ne.symm hi]
  modes e he := by
    rcases mem_settle.mp he with ⟨he, -⟩ | ⟨e', he', -, n, -, rfl⟩
    · exact h.modes e he
    · exact h.modes e' he'
  known := h.known
  settled := h.settled
  answered := h.answered

/-- The end of a tick tells of no task. -/
theorem Reckoned.dusk (h : Reckoned (.waiting []) st) (now count : ℕ) :
    Reckoned .between (st.note (.ticked now count)) := by
  have hhistory : (st.note (.ticked now count)).history = st.history ++ [.ticked now count] := rfl
  have hTakes : ∀ i, ¬ (Event.ticked now count).TakesOut i := by
    rintro i ⟨_, heq⟩
    cases heq
  have hIssued : ∀ i, Issued i (st.note (.ticked now count)).history ↔ Issued i st.history :=
    fun i => issued_note_of_none rfl
  have hTaken : ∀ i, TakenOut i (st.note (.ticked now count)).history ↔ TakenOut i st.history :=
    fun i => takenOut_note.trans (or_iff_left (hTakes i))
  have hOnce : ∀ i, FiresOnce i (st.note (.ticked now count)).history ↔ FiresOnce i st.history :=
    fun i => firesOnce_note_of_none rfl
  have hBegun : ∀ i, Begun i (st.note (.ticked now count)).history ↔ Begun i st.history :=
    fun i => begun_note_of_none rfl
  constructor
  · intro _
    rw [hhistory, inFlight_note]
    rfl
  · intro i hi
    cases hi
  · intro i
    rw [hIssued, hTaken, hOnce, hBegun]
    exact h.present i
  · intro e he
    rw [hOnce]
    exact h.modes e he
  · intro i hi
    rw [hTaken, hOnce, hBegun] at hi
    rw [hIssued]
    exact h.known i hi
  · exact h.settled_note fun i _ => ⟨hTakes i, (Option.some_ne_none i).symm⟩
  · exact h.answered_note (by intro t id found heq; cases heq)

end

/-- Queue and history agree at every step of a run. -/
theorem lasting_reckoned : Lasting (Reckoned (σ := σ) (τ := τ)) where
  think h _ := ⟨h.flight, h.launched, h.present, h.modes, h.known, h.settled, h.answered⟩
  submit _ horder h task lane mode := h.submit horder task lane mode
  cancel hwork _ h id := h.cancel hwork id
  skip _ h _ := ⟨fun hwork => hwork.elim, h.launched, h.present, h.modes, h.known, h.settled, h.answered⟩
  launch _ h htask hnumber := h.launch (has_of_task? htask) hnumber
  land _ h _ := h.land _
  dawn _ h := ⟨fun hwork => hwork.elim, h.launched, h.present, h.modes, h.known, h.settled, h.answered⟩
  dusk _ h count := h.dusk _ count

/-! ## The answers -/

/-- What can have become of a task. -/
inductive Fate where
  | waiting
  | inFlight
  | cancelled
  | completed
deriving DecidableEq

/-- This is what has become of a task. -/
def Fate.Of (st : Stage σ τ) (id : ℕ) : Fate → Prop
  | .waiting => ∃ e ∈ st.runner.queue, e.id = id ∧ e.task ≠ none
  | .inFlight => TickRunner.inFlight st.history = some id ∧ ∃ e ∈ st.runner.queue, e.id = id ∧ e.task = none
  | .cancelled => TakenOut id st.history
  | .completed => Over id st.history ∧ ¬ TakenOut id st.history

/-- What a runner answers is true. -/
structure Truthful (st : Stage σ τ) : Prop where
  /-- Numbers grow, so that none is used twice. -/
  increasing : (st.history.filterMap Event.number?).Pairwise (· < ·)
  /-- A cancel now would find what is still to be reckoned with. -/
  answers : ∀ id, (st.runner.cancel id).1 = true ↔ Outstanding id.raw st.history
  /-- Every cancel so far has found what was then still to be reckoned with. -/
  answered : ∀ before t id found after, st.history = before ++ .cancelled t id found :: after →
    (found = true ↔ Outstanding id before)
  /-- A cancel that takes out a task is the only one, and the task never fires again. -/
  final : ∀ before t id after, st.history = before ++ .cancelled t id true :: after →
    ¬ TakenOut id after ∧ ¬ Begun id after
  /-- The tasks that a cancel would find are those that are counted. -/
  counted : ∃ ids : List ℕ, ids.Nodup ∧ (∀ id, id ∈ ids ↔ (st.runner.cancel ⟨id⟩).1 = true) ∧
    st.runner.pending = ids.length
  /-- Every task has one fate. -/
  fated : ∀ id, Issued id st.history → ∃! fate : Fate, fate.Of st id

section

variable {sit : Situation} {st : Stage σ τ}

theorem Reckoned.final (h : Reckoned sit st) {before after : List Event} {t id : ℕ}
    (hsplit : st.history = before ++ .cancelled t id true :: after) : ¬ TakenOut id after ∧ ¬ Begun id after := by
  have hpairs := h.settled
  rw [hsplit] at hpairs
  have hrest := (List.pairwise_cons.mp (List.pairwise_append.mp hpairs).2.1).1
  constructor
  · rintro ⟨e, he, htakes⟩
    exact (hrest e he id ⟨t, rfl⟩).1 htakes
  · rintro ⟨e, he, hstarts⟩
    exact (hrest e he id ⟨t, rfl⟩).2 hstarts

/-- The entries of the queue are counted, and each has its own number. -/
theorem InOrder.counted {flying : Option ℕ} (h : InOrder flying st) :
    ∃ ids : List ℕ, ids.Nodup ∧ (∀ id, id ∈ ids ↔ (st.runner.cancel ⟨id⟩).1 = true) ∧
      st.runner.pending = ids.length := by
  refine ⟨st.runner.queue.map Waiting.id, ?_, ?_, ?_⟩
  · exact List.pairwise_map.mpr (h.entries.ordered.imp Nat.ne_of_lt)
  · intro id
    rw [cancel_eq_true_iff, List.mem_map]
    rfl
  · exact (List.length_map _).symm

/-- A task is in the queue, with its task or in flight, or it was cancelled, or it is completed. -/
theorem Reckoned.fated (h : Reckoned sit st) (hwork : sit.AtWork) (horder : InOrder sit.flying st) {id : ℕ}
    (hissued : Issued id st.history) : ∃! fate : Fate, fate.Of st id := by
  have hpresent : st.runner.Has id ↔ Outstanding id st.history := by
    rw [h.present, ← h.flight hwork]
    exact Iff.rfl
  by_cases hhas : st.runner.Has id
  · obtain ⟨-, hnot, hover⟩ := hpresent.mp hhas
    obtain ⟨e, he, rfl⟩ := hhas
    -- there is one entry of the task, which either holds it or has given it out
    have hsame : ∀ e' ∈ st.runner.queue, e'.id = e.id → e' = e :=
      fun e' he' hid => horder.entries.ordered.eq_of_id he' he hid
    by_cases htask : e.task = none
    · have hflying : TickRunner.inFlight st.history = some e.id := by
        rw [h.flight hwork]
        exact (horder.entries.held e he).mp htask
      refine ⟨.inFlight, ⟨hflying, e, he, rfl, htask⟩, ?_⟩
      intro fate hfate
      cases fate with
      | waiting =>
        obtain ⟨e', he', hid, hheld⟩ := hfate
        exact absurd htask (hsame e' he' hid ▸ hheld)
      | inFlight => rfl
      | cancelled => exact absurd hfate hnot
      | completed => exact absurd hfate.1 hover
    · refine ⟨.waiting, ⟨e, he, rfl, htask⟩, ?_⟩
      intro fate hfate
      cases fate with
      | waiting => rfl
      | inFlight =>
        obtain ⟨-, e', he', hid, hnone⟩ := hfate
        exact absurd (hsame e' he' hid ▸ hnone) htask
      | cancelled => exact absurd hfate hnot
      | completed => exact absurd hfate.1 hover
  · have hgone : ∀ e ∈ st.runner.queue, e.id ≠ id := fun e he hid => hhas ⟨e, he, hid⟩
    -- without an entry the task was taken out or is over
    by_cases htaken : TakenOut id st.history
    · refine ⟨.cancelled, htaken, ?_⟩
      intro fate hfate
      cases fate with
      | waiting =>
        obtain ⟨e, he, hid, -⟩ := hfate
        exact absurd hid (hgone e he)
      | inFlight =>
        obtain ⟨-, e, he, hid, -⟩ := hfate
        exact absurd hid (hgone e he)
      | cancelled => rfl
      | completed => exact absurd htaken hfate.2
    · have hover : Over id st.history := by
        by_contra hnot
        exact hhas (hpresent.mpr ⟨hissued, htaken, hnot⟩)
      refine ⟨.completed, ⟨hover, htaken⟩, ?_⟩
      intro fate hfate
      cases fate with
      | waiting =>
        obtain ⟨e, he, hid, -⟩ := hfate
        exact absurd hid (hgone e he)
      | inFlight =>
        obtain ⟨-, e, he, hid, -⟩ := hfate
        exact absurd hid (hgone e he)
      | cancelled => exact absurd hfate htaken
      | completed => rfl

end

/-- At every moment of every run, between ticks and in the middle of a firing: numbers grow, cancels find exactly the
tasks that were submitted, not cancelled and not completed, a cancelled task stays so and does not fire, the number of
waiting tasks is that of the tasks a cancel would find, and every task has one fate. -/
theorem answers_are_true (body : τ → Deed σ τ) (turns : List (Turn σ τ)) (own : σ) :
    ∀ st ∈ moments body turns own, Truthful st := by
  intro st hst
  obtain ⟨-, hmoments⟩ := lasting_reckoned.run body turns own (reckoned_empty own)
  obtain ⟨sit, hwork, horder, h⟩ := hmoments st hst
  constructor
  · -- tasks are numbered as they are submitted
    rw [horder.numbers]
    exact List.pairwise_lt_range'
  · exact h.cancel_iff hwork
  · exact h.answered
  · intro before t id after hsplit
    exact h.final hsplit
  · exact horder.counted
  · intro id hissued
    exact h.fated hwork horder hissued

/-- In the middle of a tick, when a task that fires has cancelled another that is due then. -/
theorem answers_are_true_mid_tick :
    ∃ st ∈ moments (fun _ : Unit => (Deed.cancel ⟨2⟩ fun _ => .done : Deed Unit Unit))
        [.act (.submit () .sync (.repeating 1 2) fun _ =>
          .submit () .async .immediate fun _ => .done), .tick] (),
      st.history = [.submitted 0 1 .sync (.repeating 1 2), .submitted 0 2 .async .immediate,
        .fired 1 1, .cancelled 1 2 true] ∧ Truthful st := by
  have hmem := List.getElem_mem (n := 6)
    (l := moments (fun _ : Unit => (Deed.cancel ⟨2⟩ fun _ => .done : Deed Unit Unit))
      [.act (.submit () .sync (.repeating 1 2) fun _ =>
        .submit () .async .immediate fun _ => .done), .tick] ()) (by decide)
  exact ⟨_, hmem, by rfl, answers_are_true _ _ () _ hmem⟩

end TickRunner
end ScriptHost
