import Mathlib.Data.List.Basic
import ScriptHost.Proofs.Tasks.Errand

/-!
# The timetable of one script

What a script sees of its tasks, told without the others (`Item`): its own submissions and cancels with their
answers, the turns of its tasks, and what it has after each tick. Its tasks are told by rank, in the order of
submission, since their numbers depend on what the others submit.

A timetable is a script's own tasks and nothing else. Given what the script asks for, it leaves no choice about
what happens next (`Step.unique`), so that two tales it has told are the same if the script asked for the same
at every place and as many ticks passed (`Tells.unique`).
-/

namespace ScriptHost
namespace Tasks

/-! ## Tales -/

/-- Where code acts for a script. -/
inductive Place where
  /-- Between ticks, when so many have passed. -/
  | between (ticks : ℕ)
  /-- In a tick, while the script's task of a rank fires. -/
  | during (tick rank : ℕ)
  /-- In a tick, while none of the script's tasks fires, and as many of them have. -/
  | beside (tick turns : ℕ)
deriving DecidableEq

/-- What is asked for on behalf of a script. -/
inductive Call where
  | submit (lane : Lane) (mode : Mode)
  | cancel (rank : ℕ)
  | cancelAll
deriving DecidableEq

/-- What a script sees. -/
inductive Item where
  | submitted (place : Place) (lane : Lane) (mode : Mode) (granted : Bool)
  | cancelled (place : Place) (rank : ℕ) (answer : Except HostError Bool)
  | cancelledAll (place : Place) (summary : CancelSummary)
  | dawned (tick : ℕ)
  | began (tick rank : ℕ)
  | ended (tick rank : ℕ)
  /-- The end of a tick: for each task of the script, in order, whether it has a pin. -/
  | ticked (tick : ℕ) (pins : List Bool)

/-- What was asked for, and where. -/
def Item.call? : Item → Option (Place × Call)
  | .submitted place lane mode _ => some (place, .submit lane mode)
  | .cancelled place rank _ => some (place, .cancel rank)
  | .cancelledAll place _ => some (place, .cancelAll)
  | _ => none

/-- What was asked for at a place, in order. -/
def callsAt (place : Place) (tale : List Item) : List Call :=
  ((tale.filterMap Item.call?).filter fun c => c.1 == place).map Prod.snd

theorem callsAt_congr {tale tale' : List Item}
    (h : tale.filterMap Item.call? = tale'.filterMap Item.call?) (place : Place) :
    callsAt place tale = callsAt place tale' := by
  unfold callsAt
  rw [h]

theorem callsAt_cons_none {i : Item} (h : i.call? = none) (place : Place) (tale : List Item) :
    callsAt place (i :: tale) = callsAt place tale := by
  unfold callsAt
  rw [List.filterMap_cons_none h]

theorem callsAt_cons_here {i : Item} {place : Place} {c : Call} (h : i.call? = some (place, c))
    (tale : List Item) : callsAt place (i :: tale) = c :: callsAt place tale := by
  unfold callsAt
  rw [List.filterMap_cons_some h, List.filter_cons_of_pos (by simp), List.map_cons]

theorem callsAt_cons_elsewhere {i : Item} {place p : Place} {c : Call} (h : i.call? = some (p, c))
    (hne : p ≠ place) (tale : List Item) : callsAt place (i :: tale) = callsAt place tale := by
  unfold callsAt
  rw [List.filterMap_cons_some h, List.filter_cons_of_neg (by simpa using hne)]

/-! ## Timetables -/

/-- A task of the script. -/
structure OwnTask where
  rank : ℕ
  lane : Lane
  due : ℕ
  interval : Option ℕ
  hasPin : Bool

/-- Where a timetable is: between ticks, in a tick, or in the turn of a task. -/
inductive Stage where
  | between
  | waiting
  | firing (rank : ℕ)

/-- The current tick, how many tasks were submitted, those that are left, those that have their turns ahead of
them in this tick, and how many have had them. -/
structure Timetable where
  now : ℕ := 0
  count : ℕ := 0
  tasks : List OwnTask := []
  todo : List ℕ := []
  turns : ℕ := 0
  stage : Stage := .between

namespace Timetable

/-- The place at which the script would act now. -/
def place (T : Timetable) : Place :=
  match T.stage with
  | .between => .between T.now
  | .waiting => .beside T.now T.turns
  | .firing rank => .during T.now rank

/-- Whether a task is left. -/
def has (T : Timetable) (rank : ℕ) : Bool := T.tasks.any fun t => t.rank == rank

/-- One more task. -/
def submit (T : Timetable) (lane : Lane) (mode : Mode) : Timetable :=
  { T with
    count := T.count + 1
    tasks := T.tasks ++ [⟨T.count, lane, mode.firstDue T.now, mode.interval?, mode.isTracked⟩] }

/-- A task less. -/
def without (T : Timetable) (rank : ℕ) : Timetable :=
  { T with
    tasks := T.tasks.filter fun t => t.rank != rank
    todo := T.todo.filter fun i => i != rank }

/-- No tasks. -/
def clear (T : Timetable) : Timetable := { T with tasks := [], todo := [] }

/-- The tasks of a lane that are due. -/
def dueIn (T : Timetable) (lane : Lane) : List ℕ :=
  (T.tasks.filter fun t => t.lane == lane && decide (t.due ≤ T.now)).map OwnTask.rank

/-- The next tick begins; the sync lane fires before the async lane. -/
def dawn (T : Timetable) : Timetable :=
  let next := { T with now := T.now + 1, turns := 0, stage := .waiting }
  { next with todo := next.dueIn .sync ++ next.dueIn .async }

/-- What becomes of a task that has had its turn. -/
def settled? (now rank : ℕ) (t : OwnTask) : Option OwnTask :=
  if t.rank = rank then t.interval.map fun n => { t with due := ticksLater now n } else some t

/-- The turn of a task ends. -/
def settle (T : Timetable) (rank : ℕ) : Timetable :=
  { T with tasks := T.tasks.filterMap (settled? T.now rank), stage := .waiting }

end Timetable

/-- What can happen next, by a timetable. -/
inductive Step : Timetable → Item → Timetable → Prop
  | submit (T : Timetable) (lane : Lane) (mode : Mode) :
    Step T (.submitted T.place lane mode true) (T.submit lane mode)
  | cancel (T : Timetable) (rank : ℕ) :
    Step T (.cancelled T.place rank (.ok (T.has rank))) (T.without rank)
  | cancelAll (T : Timetable) :
    Step T (.cancelledAll T.place ⟨T.tasks.length, T.tasks.countP OwnTask.hasPin⟩) T.clear
  | dawn (T : Timetable) (hstage : T.stage = .between) : Step T (.dawned (T.now + 1)) T.dawn
  /-- The first of those that are still left has its turn, and has no other in this tick. -/
  | begin (T : Timetable) (rank : ℕ) (todo : List ℕ) (hstage : T.stage = .waiting)
    (hnext : T.todo = rank :: todo) (honce : rank ∉ todo) :
    Step T (.began T.now rank)
      { T with todo := todo, turns := T.turns + 1, stage := .firing rank }
  | settle (T : Timetable) (rank : ℕ) (hstage : T.stage = .firing rank) :
    Step T (.ended T.now rank) (T.settle rank)
  | dusk (T : Timetable) (hstage : T.stage = .waiting) (hnone : T.todo = []) :
    Step T (.ticked T.now (T.tasks.map OwnTask.hasPin)) { T with stage := .between }

/-- A timetable tells a tale. -/
inductive Tells : Timetable → List Item → Timetable → Prop
  | nil (T : Timetable) : Tells T [] T
  | cons {T T' T'' : Timetable} {i : Item} {tale : List Item} (hstep : Step T i T')
    (hrest : Tells T' tale T'') : Tells T (i :: tale) T''

variable {T T' T'' : Timetable} {i j : Item} {tale : List Item} {p : Place}

theorem Tells.snoc (h : Tells T tale T') (hstep : Step T' i T'') : Tells T (tale ++ [i]) T'' := by
  induction h with
  | nil T => exact .cons hstep (.nil _)
  | cons hfirst _ ih => exact .cons hfirst (ih hstep)

/-! ## One tale for one script -/

/-- What is asked for is asked for here and now. -/
theorem Step.place (hstep : Step T i T') {c : Call} (hcall : i.call? = some (p, c)) :
    p = T.place := by
  cases hstep <;> cases hcall <;> rfl

/-- A timetable leaves no choice but what to ask for. -/
theorem Step.unique (hi : Step T i T') (hj : Step T j T'') (hcall : i.call? = j.call?) :
    i = j ∧ T' = T'' := by
  -- calls are what the two have in common; else the stage leaves one thing to do
  cases hi with
  | submit lane mode => cases hj <;> cases hcall; exact ⟨rfl, rfl⟩
  | cancel rank => cases hj <;> cases hcall; exact ⟨rfl, rfl⟩
  | cancelAll => cases hj <;> cases hcall; exact ⟨rfl, rfl⟩
  | dawn hstage =>
    cases hj with
    | dawn _ => exact ⟨rfl, rfl⟩
    | begin rank todo hstage' _ _ => rw [hstage] at hstage'; cases hstage'
    | settle rank hstage' => rw [hstage] at hstage'; cases hstage'
    | dusk hstage' _ => rw [hstage] at hstage'; cases hstage'
    | _ => cases hcall
  | begin rank todo hstage hnext _ =>
    cases hj with
    | begin rank' todo' _ hnext' _ =>
      obtain ⟨rfl, rfl⟩ := List.cons.inj (hnext.symm.trans hnext')
      exact ⟨rfl, rfl⟩
    | dawn hstage' => rw [hstage] at hstage'; cases hstage'
    | settle rank hstage' => rw [hstage] at hstage'; cases hstage'
    | dusk _ hnone => rw [hnext] at hnone; cases hnone
    | _ => cases hcall
  | settle rank hstage =>
    cases hj with
    | settle rank' hstage' =>
      obtain rfl := Stage.firing.inj (hstage.symm.trans hstage')
      exact ⟨rfl, rfl⟩
    | dawn hstage' => rw [hstage] at hstage'; cases hstage'
    | begin rank todo hstage' _ _ => rw [hstage] at hstage'; cases hstage'
    | dusk hstage' _ => rw [hstage] at hstage'; cases hstage'
    | _ => cases hcall
  | dusk hstage hnone =>
    cases hj with
    | dusk _ _ => exact ⟨rfl, rfl⟩
    | dawn hstage' => rw [hstage] at hstage'; cases hstage'
    | begin rank todo _ hnext _ => rw [hnone] at hnext; cases hnext
    | settle rank hstage' => rw [hstage] at hstage'; cases hstage'
    | _ => cases hcall

/-- The place is yet to come, or has come. -/
def Timetable.Ahead (T : Timetable) : Place → Prop
  | .between n => T.now ≤ n
  | .beside n turns => T.now < n ∨ T.now = n ∧ T.stage ≠ .between ∧ T.turns ≤ turns
  | .during n rank =>
    T.now < n ∨ T.now = n ∧ (T.stage = .firing rank ∨ T.stage ≠ .between ∧ rank ∈ T.todo)

theorem Timetable.ahead_place (T : Timetable) : T.Ahead T.place := by
  cases hstage : T.stage <;> simp [Timetable.place, Timetable.Ahead, hstage]

/-- What is ahead after a step was ahead before it. -/
theorem Step.ahead (hstep : Step T i T') (hp : T'.Ahead p) : T.Ahead p := by
  cases hstep with
  | submit lane mode => cases p <;> exact hp
  | cancel rank =>
    cases p with
    | during n r =>
      refine hp.imp_right fun ⟨hn, hr⟩ => ⟨hn, hr.imp_right fun ⟨hstage, hr⟩ => ⟨hstage, ?_⟩⟩
      exact (List.mem_filter.mp hr).1
    | _ => exact hp
  | cancelAll =>
    cases p with
    | during n r =>
      exact hp.imp_right fun ⟨hn, hr⟩ => ⟨hn, hr.imp_right fun ⟨_, hr⟩ => nomatch hr⟩
    | _ => exact hp
  | dawn hstage =>
    -- the places of the next tick come later than any of this one
    have hnow : T.dawn.now = T.now + 1 := rfl
    cases p with
    | between n => exact Nat.le_of_succ_le hp
    | beside n turns =>
      refine .inl ?_
      rcases hp with hlt | ⟨heq, _⟩ <;> omega
    | during n r =>
      refine .inl ?_
      rcases hp with hlt | ⟨heq, _⟩ <;> omega
  | begin rank todo hstage hnext _ =>
    have hnot : T.stage ≠ .between := by simp [hstage]
    cases p with
    | between n => exact hp
    | beside n turns =>
      exact hp.imp_right fun ⟨hn, _, hturns⟩ => ⟨hn, hnot, Nat.le_of_succ_le hturns⟩
    | during n r =>
      refine hp.imp_right fun ⟨hn, hr⟩ => ⟨hn, .inr ⟨hnot, ?_⟩⟩
      rw [hnext]
      rcases hr with hr | ⟨_, hr⟩
      · rw [Stage.firing.inj hr]
        exact List.mem_cons_self
      · exact List.mem_cons_of_mem _ hr
  | settle rank hstage =>
    have hnot : T.stage ≠ .between := by simp [hstage]
    cases p with
    | between n => exact hp
    | beside n turns => exact hp.imp_right fun ⟨hn, _, hturns⟩ => ⟨hn, hnot, hturns⟩
    | during n r =>
      refine hp.imp_right fun ⟨hn, hr⟩ => ⟨hn, .inr ⟨hnot, ?_⟩⟩
      rcases hr with hr | ⟨_, hr⟩
      · cases hr
      · exact hr
  | dusk hstage _ =>
    cases p with
    | between n => exact hp
    | beside n turns => exact .inl (hp.resolve_right fun ⟨_, hnot, _⟩ => hnot rfl)
    | during n r =>
      refine .inl (hp.resolve_right fun ⟨_, hr⟩ => ?_)
      rcases hr with hr | ⟨hnot, _⟩
      · cases hr
      · exact hnot rfl

/-- The task whose turn it is has no other turn ahead of it in the tick. -/
def Timetable.OneTurn (T : Timetable) : Prop := ∀ rank, T.stage = .firing rank → rank ∉ T.todo

theorem Step.oneTurn (hstep : Step T i T') (hone : T.OneTurn) : T'.OneTurn := by
  cases hstep with
  | submit lane mode => exact hone
  | cancel rank => exact fun r hr hmem => hone r hr (List.mem_filter.mp hmem).1
  | cancelAll => exact fun r _ hmem => nomatch hmem
  | dawn hstage => exact fun r hr => nomatch hr
  | begin rank todo hstage hnext honce =>
    intro r hr
    rw [← Stage.firing.inj hr]
    exact honce
  | settle rank hstage => exact fun r hr => nomatch hr
  | dusk hstage hnone => exact fun r hr => nomatch hr

/-- When something happens that was not asked for, the place does not come again. -/
theorem Step.leaves (hstep : Step T i T') (hone : T.OneTurn) (hcall : i.call? = none) :
    ¬ T'.Ahead T.place := by
  unfold Timetable.place
  cases hstep with
  | submit lane mode => cases hcall
  | cancel rank => cases hcall
  | cancelAll => cases hcall
  | dawn hstage =>
    rw [hstage]
    exact Nat.not_succ_le_self T.now
  | begin rank todo hstage hnext honce =>
    rw [hstage]
    rintro (hlt | ⟨_, _, hturns⟩)
    · exact absurd hlt (Nat.lt_irrefl _)
    · exact absurd hturns (Nat.not_succ_le_self _)
  | settle rank hstage =>
    rw [hstage]
    rintro (hlt | ⟨_, hr | ⟨_, hr⟩⟩)
    · exact absurd hlt (Nat.lt_irrefl _)
    · cases hr
    · exact hone rank hstage hr
  | dusk hstage hnone =>
    rw [hstage]
    rintro (hlt | ⟨_, hnot, _⟩)
    · exact absurd hlt (Nat.lt_irrefl _)
    · exact hnot rfl

/-- What is asked for is asked for at a place ahead. -/
theorem Tells.ahead (h : Tells T tale T') (hcalls : callsAt p tale ≠ []) : T.Ahead p := by
  induction h with
  | nil T => exact absurd rfl hcalls
  | @cons T T₁ T₂ i tale hstep hrest ih =>
    cases hcall : i.call? with
    | none =>
      rw [callsAt_cons_none hcall] at hcalls
      exact hstep.ahead (ih hcalls)
    | some c =>
      obtain ⟨place, c⟩ := c
      by_cases hp : place = p
      · rw [← hp, hstep.place hcall]
        exact T.ahead_place
      · rw [callsAt_cons_elsewhere hcall hp] at hcalls
        exact hstep.ahead (ih hcalls)

theorem Step.now_le (hstep : Step T i T') : T.now ≤ T'.now := by
  cases hstep with
  | dawn hstage => exact Nat.le_succ _
  | _ => exact Nat.le_refl _

theorem Tells.now_le (h : Tells T tale T') : T.now ≤ T'.now := by
  induction h with
  | nil T => exact Nat.le_refl _
  | cons hstep _ ih => exact Nat.le_trans hstep.now_le ih

/-- Between ticks nothing happens that was not asked for, except that a tick begins. -/
theorem Step.dawns (hstep : Step T i T') (hstage : T.stage = .between) (hcall : i.call? = none) :
    T'.now = T.now + 1 := by
  cases hstep with
  | dawn _ => rfl
  | begin rank todo hstage' _ _ => rw [hstage] at hstage'; cases hstage'
  | settle rank hstage' => rw [hstage] at hstage'; cases hstage'
  | dusk hstage' _ => rw [hstage] at hstage'; cases hstage'
  | _ => cases hcall

/-- A tale that goes on between ticks asks for something, or a tick passes in it. -/
theorem Tells.not_over (h : Tells T (i :: tale) T') (hstage : T.stage = .between)
    (hnow : T'.now = T.now) : callsAt T.place (i :: tale) ≠ [] := by
  cases h with
  | @cons _ T₁ _ _ _ hstep hrest =>
    cases hcall : i.call? with
    | none =>
      have hdawn := hstep.dawns hstage hcall
      have hle := hrest.now_le
      omega
    | some c =>
      obtain ⟨place, c⟩ := c
      obtain rfl := hstep.place hcall
      rw [callsAt_cons_here hcall]
      exact List.cons_ne_nil _ _

/-- Something that was not asked for cannot take the place of something that was. -/
theorem Step.not_instead {tale' : List Item} {c : Place × Call} (hone : T.OneTurn)
    (hi : Step T i T') (hcall : i.call? = some c) (hj : Step T j T'') (hnone : j.call? = none)
    (hrest : Tells T'' tale' T₂) : callsAt T.place (i :: tale) ≠ callsAt T.place (j :: tale') := by
  obtain ⟨place, c⟩ := c
  obtain rfl := hi.place hcall
  rw [callsAt_cons_here hcall, callsAt_cons_none hnone]
  intro heq
  -- the other tale would have to come back to the place, to ask for it there
  have hahead : T''.Ahead T.place := hrest.ahead (by rw [← heq]; exact List.cons_ne_nil _ _)
  exact hj.leaves hone hnone hahead

/-- **A timetable tells one tale.** Two tales that it tells between ticks are the same if as many ticks pass in
them and the same is asked for at every place. -/
theorem Tells.unique {T₁ T₂ : Timetable} {tale' : List Item} (h₁ : Tells T tale T₁)
    (h₂ : Tells T tale' T₂) (hone : T.OneTurn) (hend₁ : T₁.stage = .between)
    (hend₂ : T₂.stage = .between) (hnow : T₁.now = T₂.now)
    (hcalls : ∀ place, callsAt place tale = callsAt place tale') : tale = tale' := by
  induction h₁ generalizing tale' with
  | nil T =>
    cases h₂ with
    | nil _ => rfl
    | @cons _ T₃ _ j tale' hstep hrest =>
      exact absurd (hcalls _).symm (Tells.not_over (.cons hstep hrest) hend₁ hnow.symm)
  | @cons T T₃ T₁ i tale hstep hrest ih =>
    cases h₂ with
    | nil _ =>
      exact absurd (hcalls _) (Tells.not_over (.cons hstep hrest) hend₂ hnow)
    | @cons _ T₄ _ j tale' hstep' hrest' =>
      cases hi : i.call? with
      | none =>
        cases hj : j.call? with
        | none =>
          -- neither was asked for, and the timetable leaves no choice
          obtain ⟨rfl, rfl⟩ := hstep.unique hstep' (hi.trans hj.symm)
          congr 1
          refine ih hrest' (hstep.oneTurn hone) hend₁ hnow fun place => ?_
          have hplace := hcalls place
          rwa [callsAt_cons_none hi, callsAt_cons_none hi] at hplace
        | some c => exact absurd (hcalls T.place).symm (hstep'.not_instead hone hj hstep hi hrest)
      | some c =>
        cases hj : j.call? with
        | none => exact absurd (hcalls T.place) (hstep.not_instead hone hi hstep' hj hrest')
        | some c' =>
          -- both were asked for, here, and so the same
          obtain ⟨place, c⟩ := c
          obtain ⟨place', c'⟩ := c'
          obtain rfl := hstep.place hi
          obtain rfl := hstep'.place hj
          have hhere := hcalls T.place
          rw [callsAt_cons_here hi, callsAt_cons_here hj] at hhere
          obtain ⟨rfl, _⟩ := List.cons.inj hhere
          obtain ⟨rfl, rfl⟩ := hstep.unique hstep' (hi.trans hj.symm)
          congr 1
          refine ih hrest' (hstep.oneTurn hone) hend₁ hnow fun place => ?_
          have hplace := hcalls place
          by_cases hp : T.place = place
          · rw [← hp] at hplace ⊢
            rw [callsAt_cons_here hi, callsAt_cons_here hi] at hplace
            exact (List.cons.inj hplace).2
          · rwa [callsAt_cons_elsewhere hi hp, callsAt_cons_elsewhere hi hp] at hplace

end Tasks
end ScriptHost
