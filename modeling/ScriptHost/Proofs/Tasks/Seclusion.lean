import ScriptHost.Proofs.Tasks.Tale

/-!
# Scripts do not disturb each other's tasks

In every run, whatever is done for others, the tale of a script is told by a timetable of its own tasks
(`steady_watched`). A timetable tells one tale for what the script asks for, so that in two runs in which it asks for
the same, a script sees the same (`script_undisturbed`).
-/

namespace ScriptHost
namespace Tasks

open Scheduler

variable {σ α : Type} {a : String} {events : List (Event α)} {sit sit' : Situation α}
  {r r' : TickRunner (Submission α)} {s s' : Scheduler α}

/-- The tale of a script so far is told by a timetable, which mirrors what there is of the script. -/
def Watched (a : String) (events : List (Event α)) (sit : Situation α)
    (r : TickRunner (Submission α)) (s : Scheduler α) : Prop :=
  ∃ T, Tells {} (told a events).2 T ∧ Mirror a sit (told a events).1 T r s

/-- Something happens that the script does not see. -/
theorem Watched.pass (hw : Watched a events sit r s) {e : Event α}
    (hsilent : ∀ t : Teller, t.hear a e = (t, []))
    (hmirror : ∀ t T, Mirror a sit t T r s → Mirror a sit' t T r' s') :
    Watched a (events ++ [e]) sit' r' s' := by
  obtain ⟨T, htells, hm⟩ := hw
  refine ⟨T, ?_, ?_⟩
  · rw [told_note, hsilent, List.append_nil]
    exact htells
  · rw [told_note, hsilent]
    exact hmirror _ T hm

/-- Something happens that the script sees. -/
theorem Watched.tell (hw : Watched a events sit r s) {e : Event α}
    (hstep : ∀ t T, Mirror a sit t T r s → ∃ i T', (t.hear a e).2 = [i] ∧ Step T i T' ∧
      Mirror a sit' (t.hear a e).1 T' r' s') :
    Watched a (events ++ [e]) sit' r' s' := by
  obtain ⟨T, htells, hm⟩ := hw
  obtain ⟨i, T', htold, hstep, hm'⟩ := hstep _ T hm
  refine ⟨T', ?_, ?_⟩
  · rw [told_note, htold]
    exact htells.snoc hstep
  · rw [told_note]
    exact hm'

/-- The tale of a script is told by a timetable after every step. -/
theorem steady_watched (a : String) :
    Steady fun (sit : Situation α) (h : Host (Diary σ α) α) =>
      Watched a h.guest.events sit h.runner h.scheduler := by
  constructor
  case log => exact fun hw _ => hw
  case think => exact fun hw _ => hw
  case moment => exact fun _ hw => hw.pass (fun _ => rfl) fun _ _ hm => hm
  -- calls for the script, and what its tasks do, are told; the rest passes it by
  case submit =>
    intro sit h hagree hw script callable lane mode
    by_cases hown : script = a
    · subst hown
      refine hw.tell fun t T hm => ⟨_, _, ?_, .submit T lane mode, ?_⟩
      · rw [Teller.hear, if_pos rfl, hm.place]
        rfl
      · rw [Teller.hear, if_pos rfl]
        exact hm.submit_own hagree callable lane mode
    · exact hw.pass (fun t => if_neg hown) fun t T hm => hm.submit_other hown callable lane mode
  case decline =>
    intro sit h hagree hw script id hother
    by_cases hown : script = a
    · subst hown
      -- what is owned by others is not tracked for the script, so the timetable finds nothing either
      have hnot := isTracked_of_ownedByOther hagree hother
      refine hw.tell fun t T hm => ⟨_, _, ?_, .cancel T (t.rank id), ?_⟩
      · rw [Teller.hear, if_pos rfl, hm.place, hm.has_rank, hnot]
      · rw [Teller.hear, if_pos rfl]
        exact hm.decline_own hnot
    · exact hw.pass (fun t => if_neg hown) fun t T hm => hm
  case cancel =>
    intro sit h hagree hw script id hnot
    by_cases hown : script = a
    · subst hown
      refine hw.tell fun t T hm => ⟨_, _, ?_, .cancel T (t.rank id), ?_⟩
      · rw [Teller.hear, if_pos rfl, hm.place, hm.has_rank, found_eq hagree hnot]
      · rw [Teller.hear, if_pos rfl]
        exact hm.cancel_own hagree id
    · exact hw.pass (fun t => if_neg hown) fun t T hm => hm.cancel_other hown hnot
  case cancelAll =>
    intro sit h hagree hw script
    by_cases hown : script = a
    · subst hown
      refine hw.tell fun t T hm => ⟨_, _, ?_, .cancelAll T, ?_⟩
      · rw [Teller.hear, if_pos rfl, hm.place, hm.summary]
      · rw [Teller.hear, if_pos rfl]
        exact hm.clear
    · exact hw.pass (fun t => if_neg hown) fun t T hm => hm.cancelAll_other hagree hown
  case dawn =>
    intro h hagree hw
    refine hw.tell fun t T hm => ⟨_, _, ?_, .dawn T hm.stage, hm.dawn hagree⟩
    rw [Teller.hear, hm.ticks]
  case skip =>
    intro h id rest hagree hw hnone
    obtain ⟨T, htells, hm⟩ := hw
    exact ⟨T, htells, hm.skip hagree hnone⟩
  case launch =>
    intro h id task rest hagree hw htask
    by_cases hown : task.script = a
    · refine hw.tell fun t T hm => ?_
      obtain ⟨todo, hstep, hm'⟩ := hm.launch_own hagree htask hown
      refine ⟨_, _, ?_, hstep, ?_⟩
      · rw [Teller.hear, if_pos hown]
      · rw [Teller.hear, if_pos hown]
        exact hm'
    · exact hw.pass (fun t => if_neg hown) fun t T hm => hm.launch_other hagree htask hown
  case land =>
    intro h id task rest hagree hw
    by_cases hown : task.script = a
    · refine hw.tell fun t T hm => ?_
      obtain ⟨hstep, hm'⟩ := hm.land_own hagree hown rfl
      refine ⟨_, _, ?_, hstep, ?_⟩
      · rw [Teller.hear, if_pos hown]
      · rw [Teller.hear, if_pos hown]
        exact hm'
    · exact hw.pass (fun t => if_neg hown) fun t T hm => hm.land_other hown rfl
  case dusk =>
    intro h hagree hw
    refine hw.tell fun t T hm => ?_
    obtain ⟨hstep, hm'⟩ := hm.dusk
    exact ⟨_, _, rfl, hstep, hm'⟩

/-- After every run the tale of a script is told by a timetable, between ticks, when as many have passed. -/
theorem taleOf_run (a : String) (body : α → Errand σ α) (turns : List (Turn σ α)) (own : σ) :
    ∃ T, Tells {} (taleOf a (run body turns own).guest.events) T ∧ T.stage = .between ∧
      T.now = ticksIn turns := by
  obtain ⟨hrun, hnow⟩ := (steady_watched a).run body turns own ⟨{}, .nil _, mirror_empty a⟩
  obtain ⟨T, htells, hm⟩ := hrun.holds
  exact ⟨T, htells, hm.stage, hm.now.trans hnow⟩

/-- **Scripts do not disturb each other's tasks.** Take two runs with as many ticks, of any host code and any tasks,
in which the same is asked for on behalf of a script at every place: between the same ticks, from the same firings of
its own, or while tasks of others fire. Then the script sees the same: the answers to its calls, the turns of its
tasks in their order and ticks, and after every tick its tasks with and without pins. And whenever another script
cancels a task that is tracked for it, nothing is found and nothing changes. -/
theorem script_undisturbed {σ₁ σ₂ α₁ α₂ : Type} (a : String) (body₁ : α₁ → Errand σ₁ α₁)
    (turns₁ : List (Turn σ₁ α₁)) (own₁ : σ₁) (body₂ : α₂ → Errand σ₂ α₂)
    (turns₂ : List (Turn σ₂ α₂)) (own₂ : σ₂) (hticks : ticksIn turns₁ = ticksIn turns₂)
    (hcalls : ∀ place, callsAt place (taleOf a (run body₁ turns₁ own₁).guest.events) =
      callsAt place (taleOf a (run body₂ turns₂ own₂).guest.events)) :
    taleOf a (run body₁ turns₁ own₁).guest.events = taleOf a (run body₂ turns₂ own₂).guest.events ∧
      ∀ (γ α : Type) (h : Host γ α) (other : String) (id : TaskId), other ≠ a →
        h.scheduler.isTracked a id = true → Host.cancelTask other id h = (.ok false, h) := by
  obtain ⟨T₁, htells₁, hend₁, hnow₁⟩ := taleOf_run a body₁ turns₁ own₁
  obtain ⟨T₂, htells₂, hend₂, hnow₂⟩ := taleOf_run a body₂ turns₂ own₂
  refine ⟨?_, fun γ α h other id hother htracked => ?_⟩
  · -- both tales are told by timetables, which leave no choice but what is asked for
    refine htells₁.unique htells₂ (fun _ hstage => nomatch hstage) hend₁ hend₂ ?_ hcalls
    rw [hnow₁, hnow₂, hticks]
  · obtain ⟨k, hk, hscript, htask⟩ := isTracked_iff.mp htracked
    have howned : h.scheduler.ownedByOther other id = true := by
      refine List.any_eq_true.mpr ⟨k, hk, ?_⟩
      rw [hscript, htask, Bool.and_eq_true, bne_iff_ne, beq_iff_eq]
      exact ⟨hother.symm, rfl⟩
    exact Host.cancelTask_of_ownedByOther howned

/-! ## A script that interferes in vain -/

/-- The callables of a small host: a task of one script, and one of another. -/
inductive Chore where
  | own
  | foreign
deriving DecidableEq

namespace Chore

/-- What is asked for on behalf of the script: a task that repeats, an immediate one, and one that is cancelled. -/
def ask (next : Errand Unit Chore) : Errand Unit Chore :=
  .submit "a" .own .sync (.repeating 1 1) fun _ =>
    .submit "a" .own .async .immediate fun _ =>
      .submit "a" .own .sync (.delayed 1) fun answer =>
        match answer with
        | .ok id => .cancel "a" id fun _ => next
        | .error _ => next

/-- The script's tasks do nothing. -/
def idle (_ : Chore) : Errand Unit Chore := .done (.ok ())

/-- The script is alone. -/
def alone : List (Turn Unit Chore) := [.act (ask (.done (.ok ()))), .tick, .tick]

/-- A task of another script, which goes before, cancels whatever it can think of. -/
def meddle : Chore → Errand Unit Chore
  | .own => .done (.ok ())
  | .foreign =>
    .cancel "b" ⟨2⟩ fun _ => .cancel "b" ⟨3⟩ fun _ => .cancelAll "b" fun _ =>
      .submit "b" .foreign .sync .immediate fun _ => .done (.error (.runtime "foreign"))

/-- The script in bad company. -/
def beset : List (Turn Unit Chore) :=
  [.act (.submit "b" .foreign .sync .immediate fun _ =>
    ask (.cancel "b" ⟨2⟩ fun _ => .done (.ok ()))), .tick, .tick]

end Chore

theorem script_undisturbed_beset :
    taleOf "a" (run Chore.idle Chore.alone ()).guest.events =
        taleOf "a" (run Chore.meddle Chore.beset ()).guest.events ∧
      (taleOf "a" (run Chore.meddle Chore.beset ()).guest.events).length = 14 := by
  have hcalls : (taleOf "a" (run Chore.idle Chore.alone ()).guest.events).filterMap Item.call? =
      (taleOf "a" (run Chore.meddle Chore.beset ()).guest.events).filterMap Item.call? := by
    decide +kernel
  have hsame := (script_undisturbed "a" Chore.idle Chore.alone () Chore.meddle Chore.beset () rfl
    (callsAt_congr hcalls)).1
  exact ⟨hsame, by decide +kernel⟩

end Tasks
end ScriptHost
