import Mathlib.Data.Nat.Notation
import ScriptHost.TaskMode

/-!
# The ticks at which a task is due

The timetable of a mode, without regard to the last tick that can be counted, and how the runner follows it.
The runner never has more than one tick of a timetable: the next one, capped at the last tick. That is
enough, since the next tick after a firing follows from the tick of the firing.

* `Mode.IsDue s mode t`: a task submitted at tick `s` is due at tick `t`.
* `Mode.IsNext s mode c t`: of the ticks after `c` at which it is due, `t` is the first.
-/

namespace ScriptHost
namespace Mode

/-- A task submitted at tick `s` is due at tick `t`. -/
def IsDue (s : ℕ) : Mode → ℕ → Prop
  | .immediate, t => t = s + 1
  | .delayed delay, t => t = s + max delay 1
  | .repeating delay period, t => ∃ k, t = s + max delay 1 + k * max period 1

/-- The first tick after `c` at which a task submitted at tick `s` is due. -/
def IsNext (s : ℕ) (mode : Mode) (c t : ℕ) : Prop :=
  mode.IsDue s t ∧ c < t ∧ ∀ t', mode.IsDue s t' → c < t' → t ≤ t'

variable {s c t : ℕ} {mode : Mode}

/-- No task is due at the tick of its submission. -/
theorem IsDue.after (h : mode.IsDue s t) : s < t := by
  cases mode with
  | immediate => rw [h]; exact Nat.lt_succ_self s
  | delayed delay =>
    have hpos : 1 ≤ max delay 1 := Nat.le_max_right _ _
    rw [h]
    omega
  | repeating delay period =>
    obtain ⟨k, rfl⟩ := h
    have hpos : 1 ≤ max delay 1 := Nat.le_max_right _ _
    omega

/-- The runner's first due tick is the first of the timetable. -/
theorem exists_isNext_firstDue (mode : Mode) (hs : s < lastTick) :
    ∃ t, mode.IsNext s s t ∧ mode.firstDue s = min t lastTick := by
  cases mode with
  | immediate =>
    refine ⟨s + 1, ⟨rfl, Nat.lt_succ_self s, fun t' _ h => h⟩, ?_⟩
    exact (Nat.min_eq_left hs).symm
  | delayed delay =>
    have hdue : (delayed delay).IsDue s (s + max delay 1) := rfl
    refine ⟨s + max delay 1, ⟨hdue, hdue.after, ?_⟩, rfl⟩
    intro t' h _
    exact Nat.le_of_eq h.symm
  | repeating delay period =>
    have hdue : (repeating delay period).IsDue s (s + max delay 1) := ⟨0, by omega⟩
    refine ⟨s + max delay 1, ⟨hdue, hdue.after, ?_⟩, rfl⟩
    rintro t' ⟨k, rfl⟩ _
    exact Nat.le_add_right _ _

/-- After a firing of a repeating task the next tick of the timetable is one period later. -/
theorem IsDue.isNext_add {period : ℕ} (h : mode.IsDue s c) (hp : mode.interval? = some period) :
    mode.IsNext s c (c + period) := by
  cases mode with
  | immediate => cases hp
  | delayed delay => cases hp
  | repeating delay p =>
    obtain rfl : max p 1 = period := by injection hp
    have hpos : 1 ≤ max p 1 := Nat.le_max_right _ _
    obtain ⟨k, rfl⟩ := h
    refine ⟨⟨k + 1, by rw [Nat.succ_mul, ← Nat.add_assoc]⟩, by omega, ?_⟩
    rintro t' ⟨j, rfl⟩ hlt
    -- the ticks of the timetable are whole periods apart
    have hmul : k * max p 1 < j * max p 1 := by omega
    have hkj : k + 1 ≤ j := Nat.lt_of_mul_lt_mul_right hmul
    have hmul := Nat.mul_le_mul_right (max p 1) hkj
    rw [Nat.succ_mul] at hmul
    omega

/-- A task that does not repeat is due only once. -/
theorem IsDue.unique (h : mode.IsDue s c) (hp : mode.interval? = none) (ht : mode.IsDue s t) :
    t = c := by
  cases mode with
  | immediate => rw [ht, h]
  | delayed delay => rw [ht, h]
  | repeating delay period => cases hp

/-- A tick at which the task is not due does not change what comes next. -/
theorem IsNext.advance (h : mode.IsNext s c t) (hc : ¬ mode.IsDue s (c + 1)) :
    mode.IsNext s (c + 1) t := by
  obtain ⟨hdue, hlt, hfirst⟩ := h
  have hne : t ≠ c + 1 := by
    rintro rfl
    exact hc hdue
  exact ⟨hdue, by omega, fun t' ht' hlt' => hfirst t' ht' (by omega)⟩

/-- What comes next comes at once, if the task is due at the next tick. -/
theorem IsNext.eq_succ (h : mode.IsNext s c t) (hle : t ≤ c + 1) : t = c + 1 := by
  have hlt := h.2.1
  omega

theorem IsNext.le_succ (h : mode.IsNext s c t) (hc : mode.IsDue s (c + 1)) : t ≤ c + 1 :=
  h.2.2 _ hc (Nat.lt_succ_self c)

end Mode
end ScriptHost
