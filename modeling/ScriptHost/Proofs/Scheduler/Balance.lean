import ScriptHost.Proofs.Bridge
import ScriptHost.Scheduler

/-!
# The balance of pins

A live pin belongs to a task handle, or to a scheduler call that is still in progress: a submission holds
the pin of its callable until the runner has accepted the task, and `cancelAll` holds the pins of the handles
that it has taken off the list and not yet come to. `Balances held s` says that the live pins are those two
kinds and nothing else, each once; with nothing held it is the correspondence `PinsMatch` between pins and
task handles. There is one lemma for each step that a scheduler call takes.
-/

namespace ScriptHost
namespace Scheduler

variable {α : Type} {held : List PinHandle} {s : Scheduler α}

/-- The pins of a list of task handles. -/
def pinsOf (handles : List TaskHandle) : List PinHandle := handles.filterMap TaskHandle.pin

/-- The live pins are exactly those of the task handles and those held besides. -/
structure Balances (held : List PinHandle) (s : Scheduler α) : Prop where
  sound : s.bridge.Sound
  live : s.bridge.handles.Perm (pinsOf s.handles ++ held)

/-- The live pins and the task handles with a pin correspond one to one. -/
structure PinsMatch (s : Scheduler α) : Prop where
  isPinned_iff : ∀ p, s.bridge.isPinned p = true ↔ ∃ h ∈ s.handles, h.pin = some p
  once : s.handles.Pairwise fun h k => ∀ p, h.pin = some p → k.pin ≠ some p
  pinned_eq : s.pinned = s.handles.countP fun h => h.pin.isSome

theorem mem_pinsOf {handles : List TaskHandle} {p : PinHandle} :
    p ∈ pinsOf handles ↔ ∃ h ∈ handles, h.pin = some p := List.mem_filterMap

theorem length_pinsOf (handles : List TaskHandle) :
    (pinsOf handles).length = handles.countP fun h => h.pin.isSome := by
  rw [pinsOf, List.length_filterMap_eq_countP]

/-- With nothing held besides, balance is the correspondence of pins and handles. -/
theorem Balances.pinsMatch (h : Balances [] s) : PinsMatch s := by
  have hlive : s.bridge.handles.Perm (pinsOf s.handles) := by simpa using h.live
  refine ⟨fun p => ?_, ?_, ?_⟩
  · rw [ValueBridge.isPinned_iff, hlive.mem_iff, mem_pinsOf]
  · have hnodup : (pinsOf s.handles).Nodup := hlive.nodup_iff.mp h.sound.nodup
    rw [pinsOf, List.Nodup, List.pairwise_filterMap] at hnodup
    refine hnodup.imp fun hne p hp hk => hne p hp p hk rfl
  · rw [pinned, ValueBridge.pinned_eq, hlive.length_eq, length_pinsOf]

theorem balances_empty : Balances [] ({} : Scheduler α) :=
  ⟨ValueBridge.sound_empty, by simp [pinsOf]⟩

/-! ## Steps -/

/-- A pinned callable is held by the call that pinned it. -/
theorem Balances.pin (h : Balances held s) (c : α) :
    Balances ((s.bridge.pin c).1 :: held) { s with bridge := (s.bridge.pin c).2 } where
  sound := h.sound.pin c
  live := by
    rw [ValueBridge.handles_pin]
    exact (h.live.cons _).trans List.perm_middle.symm

/-- The numbers of accepted submissions do not count. -/
theorem Balances.accept (h : Balances held s) (accepted : Std.TreeMap Nat TaskId) :
    Balances held { s with accepted } := ⟨h.sound, h.live⟩

/-- A pin that a call holds can be released. -/
theorem Balances.unpin {p : PinHandle} (h : Balances (p :: held) s) :
    s.unpin p = .ok { s with bridge := s.bridge.release p } ∧
      Balances held { s with bridge := s.bridge.release p } := by
  have hfirst : s.bridge.handles.Perm (p :: (pinsOf s.handles ++ held)) :=
    h.live.trans List.perm_middle
  obtain ⟨v, -, hunpin⟩ := ValueBridge.unpin_of_mem (hfirst.mem_iff.mpr List.mem_cons_self)
  refine ⟨by rw [Scheduler.unpin, hunpin]; rfl, h.sound.release p, ?_⟩
  rw [h.sound.handles_release]
  simpa using hfirst.erase p

/-- A new task handle takes over the pin that the submission held for it. -/
theorem Balances.track {k : TaskHandle} (h : Balances (k.pin.toList ++ held) s) :
    Balances held { s with handles := s.handles ++ [k] } where
  sound := h.sound
  live := by
    refine h.live.trans ?_
    rw [pinsOf, pinsOf, List.filterMap_append, List.append_assoc]
    cases hk : k.pin with
    | none => simp [hk]
    | some p => simp [hk]

/-- Taking the first match out of a list leaves the others. -/
theorem perm_cons_eraseP {τ : Type} {p : τ → Bool} {l : List τ} {a : τ} (h : l.find? p = some a) :
    l.Perm (a :: l.eraseP p) := by
  induction l with
  | nil => simp at h
  | cons b l ih =>
    rw [List.find?_cons] at h
    cases hb : p b with
    | true =>
      rw [hb] at h
      rw [List.eraseP_cons_of_pos hb, Option.some.inj h]
    | false =>
      rw [hb] at h
      rw [List.eraseP_cons_of_neg (by simp [hb])]
      exact ((ih h).cons b).trans (List.Perm.swap a b _)

/-- The pin of a handle that is taken off the list is held by who took it. -/
theorem Balances.untrack (h : Balances held s) (script : String) (id : TaskId) :
    Balances (((s.untrack script id).1.bind TaskHandle.pin).toList ++ held)
      (s.untrack script id).2 := by
  refine ⟨h.sound, h.live.trans ?_⟩
  unfold Scheduler.untrack
  dsimp only
  cases hfind : s.handles.find? (TaskHandle.isFor script id) with
  | none =>
    rw [List.eraseP_of_forall_not (List.find?_eq_none.mp hfind)]
    simp
  | some k =>
    have hperm := (perm_cons_eraseP hfind).filterMap TaskHandle.pin
    rw [← pinsOf, ← pinsOf] at hperm
    refine (hperm.append_right held).trans ?_
    cases hk : k.pin with
    | none => simp [pinsOf, hk]
    | some p =>
      simp only [pinsOf, List.filterMap_cons, hk, Option.bind_some, Option.toList_some,
        List.cons_append, List.nil_append]
      exact List.perm_middle.symm

/-- The pins of all handles of a script, when they are taken off the list, are held by who took them. -/
theorem Balances.dropScript (h : Balances held s) (script : String) :
    Balances (pinsOf (s.handlesOf script) ++ held)
      { s with handles := s.handles.filter fun k => k.script != script } := by
  refine ⟨h.sound, h.live.trans ?_⟩
  have hsplit := List.filter_append_perm (fun k : TaskHandle => k.script == script) s.handles
  have hpins := hsplit.symm.filterMap TaskHandle.pin
  rw [List.filterMap_append] at hpins
  rw [← List.append_assoc]
  exact (hpins.trans List.perm_append_comm).append_right held

end Scheduler
end ScriptHost
