import Mathlib.Data.List.Induction
import ScriptHost.Proofs.Bridge
import ScriptHost.Proofs.Histories

/-!
# The handles of a bridge

A bridge in use is asked one thing after the other, and its history has each request with its answer. What a handle
holds is told by the history: the value that was pinned under it, unless it was released since. `Kept` relates that to
the slots of the bridge, and every request keeps it; so all answers are true (`handles_stay_fresh`), however many values
are pinned and released in between.
-/

namespace ScriptHost
namespace ValueBridge

variable {α : Type}

/-! ## A bridge in use -/

/-- What a bridge can be asked. -/
inductive Request (α : Type) where
  | pin (value : α)
  | unpin (h : PinHandle)
  | get (h : PinHandle)
  | isPinned (h : PinHandle)
  | pinned

/-- A request and its answer. -/
inductive Event (α : Type) where
  | pin (value : α) (h : PinHandle)
  | unpin (h : PinHandle) (answer : Except HostError α)
  | get (h : PinHandle) (answer : Option α)
  | isPinned (h : PinHandle) (answer : Bool)
  | pinned (answer : ℕ)

/-- What was asked. -/
def Event.request : Event α → Request α
  | .pin value _ => .pin value
  | .unpin h _ => .unpin h
  | .get h _ => .get h
  | .isPinned h _ => .isPinned h
  | .pinned _ => .pinned

/-- Ask a bridge. A release that is refused leaves it as it is. -/
def ask (b : ValueBridge α) : Request α → Event α × ValueBridge α
  | .pin value => (.pin value (b.pin value).1, (b.pin value).2)
  | .unpin h =>
    match b.unpin h with
    | .ok (value, b') => (.unpin h (.ok value), b')
    | .error e => (.unpin h (.error e), b)
  | .get h => (.get h (b.get? h), b)
  | .isPinned h => (.isPinned h (b.isPinned h), b)
  | .pinned => (.pinned b.pinned, b)

/-- A bridge and all that it was asked so far, in order. -/
structure Ledger (α : Type) where
  bridge : ValueBridge α := {}
  history : List (Event α) := []

/-- Ask the bridge, and note the answer. -/
def Ledger.ask (l : Ledger α) (request : Request α) : Ledger α where
  bridge := (l.bridge.ask request).2
  history := l.history ++ [(l.bridge.ask request).1]

/-- Ask a new bridge one thing after the other. -/
def use (requests : List (Request α)) : Ledger α := requests.foldl Ledger.ask {}

/-! ## What the history tells -/

/-- The handle that was issued, if the event is a pinning. -/
def Event.issued? : Event α → Option PinHandle
  | .pin _ h => some h
  | _ => none

/-- The handle that was released, if the event is a release that was not refused. -/
def Event.released? : Event α → Option PinHandle
  | .unpin h (.ok _) => some h
  | _ => none

/-- The handles that were issued, in order. -/
def issuedIn (events : List (Event α)) : List PinHandle := events.filterMap Event.issued?

/-- The handles that were released, in order. -/
def releasedIn (events : List (Event α)) : List PinHandle := events.filterMap Event.released?

/-- The value was pinned under the handle, which was not released since. -/
def Holds (h : PinHandle) (value : α) (events : List (Event α)) : Prop :=
  ∃ before after, events = before ++ .pin value h :: after ∧ h ∉ releasedIn after

/-- The answer is the one that the events before it call for. -/
def Event.TrueAfter (before : List (Event α)) : Event α → Prop
  | .pin _ h => ∀ h' ∈ issuedIn before, h'.raw < h.raw
  | .unpin h (.ok value) => Holds h value before
  | .unpin h (.error e) => (∀ value, ¬ Holds h value before) ∧
      e = .handleMisuse s!"{h.text} is not pinned (released twice or never issued)"
  | .get h answer => ∀ value, answer = some value ↔ Holds h value before
  | .isPinned h answer => answer = true ↔ ∃ value, Holds h value before
  | .pinned answer => answer + (releasedIn before).length = (issuedIn before).length

section

variable {events : List (Event α)} {e : Event α} {h : PinHandle} {value : α}

theorem issuedIn_append (events more : List (Event α)) :
    issuedIn (events ++ more) = issuedIn events ++ issuedIn more :=
  List.filterMap_append

theorem releasedIn_append (events more : List (Event α)) :
    releasedIn (events ++ more) = releasedIn events ++ releasedIn more :=
  List.filterMap_append

/-- A handle holds what was pinned last of all, or what it has held before if it was not released. -/
theorem holds_note : Holds h value (events ++ [e]) ↔ e = .pin value h ∨ Holds h value events ∧ e.released? ≠ some h := by
  constructor
  · rintro ⟨before, after, hsplit, hkept⟩
    rcases append_singleton_split hsplit with ⟨-, -, hlast⟩ | ⟨after', rfl, hinit⟩
    · exact .inl hlast.symm
    · rw [releasedIn_append, List.mem_append, not_or] at hkept
      refine .inr ⟨⟨before, after', hinit, hkept.1⟩, fun hreleased => hkept.2 ?_⟩
      exact List.mem_filterMap.mpr ⟨e, List.mem_singleton_self e, hreleased⟩
  · rintro (rfl | ⟨⟨before, after, rfl, hkept⟩, hreleased⟩)
    · exact ⟨events, [], rfl, List.not_mem_nil⟩
    · refine ⟨before, after ++ [e], by simp, ?_⟩
      rw [releasedIn_append, List.mem_append, not_or]
      refine ⟨hkept, fun hmem => hreleased ?_⟩
      obtain ⟨x, hx, hx'⟩ := List.mem_filterMap.mp hmem
      rw [← List.mem_singleton.mp hx]
      exact hx'

/-- An event that concerns another handle does not matter. -/
theorem holds_note_of_ne (hissued : e.issued? ≠ some h) (hreleased : e.released? ≠ some h) :
    Holds h value (events ++ [e]) ↔ Holds h value events := by
  rw [holds_note, and_iff_left hreleased]
  refine or_iff_right ?_
  rintro rfl
  exact hissued rfl

end

/-! ## What the bridge holds -/

theorem get?_eq_none_iff (b : ValueBridge α) (h : PinHandle) : b.get? h = none ↔ h ∉ b.handles := by
  rw [← isPinned_iff, isPinned, Option.not_isSome_iff_eq_none]

theorem get?_pin_self (b : ValueBridge α) (value : α) : (b.pin value).2.get? (b.pin value).1 = some value := by
  simp [pin, get?]

theorem ask_unpin_of_some {b : ValueBridge α} {h : PinHandle} {value : α} (hget : b.get? h = some value) :
    b.ask (.unpin h) = (.unpin h (.ok value), b.release h) := by
  simp only [ask, unpin, hget]

/-- A handle that holds nothing is refused, and nothing changes. -/
theorem ask_unpin_of_none {b : ValueBridge α} {h : PinHandle} (hget : b.get? h = none) :
    b.ask (.unpin h) =
      (.unpin h (.error (.handleMisuse s!"{h.text} is not pinned (released twice or never issued)")), b) := by
  simp only [ask, unpin, hget]

theorem request_ask (b : ValueBridge α) (request : Request α) : (b.ask request).1.request = request := by
  cases request with
  | unpin h =>
    cases hget : b.get? h with
    | some value => rw [ask_unpin_of_some hget, Event.request]
    | none => rw [ask_unpin_of_none hget, Event.request]
  | _ => rfl

theorem use_append_singleton (requests : List (Request α)) (request : Request α) :
    use (requests ++ [request]) = (use requests).ask request :=
  List.foldl_append

/-- Slots and history agree. -/
structure Kept (l : Ledger α) : Prop where
  sound : l.bridge.Sound
  /-- Handles are numbered in the order of pinning. -/
  numbered : issuedIn l.history = (List.range' 1 l.bridge.issued).map PinHandle.mk
  held : ∀ h value, l.bridge.get? h = some value ↔ Holds h value l.history
  /-- What was released is not held, and will not be. -/
  spent : ∀ h ∈ releasedIn l.history, h ∉ l.bridge.handles ∧ h.raw ≤ l.bridge.issued
  once : (releasedIn l.history).Nodup
  counted : l.bridge.pinned + (releasedIn l.history).length = l.bridge.issued
  answered : ∀ before e after, l.history = before ++ e :: after → e.TrueAfter before

section

variable {l : Ledger α} {h : PinHandle} {e : Event α}

theorem kept_empty : Kept ({} : Ledger α) where
  sound := sound_empty
  numbered := rfl
  held h value := by
    refine iff_of_false (by simp [get?]) ?_
    rintro ⟨before, after, hsplit, -⟩
    exact List.append_ne_nil_of_right_ne_nil before (List.cons_ne_nil _ after) hsplit.symm
  spent h hmem := nomatch hmem
  once := .nil
  counted := rfl
  answered before e after hsplit :=
    absurd hsplit.symm (List.append_ne_nil_of_right_ne_nil before (List.cons_ne_nil _ after))

theorem Kept.isPinned_iff (hl : Kept l) (h : PinHandle) :
    l.bridge.isPinned h = true ↔ ∃ value, Holds h value l.history := by
  rw [isPinned, Option.isSome_iff_exists]
  exact exists_congr (hl.held h)

theorem Kept.not_holds (hl : Kept l) (hnone : l.bridge.get? h = none) (value : α) : ¬ Holds h value l.history := by
  rw [← hl.held, hnone]
  exact (Option.some_ne_none value).symm

theorem Kept.length_issuedIn (hl : Kept l) : (issuedIn l.history).length = l.bridge.issued := by
  rw [hl.numbered, List.length_map, List.length_range']

theorem Kept.raw_le (hl : Kept l) (hmem : h ∈ issuedIn l.history) : h.raw ≤ l.bridge.issued := by
  rw [hl.numbered] at hmem
  obtain ⟨n, hn, rfl⟩ := List.mem_map.mp hmem
  have hlt := (List.mem_range'_1.mp hn).2
  show n ≤ l.bridge.issued
  omega

/-- A new answer is true if it is true after all that was asked before. -/
theorem Kept.answered_note (hl : Kept l) (he : e.TrueAfter l.history) :
    ∀ before e' after, l.history ++ [e] = before ++ e' :: after → e'.TrueAfter before := by
  intro before e' after hsplit
  rcases append_singleton_split hsplit with ⟨-, rfl, rfl⟩ | ⟨after', -, hinit⟩
  · exact he
  · exact hl.answered before e' after' hinit

/-- Nothing is issued or released. -/
theorem Kept.note (hl : Kept l) (hissued : e.issued? = none) (hreleased : e.released? = none)
    (he : e.TrueAfter l.history) : Kept { l with history := l.history ++ [e] } := by
  have hsameIssued : issuedIn (l.history ++ [e]) = issuedIn l.history := by
    rw [issuedIn_append, issuedIn, issuedIn, List.filterMap_cons_none hissued]
    exact List.append_nil _
  have hsameReleased : releasedIn (l.history ++ [e]) = releasedIn l.history := by
    rw [releasedIn_append, releasedIn, releasedIn, List.filterMap_cons_none hreleased]
    exact List.append_nil _
  constructor
  case sound => exact hl.sound
  case numbered => exact hsameIssued.trans hl.numbered
  -- neither a pin nor a release, so that the same is held
  case held =>
    intro h value
    rw [holds_note_of_ne (by simp [hissued]) (by simp [hreleased])]
    exact hl.held h value
  case spent =>
    rw [hsameReleased]
    exact hl.spent
  case once =>
    rw [hsameReleased]
    exact hl.once
  case counted =>
    rw [hsameReleased]
    exact hl.counted
  case answered => exact hl.answered_note he

/-- A value is pinned, under a handle that was never issued. -/
theorem Kept.pin (hl : Kept l) (value : α) : Kept (l.ask (.pin value)) := by
  have hfresh := hl.sound.pin_fresh value
  have hreleased : releasedIn (l.ask (.pin value)).history = releasedIn l.history := by
    show releasedIn (l.history ++ [_]) = _
    rw [releasedIn_append]
    exact List.append_nil _
  constructor
  case sound => exact hl.sound.pin value
  case numbered =>
    show issuedIn (l.history ++ [_]) = (List.range' 1 (l.bridge.issued + 1)).map PinHandle.mk
    rw [issuedIn_append, hl.numbered, List.range'_concat, List.map_append, Nat.one_mul, Nat.add_comm 1]
    rfl
  case held =>
    intro h value'
    show (l.bridge.pin value).2.get? h = some value' ↔ Holds h value' (l.history ++ [.pin value (l.bridge.pin value).1])
    by_cases hh : h = (l.bridge.pin value).1
    · subst hh
      -- the handle is fresh, so that nothing was held under it before
      have hold := hl.not_holds ((get?_eq_none_iff _ _).mpr hfresh) value'
      rw [get?_pin_self, Option.some_inj, holds_note, or_iff_left fun hholds => hold hholds.1]
      exact ⟨fun heq => heq ▸ rfl, fun heq => (Event.pin.inj heq).1⟩
    · have hraw : h.raw ≠ l.bridge.issued + 1 := fun heq => hh (congrArg PinHandle.mk heq)
      rw [get?_pin_of_ne l.bridge value hraw, hl.held]
      refine Iff.symm (holds_note_of_ne ?_ ?_)
      · exact fun heq => hh (Option.some.inj heq).symm
      · exact (Option.some_ne_none h).symm
  case spent =>
    intro h hmem
    obtain ⟨hgone, hle⟩ := hl.spent h (hreleased ▸ hmem)
    refine ⟨?_, Nat.le_succ_of_le hle⟩
    show h ∉ (l.bridge.pin value).2.handles
    rw [handles_pin, List.mem_cons, not_or]
    refine ⟨?_, hgone⟩
    rintro rfl
    exact absurd hle (Nat.not_succ_le_self _)
  case once =>
    rw [hreleased]
    exact hl.once
  case counted =>
    rw [hreleased]
    have hcount := hl.counted
    show l.bridge.pinned + 1 + _ = l.bridge.issued + 1
    omega
  case answered =>
    refine hl.answered_note fun h' hmem => ?_
    exact Nat.lt_succ_of_le (hl.raw_le hmem)

/-- A handle that holds a value is released. -/
theorem Kept.release (hl : Kept l) {value : α} (hget : l.bridge.get? h = some value) :
    Kept { bridge := l.bridge.release h, history := l.history ++ [.unpin h (.ok value)] } := by
  have hmem : h ∈ l.bridge.handles := (ValueBridge.isPinned_iff l.bridge h).mp (by rw [isPinned, hget]; rfl)
  have hreleased : releasedIn (l.history ++ [.unpin h (.ok value)]) = releasedIn l.history ++ [h] :=
    releasedIn_append _ _
  have hissued : issuedIn (l.history ++ [.unpin h (.ok value)]) = issuedIn l.history := by
    rw [issuedIn_append]
    exact List.append_nil _
  -- the handle is among those that hold values, and only once
  have hpinned : (l.bridge.release h).pinned + 1 = l.bridge.pinned := by
    rw [pinned_eq, pinned_eq, hl.sound.handles_release, List.length_erase_of_mem hmem]
    have hpos := List.length_pos_of_mem hmem
    omega
  constructor
  case sound => exact hl.sound.release h
  case numbered => exact hissued.trans hl.numbered
  case held =>
    intro k value'
    show (l.bridge.release h).get? k = some value' ↔ Holds k value' (l.history ++ [.unpin h (.ok value)])
    rw [get?_release]
    by_cases hk : k = h
    · subst hk
      rw [if_pos rfl, holds_note]
      refine iff_of_false (Option.some_ne_none value').symm ?_
      rintro (heq | ⟨-, hkept⟩)
      · cases heq
      · exact hkept rfl
    · rw [if_neg hk, hl.held]
      refine Iff.symm (holds_note_of_ne ?_ ?_)
      · exact (Option.some_ne_none k).symm
      · exact fun heq => hk (Option.some.inj heq).symm
  case spent =>
    intro k hk
    rw [hreleased, List.mem_append, List.mem_singleton] at hk
    show k ∉ (l.bridge.release h).handles ∧ k.raw ≤ l.bridge.issued
    rw [hl.sound.handles_release]
    rcases hk with hk | rfl
    · exact ⟨fun hin => (hl.spent k hk).1 (List.mem_of_mem_erase hin), (hl.spent k hk).2⟩
    · exact ⟨hl.sound.nodup.not_mem_erase, hl.sound.issued k hmem⟩
  case once =>
    rw [hreleased]
    refine List.nodup_append.mpr ⟨hl.once, List.nodup_singleton h, ?_⟩
    rintro k hk k' hk' rfl
    rw [List.mem_singleton] at hk'
    -- a handle that was released before would hold nothing now
    exact (hl.spent k hk).1 (hk' ▸ hmem)
  case counted =>
    rw [hreleased, List.length_append, List.length_singleton]
    have hcount := hl.counted
    show (l.bridge.release h).pinned + _ = l.bridge.issued
    omega
  case answered => exact hl.answered_note ((hl.held h value).mp hget)

/-- Every request keeps slots and history in agreement. -/
theorem Kept.ask (hl : Kept l) (request : Request α) : Kept (l.ask request) := by
  cases request with
  | pin value => exact hl.pin value
  | unpin h =>
    cases hget : l.bridge.get? h with
    | some value =>
      rw [Ledger.ask, ask_unpin_of_some hget]
      exact hl.release hget
    | none =>
      rw [Ledger.ask, ask_unpin_of_none hget]
      exact hl.note rfl rfl ⟨hl.not_holds hget, rfl⟩
  | get h => exact hl.note rfl rfl (hl.held h)
  | isPinned h => exact hl.note rfl rfl (hl.isPinned_iff h)
  | pinned => exact hl.note rfl rfl (hl.counted.trans hl.length_issuedIn.symm)

theorem kept_use (requests : List (Request α)) : Kept (use requests) := by
  induction requests using List.reverseRecOn with
  | nil => exact kept_empty
  | append_singleton requests request ih =>
    rw [use_append_singleton]
    exact ih.ask request

end

theorem requests_use (requests : List (Request α)) : (use requests).history.map Event.request = requests := by
  induction requests using List.reverseRecOn with
  | nil => rfl
  | append_singleton requests request ih =>
    rw [use_append_singleton, Ledger.ask, List.map_append, ih, List.map_singleton, request_ask]

/-- **Handles stay fresh.** Whatever a bridge is asked: a new handle is above all earlier ones, and no number is beyond
that of the values pinned so far; a handle holds the value that was pinned under it from then until it is released, and
at no other time, however many values are pinned later; it is released at most once, with that value, and any other
release is refused and changes nothing; and as many values are pinned as were pinned and not released. -/
theorem handles_stay_fresh (requests : List (Request α)) :
    (use requests).history.map Event.request = requests ∧
    (∀ before e after, (use requests).history = before ++ e :: after → e.TrueAfter before) ∧
    (∀ h ∈ issuedIn (use requests).history, h.raw ≤ (issuedIn (use requests).history).length) ∧
    (releasedIn (use requests).history).Nodup ∧
    ∀ h, (∀ value, ¬ Holds h value (use requests).history) →
      ((use requests).ask (.unpin h)).bridge = (use requests).bridge := by
  have hkept := kept_use requests
  refine ⟨requests_use requests, hkept.answered, fun h hmem => ?_, hkept.once, fun h hnot => ?_⟩
  · rw [hkept.length_issuedIn]
    exact hkept.raw_le hmem
  · -- a handle that holds nothing is read as nothing, and its release is refused
    have hnone : (use requests).bridge.get? h = none := by
      rw [Option.eq_none_iff_forall_ne_some]
      exact fun value hget => hnot value ((hkept.held h value).mp hget)
    rw [Ledger.ask, ask_unpin_of_none hnone]

/-- A value is pinned after another one was released. Nothing is read through the handle of that one. -/
example : (use [.pin 7, .unpin ⟨1⟩, .pin 8, .get ⟨1⟩, .pinned]).history =
    [.pin 7 ⟨1⟩, .unpin ⟨1⟩ (.ok 7), .pin 8 ⟨2⟩, .get ⟨1⟩ none, .pinned 1] := rfl

end ValueBridge
end ScriptHost
