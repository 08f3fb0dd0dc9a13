import Mathlib.Data.List.Nodup
import Mathlib.Data.List.Perm.Basic
import ScriptHost.Bridge

/-!
# What a bridge holds

`ValueBridge.handles` is the view of a bridge that the scheduler's theory works with: the handles that hold
a value. `Sound` is what every bridge that was filled by `pin` and emptied by `unpin` satisfies: no handle
stands twice, and none is above the last number issued. The lemmas say what each operation does to the view,
so that nothing after this module unfolds one.
-/

namespace ScriptHost
namespace ValueBridge

variable {α : Type}

/-- The handles that hold a value. -/
def handles (b : ValueBridge α) : List PinHandle := b.slots.map fun slot => ⟨slot.1⟩

/-- Every handle stands once, and was issued. -/
structure Sound (b : ValueBridge α) : Prop where
  nodup : b.handles.Nodup
  issued : ∀ h ∈ b.handles, h.raw ≤ b.issued

theorem sound_empty : ({} : ValueBridge α).Sound := ⟨List.nodup_nil, by simp [handles]⟩

@[simp] theorem handles_empty : ({} : ValueBridge α).handles = [] := rfl

theorem pinned_eq (b : ValueBridge α) : b.pinned = b.handles.length := by
  simp [pinned, handles]

/-! ## Reading -/

theorem lookup_isSome_iff (slots : List (Nat × α)) (n : Nat) :
    (slots.lookup n).isSome ↔ (⟨n⟩ : PinHandle) ∈ slots.map fun slot => ⟨slot.1⟩ := by
  induction slots with
  | nil => simp
  | cons slot slots ih =>
    rw [List.lookup_cons, List.map_cons, List.mem_cons, ← ih]
    by_cases h : n = slot.1
    · simp [h]
    · have hbeq : (n == slot.1) = false := beq_eq_false_iff_ne.mpr h
      have hne : (⟨n⟩ : PinHandle) ≠ ⟨slot.1⟩ := fun he => h (PinHandle.mk.inj he)
      rw [hbeq]
      exact (or_iff_right hne).symm

theorem isPinned_iff (b : ValueBridge α) (h : PinHandle) : b.isPinned h = true ↔ h ∈ b.handles :=
  lookup_isSome_iff b.slots h.raw

theorem lookup_filter (slots : List (Nat × α)) (n m : Nat) :
    (slots.filter fun slot => slot.1 != n).lookup m = if m = n then none else slots.lookup m := by
  induction slots with
  | nil => simp
  | cons slot slots ih =>
    rw [List.filter_cons]
    by_cases hn : slot.1 = n
    · rw [if_neg (by simp [hn]), ih, List.lookup_cons]
      by_cases hm : m = n
      · simp [hm]
      · have hne : (m == slot.1) = false := beq_eq_false_iff_ne.mpr fun h => hm (h.trans hn)
        simp [hm, hne]
    · rw [if_pos (by simp [hn]), List.lookup_cons, List.lookup_cons, ih]
      by_cases hm : m = slot.1
      · subst hm
        simp [hn]
      · have hne : (m == slot.1) = false := beq_eq_false_iff_ne.mpr hm
        rw [hne]

theorem get?_release (b : ValueBridge α) (h k : PinHandle) :
    (b.release h).get? k = if k = h then none else b.get? k := by
  have hraw : k.raw = h.raw ↔ k = h :=
    ⟨fun he => congrArg PinHandle.mk he, fun he => congrArg PinHandle.raw he⟩
  unfold get? release
  simp only [lookup_filter, hraw]

theorem get?_pin_of_ne (b : ValueBridge α) (v : α) {k : PinHandle} (hk : k.raw ≠ b.issued + 1) :
    (b.pin v).2.get? k = b.get? k := by
  have hne : (k.raw == b.issued + 1) = false := beq_eq_false_iff_ne.mpr hk
  show List.lookup k.raw ((b.issued + 1, v) :: b.slots) = _
  rw [List.lookup_cons, hne]
  rfl

/-! ## Pinning -/

@[simp] theorem pin_raw (b : ValueBridge α) (v : α) : (b.pin v).1.raw = b.issued + 1 := rfl

@[simp] theorem issued_pin (b : ValueBridge α) (v : α) : (b.pin v).2.issued = b.issued + 1 := rfl

@[simp] theorem handles_pin (b : ValueBridge α) (v : α) :
    (b.pin v).2.handles = (b.pin v).1 :: b.handles := rfl

/-- A new handle is none of the old ones. -/
theorem Sound.pin_fresh {b : ValueBridge α} (hb : b.Sound) (v : α) : (b.pin v).1 ∉ b.handles := by
  intro hmem
  have hle := hb.issued _ hmem
  rw [pin_raw] at hle
  omega

theorem Sound.pin {b : ValueBridge α} (hb : b.Sound) (v : α) : (b.pin v).2.Sound where
  nodup := by
    rw [handles_pin]
    exact List.nodup_cons.mpr ⟨hb.pin_fresh v, hb.nodup⟩
  issued := by
    intro h hmem
    rw [handles_pin, List.mem_cons] at hmem
    rw [issued_pin]
    rcases hmem with rfl | hmem
    · exact Nat.le_of_eq (pin_raw b v)
    · exact Nat.le_succ_of_le (hb.issued h hmem)

/-! ## Releasing -/

@[simp] theorem issued_release (b : ValueBridge α) (h : PinHandle) :
    (b.release h).issued = b.issued := rfl

theorem handles_release (b : ValueBridge α) (h : PinHandle) :
    (b.release h).handles = b.handles.filter (· != h) := by
  unfold handles release
  rw [List.filter_map]
  congr 1
  refine List.filter_congr fun slot _ => ?_
  simp only [Function.comp_apply, bne]
  congr 1
  rw [Bool.eq_iff_iff, beq_iff_eq, beq_iff_eq]
  exact ⟨fun he => congrArg PinHandle.mk he, fun he => congrArg PinHandle.raw he⟩

/-- Among handles that stand once, to release one is to erase it. -/
theorem Sound.handles_release {b : ValueBridge α} (hb : b.Sound) (h : PinHandle) :
    (b.release h).handles = b.handles.erase h := by
  rw [ValueBridge.handles_release, hb.nodup.erase_eq_filter]

theorem Sound.release {b : ValueBridge α} (hb : b.Sound) (h : PinHandle) : (b.release h).Sound where
  nodup := by
    rw [hb.handles_release]
    exact hb.nodup.erase h
  issued := by
    intro k hmem
    rw [hb.handles_release] at hmem
    exact hb.issued k (List.mem_of_mem_erase hmem)

/-- A handle that holds a value can be released. -/
theorem unpin_of_mem {b : ValueBridge α} {h : PinHandle} (hmem : h ∈ b.handles) :
    ∃ v, b.get? h = some v ∧ b.unpin h = .ok (v, b.release h) := by
  obtain ⟨v, hv⟩ := Option.isSome_iff_exists.mp ((isPinned_iff b h).mpr hmem)
  refine ⟨v, hv, ?_⟩
  rw [unpin, hv]

end ValueBridge
end ScriptHost
