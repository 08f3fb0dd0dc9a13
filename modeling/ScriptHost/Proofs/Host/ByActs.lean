import ScriptHost.Proofs.Host.Api

/-!
# Operations that are made of acts

What leads from a host to another by acts of a guest, and the operations that change a host in no other way.

* `ByActs`: acts lead from one host to another; they can be put together.
* `ActsOnly`: whatever the host is, the operation changes it by acts.
-/

namespace ScriptHost

variable {γ α β δ : Type}

/-- Acts of the guest lead from one host to the other. -/
def ByActs (h h' : Host γ α) : Prop := ∃ acts, h' = Act.performAll acts h

namespace ByActs

variable {h h' h'' : Host γ α}

theorem refl (h : Host γ α) : ByActs h h := ⟨[], rfl⟩

theorem act (act : Act γ α) (h : Host γ α) : ByActs h (act.perform h) := ⟨[act], rfl⟩

theorem trans (hfirst : ByActs h h') (hrest : ByActs h' h'') : ByActs h h'' := by
  obtain ⟨first, rfl⟩ := hfirst
  obtain ⟨later, rfl⟩ := hrest
  exact ⟨first ++ later, List.foldl_append.symm⟩

/-- What concerns the guest alone is an act. -/
theorem think (h : Host γ α) (guest : γ) : ByActs h { h with guest } := .act (.think guest) h

end ByActs

/-- The operation changes the host by acts alone. -/
def ActsOnly (x : HostM γ α β) : Prop := ∀ h, ByActs h (x h).2

namespace ActsOnly

@[grind ←] theorem pure (b : β) : ActsOnly (Pure.pure b : HostM γ α β) := .refl

@[grind ←] theorem bind {x : HostM γ α β} {f : β → HostM γ α δ} (hx : ActsOnly x) (hf : ∀ b, ActsOnly (f b)) :
    ActsOnly (x >>= f) := fun h => (hx h).trans (hf (x h).1 (x h).2)

@[grind ←] theorem read : ActsOnly (Host.read : HostM γ α (Host γ α)) := .refl

/-- An act with an answer. -/
theorem of_act {x : HostM γ α β} (act : Host γ α → Act γ α) (hx : ∀ h, (x h).2 = (act h).perform h) :
    ActsOnly x := fun h => hx h ▸ .act (act h) h

end ActsOnly

end ScriptHost
