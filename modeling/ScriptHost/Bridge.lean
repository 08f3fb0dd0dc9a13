import ScriptHost.HostError

/-!
# The value bridge

The host keeps guest values alive behind handles: numbers that it can carry around where it could not
carry a guest value. A handle is issued once, by `pin`, and never again; its value can be read until
the handle is released by `unpin`.
-/

namespace ScriptHost

/-- The number of a pinned value. -/
structure PinHandle where
  raw : Nat
deriving Repr, DecidableEq

/-- The written form of a handle. -/
def PinHandle.text (h : PinHandle) : String := s!"pin#{h.raw}"

/-- The pinned values, by the number of their handle, and the last number issued. -/
structure ValueBridge (α : Type) where
  slots : List (Nat × α) := []
  issued : Nat := 0
deriving Repr

namespace ValueBridge

variable {α : Type}

/-- Read a pinned value. -/
def get? (b : ValueBridge α) (h : PinHandle) : Option α := b.slots.lookup h.raw

/-- Whether a handle holds a value. -/
def isPinned (b : ValueBridge α) (h : PinHandle) : Bool := (b.get? h).isSome

/-- The number of pinned values. -/
def pinned (b : ValueBridge α) : Nat := b.slots.length

/-- Keep a value alive behind a new handle. -/
def pin (b : ValueBridge α) (value : α) : PinHandle × ValueBridge α :=
  (⟨b.issued + 1⟩, ⟨(b.issued + 1, value) :: b.slots, b.issued + 1⟩)

/-- The bridge without what a handle holds. -/
def release (b : ValueBridge α) (h : PinHandle) : ValueBridge α :=
  { b with slots := b.slots.filter fun slot => slot.1 != h.raw }

/-- Release a handle and give back its value. A handle that holds none is misused. -/
def unpin (b : ValueBridge α) (h : PinHandle) : Except HostError (α × ValueBridge α) :=
  match b.get? h with
  | some value => .ok (value, b.release h)
  | none => .error (.handleMisuse
      s!"{h.text} is not pinned (released twice or never issued)")

end ValueBridge

end ScriptHost
