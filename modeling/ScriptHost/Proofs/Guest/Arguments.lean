import Mathlib.Data.Nat.Notation
import ScriptHost.Guest.Library.Conversion

/-!
# Arguments that are taken

A host function takes its arguments one after the other, and does nothing more once it refuses one.

* `takeText_ofText`: every text is taken as itself.
* `accept_of_take`, `take_of_accept_ok`: an argument is accepted as what its value is taken as.
* `exists_of_bind_ok`: what succeeds has succeeded step by step.
-/

namespace ScriptHost.Guest.Library

variable {α β : Type} {context : CallContext} {w : World} {act : NativeM α} {f : α → NativeM β} {x : α} {y : β}
  {method : Option String} {args : Args} {i : ℕ} {take : Value → Except GuestError α}

theorem takeText_ofText (s : String) : (Value.ofText s).takeText = .ok s := by
  have hvalid : String.fromUTF8? s.toUTF8 = some s := dif_pos s.isValidUTF8
  simp only [Value.ofText, Value.takeText, Text.decode?, hvalid]

theorem accept_of_take (h : take (args.get i) = .ok x) : accept method args i take = pure x := by
  simp only [accept, h]

theorem take_of_accept_ok (h : (accept method args i take context w).1 = .ok x) : take (args.get i) = .ok x := by
  cases htake : take (args.get i) with
  | ok a =>
    rw [accept_of_take htake] at h
    exact congrArg Except.ok (Except.ok.inj h)
  | error e =>
    simp only [accept, htake] at h
    cases h

theorem exists_of_bind_ok (h : ((act >>= f) context w).1 = .ok y) :
    ∃ x w', (act context w).1 = .ok x ∧ (f x context w').1 = .ok y := by
  have hbind : (act >>= f) context w =
      ExceptT.bindCont (fun x => f x context) (act context w).1 (act context w).2 := rfl
  rw [hbind] at h
  cases hact : (act context w).1 with
  | ok x => exact ⟨x, (act context w).2, rfl, by rwa [hact] at h⟩
  | error o =>
    rw [hact] at h
    cases h

end ScriptHost.Guest.Library
