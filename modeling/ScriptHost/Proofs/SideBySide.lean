import Mathlib.Data.List.Forall2

/-!
# Lists and options side by side

Two lists stand side by side if their members are related one by one (`List.Forall₂`). They stay so when the same
members of both are left out, and the same is found in both, if what is asked of related members has the same answer.
Two options stand side by side if both are none, or both are something and related (`Option.Rel`).
-/

namespace ScriptHost

variable {β δ : Type} {R : β → δ → Prop} {p : β → Bool} {q : δ → Bool} {l : List β} {l' : List δ}

theorem mem_left_of_forall₂ (h : List.Forall₂ R l l') {b : β} (hb : b ∈ l) : ∃ d ∈ l', R b d := by
  induction h with
  | nil => cases hb
  | cons hfirst _ ih =>
    rcases List.mem_cons.mp hb with rfl | hb
    · exact ⟨_, List.mem_cons_self, hfirst⟩
    · obtain ⟨d, hd, hR⟩ := ih hb
      exact ⟨d, List.mem_cons_of_mem _ hd, hR⟩

theorem mem_right_of_forall₂ (h : List.Forall₂ R l l') {d : δ} (hd : d ∈ l') : ∃ b ∈ l, R b d :=
  mem_left_of_forall₂ h.flip hd

/-- What stands side by side stays so when the same is left out. -/
theorem forall₂_filter (hpq : ∀ b d, R b d → p b = q d) (h : List.Forall₂ R l l') :
    List.Forall₂ R (l.filter p) (l'.filter q) :=
  List.rel_filter (fun b d hR => iff_of_eq (congrArg (· = true) (hpq b d hR))) h

theorem forall₂_eraseP (hpq : ∀ b d, R b d → p b = q d) (h : List.Forall₂ R l l') :
    List.Forall₂ R (l.eraseP p) (l'.eraseP q) := by
  induction h with
  | nil => exact .nil
  | cons hfirst hrest ih =>
    rw [List.eraseP_cons, List.eraseP_cons, hpq _ _ hfirst]
    cases q _ with
    | true => exact hrest
    | false => exact .cons hfirst ih

theorem forall₂_any (hpq : ∀ b d, R b d → p b = q d) (h : List.Forall₂ R l l') :
    l.any p = l'.any q := by
  induction h with
  | nil => rfl
  | cons hfirst _ ih => rw [List.any_cons, List.any_cons, hpq _ _ hfirst, ih]

theorem forall₂_all (hpq : ∀ b d, R b d → p b = q d) (h : List.Forall₂ R l l') :
    l.all p = l'.all q := by
  induction h with
  | nil => rfl
  | cons hfirst _ ih => rw [List.all_cons, List.all_cons, hpq _ _ hfirst, ih]

/-- The first of which something holds has the same place in both. -/
theorem forall₂_find? {R : β → β → Prop} {p q : β → Bool} {l l' : List β}
    (hpq : ∀ b d, R b d → p b = q d) (h : List.Forall₂ R l l') :
    Option.Rel R (l.find? p) (l'.find? q) := by
  induction h with
  | nil => exact .none
  | cons hfirst _ ih =>
    rw [List.find?_cons, List.find?_cons, hpq _ _ hfirst]
    split
    · exact .some hfirst
    · exact ih

/-! ## Options -/

section

variable {β δ : Type} {R S : β → β → Prop} {x y : Option β}

theorem rel_imp (h : ∀ a b, R a b → S a b) (hxy : Option.Rel R x y) : Option.Rel S x y := by
  cases hxy with
  | some hab => exact .some (h _ _ hab)
  | none => exact .none

theorem rel_map {f₁ f₂ : β → β} (h : Option.Rel R x y) (hf : ∀ a b, R a b → R (f₁ a) (f₂ b)) :
    Option.Rel R (x.map f₁) (y.map f₂) := by
  cases h with
  | some hab => exact .some (hf _ _ hab)
  | none => exact .none

theorem rel_bind {T : δ → δ → Prop} {f : β → Option δ} (h : Option.Rel R x y)
    (hf : ∀ a b, R a b → Option.Rel T (f a) (f b)) : Option.Rel T (x.bind f) (y.bind f) := by
  cases h with
  | some hab => exact hf _ _ hab
  | none => exact .none

/-- What related members agree on is the same. -/
theorem map_eq_of_rel {f : β → δ} (h : Option.Rel R x y) (hf : ∀ a b, R a b → f a = f b) :
    x.map f = y.map f := by
  cases h with
  | some hab => exact congrArg some (hf _ _ hab)
  | none => rfl

/-- What is listed of related members stands side by side. -/
theorem forall₂_getD {T : δ → δ → Prop} {f : β → List δ} (h : Option.Rel R x y)
    (hf : ∀ a b, R a b → List.Forall₂ T (f a) (f b)) :
    List.Forall₂ T ((x.map f).getD []) ((y.map f).getD []) := by
  cases h with
  | some hab => exact hf _ _ hab
  | none => exact .nil

theorem forall₂_toList (h : Option.Rel R x y) : List.Forall₂ R x.toList y.toList := by
  cases h with
  | some hab => exact .cons hab .nil
  | none => exact .nil

end

end ScriptHost
