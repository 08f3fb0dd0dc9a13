import ScriptHost.HostError

/-!
# Errors by their causes

On its way out an error of guest code is put within layers. Its class is told from the cause under all of them, except
that a syntax error is one only where it is within no layer.

* `Layer`, `GuestError.within`: an error within layers.
* `GuestError.exists_within`: every error is a cause within layers.
* `GuestError.base_within`: layers do not change the cause.
* `HostError.ofGuest_of_violation`, `HostError.ofGuest_of_failure`: what becomes of an error that is no syntax error.
* `HostError.errors_sorted_by_cause`: the class of an error within layers.
-/

namespace ScriptHost

/-! ## Layers -/

/-- What an error is put within on its way out. -/
inductive Layer where
  | callback (traceback : String)
  | context (text : String)

/-- An error within one more layer. -/
def Layer.around : Layer → GuestError → GuestError
  | .callback traceback, e => .callback traceback e
  | .context text, e => .context text e

namespace GuestError

/-- An error within layers, of which the first is the outermost. -/
def within (layers : List Layer) (e : GuestError) : GuestError := layers.foldr Layer.around e

/-- An error that is within no layer. -/
def Bare (e : GuestError) : Prop := ∀ layer cause, e ≠ Layer.around layer cause

variable {e : GuestError}

@[simp] theorem base_around (layer : Layer) (e : GuestError) : (layer.around e).base = e.base := by
  cases layer <;> rfl

/-- Layers do not change the cause under them. -/
theorem base_within (layers : List Layer) (e : GuestError) : (e.within layers).base = e.base := by
  induction layers with
  | nil => rfl
  | cons layer layers ih => exact (base_around layer _).trans ih

theorem Bare.base_eq (h : e.Bare) : e.base = e := by
  cases e with
  | callback traceback cause => exact absurd rfl (h (.callback traceback) cause)
  | context text cause => exact absurd rfl (h (.context text) cause)
  | _ => rfl

theorem Bare.base_within (h : e.Bare) (layers : List Layer) : (e.within layers).base = e :=
  (GuestError.base_within layers e).trans h.base_eq

/-- Every error is a cause within layers. -/
theorem exists_within (e : GuestError) : ∃ layers, ∃ cause : GuestError, cause.Bare ∧ e = cause.within layers := by
  induction e with
  | callback traceback e ih =>
    obtain ⟨layers, cause, hbare, rfl⟩ := ih
    exact ⟨Layer.callback traceback :: layers, cause, hbare, rfl⟩
  | context text e ih =>
    obtain ⟨layers, cause, hbare, rfl⟩ := ih
    exact ⟨Layer.context text :: layers, cause, hbare, rfl⟩
  | _ =>
    -- any other error is within no layer
    refine ⟨[], _, fun layer cause => ?_, rfl⟩
    cases layer <;> exact nofun

theorem around_ne_parsing (layer : Layer) (e : GuestError) (message : String) : layer.around e ≠ .parsing message := by
  cases layer <;> exact nofun

end GuestError

/-! ## Classes -/

/-- The classes of errors of guest code. -/
inductive ErrorClass where
  | syntaxError
  | violation
  | failure
deriving Repr, DecidableEq

namespace HostError

/-- The class of an error that guest code has caused. -/
def errorClass? : HostError → Option ErrorClass
  | .parsing .. => some .syntaxError
  | .protection .. => some .violation
  | .execution .. => some .failure
  | _ => none

variable {script text key : String} {e cause : GuestError} {layers : List Layer}

theorem ofGuest_of_ne_parsing (he : ∀ message, e ≠ .parsing message) :
    ofGuest script e =
      match e.base with
      | .raised (.violation key) => .protection script (Raised.violation key).message
      | _ => .execution script e.display := by
  cases e with
  | parsing message => exact absurd rfl (he message)
  | _ => rfl

/-- A write to a frozen field is a violation that names the field, and has no text of the layers around it. -/
theorem ofGuest_of_violation (hbase : e.base = .raised (.violation key)) :
    ofGuest script e = .protection script (Raised.violation key).message := by
  have he (message) : e ≠ .parsing message := by
    rintro rfl
    cases hbase
  rw [ofGuest_of_ne_parsing he, hbase]

/-- All else that is no syntax error is a failure with the whole text of the error. -/
theorem ofGuest_of_failure (he : ∀ message, e ≠ .parsing message)
    (hbase : ∀ key, e.base ≠ .raised (.violation key)) : ofGuest script e = .execution script e.display := by
  rw [ofGuest_of_ne_parsing he]
  split
  · next key heq => exact absurd heq (hbase key)
  · rfl

/-- One of three things becomes of an error. -/
theorem ofGuest_cases (script : String) (e : GuestError) :
    (∃ message, e = .parsing message ∧ ofGuest script e = .parsing script message) ∨
    (∃ key, e.base = .raised (.violation key) ∧
      ofGuest script e = .protection script (Raised.violation key).message) ∨
    ((∀ message, e ≠ .parsing message) ∧ (∀ key, e.base ≠ .raised (.violation key)) ∧
      ofGuest script e = .execution script e.display) := by
  by_cases hparsing : ∃ message, e = .parsing message
  · obtain ⟨message, rfl⟩ := hparsing
    exact .inl ⟨message, rfl, rfl⟩
  by_cases hviolation : ∃ key, e.base = .raised (.violation key)
  · obtain ⟨key, hbase⟩ := hviolation
    exact .inr (.inl ⟨key, hbase, ofGuest_of_violation hbase⟩)
  · have he := not_exists.mp hparsing
    have hbase := not_exists.mp hviolation
    exact .inr (.inr ⟨he, hbase, ofGuest_of_failure he hbase⟩)

theorem ofGuest_eq_parsing_iff : ofGuest script e = .parsing script text ↔ e = .parsing text := by
  constructor
  · intro h
    obtain ⟨message, rfl, hsorted⟩ | ⟨key, -, hsorted⟩ | ⟨-, -, hsorted⟩ := ofGuest_cases script e
    · cases hsorted.symm.trans h
      rfl
    · cases hsorted.symm.trans h
    · cases hsorted.symm.trans h
  · rintro rfl
    rfl

theorem ofGuest_eq_protection_iff :
    ofGuest script e = .protection script text ↔
      ∃ key, e.base = .raised (.violation key) ∧ text = (Raised.violation key).message := by
  constructor
  · intro h
    obtain ⟨message, -, hsorted⟩ | ⟨key, hbase, hsorted⟩ | ⟨-, -, hsorted⟩ := ofGuest_cases script e
    · cases hsorted.symm.trans h
    · cases hsorted.symm.trans h
      exact ⟨key, hbase, rfl⟩
    · cases hsorted.symm.trans h
  · rintro ⟨key, hbase, rfl⟩
    exact ofGuest_of_violation hbase

theorem ofGuest_eq_execution_iff :
    ofGuest script e = .execution script text ↔
      (∀ message, e ≠ .parsing message) ∧ (∀ key, e.base ≠ .raised (.violation key)) ∧ text = e.display := by
  constructor
  · intro h
    obtain ⟨message, -, hsorted⟩ | ⟨key, -, hsorted⟩ | ⟨he, hbase, hsorted⟩ := ofGuest_cases script e
    · cases hsorted.symm.trans h
    · cases hsorted.symm.trans h
    · cases hsorted.symm.trans h
      exact ⟨he, hbase, rfl⟩
  · rintro ⟨he, hbase, rfl⟩
    exact ofGuest_of_failure he hbase

/-- Every error has a class. -/
theorem errorClass?_ofGuest_ne_none (script : String) (e : GuestError) : (ofGuest script e).errorClass? ≠ none := by
  obtain ⟨message, -, hsorted⟩ | ⟨key, -, hsorted⟩ | ⟨-, -, hsorted⟩ := ofGuest_cases script e <;>
    rw [hsorted] <;> exact nofun

/-- A layer around an error that is no syntax error does not change its class. -/
theorem errorClass?_ofGuest_around (script : String) (layer : Layer) (he : ∀ message, e ≠ .parsing message) :
    (ofGuest script (layer.around e)).errorClass? = (ofGuest script e).errorClass? := by
  rw [ofGuest_of_ne_parsing he, ofGuest_of_ne_parsing (GuestError.around_ne_parsing layer e), GuestError.base_around]
  split <;> rfl

/-! ## Errors within layers -/

/-- **Errors are sorted by their causes**, whatever layers they are within: a syntax error that is within none keeps its
message, a violation gets a message that names its key, and all else has the text of the error with all its layers. -/
theorem errors_sorted_by_cause (script : String) (layers : List Layer) (hbare : cause.Bare) :
    (∀ text, ofGuest script (cause.within layers) = .parsing script text ↔ cause.within layers = .parsing text) ∧
    (∀ text, ofGuest script (cause.within layers) = .protection script text ↔
      ∃ key, cause = .raised (.violation key) ∧ text = s!"attempt to modify read-only field '{key}'") ∧
    (∀ text, ofGuest script (cause.within layers) = .execution script text ↔
      (∀ message, cause.within layers ≠ .parsing message) ∧ (∀ key, cause ≠ .raised (.violation key)) ∧
        text = (cause.within layers).display) ∧
    (ofGuest script (cause.within layers)).errorClass? ≠ none ∧
    (ofGuest script (cause.within layers)).script? = some script ∧
    ∀ layer : Layer, (∀ message, cause.within layers ≠ .parsing message) →
      (ofGuest script (layer.around (cause.within layers))).errorClass? =
        (ofGuest script (cause.within layers)).errorClass? := by
  -- whatever the layers, at the base there is the cause
  have hbase := hbare.base_within layers
  refine ⟨fun text => ofGuest_eq_parsing_iff, fun text => ?_, fun text => ?_, errorClass?_ofGuest_ne_none script _,
    script?_ofGuest script _, fun layer he => errorClass?_ofGuest_around script layer he⟩
  · rw [ofGuest_eq_protection_iff, hbase]
    rfl
  · rw [ofGuest_eq_execution_iff, hbase]

/-- A violation within layers of both kinds is a violation, and one more layer does not change that. -/
theorem errors_sorted_by_cause_upper :
    (GuestError.raised (.violation "upper")).Bare ∧
      ofGuest "demo" (.context "while loading" (.callback "stack traceback:" (.context "in a hook"
        (.raised (.violation "upper"))))) =
        .protection "demo" "attempt to modify read-only field 'upper'" := by
  have hbare : (GuestError.raised (.violation "upper")).Bare := fun layer cause => by cases layer <;> exact nofun
  obtain ⟨-, hviolation, -⟩ := errors_sorted_by_cause "demo"
    [.context "while loading", .callback "stack traceback:", .context "in a hook"] hbare
  exact ⟨hbare, (hviolation _).mpr ⟨"upper", rfl, rfl⟩⟩

end HostError

end ScriptHost
