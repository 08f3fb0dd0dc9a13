import ScriptHost.Proofs.Host.Trail

/-!
# Registering hooks

A script registers hooks with its control object at any time. The control object keeps all of them, in the order in
which they came.

* `Enlists`, `Enlisted`: the hooks of a kind that are registered with a control object in stints of the guest, by what
  the guest does there.
* `hooksOf_performAll`: what acts of the guest register with a control object comes after what it had.
* `Work.enrols`: while the guest and the host are at work, a control object gets the hooks that are registered in the
  stints of the guest, and keeps those it had.
-/

namespace ScriptHost

variable {γ α : Type}

/-! ## Acts -/

/-- The hook of a kind that an act registers with a control object, if it does. -/
def Act.hook? (kind : HookKind) (number : ℕ) : Act γ α → Option α
  | .onLoad m hook => if kind = .load ∧ m = number then some hook else none
  | .onUnload m hook => if kind = .unload ∧ m = number then some hook else none
  | _ => none

/-- The hooks of a kind that acts register with a control object, in order. Where there is no such object, none are. -/
def Act.hooks (kind : HookKind) (number : ℕ) (acts : List (Act γ α)) (h : Host γ α) : List α :=
  if number < h.controls.size then acts.filterMap (Act.hook? kind number) else []

namespace Host

variable {g : Guest γ α} {h h' h'' : Host γ α} {flying : Option (ℕ × Submission α)}
  {stints stints' : List (Stint γ α)} {kind : HookKind} {number : ℕ} {hooks later : List α}

/-! ## Registrations -/

/-- The hooks of a kind that are registered with a control object in stints of the guest, in order. -/
inductive Enlists (kind : HookKind) (number : ℕ) : List (Stint γ α) → List α → Prop
  | none : Enlists kind number [] []
  | stint {st : Stint γ α} {stints : List (Stint γ α)} {later : List α} (acts : List (Act γ α))
      (hacts : st.after = Act.performAll acts st.before) (hrest : Enlists kind number stints later) :
      Enlists kind number (st :: stints) (Act.hooks kind number acts st.before ++ later)

/-- These hooks are registered in the stints: so it can be told what the guest does there, and not otherwise. -/
structure Enlisted (kind : HookKind) (number : ℕ) (stints : List (Stint γ α)) (hooks : List α) : Prop where
  told : Enlists kind number stints hooks
  only : ∀ others, Enlists kind number stints others → others = hooks

theorem Enlists.of_append (henlists : Enlists kind number (stints ++ stints') hooks) :
    ∃ first later, hooks = first ++ later ∧ Enlists kind number stints first ∧
      Enlists kind number stints' later := by
  induction stints generalizing hooks with
  | nil => exact ⟨[], hooks, rfl, .none, henlists⟩
  | cons st stints ih =>
    cases henlists with
    | stint acts hacts hrest =>
      obtain ⟨first, later, rfl, hfirst, hlater⟩ := ih hrest
      exact ⟨_, later, (List.append_assoc ..).symm, .stint acts hacts hfirst, hlater⟩

theorem Enlists.append (hfirst : Enlists kind number stints hooks) (hlater : Enlists kind number stints' later) :
    Enlists kind number (stints ++ stints') (hooks ++ later) := by
  induction hfirst with
  | none => exact hlater
  | stint acts hacts _ ih =>
    rw [List.append_assoc]
    exact .stint acts hacts ih

theorem Enlisted.nil : Enlisted kind number ([] : List (Stint γ α)) [] := by
  refine ⟨.none, fun others hothers => ?_⟩
  cases hothers
  rfl

theorem Enlisted.append (hfirst : Enlisted kind number stints hooks) (hlater : Enlisted kind number stints' later) :
    Enlisted kind number (stints ++ stints') (hooks ++ later) := by
  refine ⟨hfirst.told.append hlater.told, fun others hothers => ?_⟩
  obtain ⟨first, rest, rfl, hfirst', hrest'⟩ := hothers.of_append
  rw [hfirst.only first hfirst', hlater.only rest hrest']

/-! ## Control objects -/

/-- Control objects that are the same have the same hooks. -/
theorem hooksOf_congr (hcontrols : h'.controls = h.controls) (kind : HookKind) (number : ℕ) :
    h'.hooksOf kind number = h.hooksOf kind number := by
  unfold hooksOf control?
  rw [hcontrols]

/-- There are no hooks where there is no control object. -/
theorem hooksOf_of_ge (hnumber : h.controls.size ≤ number) (kind : HookKind) :
    h.hooksOf kind number = [] := by
  rw [hooksOf, control?, Array.getElem?_eq_none hnumber]
  rfl

theorem hooksOf_modify (m : ℕ) (f : Control α → Control α) (kind : HookKind) (number : ℕ) :
    ({ h with controls := h.controls.modify m f } : Host γ α).hooksOf kind number =
      if m = number then ((h.control? number).map fun c => (f c).hooks kind).getD []
      else h.hooksOf kind number := by
  unfold hooksOf
  rw [control?_modify]
  split
  · rw [Option.map_map]
    rfl
  · rfl

/-- A new control object has no hooks. -/
theorem hooksOf_withControl (name : String) (origin : Origin) (kind : HookKind) (number : ℕ) :
    (h.withControl name origin).hooksOf kind number = h.hooksOf kind number := by
  unfold hooksOf control? withControl
  rw [Array.getElem?_push]
  split
  · rename_i hnumber
    rw [hnumber, Array.getElem?_eq_none (Nat.le_refl _)]
    cases kind <;> rfl
  · rfl

/-- An act registers a hook if it is one that registers hooks. -/
theorem hooksOf_perform (act : Act γ α) (h₀ : Orderly flying h) (kind : HookKind)
    (hnumber : number < h.controls.size) : (act.perform h).hooksOf kind number =
      h.hooksOf kind number ++ (act.hook? kind number).toList := by
  have hsame : (act.perform h).controls = h.controls → act.hook? kind number = none →
      (act.perform h).hooksOf kind number = h.hooksOf kind number ++ (act.hook? kind number).toList := by
    intro hcontrols hnone
    rw [hooksOf_congr hcontrols, hnone, Option.toList_none, List.append_nil]
  have hcontrol : h.control? number = some h.controls[number] := Array.getElem?_eq_getElem hnumber
  -- only the two acts that register hooks add any
  cases act with
  | think state => exact hsame rfl rfl
  | report record => exact hsame rfl rfl
  | onLoad m hook =>
    refine (hooksOf_modify m _ kind number).trans ?_
    rw [hooksOf, hcontrol, Act.hook?]
    by_cases hm : m = number <;> cases kind <;> simp [hm, Control.hooks, Control.addLoadHook]
  | onUnload m hook =>
    refine (hooksOf_modify m _ kind number).trans ?_
    rw [hooksOf, hcontrol, Act.hook?]
    by_cases hm : m = number <;> cases kind <;> simp [hm, Control.hooks, Control.addUnloadHook]
  | declare m command =>
    refine (hooksOf_modify m _ kind number).trans ?_
    show _ = h.hooksOf kind number ++ []
    rw [hooksOf, hcontrol]
    by_cases hm : m = number <;> cases kind <;> simp [hm, Control.hooks, Control.addCommand]
  | share m object value =>
    obtain ⟨objects, records, -, heq⟩ := share_eq (h := h) (.script (h.controlName m)) object value
    exact hsame (by rw [Act.perform, heq]) rfl
  | unshare m object =>
    obtain ⟨objects, -, heq⟩ := unshare_eq (h := h) (.script (h.controlName m)) object
    exact hsame (by rw [Act.perform, heq]) rfl
  | schedule script callable lane mode =>
    obtain ⟨record, heq⟩ := schedule_eq h₀.tasks.balances script callable lane mode
    exact hsame (by rw [Act.perform, heq]) rfl
  | cancel script id =>
    refine hsame ?_ rfl
    rw [Act.perform, cancelTask_eq h₀.tasks.balances]
    split <;> rfl

theorem hooksOf_performAll_of_lt (acts : List (Act γ α)) (h₀ : Orderly flying h) (kind : HookKind)
    (hnumber : number < h.controls.size) : (Act.performAll acts h).hooksOf kind number =
      h.hooksOf kind number ++ acts.filterMap (Act.hook? kind number) := by
  induction acts generalizing h with
  | nil => exact (List.append_nil _).symm
  | cons act acts ih =>
    have hsize : number < (act.perform h).controls.size := by
      rw [(Act.perform_enters act h₀).size]
      exact hnumber
    refine (ih (act.perform_orderly h₀).1 hsize).trans ?_
    rw [hooksOf_perform act h₀ kind hnumber, List.append_assoc, List.filterMap_cons]
    cases act.hook? kind number <;> rfl

/-- What acts register comes after what there was, in order. -/
theorem hooksOf_performAll (acts : List (Act γ α)) (h₀ : Orderly flying h) (kind : HookKind) (number : ℕ) :
    (Act.performAll acts h).hooksOf kind number = h.hooksOf kind number ++ Act.hooks kind number acts h := by
  unfold Act.hooks
  split
  · next hnumber => exact hooksOf_performAll_of_lt acts h₀ kind hnumber
  · next hnumber =>
    have hge : (Act.performAll acts h).controls.size ≤ number := by
      rw [(Act.performAll_enters acts h₀).size]
      omega
    rw [hooksOf_of_ge hge, hooksOf_of_ge (by omega)]
    rfl

/-- The hooks that are registered in a stint can be told in one way, since the control object has them. -/
theorem enlisted_performAll (acts : List (Act γ α)) (h₀ : Orderly flying h) (kind : HookKind) (number : ℕ) :
    Enlisted kind number [⟨h, Act.performAll acts h⟩] (Act.hooks kind number acts h) := by
  have hnone : ∀ acts : List (Act γ α), Act.hooks kind number acts h ++ [] = Act.hooks kind number acts h :=
    fun _ => List.append_nil _
  refine ⟨hnone acts ▸ .stint acts rfl .none, fun others hothers => ?_⟩
  cases hothers with
  | stint acts' hacts hrest =>
    cases hrest
    have hsame : h.hooksOf kind number ++ Act.hooks kind number acts h =
        h.hooksOf kind number ++ Act.hooks kind number acts' h := by
      rw [← hooksOf_performAll acts h₀, ← hooksOf_performAll acts' h₀]
      exact congrArg (hooksOf kind number) hacts
    rw [hnone]
    exact (List.append_cancel_left hsame).symm

/-! ## Work -/

/-- The control objects have got the hooks that are registered in the stints. -/
def Gains (stints : List (Stint γ α)) (h h' : Host γ α) : Prop :=
  ∀ kind number, ∃ hooks, Enlisted kind number stints hooks ∧
    h'.hooksOf kind number = h.hooksOf kind number ++ hooks

theorem Gains.of_same (hcontrols : h'.controls = h.controls) : Gains [] h h' := fun kind number =>
  ⟨[], .nil, by rw [hooksOf_congr hcontrols, List.append_nil]⟩

/-- No script comes or goes, and the control objects get the hooks that are registered in the stints. -/
structure Enrols (stints : List (Stint γ α)) (h h' : Host γ α) : Prop where
  environments : h'.environments = h.environments
  size : h'.controls.size = h.controls.size
  hooks : Gains stints h h'

theorem Enrols.of_same (henvironments : h'.environments = h.environments)
    (hcontrols : h'.controls = h.controls) : Enrols [] h h' where
  environments := henvironments
  size := congrArg Array.size hcontrols
  hooks := .of_same hcontrols

theorem Enrols.trans (hfirst : Enrols stints h h') (hrest : Enrols stints' h' h'') :
    Enrols (stints ++ stints') h h'' where
  environments := hrest.environments.trans hfirst.environments
  size := hrest.size.trans hfirst.size
  hooks kind number := by
    obtain ⟨hooks, henlisted, hgot⟩ := hfirst.hooks kind number
    obtain ⟨later, henlisted', hgot'⟩ := hrest.hooks kind number
    exact ⟨hooks ++ later, henlisted.append henlisted', by rw [hgot', hgot, List.append_assoc]⟩

theorem Enrols.andSame (hfirst : Enrols stints h h') (henvironments : h''.environments = h'.environments)
    (hcontrols : h''.controls = h'.controls) : Enrols stints h h'' := by
  have hall := hfirst.trans (.of_same henvironments hcontrols)
  rw [List.append_nil] at hall
  exact hall

/-- What the guest does in a stint. -/
theorem enrols_performAll (acts : List (Act γ α)) (h₀ : Orderly flying h) :
    Enrols [⟨h, Act.performAll acts h⟩] h (Act.performAll acts h) where
  environments := (Act.performAll_orderly acts h₀).2.environments
  size := (Act.performAll_enters acts h₀).size
  hooks kind number := ⟨_, enlisted_performAll acts h₀ kind number, hooksOf_performAll acts h₀ kind number⟩

theorem Work.enrols (hwork : Work stints h h') : Enrols stints h h' := by
  induction hwork with
  | aside hsame => exact .of_same hsame.environments hsame.controls
  | stint h₀ hacts =>
    obtain ⟨acts, rfl⟩ := hacts
    exact enrols_performAll acts h₀
  | trans _ _ ihfirst ihrest => exact ihfirst.trans ihrest

end Host
end ScriptHost
