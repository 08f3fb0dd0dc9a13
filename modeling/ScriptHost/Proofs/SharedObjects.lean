import ScriptHost.Proofs.TreeMap
import ScriptHost.SharedObjects

/-!
# What scripts can do to shared objects

The values and the owners change together (`InStep`). A script reaches the names that are free and those that
it owns: `foreign?` is what a name means apart from one script's entries, and nothing that the script does
changes it.
-/

namespace ScriptHost
namespace SharedObjects

variable {α : Type} {s s' : SharedObjects α} {script name : String}

/-- A name has a value if it has an owner, and only then. -/
def InStep (s : SharedObjects α) : Prop := ∀ name, s.get? name = none ↔ s.owner? name = none

/-- The owner and the value of a name, unless the name is the script's. -/
def foreign? (s : SharedObjects α) (script name : String) : Option (Owner × Option α) :=
  match s.owner? name with
  | none => none
  | some owner => if owner = .script script then none else some (owner, s.get? name)

theorem inStep_empty : ({} : SharedObjects α).InStep := fun name => by
  unfold get? owner?
  rw [NameMap.get?_empty, NameMap.get?_empty]
  exact iff_of_true rfl rfl

/-! ## Single changes -/

theorem get?_erase (s : SharedObjects α) (k m : String) :
    (s.erase k).get? m = if k = m then none else s.get? m := NameMap.get?_erase s.values k m

theorem owner?_erase (s : SharedObjects α) (k m : String) :
    (s.erase k).owner? m = if k = m then none else s.owner? m := NameMap.get?_erase s.owners k m

theorem InStep.erase (h : s.InStep) (k : String) : (s.erase k).InStep := by
  intro m
  rw [get?_erase, owner?_erase]
  split
  · exact iff_of_true rfl rfl
  · exact h m

/-- The entry of a name under a new owner. -/
def put (s : SharedObjects α) (owner : Owner) (name : String) (value : α) : SharedObjects α :=
  ⟨s.values.insert name value, s.owners.insert name owner⟩

theorem get?_put (s : SharedObjects α) (owner : Owner) (k m : String) (value : α) :
    (s.put owner k value).get? m = if k = m then some value else s.get? m :=
  NameMap.get?_insert s.values k m value

theorem owner?_put (s : SharedObjects α) (owner : Owner) (k m : String) (value : α) :
    (s.put owner k value).owner? m = if k = m then some owner else s.owner? m :=
  NameMap.get?_insert s.owners k m owner

theorem InStep.put (h : s.InStep) (owner : Owner) (k : String) (value : α) :
    (s.put owner k value).InStep := by
  intro m
  rw [get?_put, owner?_put]
  split
  · exact ⟨(fun heq => nomatch heq), (fun heq => nomatch heq)⟩
  · exact h m

/-- An owner may change a name that is free, its own, or anyone's if it is the host. -/
def Permits (s : SharedObjects α) (owner : Owner) (name : String) : Prop :=
  ∀ existing, s.owner? name = some existing → owner.mayChange existing = true

/-- What can become of the objects when an owner does something about a name. -/
inductive Change (s : SharedObjects α) (owner : Owner) (name : String) : SharedObjects α → Prop
  | same : Change s owner name s
  | erased (h : s.Permits owner name) : Change s owner name (s.erase name)
  | put (h : s.Permits owner name) (value : α) : Change s owner name (s.put owner name value)

theorem unregister_change {owner : Owner} {found : Bool}
    (h : s.unregister owner name = .ok (found, s')) : Change s owner name s' := by
  unfold unregister at h
  split at h
  · cases h
    exact .same
  · rename_i existing howner
    split at h
    · rename_i hmay
      cases h
      refine .erased fun e he => ?_
      obtain rfl := Option.some.inj (howner.symm.trans he)
      exact hmay
    · cases h

theorem register_change {owner : Owner} {value : Option α} {records : List Record}
    (h : s.register owner name value = .ok (records, s')) : Change s owner name s' := by
  unfold register at h
  cases value with
  | none =>
    dsimp only at h
    cases hun : s.unregister owner name with
    | error e =>
      rw [hun] at h
      cases h
    | ok result =>
      obtain ⟨found, s₁⟩ := result
      rw [hun] at h
      cases h
      exact unregister_change hun
  | some value =>
    dsimp only at h
    split at h
    · cases h
    · rename_i hrefused
      cases h
      refine .put (fun existing he => ?_) value
      rw [he] at hrefused
      cases hmay : owner.mayChange existing with
      | true => rfl
      | false => simp [hmay] at hrefused

/-- A value that may be put under a name is put there. -/
theorem register_of_permits {owner : Owner} (h : s.Permits owner name) (value : α) :
    s.register owner name (some value) = .ok ([registered owner name], s.put owner name value) := by
  unfold register
  cases howner : s.owner? name with
  | none => rfl
  | some existing =>
    have hmay := h existing howner
    simp only [hmay, if_true]
    rfl

/-- Nobody comes to own a name by removing one. -/
theorem owner?_of_unregister {owner o : Owner} {found : Bool} {m : String}
    (h : s.unregister owner name = .ok (found, s')) (ho : s'.owner? m = some o) :
    s.owner? m = some o := by
  unfold unregister at h
  split at h
  · cases h
    exact ho
  · split at h
    · cases h
      rw [owner?_erase] at ho
      split at ho
      · cases ho
      · exact ho
    · cases h

/-- Who comes to own a name put a value there, and was permitted to. -/
theorem owner?_of_register {owner o : Owner} {value : Option α} {records : List Record} {m : String}
    (h : s.register owner name value = .ok (records, s')) (ho : s'.owner? m = some o) :
    s.owner? m = some o ∨ (o = owner ∧ value.isSome ∧ s.Permits owner name) := by
  cases value with
  | none =>
    unfold register at h
    cases hun : s.unregister owner name with
    | error e => rw [hun] at h; cases h
    | ok result =>
      rw [hun] at h
      cases h
      exact .inl (owner?_of_unregister hun ho)
  | some value =>
    cases register_change h with
    | same => exact .inl ho
    | erased _ =>
      rw [owner?_erase] at ho
      split at ho
      · cases ho
      · exact .inl ho
    | put hpermits value =>
      rw [owner?_put] at ho
      split at ho
      · exact .inr ⟨(Option.some.inj ho).symm, rfl, hpermits⟩
      · exact .inl ho

theorem Change.inStep {owner : Owner} (h : Change s owner name s') (hs : s.InStep) : s'.InStep := by
  cases h with
  | same => exact hs
  | erased _ => exact hs.erase name
  | put _ value => exact hs.put owner name value

/-- Whatever a script does, what is not its own stays as it is. -/
theorem Change.foreign? (h : Change s (.script script) name s') (m : String) :
    s'.foreign? script m = s.foreign? script m := by
  -- where a script may make a change, nothing is another's
  have hown : s.Permits (.script script) name → s.foreign? script name = none := by
    intro hpermits
    unfold SharedObjects.foreign?
    cases howner : s.owner? name with
    | none => rfl
    | some existing =>
      have hmay := hpermits existing howner
      rw [Owner.mayChange, Bool.or_eq_true, beq_iff_eq, beq_iff_eq] at hmay
      exact if_pos (hmay.resolve_left fun heq => nomatch heq).symm
  cases h with
  | same => rfl
  | erased hpermits =>
    by_cases hm : name = m
    · subst hm
      rw [hown hpermits]
      unfold SharedObjects.foreign?
      rw [owner?_erase, if_pos rfl]
    · unfold SharedObjects.foreign?
      rw [owner?_erase, get?_erase, if_neg hm, if_neg hm]
  | put hpermits value =>
    by_cases hm : name = m
    · subst hm
      rw [hown hpermits]
      unfold SharedObjects.foreign?
      rw [owner?_put, if_pos rfl]
      exact if_pos rfl
    · unfold SharedObjects.foreign?
      rw [owner?_put, get?_put, if_neg hm, if_neg hm]

/-! ## Release -/

theorem mem_ownedBy : name ∈ s.ownedBy script ↔ s.owner? name = some (.script script) := by
  unfold ownedBy owner?
  rw [List.mem_map]
  constructor
  · rintro ⟨⟨k, owner⟩, hmem, rfl⟩
    rw [List.mem_filter, beq_iff_eq] at hmem
    rw [← hmem.2]
    exact NameMap.mem_toList.mp hmem.1
  · intro howner
    refine ⟨(name, .script script), ?_, rfl⟩
    rw [List.mem_filter, beq_iff_eq]
    exact ⟨NameMap.mem_toList.mpr howner, rfl⟩

theorem foldl_erase (names : List String) (m : String) :
    (names.foldl erase s).get? m = (if m ∈ names then none else s.get? m) ∧
      (names.foldl erase s).owner? m = if m ∈ names then none else s.owner? m := by
  induction names generalizing s with
  | nil => exact ⟨rfl, rfl⟩
  | cons k names ih =>
    obtain ⟨hget, howner⟩ := ih (s := s.erase k)
    rw [List.foldl_cons, hget, howner, get?_erase, owner?_erase]
    by_cases hmem : m ∈ names
    · simp [hmem]
    · by_cases hk : k = m
      · simp [hk]
      · simp [hmem, hk, Ne.symm hk]

theorem owner?_releaseOwnedBy (m : String) : (s.releaseOwnedBy script).2.owner? m =
    if s.owner? m = some (.script script) then none else s.owner? m := by
  unfold releaseOwnedBy
  rw [(foldl_erase _ m).2]
  simp only [mem_ownedBy]

/-- What a script owns after a release, another script owns. -/
theorem owner?_of_release {m owner : String}
    (ho : (s.releaseOwnedBy script).2.owner? m = some (.script owner)) :
    s.owner? m = some (.script owner) ∧ owner ≠ script := by
  rw [owner?_releaseOwnedBy] at ho
  split at ho
  · cases ho
  · rename_i hother
    refine ⟨ho, fun heq => hother ?_⟩
    rw [ho, heq]

theorem get?_releaseOwnedBy (m : String) : (s.releaseOwnedBy script).2.get? m =
    if s.owner? m = some (.script script) then none else s.get? m := by
  unfold releaseOwnedBy
  rw [(foldl_erase _ m).1]
  simp only [mem_ownedBy]

theorem InStep.releaseOwnedBy (h : s.InStep) (script : String) :
    (s.releaseOwnedBy script).2.InStep := by
  intro m
  rw [get?_releaseOwnedBy, owner?_releaseOwnedBy]
  split
  · exact iff_of_true rfl rfl
  · exact h m

theorem foreign?_releaseOwnedBy (m : String) :
    (s.releaseOwnedBy script).2.foreign? script m = s.foreign? script m := by
  unfold foreign?
  rw [owner?_releaseOwnedBy, get?_releaseOwnedBy]
  by_cases howner : s.owner? m = some (.script script)
  · rw [if_pos howner, howner]
    exact (if_pos rfl).symm
  · rw [if_neg howner, if_neg howner]

/-- Objects that are the same to everyone but a script, of which the script has none, are those without the
script's. -/
theorem eq_of_foreign? (hs : s.InStep) (hs' : s'.InStep)
    (hforeign : ∀ m, s'.foreign? script m = s.foreign? script m)
    (hnone : ∀ m, s'.owner? m ≠ some (.script script)) (m : String) :
    (s'.owner? m = if s.owner? m = some (.script script) then none else s.owner? m) ∧
      s'.get? m = if s.owner? m = some (.script script) then none else s.get? m := by
  have hm := hforeign m
  unfold foreign? at hm
  cases howner' : s'.owner? m with
  | none =>
    have hget' := (hs' m).mpr howner'
    cases howner : s.owner? m with
    | none => simp [hget', (hs m).mpr howner]
    | some owner =>
      by_cases hown : owner = .script script
      · simp [hown, hget']
      · simp [howner', howner, hown] at hm
  | some owner' =>
    -- the script has none of the objects now
    have hother : owner' ≠ .script script := fun heq => hnone m (howner'.trans (congrArg some heq))
    cases howner : s.owner? m with
    | none => simp [howner', howner, hother] at hm
    | some owner =>
      by_cases hown : owner = .script script
      · simp [howner', howner, hother, hown] at hm
      · simp only [howner', howner, hother, hown, if_false, Option.some.injEq, Prod.mk.injEq] at hm
        simp [hown, hm.1, hm.2]

end SharedObjects
end ScriptHost
