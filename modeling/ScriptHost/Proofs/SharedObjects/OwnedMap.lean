import Mathlib.Data.Set.Card
import ScriptHost.Proofs.SharedObjects

/-!
# Shared objects as one map

The values and the owners are kept in two stores. To whoever uses them they are one map, from names to an owner and
a value, with rules of its own about who may change what.

* `OwnedMap.answer`: what the map does about a request.
* `Shows s m`: the two stores hold what the map holds.
* `runAll_shows`: the main result, for every list of requests.
-/

namespace ScriptHost

/-! ## Requests -/

/-- What the host and the scripts ask of the shared objects. A value that is absent is nil. -/
inductive ObjectRequest (α : Type) where
  | register (asker : Owner) (name : String) (value : Option α)
  | unregister (asker : Owner) (name : String)
  | release (script : String)

/-- What a request is answered, if it is not refused. -/
inductive ObjectAnswer where
  | registered
  /-- Whether there was an entry to remove. -/
  | removed (found : Bool)
  /-- The number of entries removed. -/
  | released (count : ℕ)

/-! ## One map -/

/-- The owner and the value of each name in use. -/
abbrev OwnedMap (α : Type) := String → Option (Owner × α)

namespace OwnedMap

variable {α : Type}

/-- The map with another entry, or none, under a name. -/
def assign (m : OwnedMap α) (name : String) (entry : Option (Owner × α)) : OwnedMap α :=
  Function.update m name entry

/-- Whose entry keeps an asker from changing a name: the host may change every entry, a script those that it owns,
and everybody a name that is free. -/
def obstacle? (m : OwnedMap α) (name : String) : Owner → Option Owner
  | .host => none
  | .script script =>
    match m name with
    | none => none
    | some (.host, _) => some .host
    | some (.script owner, _) => if owner = script then none else some (.script owner)

/-- The entries of a script. -/
def namesOf (m : OwnedMap α) (script : String) : Set String :=
  {name | (m name).map Prod.fst = some (.script script)}

/-- Take an entry away; tells whether there was one. -/
def remove (m : OwnedMap α) (asker : Owner) (name : String) : Except HostError Bool × OwnedMap α :=
  match m.obstacle? name asker with
  | some owner => (.error (.sharedObject s!"'{name}' is registered by {owner.text}"), m)
  | none => (.ok (m name).isSome, m.assign name none)

open Classical in
/-- What the map does about a request, and what it answers. -/
noncomputable def answer (m : OwnedMap α) :
    ObjectRequest α → Except HostError ObjectAnswer × OwnedMap α
  | .register asker name (some value) =>
    match m.obstacle? name asker with
    | some owner => (.error (.sharedObject s!"'{name}' is already registered by {owner.text}"), m)
    | none => (.ok .registered, m.assign name (some (asker, value)))
  | .register asker name none => ((m.remove asker name).1.map fun _ => .registered, (m.remove asker name).2)
  | .unregister asker name => ((m.remove asker name).1.map .removed, (m.remove asker name).2)
  | .release script =>
    (.ok (.released (m.namesOf script).ncard), fun name => if name ∈ m.namesOf script then none else m name)

/-- What the map answers to a list of requests, and what it comes to. -/
noncomputable def answerAll (m : OwnedMap α) :
    List (ObjectRequest α) → List (Except HostError ObjectAnswer) × OwnedMap α
  | [] => ([], m)
  | request :: requests =>
    ((m.answer request).1 :: ((m.answer request).2.answerAll requests).1,
      ((m.answer request).2.answerAll requests).2)

end OwnedMap

namespace SharedObjects

variable {α : Type} {s s' : SharedObjects α} {m m' : OwnedMap α} {script name : String} {asker : Owner}

/-! ## Two stores -/

/-- What the shared objects do about a request. A request that is refused leaves them as they are. -/
def run (s : SharedObjects α) : ObjectRequest α → Except HostError ObjectAnswer × SharedObjects α
  | .register asker name value =>
    match s.register asker name value with
    | .ok (_, s') => (.ok .registered, s')
    | .error e => (.error e, s)
  | .unregister asker name =>
    match s.unregister asker name with
    | .ok (found, s') => (.ok (.removed found), s')
    | .error e => (.error e, s)
  | .release script => (.ok (.released (s.releaseOwnedBy script).1), (s.releaseOwnedBy script).2)

/-- What they answer to a list of requests, and what they come to. -/
def runAll (s : SharedObjects α) :
    List (ObjectRequest α) → List (Except HostError ObjectAnswer) × SharedObjects α
  | [] => ([], s)
  | request :: requests =>
    ((s.run request).1 :: ((s.run request).2.runAll requests).1, ((s.run request).2.runAll requests).2)

/-- The owners and the values are those of the map. -/
def Shows (s : SharedObjects α) (m : OwnedMap α) : Prop :=
  ∀ name, s.owner? name = (m name).map Prod.fst ∧ s.get? name = (m name).map Prod.snd

/-- Stores that hold one map are in step. -/
theorem Shows.inStep (h : s.Shows m) : s.InStep := by
  intro name
  rw [(h name).1, (h name).2, Option.map_eq_none_iff, Option.map_eq_none_iff]

/-- The names in use are those of the map's entries. -/
theorem Shows.mem_names (h : s.Shows m) : name ∈ s.names ↔ (m name).isSome := by
  have howner := (h name).1
  rw [owner?, Std.TreeMap.get?_eq_getElem?] at howner
  rw [names, Std.TreeMap.mem_keys, Std.TreeMap.mem_iff_isSome_getElem?, howner, Option.isSome_map]

theorem shows_empty : ({} : SharedObjects α).Shows fun _ => none := fun name =>
  ⟨NameMap.get?_empty name, NameMap.get?_empty name⟩

theorem Shows.put (h : s.Shows m) (owner : Owner) (name : String) (value : α) :
    (s.put owner name value).Shows (m.assign name (some (owner, value))) := by
  intro k
  rw [owner?_put, get?_put, OwnedMap.assign, Function.update_apply]
  by_cases hk : name = k
  · subst hk
    simp
  · rw [if_neg hk, if_neg hk, if_neg (Ne.symm hk)]
    exact h k

theorem Shows.erase (h : s.Shows m) (name : String) : (s.erase name).Shows (m.assign name none) := by
  intro k
  rw [owner?_erase, get?_erase, OwnedMap.assign, Function.update_apply]
  by_cases hk : name = k
  · subst hk
    simp
  · rw [if_neg hk, if_neg hk, if_neg (Ne.symm hk)]
    exact h k

/-! ## Who may change what -/

/-- The stores let an asker pass where the map does, and name the same owner where it does not. -/
theorem Shows.obstacle?_eq (h : s.Shows m) (asker : Owner) (name : String) :
    m.obstacle? name asker =
      (s.owner? name).bind fun owner => if asker.mayChange owner then none else some owner := by
  rw [(h name).1]
  cases asker with
  | host => cases m name <;> rfl
  | script script =>
    unfold OwnedMap.obstacle? Owner.mayChange
    rcases m name with _ | ⟨owner | owner, value⟩
    · rfl
    · rfl
    · by_cases howner : owner = script
      · simp [howner]
      · simp [howner, Ne.symm howner]

/-- To remove a name that nobody uses changes nothing. -/
theorem Shows.of_free (h : s.Shows m) (hfree : m name = none) : s.Shows (m.assign name none) := by
  rw [OwnedMap.assign, ← hfree, Function.update_eq_self]
  exact h

/-! ## Requests and answers -/

/-- A removal is refused by the stores and by the map, or it takes place in both. -/
theorem Shows.unregister_cases (h : s.Shows m) (asker : Owner) (name : String) :
    (∃ e, s.unregister asker name = .error e ∧ m.remove asker name = (.error e, m)) ∨
      ∃ found s', s.unregister asker name = .ok (found, s') ∧
        m.remove asker name = (.ok found, m.assign name none) ∧ s'.Shows (m.assign name none) := by
  have hobstacle := h.obstacle?_eq asker name
  have howner := (h name).1
  unfold unregister OwnedMap.remove
  cases hentry : m name with
  | none =>
    rw [hentry, Option.map_none] at howner
    rw [howner, Option.bind_none] at hobstacle
    rw [howner, hobstacle]
    exact .inr ⟨false, s, rfl, rfl, h.of_free hentry⟩
  | some entry =>
    rw [hentry, Option.map_some] at howner
    rw [howner, Option.bind_some] at hobstacle
    rw [howner, hobstacle]
    dsimp only
    cases asker.mayChange entry.1 with
    | true => exact .inr ⟨true, s.erase name, rfl, rfl, h.erase name⟩
    | false => exact .inl ⟨_, rfl, rfl⟩

/-- A value that is not nil is refused if an owner stands in its way, and is put under its name if none does. -/
theorem register_some_eq (s : SharedObjects α) (asker : Owner) (name : String) (value : α) :
    s.register asker name (some value) =
      match (s.owner? name).bind fun owner => if asker.mayChange owner then none else some owner with
      | some owner => .error (.sharedObject s!"'{name}' is already registered by {owner.text}")
      | none => .ok ([registered asker name], s.put asker name value) := by
  unfold register
  cases s.owner? name <;> rfl

/-- To register nil is to unregister, but for the answer. -/
theorem register_none_eq (s : SharedObjects α) (asker : Owner) (name : String) :
    s.register asker name none = (s.unregister asker name).map fun result => ([], result.2) := rfl

/-- The entries that a release removes are counted. -/
theorem Shows.length_ownedBy (h : s.Shows m) (script : String) :
    (s.ownedBy script).length = (m.namesOf script).ncard := by
  have hnodup : (s.ownedBy script).Nodup := by
    refine List.Nodup.sublist ((List.filter_sublist).map Prod.fst) ?_
    rw [Std.TreeMap.map_fst_toList_eq_keys]
    exact Std.TreeMap.nodup_keys
  have hnames : m.namesOf script = ((s.ownedBy script).toFinset : Set String) := by
    ext name
    rw [Finset.mem_coe, List.mem_toFinset, mem_ownedBy, (h name).1]
    rfl
  rw [hnames, Set.ncard_coe_finset, List.toFinset_card_of_nodup hnodup]

theorem Shows.release (h : s.Shows m) (script : String) :
    (s.releaseOwnedBy script).2.Shows (m.answer (.release script)).2 := by
  classical
  intro name
  have hmem : name ∈ m.namesOf script ↔ s.owner? name = some (.script script) := by
    rw [(h name).1]
    rfl
  rw [owner?_releaseOwnedBy, get?_releaseOwnedBy]
  show _ = (if name ∈ m.namesOf script then none else m name).map Prod.fst ∧
    _ = (if name ∈ m.namesOf script then none else m name).map Prod.snd
  by_cases howned : s.owner? name = some (.script script)
  · rw [if_pos howned, if_pos howned, if_pos (hmem.mpr howned)]
    exact ⟨rfl, rfl⟩
  · rw [if_neg howned, if_neg howned, if_neg (mt hmem.mp howned)]
    exact h name

/-- The stores answer a request as the map does, and hold afterwards what the map holds. -/
theorem Shows.run (h : s.Shows m) (request : ObjectRequest α) :
    (s.run request).1 = (m.answer request).1 ∧ (s.run request).2.Shows (m.answer request).2 := by
  cases request with
  | register asker name value =>
    cases value with
    | none =>
      simp only [SharedObjects.run, OwnedMap.answer, register_none_eq]
      rcases h.unregister_cases asker name with ⟨e, hstores, hmap⟩ | ⟨found, s', hstores, hmap, hshows⟩
      · rw [hstores, hmap]
        exact ⟨rfl, h⟩
      · rw [hstores, hmap]
        exact ⟨rfl, hshows⟩
    | some value =>
      simp only [SharedObjects.run, OwnedMap.answer, register_some_eq, ← h.obstacle?_eq]
      cases m.obstacle? name asker with
      | some owner => exact ⟨rfl, h⟩
      | none => exact ⟨rfl, h.put asker name value⟩
  | unregister asker name =>
    simp only [SharedObjects.run, OwnedMap.answer]
    rcases h.unregister_cases asker name with ⟨e, hstores, hmap⟩ | ⟨found, s', hstores, hmap, hshows⟩
    · rw [hstores, hmap]
      exact ⟨rfl, h⟩
    · rw [hstores, hmap]
      exact ⟨rfl, hshows⟩
  | release script =>
    refine ⟨?_, h.release script⟩
    show Except.ok (ObjectAnswer.released (s.ownedBy script).length) = _
    rw [h.length_ownedBy]
    rfl

theorem Shows.runAll (h : s.Shows m) (requests : List (ObjectRequest α)) :
    (s.runAll requests).1 = (m.answerAll requests).1 ∧
      (s.runAll requests).2.Shows (m.answerAll requests).2 := by
  induction requests generalizing s m with
  | nil => exact ⟨rfl, h⟩
  | cons request requests ih =>
    obtain ⟨hanswer, hnext⟩ := h.run request
    obtain ⟨hanswers, hend⟩ := ih hnext
    exact ⟨congrArg₂ List.cons hanswer hanswers, hend⟩

/-- **Shared objects are one map.** Whatever the host and the scripts ask, one after the other, of shared objects that
are empty at first: the two stores answer as the map from names to an owner and a value does, and at the end they hold
what it holds. So a name has a value if it has an owner, and only then. -/
theorem runAll_shows (requests : List (ObjectRequest α)) :
    let stores := ({} : SharedObjects α).runAll requests
    let map := OwnedMap.answerAll (fun _ => none) requests
    stores.1 = map.1 ∧ stores.2.InStep ∧ ∀ name,
      stores.2.owner? name = (map.2 name).map Prod.fst ∧
      stores.2.get? name = (map.2 name).map Prod.snd ∧
      (name ∈ stores.2.names ↔ (map.2 name).isSome) := by
  obtain ⟨hanswers, hshows⟩ := shows_empty.runAll requests
  exact ⟨hanswers, hshows.inStep, fun name => ⟨(hshows name).1, (hshows name).2, hshows.mem_names⟩⟩

end SharedObjects
end ScriptHost
