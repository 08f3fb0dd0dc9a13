import ScriptHost.Commands
import ScriptHost.Proofs.TreeMap

/-!
# Published commands and their owners

Every entry of the command table stands under its own name (`Keyed`), so that the names of a script's commands
are the names under which they are found, and withdrawing them leaves every other entry alone.
-/

namespace ScriptHost
namespace CommandTable

variable {t t' : CommandTable} {script : String}

/-- Every entry stands under its own name. -/
def Keyed (t : CommandTable) : Prop := ∀ name c, t.get? name = some c → c.name = name

theorem keyed_empty : ({} : CommandTable).Keyed := by
  intro name c h
  rw [get?, NameMap.get?_empty] at h
  cases h

theorem Keyed.register (h : t.Keyed) {command : Command} (hok : t.register command = .ok t') :
    t'.Keyed := by
  have hinsert : ∀ changed, Keyed
      { t with entries := t.entries.insert command.name command, changed := changed } := by
    intro changed name c hc
    rw [get?, NameMap.get?_insert] at hc
    split at hc
    · rename_i hname
      obtain rfl := Option.some.inj hc
      exact hname
    · exact h name c hc
  unfold CommandTable.register at hok
  split at hok
  · obtain rfl := Except.ok.inj hok
    exact hinsert true
  · split at hok
    · cases hok
    · split at hok
      · obtain rfl := Except.ok.inj hok
        exact h
      · obtain rfl := Except.ok.inj hok
        exact hinsert true

/-- A command that is found is the one that was published, or was there before. -/
theorem get?_of_register {command c : Command} (hok : t.register command = .ok t') {name : String}
    (hc : t'.get? name = some c) : t.get? name = some c ∨ c = command := by
  have hinsert : (t.entries.insert command.name command).get? name = some c →
      t.get? name = some c ∨ c = command := by
    intro hc
    rw [NameMap.get?_insert] at hc
    split at hc
    · exact .inr (Option.some.inj hc).symm
    · exact .inl hc
  unfold CommandTable.register at hok
  split at hok
  · obtain rfl := Except.ok.inj hok
    exact hinsert hc
  · split at hok
    · cases hok
    · split at hok
      · obtain rfl := Except.ok.inj hok
        exact .inl hc
      · obtain rfl := Except.ok.inj hok
        exact hinsert hc

/-- What is published under a name is published anew by its owner, or stays. -/
theorem get?_of_register_ok {command : Command} (hok : t.register command = .ok t') (name : String) :
    t'.get? name = t.get? name ∨ name = command.name ∧ t'.get? name = some command := by
  have hinsert : (t.entries.insert command.name command).get? name = t.get? name ∨
      name = command.name ∧ (t.entries.insert command.name command).get? name = some command := by
    rw [NameMap.get?_insert]
    split
    · rename_i hname
      exact .inr ⟨hname.symm, rfl⟩
    · exact .inl rfl
  unfold CommandTable.register at hok
  split at hok
  · obtain rfl := Except.ok.inj hok
    exact hinsert
  · split at hok
    · cases hok
    · split at hok
      · obtain rfl := Except.ok.inj hok
        exact .inl rfl
      · obtain rfl := Except.ok.inj hok
        exact hinsert

/-- A command that is published is its owner's, and nobody else had published one of that name. -/
theorem owner?_of_register_ok {command : Command} (hok : t.register command = .ok t') :
    t'.owner? command.name = some command.owner ∧
      (t.owner? command.name).getD command.owner = command.owner := by
  have hinsert : (t.entries.insert command.name command).get? command.name = some command := by
    rw [NameMap.get?_insert, if_pos rfl]
  unfold CommandTable.register at hok
  unfold owner? get?
  split at hok
  · rename_i hnone
    obtain rfl := Except.ok.inj hok
    rw [get?] at hnone
    rw [hinsert, hnone]
    exact ⟨rfl, rfl⟩
  · rename_i existing hsome
    split at hok
    · cases hok
    · rename_i howner
      -- the command was published before, by its owner
      have hsame : existing.owner = command.owner := by simpa using howner
      rw [get?] at hsome
      rw [hsome]
      split at hok
      · obtain rfl := Except.ok.inj hok
        rw [hsome]
        exact ⟨congrArg some hsame, hsame⟩
      · obtain rfl := Except.ok.inj hok
        rw [hinsert]
        exact ⟨rfl, hsame⟩

/-- A command is refused if another has published one of that name. -/
theorem exists_owner_of_register_error {command : Command} {e : HostError}
    (herror : t.register command = .error e) : ∃ owner, t.owner? command.name = some owner := by
  unfold CommandTable.register at herror
  split at herror
  · cases herror
  · rename_i existing hsome
    exact ⟨existing.owner, by rw [owner?, hsome]; rfl⟩

theorem get?_unregister (t : CommandTable) (k m : String) :
    (t.unregister k).2.get? m = if k = m then none else t.get? m := by
  unfold unregister
  cases hk : t.get? k with
  | none =>
    by_cases hm : k = m
    · subst hm
      rw [if_pos rfl]
      exact hk
    · rw [if_neg hm]
  | some c => exact NameMap.get?_erase t.entries k m

/-- The answer to a withdrawal tells whether the command was there. -/
theorem fst_unregister (t : CommandTable) (k : String) : (t.unregister k).1 = (t.get? k).isSome := by
  unfold unregister
  cases t.get? k <;> rfl

theorem Keyed.unregister (h : t.Keyed) (k : String) : (t.unregister k).2.Keyed := by
  intro name c hc
  rw [get?_unregister] at hc
  split at hc
  · cases hc
  · exact h name c hc

@[simp] theorem get?_sync (t : CommandTable) (m : String) : t.sync.2.get? m = t.get? m := by
  unfold sync
  split <;> rfl

theorem Keyed.sync (h : t.Keyed) : t.sync.2.Keyed := by
  intro name c hc
  rw [get?_sync] at hc
  exact h name c hc

/-! ## Withdrawing -/

theorem Keyed.mem_ownedBy (h : t.Keyed) {name : String} :
    name ∈ t.ownedBy script ↔ ∃ c, t.get? name = some c ∧ c.owner = script := by
  unfold ownedBy list get?
  simp only [List.mem_map, List.mem_filter, beq_iff_eq, NameMap.mem_values]
  constructor
  · rintro ⟨c, ⟨⟨k, hk⟩, howner⟩, rfl⟩
    have hkey : c.name = k := h k c hk
    exact ⟨c, hkey ▸ hk, howner⟩
  · rintro ⟨c, hc, howner⟩
    exact ⟨c, ⟨⟨name, hc⟩, howner⟩, h name c hc⟩

/-- The table without the commands of the given names. -/
def withdraw (t : CommandTable) (names : List String) : CommandTable :=
  names.foldl (fun t name => (t.unregister name).2) t

theorem get?_withdraw (names : List String) (m : String) :
    (t.withdraw names).get? m = if m ∈ names then none else t.get? m := by
  induction names generalizing t with
  | nil => rfl
  | cons k names ih =>
    refine (ih (t := (t.unregister k).2)).trans ?_
    rw [get?_unregister]
    by_cases hmem : m ∈ names
    · simp [hmem]
    · by_cases hk : k = m
      · simp [hk]
      · simp [hmem, hk, Ne.symm hk]

theorem Keyed.withdraw (h : t.Keyed) (names : List String) : (t.withdraw names).Keyed := by
  induction names generalizing t with
  | nil => exact h
  | cons k names ih => exact ih (h.unregister k)

/-- To withdraw the commands of a script is to remove those it owns. -/
theorem Keyed.get?_withdraw_ownedBy (h : t.Keyed) (m : String) :
    (t.withdraw (t.ownedBy script)).get? m =
      (t.get? m).filter fun c => c.owner != script := by
  rw [get?_withdraw]
  cases hm : t.get? m with
  | none => simp
  | some c =>
    by_cases howner : c.owner = script
    · rw [if_pos (h.mem_ownedBy.mpr ⟨c, hm, howner⟩)]
      exact (if_neg (by simp [howner])).symm
    · have hnot : m ∉ t.ownedBy script := fun hmem => by
        obtain ⟨c', hc', howner'⟩ := h.mem_ownedBy.mp hmem
        obtain rfl := Option.some.inj (hm.symm.trans hc')
        exact howner howner'
      rw [if_neg hnot]
      exact (if_pos (by simp [howner])).symm

end CommandTable
end ScriptHost
