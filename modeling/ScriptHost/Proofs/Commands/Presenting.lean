import Mathlib.Data.List.Induction
import ScriptHost.Proofs.Commands
import ScriptHost.Proofs.Histories

/-!
# What the command table presents

A command table goes from empty through a history of requests. Its mark `changed` stands exactly while a command
has been altered since the last sync (`changed_iff_altered`), so that a sync is counted when there is
something to present, and what was presented last is what is in the table (`run_eq_of_uncounted`).
-/

namespace ScriptHost
namespace CommandTable

variable {t t' : CommandTable} {name : String} {command c : Command}

/-! ## The list of the commands -/

/-- The script that published a command, as it is found in the list. -/
def listedOwner? (t : CommandTable) (name : String) : Option String :=
  (t.list.find? fun c => c.name == name).map Command.owner

theorem Keyed.mem_list (h : t.Keyed) : c ∈ t.list ↔ t.get? c.name = some c := by
  rw [list, NameMap.mem_values]
  constructor
  · rintro ⟨k, hk⟩
    have hname : c.name = k := h k c hk
    rw [hname]
    exact hk
  · exact fun hc => ⟨c.name, hc⟩

/-- To look a name up in the list is to look it up in the table. -/
theorem Keyed.find?_list (h : t.Keyed) (name : String) :
    (t.list.find? fun c => c.name == name) = t.get? name := by
  cases hfind : t.list.find? fun c => c.name == name with
  | none =>
    cases hget : t.get? name with
    | none => rfl
    | some c =>
      have hname : c.name = name := h name c hget
      have hmem : c ∈ t.list := h.mem_list.mpr (by rw [hname]; exact hget)
      have hother := List.find?_eq_none.mp hfind c hmem
      rw [beq_iff_eq] at hother
      exact absurd hname hother
  | some c =>
    have hname : c.name = name := by simpa using List.find?_some hfind
    rw [← hname]
    exact (h.mem_list.mp (List.mem_of_find?_eq_some hfind)).symm

theorem Keyed.listedOwner? (h : t.Keyed) (name : String) : t.listedOwner? name = t.owner? name :=
  congrArg (Option.map Command.owner) (h.find?_list name)

/-- Tables that list the same commands find the same ones. -/
theorem Keyed.get?_eq_of_list_eq (h : t.Keyed) (h' : t'.Keyed) (hlist : t.list = t'.list)
    (name : String) : t.get? name = t'.get? name := by
  rw [← h.find?_list name, hlist, h'.find?_list name]

theorem Keyed.sorted_list (h : t.Keyed) : t.list.Pairwise fun a b => a.name < b.name := by
  rw [list, NameMap.values_eq, List.pairwise_map]
  refine Std.TreeMap.ordered_keys_toList.imp_of_mem fun {a b} ha hb hlt => ?_
  have haname : a.2.name = a.1 := h _ _ (NameMap.mem_toList.mp ha)
  have hbname : b.2.name = b.1 := h _ _ (NameMap.mem_toList.mp hb)
  rw [haname, hbname]
  exact compareOfLessAndEq_eq_lt.mp hlt

/-! ## Requests -/

/-- What is asked of a command table. -/
inductive Request where
  | register (command : Command)
  | unregister (name : String)
  | sync
deriving DecidableEq

/-- The table after a request; a refused command leaves it as it was. -/
def exec (t : CommandTable) : Request → CommandTable
  | .register command =>
    match t.register command with
    | .ok t' => t'
    | .error _ => t
  | .unregister name => (t.unregister name).2
  | .sync => t.sync.2

/-- The table after a history of requests. -/
def run (history : List Request) : CommandTable := history.foldl exec {}

@[simp] theorem run_nil : run [] = {} := rfl

@[simp] theorem run_append_singleton (history : List Request) (r : Request) :
    run (history ++ [r]) = (run history).exec r := by
  simp [run]

theorem Keyed.exec (h : t.Keyed) (r : Request) : (t.exec r).Keyed := by
  cases r with
  | register command =>
    rw [CommandTable.exec]
    split
    · exact h.register ‹_›
    · exact h
  | unregister name => exact h.unregister name
  | sync => exact h.sync

theorem keyed_run (history : List Request) : (run history).Keyed := by
  induction history using List.reverseRecOn with
  | nil => exact keyed_empty
  | append_singleton history r ih =>
    rw [run_append_singleton]
    exact ih.exec r

/-! ## Owners -/

/-- A command is another script's and refused, stands as it is, or is new under its name. -/
theorem register_cases (t : CommandTable) (command : Command) :
    (∃ owner, t.owner? command.name = some owner ∧ owner ≠ command.owner ∧
      t.register command = .error
        (.command s!"'{command.name}' is already registered by script '{owner}'")) ∨
    (t.get? command.name = some command ∧ t.register command = .ok t) ∨
    (t.get? command.name ≠ some command ∧ t.register command = .ok
      { t with entries := t.entries.insert command.name command, changed := true }) := by
  unfold register owner?
  cases hget : t.get? command.name with
  | none => exact .inr (.inr ⟨nofun, rfl⟩)
  | some existing =>
    by_cases howner : existing.owner = command.owner
    · by_cases hsame : existing = command
      · exact .inr (.inl ⟨by rw [hsame], by simp [hsame]⟩)
      · exact .inr (.inr ⟨fun h => hsame (Option.some.inj h), by simp [howner, hsame]⟩)
    · exact .inl ⟨existing.owner, rfl, howner, if_pos (by simpa using howner)⟩

/-- A command that another script has published is refused. -/
theorem register_of_other {owner : String} (howner : t.owner? command.name = some owner)
    (hother : owner ≠ command.owner) :
    t.register command = .error
      (.command s!"'{command.name}' is already registered by script '{owner}'") := by
  obtain ⟨existing, hget, rfl⟩ := Option.map_eq_some_iff.mp howner
  simp [register, hget, hother]

/-- A command is published if no other script has one of that name. -/
theorem get?_exec_register (h : ∀ owner, t.owner? command.name = some owner → owner = command.owner) :
    (t.exec (.register command)).get? command.name = some command := by
  obtain ⟨owner, howner, hother, -⟩ | ⟨hget, hreg⟩ | ⟨-, hreg⟩ := register_cases t command
  · exact absurd (h owner howner) hother
  · simp only [exec, hreg, hget]
  · simp only [exec, hreg]
    rw [get?, NameMap.get?_insert, if_pos rfl]

/-- Only to withdraw a command takes it from its owner. -/
theorem owner?_exec {owner : String} {r : Request} (howner : t.owner? name = some owner)
    (hr : r ≠ .unregister name) : (t.exec r).owner? name = some owner := by
  cases r with
  | register command =>
    rw [exec]
    split
    · rename_i t' hok
      obtain hsame | ⟨rfl, hget⟩ := get?_of_register_ok hok name
      · rw [owner?, hsame]
        exact howner
      · have hown := (owner?_of_register_ok hok).2
        rw [howner, Option.getD_some] at hown
        rw [owner?, hget, hown]
        rfl
    · exact howner
  | unregister k =>
    have hk : k ≠ name := fun h => hr (congrArg Request.unregister h)
    rw [exec, owner?, get?_unregister, if_neg hk]
    exact howner
  | sync =>
    rw [exec, owner?, get?_sync]
    exact howner

/-- An owner keeps a name as long as it is not withdrawn. -/
theorem owner?_run_append {owner : String} {before : List Request} (between : List Request)
    (howner : (run before).owner? name = some owner) (hbetween : .unregister name ∉ between) :
    (run (before ++ between)).owner? name = some owner := by
  induction between using List.reverseRecOn with
  | nil => simpa using howner
  | append_singleton between r ih =>
    rw [List.mem_append, List.mem_singleton, not_or] at hbetween
    rw [← List.append_assoc, run_append_singleton]
    exact owner?_exec (ih hbetween.1) (Ne.symm hbetween.2)

/-! ## Changes -/

/-- A request that is no sync leaves the table alone, or alters a command and marks the change. -/
theorem exec_cases (t : CommandTable) {r : Request} (hr : r ≠ .sync) :
    t.exec r = t ∨ (t.exec r).changed = true ∧ (t.exec r).syncs = t.syncs ∧
      ∃ name, (t.exec r).get? name ≠ t.get? name := by
  cases r with
  | register command =>
    -- a command is refused, or known as it is, or altered
    obtain ⟨owner, -, -, hreg⟩ | ⟨-, hreg⟩ | ⟨hnew, hreg⟩ := register_cases t command
    · exact .inl (by simp only [exec, hreg])
    · exact .inl (by simp only [exec, hreg])
    · have hexec : t.exec (.register command) =
          { t with entries := t.entries.insert command.name command, changed := true } := by
        simp only [exec, hreg]
      rw [hexec]
      refine .inr ⟨rfl, rfl, command.name, fun h => hnew ?_⟩
      rw [get?, NameMap.get?_insert, if_pos rfl] at h
      exact h.symm
  | unregister name =>
    cases hget : t.get? name with
    | none => exact .inl (by simp only [exec, unregister, hget])
    | some c =>
      refine .inr ⟨by simp only [exec, unregister, hget], by simp only [exec, unregister, hget],
        name, ?_⟩
      rw [exec, get?_unregister, if_pos rfl, hget]
      exact (Option.some_ne_none c).symm
  | sync => exact absurd rfl hr

/-- A request that is no sync leaves the count alone. -/
theorem syncs_exec {r : Request} (hr : r ≠ .sync) : (t.exec r).syncs = t.syncs := by
  obtain hsame | ⟨-, hsyncs, -⟩ := exec_cases t hr
  · rw [hsame]
  · exact hsyncs

/-- What marks no change makes none. -/
theorem exec_eq_of_unchanged {r : Request} (hr : r ≠ .sync) (h : (t.exec r).changed = false) :
    t.exec r = t := by
  obtain hsame | ⟨hchanged, -⟩ := exec_cases t hr
  · exact hsame
  · rw [h] at hchanged
    cases hchanged

/-- A change is marked only if a command was altered. -/
theorem list_exec_ne_of_changed (hkeyed : t.Keyed) {r : Request} (hr : r ≠ .sync)
    (h : t.changed = false) (h' : (t.exec r).changed = true) : (t.exec r).list ≠ t.list := by
  obtain hsame | ⟨-, -, name, hname⟩ := exec_cases t hr
  · rw [hsame, h] at h'
    cases h'
  · exact fun hlist => hname ((hkeyed.exec r).get?_eq_of_list_eq hkeyed hlist name)

theorem changed_sync (t : CommandTable) : t.sync.2.changed = false := by
  unfold sync
  split
  · rfl
  · rename_i h
    simpa using h

theorem syncs_sync (t : CommandTable) :
    t.sync.2.syncs = t.syncs + if t.changed then 1 else 0 := by
  unfold sync
  split <;> rfl

/-- A sync of an unchanged table does nothing. -/
theorem sync_of_unchanged (h : t.changed = false) : t.sync.2 = t := by
  unfold sync
  rw [h]
  rfl

/-- A command was altered since the last sync. -/
def Altered (history : List Request) : Prop :=
  ∃ before r since, history = before ++ r :: since ∧ .sync ∉ r :: since ∧
    (run (before ++ [r])).list ≠ (run before).list

theorem not_altered_sync (history : List Request) : ¬ Altered (history ++ [.sync]) := by
  rintro ⟨before, r, since, hsplit, hsync, -⟩
  refine hsync ?_
  obtain ⟨rfl, -, rfl⟩ | ⟨since', rfl, -⟩ := append_singleton_split hsplit
  · exact List.mem_singleton_self _
  · simp

/-- With one more request there is an alteration if there was one before or the request makes one. -/
theorem altered_append_singleton (history : List Request) {r : Request} (hr : r ≠ .sync) :
    Altered (history ++ [r]) ↔
      Altered history ∨ (run (history ++ [r])).list ≠ (run history).list := by
  constructor
  · rintro ⟨before, r', since, hsplit, hsync, halters⟩
    obtain ⟨rfl, rfl, rfl⟩ | ⟨since', rfl, rfl⟩ := append_singleton_split hsplit
    · exact .inr halters
    · refine .inl ⟨before, r', since', rfl, fun hmem => hsync ?_, halters⟩
      rw [← List.cons_append]
      exact List.mem_append_left _ hmem
  · rintro (⟨before, r', since, rfl, hsync, halters⟩ | halters)
    · refine ⟨before, r', since ++ [r], by simp, fun hmem => ?_, halters⟩
      rw [← List.cons_append, List.mem_append, List.mem_singleton] at hmem
      exact hmem.elim hsync fun h => hr h.symm
    · exact ⟨history, r, [], rfl, by simpa using hr.symm, halters⟩

/-- The table is marked as changed exactly if a command was altered since the last sync. -/
theorem changed_iff_altered (history : List Request) :
    (run history).changed = true ↔ Altered history := by
  induction history using List.reverseRecOn with
  | nil => exact ⟨nofun, fun ⟨before, r, since, hsplit, _⟩ => by simp at hsplit⟩
  | append_singleton history r ih =>
    by_cases hr : r = .sync
    · subst hr
      rw [run_append_singleton, exec, changed_sync]
      exact ⟨nofun, fun h => absurd h (not_altered_sync history)⟩
    · rw [altered_append_singleton history hr, ← ih, run_append_singleton]
      constructor
      · intro h
        cases hold : (run history).changed with
        | true => exact .inl rfl
        | false => exact .inr (list_exec_ne_of_changed (keyed_run history) hr hold h)
      · intro h
        cases hnew : ((run history).exec r).changed with
        | true => rfl
        | false =>
          have hsame := exec_eq_of_unchanged hr hnew
          rw [hsame] at hnew h
          rw [hnew] at h
          exact h.elim id fun hne => absurd rfl hne

/-! ## Syncs -/

/-- The sync after a history is counted. -/
def Counted (history : List Request) : Prop :=
  (run (history ++ [.sync])).syncs = (run history).syncs + 1

theorem counted_iff_altered (history : List Request) : Counted history ↔ Altered history := by
  rw [Counted, run_append_singleton, exec, syncs_sync, ← changed_iff_altered]
  cases (run history).changed <;> simp

/-- Until the next counted sync, the table is marked as changed or is what it was. -/
theorem changed_or_eq_of_uncounted {before after : List Request}
    (huncounted : ∀ before' after', after = before' ++ .sync :: after' → ¬ Counted (before ++ before')) :
    (run (before ++ after)).changed = true ∨ run (before ++ after) = run before := by
  induction after using List.reverseRecOn with
  | nil => exact .inr (by rw [List.append_nil])
  | append_singleton after r ih =>
    have hsofar := ih fun before' after' hsplit =>
      huncounted before' (after' ++ [r]) (by rw [hsplit]; simp)
    rw [← List.append_assoc, run_append_singleton]
    cases hnew : ((run (before ++ after)).exec r).changed with
    | true => exact .inl rfl
    | false =>
      refine .inr ?_
      have hsame : (run (before ++ after)).exec r = run (before ++ after) := by
        by_cases hr : r = .sync
        · subst hr
          -- a sync that counts nothing has nothing to present
          have hnot := huncounted after [] rfl
          rw [counted_iff_altered, ← changed_iff_altered, Bool.not_eq_true] at hnot
          exact sync_of_unchanged hnot
        · exact exec_eq_of_unchanged hr hnew
      rw [hsame] at hnew ⊢
      rw [hnew] at hsofar
      exact hsofar.resolve_left Bool.false_ne_true

/-- A sync after which none was counted finds the table as that one left it. -/
theorem run_eq_of_uncounted {before after : List Request}
    (hlast : (run (before ++ after)).changed = false)
    (huncounted : ∀ before' after', after = before' ++ .sync :: after' → ¬ Counted (before ++ before')) :
    run (before ++ after) = run before :=
  (changed_or_eq_of_uncounted huncounted).resolve_left fun htrue => by
    rw [hlast] at htrue
    cases htrue

/-- After any history: the commands stand under their names, in order; a name belongs to one script until it is
withdrawn; what is withdrawn is gone, the others stay, and the answer tells whether it was there; a sync is counted
exactly if a command was altered since the one before, and leaves what the last counted one presented; and an owner is
found in the list as it is in the table. -/
theorem presents_every_change (history : List Request) :
    ((run history).Keyed ∧ (run history).list.Pairwise fun a b => a.name < b.name) ∧
    (∀ command owner, (run history).owner? command.name = some owner → owner ≠ command.owner →
      (run history).register command = .error
        (.command s!"'{command.name}' is already registered by script '{owner}'") ∧
      run (history ++ [.register command]) = run history) ∧
    (∀ command, (∀ owner, (run history).owner? command.name = some owner → owner = command.owner) →
      (run (history ++ [.register command])).get? command.name = some command) ∧
    (∀ name owner between, (run history).owner? name = some owner → .unregister name ∉ between →
      (run (history ++ between)).owner? name = some owner) ∧
    (∀ name, ((run history).unregister name).1 = ((run history).get? name).isSome ∧
      ∀ n, (run (history ++ [.unregister name])).get? n = if name = n then none else (run history).get? n) ∧
    ((∀ before after, history ++ [.sync] = before ++ .sync :: after → ¬ Counted before) →
      run (history ++ [.sync]) = {}) ∧
    (∀ before after, history ++ [.sync] = before ++ .sync :: after → Counted before →
      (∀ before' after', after = before' ++ .sync :: after' →
        ¬ Counted (before ++ .sync :: before')) →
      run (history ++ [.sync]) = run (before ++ [.sync])) ∧
    (Altered history → (run (history ++ [.sync])).syncs = (run history).syncs + 1) ∧
    (¬ Altered history → (run (history ++ [.sync])).syncs = (run history).syncs) ∧
    (∀ r, r ≠ .sync → (run (history ++ [r])).syncs = (run history).syncs) ∧
    ∀ name, (run history).owner? name = (run history).listedOwner? name := by
  -- right after a sync nothing is left to present
  have hsynced : (run (history ++ [.sync])).changed = false := by
    rw [run_append_singleton, exec, changed_sync]
  refine ⟨⟨keyed_run history, (keyed_run history).sorted_list⟩, ?refused, ?published, ?kept,
    ?withdrawn, ?untold, ?told, (counted_iff_altered history).mpr, ?unaltered, ?others,
    fun name => ((keyed_run history).listedOwner? name).symm⟩
  case refused =>
    intro command owner howner hother
    have hrefused := register_of_other howner hother
    refine ⟨hrefused, ?_⟩
    rw [run_append_singleton, exec, hrefused]
  case published =>
    intro command hown
    rw [run_append_singleton]
    exact get?_exec_register hown
  case kept =>
    intro name owner between howner hbetween
    exact owner?_run_append between howner hbetween
  case withdrawn =>
    intro name
    refine ⟨fst_unregister _ name, fun n => ?_⟩
    rw [run_append_singleton, exec, get?_unregister]
  case untold =>
    intro huncounted
    -- the first table is empty, and no change has been counted since
    have hstart : run ([] ++ (history ++ [.sync])) = run [] := run_eq_of_uncounted hsynced huncounted
    exact hstart
  case told =>
    intro before after hsplit _ huncounted
    -- between the last sync that was counted and this one no change has been
    have hwhole : history ++ [.sync] = (before ++ [.sync]) ++ after := by simpa using hsplit
    rw [hwhole] at hsynced ⊢
    exact run_eq_of_uncounted hsynced fun before' after' hafter =>
      by simpa using huncounted before' after' hafter
  case unaltered =>
    intro h
    rw [← changed_iff_altered, Bool.not_eq_true] at h
    rw [run_append_singleton, exec, syncs_sync, h]
    rfl
  case others =>
    intro r hr
    rw [run_append_singleton]
    exact syncs_exec hr

end CommandTable
end ScriptHost
