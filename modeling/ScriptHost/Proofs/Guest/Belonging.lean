import ScriptHost.Proofs.Guest.Access
import ScriptHost.Proofs.Guest.Vault

/-!
# What belongs to the shared environment

Every table that can be reached from the root of an environment that has just been built is a proxy, the metatable
of a proxy, a table behind a proxy, or a table that was there before and can be reached from a key.

* `Vault.Built.belongs_proxy`, `Vault.Built.belongs_behind`: all proxies and the tables behind them belong.
* `Vault.Built.belongs_cases`: nothing else does, keys apart.
* `Vault.Built.follow_congr`: paths depend on tables inside only.
-/

namespace ScriptHost.Guest

section

variable {h h' : Heap} {a : Vault} {p m b r q : ℕ}

/-! ## Steps between tables -/

/-- A key that has a value refers to what the table refers to. -/
theorem Table.Within.key_of_get {t : Table} {S : Ref → Prop} (h : t.Within S) (hi : t.Indexed)
    {k : Key} (hk : (t.get k).isNil = false) : k.toValue.Within S := by
  refine h.key ?_
  by_contra hnot
  rw [hi.get_eq_nil hnot] at hk
  cases hk

/-- What a table leads to is what it refers to. -/
theorem Table.Within.leads {S : Ref → Prop} (hr : (h.table r).Within S)
    (hi : (h.table r).Indexed) (hleads : h.Leads r q) : S q := by
  cases hleads with
  | metatable hm => exact hr.metatable q hm
  | value k hq => exact Value.within_table.mp (hq ▸ hr.get k)
  | key hq => exact Value.within_table.mp (hr.key_of_get hi hq)

theorem Heap.Guards.leads_metatable (hg : h.Guards p m b) : h.Leads p m :=
  .metatable (by rw [hg.1])

theorem Heap.Guards.leads_behind (hg : h.Guards p m b) : h.Leads m b := by
  refine .value (.str "__index".toUTF8) ?_
  show (h.table m).getText "__index" = _
  rw [hg.2, Table.getText_namedTable]
  rfl

/-- A proxy leads to its metatable only. -/
theorem Heap.Guards.eq_of_leads (hg : h.Guards p m b) (hleads : h.Leads p q) : q = m := by
  have hget : ∀ k, (h.table p).get k = .nil := fun k => by
    rw [hg.1]
    exact Table.get_empty
  cases hleads with
  | metatable hm =>
    rw [hg.1] at hm
    exact (Option.some.inj hm).symm
  | value k hq =>
    rw [hget k] at hq
    cases hq
  | key hq =>
    rw [hget] at hq
    cases hq

/-- The metatable of a proxy leads to the table behind it only. -/
theorem Heap.Guards.eq_of_metatable_leads (hg : h.Guards p m b) (hleads : h.Leads m q) :
    q = b := by
  have hfields : ∀ f ∈ proxyFields b, f.2.Within (· = b) := by
    intro f hf
    simp only [proxyFields, List.mem_cons, List.not_mem_nil, or_false] at hf
    rcases hf with rfl | rfl | rfl | rfl | rfl
    · exact Value.within_table.mpr rfl
    · exact Value.within_of_none rfl
    · exact fun r hr => (Option.some.inj hr).symm
    · exact fun r hr => (Option.some.inj hr).symm
    · exact Value.within_of_none rfl
  have hwithin : (h.table m).Within (· = b) := hg.2 ▸ Table.within_namedTable hfields
  exact hwithin.leads (hg.2 ▸ Table.indexed_namedTable _) hleads

/-! ## The tables that belong -/

namespace Vault.Built

theorem belongs_proxy (hb : a.Built h) (hp : a.proxy p) : h.Belongs p := by
  have hpath := hb.reached p hp
  induction hpath with
  | refl => exact .refl
  | tail _ hopens ih =>
    obtain ⟨hq, m, b, k, hs, hget⟩ := hopens
    exact (((ih hq).tail hs.guards.leads_metatable).tail hs.guards.leads_behind).tail
      (.value k hget)

theorem belongs_behind (hb : a.Built h) (hr : a.behind r) : h.Belongs r := by
  obtain ⟨p, m, hp, hs⟩ := hb.fronted r hr
  exact ((hb.belongs_proxy hp).tail hs.guards.leads_metatable).tail hs.guards.leads_behind

/-- The sorts of tables that belong to an environment. -/
theorem belongs_cases (hb : a.Built h) (hr : h.Belongs r) :
    a.proxy r ∨ (∃ p b, a.proxy p ∧ a.Shuts h p r b) ∨ a.behind r ∨ (r < a.first ∧ h.Loose r) := by
  induction hr with
  | refl => exact .inl hb.root
  | @tail q r hq hleads ih =>
    -- a step from each sort of table
    rcases ih with hp | ⟨p, b, -, hs⟩ | hbehind | ⟨hold, d, k, hd, hkey, hpath⟩
    · obtain ⟨-, -, m, b, hs⟩ := hb.proxy q hp
      have heq := hs.guards.eq_of_leads hleads
      subst heq
      exact .inr (.inl ⟨q, b, hp, hs⟩)
    · have heq := hs.guards.eq_of_metatable_leads hleads
      subst heq
      exact .inr (.inr (.inl hs.behind))
    · cases hleads with
      | metatable hm =>
        rw [hb.plain q hbehind] at hm
        cases hm
      | value k hget => exact .inl (hb.nested q hbehind k r hget)
      | key hget =>
        have hearly := (hb.behind q hbehind).key_of_get (hb.indexed q (.inr hbehind)) hget
        rcases Value.within_table.mp hearly with hlt | hp
        · exact .inr (.inr (.inr ⟨hlt, q, r, hq, hget, .refl⟩))
        · exact .inl hp
    · have hearly := (hb.outside q (.inl hold)).leads (hb.indexed q (.inl (.inl hold))) hleads
      rcases hearly with hlt | hp
      · exact .inr (.inr (.inr ⟨hlt, d, k, hd, hkey, hpath.tail hleads⟩))
      · exact .inl hp

/-- A table that belongs and is not among those made with the environment hangs on a key. -/
theorem loose_of_outside (hb : a.Built h) (hr : h.Belongs r) (hout : a.Outside r) : h.Loose r := by
  rcases hb.belongs_cases hr with hp | ⟨p, b, -, hs⟩ | hbehind | ⟨-, hloose⟩
  · exact absurd hout (hb.proxy r hp).1
  · exact absurd (.inl hout) hs.secret.1
  · exact absurd hout (hb.inside r hbehind)
  · exact hloose

/-- What belongs is there. -/
theorem belongs_lt (hb : a.Built h) (hr : h.Belongs r) : r < h.tables.size := by
  have hinside : ∀ q : ℕ, ¬a.Outside q → a.first ≤ q ∧ q < h.tables.size := by
    intro q hq
    have hlast := hb.last
    have hnot : ¬(q < a.first ∨ a.last ≤ q) := hq
    omega
  have hroot := hinside h.shared (hb.proxy h.shared hb.root).1
  rcases hb.belongs_cases hr with hp | ⟨p, b, -, hs⟩ | hbehind | ⟨hlt, -⟩
  · exact (hinside r (hb.proxy r hp).1).2
  · exact (hinside r fun hout => hs.secret.1 (.inl hout)).2
  · exact (hinside r (hb.inside r hbehind)).2
  · exact Nat.lt_trans (Nat.lt_of_lt_of_le hlt hroot.1) hroot.2

/-! ## Paths -/

/-- A table that is read at a proxy is a proxy. -/
theorem proxy_of_index (hb : a.Built h) (hp : a.proxy p) {k : Value}
    (hread : h.index (.table p) k = .value (.table q)) : a.proxy q := by
  obtain ⟨m, b, hs, hindex, -⟩ := hb.index_proxy hp k
  rw [hindex] at hread
  have hget : h.rawGet b k = .table q := by injection hread
  unfold Heap.rawGet at hget
  split at hget
  · exact hb.nested b hs.behind _ q hget
  · cases hget

/-- Paths lead to the same values, as long as the tables inside are the same. -/
theorem follow_congr (hb : a.Built h) (hp : a.proxy p)
    (hsame : ∀ r, ¬a.Outside r → h'.table r = h.table r) (path : List Value) :
    h'.follow (.table p) path = h.follow (.table p) path := by
  induction path generalizing p with
  | nil => rfl
  | cons k path ih =>
    have hread := hb.index_congr hp hsame k
    obtain ⟨m, b, hs, hindex, -⟩ := hb.index_proxy hp k
    simp only [Heap.follow, hread, hindex]
    cases hget : h.rawGet b k with
    | table q => exact ih (hb.proxy_of_index hp (hindex.trans (congrArg _ hget)))
    | _ => cases path <;> rfl

/-- A path that leads to a table leads to a proxy. -/
theorem proxy_of_follow (hb : a.Built h) (hp : a.proxy p) {path : List Value}
    (hpath : h.follow (.table p) path = some (.table q)) : a.proxy q := by
  induction path generalizing p with
  | nil =>
    cases hpath
    exact hp
  | cons k path ih =>
    obtain ⟨m, b, hs, hindex, -⟩ := hb.index_proxy hp k
    simp only [Heap.follow, hindex] at hpath
    cases hget : h.rawGet b k with
    | table e =>
      rw [hget] at hpath
      exact ih (hb.proxy_of_index hp (hindex.trans (congrArg _ hget))) hpath
    | _ =>
      rw [hget] at hpath
      cases path <;> cases hpath

end Vault.Built

end

end ScriptHost.Guest
