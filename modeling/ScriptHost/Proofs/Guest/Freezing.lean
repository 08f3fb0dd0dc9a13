import ScriptHost.Proofs.Guest.Copying

/-!
# Proxies

Freezing visits every table that can be reached once. The table stays where it is and keeps its keys, with
proxies for the tables among its values; its proxy is a new table that holds nothing, and whose metatable is a
new table that leads to it.

* `Heap.Guards`: a proxy stands in front of a table.
* `Sealed`: what becomes of a table and its proxy.
* `freezeDeep_spec`, `Heap.freezeTable_spec`: the proxies of all tables of a graph.
-/

namespace ScriptHost.Guest

/-! ## Proxies and what is behind them -/

/-- A proxy holds nothing, and its metatable `m` is made for the table `b` behind it. -/
def Heap.Guards (h : Heap) (p m b : Ref) : Prop :=
  h.table p = { metatable := some m } ∧ h.table m = namedTable (proxyFields b)

/-- What becomes of a table `q` of `h` and its proxy `p`; they and the proxy's metatable `m` have places from
`first` on. -/
structure SealedBy (h : Heap) (first : ℕ) (s : Visit) (q p m : Ref) : Prop where
  proxy : first ≤ p
  metatable : first ≤ m ∧ m < s.heap.tables.size
  guards : s.heap.Guards p m q
  behind : Filled s.known (h.table q) (h.table q) (h.table q).entryKeys (s.heap.table q)

/-- All tables that became known are sealed. -/
def Sealed (h : Heap) (s s' : Visit) : Prop :=
  ∀ q p : Ref, s.known[q]? = none → s'.known[q]? = some p →
    ∃ m, SealedBy h s.heap.tables.size s' q p m

/-- Between two visits of tables of `h`, the unknown ones are as they were. -/
structure Proxies (h : Heap) (S : Ref → Prop) (s : Visit) : Prop extends Placed h S s where
  tables : ∀ r : ℕ, r < h.tables.size → s.known[r]? = none → s.heap.table r = h.table r

/-- The tables of `h` that a visit may still change. -/
def Visit.Unseen (h : Heap) (s : Visit) (r : Ref) : Prop := r < h.tables.size ∧ s.known[r]? = none

/-- What the freezing of a table leads to. -/
structure FreezeResult (h : Heap) (S : Ref → Prop) (r : Ref) (s : Visit) (result : Ref × Visit) : Prop where
  known : result.2.known[r]? = some result.1
  proxies : Proxies h S result.2
  later : s.Extends (s.Unseen h) result.2
  allSealed : Sealed h s result.2

/-- What freezing the entries of a table leads to. -/
structure FrozenEntries (h : Heap) (S : Ref → Prop) (target : Ref) (done : List Key)
    (s s' : Visit) : Prop where
  proxies : Proxies h S s'
  later : s.Extends (fun r => r = target ∨ s.Unseen h r) s'
  filled : Filled s'.known (h.table target) (h.table target) done (s'.heap.table target)
  allSealed : Sealed h s s'

section

variable {h : Heap} {S : Ref → Prop} {s s₁ s₂ : Visit} {r target first q p m : ℕ} {done : List Key}
  {changed : Ref → Prop}

/-- What is unseen later was so before. -/
theorem Visit.Extends.unseen (hlater : s.Extends changed s₁) (hunseen : s₁.Unseen h r) :
    s.Unseen h r := by
  refine ⟨hunseen.1, ?_⟩
  cases hs : s.known[r]? with
  | none => rfl
  | some c =>
    have hknown := hlater.known r c hs
    rw [hunseen.2] at hknown
    cases hknown

theorem sealed_of_known (heq : s₁.known = s.known) : Sealed h s s₁ := by
  intro q p hnone hsome
  rw [heq, hnone] at hsome
  cases hsome

theorem SealedBy.later (hseal : SealedBy h first s q p m) (hs : Proxies h S s)
    (hknown : s.known[q]? = some p) (hlater : s.Extends changed s₁) (hq : ¬changed q)
    (hp : ¬changed p) (hm : ¬changed m) : SealedBy h first s₁ q p m where
  proxy := hseal.proxy
  metatable := ⟨hseal.metatable.1, Nat.lt_of_lt_of_le hseal.metatable.2 hlater.size⟩
  guards := by
    have hplace := hs.known q p hknown
    refine ⟨?_, ?_⟩
    · rw [hlater.tables p hplace.2.2 hp]
      exact hseal.guards.1
    · rw [hlater.tables m hseal.metatable.2 hm]
      exact hseal.guards.2
  behind := by
    have hplace := hs.known q p hknown
    rw [hlater.tables q (Nat.lt_of_lt_of_le hplace.1 hs.size) hq]
    exact hseal.behind.mono hlater.known

/-- Tables that are sealed stay so, if what changes later is neither they nor what seals them. -/
theorem Sealed.trans (h₁ : Sealed h s s₁) (hs₁ : Proxies h S s₁) (hfirst : s.Extends changed s₁)
    {changed' : Ref → Prop} (h₂ : Sealed h s₁ s₂) (hlater : s₁.Extends changed' s₂)
    (hold : ∀ q p : ℕ, s.known[q]? = none → s₁.known[q]? = some p → ¬changed' q)
    (hnew : ∀ r : ℕ, s.heap.tables.size ≤ r → ¬changed' r) : Sealed h s s₂ := by
  intro q p hq hp
  -- sealed in the second part, or in the first one and left alone since
  cases hq₁ : s₁.known[q]? with
  | none =>
    obtain ⟨m, hseal⟩ := h₂ q p hq₁ hp
    exact ⟨m, Nat.le_trans hfirst.size hseal.proxy,
      ⟨Nat.le_trans hfirst.size hseal.metatable.1, hseal.metatable.2⟩, hseal.guards, hseal.behind⟩
  | some c =>
    have hcp : c = p := Option.some.inj ((hlater.known q c hq₁).symm.trans hp)
    subst hcp
    obtain ⟨m, hseal⟩ := h₁ q c hq hq₁
    exact ⟨m, hseal.later hs₁ hq₁ hlater (hold q c hq hq₁) (hnew c hseal.proxy)
      (hnew m hseal.metatable.1)⟩

theorem Proxies.standFor (hs : Proxies h S s) (hS : S r) (hr : r < h.tables.size)
    (hnew : s.known[r]? = none) : Proxies h S (standFor r s).2 where
  toPlaced := hs.toPlaced.standFor hS hr hnew
  tables q hq hnone := by
    rw [(Visit.extends_standFor hnew).tables q (Nat.lt_of_lt_of_le hq hs.size) fun hf => hf]
    refine hs.tables q hq ?_
    have hknown : (s.known.insert r s.heap.tables.size)[q]? = none := hnone
    rw [Std.HashMap.getElem?_insert] at hknown
    split at hknown
    · cases hknown
    · exact hknown

theorem Proxies.setEntry (hs : Proxies h S s) (htarget : s.known[target]? = some p) (k : Key)
    (v : Value) : Proxies h S (setEntry target k v s).2 where
  toPlaced := hs.toPlaced.later (Visit.extends_setEntry k v) rfl
  tables q hq hnone := by
    rw [(Visit.extends_setEntry k v).tables q (Nat.lt_of_lt_of_le hq hs.size)]
    · exact hs.tables q hq hnone
    · rintro rfl
      have hsome : s.known[q]? = none := hnone
      rw [htarget] at hsome
      cases hsome

/-! ## Freezing the entries of a table -/

theorem freezeEntries_table (freeze : Ref → VisitM Ref) (k : Key) (q : Ref)
    (es : List (Key × Value)) :
    (freezeEntries freeze target ((k, .table q) :: es) s).2 =
      (freezeEntries freeze target es
        (Guest.setEntry target k (.table (freeze q s).1) (freeze q s).2).2).2 := rfl

theorem freezeEntries_other (freeze : Ref → VisitM Ref) (k : Key) {v : Value}
    (hv : ∀ q, v ≠ .table q) (es : List (Key × Value)) :
    (freezeEntries freeze target ((k, v) :: es) s).2 = (freezeEntries freeze target es s).2 := by
  cases v with
  | table q => exact absurd rfl (hv q)
  | _ => rfl

/-- An entry that is no table stands for itself. -/
theorem Filled.skip {known : Known} {source t : Table} {k : Key}
    (hfilled : Filled known source source done t) (hk : k ∈ source.keys)
    (hplain : ∀ q, source.get k ≠ .table q) : Filled known source source (done ++ [k]) t where
  keys := by
    rw [hfilled.keys, List.filter_append]
    simp [hk]
  get a := by
    rw [hfilled.get a]
    by_cases hka : k = a
    · subst hka
      simp [Value.image_of_not_table hplain]
    · simp only [List.mem_append, List.mem_singleton, Ne.symm hka, or_false]
  indexed := hfilled.indexed
  metatable := hfilled.metatable
  hint := hfilled.hint
  met := hfilled.met_snoc (Value.met_of_not_table hplain)

theorem FrozenEntries.plain (hs : Proxies h S s)
    (hfilled : Filled s.known (h.table target) (h.table target) done (s.heap.table target))
    {k : Key} (hk : k ∈ (h.table target).keys) (hplain : ∀ q, (h.table target).get k ≠ .table q) :
    FrozenEntries h S target (done ++ [k]) s s :=
  ⟨hs, Visit.Extends.refl, hfilled.skip hk hplain, sealed_of_known rfl⟩

/-- One entry that is a table, which is frozen first. -/
theorem FrozenEntries.nested (hs : Proxies h S s) (hr : s.known[target]? = some p)
    (hfilled : Filled s.known (h.table target) (h.table target) done (s.heap.table target))
    {k : Key} (hk : k ∉ done) {q : Ref} (hget : (h.table target).get k = .table q)
    {result : Ref × Visit} (hresult : FreezeResult h S q s result) :
    FrozenEntries h S target (done ++ [k]) s
      (Guest.setEntry target k (.table result.1) result.2).2 := by
  have hplace := hs.known target p hr
  have htarget : target < s.heap.tables.size := Nat.lt_of_lt_of_le hplace.1 hs.size
  have hseen : ¬s.Unseen h target := by
    rintro ⟨-, hnone⟩
    rw [hr] at hnone
    cases hnone
  have hset := Visit.extends_setEntry (s := result.2) (r := target) k (.table result.1)
  refine ⟨hresult.proxies.setEntry (hresult.later.known target p hr) k _,
    hresult.later.trans hset (fun _ _ hc => .inr hc) fun _ _ heq => .inl heq, ?_, ?_⟩
  · rw [table_setEntry (Nat.lt_of_lt_of_le htarget hresult.later.size),
      hresult.later.tables target htarget hseen]
    -- the entry now is known: it stands for the proxy that was made
    have hmet : ((h.table target).get k).Met result.2.known := by
      intro q' hq'
      rw [hget] at hq'
      cases hq'
      exact ⟨result.1, hresult.known⟩
    have hnext := (hfilled.mono hresult.later.known).set hk (by rw [hget]; rfl) hmet
    rw [hget, Value.image_table hresult.known] at hnext
    exact hnext
  · refine Sealed.trans hresult.allSealed hresult.proxies hresult.later (sealed_of_known rfl) hset
      ?_ fun a ha heq => ?_
    · rintro q' p' hnone - rfl
      rw [hr] at hnone
      cases hnone
    · rw [heq] at ha
      exact Nat.lt_irrefl _ (Nat.lt_of_lt_of_le htarget ha)

/-- Two parts of the entries are frozen one after the other. -/
theorem FrozenEntries.trans {done' : List Key} (hs : Proxies h S s) (hr : s.known[target]? = some p)
    (hfirst : FrozenEntries h S target done s s₁)
    (hrest : FrozenEntries h S target done' s₁ s₂) : FrozenEntries h S target done' s s₂ where
  proxies := hrest.proxies
  later := by
    refine hfirst.later.trans hrest.later (fun _ _ hc => hc) ?_
    rintro a - (ha | ha)
    · exact .inl ha
    · exact .inr (hfirst.later.unseen ha)
  filled := hrest.filled
  allSealed := by
    refine Sealed.trans hfirst.allSealed hfirst.proxies hfirst.later hrest.allSealed hrest.later ?_ ?_
    · -- what was sealed first is known, so it is no longer changed
      rintro q' p' hnone hsome (rfl | ⟨-, hnone'⟩)
      · rw [hr] at hnone
        cases hnone
      · rw [hsome] at hnone'
        cases hnone'
    · have htarget := (hs.known target p hr).1
      rintro a ha (rfl | ⟨hlt, -⟩)
      · exact Nat.lt_irrefl _ (Nat.lt_of_lt_of_le htarget (Nat.le_trans hs.size ha))
      · exact Nat.lt_irrefl _ (Nat.lt_of_lt_of_le hlt (Nat.le_trans hs.size ha))

theorem freezeEntries_spec {freeze : Ref → VisitM Ref} {fuel : ℕ}
    (hfreeze : ∀ (q : ℕ) s, Proxies h S s → S q → q < h.tables.size →
      h.tables.size < s.known.size + fuel → FreezeResult h S q s (freeze q s))
    (hclosed : h.Closed) (hS : ∀ k q, (h.table target).get k = .table q → S q)
    (es : List (Key × Value)) (hs : Proxies h S s)
    (hroom : h.tables.size < s.known.size + fuel) (hr : s.known[target]? = some p)
    (hes : ∀ e ∈ es, (h.table target).get e.1 = e.2 ∧ e.2.isNil = false)
    (hnodup : (done ++ es.map Prod.fst).Nodup)
    (hfilled : Filled s.known (h.table target) (h.table target) done (s.heap.table target)) :
    FrozenEntries h S target (done ++ es.map Prod.fst) s (freezeEntries freeze target es s).2 := by
  induction es generalizing s done with
  | nil =>
    rw [List.map_nil, List.append_nil]
    exact ⟨hs, Visit.Extends.refl, hfilled, sealed_of_known rfl⟩
  | cons e es ih =>
    obtain ⟨k, v⟩ := e
    obtain ⟨hget, hnil⟩ : (h.table target).get k = v ∧ v.isNil = false := hes (k, v) (by simp)
    have hk : k ∉ done := fun hmem =>
      (List.nodup_append.mp hnodup).2.2 k hmem k (by simp) rfl
    -- the first entry, which is frozen first if it is a table
    obtain ⟨s₁, hone, heq⟩ : ∃ s₁, FrozenEntries h S target (done ++ [k]) s s₁ ∧
        (freezeEntries freeze target ((k, v) :: es) s).2 =
          (freezeEntries freeze target es s₁).2 := by
      by_cases htable : ∃ q, v = .table q
      · obtain ⟨q, rfl⟩ := htable
        have hq : q < h.tables.size := (hclosed.within target).get k q (by rw [hget]; rfl)
        exact ⟨_, .nested hs hr hfilled hk hget (hfreeze q s hs (hS k q hget) hq hroom),
          freezeEntries_table freeze k q es⟩
      · have hplain : ∀ q, v ≠ .table q := fun q hq => htable ⟨q, hq⟩
        subst hget
        have hkey : k ∈ (h.table target).keys := by
          by_contra hnot
          rw [(hclosed.indexed target).get_eq_nil hnot] at hnil
          cases hnil
        exact ⟨_, .plain hs hfilled hkey hplain, freezeEntries_other freeze k hplain es⟩
    have hrest := ih hone.proxies
      (Nat.lt_of_lt_of_le hroom (Nat.add_le_add_right hone.later.count _))
      (hone.later.known target p hr) (fun e he => hes e (by simp [he]))
      (by simpa using hnodup) hone.filled
    rw [heq, List.map_cons, List.append_cons]
    exact hone.trans hs hr hrest

/-! ## The whole pass -/

theorem Visit.extends_sealProxy (p behind : Ref) :
    s.Extends (· = p) (sealProxy p behind s).2 where
  frame := (Heap.frame_allocTable (h := s.heap)).trans (Heap.frame_modifyTable _)
  size := by
    show _ ≤ ((s.heap.allocTable _).2.modifyTable p _).tables.size
    rw [Heap.size_modifyTable, Heap.size_allocTable]
    exact Nat.le_succ _
  known _ _ hq := hq
  count := Nat.le_refl _
  tables a ha hne :=
    (Heap.table_modifyTable_of_ne _ hne).trans (Heap.table_allocTable.trans (if_neg (Nat.ne_of_lt ha)))

/-- A new table becomes a proxy. -/
theorem guards_sealProxy (hp : p < s.heap.tables.size) (hempty : s.heap.table p = {}) (b : Ref) :
    (sealProxy p b s).2.heap.Guards p s.heap.tables.size b := by
  have hlt : p < (s.heap.allocTable (namedTable (proxyFields b))).2.tables.size := by
    rw [Heap.size_allocTable]
    exact Nat.lt_succ_of_lt hp
  constructor
  · refine (Heap.table_modifyTable _ hlt).trans ?_
    rw [if_pos rfl, Heap.table_allocTable, if_neg (Nat.ne_of_lt hp), hempty]
  · exact (Heap.table_modifyTable_of_ne _ (Nat.ne_of_gt hp)).trans
      (Heap.table_allocTable.trans (if_pos rfl))

theorem freezeVisit_known {freeze : Ref → VisitM Ref} {c : Ref} (hr : s.known[r]? = some c) :
    freezeVisit freeze r s = (c, s) := by
  rw [freezeVisit, get_bind, hr]
  rfl

theorem freezeVisit_new {freeze : Ref → VisitM Ref} (hr : s.known[r]? = none) :
    freezeVisit freeze r s = ((Guest.standFor r s).1,
      (sealProxy (Guest.standFor r s).1 r
        (freezeEntries freeze r ((Guest.standFor r s).2.heap.table r).entries
          (Guest.standFor r s).2).2).2) := by
  rw [freezeVisit, get_bind, hr]
  rfl

theorem freezeDeep_succ (fuel : ℕ) : freezeDeep (fuel + 1) = freezeVisit (freezeDeep fuel) := rfl

section

variable {s' : Visit} (hs : Proxies h S s) (hr : r < h.tables.size)
  (hentries : FrozenEntries h S r (h.table r).entryKeys (Guest.standFor r s).2 s')
include hs hr hentries

/-- The place of the new proxy, as the entries leave it. -/
theorem FrozenEntries.place : s'.known[r]? = some s.heap.tables.size ∧
    s.heap.tables.size < s'.heap.tables.size ∧ s'.heap.table s.heap.tables.size = {} := by
  have hsize : (Guest.standFor r s).2.heap.tables.size = s.heap.tables.size + 1 :=
    Heap.size_allocTable
  have hlt : s.heap.tables.size < (Guest.standFor r s).2.heap.tables.size :=
    Nat.lt_of_lt_of_eq (Nat.lt_succ_self _) hsize.symm
  refine ⟨hentries.later.known r _ Std.HashMap.getElem?_insert_self,
    Nat.lt_of_lt_of_le hlt hentries.later.size, ?_⟩
  -- the entries change the table `r` and what else is unseen, and these were there before
  rw [hentries.later.tables _ hlt]
  · exact Heap.table_allocTable.trans (if_pos rfl)
  · have hplace : r < s.heap.tables.size := Nat.lt_of_lt_of_le hr hs.size
    rintro (heq | ⟨hlt, -⟩)
    · exact absurd hplace (heq ▸ Nat.lt_irrefl _)
    · exact absurd hs.size (Nat.not_le_of_lt hlt)

omit hr in
theorem FrozenEntries.proxies_sealProxy :
    Proxies h S (sealProxy s.heap.tables.size r s').2 where
  toPlaced := hentries.proxies.toPlaced.later (Visit.extends_sealProxy _ _) rfl
  tables a ha hnone := by
    have hne : a ≠ s.heap.tables.size := Nat.ne_of_lt (Nat.lt_of_lt_of_le ha hs.size)
    have hlt : a < s'.heap.tables.size := Nat.lt_of_lt_of_le ha hentries.proxies.size
    rw [(Visit.extends_sealProxy _ _).tables a hlt hne]
    exact hentries.proxies.tables a ha hnone

omit hs in
theorem FrozenEntries.extends_sealProxy (hnew : s.known[r]? = none) :
    s.Extends (s.Unseen h) (sealProxy s.heap.tables.size r s').2 := by
  have hstand := Visit.extends_standFor hnew
  have hfill : s.Extends (fun a => a = r ∨ s.Unseen h a) s' := by
    refine hstand.trans hentries.later (fun _ _ hf => hf.elim) ?_
    rintro a - (ha | ha)
    · exact .inl ha
    · exact .inr (hstand.unseen ha)
  refine hfill.trans (Visit.extends_sealProxy _ _) ?_ ?_
  · rintro a - (rfl | ha)
    · exact ⟨hr, hnew⟩
    · exact ha
  · rintro a ha rfl
    exact absurd ha (Nat.lt_irrefl _)

/-- The table itself gets the proxy that it stands behind. -/
theorem FrozenEntries.sealed_self : SealedBy h s.heap.tables.size
    (sealProxy s.heap.tables.size r s').2 r s.heap.tables.size s'.heap.tables.size := by
  obtain ⟨-, hlt, hempty⟩ := hentries.place hs hr
  have hsize : (sealProxy s.heap.tables.size r s').2.heap.tables.size =
      s'.heap.tables.size + 1 := by
    show ((s'.heap.allocTable _).2.modifyTable _ _).tables.size = _
    rw [Heap.size_modifyTable, Heap.size_allocTable]
  refine ⟨Nat.le_refl _, ⟨Nat.le_of_lt hlt, ?_⟩, guards_sealProxy hlt hempty r, ?_⟩
  · exact Nat.lt_of_lt_of_eq (Nat.lt_succ_self _) hsize.symm
  · rw [(Visit.extends_sealProxy _ _).tables r (Nat.lt_of_lt_of_le hr hentries.proxies.size)
      (Nat.ne_of_lt (Nat.lt_of_lt_of_le hr hs.size))]
    exact hentries.filled

omit hr in
/-- The tables that the entries led to stay sealed. -/
theorem FrozenEntries.sealed_other (hq : s.known[q]? = none) (hqr : q ≠ r)
    (hp : s'.known[q]? = some p) :
    ∃ m, SealedBy h s.heap.tables.size (sealProxy s.heap.tables.size r s').2 q p m := by
  have hsize : (Guest.standFor r s).2.heap.tables.size = s.heap.tables.size + 1 :=
    Heap.size_allocTable
  have hq' : (Guest.standFor r s).2.known[q]? = none := by
    show (s.known.insert r _)[q]? = none
    rw [Std.HashMap.getElem?_insert, if_neg (by simpa using Ne.symm hqr)]
    exact hq
  obtain ⟨m, hm⟩ := hentries.allSealed q p hq' hp
  -- its proxy and metatable were made after the one that is sealed now
  have hne : ∀ a : ℕ, (Guest.standFor r s).2.heap.tables.size ≤ a → a ≠ s.heap.tables.size := by
    intro a ha
    omega
  have hold : q < s.heap.tables.size :=
    Nat.lt_of_lt_of_le (hentries.proxies.known q p hp).1 hs.size
  have hlater := hm.later hentries.proxies hp (Visit.extends_sealProxy s.heap.tables.size r)
    (Nat.ne_of_lt hold) (hne p hm.proxy) (hne m hm.metatable.1)
  have hfirst := Nat.le_trans (Nat.le_succ _) (Nat.le_of_eq hsize.symm)
  exact ⟨m, Nat.le_trans hfirst hlater.proxy,
    ⟨Nat.le_trans hfirst hlater.metatable.1, hlater.metatable.2⟩, hlater.guards, hlater.behind⟩

/-- A table that is met for the first time: its entries are frozen, then it gets its proxy. -/
theorem FreezeResult.fresh (hnew : s.known[r]? = none) :
    FreezeResult h S r s ((Guest.standFor r s).1, (sealProxy (Guest.standFor r s).1 r s').2) where
  known := (hentries.place hs hr).1
  proxies := hentries.proxies_sealProxy hs
  later := hentries.extends_sealProxy hr hnew
  allSealed q p hq hp := by
    have hplace := (hentries.place hs hr).1
    by_cases hqr : q = r
    · subst hqr
      have hpeq : p = s.heap.tables.size := Option.some.inj (hp.symm.trans hplace)
      subst hpeq
      exact ⟨_, hentries.sealed_self hs hr⟩
    · exact hentries.sealed_other hs hq hqr hp

end

/-- Every table that can be reached gets one proxy; there is fuel enough, since every visit makes one more table
known. -/
theorem freezeDeep_spec (hclosed : h.Closed)
    (hS : ∀ r k q, S r → (h.table r).get k = .table q → S q) (fuel : ℕ) (hs : Proxies h S s)
    (hSr : S r) (hr : r < h.tables.size) (hroom : h.tables.size < s.known.size + fuel) :
    FreezeResult h S r s (freezeDeep fuel r s) := by
  induction fuel generalizing s r with
  | zero =>
    -- no fuel is left, so all tables are known; but then there would be more of them than there are
    have hsize := hs.known_size_le
    omega
  | succ fuel ih =>
    cases hknown : s.known[r]? with
    | some c =>
      rw [freezeDeep_succ, freezeVisit_known hknown]
      exact ⟨hknown, hs, Visit.Extends.refl, sealed_of_known rfl⟩
    | none =>
      -- the proxy is known before the entries are frozen, which may lead back to the table
      have hstand := hs.standFor hSr hr hknown
      have hself : (Guest.standFor r s).2.known[r]? = some s.heap.tables.size :=
        Std.HashMap.getElem?_insert_self
      have hcount : (Guest.standFor r s).2.known.size = s.known.size + 1 :=
        known_size_insert hknown
      have hsource : (Guest.standFor r s).2.heap.table r = h.table r := by
        rw [(Visit.extends_standFor hknown).tables r (Nat.lt_of_lt_of_le hr hs.size) fun hf => hf]
        exact hs.tables r hr hknown
      have hindexed := hclosed.indexed r
      have hentries := freezeEntries_spec (fun q s hs hSq hq hroom => ih hs hSq hq hroom) hclosed
        (hS r · · hSr) (h.table r).entries hstand (by omega) hself
        (fun e he => (Table.mem_entries hindexed).mp he) hindexed.nodup_entries
        (by rw [hsource]; exact filled_nil hindexed)
      rw [freezeDeep_succ, freezeVisit_new hknown, hsource]
      exact .fresh hs hr hentries hknown

end

/-- What the freezing of a table of a closed heap comes to: every table that was met is one of `S`, has a proxy
with a metatable of its own, and is as it was but for proxies in place of tables. -/
structure FrozenFrom (h : Heap) (S : Ref → Prop) (r p : Ref) (known : Known) (h' : Heap) :
    Prop where
  root : known[r]? = some p
  proxies : Proxies h S ⟨h', known⟩
  frame : h.Frame h'
  guarded : ∀ q p : Ref, known[q]? = some p → ∃ m, SealedBy h h.tables.size ⟨h', known⟩ q p m

/-- Nothing is frozen yet. -/
theorem proxies_start (h : Heap) {S : Ref → Prop} : Proxies h S { heap := h } where
  among q c hq := absurd hq (by simp)
  size := Nat.le_refl _
  known q c hq := absurd hq (by simp)
  inj q q' c hq := absurd hq (by simp)
  tables _ _ _ := rfl

/-- **Freezing.** Only tables of a set `S` are met that contains all that can be reached. -/
theorem Heap.freezeTable_spec {h : Heap} {S : Ref → Prop} {r : ℕ} (hclosed : h.Closed)
    (hS : ∀ r k q, S r → (h.table r).get k = .table q → S q) (hSr : S r) (hr : r < h.tables.size) :
    ∃ known, FrozenFrom h S r (h.freezeTable r).1 known (h.freezeTable r).2 := by
  have hresult := freezeDeep_spec hclosed hS (h.tables.size + 1) (proxies_start h) hSr hr (by simp)
  exact ⟨_, hresult.known, hresult.proxies, hresult.later.frame,
    fun q p hq => hresult.allSealed q p (by simp) hq⟩

end ScriptHost.Guest
