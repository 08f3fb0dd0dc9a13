import ScriptHost.Proofs.Guest.InAnyOrder
import ScriptHost.Proofs.Guest.Names
import ScriptHost.Proofs.Guest.Reproduction

/-!
# Frozen tables as JSON

A frozen table is read through the functions of its metatable: one hands out the table behind the proxy, another one
gives its length. What is read is what the original holds, with proxies in place of tables, and the JSON of a value
does not tell one table from another one.

* `callGuestFunction_pairs`, `Heap.Guards.offers`: what is read at a proxy.
* `Renders.rename`: the JSON of a value with other tables in place of those that it leads to.
* `toJson_of_shows`: the conversion of a proxy.
* `freezing_is_invisible`: the main result.
-/

namespace ScriptHost.Guest

variable {w w' : World} {C D : Ref → Key → Value} {c : Key → Value} {v : Value} {r s p m b : Ref} {path : List Ref}
  {j : Json} {stand : Ref → Ref}

/-! ## Reading a proxy -/

/-- A call of `pairs` from outside takes four steps at a proxy: the call, that of the proxy's own function, the way of
its results through the frame that takes three of them, and the end. -/
theorem callGuestFunction_pairs (hg : w.guest.Guards p m b) (hroom : w.guest.nesting + 1 < maxLevel) :
    callGuestFunction (.native (.base .pairs)) [.table p] w = (.ok [.native (.base .next), .table b, .nil], w) := by
  have hmeta : w.guest.metamethod (.table p) "__pairs" = .native (.frozenPairs b) := hg.metamethod "__pairs"
  have hpairs (context : CallContext) : (Native.base .pairs).apply [.table p] context w =
      (.ok (.call (.native (.frozenPairs b)) [.table p] [.adapt (.exactly 3)]), w) :=
    (base_pairs (.table p) context).trans (by rw [hmeta]; rfl)
  have hshallow : decide (maxLevel ≤ 1 + w.guest.nesting) = false := by
    rw [decide_eq_false_iff_not]
    omega
  have hcall : ∀ nested, step nested ⟨.call (.native (.base .pairs)) [.table p] none, {}⟩ w =
      (.next ⟨.call (.native (.frozenPairs b)) [.table p] none, ⟨[.adapt (.exactly 3)], 1⟩⟩, w) := fun _ => by
    simp only [step, callValue, hpairs, settle]
    rfl
  have hbehind : ∀ nested, step nested ⟨.call (.native (.frozenPairs b)) [.table p] none, ⟨[.adapt (.exactly 3)], 1⟩⟩ w =
      (.next ⟨.give [.native (.base .next), .table b, .nil], ⟨[.adapt (.exactly 3)], 1⟩⟩, w) := fun _ => by
    simp only [step, callValue, Frame.isNative, hshallow]
    rfl
  have hlimit : stepLimit = 999999999999996 + 4 := rfl
  rw [callGuestFunction, callFunction, hlimit, runSteps_next _ hcall, runSteps_next _ hbehind, runSteps_next _ fun _ => rfl]
  rfl

/-- At a proxy is read what the table behind it stores. -/
theorem Heap.Guards.offers (hg : w.guest.Guards p m b) (hroom : w.guest.nesting + 1 < maxLevel)
    (ht : (w.guest.table b).Stores c) : Offers w p c (w.guest.table b) where
  stores := ht
  read hsmall := by
    have hmeta : w.guest.metamethod (.table p) "__len" = .native (.frozenLength b) := hg.metamethod "__len"
    have hentries := iterate_entries ht.indexed ht.keyed _ (i := 0) rfl nextEntry_first [] hsmall
    have hcall : callFunction (.native (.frozenLength b)) [.table p] w =
        (.finished [.int (Int64.ofNat (w.guest.table b).border)], w) := callFunction_values fun _ => rfl
    have hlength : runNative (lengthOf (.table p)) w = (.ok (Int64.ofNat (w.guest.table b).border), w) := by
      unfold runNative lengthOf
      simp only [Looks.bind_eq, getHeap, hmeta, callGuest, hcall]
      rfl
    rw [visibleEntries, worldM_bind, callGuestFunction_pairs hg hroom]
    have hnext : (Value.native (.base .next)).takeFunction = .ok (.native (.base .next)) := rfl
    simp only [List.headD_cons, hnext, List.drop_succ_cons, List.drop_zero]
    rw [worldM_bind, hentries]
    dsimp only
    rw [worldM_bind, hlength]
    rfl

/-! ## Other tables in place of the tables -/

/-- Where other tables hold the same, with each other in place of the tables, a value leads to those in place of the
ones that it led to. -/
theorem Leads.of_rename (hsame : ∀ s, Leads C v s → ∀ k, D (stand s) k = (C s k).rename stand)
    (h : Leads D (v.rename stand) p) : ∃ s, Leads C v s ∧ stand s = p := by
  generalize hu : v.rename stand = u at h
  induction h generalizing v with
  | self q =>
    cases v with
    | table s =>
      cases hu
      exact ⟨s, .self s, rfl⟩
    | _ => cases hu
  | @entry q t k _ ih =>
    cases v with
    | table s =>
      cases hu
      have hentry : ((C s k).rename stand) = D (stand s) k := (hsame s (.self s) k).symm
      obtain ⟨s', hs', heq⟩ := ih (fun s' hs' => hsame s' (.entry k hs')) hentry
      exact ⟨s', .entry k hs', heq⟩
    | _ => cases hu

theorem isNil_of_rename (hsame : ∀ k, D p k = (C s k).rename stand) (k : Key) : (D p k).isNil = (C s k).isNil := by
  rw [hsame, Value.isNil_rename]

theorem numbered_of_rename (hsame : ∀ k, D p k = (C s k).rename stand) (n : ℕ) : Numbered (D p) n ↔ Numbered (C s) n := by
  constructor
  · intro h
    exact ⟨h.pos, h.small, fun k => isNil_of_rename hsame k ▸ h.has k⟩
  · intro h
    exact ⟨h.pos, h.small, fun k => (isNil_of_rename hsame k).symm ▸ h.has k⟩

theorem DistinctNames.rename (hnames : DistinctNames C v)
    (hsame : ∀ s, Leads C v s → ∀ k, D (stand s) k = (C s k).rename stand) : DistinctNames D (v.rename stand) := by
  intro p hp k k' hk hk' htext
  obtain ⟨s, hs, rfl⟩ := Leads.of_rename hsame hp
  rw [isNil_of_rename (hsame s hs)] at hk hk'
  exact hnames s hs k k' hk hk' htext

/-- A table that is not on a path is not put in place of one that is. -/
theorem not_mem_map_of_injOn (hinj : Set.InjOn stand {s | s ∈ path ∨ Leads C (.table r) s}) (hr : r ∉ path) :
    stand r ∉ path.map stand := by
  intro hmem
  obtain ⟨s, hs, heq⟩ := List.mem_map.mp hmem
  have hsame : s = r := hinj (.inl hs) (.inr (.self r)) heq
  exact hr (hsame ▸ hs)

/-- What an entry leads to, the table itself leads to. -/
theorem injOn_entry (hinj : Set.InjOn stand {s | s ∈ path ∨ Leads C (.table r) s}) (k : Key) :
    Set.InjOn stand {s | s ∈ r :: path ∨ Leads C (C r k) s} := by
  refine hinj.mono fun s hs => ?_
  rcases hs with hmem | hleads
  · rcases List.mem_cons.mp hmem with rfl | hmem
    · exact .inr (.self s)
    · exact .inl hmem
  · exact .inr (.entry k hleads)

/-- The JSON of a value does not tell which tables there are, as long as no two of them become one. -/
theorem Renders.rename (h : Renders C path v j) (hsame : ∀ s, Leads C v s → ∀ k, D (stand s) k = (C s k).rename stand)
    (hinj : Set.InjOn stand {s | s ∈ path ∨ Leads C v s}) : Renders D (path.map stand) (v.rename stand) j := by
  -- the induction is on the JSON of the value; within an entry one more table is on the path
  induction h with
  | @scalar path v hv =>
    have hrename : v.rename stand = v := by
      cases v with
      | table s => exact absurd rfl (hv s)
      | _ => rfl
    rw [hrename]
    exact .scalar hv
  | cycle hr => exact .cycle (List.mem_map_of_mem hr)
  | @array path r n shown hr hn hshown ih =>
    have hhere := hsame r (.self r)
    refine .array (not_mem_map_of_injOn hinj hr) ((numbered_of_rename hhere n).mpr hn) fun k hk => ?_
    rw [isNil_of_rename hhere] at hk
    rw [hhere]
    exact ih k hk (fun s hs => hsame s (.entry k hs)) (injOn_entry hinj k)
  | @object path r members shown hr hn hshown hsorted hmembers ih =>
    have hhere := hsame r (.self r)
    have hmembers' : ∀ name j, (name, j) ∈ members ↔
        ∃ k, (D (stand r) k).isNil = false ∧ k.toValue.keyText = name ∧ shown k = j := by
      simpa only [isNil_of_rename hhere] using hmembers
    refine .object (not_mem_map_of_injOn hinj hr) (fun n hn' => hn n ((numbered_of_rename hhere n).mp hn'))
      (fun k hk => ?_) hsorted hmembers'
    rw [isNil_of_rename hhere] at hk
    rw [hhere]
    exact ih k hk (fun s hs => hsame s (.entry k hs)) (injOn_entry hinj k)

/-! ## Frozen copies -/

/-- The entries of a table, with other tables in place of those that are values, are stored in a table that has them. -/
theorem Reproduced.stores {source t : Table} (ht : Reproduced stand source t) :
    t.Stores fun k => (source.get k).rename stand where
  indexed := ht.indexed
  keyed := ht.keyed
  hint := by
    rw [ht.hint]
    decide
  metatable := ht.metatable
  get := ht.get

/-- What the values of a table lead to, can be reached from it. -/
theorem reaches_of_leads {root : Ref} (hleads : Leads (contents w) v s)
    (hv : ∀ q, v = .table q → w.guest.Reaches root q) : w.guest.Reaches root s := by
  induction hleads with
  | self q => exact hv q rfl
  | @entry q s k _ ih => exact ih fun q' hq' => (hv q rfl).tail ⟨k, hq'⟩

/-- At a proxy is read what the table stores that it shows, with proxies in place of tables. -/
theorem Heap.Shows.exists_offers (hshows : w.guest.Shows w'.guest stand s) (hroom : w'.guest.nesting + 1 < maxLevel) :
    ∃ t, Offers w' (stand s) (fun k => (contents w s k).rename stand) t := by
  obtain ⟨m, b, hguards, hreproduced⟩ := hshows
  exact ⟨_, hguards.offers hroom hreproduced.stores⟩

/-- The JSON of proxies that show tables one for one is the JSON of the tables. -/
theorem toJson_of_shows {root : Ref} (hinj : Set.InjOn stand {s | w.guest.Reaches root s})
    (hshows : ∀ s, w.guest.Reaches root s → w.guest.Shows w'.guest stand s)
    (hroom : w'.guest.nesting + 1 < maxLevel) (hs : w.guest.Reaches root s)
    (hj : Renders (contents w) [] (.table s) j) (hnames : DistinctNames (contents w) (.table s))
    (hnesting : j.nesting ≤ maxNesting) (hcontainers : j.containers ≤ maxTables) (hwidest : j.widest ≤ maxEntries) :
    toJson (.table (stand s)) w' = (j, w') := by
  have hreaches (q : Ref) (hq : Leads (contents w) (.table s) q) : w.guest.Reaches root q :=
    reaches_of_leads hq fun q' hq' => Value.table.inj hq' ▸ hs
  -- what a proxy holds, is what the table holds that it stands for
  let held (p : Ref) (k : Key) : Value :=
    (contents w (Function.invFunOn stand {s | w.guest.Reaches root s} p) k).rename stand
  have hheld (q : Ref) (hq : w.guest.Reaches root q) (k : Key) : held (stand q) k = (contents w q k).rename stand := by
    have hinverse : Function.invFunOn stand {s | w.guest.Reaches root s} (stand q) = q := hinj.leftInvOn_invFunOn hq
    simp only [held, hinverse]
  have hsame (q : Ref) (hq : Leads (contents w) (.table s) q) := hheld q (hreaches q hq)
  have hrenders : Renders held [] (.table (stand s)) j :=
    hj.rename hsame (hinj.mono fun q hq => hreaches q (hq.resolve_left List.not_mem_nil))
  refine hrenders.toJson_eq (fun p hp => ?_) (hnames.rename hsame) hnesting hcontainers hwidest
  obtain ⟨q, hq, rfl⟩ := Leads.of_rename (v := .table s) hsame hp
  obtain ⟨t, ht⟩ := (hshows q (hreaches q hq)).exists_offers hroom
  have hcontents : held (stand q) = fun k => (contents w q k).rename stand := funext (hsame q hq)
  exact ⟨t, hcontents ▸ ht⟩

/-- A deep copy of a table, frozen. -/
def Heap.freezeCopy (h : Heap) (r : Ref) : Ref × Heap :=
  let (copy, h) := h.copyTable r
  h.freezeTable copy

/-- **Freezing is invisible to output.** A table is copied deeply and frozen. Then each table that it leads to has a
proxy, at which the same is read as at the table, with proxies in place of tables. If none of the tables below has a
metatable, or two entries of one name, the table has one JSON; and if that is within the limits, it is what the
conversion gives of the table, and of its proxy as long as what was made stays as it is and there is room for a call
of the proxy's own functions. -/
theorem freezing_is_invisible (hclosed : w.guest.Closed) (hkeyed : w.guest.Keyed) (hr : r < w.guest.tables.size) :
    ∃ stand, stand r = (w.guest.freezeCopy r).1 ∧
      ∀ w' : World, w.guest.SameMade (w.guest.freezeCopy r).2 w'.guest → ∀ s, w.guest.Reaches r s →
        (∀ k, w'.guest.index (.table (stand s)) k = .value ((w.guest.rawGet s k).rename stand)) ∧
        (w'.guest.nesting + 1 < maxLevel → Stores w (contents w) (.table s) → DistinctNames (contents w) (.table s) →
          ∃ j, (∀ j', Renders (contents w) [] (.table s) j' ↔ j' = j) ∧
            (j.nesting ≤ 16 → j.containers ≤ 4096 → j.widest ≤ 10000 →
              toJson (.table s) w = (j, w) ∧ toJson (.table (stand s)) w' = (j, w'))) := by
  obtain ⟨copied, frozen, stand, -, -, hcopyEq, hfreezeEq, -, hbase, hinj, hshows⟩ := hclosed.freezeCopy_shows hkeyed hr
  have hfrozen : w.guest.freezeCopy r = (frozen.1, frozen.2.heap) := by
    simp only [Heap.freezeCopy, hcopyEq, hfreezeEq]
  rw [hfrozen]
  refine ⟨stand, hbase, fun w' hsame s hs => ⟨(hshows _ hsame s hs).index, fun hroom hw hnames => ?_⟩⟩
  obtain ⟨j, hj⟩ := hw.exists_json hnames
  refine ⟨j, fun j' => ⟨fun hj' => hj'.unique hj, fun heq => heq ▸ hj⟩, fun hnesting hcontainers hwidest => ⟨?_, ?_⟩⟩
  · exact hj.toJson_eq (fun q hq => ⟨_, offers_plain (hw q hq)⟩) hnames hnesting hcontainers hwidest
  · -- a proxy offers what its table has, with proxies in place of tables; no two tables share one
    exact toJson_of_shows hinj (hshows _ hsame) hroom hs hj hnames hnesting hcontainers hwidest

theorem slots_ringWorld : ∀ r, (ringWorld.guest.table r).slots.toList = ringEntries r
  | 0 => Table.slots_arrange (by decide) (keyed_ringEntries 0) (by decide) (by decide)
  | 1 => Table.slots_arrange (by decide) (keyed_ringEntries 1) (by decide) (by decide)
  | _ + 2 => rfl

theorem within_ringEntries : ∀ r, ∀ e ∈ ringEntries r, e.1.toValue.Within (· < 2) ∧ e.2.Within (· < 2)
  | 0 => by simp [ringEntries, Key.toValue, Value.Within, Value.ref?]
  | 1 => by simp [ringEntries, Key.toValue, Value.Within, Value.ref?]
  | _ + 2 => by simp [ringEntries]

theorem closed_ringWorld : ringWorld.guest.Closed where
  within r := by
    refine ⟨fun e he => within_ringEntries r e (slots_ringWorld r ▸ he), fun m hm => ?_⟩
    rw [(stores_ringWorld r).metatable] at hm
    cases hm
  indexed r := (stores_ringWorld r).indexed
  stringMeta r hr := by cases hr

/-- The world in which the table that holds itself has been frozen. -/
def frozenRing : World := { ringWorld with guest := { (ringWorld.guest.freezeCopy 0).2 with nesting := 0 } }

/-- The proxy of a table that holds itself shows itself as a cycle. -/
theorem freezing_is_invisible_ring :
    ringWorld.guest.Closed ∧ ringWorld.guest.Keyed ∧ 0 < ringWorld.guest.tables.size ∧
      toJson (.table (ringWorld.guest.freezeCopy 0).1) frozenRing =
        (.arr [.obj [("true", .int 7)], .obj [("true", .int 7)], .str "<cycle>"], frozenRing) := by
  have hkeyed : ringWorld.guest.Keyed := fun r => (stores_ringWorld r).keyed
  have hsize : 0 < ringWorld.guest.tables.size := by decide
  obtain ⟨stand, hstand, hproxies⟩ := freezing_is_invisible closed_ringWorld hkeyed hsize
  obtain ⟨-, hjson⟩ := hproxies frozenRing (fun _ _ => rfl) 0 .refl
  obtain ⟨j, hj, hlimits⟩ := hjson (by decide) (fun r _ => stores_ringWorld r) distinctNames_ringWorld
  obtain rfl := (hj _).mp renders_ringWorld
  rw [← hstand]
  exact ⟨closed_ringWorld, hkeyed, hsize, (hlimits (by decide) (by decide) (by decide)).2⟩

end ScriptHost.Guest
