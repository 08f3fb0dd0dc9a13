import ScriptHost.Proofs.Guest.Freezing

/-!
# Passes that come to an end

A deep copy and the freezing of a copy visit tables that are nested in each other, in circles too. Every visit that
goes deeper makes one more table known, so that the visits come to an end before those at the bottom begin.

* `Ends`: nested visits that come to an end by themselves.
* `Heap.Closed.copyTable_ends`, `Heap.Closed.freezeTable_ends`: both passes do, in every closed heap.
-/

namespace ScriptHost.Guest

/-- Nested visits that come to an end by themselves: at some depth it makes no difference what the visits below it
would do. -/
def Ends (visit : (Ref → VisitM Ref) → Ref → VisitM Ref) (r : Ref) (s : Visit)
    (result : Ref × Visit) : Prop :=
  ∃ depth, ∀ last, nested visit last depth r s = result

section

variable {h : Heap} {S : Ref → Prop} {s : Visit} {r target p fuel : ℕ}

/-! ## Copies -/

/-- The entries of a table are copied in the same way by two passes that copy the tables in them in the same way. -/
theorem copyEntries_congr {copy copy' : Ref → VisitM Ref}
    (hcopy : ∀ (q : ℕ) s, Copies h S s → S q → q < h.tables.size →
      h.tables.size < s.known.size + fuel → CopyResult h S q s (copy q s) ∧ copy' q s = copy q s)
    (es : List (Key × Value)) (hes : ∀ e ∈ es, ∀ q : ℕ, e.2 = .table q → S q ∧ q < h.tables.size)
    (hs : Copies h S s) (hroom : h.tables.size < s.known.size + fuel)
    (htarget : h.tables.size ≤ target) :
    (copyEntries copy' target es s).2 = (copyEntries copy target es s).2 := by
  induction es generalizing s with
  | nil => rfl
  | cons e es ih =>
    obtain ⟨k, v⟩ := e
    have hrest : ∀ e ∈ es, ∀ q : ℕ, e.2 = .table q → S q ∧ q < h.tables.size :=
      fun e he => hes e (List.mem_cons_of_mem _ he)
    by_cases htable : ∃ q, v = .table q
    · obtain ⟨q, rfl⟩ := htable
      obtain ⟨hSq, hq⟩ := hes _ List.mem_cons_self q rfl
      obtain ⟨hresult, hsame⟩ := hcopy q s hs hSq hq hroom
      rw [copyEntries_table, copyEntries_table, hsame]
      exact ih hrest (hresult.copies.setEntry htarget k _)
        (Nat.lt_of_lt_of_le hroom (Nat.add_le_add_right hresult.later.count _))
    · have hplain : ∀ q, v ≠ .table q := fun q hq => htable ⟨q, hq⟩
      rw [copyEntries_other copy' k hplain, copyEntries_other copy k hplain]
      exact ih hrest (hs.setEntry htarget k _) hroom

theorem nested_copyVisit (hclosed : h.Closed)
    (hS : ∀ r k q, S r → (h.table r).get k = .table q → S q) (last : Ref → VisitM Ref)
    (hs : Copies h S s) (hSr : S r) (hr : r < h.tables.size)
    (hroom : h.tables.size < s.known.size + fuel) :
    nested copyVisit last fuel r s = copyDeep fuel r s := by
  induction fuel generalizing s r with
  | zero =>
    -- the bottom is not reached: all tables would be known, and more than there are
    have hsize := hs.known_size_le
    omega
  | succ fuel ih =>
    rw [copyDeep_succ, nested]
    cases hknown : s.known[r]? with
    | some c => rw [copyVisit_known hknown, copyVisit_known hknown]
    | none =>
      have hstand := hs.standFor hSr hr hknown
      have hcount : (standFor r s).2.known.size = s.known.size + 1 := known_size_insert hknown
      have hdeeper : h.tables.size < (standFor r s).2.known.size + fuel := by omega
      have hsource : (standFor r s).2.heap.table r = h.table r := hstand.tables r hr
      rw [copyVisit_new hknown, copyVisit_new hknown, hsource]
      refine congrArg (Prod.mk _) (copyEntries_congr ?_ _ ?_ hstand hdeeper hs.size)
      · intro q s hs hSq hq hroom
        exact ⟨copyDeep_spec hclosed hS fuel hs hSq hq hroom, ih hs hSq hq hroom⟩
      · rintro ⟨k, v⟩ he q rfl
        obtain ⟨hget, -⟩ := (Table.mem_entries (hclosed.indexed r)).mp he
        exact ⟨hS r k q hSr hget, (hclosed.within r).get k q (by rw [hget]; rfl)⟩

/-- **A deep copy ends.** -/
theorem Heap.Closed.copyTable_ends (hclosed : h.Closed) (hr : r < h.tables.size) :
    ∃ result, Ends copyVisit r { heap := h } result ∧ h.copyTable r = (result.1, result.2.heap) := by
  refine ⟨_, ⟨h.tables.size + 1, fun last => ?_⟩, rfl⟩
  exact nested_copyVisit (S := fun _ => True) hclosed (fun _ _ _ _ _ => trivial) last
    (copies_start h) trivial hr (by simp)

/-! ## Proxies -/

/-- The entries of a table are frozen in the same way by two passes that freeze the tables in them in the same way. -/
theorem freezeEntries_congr {freeze freeze' : Ref → VisitM Ref}
    (hfreeze : ∀ (q : ℕ) s, Proxies h S s → S q → q < h.tables.size →
      h.tables.size < s.known.size + fuel →
        FreezeResult h S q s (freeze q s) ∧ freeze' q s = freeze q s)
    (es : List (Key × Value)) (hes : ∀ e ∈ es, ∀ q : ℕ, e.2 = .table q → S q ∧ q < h.tables.size)
    (hs : Proxies h S s) (hroom : h.tables.size < s.known.size + fuel)
    (htarget : s.known[target]? = some p) :
    (freezeEntries freeze' target es s).2 = (freezeEntries freeze target es s).2 := by
  induction es generalizing s with
  | nil => rfl
  | cons e es ih =>
    obtain ⟨k, v⟩ := e
    have hrest : ∀ e ∈ es, ∀ q : ℕ, e.2 = .table q → S q ∧ q < h.tables.size :=
      fun e he => hes e (List.mem_cons_of_mem _ he)
    by_cases htable : ∃ q, v = .table q
    · obtain ⟨q, rfl⟩ := htable
      obtain ⟨hSq, hq⟩ := hes _ List.mem_cons_self q rfl
      obtain ⟨hresult, hsame⟩ := hfreeze q s hs hSq hq hroom
      have hknown := hresult.later.known target p htarget
      rw [freezeEntries_table, freezeEntries_table, hsame]
      exact ih hrest (hresult.proxies.setEntry hknown k _)
        (Nat.lt_of_lt_of_le hroom (Nat.add_le_add_right hresult.later.count _)) hknown
    · have hplain : ∀ q, v ≠ .table q := fun q hq => htable ⟨q, hq⟩
      rw [freezeEntries_other freeze' k hplain, freezeEntries_other freeze k hplain]
      exact ih hrest hs hroom htarget

theorem nested_freezeVisit (hclosed : h.Closed)
    (hS : ∀ r k q, S r → (h.table r).get k = .table q → S q) (last : Ref → VisitM Ref)
    (hs : Proxies h S s) (hSr : S r) (hr : r < h.tables.size)
    (hroom : h.tables.size < s.known.size + fuel) :
    nested freezeVisit last fuel r s = freezeDeep fuel r s := by
  induction fuel generalizing s r with
  | zero =>
    have hsize := hs.known_size_le
    omega
  | succ fuel ih =>
    rw [freezeDeep_succ, nested]
    cases hknown : s.known[r]? with
    | some c => rw [freezeVisit_known hknown, freezeVisit_known hknown]
    | none =>
      have hstand := hs.standFor hSr hr hknown
      -- the proxy stands for the table before its entries are visited
      have hself : (standFor r s).2.known[r]? = some (standFor r s).1 :=
        Std.HashMap.getElem?_insert_self
      have hcount : (standFor r s).2.known.size = s.known.size + 1 := known_size_insert hknown
      have hdeeper : h.tables.size < (standFor r s).2.known.size + fuel := by omega
      -- the table itself has not been changed so far
      have hsource : (standFor r s).2.heap.table r = h.table r := by
        rw [(Visit.extends_standFor hknown).tables r (Nat.lt_of_lt_of_le hr hs.size) fun hf => hf]
        exact hs.tables r hr hknown
      rw [freezeVisit_new hknown, freezeVisit_new hknown, hsource,
        freezeEntries_congr ?_ _ ?_ hstand hdeeper hself]
      · intro q s hs hSq hq hroom
        exact ⟨freezeDeep_spec hclosed hS fuel hs hSq hq hroom, ih hs hSq hq hroom⟩
      · rintro ⟨k, v⟩ he q rfl
        obtain ⟨hget, -⟩ := (Table.mem_entries (hclosed.indexed r)).mp he
        exact ⟨hS r k q hSr hget, (hclosed.within r).get k q (by rw [hget]; rfl)⟩

/-- **Freezing ends.** -/
theorem Heap.Closed.freezeTable_ends (hclosed : h.Closed) (hr : r < h.tables.size) :
    ∃ result, Ends freezeVisit r { heap := h } result ∧ h.freezeTable r = (result.1, result.2.heap) := by
  refine ⟨_, ⟨h.tables.size + 1, fun last => ?_⟩, rfl⟩
  exact nested_freezeVisit (S := fun _ => True) hclosed (fun _ _ _ _ _ => trivial) last
    (proxies_start h) trivial hr (by simp)

end

end ScriptHost.Guest
