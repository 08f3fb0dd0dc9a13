import Mathlib
import ScriptHost.Proofs.Guest.Table

/-!
# The contents of a table

An iteration over a table gives all its entries, one after the other, and the length of a sequence is the number of
its elements.

* `Table.Keyed`: every key is the key of a value.
* `Table.entriesFrom`, `Table.Indexed.entryAfter_slot`: what an iteration gives from a place on.
* `Table.Sequence`: a table whose positive integer keys are those up to a number.
* `Table.Sequence.border_of_hint`: the length of a sequence.
-/

namespace ScriptHost.Guest

/-! ## Keys as values -/

/-- A key is the key of the value that it stands for. -/
theorem Value.toKey?_toValue {v : Value} {k : Key} (h : v.toKey? = some k) :
    k.toValue.toKey? = some k := by
  cases v with
  | float x =>
    simp only [Value.toKey?] at h
    split at h
    · cases h
      rfl
    · next hwhole =>
      split at h
      · cases h
      · next hnan =>
        cases h
        -- that a float is what its bits say no smaller import than the whole of Mathlib has
        simp only [Key.toValue, Float.ofBits_toBits, Value.toKey?, hwhole, if_neg hnan]
  | nil => cases h
  | _ =>
    cases h
    rfl

theorem Key.isNil_toValue (k : Key) : k.toValue.isNil = false := by
  cases k <;> rfl

namespace Table

variable {t : Table} {k : Key} {v : Value} {i j : ℕ}

/-- Every key is the key of a value. -/
def Keyed (t : Table) : Prop := ∀ k ∈ t.keys, ∃ v : Value, v.toKey? = some k

theorem Keyed.toKey? (h : t.Keyed) (hk : k ∈ t.keys) : k.toValue.toKey? = some k := by
  obtain ⟨v, hv⟩ := h k hk
  exact Value.toKey?_toValue hv

theorem keyed_empty : Keyed {} := fun k hk => absurd hk (by simp [keys])

theorem Keyed.set (h : t.Keyed) (hi : t.Indexed) {u : Value} (hk : u.toKey? = some k) (v : Value) :
    (t.set k v).Keyed := by
  intro a ha
  rw [keys_set hi] at ha
  split at ha
  · exact h a ha
  · rcases List.mem_append.mp ha with ha | ha
    · exact h a ha
    · exact ⟨u, List.mem_singleton.mp ha ▸ hk⟩

theorem Keyed.setText (h : t.Keyed) (hi : t.Indexed) (name : String) (v : Value) :
    (t.setText name v).Keyed :=
  h.set hi (u := .ofText name) rfl v

theorem keyed_namedTable (fields : List (String × Value)) : (namedTable fields).Keyed := by
  induction fields using List.reverseRecOn with
  | nil => exact keyed_empty
  | append_singleton fields field ih =>
    rw [namedTable_append]
    exact ih.setText (indexed_namedTable fields) _ _

/-! ## Iteration -/

/-- The entries that are not nil, from a place on. -/
def entriesFrom (t : Table) (i : ℕ) : List (Key × Value) :=
  (t.slots.toList.drop i).filter fun slot => !slot.2.isNil

theorem entryFrom_eq_head? {fuel : ℕ} (hroom : t.slots.size ≤ fuel + i) :
    t.entryFrom fuel i = (t.entriesFrom i).head? := by
  induction fuel generalizing i with
  | zero =>
    have hend : t.slots.toList.drop i = [] := List.drop_eq_nil_of_le (by simpa using hroom)
    rw [entriesFrom, hend]
    rfl
  | succ fuel ih =>
    by_cases hi : i < t.slots.size
    · have hdrop : t.slots.toList.drop i = t.slots[i] :: t.slots.toList.drop (i + 1) :=
        List.drop_eq_getElem_cons (by simpa using hi)
      have hrest := ih (i := i + 1) (by omega)
      rw [entriesFrom] at hrest
      simp only [entryFrom, Array.getElem?_eq_getElem hi, entriesFrom, hdrop, List.filter_cons, hrest]
      cases t.slots[i].2.isNil <;> rfl
    · have hend : t.slots.toList.drop i = [] :=
        List.drop_eq_nil_of_le (by simpa using Nat.le_of_not_lt hi)
      rw [entryFrom, Array.getElem?_eq_none (Nat.le_of_not_lt hi), entriesFrom, hend]
      rfl

/-- The first entry from a place on has a place itself, and the others come after it. -/
theorem exists_slot_of_entriesFrom {e : Key × Value} {es : List (Key × Value)}
    (h : t.entriesFrom i = e :: es) : ∃ j, t.slots[j]? = some e ∧ t.entriesFrom (j + 1) = es := by
  obtain ⟨skipped, rest, hdrop, -, -, hrest⟩ := List.filter_eq_cons_iff.mp h
  refine ⟨i + skipped.length, ?_, ?_⟩
  · rw [← Array.getElem?_toList, ← List.getElem?_drop, hdrop]
    simp
  · have hlater : t.slots.toList.drop (i + skipped.length + 1) = rest := by
      rw [Nat.add_assoc, ← List.drop_drop, hdrop]
      simp
    rw [entriesFrom, hlater]
    exact hrest

theorem entryAfter_none (t : Table) : t.entryAfter none = .ok t.entries.head? := by
  rw [entryAfter, entryFrom_eq_head? (Nat.le_refl _)]
  rfl

/-- After the entry at a place comes the first one from the next place on. -/
theorem Indexed.entryAfter_slot (h : t.Indexed) (hslot : t.slots[j]? = some (k, v)) :
    t.entryAfter (some k) = .ok (t.entriesFrom (j + 1)).head? := by
  have hindex : t.index[k]? = some j := by
    rw [h k j, getElem?_keys, hslot]
    rfl
  simp only [entryAfter, hindex]
  rw [entryFrom_eq_head? (by omega)]

theorem mem_keys_of_slot (hslot : t.slots[j]? = some (k, v)) : k ∈ t.keys := by
  refine List.mem_of_getElem? (i := j) ?_
  rw [getElem?_keys, hslot]
  rfl

/-! ## Length -/

/-- A table whose positive integer keys are those up to `n`. -/
structure Sequence (t : Table) (n : Int64) : Prop where
  nonneg : 0 ≤ n
  has : ∀ i : Int64, 0 < i → ((t.getInt i).isNil = false ↔ i ≤ n)

variable {n : Int64} {low high fuel : ℕ}

theorem toNatClampNeg_le_maxKey (n : Int64) : n.toNatClampNeg ≤ maxKey := by
  have hlt := n.toInt_lt
  show n.toInt.toNat ≤ 2 ^ 63 - 1
  omega

namespace Sequence

theorem lacks (h : t.Sequence n) {m : ℕ} (hpos : 0 < m) (hmax : m ≤ maxKey) :
    t.lacks m = decide (n.toNatClampNeg < m) := by
  have hn : 0 ≤ n.toInt := Int64.le_iff_toInt_le.mp h.nonneg
  have hint : (Int64.ofNat m).toInt = m :=
    Int64.toInt_ofNat_of_lt (by simp only [maxKey] at hmax; omega)
  have hkey : 0 < Int64.ofNat m := by
    rw [Int64.lt_iff_toInt_lt, hint]
    exact Int.natCast_pos.mpr hpos
  have hhas := h.has _ hkey
  rw [Int64.le_iff_toInt_le, hint] at hhas
  have hclamp : n.toNatClampNeg = n.toInt.toNat := rfl
  unfold Table.lacks
  cases hnil : (t.getInt (Int64.ofNat m)).isNil with
  | false =>
    have hle := hhas.mp hnil
    exact (decide_eq_false (by omega)).symm
  | true =>
    have hlt : ¬(m : ℤ) ≤ n.toInt := fun hle => by
      rw [hhas.mpr hle] at hnil
      cases hnil
    exact (decide_eq_true (by omega)).symm

/-- Halving ends at the last element. -/
theorem borderBetween (h : t.Sequence n) (hlow : low ≤ n.toNatClampNeg)
    (hhigh : n.toNatClampNeg < high) (hmax : high ≤ maxKey) (hroom : high - low ≤ 2 ^ fuel) :
    t.borderBetween fuel low high = n.toNatClampNeg := by
  induction fuel generalizing low high with
  | zero =>
    rw [Table.borderBetween]
    omega
  | succ fuel ih =>
    rw [Table.borderBetween]
    split
    · omega
    · rw [Nat.pow_succ] at hroom
      -- the middle is on one side of the last element, and each half has half the room
      have hmiddle := h.lacks (m := (low + high) / 2) (by omega) (by omega)
      simp only [hmiddle, decide_eq_true_eq]
      split
      · exact ih hlow (by omega) (by omega) (by omega)
      · exact ih (by omega) hhigh hmax (by omega)

/-- Doubling goes on up to the last element, which halving then finds. -/
theorem borderAbove (h : t.Sequence n) (hpos : 0 < low) (hlow : low ≤ n.toNatClampNeg)
    (hroom : 2 ^ 63 ≤ 2 ^ fuel * low) : t.borderAbove fuel low = n.toNatClampNeg := by
  have hn := toNatClampNeg_le_maxKey n
  have hbetween : ∀ high, high ≤ maxKey → high - low ≤ 2 ^ 64 := by
    intro high hhigh
    simp only [maxKey] at hhigh
    omega
  induction fuel generalizing low with
  | zero =>
    simp only [maxKey] at hn
    omega
  | succ fuel ih =>
    rw [Table.borderAbove]
    split
    · next hhalf =>
      have hdouble : 2 * low ≤ maxKey := by omega
      simp only [h.lacks (m := 2 * low) (by omega) hdouble, decide_eq_true_eq]
      split
      · next hlt => exact h.borderBetween hlow hlt hdouble (hbetween _ hdouble)
      · next hge =>
        refine ih (by omega) (by omega) ?_ fun high hhigh => ?_
        · -- with one doubling less to go the room is the same
          rw [Nat.pow_succ] at hroom
          calc 2 ^ 63 ≤ 2 ^ fuel * 2 * low := hroom
            _ = 2 ^ fuel * (2 * low) := Nat.mul_assoc ..
        · exact Nat.le_trans (Nat.sub_le_sub_left (by omega) _) (hbetween high hhigh)
    · simp only [h.lacks (m := maxKey) (by decide) (Nat.le_refl _), decide_eq_true_eq]
      split
      · next hlt => exact h.borderBetween hlow hlt (Nat.le_refl _) (hbetween _ (Nat.le_refl _))
      · omega

/-- The length of a sequence is the number of its elements, whatever size a constructor announced. -/
theorem border_of_hint (h : t.Sequence n) (hhint : t.hint < maxKey) : Int64.ofNat t.border = n := by
  have hborder : t.border = n.toNatClampNeg := by
    unfold Table.border
    split
    · -- the announced size is past the last element
      next hannounced =>
      rw [Bool.and_eq_true, decide_eq_true_eq] at hannounced
      obtain ⟨hpos, hlacks⟩ := hannounced
      rw [h.lacks hpos (Nat.le_of_lt hhint), decide_eq_true_eq] at hlacks
      have hroom : t.hint - 0 ≤ 2 ^ 64 := by
        simp only [maxKey] at hhint
        omega
      exact h.borderBetween (Nat.zero_le _) hlacks (Nat.le_of_lt hhint) hroom
    · next hannounced =>
      have hreached : t.hint ≤ n.toNatClampNeg := by
        rcases Nat.eq_zero_or_pos t.hint with hzero | hpos
        · omega
        · rw [h.lacks hpos (Nat.le_of_lt hhint)] at hannounced
          simpa [hpos] using hannounced
      rw [h.lacks (Nat.succ_pos _) hhint]
      simp only [decide_eq_true_eq]
      split
      · omega
      · exact h.borderAbove (Nat.succ_pos _) (by omega) (by omega)
  rw [hborder]
  exact Int64.ofNat_toNatClampNeg n h.nonneg

/-- The length of a sequence that no constructor announced is the number of its elements. -/
theorem border (h : t.Sequence n) (hhint : t.hint = 0) : Int64.ofNat t.border = n :=
  h.border_of_hint (hhint ▸ by decide)

end Sequence

end Table

end ScriptHost.Guest
