import ScriptHost.Proofs.Guest.Freezing

/-!
# Access through a proxy

What reading and writing come to at a proxy and at the table behind it, as far as the heap decides.

* `Heap.Guards.index`: reading goes to the table behind.
* `Heap.Guards.assign`: a write is refused by a function, whatever the key.
* `Heap.assign_plain`: the table behind itself refuses nothing.
-/

namespace ScriptHost.Guest
namespace Heap

variable {h h' : Heap} {p m b : ℕ}

theorem metamethod_plain (hb : (h.table b).metatable = none) (event : String) :
    h.metamethod (.table b) event = .nil := by
  simp only [metamethod, metatable?, hb]

theorem Guards.metamethod (hg : h.Guards p m b) (event : String) :
    h.metamethod (.table p) event = ((proxyFields b).reverse.lookup event).getD .nil := by
  have hm : (h.table p).metatable = some m := by rw [hg.1]
  simp only [Heap.metamethod, metatable?, hm]
  rw [hg.2, Table.getText_namedTable]

theorem Guards.rawGet (hg : h.Guards p m b) (k : Value) : h.rawGet p k = .nil := by
  unfold Heap.rawGet
  split
  · rw [hg.1]
    exact Table.get_empty
  · rfl

/-! ## Reading -/

theorem indexLoop_table (k : Value) (fuel : ℕ) (r : Ref) :
    h.indexLoop k (fuel + 1) (.table r) =
      if !(h.rawGet r k).isNil then .value (h.rawGet r k)
      else match h.metamethod (.table r) "__index" with
        | .nil => .value .nil
        | .closure c => .call (.closure c) (.table r)
        | .native f => .call (.native f) (.table r)
        | next => h.indexLoop k fuel next := rfl

theorem index_plain (hb : (h.table b).metatable = none) (k : Value) (fuel : ℕ) :
    h.indexLoop k (fuel + 1) (.table b) = .value (h.rawGet b k) := by
  rw [indexLoop_table, metamethod_plain hb]
  cases hget : (h.rawGet b k).isNil with
  | false => rfl
  | true =>
    rw [Value.isNil_iff] at hget
    rw [hget]
    rfl

/-- Reading at a proxy reads the table behind it. -/
theorem Guards.index (hg : h.Guards p m b) (hb : (h.table b).metatable = none) (k : Value) :
    h.index (.table p) k = .value (h.rawGet b k) := by
  show h.indexLoop k (1998 + 1 + 1) (.table p) = _
  rw [indexLoop_table, hg.rawGet, hg.metamethod "__index"]
  exact index_plain hb k 1998

/-! ## Writing -/

theorem assignLoop_table (k : Value) (fuel : ℕ) (r : Ref) :
    h.assignLoop k (fuel + 1) (.table r) =
      match h.metamethod (.table r) "__newindex" with
      | .nil => assignRaw r k
      | f =>
        if !(h.rawGet r k).isNil then assignRaw r k
        else if f.isFunction then .call f (.table r)
        else h.assignLoop k fuel f := rfl

/-- Writing at a proxy calls the function that refuses. -/
theorem Guards.assign (hg : h.Guards p m b) (k : Value) :
    h.assign (.table p) k = .call (.native .refuseWrite) (.table p) := by
  show h.assignLoop k (1999 + 1) (.table p) = _
  rw [assignLoop_table, hg.rawGet, hg.metamethod "__newindex"]
  rfl

theorem assign_plain (hb : (h.table b).metatable = none) (k : Value) :
    h.assign (.table b) k = assignRaw b k := by
  show h.assignLoop k (1999 + 1) (.table b) = _
  rw [assignLoop_table, metamethod_plain hb]

/-! ## Other heaps -/

theorem Guards.congr (hg : h.Guards p m b) (hp : h'.table p = h.table p)
    (hm : h'.table m = h.table m) : h'.Guards p m b :=
  ⟨hp.trans hg.1, hm.trans hg.2⟩

end Heap
end ScriptHost.Guest
