import Mathlib.Algebra.GroupWithZero.Nat
import Mathlib.Data.Finset.Card
import Mathlib.Data.List.MinMax
import Mathlib.Data.String.Basic
import Mathlib.Order.Nat
import Mathlib.Tactic.Choose
import ScriptHost.Guest.Render
import ScriptHost.Proofs.TreeMap

/-!
# What a value is as JSON

The JSON of a value, by what the tables hold that it leads to. How tables are stored and in which order their entries
are read does not come into it, and nothing is cut off.

* `Numbered`: a table whose keys are the numbers from one on.
* `Renders`: a value, and its JSON within some tables.
* `Renders.unique`, `exists_renders`: a value has one JSON, if no table has two entries of one name.
* `Json.nesting`, `Json.containers`, `Json.widest`: how large a JSON value is.
-/

namespace ScriptHost

namespace Json

/-! ## How large a value is -/

section

variable (combine : List ℕ → ℕ)

mutual

/-- A number for a value, combined from those of its parts; a value that can have no parts has none. -/
def measure : Json → ℕ
  | .arr items => combine (measureItems items)
  | .obj members => combine (measureMembers members)
  | _ => 0

/-- The numbers of elements. -/
def measureItems : List Json → List ℕ
  | [] => []
  | item :: items => measure item :: measureItems items

/-- The numbers of members. -/
def measureMembers : List (String × Json) → List ℕ
  | [] => []
  | (_, value) :: members => measure value :: measureMembers members

end

theorem measureItems_eq (items : List Json) : measureItems combine items = items.map (measure combine) := by
  induction items with
  | nil => rfl
  | cons item items ih => rw [measureItems, ih, List.map_cons]

theorem measureMembers_eq (members : List (String × Json)) :
    measureMembers combine members = (members.map Prod.snd).map (measure combine) := by
  induction members with
  | nil => rfl
  | cons member members ih => rw [measureMembers, ih, List.map_cons, List.map_cons]

end

/-- How deeply arrays and objects are nested. -/
def nesting : Json → ℕ := measure fun parts => parts.foldr max 0 + 1

/-- The number of arrays and objects. -/
def containers : Json → ℕ := measure fun parts => parts.sum + 1

/-- The number of elements or members of the longest array or object. -/
def widest : Json → ℕ := measure fun parts => max parts.length (parts.foldr max 0)

/-- An array or an object with some parts. -/
inductive Container : Json → List Json → Prop where
  | arr (items : List Json) : Container (.arr items) items
  | obj (members : List (String × Json)) : Container (.obj members) (members.map Prod.snd)

variable {j part : Json} {parts : List Json}

theorem Container.measure_eq (h : Container j parts) (combine : List ℕ → ℕ) :
    j.measure combine = combine (parts.map (measure combine)) := by
  cases h with
  | arr items => rw [measure, measureItems_eq]
  | obj members => rw [measure, measureMembers_eq]

theorem Container.containers_eq (h : Container j parts) : j.containers = (parts.map containers).sum + 1 :=
  h.measure_eq _

theorem Container.nesting_pos (h : Container j parts) : 0 < j.nesting := by
  rw [nesting, h.measure_eq]
  exact Nat.succ_pos _

theorem Container.nesting_lt (h : Container j parts) (hmem : part ∈ parts) : part.nesting < j.nesting := by
  have hle : part.nesting ≤ (parts.map nesting).foldr max 0 := List.le_max_of_le (List.mem_map_of_mem hmem) (Nat.le_refl _)
  rw [show j.nesting = (parts.map nesting).foldr max 0 + 1 from h.measure_eq _]
  omega

theorem Container.widest_eq (h : Container j parts) :
    j.widest = max parts.length ((parts.map widest).foldr max 0) := by
  rw [widest, h.measure_eq, List.length_map]

theorem Container.length_le (h : Container j parts) : parts.length ≤ j.widest := by
  rw [h.widest_eq]
  exact Nat.le_max_left ..

theorem Container.widest_le (h : Container j parts) (hmem : part ∈ parts) : part.widest ≤ j.widest := by
  rw [h.widest_eq]
  exact Nat.le_trans (List.le_max_of_le (List.mem_map_of_mem hmem) (Nat.le_refl _)) (Nat.le_max_right ..)

end Json

namespace Guest

/-! ## The JSON of a value -/

/-- The numbers from one to `n`, as keys. -/
def places (n : ℕ) : List Key := (List.range n).map fun i => .int (Int64.ofNat (i + 1))

/-- The keys of a table, of which there are some, are the numbers from one to `n`. -/
structure Numbered (c : Key → Value) (n : ℕ) : Prop where
  pos : 0 < n
  small : n ≤ Table.maxKey
  has : ∀ k, (c k).isNil = false ↔ k ∈ places n

/-- With tables that hold what `C` says, a value within the tables of `path` is a JSON value. A table within itself is
shown as a cycle, and no other one is, however often it was shown before. Any other table is an array if its keys are
the numbers from one on, and else an object with a member for each entry; members are sorted by their names. -/
inductive Renders (C : Ref → Key → Value) : List Ref → Value → Json → Prop where
  | scalar {path : List Ref} {v : Value} (hv : ∀ r, v ≠ .table r) : Renders C path v (scalarJson v)
  | cycle {path : List Ref} {r : Ref} (hr : r ∈ path) : Renders C path (.table r) (.str "<cycle>")
  | array {path : List Ref} {r : Ref} {n : ℕ} {shown : Key → Json} (hr : r ∉ path) (hn : Numbered (C r) n)
      (hshown : ∀ k, (C r k).isNil = false → Renders C (r :: path) (C r k) (shown k)) :
      Renders C path (.table r) (.arr ((places n).map shown))
  | object {path : List Ref} {r : Ref} {members : List (String × Json)} {shown : Key → Json} (hr : r ∉ path)
      (hn : ∀ n, ¬ Numbered (C r) n)
      (hshown : ∀ k, (C r k).isNil = false → Renders C (r :: path) (C r k) (shown k))
      (hsorted : members.Pairwise fun a b => a.1 < b.1)
      (hmembers : ∀ name j, (name, j) ∈ members ↔
        ∃ k, (C r k).isNil = false ∧ k.toValue.keyText = name ∧ shown k = j) :
      Renders C path (.table r) (.obj members)

/-- With tables that hold what `C` says, a value is a table or leads to it. -/
inductive Leads (C : Ref → Key → Value) : Value → Ref → Prop where
  | self (r : Ref) : Leads C (.table r) r
  | entry {r s : Ref} (k : Key) (h : Leads C (C r k) s) : Leads C (.table r) s

/-- None of the tables that a value leads to has two entries of one name. -/
def DistinctNames (C : Ref → Key → Value) (v : Value) : Prop :=
  ∀ r, Leads C v r → ∀ k k', (C r k).isNil = false → (C r k').isNil = false →
    k.toValue.keyText = k'.toValue.keyText → k = k'

variable {C : Ref → Key → Value} {c : Key → Value} {path : List Ref} {v : Value} {r : Ref} {j j' : Json} {n m : ℕ}

/-! ## Numbers as keys -/

theorem toInt_place {i : ℕ} (hi : i < Table.maxKey) : (Int64.ofNat (i + 1)).toInt = i + 1 := by
  rw [Int64.toInt_ofNat_of_lt (by simp only [Table.maxKey] at hi; omega)]
  rfl

@[simp] theorem length_places (n : ℕ) : (places n).length = n := by
  rw [places, List.length_map, List.length_range]

theorem mem_places (hn : n ≤ Table.maxKey) {k : Key} :
    k ∈ places n ↔ ∃ i : Int64, k = .int i ∧ 1 ≤ i.toInt ∧ i.toInt ≤ n := by
  rw [places, List.mem_map]
  constructor
  · rintro ⟨i, hi, rfl⟩
    have hplace := List.mem_range.mp hi
    have hint := toInt_place (Nat.lt_of_lt_of_le hplace hn)
    exact ⟨_, rfl, by omega, by omega⟩
  · rintro ⟨i, rfl, hlow, hhigh⟩
    have hplace : i.toInt.toNat - 1 < n := by omega
    have hint := toInt_place (Nat.lt_of_lt_of_le hplace hn)
    refine ⟨i.toInt.toNat - 1, List.mem_range.mpr hplace, ?_⟩
    congr 1
    exact Int64.toInt_inj.mp (by omega)

theorem nodup_places (hn : n ≤ Table.maxKey) : (places n).Nodup := by
  refine List.nodup_range.map_on fun i hi i' hi' heq => ?_
  have hint := toInt_place (Nat.lt_of_lt_of_le (List.mem_range.mp hi) hn)
  have hint' := toInt_place (Nat.lt_of_lt_of_le (List.mem_range.mp hi') hn)
  rw [Key.int.inj heq, hint'] at hint
  omega

theorem Numbered.perm (h : Numbered c n) {keys : List Key} (hnodup : keys.Nodup)
    (hkeys : ∀ k, k ∈ keys ↔ (c k).isNil = false) : keys.Perm (places n) :=
  (List.perm_ext_iff_of_nodup hnodup (nodup_places h.small)).mpr fun k => (hkeys k).trans (h.has k)

/-- A table is not numbered up to two numbers. -/
theorem Numbered.unique (h : Numbered c n) (h' : Numbered c m) : n = m := by
  have hperm := h'.perm (nodup_places h.small) fun k => (h.has k).symm
  simpa using hperm.length_eq

/-! ## One JSON for a value -/

theorem nodup_names {members : List (String × Json)} (h : members.Pairwise fun a b => a.1 < b.1) :
    (members.map Prod.fst).Nodup :=
  List.pairwise_map.mpr (h.imp ne_of_lt)

/-- Members that are sorted are told by what they are. -/
theorem eq_of_sorted {members members' : List (String × Json)} (h : members.Pairwise fun a b => a.1 < b.1)
    (h' : members'.Pairwise fun a b => a.1 < b.1) (hmem : ∀ e, e ∈ members ↔ e ∈ members') : members = members' := by
  have hperm := (List.perm_ext_iff_of_nodup (.of_map _ (nodup_names h)) (.of_map _ (nodup_names h'))).mpr hmem
  exact List.Perm.eq_of_pairwise (fun _ _ _ _ hlt hgt => absurd hgt (lt_asymm hlt)) h h' hperm

theorem Renders.unique (h : Renders C path v j) (h' : Renders C path v j') : j = j' := by
  induction h generalizing j' with
  | scalar hv =>
    cases h' with
    | scalar => rfl
    | _ => exact absurd rfl (hv _)
  | cycle hr =>
    cases h' with
    | scalar hv => exact absurd rfl (hv _)
    | cycle => rfl
    | _ => contradiction
  | array hr hn hshown ih =>
    cases h' with
    | scalar hv => exact absurd rfl (hv _)
    | cycle => contradiction
    | array hr' hn' hshown' =>
      obtain rfl := hn.unique hn'
      refine congrArg Json.arr (List.map_congr_left fun k hk => ?_)
      have hentry := (hn.has k).mpr hk
      exact ih k hentry (hshown' k hentry)
    | object hr' hn' => exact absurd hn (hn' _)
  | object hr hn hshown hsorted hmembers ih =>
    cases h' with
    | scalar hv => exact absurd rfl (hv _)
    | cycle => contradiction
    | array hr' hn' => exact absurd hn' (hn _)
    | object hr' hn' hshown' hsorted' hmembers' =>
      -- members are sorted by name, so that the same members are in the same order
      refine congrArg Json.obj (eq_of_sorted hsorted hsorted' fun ⟨name, j⟩ => ?_)
      rw [hmembers, hmembers']
      refine exists_congr fun k => and_congr_right fun hentry => ?_
      rw [ih k hentry (hshown' k hentry)]

/-! ## Members by their names -/

/-- An object has the members that it is made of, sorted by their names, if no two of them have one name. -/
theorem ofMembers_eq {members : List (String × Json)} (hnames : ∀ a ∈ members, ∀ b ∈ members, a.1 = b.1 → a = b) :
    ∃ sorted, Json.ofMembers members = .obj sorted ∧ (sorted.Pairwise fun a b => a.1 < b.1) ∧
      ∀ e, e ∈ sorted ↔ e ∈ members := by
  refine ⟨_, rfl, Std.TreeMap.ordered_keys_toList.imp fun hlt => compare_lt_iff_lt.mp hlt, ?_⟩
  -- a member that comes last takes no other one's place, since no other one has its name
  induction members using List.reverseRecOn with
  | nil => exact fun ⟨name, j⟩ => by simp
  | append_singleton members member ih =>
    have hrest := ih fun a ha b hb => hnames a (List.mem_append_left _ ha) b (List.mem_append_left _ hb)
    rintro ⟨name, j⟩
    rw [List.foldl_append, List.foldl_cons, List.foldl_nil, NameMap.mem_toList, NameMap.get?_insert,
      List.mem_append, List.mem_singleton]
    split
    · next hname =>
      rw [Option.some.injEq]
      constructor
      · rintro rfl
        exact .inr (by rw [← hname])
      · rintro (hmem | heq)
        · exact congrArg Prod.snd (hnames _ (by simp) _ (List.mem_append_left _ hmem) hname)
        · rw [← heq]
    · next hname =>
      rw [← NameMap.mem_toList, hrest]
      exact ⟨.inl, fun hmem => hmem.resolve_right fun heq => hname (by rw [← heq])⟩

/-! ## A JSON for every value -/

/-- A value has a JSON value, if all of finitely many tables that are not empty have finitely many entries. The
induction is on how many tables there are that it is not within. -/
theorem exists_renders (tables : Finset Ref) (hnames : DistinctNames C v)
    (htables : ∀ r, Leads C v r → r ∉ tables → ∀ k, (C r k).isNil = true)
    (hfinite : ∀ r, Leads C v r → ∃ keys : List Key, ∀ k, (C r k).isNil = false → k ∈ keys) (path : List Ref) :
    ∃ j, Renders C path v j := by
  induction hsize : (tables \ path.toFinset).card using Nat.strong_induction_on generalizing v path with
  | _ size ih =>
  by_cases hv : ∀ r, v ≠ .table r
  · exact ⟨_, .scalar hv⟩
  obtain ⟨r, rfl⟩ : ∃ r, v = .table r := by simpa using hv
  by_cases hr : r ∈ path
  · exact ⟨_, .cycle hr⟩
  -- an entry is within one more table, which is one of the finitely many since it has this entry
  have hparts (k : Key) (hk : (C r k).isNil = false) : ∃ j, Renders C (r :: path) (C r k) j := by
    have htable : r ∈ tables := by
      by_contra hout
      rw [htables r (.self r) hout k] at hk
      cases hk
    have hless : (tables \ (r :: path).toFinset).card < size := by
      rw [← hsize]
      refine Finset.card_lt_card (Finset.ssubset_iff_of_subset (fun s hs => ?_) |>.mpr ⟨r, ?_, ?_⟩)
      · simp only [Finset.mem_sdiff, List.mem_toFinset, List.mem_cons, not_or] at hs ⊢
        exact ⟨hs.1, hs.2.2⟩
      · simp [htable, hr]
      · simp
    exact ih _ hless (fun s hs => hnames s (.entry k hs)) (fun s hs => htables s (.entry k hs))
      (fun s hs => hfinite s (.entry k hs)) _ rfl
  choose! shown hshown using hparts
  by_cases hn : ∃ n, Numbered (C r) n
  · obtain ⟨n, hn⟩ := hn
    exact ⟨_, .array hr hn hshown⟩
  -- the members of a table that is not numbered are put in order by their names, which are different
  obtain ⟨keys, hkeys⟩ := hfinite r (.self r)
  have hmem (e : String × Json) :
      e ∈ (keys.filter fun k => !(C r k).isNil).map (fun k => (k.toValue.keyText, shown k)) ↔
        ∃ k, (C r k).isNil = false ∧ k.toValue.keyText = e.1 ∧ shown k = e.2 := by
    simp only [List.mem_map, List.mem_filter, Bool.not_eq_true', Prod.ext_iff]
    exact exists_congr fun k => and_congr_left fun _ => and_iff_right_of_imp (hkeys k)
  obtain ⟨members, -, hsorted, hmembers⟩ := ofMembers_eq fun a ha b hb hname => by
    obtain ⟨k, hk, htext, hj⟩ := (hmem a).mp ha
    obtain ⟨k', hk', htext', hj'⟩ := (hmem b).mp hb
    obtain rfl := hnames r (.self r) k k' hk hk' (by rw [htext, htext', hname])
    exact Prod.ext hname (hj.symm.trans hj')
  exact ⟨_, .object hr (not_exists.mp hn) hshown hsorted fun name j => (hmembers (name, j)).trans (hmem (name, j))⟩

end Guest

end ScriptHost
