import ScriptHost.Proofs.Guest.Members
import ScriptHost.Proofs.Guest.Paths

/-!
# Paths and JSON

A path is read on by a part in a table, and the JSON of a table has a part for each entry. Both take the texts of keys
for their names: where a part of a path gives a value, its JSON is the part of the table's JSON under the same name.

* `readIndex?_toString`: a number is read back from its text.
* `Json.part?`: an element or a member, by its name.
* `Renders.of_path`: only the tables that a value leads to matter on the path to it.
* `Renders.exists_part`: the part for an entry.
* `paths_commute_with_json`: the main result.
-/

namespace ScriptHost

/-! ## Numbers as texts -/

namespace Guest

theorem natOfDigits_toDigits (n : ℕ) : Decimal.natOfDigits (Nat.toDigits 10 n) = n := by
  rw [Decimal.natOfDigits, ← Nat.ofDigitChars_eq_foldl]
  exact Nat.ofDigitChars_ten_toDigits

theorem toDigits_all_digits (n : ℕ) : (Nat.toDigits 10 n).all Char.isDigit = true := by
  rw [List.all_eq_true]
  exact fun c hc => Nat.isDigit_of_mem_toDigits (by decide) (by decide) hc

/-- A digit is no sign. -/
theorem exists_toDigits (n : ℕ) : ∃ d ds, Nat.toDigits 10 n = d :: ds ∧ d ≠ '-' ∧ d ≠ '+' := by
  obtain ⟨d, ds, hdigits⟩ := List.exists_cons_of_ne_nil (Nat.toDigits_ne_nil (n := n) (b := 10))
  have hd : d.isDigit = true :=
    Nat.isDigit_of_mem_toDigits (b := 10) (n := n) (by decide) (by decide) (hdigits ▸ List.mem_cons_self)
  refine ⟨d, ds, hdigits, ?_, ?_⟩ <;> rintro rfl <;> exact absurd hd (by decide)

/-- Digits without a sign, or after a minus sign, are read as the number that they write, if it is small enough. -/
theorem readIndex?_of_digits {s : String} {n : ℕ} {i : Int64}
    (hs : s.toList = Nat.toDigits 10 n ∧ i.toInt = n ∨ s.toList = '-' :: Nat.toDigits 10 n ∧ i.toInt = -n) :
    readIndex? s = some i := by
  obtain ⟨d, ds, hdigits, hminus, hplus⟩ := exists_toDigits n
  have hall := toDigits_all_digits n
  have hvalue := natOfDigits_toDigits n
  have hrange : Int64.minValue.toInt ≤ i.toInt ∧ i.toInt ≤ Int64.maxValue.toInt := ⟨i.minValue_le_toInt, i.toInt_le⟩
  rw [hdigits] at hs hall hvalue
  unfold readIndex?
  -- a digit comes first in the digits, so that no sign is taken from them
  rcases hs with ⟨hs, hi⟩ | ⟨hs, hi⟩
  · split
    next negative digits hsign =>
    rw [hs] at hsign
    split at hsign
    · next heq => exact absurd (List.cons.inj heq).1 hminus
    · next heq => exact absurd (List.cons.inj heq).1 hplus
    · cases hsign
      simp only [List.isEmpty_cons, hall, Bool.not_true, Bool.or_self, hvalue, ← hi, hrange, Bool.false_eq_true, if_false,
        decide_true, Bool.and_self, if_true, Int64.ofInt_toInt]
  · rw [hs]
    simp only [List.isEmpty_cons, hall, Bool.not_true, Bool.or_self, hvalue, ← hi, hrange, Bool.false_eq_true, if_false,
      decide_true, Bool.and_self, if_true, Int64.ofInt_toInt]

/-- A number is read back from its text. -/
theorem readIndex?_toString (i : Int64) : readIndex? (toString i.toInt) = some i := by
  rw [Int.toString_eq_repr, Int.repr_eq_if]
  split
  · next hsign =>
    refine readIndex?_of_digits (n := i.toInt.toNat) (.inl ⟨?_, (Int.toNat_of_nonneg hsign).symm⟩)
    rw [Nat.repr_eq_ofList_toDigits, String.toList_ofList]
  · next hsign =>
    refine readIndex?_of_digits (n := (-i.toInt).toNat) (.inr ⟨?_, by omega⟩)
    simp [Nat.repr_eq_ofList_toDigits]

end Guest

/-! ## Parts of JSON -/

namespace Json

/-- The element of a name, where the first one has the name `first`. -/
def elementFrom (first : ℕ) (name : String) : List Json → Option Json
  | [] => none
  | item :: items => if toString first = name then some item else elementFrom (first + 1) name items

/-- The part of a name: the element of an array with this number, counted from one, or the member of an object. -/
def part? (j : Json) (name : String) : Option Json :=
  match j with
  | .arr items => elementFrom 1 name items
  | .obj members => members.lookup name
  | _ => none

theorem elementFrom_eq_some {items : List Json} {item : Json} {i : ℕ} (first : ℕ) (hitem : items[i]? = some item) :
    elementFrom first (toString (first + i)) items = some item := by
  induction items generalizing first i with
  | nil => simp at hitem
  | cons head items ih =>
    rw [elementFrom]
    cases i with
    | zero =>
      rw [Nat.add_zero, if_pos rfl]
      simpa using hitem
    | succ i =>
      have hother : toString first ≠ toString (first + (i + 1)) := fun heq => by
        have hnumber := Nat.repr_injective heq
        omega
      have hnext : first + (i + 1) = first + 1 + i := by omega
      rw [if_neg hother, hnext]
      exact ih (first + 1) (by simpa using hitem)

theorem part?_obj {members : List (String × Json)} {name : String} {j : Json}
    (hsorted : members.Pairwise fun a b => a.1 < b.1) (hmem : (name, j) ∈ members) :
    (Json.obj members).part? name = some j := by
  obtain ⟨front, back, rfl⟩ := List.append_of_mem hmem
  refine List.lookup_eq_some_iff.mpr ⟨front, back, rfl, fun p hp => ?_⟩
  have hless : p.1 < name := (List.pairwise_append.mp hsorted).2.2 p hp (name, j) List.mem_cons_self
  simpa using hless.ne'

theorem Container.containers_le {j part : Json} {parts : List Json} (h : Container j parts) (hmem : part ∈ parts) :
    part.containers ≤ j.containers := by
  have hle : part.containers ≤ (parts.map containers).sum := List.le_sum_of_mem (List.mem_map_of_mem hmem)
  rw [h.containers_eq]
  exact Nat.le_succ_of_le hle

end Json

namespace Guest

variable {w w' : World} {C : Ref → Key → Value} {v : Value} {r g : Ref} {j : Json} {path path' : List Ref} {k : Key}
  {p s : String}

/-! ## Parts of tables -/

/-- Of the tables that a value leads to, none leads to itself. -/
def Acyclic (C : Ref → Key → Value) (v : Value) : Prop := ∀ q, Leads C v q → ∀ k, ¬ Leads C (C q k) q

/-- The JSON of a value depends on the path to it only where it leads to tables of the path. -/
theorem Renders.of_path (h : Renders C path v j) (hsame : ∀ q, Leads C v q → (q ∈ path ↔ q ∈ path')) :
    Renders C path' v j := by
  -- the induction is on the JSON of the value; both paths grow by the same table
  induction h generalizing path' with
  | scalar hv => exact .scalar hv
  | @cycle path r hr => exact .cycle ((hsame r (.self r)).mp hr)
  | @array path r n shown hr hn hshown ih =>
    refine .array (fun hmem => hr ((hsame r (.self r)).mpr hmem)) hn fun k hk => ih k hk fun q hq => ?_
    rw [List.mem_cons, List.mem_cons, hsame q (.entry k hq)]
  | @object path r members shown hr hn hshown hsorted hmembers ih =>
    refine .object (fun hmem => hr ((hsame r (.self r)).mpr hmem)) hn (fun k hk => ih k hk fun q hq => ?_) hsorted hmembers
    rw [List.mem_cons, List.mem_cons, hsame q (.entry k hq)]

/-- The text of the key at a place is its number, counted from one. -/
theorem keyText_place {n i : ℕ} (hn : n ≤ Table.maxKey) (hplace : (places n)[i]? = some k) :
    k.toValue.keyText = toString (1 + i) := by
  obtain ⟨hlt, hkey⟩ := List.getElem?_eq_some_iff.mp hplace
  rw [length_places] at hlt
  have hint : (Int64.ofNat (i + 1)).toInt = ((1 + i : ℕ) : ℤ) := by
    rw [toInt_place (Nat.lt_of_lt_of_le hlt hn), Nat.add_comm]
    rfl
  have hk : k = .int (Int64.ofNat (i + 1)) := by
    rw [← hkey]
    simp [places]
  rw [hk]
  show toString (Int64.ofNat (i + 1)).toInt = _
  rw [hint]
  rfl

/-- The JSON of a table has a part for each entry, under the text of its key: the JSON of the value within the table. -/
theorem Renders.exists_part (h : Renders C path (.table r) j) (hr : r ∉ path) (hk : (C r k).isNil = false) :
    ∃ part parts, Renders C (r :: path) (C r k) part ∧ j.part? k.toValue.keyText = some part ∧
      j.Container parts ∧ part ∈ parts := by
  cases h with
  | scalar hv => exact absurd rfl (hv r)
  | cycle hmem => exact absurd hmem hr
  | @array _ _ n shown _ hn hshown =>
    have hplace : k ∈ places n := (hn.has k).mp hk
    obtain ⟨i, hi⟩ := List.getElem?_of_mem hplace
    refine ⟨shown k, _, hshown k hk, ?_, .arr _, List.mem_map_of_mem hplace⟩
    rw [keyText_place hn.small hi]
    exact Json.elementFrom_eq_some 1 (by rw [List.getElem?_map, hi, Option.map_some])
  | @object _ _ members shown _ hn hshown hsorted hmembers =>
    have hmember : (k.toValue.keyText, shown k) ∈ members := (hmembers _ _).mpr ⟨k, hk, rfl, rfl⟩
    exact ⟨shown k, _, hshown k hk, Json.part?_obj hsorted hmember, .obj members,
      List.mem_map_of_mem (f := Prod.snd) hmember⟩

/-- In an acyclic table a value has the JSON that it has alone. -/
theorem Renders.exists_part_alone (h : Renders C [] (.table r) j) (hacyclic : Acyclic C (.table r))
    (hk : (C r k).isNil = false) : ∃ part parts, Renders C [] (C r k) part ∧ j.part? k.toValue.keyText = some part ∧
      j.Container parts ∧ part ∈ parts := by
  obtain ⟨part, parts, hpart, hname, hcontainer, hmem⟩ := h.exists_part List.not_mem_nil hk
  -- the one table on the path is the table itself, and no entry leads back to it
  have halone : ∀ q, Leads C (C r k) q → (q ∈ [r] ↔ q ∈ ([] : List Ref)) := by
    intro q hq
    have hother : q ≠ r := fun heq => hacyclic r (.self r) k (heq ▸ hq)
    simp [hother]
  exact ⟨part, parts, hpart.of_path halone, hname, hcontainer, hmem⟩

/-! ## Parts of paths -/

/-- What a part of a path gives in a table is the value of a key with this text. -/
theorem exists_key_of_partValue (hcanonical : ∀ i, readIndex? s = some i → toString i.toInt = s)
    (hv : partValue (w.guest.rawGet r) s = v) (hnil : v.isNil = false) :
    ∃ k, contents w r k = v ∧ k.toValue.keyText = s := by
  rw [partValue, firstOf_cons, firstOf_cons] at hv
  cases hnamed : (w.guest.rawGet r (.ofText s)).isNil with
  | false =>
    rw [hnamed, if_neg Bool.false_ne_true] at hv
    exact ⟨.str s.toUTF8, hv, Text.decodeLossy_toByteArray s⟩
  | true =>
    rw [hnamed, if_pos rfl] at hv
    cases hindex : readIndex? s with
    | none =>
      rw [hindex] at hv
      subst hv
      cases hnil
    | some i =>
      simp only [hindex] at hv
      cases hnumbered : (w.guest.rawGet r (.int i)).isNil with
      | false =>
        rw [hnumbered, if_neg Bool.false_ne_true] at hv
        -- a number that is read of a text has this text again
        exact ⟨.int i, hv, hcanonical i hindex⟩
      | true =>
        rw [hnumbered, if_pos rfl] at hv
        subst hv
        cases hnil

/-- Keys that a text can be read as: integers, and strings that are texts. -/
def Key.IsText (k : Key) : Prop := (∃ i, k = .int i) ∨ ∃ text : String, k = .str text.toUTF8

/-- The value of such a key is given by a part of a path, or there is one in its place. -/
theorem isNil_partValue (hk : k.IsText) (htext : k.toValue.keyText = s) (hvalue : (contents w r k).isNil = false) :
    (partValue (w.guest.rawGet r) s).isNil = false := by
  rw [partValue, firstOf_cons]
  cases hnamed : (w.guest.rawGet r (.ofText s)).isNil with
  | false => rwa [if_neg Bool.false_ne_true]
  | true =>
    rw [if_pos rfl, firstOf_cons]
    -- nothing has the part as its name, so that an integer is read by its text, and a text is the name itself
    rcases hk with ⟨i, rfl⟩ | ⟨text, rfl⟩
    · have hindex : readIndex? s = some i := htext ▸ readIndex?_toString i
      have hread : (w.guest.rawGet r (.int i)).isNil = false := hvalue
      simp only [hindex, hread, Bool.false_eq_true, if_false]
    · have hsame : text = s := (Text.decodeLossy_toByteArray text).symm.trans htext
      subst hsame
      have hread : (w.guest.rawGet r (.ofText text)).isNil = false := hvalue
      rw [hread] at hnamed
      cases hnamed

/-- A path with one more part, where the path before it means a table without a metatable. -/
theorem readPath_part (hp : readPath (.table g) p w = (some (.table r), w'))
    (hplain : (w'.guest.table r).metatable = none) (hs : s ≠ "") (hdots : '.' ∉ s.toList) :
    readPath (.table g) (p ++ "." ++ s) w =
      if (partValue (w'.guest.rawGet r) s).isNil then (none, w') else (some (partValue (w'.guest.rawGet r) s), w') := by
  have hread : ∀ k, w'.guest.index (.table r) k = .value (w'.guest.rawGet r k) := fun k => Heap.index_plain hplain k 1999
  rw [readPath_append, hp]
  dsimp only
  rw [Text.parts_of_not_mem rfl hdots, followParts_cons hs, readPart_of_index hread]
  rfl

/-! ## A list under a name -/

/-- The globals of a script, with a list of two numbers under a name. -/
def listTables : List (List (Key × Value)) :=
  [[(.str "list".toUTF8, .table 1)], [(.int 1, .int 5), (.int 2, .int 7)]]

/-- A world with these tables. -/
def listWorld : World := packed listTables

theorem stores_listWorld (q : Ref) : (listWorld.guest.table q).Stores (contents listWorld q) := by
  refine stores_packed listTables q ?_
  match q with
  | 0 => decide
  | 1 => decide
  | _ + 2 => exact fun _ he => nomatch he

theorem entries_listWorld (q : Ref) : (listWorld.guest.table q).entries = (listTables[q]?).getD [] := by
  match q with
  | 0 => exact entries_packed listTables 0 (by decide) (by decide) (by decide)
  | 1 => exact entries_packed listTables 1 (by decide) (by decide) (by decide)
  | q + 2 => exact entries_packed listTables (q + 2) (fun _ he => nomatch he) List.nodup_nil fun _ he => nomatch he

theorem get_listWorld {q : Ref} {k : Key} {v : Value} (hentry : (k, v) ∈ (listTables[q]?).getD []) :
    contents listWorld q k = v :=
  ((stores_listWorld q).eq_of_mem (by rwa [entries_listWorld])).symm

/-- The keys of the list are the numbers one and two. -/
theorem has_listWorld (k : Key) : (contents listWorld 1 k).isNil = false ↔ k = .int 1 ∨ k = .int 2 := by
  rw [← (stores_listWorld 1).mem_keys, entries_listWorld]
  simp [listTables]

/-- Nothing in the list leads to a table. -/
theorem not_leads_listWorld (k : Key) (q : Ref) : ¬ Leads (contents listWorld) (contents listWorld 1 k) q := by
  intro h
  cases hk : (contents listWorld 1 k).isNil with
  | true =>
    rw [Value.isNil_iff.mp hk] at h
    cases h
  | false =>
    rcases (has_listWorld k).mp hk with rfl | rfl
    · rw [get_listWorld (v := .int 5) (by simp [listTables])] at h
      cases h
    · rw [get_listWorld (v := .int 7) (by simp [listTables])] at h
      cases h

theorem leads_listWorld {q : Ref} (h : Leads (contents listWorld) (.table 1) q) : q = 1 := by
  cases h with
  | self => rfl
  | entry k hentry => exact absurd hentry (not_leads_listWorld k q)

theorem distinctNames_listWorld : DistinctNames (contents listWorld) (.table 1) := by
  intro q hq k k' hk hk' htext
  obtain rfl := leads_listWorld hq
  rcases (has_listWorld k).mp hk with rfl | rfl <;> rcases (has_listWorld k').mp hk' with rfl | rfl
  · rfl
  · exact absurd htext (by decide)
  · exact absurd htext (by decide)
  · rfl

theorem renders_listWorld : Renders (contents listWorld) [] (.table 1) (.arr [.int 5, .int 7]) := by
  have hplaces : places 2 = [.int 1, .int 2] := by decide
  have hnumbered : Numbered (contents listWorld 1) 2 :=
    { pos := by decide
      small := by decide
      has := fun k => (has_listWorld k).trans (by simp [hplaces]) }
  let shown (k : Key) : Json := if k = .int 1 then .int 5 else .int 7
  have hshown (k : Key) (hk : (contents listWorld 1 k).isNil = false) :
      Renders (contents listWorld) [1] (contents listWorld 1 k) (shown k) := by
    rcases (has_listWorld k).mp hk with rfl | rfl
    · rw [get_listWorld (v := .int 5) (by simp [listTables])]
      exact .scalar (v := .int 5) fun _ => Value.noConfusion
    · rw [get_listWorld (v := .int 7) (by simp [listTables])]
      exact .scalar (v := .int 7) fun _ => Value.noConfusion
  exact .array List.not_mem_nil hnumbered hshown

theorem readPath_listWorld : readPath (.table 0) "list" listWorld = (some (.table 1), listWorld) := by
  have hname : listWorld.guest.rawGet 0 (.ofText "list") = .table 1 := get_listWorld (by simp [listTables])
  rw [readPath_of_parts (Text.parts_of_not_mem rfl (by decide)), if_neg (by decide), resolveName_eq, meaning,
    firstOf_cons, hname]
  rfl

/-! ## The main result -/

/-- **Reading a path and rendering commute.** Let a path mean an acyclic table without metatables and with entries of
different names, and let a part be no integer that is written in another way than integers are. If the JSON of the
table is within the limits, then what the path means with the part after it has as its JSON the part of that JSON under
this name. For every key that is an integer or a text, its text is a part after which the path means something. -/
theorem paths_commute_with_json (hp : readPath (.table g) p w = (some (.table r), w')) (hs : s ≠ "")
    (hdots : '.' ∉ s.toList) (hcanonical : ∀ i, readIndex? s = some i → toString i.toInt = s)
    (hw : Stores w' (contents w') (.table r)) (hacyclic : Acyclic (contents w') (.table r))
    (hnames : DistinctNames (contents w') (.table r)) :
    ∃ j, (∀ j', Renders (contents w') [] (.table r) j' ↔ j' = j) ∧
      (j.nesting ≤ 16 → j.containers ≤ 4096 → j.widest ≤ 10000 →
        toJson (.table r) w' = (j, w') ∧
        ∀ v w'', readPath (.table g) (p ++ "." ++ s) w = (some v, w'') →
          w'' = w' ∧ ∃ part, toJson v w' = (part, w') ∧ j.part? s = some part) ∧
      ∀ k : Key, k.IsText → k.toValue.keyText = s → (contents w' r k).isNil = false →
        ∃ v, readPath (.table g) (p ++ "." ++ s) w = (some v, w') := by
  obtain ⟨j, hj⟩ := hw.exists_json hnames
  have hread := readPath_part hp (hw r (.self r)).metatable hs hdots
  refine ⟨j, fun j' => ⟨fun hj' => hj'.unique hj, fun heq => heq ▸ hj⟩, fun hnesting hcontainers hwidest => ⟨?_, ?_⟩, ?_⟩
  · exact hj.toJson_eq (fun q hq => ⟨_, offers_plain (hw q hq)⟩) hnames hnesting hcontainers hwidest
  · intro v w'' hv
    rw [hread] at hv
    split at hv
    · cases hv
    · next hnil =>
      cases hv
      -- what the part gives is the value of a key, for which there is a part of the JSON
      obtain ⟨k, hk, htext⟩ := exists_key_of_partValue hcanonical rfl (Bool.eq_false_iff.mpr hnil)
      have hentry : (contents w' r k).isNil = false := hk ▸ Bool.eq_false_iff.mpr hnil
      obtain ⟨part, parts, hpart, hname, hcontainer, hmem⟩ := hj.exists_part_alone hacyclic hentry
      rw [← hk]
      refine ⟨rfl, part, ?_, htext ▸ hname⟩
      have hlower := hcontainer.nesting_lt hmem
      have hnarrower := hcontainer.widest_le hmem
      have hfewer := hcontainer.containers_le hmem
      refine hpart.toJson_eq (fun q hq => ⟨_, offers_plain (hw q (.entry k hq))⟩) (fun q hq => hnames q (.entry k hq)) ?_ ?_ ?_
      · exact Nat.le_trans (Nat.le_of_lt hlower) hnesting
      · exact Nat.le_trans hfewer hcontainers
      · exact Nat.le_trans hnarrower hwidest
  · intro k hk htext hvalue
    rw [hread, isNil_partValue hk htext hvalue]
    exact ⟨_, rfl⟩

/-- The second element of a list under a name. -/
theorem paths_commute_with_json_list : ∃ v,
    readPath (.table 0) "list.2" listWorld = (some v, listWorld) ∧ toJson v listWorld = (.int 7, listWorld) ∧
      toJson (.table 1) listWorld = (.arr [.int 5, .int 7], listWorld) := by
  have hcanonical : ∀ i, readIndex? "2" = some i → toString i.toInt = "2" := by
    intro i hi
    have htwo : readIndex? "2" = some 2 := readIndex?_toString 2
    cases htwo.symm.trans hi
    rfl
  have hacyclic : Acyclic (contents listWorld) (.table 1) := fun q hq k => by
    rw [leads_listWorld hq]
    exact not_leads_listWorld k 1
  obtain ⟨j, hj, hlimits, hresolves⟩ := paths_commute_with_json readPath_listWorld (s := "2") (by decide) (by decide)
    hcanonical (fun q _ => stores_listWorld q) hacyclic distinctNames_listWorld
  obtain rfl := (hj _).mp renders_listWorld
  obtain ⟨hjson, hpart⟩ := hlimits (by decide) (by decide) (by decide)
  obtain ⟨v, hv⟩ := hresolves (.int 2) (.inl ⟨2, rfl⟩) rfl ((has_listWorld _).mpr (.inr rfl))
  obtain ⟨-, part, hshown, hname⟩ := hpart v _ hv
  have hseven : part = .int 7 := (Option.some.inj hname).symm
  exact ⟨v, hv, hseven ▸ hshown, hjson⟩

end Guest
end ScriptHost
