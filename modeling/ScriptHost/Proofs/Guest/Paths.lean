import ScriptHost.Proofs.Guest.Conversion
import ScriptHost.Proofs.Guest.Names
import ScriptHost.Proofs.Guest.Reproduction
import ScriptHost.Proofs.Text.Split

/-!
# Paths into scripts

A path is read part by part. Its first part is a name in the script; every later part is a field of the table that
the parts before it lead to.

* `Fetches`, `Walks`: a part that gives a value in a table, and parts that lead from a value to another one.
* `followParts_append`, `readPath_append`: a path is read on from what its front part means.
* `followParts_shows`: what parts lead to below a proxy, and below the table that it shows.
* `path_is_walked`: the main result.
-/

namespace ScriptHost.Guest

/-! ## The rule -/

/-- A part of a path gives a value in a table: that of the field of its name, or of the field of the number that it
writes if there is none of its name. Reading a field may call functions of the guest. -/
inductive Fetches (w : World) (r : Ref) (part : String) (v : Value) : World → Prop where
  | named {w' : World} (hread : readField (.table r) (.ofText part) w = (.ok v, w')) (hv : v.isNil = false) :
      Fetches w r part v w'
  | numbered {i : Int64} {w₁ w' : World} (hmissing : readField (.table r) (.ofText part) w = (.ok .nil, w₁))
      (hindex : readIndex? part = some i) (hread : readField (.table r) (.int i) w₁ = (.ok v, w'))
      (hv : v.isNil = false) : Fetches w r part v w'

/-- Parts of a path lead from a value to another one: each is a part that gives a value in a table. -/
inductive Walks : World → Value → List String → Value → World → Prop where
  | here (w : World) (v : Value) : Walks w v [] v w
  | onward {w w₁ w' : World} {r : Ref} {part : String} {rest : List String} {next v : Value} (hpart : part ≠ "")
      (hfetch : Fetches w r part next w₁) (hrest : Walks w₁ next rest v w') :
      Walks w (.table r) (part :: rest) v w'

/-- A path leads to a value: its first part is a name that means something, and the others lead on from there. -/
structure LeadsTo (w : World) (g : Ref) (path : String) (v : Value) (w' : World) : Prop where
  intro ::
  walk : ∃ first rest, Text.parts "." path = first :: rest ∧ first ≠ "" ∧
    (meaning w g (.ofText first)).isNil = false ∧ Walks w (meaning w g (.ofText first)) rest v w'

variable {w w' w₁ : World} {g r s : Ref} {v v' k x : Value} {part name path p q : String} {rest xs ys : List String}
  {h h' : Heap} {stand : Ref → Ref}

/-! ## Parts -/

theorem readPart_eq (t : Value) (part : String) (w : World) :
    readPart t part w =
      match readField t (.ofText part) w with
      | (.error e, w') => (.error e, w')
      | (.ok v, w') =>
        match v, readIndex? part with
        | .nil, some i => readField t (.int i) w'
        | v, _ => (.ok v, w') := by
  rw [readPart, worldM_bind]
  rcases readField t (.ofText part) w with ⟨answer, w'⟩
  cases answer with
  | error e => rfl
  | ok v => cases v <;> cases readIndex? part <;> rfl

theorem Fetches.isNil (hfetch : Fetches w r part v w') : v.isNil = false := by
  cases hfetch <;> assumption

/-- A part gives what it is read as, if that is not nil. -/
theorem readPart_eq_ok (hv : v.isNil = false) :
    readPart (.table r) part w = (.ok v, w') ↔ Fetches w r part v w' := by
  rw [readPart_eq]
  constructor
  · intro hpart
    rcases hread : readField (.table r) (.ofText part) w with ⟨answer, w₁⟩
    rw [hread] at hpart
    cases answer with
    | error e => cases hpart
    | ok x =>
      cases hx : x.isNil with
      | false =>
        have heq : (Except.ok x, w₁) = ((.ok v : Except GuestError Value), w') := by
          cases x <;> first | exact hpart | cases hx
        cases heq
        exact .named hread hv
      | true =>
        obtain rfl := Value.isNil_iff.mp hx
        -- the name gives nothing, so the part is tried as a number
        cases hindex : readIndex? part with
        | none =>
          rw [hindex] at hpart
          cases hpart
          cases hv
        | some i =>
          rw [hindex] at hpart
          exact .numbered hread hindex hpart hv
  · intro hfetch
    cases hfetch with
    | named hread =>
      rw [hread]
      cases v <;> first | rfl | cases hv
    | numbered hmissing hindex hread =>
      rw [hmissing, hindex]
      exact hread

/-! ## Parts one after the other -/

theorem followParts_cons (hpart : part ≠ "") :
    followParts (.table r) (part :: rest) w =
      match readPart (.table r) part w with
      | (.error _, w') => (none, w')
      | (.ok v, w') => if v.isNil then (none, w') else followParts v rest w' := by
  have hempty : part.isEmpty = false := by simpa using hpart
  rw [followParts]
  · rw [worldM_bind]
    rcases readPart (.table r) part w with ⟨answer, w'⟩
    cases answer with
    | error e => rfl
    | ok v => cases v <;> rfl
  · exact hempty

/-- What is no table has no parts, and no part is empty. -/
theorem followParts_stop (hstop : part = "" ∨ ∀ r, v ≠ .table r) : followParts v (part :: rest) w = (none, w) := by
  rcases hstop with rfl | hv
  · cases v <;> rfl
  · rw [followParts]
    · rfl
    · exact fun r _ heq => hv r heq

/-- **Parts lead to a value** if each of them gives one. -/
theorem followParts_eq_some : followParts v xs w = (some v', w') ↔ Walks w v xs v' w' := by
  induction xs generalizing v w with
  | nil =>
    constructor
    · intro heq
      cases heq
      exact .here _ _
    · intro hwalk
      cases hwalk
      rfl
  | cons part rest ih =>
    constructor
    · intro heq
      -- an empty part leads nowhere, nor does any from what is no table
      by_cases hstop : part = "" ∨ ∀ r, v ≠ .table r
      · rw [followParts_stop hstop] at heq
        cases heq
      · push Not at hstop
        obtain ⟨hpart, r, rfl⟩ := hstop
        rw [followParts_cons hpart] at heq
        rcases hread : readPart (.table r) part w with ⟨answer, w₁⟩
        rw [hread] at heq
        cases answer with
        | error e => cases heq
        | ok next =>
          cases hnext : next.isNil with
          | true =>
            simp only [hnext, if_true] at heq
            cases heq
          | false =>
            simp only [hnext, Bool.false_eq_true, if_false] at heq
            exact .onward hpart ((readPart_eq_ok hnext).mp hread) (ih.mp heq)
    · intro hwalk
      cases hwalk with
      | onward hpart hfetch hrest =>
        have hnext := hfetch.isNil
        rw [followParts_cons hpart, (readPart_eq_ok hnext).mpr hfetch]
        simp only [hnext, Bool.false_eq_true, if_false]
        exact ih.mpr hrest

/-- Parts are followed on from what the parts before them lead to. -/
theorem followParts_append (v : Value) (xs ys : List String) (w : World) :
    followParts v (xs ++ ys) w =
      match followParts v xs w with
      | (some next, w') => followParts next ys w'
      | (none, w') => (none, w') := by
  induction xs generalizing v w with
  | nil => rfl
  | cons part rest ih =>
    rw [List.cons_append]
    by_cases hstop : part = "" ∨ ∀ r, v ≠ .table r
    · rw [followParts_stop hstop, followParts_stop hstop]
    · push Not at hstop
      obtain ⟨hpart, r, rfl⟩ := hstop
      rw [followParts_cons hpart, followParts_cons hpart]
      rcases readPart (.table r) part w with ⟨answer, w'⟩
      cases answer with
      | error e => rfl
      | ok next =>
        dsimp only
        split
        · rfl
        · exact ih next w'

theorem followParts_of_empty (hmem : "" ∈ xs) (v : Value) (w : World) : (followParts v xs w).1 = none := by
  obtain ⟨front, back, rfl⟩ := List.append_of_mem hmem
  rw [followParts_append]
  rcases followParts v front w with ⟨found, w'⟩
  cases found with
  | none => rfl
  | some next =>
    have hstop : followParts next ("" :: back) w' = (none, w') := followParts_stop (.inl rfl)
    exact congrArg Prod.fst hstop

/-! ## Whole paths -/

theorem readPath_of_parts {first : String} (hparts : Text.parts "." path = first :: rest) :
    readPath (.table g) path w =
      if first = "" then (none, w)
      else match resolveName (.table g) first w with
        | (v, w') => if v.isNil then (none, w') else followParts v rest w' := by
  rw [readPath, hparts]
  by_cases hfirst : first = ""
  · subst hfirst
    rfl
  · have hempty : first.isEmpty = false := by simpa using hfirst
    simp only [hempty, Bool.false_eq_true, if_false, if_neg hfirst, worldM_bind]
    rcases resolveName (.table g) first w with ⟨v, w'⟩
    cases v <;> rfl

theorem exists_parts (path : String) : ∃ first rest, Text.parts "." path = first :: rest :=
  List.exists_cons_of_ne_nil (Text.parts_ne_nil rfl path)

/-- **A path leads to a value** by the rule. -/
theorem readPath_eq_some :
    readPath (.table g) path w = (some v, w') ↔ LeadsTo w g path v w' := by
  obtain ⟨first, rest, hparts⟩ := exists_parts path
  rw [readPath_of_parts hparts, resolveName_eq]
  constructor
  · intro heq
    split at heq
    · cases heq
    · next hfirst =>
      dsimp only at heq
      split at heq
      · cases heq
      · next hnil =>
        exact ⟨first, rest, hparts, hfirst, Bool.eq_false_iff.mpr hnil, followParts_eq_some.mp heq⟩
  · rintro ⟨first', rest', hparts', hfirst, hnil, hwalk⟩
    obtain ⟨rfl, rfl⟩ := List.cons.inj (hparts.symm.trans hparts')
    rw [if_neg hfirst]
    dsimp only
    rw [hnil, if_neg Bool.false_ne_true]
    exact followParts_eq_some.mpr hwalk

theorem readPath_of_empty (hmem : "" ∈ Text.parts "." path) : (readPath (.table g) path w).1 = none := by
  obtain ⟨first, rest, hparts⟩ := exists_parts path
  rw [hparts, List.mem_cons] at hmem
  rw [readPath_of_parts hparts]
  split
  · rfl
  · next hfirst =>
    have hrest := hmem.resolve_left fun heq => hfirst heq.symm
    rcases resolveName (.table g) first w with ⟨v, w'⟩
    dsimp only
    split
    · rfl
    · exact followParts_of_empty hrest v w'

/-- **A path is read on** from what its front means. -/
theorem readPath_append (g : Ref) (p q : String) (w : World) :
    readPath (.table g) (p ++ "." ++ q) w =
      match readPath (.table g) p w with
      | (some v, w') => followParts v (Text.parts "." q) w'
      | (none, w') => (none, w') := by
  obtain ⟨first, rest, hparts⟩ := exists_parts p
  have happend : Text.parts "." (p ++ "." ++ q) = first :: (rest ++ Text.parts "." q) := by
    rw [Text.parts_append rfl, hparts, List.cons_append]
  rw [readPath_of_parts hparts, readPath_of_parts happend]
  split
  · rfl
  · rcases resolveName (.table g) first w with ⟨v, w'⟩
    dsimp only
    split
    · rfl
    · exact followParts_append v rest _ w'

/-- Only a table has something below it. -/
theorem table_of_readPath_append (hread : readPath (.table g) (p ++ "." ++ q) w = (some v, w')) :
    ∃ r w₁, readPath (.table g) p w = (some (.table r), w₁) := by
  rw [readPath_append] at hread
  rcases hfront : readPath (.table g) p w with ⟨found, w₁⟩
  rw [hfront] at hread
  obtain ⟨part, rest, hparts⟩ := exists_parts q
  cases found with
  | none => cases hread
  | some x =>
    dsimp only at hread
    rw [hparts] at hread
    by_cases hx : ∀ r, x ≠ .table r
    · rw [followParts_stop (.inr hx)] at hread
      cases hread
    · push Not at hx
      obtain ⟨r, rfl⟩ := hx
      exact ⟨r, w₁, rfl⟩

/-! ## Tables that decide by themselves -/

/-- What a part of a path gives in a table whose fields are read as `read` says. -/
def partValue (read : Value → Value) (part : String) : Value :=
  firstOf [read (.ofText part), match readIndex? part with
    | some i => read (.int i)
    | none => .nil]

theorem readField_of_index (hindex : w.guest.index v k = .value x) : readField v k w = (.ok x, w) := by
  rw [readField, runNative, getField, Looks.bind_eq]
  simp only [getHeap, hindex]
  rfl

theorem readPart_of_index {read : Value → Value} (hindex : ∀ k, w.guest.index v k = .value (read k)) (part : String) :
    readPart v part w = (.ok (partValue read part), w) := by
  rw [readPart_eq, readField_of_index (hindex _), partValue, firstOf_cons]
  dsimp only
  cases hnamed : (read (.ofText part)).isNil with
  | true =>
    rw [Value.isNil_iff.mp hnamed]
    cases readIndex? part with
    | none => rfl
    | some i =>
      dsimp only
      rw [readField_of_index (hindex _), firstOf_cons]
      cases hnumbered : (read (.int i)).isNil with
      | true =>
        rw [Value.isNil_iff.mp hnumbered]
        rfl
      | false => rfl
  | false =>
    cases hvalue : read (.ofText part) with
    | nil =>
      rw [hvalue] at hnamed
      cases hnamed
    | _ => rfl

theorem firstOf_mem (vs : List Value) : (firstOf vs).isNil = true ∨ firstOf vs ∈ vs := by
  induction vs with
  | nil => exact .inl rfl
  | cons v vs ih =>
    rw [firstOf_cons]
    split
    · exact ih.imp_right (List.mem_cons_of_mem v)
    · exact .inr List.mem_cons_self

theorem firstOf_rename (stand : Ref → Ref) (vs : List Value) :
    firstOf (vs.map (Value.rename stand)) = (firstOf vs).rename stand := by
  induction vs with
  | nil => rfl
  | cons v vs ih =>
    rw [List.map_cons, firstOf_cons, firstOf_cons, Value.isNil_rename, ih]
    split <;> rfl

theorem partValue_rename (stand : Ref → Ref) (read : Value → Value) (part : String) :
    partValue (fun k => (read k).rename stand) part = (partValue read part).rename stand := by
  rw [partValue, partValue, ← firstOf_rename]
  cases readIndex? part <;> rfl

/-- What a part gives is what one of the fields is read as. -/
theorem exists_of_partValue {read : Value → Value} (hx : partValue read part = x) (hnil : x.isNil = false) :
    ∃ k, read k = x := by
  subst hx
  rcases firstOf_mem [read (.ofText part), match readIndex? part with
    | some i => read (.int i)
    | none => .nil] with htrue | hmem
  · rw [← partValue, hnil] at htrue
    cases htrue
  · rw [← partValue, List.mem_cons, List.mem_singleton] at hmem
    rcases hmem with hnamed | hnumbered
    · exact ⟨_, hnamed.symm⟩
    · cases hindex : readIndex? part with
      | none =>
        rw [hindex] at hnumbered
        rw [hnumbered] at hnil
        cases hnil
      | some i =>
        rw [hindex] at hnumbered
        exact ⟨_, hnumbered.symm⟩

theorem Heap.nests_of_rawGet (hget : h.rawGet r k = .table s) : h.Nests r s := by
  unfold Heap.rawGet at hget
  cases hkey : k.toKey? with
  | none =>
    rw [hkey] at hget
    cases hget
  | some key =>
    rw [hkey] at hget
    exact ⟨key, hget⟩

/-- Parts lead to the same below proxies as below the tables of `S` that they show, with proxies in place of tables.
Nothing changes on the way. -/
theorem followParts_shows {source : World} {S : Ref → Prop} (hclosed : ∀ q q', S q → source.guest.Nests q q' → S q')
    (hplain : ∀ q, S q → (source.guest.table q).metatable = none)
    (hshows : ∀ q, S q → source.guest.Shows w.guest stand q) (hv : ∀ q, v = .table q → S q) (xs : List String) :
    ∃ found, followParts v xs source = (found, source) ∧
      followParts (v.rename stand) xs w = (found.map (Value.rename stand), w) := by
  -- the induction is on the parts; each step stays within the tables of `S`, or ends both walks
  induction xs generalizing v with
  | nil => exact ⟨some v, rfl, rfl⟩
  | cons part rest ih =>
    by_cases hstop : part = "" ∨ ∀ r, v ≠ .table r
    · have hstop' : part = "" ∨ ∀ r, v.rename stand ≠ .table r := by
        refine hstop.imp_right fun hnot r heq => ?_
        cases v with
        | table q => exact hnot q rfl
        | _ => cases heq
      exact ⟨none, followParts_stop hstop, followParts_stop hstop'⟩
    push Not at hstop
    obtain ⟨hpart, q, rfl⟩ := hstop
    have hq := hv q rfl
    have hread : ∀ k, source.guest.index (.table q) k = .value (source.guest.rawGet q k) := fun k =>
      Heap.index_plain (hplain q hq) k 1999
    rw [Value.rename, followParts_cons hpart, followParts_cons hpart, readPart_of_index hread,
      readPart_of_index (hshows q hq).index, partValue_rename]
    dsimp only
    rw [Value.isNil_rename]
    cases hnil : (partValue (source.guest.rawGet q) part).isNil with
    | true => exact ⟨none, rfl, rfl⟩
    | false =>
      apply ih
      intro q' hq'
      obtain ⟨k, hk⟩ := exists_of_partValue rfl hnil
      exact hclosed q q' hq (Heap.nests_of_rawGet (hk.trans hq'))

/-! ## Below a binding of the host -/

section

variable {heap : Heap} {bindings : List Binding}

/-- Values of a closed heap lead to tables that are there. -/
theorem Heap.Closed.lt_of_reaches (hclosed : heap.Closed) (hs : s < heap.tables.size) (hq : heap.Reaches s r) :
    r < heap.tables.size := by
  induction hq with
  | refl => exact hs
  | @tail p q _ hnests _ =>
    obtain ⟨k, hget⟩ := hnests
    have hwithin := (hclosed.within p).get k
    rw [hget] at hwithin
    exact hwithin q rfl

/-- What can be reached from a table that was there before is the same in the heap with what is assembled. -/
theorem Heap.Closed.reaches_assembleShared (hclosed : heap.Closed) (hs : s < heap.tables.size)
    (hq : heap.Reaches s r) : (heap.assembleShared bindings).2.Reaches s r := by
  induction hq with
  | refl => exact .refl
  | tail hpath hnests ih =>
    obtain ⟨k, hget⟩ := hnests
    refine ih.tail ⟨k, ?_⟩
    rw [(Heap.table_assembleShared (hclosed.lt_of_reaches hs hpath)).1]
    exact hget

/-- The last binding of a name is what the name leads to. -/
theorem Heap.rawGet_assembleShared_of_lookup (heap : Heap) (hbound : bindings.reverse.lookup name = some v) :
    (heap.assembleShared bindings).2.rawGet (heap.assembleShared bindings).1 (.ofText name) = v := by
  unfold Heap.assembleShared
  extract_lets clock namespaces
  show (Heap.table _ _).getText name = v
  rw [Heap.table_allocTable_self, Table.getText_namedTable, List.reverse_append, List.lookup_append, hbound]
  rfl

/-- The proxies of the environment show what was assembled, as long as they are what they were made to be. -/
theorem Heap.Closed.buildShared_shows (hclosed : heap.Closed) (hkeyed : heap.Keyed)
    (hbindings : ∀ b ∈ bindings, b.2.Within (· < heap.tables.size)) :
    ∃ stand, stand (heap.assembleShared bindings).1 = (heap.buildShared bindings).shared ∧
      ∀ h', (heap.assembleShared bindings).2.SameMade (heap.buildShared bindings) h' →
        ∀ s, (heap.assembleShared bindings).2.Reaches (heap.assembleShared bindings).1 s →
          (heap.assembleShared bindings).2.Shows h' stand s := by
  obtain ⟨hassembled, hlt⟩ := hclosed.assembleShared hbindings
  have hkeys : (heap.assembleShared bindings).2.Keyed := Heap.forall_assembleShared Table.keyed_namedTable hkeyed
  obtain ⟨copied, frozen, stand, -, -, hcopyEq, hfreezeEq, hmeta, hbase, -, hshows⟩ :=
    hassembled.freezeCopy_shows hkeys hlt
  have hbuilt : heap.buildShared bindings = Heap.lockStrings { frozen.2.heap with shared := frozen.1 } :=
    Heap.buildShared_eq hcopyEq hfreezeEq
  have hlocked : (heap.assembleShared bindings).2.SameMade { frozen.2.heap with shared := frozen.1 }
      (heap.buildShared bindings) :=
    hbuilt ▸ Heap.sameMade_lockStrings _ fun q hq => hassembled.stringMeta q (hmeta ▸ hq)
  refine ⟨stand, ?_, fun h' hsame => hshows h' fun q hq => ?_⟩
  · rw [hbuilt, Vault.Built.shared_lockStrings]
    exact hbase
  · have hq' : (heap.assembleShared bindings).2.Between (heap.buildShared bindings) q := by
      rw [hbuilt]
      exact ⟨hq.1, (Heap.size_lockStrings _).symm ▸ hq.2⟩
    exact (hsame q hq').trans (hlocked q hq)

end

/-- A name means in a sandbox what the host has bound to it: the binding is made of tables without metatables, neither a
global nor a shared object has the name, and what was frozen is as it was made. -/
structure Bound (heap : Heap) (bindings : List Binding) (w : World) (g : Ref) (name : String) (v : Value) : Prop where
  closed : heap.Closed
  keyed : heap.Keyed
  within : ∀ b ∈ bindings, b.2.Within (· < heap.tables.size)
  /-- The last binding of a name counts. -/
  value : bindings.reverse.lookup name = some v
  plain : ∀ s, v = .table s → ∀ q, heap.Reaches s q → (heap.table q).metatable = none
  part : name ≠ "" ∧ '.' ∉ name.toList
  own : (w.guest.rawGet g (.ofText name)).isNil = true
  object : (sharedObject w (.ofText name)).isNil = true
  root : w.guest.shared = (heap.buildShared bindings).shared
  frozen : (heap.assembleShared bindings).2.SameMade (heap.buildShared bindings) w.guest

namespace Bound

variable {heap : Heap} {bindings : List Binding}

/-- The name means the binding, with proxies in place of tables, and these show the tables. -/
theorem exists_stand (hbound : Bound heap bindings w g name v) :
    ∃ stand, meaning w g (.ofText name) = v.rename stand ∧
      ∀ s, v = .table s → ∀ q, heap.Reaches s q → heap.Shows w.guest stand q := by
  obtain ⟨stand, hroot, hshows⟩ := hbound.closed.buildShared_shows hbound.keyed hbound.within
  have hvalue := Heap.rawGet_assembleShared_of_lookup heap hbound.value
  refine ⟨stand, ?_, fun s hv q hq => ?_⟩
  · have hindex : w.guest.index (.table w.guest.shared) (.ofText name) = .value (v.rename stand) := by
      rw [hbound.root, ← hroot, (hshows _ hbound.frozen _ .refl).index, hvalue]
    rw [meaning, firstOf_cons, if_pos hbound.own, firstOf_cons, if_pos hbound.object, environmentValue, hindex,
      firstOf_cons]
    cases hnil : (v.rename stand).isNil with
    | true => exact (Value.isNil_iff.mp hnil).symm
    | false => rfl
  · subst hv
    have hs : s < heap.tables.size := by
      obtain ⟨before, after, hsplit, -⟩ := List.lookup_eq_some_iff.mp hbound.value
      have hmem : (name, Value.table s) ∈ bindings := by
        rw [← List.mem_reverse, hsplit]
        simp
      exact hbound.within _ hmem s rfl
    have hreaches : (heap.assembleShared bindings).2.Reaches (heap.assembleShared bindings).1 q :=
      .trans (.single (Heap.nests_of_rawGet hvalue)) (hbound.closed.reaches_assembleShared hs hq)
    obtain ⟨m, b, hguards, hreproduced⟩ := hshows _ hbound.frozen q hreaches
    exact ⟨m, b, hguards, (Heap.table_assembleShared (hbound.closed.lt_of_reaches hs hq)).1 ▸ hreproduced⟩

/-- The name alone is a path to the binding. -/
theorem readPath_eq (hbound : Bound heap bindings w g name v) :
    readPath (.table g) name w =
      if v.isNil then (none, w) else (some (meaning w g (.ofText name)), w) := by
  obtain ⟨stand, hmeaning, -⟩ := hbound.exists_stand
  rw [readPath_of_parts (Text.parts_of_not_mem rfl hbound.part.2), if_neg hbound.part.1, resolveName_eq]
  dsimp only
  rw [hmeaning, Value.isNil_rename]
  rfl

/-- Below the name a path leads to what the rest of it leads to in the tables that were bound. -/
theorem readPath_append (hbound : Bound heap bindings w g name v) {source : World}
    (hsource : source.guest = heap) (q : String) :
    ∃ stand found, followParts v (Text.parts "." q) source = (found, source) ∧
      readPath (.table g) (name ++ "." ++ q) w = (found.map (Value.rename stand), w) := by
  subst hsource
  obtain ⟨stand, hmeaning, hshows⟩ := hbound.exists_stand
  let bound (q : Ref) : Prop := ∃ s, v = .table s ∧ source.guest.Reaches s q
  have hclosed : ∀ q q', bound q → source.guest.Nests q q' → bound q' := by
    rintro q q' ⟨s, hv, hq⟩ hnests
    exact ⟨s, hv, hq.tail hnests⟩
  have hplain : ∀ q, bound q → (source.guest.table q).metatable = none := by
    rintro q ⟨s, hv, hq⟩
    exact hbound.plain s hv q hq
  have hshown : ∀ q, bound q → source.guest.Shows w.guest stand q := by
    rintro q ⟨s, hv, hq⟩
    exact hshows s hv q hq
  obtain ⟨found, hfound, hread⟩ := followParts_shows hclosed hplain hshown (fun q hq => ⟨q, hq, .refl⟩) (Text.parts "." q)
  refine ⟨stand, found, hfound, ?_⟩
  rw [Guest.readPath_append, hbound.readPath_eq, hmeaning]
  cases hnil : v.isNil with
  | false => exact hread
  | true =>
    -- a binding that is nil has no parts
    obtain rfl := Value.isNil_iff.mp hnil
    obtain ⟨part, rest, hparts⟩ := exists_parts q
    rw [hparts, followParts_stop (.inr fun _ => Value.noConfusion)] at hfound
    cases hfound
    rfl

end Bound

/-! ## A host without bindings of its own -/

/-- The interpreter of a host that binds only what it is. -/
def plainHeap : Heap := (defaultBindings Heap.start).2

/-- The host's only binding. -/
def plainBindings : List Binding := (defaultBindings Heap.start).1

/-- The host when it has made one more table, which is empty. -/
def plainHost : World :=
  { newHost plainHeap plainBindings with guest := ((plainHeap.buildShared plainBindings).allocTable {}).2 }

theorem forall_plainHeap {P : Table → Prop} (hnamed : ∀ fields, P (namedTable fields))
    (hset : ∀ t name v, P t → P (Table.setText t name v)) : ∀ r, P (plainHeap.table r) :=
  Heap.forall_allocTable (Heap.forall_start hnamed hset) (hnamed _)

theorem rawGet_plainHeap : plainHeap.rawGet Heap.start.tables.size (.ofText "name") = .ofText "luna" := by
  have hself : plainHeap.table Heap.start.tables.size = _ := Heap.table_allocTable_self
  show (plainHeap.table Heap.start.tables.size).getText "name" = _
  rw [hself, Table.getText_namedTable]
  rfl

/-- Nothing hides the binding in the empty table. -/
theorem bound_plainHost : Bound plainHeap plainBindings plainHost (plainHeap.buildShared plainBindings).tables.size
    "host" (.table Heap.start.tables.size) := by
  have hkeyed : plainHeap.Keyed := fun r =>
    (forall_plainHeap (P := fun t => t.Indexed ∧ t.Keyed)
      (fun fields => ⟨Table.indexed_namedTable fields, Table.keyed_namedTable fields⟩)
      (fun t name v ht => ⟨ht.1.setText name v, ht.2.setText ht.1 name v⟩) r).2
  have hclosed : plainHeap.Closed := by
    refine Heap.closed_start.allocNamed fun f hf => ?_
    simp only [List.mem_cons, List.not_mem_nil, or_false] at hf
    rcases hf with rfl | rfl | rfl <;> exact Value.within_of_none rfl
  refine ⟨hclosed, hkeyed, ?_, rfl, ?_, by decide, ?_, rfl, rfl, ?_⟩
  · intro b hb
    cases List.mem_singleton.mp hb
    refine Value.within_table.mpr ?_
    exact Nat.lt_of_lt_of_eq (Nat.lt_succ_self _) Heap.size_allocTable.symm
  · intro s _ q _
    exact forall_plainHeap (P := fun t => t.metatable = none) Table.metatable_namedTable
      (fun t name v ht => Table.metatable_set.trans ht) q
  · have hempty : plainHost.guest.table (plainHeap.buildShared plainBindings).tables.size = {} :=
      Heap.table_allocTable_self
    show ((plainHost.guest.table _).get _).isNil = true
    rw [hempty, Table.get_empty]
    rfl
  · rintro q ⟨-, hq⟩
    exact Heap.table_allocTable.trans (if_neg (Nat.ne_of_lt hq))

/-! ## The main result -/

/-- **A path is walked.** It means nothing if one of its parts is empty, and else what its parts lead to by the rule:
the name first, then one field after the other, by name or else by number; anything that does not resolve, errors
included, is none. So it is read on at every dot from what stands before the dot, which is a table if anything is
below it; and below a binding of the host it means what the rest of it means in the tables that were bound, with
proxies in place of tables. -/
theorem path_is_walked (g : Ref) (path : String) (w : World) :
    ("" ∈ Text.parts "." path → (readPath (.table g) path w).1 = none) ∧
    (∀ v w', readPath (.table g) path w = (some v, w') ↔ LeadsTo w g path v w') ∧
    ∀ p q, path = p ++ "." ++ q →
      (readPath (.table g) path w = match readPath (.table g) p w with
        | (some v, w') => followParts v (Text.parts "." q) w'
        | (none, w') => (none, w')) ∧
      (∀ v w', readPath (.table g) path w = (some v, w') →
        ∃ r w₁, readPath (.table g) p w = (some (.table r), w₁)) ∧
      ∀ heap bindings v source, Bound heap bindings w g p v → source.guest = heap →
        ∃ found stand, followParts v (Text.parts "." q) source = (found, source) ∧
          readPath (.table g) path w = (found.map (Value.rename stand), w) ∧
          ∀ x, (∀ r, x ≠ .table r) → ((readPath (.table g) path w).1 = some x ↔ found = some x) := by
  refine ⟨readPath_of_empty, fun v w' => readPath_eq_some, fun p q hpath => ?_⟩
  subst hpath
  refine ⟨readPath_append g p q w, fun v w' => table_of_readPath_append, fun heap bindings v source hbound hsource => ?_⟩
  obtain ⟨stand, found, hsourced, hread⟩ := hbound.readPath_append hsource q
  refine ⟨found, stand, hsourced, hread, fun x hx => ?_⟩
  rw [hread]
  -- only tables are renamed
  cases found with
  | none => simp
  | some y =>
    cases y with
    | table r =>
      have hne := hx (stand r)
      have hne' := hx r
      simp [Value.rename, hne.symm, hne'.symm]
    | _ => simp [Value.rename]

/-- A script of such a host finds the host's name, and nothing between two dots. -/
theorem path_is_walked_host :
    ∃ g v, Bound plainHeap plainBindings plainHost g "host" v ∧
      (readPath (.table g) "host.name" plainHost).1 = some (.ofText "luna") ∧
      (readPath (.table g) "host..name" plainHost).1 = none := by
  refine ⟨_, _, bound_plainHost, ?_, ?_⟩
  · obtain ⟨-, -, hdots⟩ := path_is_walked (plainHeap.buildShared plainBindings).tables.size "host.name" plainHost
    obtain ⟨-, -, hfrozen⟩ := hdots "host" "name" rfl
    obtain ⟨found, stand, hsource, -, hsame⟩ := hfrozen _ _ _ { guest := plainHeap } bound_plainHost rfl
    refine (hsame _ fun _ => Value.noConfusion).mpr ?_
    have hread : ∀ k, plainHeap.index (.table Heap.start.tables.size) k =
        .value (plainHeap.rawGet Heap.start.tables.size k) := fun k =>
      Heap.index_plain (bound_plainHost.plain _ rfl _ .refl) k 1999
    rw [Text.parts_of_not_mem (s := "name") rfl (by decide), followParts_cons (by decide),
      readPart_of_index hread, partValue, rawGet_plainHeap] at hsource
    exact (congrArg Prod.fst hsource).symm
  · have hempty : "" ∈ Text.parts "." ("host" ++ "." ++ ("" ++ "." ++ "name")) := by
      rw [Text.parts_append rfl, Text.parts_append rfl, Text.parts_of_not_mem (s := "") rfl (by simp)]
      simp
    exact (path_is_walked _ "host..name" plainHost).1 hempty

end ScriptHost.Guest
