import ScriptHost.Guest.Library
import ScriptHost.Proofs.Guest.Arguments
import ScriptHost.Proofs.Guest.Rendering
import ScriptHost.Proofs.Guest.Stored
import ScriptHost.Proofs.Text.Cuts

/-!
# Splitting texts for guest code

The helper that splits a text hands its parts to guest code as the elements of a new table.

* `textTable_eq_arrange`, `Table.lists_textTable`: the table of some texts.
* `split_apply`: what the helper returns, and what it changes.
* `split_loses_nothing`: the parts are those into which the separator divides the text.
-/

namespace ScriptHost.Guest

variable {texts : List String}

/-! ## The table of some texts -/

/-- Some texts under the numbers from one on. -/
def numberedTexts (texts : List String) : List (Key × Value) := (places texts.length).zip (texts.map .ofText)

/-- A table without a metatable that has some texts under the numbers from one on and nothing else. Its length is their
number. -/
structure Table.Lists (t : Table) (texts : List String) : Prop where
  metatable : t.metatable = none
  entries : t.entries = numberedTexts texts
  length : Int64.ofNat t.border = Int64.ofNat texts.length

theorem places_succ (n : ℕ) : places (n + 1) = places n ++ [.int (Int64.ofNat (n + 1))] := by
  rw [places, places, List.range_succ, List.map_append]
  rfl

theorem numberedTexts_append (texts : List String) (text : String) :
    numberedTexts (texts ++ [text]) = numberedTexts texts ++ [(.int (Int64.ofNat (texts.length + 1)), .ofText text)] := by
  rw [numberedTexts, List.length_append, List.length_singleton, places_succ, List.map_append, List.zip_append (by simp)]
  rfl

theorem keys_numberedTexts (texts : List String) : (numberedTexts texts).map Prod.fst = places texts.length :=
  List.map_fst_zip (by simp)

theorem mem_numberedTexts {e : Key × Value} (he : e ∈ numberedTexts texts) :
    (∃ i, e.1 = .int i) ∧ e.2.isNil = false := by
  obtain ⟨hkey, hvalue⟩ := List.of_mem_zip he
  obtain ⟨i, -, heq⟩ := List.mem_map.mp hkey
  obtain ⟨text, -, htext⟩ := List.mem_map.mp hvalue
  exact ⟨⟨_, heq.symm⟩, htext ▸ rfl⟩

/-- The texts are stored one after the other, and their numbers are counted. -/
theorem textTable_eq_arrange (texts : List String) : textTable texts = Table.arrange 0 (numberedTexts texts) := by
  have hcount : texts.foldl (fun (acc : Table × Int64) s => (acc.1.set (.int acc.2) (.ofText s), acc.2 + 1))
      (({} : Table), (1 : Int64)) = (Table.arrange 0 (numberedTexts texts), Int64.ofNat (texts.length + 1)) := by
    induction texts using List.reverseRecOn with
    | nil => rfl
    | append_singleton texts text ih =>
      rw [List.foldl_append, ih, numberedTexts_append, Table.arrange_append, List.length_append, List.length_singleton,
        Int64.ofNat_add (texts.length + 1)]
      rfl
  rw [textTable, hcount]

/-- The table of some texts, as long as there are numbers for them. -/
theorem Table.lists_textTable (hroom : texts.length ≤ Table.maxKey) : (textTable texts).Lists texts := by
  have hhint : 0 < Table.maxKey := by decide
  have hkeyed : ∀ e ∈ numberedTexts texts, ∃ u : Value, u.toKey? = some e.1 := by
    intro e he
    obtain ⟨⟨i, hi⟩, -⟩ := mem_numberedTexts he
    exact ⟨.int i, hi ▸ rfl⟩
  -- the numbers are different as long as there are enough of them
  have hnodup : ((numberedTexts texts).map Prod.fst).Nodup := by
    rw [keys_numberedTexts]
    exact nodup_places hroom
  have hstores := Table.stores_arrange hhint hkeyed
  have hentries := Table.entries_arrange hhint hkeyed hnodup fun e he => (mem_numberedTexts he).2
  have hlast : (Int64.ofNat texts.length).toInt = texts.length :=
    Int64.toInt_ofNat_of_lt (by simp only [Table.maxKey] at hroom; omega)
  rw [textTable_eq_arrange]
  refine ⟨hstores.metatable, hentries, Table.Sequence.border_of_hint ⟨?_, fun i hi => ?_⟩ hstores.hint⟩
  · rw [Int64.le_iff_toInt_le, hlast]
    exact Int.natCast_nonneg _
  · rw [Int64.lt_iff_toInt_lt] at hi
    have hlow : 1 ≤ i.toInt := hi
    rw [Table.getInt, ← hstores.mem_keys, hentries, keys_numberedTexts, mem_places hroom, Int64.le_iff_toInt_le, hlast]
    constructor
    · rintro ⟨j, heq, -, hhigh⟩
      obtain rfl := Key.int.inj heq
      exact hhigh
    · exact fun hhigh => ⟨i, rfl, hlow, hhigh⟩

/-! ## Splitting -/

variable {args : Args} {text : String} {sep? : Option String}

/-- The helper makes a table of the parts, and changes nothing else. -/
theorem split_apply (htext : (args.get 1).takeText = .ok text)
    (hsep : Value.takeOption Value.takeText (args.get 2) = .ok sep?) (context : CallContext) (w : World) :
    (Native.util .split).apply args context w =
      (.ok (.values [.table w.guest.tables.size]),
        { w with guest := (w.guest.allocTable (textTable (Text.parts (sep?.getD ",") text))).2 }) := by
  show Library.util .split args context w = _
  rw [Library.util, Library.accept_of_take htext, Library.accept_of_take hsep]
  rfl

/-- **Splitting loses nothing.** A text that is split at a separator, a comma if none is given, comes apart into a new
table of parts. A separator that is not empty divides the text: the parts joined by it are the text, none of them has it
in it, and they are cut at its leftmost occurrences, so that they are one more than these; an empty text is one empty
part. The empty separator gives the characters, of which an empty text has none. -/
theorem split_loses_nothing (htext : (args.get 1).takeText = .ok text)
    (hsep : Value.takeOption Value.takeText (args.get 2) = .ok sep?) (context : CallContext) (w : World) :
    ∃ parts : List String,
      (Native.util .split).apply args context w =
        (.ok (.values [.table w.guest.tables.size]),
          { w with guest := (w.guest.allocTable (textTable parts)).2 }) ∧
      (parts.length ≤ Table.maxKey → (textTable parts).Lists parts) ∧
      (sep?.getD "," ≠ "" → Text.Divides (sep?.getD ",") text parts ∧ (text = "" → parts = [""])) ∧
      (sep?.getD "," = "" → parts = text.toList.map String.singleton ∧ String.join parts = text ∧
        (text = "" → parts = [])) := by
  refine ⟨_, split_apply htext hsep context w, Table.lists_textTable, fun hsome => ⟨Text.parts_divides hsome text, ?_⟩,
    fun hnone => ?_⟩
  · rintro rfl
    exact Text.parts_of_empty hsome
  · rw [hnone]
    refine ⟨?_, Text.join_parts_empty text, ?_⟩
    · rfl
    · rintro rfl
      rfl

/-- A separator that overlaps itself, and whose occurrences in the text overlap. -/
theorem split_loses_nothing_overlapping :
    (Args.get [.ofText "aaa", .ofText "aa"] 1).takeText = .ok "aaa" ∧
      Value.takeOption Value.takeText (Args.get [.ofText "aaa", .ofText "aa"] 2) = .ok (some "aa") ∧
      ∃ parts, ((Native.util .split).apply [.ofText "aaa", .ofText "aa"] ⟨fun _ _ w => (.exhausted, w), [], none⟩
        { guest := {} }).1 = .ok (.values [.table 0]) ∧ Text.Divides "aa" "aaa" parts ∧ parts.length = 2 := by
  have htext : (Args.get [.ofText "aaa", .ofText "aa"] 1).takeText = .ok "aaa" := Library.takeText_ofText "aaa"
  have hsep : Value.takeOption Value.takeText (Args.get [.ofText "aaa", .ofText "aa"] 2) = .ok (some "aa") := by
    show ((Value.ofText "aa").takeText).map some = _
    rw [Library.takeText_ofText]
    rfl
  obtain ⟨parts, happly, -, hdivides, -⟩ :=
    split_loses_nothing htext hsep ⟨fun _ _ w => (.exhausted, w), [], none⟩ { guest := {} }
  have hcut : Text.Leftmost "aa".toList "aaa".toList [0] := by
    constructor
    case occurs => exact List.forall_mem_singleton.mpr (List.prefix_append ['a', 'a'] ['a'])
    case apart => exact List.pairwise_singleton _ 0
    case left =>
      intro i hoccurs
      have hbound : i + 2 ≤ 3 := hoccurs.add_length_le (List.cons_ne_nil 'a' ['a'])
      exact ⟨0, List.mem_singleton_self 0, Nat.zero_le i, show i < 2 by omega⟩
  have hparts := (hdivides (by decide)).1
  exact ⟨htext, hsep, parts, congrArg Prod.fst happly, hparts, hparts.counted [0] hcut⟩

end ScriptHost.Guest
