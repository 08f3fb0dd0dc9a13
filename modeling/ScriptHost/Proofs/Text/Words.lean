import ScriptHost.Text.Blank

/-!
# The words of a text

A text is made of its words, with blanks between any two of them and, it may be, before and after them. This tells the
words.

* `Text.Spaced`: characters that are made of words with blanks around them.
* `Text.charWords_eq_iff`, `Text.words_eq_iff`: the words are those that the text is made of.
* `Text.words_line`: the words of a line that is put together from words.
-/

namespace ScriptHost.Text

/-! ## Words with blanks around them -/

/-- Characters that are made of words, with blanks before each word and after the last one. Where a word goes on to
other words, a blank follows it. -/
inductive Spaced : List (List Char) → List Char → Prop where
  | blanks {gap : List Char} (hgap : ∀ c ∈ gap, isBlank c = true) : Spaced [] gap
  | word {gap w rest : List Char} {ws : List (List Char)} (hgap : ∀ c ∈ gap, isBlank c = true) (hw : w ≠ [])
      (hword : ∀ c ∈ w, isBlank c = false) (hrest : Spaced ws rest) (hend : ∀ c ∈ rest.head?, isBlank c = true) :
      Spaced (w :: ws) (gap ++ w ++ rest)

variable {c : Char} {cs gap w rest : List Char} {ws : List (List Char)}

theorem Spaced.cons (hc : isBlank c = true) (h : Spaced ws cs) : Spaced ws (c :: cs) := by
  cases h with
  | blanks hgap => exact .blanks (List.forall_mem_cons.mpr ⟨hc, hgap⟩)
  | word hgap hw hword hrest hend => exact .word (List.forall_mem_cons.mpr ⟨hc, hgap⟩) hw hword hrest hend

/-- Nothing need stand before the first word. -/
theorem Spaced.start (hw : w ≠ []) (hword : ∀ c ∈ w, isBlank c = false) (hrest : Spaced ws rest)
    (hend : ∀ c ∈ rest.head?, isBlank c = true) : Spaced (w :: ws) (w ++ rest) := by
  have hgap : ∀ c ∈ ([] : List Char), isBlank c = true := nofun
  exact .word hgap hw hword hrest hend

theorem pushWord_of_ne_nil (hw : w ≠ []) (ws : List (List Char)) : pushWord w ws = w :: ws := by
  cases w with
  | nil => exact absurd rfl hw
  | cons c w => rfl

/-! ## The words of what is made of words -/

theorem charWords_append_of_blanks (hgap : ∀ c ∈ gap, isBlank c = true) (cs : List Char) :
    charWords (gap ++ cs) = charWords cs := by
  induction gap with
  | nil => rfl
  | cons c gap ih =>
    obtain ⟨hc, hgap⟩ := List.forall_mem_cons.mp hgap
    rw [List.cons_append, charWords_cons_of_isBlank hc, ih hgap]

/-- At a blank no word has begun, and all words are still to come. -/
theorem splitWords_of_end (hend : ∀ c ∈ rest.head?, isBlank c = true) : splitWords rest = ([], charWords rest) := by
  cases rest with
  | nil => rfl
  | cons c cs =>
    have hc := hend c rfl
    rw [charWords_cons_of_isBlank hc, splitWords, if_pos hc]
    rfl

theorem splitWords_append (hword : ∀ c ∈ w, isBlank c = false) (hend : ∀ c ∈ rest.head?, isBlank c = true) :
    splitWords (w ++ rest) = (w, charWords rest) := by
  induction w with
  | nil => exact splitWords_of_end hend
  | cons c w ih =>
    obtain ⟨hc, hword⟩ := List.forall_mem_cons.mp hword
    rw [List.cons_append, splitWords, ih hword, if_neg (by simp [hc])]

theorem Spaced.charWords_eq (h : Spaced ws cs) : charWords cs = ws := by
  induction h with
  | blanks hgap => simpa using charWords_append_of_blanks hgap []
  | word hgap hw hword hrest hend ih =>
    rw [List.append_assoc, charWords_append_of_blanks hgap, charWords, splitWords_append hword hend,
      pushWord_of_ne_nil hw, ih]

/-! ## What any text is made of -/

/-- A first word, if there is one, and the words after it. -/
theorem spaced_pushWord (hword : ∀ c ∈ w, isBlank c = false) (hrest : Spaced ws rest)
    (hend : ∀ c ∈ rest.head?, isBlank c = true) : Spaced (pushWord w ws) (w ++ rest) := by
  cases w with
  | nil => exact hrest
  | cons c w => exact .start (List.cons_ne_nil c w) hword hrest hend

/-- The characters up to the first blank, and words with blanks around them. -/
theorem exists_splitWords (cs : List Char) :
    ∃ rest, cs = (splitWords cs).1 ++ rest ∧ (∀ c ∈ (splitWords cs).1, isBlank c = false) ∧
      Spaced (splitWords cs).2 rest ∧ ∀ c ∈ rest.head?, isBlank c = true := by
  induction cs with
  | nil => exact ⟨[], rfl, nofun, .blanks nofun, nofun⟩
  | cons c cs ih =>
    obtain ⟨rest, hcs, hword, hrest, hend⟩ := ih
    cases hc : isBlank c with
    | true =>
      have hspaced : Spaced (pushWord (splitWords cs).1 (splitWords cs).2) cs := by
        have hpushed := spaced_pushWord hword hrest hend
        rwa [← hcs] at hpushed
      simp only [splitWords, hc, if_true]
      exact ⟨c :: cs, rfl, nofun, hspaced.cons hc, by simpa using hc⟩
    | false =>
      simp only [splitWords, hc, Bool.false_eq_true, if_false]
      exact ⟨rest, by rw [List.cons_append, ← hcs], List.forall_mem_cons.mpr ⟨hc, hword⟩, hrest, hend⟩

theorem spaced_charWords (cs : List Char) : Spaced (charWords cs) cs := by
  obtain ⟨rest, hcs, hword, hrest, hend⟩ := exists_splitWords cs
  have hpushed := spaced_pushWord hword hrest hend
  rwa [← hcs] at hpushed

theorem charWords_eq_iff : charWords cs = ws ↔ Spaced ws cs :=
  ⟨fun h => h ▸ spaced_charWords cs, Spaced.charWords_eq⟩

/-! ## Texts -/

/-- The words of a text are those that it is made of. -/
theorem words_eq_iff {s : String} {ws : List String} : words s = ws ↔ Spaced (ws.map String.toList) s.toList := by
  rw [← charWords_eq_iff, words]
  constructor
  · rintro rfl
    simp
  · intro h
    rw [h]
    simp

theorem spaced_zipWith {gaps ws : List (List Char)} (hlength : gaps.length = ws.length)
    (hgaps : ∀ gap ∈ gaps, gap ≠ [] ∧ ∀ c ∈ gap, isBlank c = true)
    (hwords : ∀ w ∈ ws, w ≠ [] ∧ ∀ c ∈ w, isBlank c = false) :
    Spaced ws (List.zipWith (· ++ ·) gaps ws).flatten ∧
      ∀ c ∈ (List.zipWith (· ++ ·) gaps ws).flatten.head?, isBlank c = true := by
  induction gaps generalizing ws with
  | nil =>
    obtain rfl := List.length_eq_zero_iff.mp hlength.symm
    exact ⟨.blanks nofun, nofun⟩
  | cons gap gaps ih =>
    obtain ⟨w, ws, rfl⟩ := List.exists_cons_of_length_eq_add_one hlength.symm
    obtain ⟨⟨hgap, hblank⟩, hgaps⟩ := List.forall_mem_cons.mp hgaps
    obtain ⟨⟨hw, hword⟩, hwords⟩ := List.forall_mem_cons.mp hwords
    obtain ⟨hrest, hend⟩ := ih (Nat.succ.inj hlength) hgaps hwords
    -- the gap before the next word ends this one, and this gap the word before
    refine ⟨.word hblank hw hword hrest hend, ?_⟩
    obtain ⟨c, cs, rfl⟩ := List.exists_cons_of_ne_nil hgap
    intro c' hc'
    cases hc'
    exact hblank c List.mem_cons_self

theorem toList_join_zipWith (gaps ws : List String) : (String.join (List.zipWith (· ++ ·) gaps ws)).toList =
    (List.zipWith (· ++ ·) (gaps.map String.toList) (ws.map String.toList)).flatten := by
  rw [String.toList_join, List.flatMap_def, List.map_zipWith, List.zipWith_map]
  simp only [String.toList_append]

/-- The words of a line that is put together from a first word and others, with blanks before each of these. -/
theorem words_line {first : String} {gaps ws : List String} (hfirst : first ≠ "" ∧ ∀ c ∈ first.toList, isBlank c = false)
    (hlength : gaps.length = ws.length) (hgaps : ∀ gap ∈ gaps, gap ≠ "" ∧ ∀ c ∈ gap.toList, isBlank c = true)
    (hwords : ∀ w ∈ ws, w ≠ "" ∧ ∀ c ∈ w.toList, isBlank c = false) :
    words (first ++ String.join (List.zipWith (· ++ ·) gaps ws)) = first :: ws := by
  have hchars {s : String} (hs : s ≠ "") : s.toList ≠ [] := mt String.toList_eq_nil_iff.mp hs
  have hlengths : (gaps.map String.toList).length = (ws.map String.toList).length := by simpa using hlength
  obtain ⟨hrest, hend⟩ := spaced_zipWith hlengths
    (List.forall_mem_map.mpr fun gap hgap => ⟨hchars (hgaps gap hgap).1, (hgaps gap hgap).2⟩)
    (List.forall_mem_map.mpr fun w hw => ⟨hchars (hwords w hw).1, (hwords w hw).2⟩)
  rw [words_eq_iff, String.toList_append, toList_join_zipWith, List.map_cons]
  exact .start (hchars hfirst.1) hfirst.2 hrest hend

end ScriptHost.Text
