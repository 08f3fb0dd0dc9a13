import ScriptHost.Text.Split

/-!
# Texts cut at a separator

A text without the separator is left whole. Where the separator is one character, cutting goes on after an occurrence
as it does from the start.

* `Text.length_parts_eq_one_iff`: a text is left whole exactly if the separator does not occur in it.
* `Text.splitLoop_append`: the parts of what stands before and after an occurrence.
* `Text.parts_append`, `Text.parts_of_not_mem`: the same for texts.
* `Text.infix_of_mem_parts`: parts are parts of the text.
* `Text.exists_last_part`: what is added to a text is added to its last part.
-/

namespace ScriptHost.Text

/-! ## Any separator -/

section

variable {α : Type} [DecidableEq α]

theorem splitLoop_of_occurrence {x y : α} {sep s rest : List α} (h : afterPrefix? (x :: sep) (y :: s) = some rest)
    (part : List α) (done : List (List α)) :
    splitLoop x sep (y :: s) part done = splitLoop x sep rest [] (part.reverse :: done) := by
  rw [splitLoop]
  split
  · next rest' h' => rw [Option.some.inj (h.symm.trans h')]
  · next h' => cases h.symm.trans h'

theorem splitLoop_of_none {x y : α} {sep s : List α} (h : afterPrefix? (x :: sep) (y :: s) = none)
    (part : List α) (done : List (List α)) :
    splitLoop x sep (y :: s) part done = splitLoop x sep s (y :: part) done := by
  rw [splitLoop]
  split
  · next rest' h' => cases h.symm.trans h'
  · rfl

theorem length_splitLoop (x : α) (sep s part : List α) (done : List (List α)) :
    done.length + 1 ≤ (splitLoop x sep s part done).length := by
  induction s, part, done using splitLoop.induct x sep with
  | case1 part done => simp [splitLoop]
  | case2 y s part done rest h ih =>
    rw [List.unattach_reverse, List.unattach_attach, List.length_cons] at ih
    rw [splitLoop_of_occurrence h]
    omega
  | case3 y s part done h ih =>
    rw [splitLoop_of_none h]
    exact ih

/-- There is no part more than those before exactly if the separator does not occur. -/
theorem length_splitLoop_eq_iff (x : α) (sep s part : List α) (done : List (List α)) :
    (splitLoop x sep s part done).length = done.length + 1 ↔ ¬ x :: sep <:+: s := by
  induction s, part, done using splitLoop.induct x sep with
  | case1 part done => simp [splitLoop]
  | case2 y s part done rest h ih =>
    have hmore := length_splitLoop x sep rest [] (part.reverse :: done)
    have hoccurs : x :: sep <:+: y :: s := ⟨[], rest, (afterPrefix?_eq_some.mp h).symm⟩
    rw [List.length_cons] at hmore
    rw [splitLoop_of_occurrence h]
    exact iff_of_false (by omega) fun hnone => hnone hoccurs
  | case3 y s part done h ih =>
    have hfirst : ¬ x :: sep <+: y :: s := by
      rintro ⟨rest, hrest⟩
      cases h.symm.trans (afterPrefix?_eq_some.mpr hrest.symm)
    -- no occurrence starts here, so that the first one is further on
    rw [splitLoop_of_none h, ih, List.infix_cons_iff, not_or, and_iff_right hfirst]

/-- A text is left whole exactly if the separator does not occur in it. -/
theorem length_parts_eq_one_iff {sep : String} (hsep : sep ≠ "") (s : String) :
    (parts sep s).length = 1 ↔ ¬ sep.toList <:+: s.toList := by
  rw [parts]
  cases hlist : sep.toList with
  | nil => exact absurd (String.toList_eq_nil_iff.mp hlist) hsep
  | cons x sep =>
    rw [List.length_map]
    exact length_splitLoop_eq_iff x sep s.toList [] []

end

/-! ## One character -/

section

variable {α : Type} [DecidableEq α] {x : α} {s part : List α}

theorem splitLoop_cons (y : α) (s part : List α) (done : List (List α)) :
    splitLoop x [] (y :: s) part done =
      if x = y then splitLoop x [] s [] (part.reverse :: done) else splitLoop x [] s (y :: part) done := by
  split
  · next hxy => exact splitLoop_of_occurrence (afterPrefix?_eq_some.mpr (by rw [hxy]; rfl)) part done
  · next hxy => exact splitLoop_of_none (by simp [afterPrefix?, hxy]) part done

/-- The parts that are finished stand before all others. -/
theorem splitLoop_done (s part : List α) (done : List (List α)) :
    splitLoop x [] s part done = done.reverse ++ splitLoop x [] s part [] := by
  induction s generalizing part done with
  | nil => simp [splitLoop]
  | cons y s ih =>
    rw [splitLoop_cons, splitLoop_cons]
    split
    · rw [ih [] (part.reverse :: done), ih [] [part.reverse]]
      simp
    · exact ih (y :: part) done

/-- At an occurrence of the separator one part ends, and the rest is cut as if it stood alone. -/
theorem splitLoop_append (a b part : List α) :
    splitLoop x [] (a ++ x :: b) part [] = splitLoop x [] a part [] ++ splitLoop x [] b [] [] := by
  induction a generalizing part with
  | nil =>
    rw [List.nil_append, splitLoop_cons, if_pos rfl, splitLoop_done]
    simp [splitLoop]
  | cons y a ih =>
    rw [List.cons_append, splitLoop_cons, splitLoop_cons]
    split
    · rw [splitLoop_done _ _ [part.reverse], splitLoop_done a _ [part.reverse], ih, List.append_assoc]
    · exact ih (y :: part)

theorem splitLoop_of_not_mem (hx : x ∉ s) (part : List α) :
    splitLoop x [] s part [] = [part.reverse ++ s] := by
  induction s generalizing part with
  | nil => simp [splitLoop]
  | cons y s ih =>
    rw [List.mem_cons, not_or] at hx
    rw [splitLoop_cons, if_neg hx.1, ih hx.2]
    simp

theorem splitLoop_ne_nil (s part : List α) (done : List (List α)) : splitLoop x [] s part done ≠ [] := by
  induction s generalizing part done with
  | nil => simp [splitLoop]
  | cons y s ih =>
    rw [splitLoop_cons]
    split
    · exact ih _ _
    · exact ih _ _

theorem infix_of_mem_splitLoop {piece : List α} (hpiece : piece ∈ splitLoop x [] s part []) :
    piece <:+: part.reverse ++ s := by
  induction s generalizing part with
  | nil =>
    obtain rfl : piece = part.reverse := by simpa [splitLoop] using hpiece
    exact (List.prefix_append _ _).isInfix
  | cons y s ih =>
    rw [splitLoop_cons] at hpiece
    split at hpiece
    · rw [splitLoop_done, List.mem_append] at hpiece
      rcases hpiece with hpiece | hpiece
      · obtain rfl : piece = part.reverse := by simpa using hpiece
        exact (List.prefix_append _ _).isInfix
      · exact (ih hpiece).trans ⟨part.reverse ++ [y], [], by simp⟩
    · simpa using ih hpiece

end

variable {sep : String} {x : Char}

theorem parts_eq_splitLoop (hsep : sep.toList = [x]) (s : String) :
    parts sep s = (splitLoop x [] s.toList [] []).map String.ofList := by
  rw [parts, hsep]

/-- The parts of a text with a separator in it are those before and those after it. -/
theorem parts_append (hsep : sep.toList = [x]) (a b : String) :
    parts sep (a ++ sep ++ b) = parts sep a ++ parts sep b := by
  have hlist : (a ++ sep ++ b).toList = a.toList ++ x :: b.toList := by
    rw [String.toList_append, String.toList_append, hsep, List.append_assoc, List.singleton_append]
  rw [parts_eq_splitLoop hsep, parts_eq_splitLoop hsep, parts_eq_splitLoop hsep, hlist, splitLoop_append,
    List.map_append]

/-- A text without the separator is its only part. -/
theorem parts_of_not_mem (hsep : sep.toList = [x]) {s : String} (hs : x ∉ s.toList) : parts sep s = [s] := by
  rw [parts_eq_splitLoop hsep, splitLoop_of_not_mem hs]
  simp

theorem parts_ne_nil (hsep : sep.toList = [x]) (s : String) : parts sep s ≠ [] := by
  rw [parts_eq_splitLoop hsep]
  simpa using splitLoop_ne_nil s.toList [] []

theorem infix_of_mem_parts (hsep : sep.toList = [x]) {s piece : String} (hpiece : piece ∈ parts sep s) :
    piece.toList <:+: s.toList := by
  rw [parts_eq_splitLoop hsep] at hpiece
  obtain ⟨chars, hchars, rfl⟩ := List.mem_map.mp hpiece
  simpa using infix_of_mem_splitLoop hchars

theorem not_mem_append {s t : String} (hs : x ∉ s.toList) (ht : x ∉ t.toList) : x ∉ (s ++ t).toList := by
  rw [String.toList_append, List.mem_append, not_or]
  exact ⟨hs, ht⟩

/-- What is added to a text is added to its last part. -/
theorem exists_last_part (hsep : sep.toList = [x]) (s : String) :
    ∃ init last, parts sep s = init ++ [last] ∧
      ∀ t : String, x ∉ t.toList → parts sep (s ++ t) = init ++ [last ++ t] := by
  by_cases hx : x ∈ s.toList
  · -- the last part begins after the last separator
    obtain ⟨after, before, hrev, hafter⟩ := List.eq_append_cons_of_mem (List.mem_reverse.mpr hx)
    have hs : s = String.ofList before.reverse ++ sep ++ String.ofList after.reverse := by
      rw [← String.toList_inj, String.toList_append, String.toList_append, hsep, String.toList_ofList, String.toList_ofList,
        ← List.reverse_reverse s.toList, hrev]
      simp
    have hlast : x ∉ (String.ofList after.reverse).toList := by simpa using hafter
    refine ⟨parts sep (String.ofList before.reverse), String.ofList after.reverse, ?_, fun t ht => ?_⟩
    · rw [hs, parts_append hsep, parts_of_not_mem hsep hlast]
    · rw [hs, String.append_assoc, parts_append hsep, parts_of_not_mem hsep (not_mem_append hlast ht)]
  · refine ⟨[], s, by rw [parts_of_not_mem hsep hx, List.nil_append], fun t ht => ?_⟩
    rw [parts_of_not_mem hsep (not_mem_append hx ht), List.nil_append]

end ScriptHost.Text
