import Mathlib.Data.List.Infix
import Mathlib.Data.List.Perm.Basic
import Mathlib.Data.Nat.Notation
import ScriptHost.Proofs.Text.Split

/-!
# Where texts are cut

A text is cut at the leftmost occurrences of the separator that do not overlap. Which these are is said of places in the
text alone, without regard to how they are found.

* `Occurs`, `Leftmost`: the places of a separator, and those of them at which a text is cut.
* `Leftmost.unique`: no text is cut at other places.
* `Cut`: pieces that are cut off one after the other. `exists_cut_splitLoop`: the loop cuts.
* `Cut.intercalate_eq`, `Cut.not_infix`, `Cut.leftmost_seams`: what is true of the pieces, each by induction on the cuts.
* `parts_divides`: the same for texts.
-/

namespace ScriptHost.Text

variable {α : Type} {sep s rest a : List α} {pieces : List (List α)} {i j : ℕ}

/-! ## Occurrences -/

/-- The separator stands at a place. -/
def Occurs (sep s : List α) (i : ℕ) : Prop := sep <+: s.drop i

/-- A separator that is not empty stands within the text. -/
theorem Occurs.add_length_le (h : Occurs sep s i) (hsep : sep ≠ []) : i + sep.length ≤ s.length := by
  have hlength := h.length_le
  have hpos := List.length_pos_iff.mpr hsep
  rw [List.length_drop] at hlength
  omega

/-- What stands in the first part of a text stands in the text. -/
theorem Occurs.append (h : Occurs sep a i) (hsep : sep ≠ []) (t : List α) : Occurs sep (a ++ t) i := by
  have hbound := h.add_length_le hsep
  rw [Occurs, List.drop_append_of_le_length (by omega)]
  exact h.trans (List.prefix_append _ _)

/-- What stands in the rest of a text stands in the text, further on. -/
theorem occurs_append_add (a t : List α) (i : ℕ) : Occurs sep (a ++ t) (a.length + i) ↔ Occurs sep t i := by
  rw [Occurs, List.drop_append, List.drop_eq_nil_of_le (Nat.le_add_right _ i), Nat.add_sub_cancel_left]
  rfl

theorem exists_occurs_of_infix (h : sep <:+: s) : ∃ i, Occurs sep s i := by
  obtain ⟨before, after, rfl⟩ := h
  refine ⟨before.length, ?_⟩
  rw [List.append_assoc, Occurs, List.drop_left]
  exact List.prefix_append _ _

/-- Places of the leftmost occurrences that do not overlap. -/
structure Leftmost (sep s : List α) (cuts : List ℕ) : Prop where
  occurs : ∀ i ∈ cuts, Occurs sep s i
  apart : cuts.Pairwise fun i j => i + sep.length ≤ j
  /-- An occurrence is left out only if one that begins before it overlaps it. -/
  left : ∀ i, Occurs sep s i → ∃ j ∈ cuts, j ≤ i ∧ i < j + sep.length

section

variable {cuts cuts' : List ℕ}

theorem Leftmost.increasing (h : Leftmost sep s cuts) (hsep : sep ≠ []) : cuts.Pairwise (· < ·) := by
  have hpos := List.length_pos_iff.mpr hsep
  exact h.apart.imp fun hle => by omega

/-- Of two places one is well before the other. -/
theorem Leftmost.add_length_le (h : Leftmost sep s cuts) (hi : i ∈ cuts) (hj : j ∈ cuts) (hlt : i < j) :
    i + sep.length ≤ j := by
  obtain ⟨m, hm, rfl⟩ := List.getElem_of_mem hi
  obtain ⟨n, hn, rfl⟩ := List.getElem_of_mem hj
  have hapart := List.pairwise_iff_getElem.mp h.apart
  rcases Nat.lt_trichotomy m n with hmn | rfl | hnm
  · exact hapart m n hm hn hmn
  · exact absurd hlt (Nat.lt_irrefl _)
  · have hle := hapart n m hn hm hnm
    omega

/-- An occurrence is a cut exactly if no earlier cut reaches it. -/
theorem Leftmost.mem_iff (h : Leftmost sep s cuts) (i : ℕ) :
    i ∈ cuts ↔ Occurs sep s i ∧ ∀ j < i, j ∈ cuts → j + sep.length ≤ i := by
  constructor
  · exact fun hi => ⟨h.occurs i hi, fun j hlt hj => h.add_length_le hj hi hlt⟩
  · rintro ⟨hoccurs, hfree⟩
    obtain ⟨j, hj, hle, hreach⟩ := h.left i hoccurs
    rcases Nat.lt_or_eq_of_le hle with hlt | rfl
    · exact absurd (hfree j hlt hj) (Nat.not_le_of_lt hreach)
    · exact hj

/-- No text is cut at other places. -/
theorem Leftmost.unique (h : Leftmost sep s cuts) (h' : Leftmost sep s cuts') (hsep : sep ≠ []) : cuts = cuts' := by
  have hmem (i : ℕ) : i ∈ cuts ↔ i ∈ cuts' := by
    induction i using Nat.strong_induction_on with
    | _ i ih =>
      rw [h.mem_iff, h'.mem_iff]
      exact and_congr_right' (forall₂_congr fun j hlt => by rw [ih j hlt])
  have hperm := (List.perm_ext_iff_of_nodup ((h.increasing hsep).imp Nat.ne_of_lt)
    ((h'.increasing hsep).imp Nat.ne_of_lt)).mpr hmem
  exact List.Perm.eq_of_pairwise (fun _ _ _ _ hlt hgt => absurd hgt (Nat.lt_asymm hlt)) (h.increasing hsep)
    (h'.increasing hsep) hperm

end

/-! ## Cutting -/

/-- Pieces that are cut off a text one after the other, each up to the first occurrence of the separator in what is
left. -/
inductive Cut (sep : List α) : List α → List (List α) → Prop where
  | whole {s : List α} (hs : ∀ i, ¬ Occurs sep s i) : Cut sep s [s]
  | piece {a rest : List α} {pieces : List (List α)} (ha : ∀ i < a.length, ¬ Occurs sep (a ++ (sep ++ rest)) i)
      (h : Cut sep rest pieces) : Cut sep (a ++ (sep ++ rest)) (a :: pieces)

theorem Cut.ne_nil (h : Cut sep s pieces) : pieces ≠ [] := by
  cases h <;> exact List.cons_ne_nil _ _

/-- The loop cuts what is left, if the separator does not begin in the characters that it has seen since the last
cut. -/
theorem exists_cut_splitLoop [DecidableEq α] (x : α) (sep s part : List α) (done : List (List α))
    (hpart : ∀ i < part.length, ¬ Occurs (x :: sep) (part.reverse ++ s) i) :
    ∃ pieces, splitLoop x sep s part done = done.reverse ++ pieces ∧ Cut (x :: sep) (part.reverse ++ s) pieces := by
  induction s, part, done using splitLoop.induct x sep with
  | case1 part done =>
    refine ⟨[part.reverse], by simp [splitLoop], ?_⟩
    rw [List.append_nil] at hpart ⊢
    refine .whole fun i hoccurs => hpart i ?_ hoccurs
    have hbound := hoccurs.add_length_le (List.cons_ne_nil x sep)
    rw [List.length_cons, List.length_reverse] at hbound
    omega
  | case2 y s part done rest h ih =>
    rw [List.unattach_reverse, List.unattach_attach] at ih
    obtain ⟨pieces, hloop, hcut⟩ := ih fun i hi => absurd hi (Nat.not_lt_zero i)
    refine ⟨part.reverse :: pieces, ?_, ?_⟩
    · rw [splitLoop_of_occurrence h, hloop, List.reverse_cons, List.append_assoc]
      rfl
    · rw [afterPrefix?_eq_some.mp h] at hpart ⊢
      exact .piece (fun i hi => hpart i (by rwa [List.length_reverse] at hi)) hcut
  | case3 y s part done h ih =>
    have hshift : (y :: part).reverse ++ s = part.reverse ++ y :: s := by simp
    rw [hshift] at ih
    rw [splitLoop_of_none h]
    refine ih fun i hi hoccurs => ?_
    rcases Nat.lt_or_eq_of_le (Nat.le_of_lt_succ hi) with hlt | rfl
    · exact hpart i hlt hoccurs
    · -- the separator would begin at the character that was read last
      rw [← List.length_reverse, ← Nat.add_zero part.reverse.length, occurs_append_add] at hoccurs
      obtain ⟨rest, hrest⟩ := hoccurs
      cases h.symm.trans (afterPrefix?_eq_some.mpr hrest.symm)

/-- Nothing is lost. -/
theorem Cut.intercalate_eq (h : Cut sep s pieces) : sep.intercalate pieces = s := by
  induction h with
  | whole hs => exact List.intercalate_singleton
  | piece ha h ih => rw [List.intercalate_cons_of_ne_nil h.ne_nil, ih, List.append_assoc]

/-- No piece has the separator in it. -/
theorem Cut.not_infix (h : Cut sep s pieces) (hsep : sep ≠ []) : ∀ piece ∈ pieces, ¬ sep <:+: piece := by
  induction h with
  | whole hs =>
    rw [List.forall_mem_singleton]
    intro hinfix
    obtain ⟨i, hoccurs⟩ := exists_occurs_of_infix hinfix
    exact hs i hoccurs
  | @piece a rest pieces ha h ih =>
    refine List.forall_mem_cons.mpr ⟨fun hinfix => ?_, ih⟩
    obtain ⟨i, hoccurs⟩ := exists_occurs_of_infix hinfix
    have hbound := hoccurs.add_length_le hsep
    have hpos := List.length_pos_iff.mpr hsep
    exact ha i (by omega) (hoccurs.append hsep _)

/-! ## Seams -/

/-- The places of the separators, of length `n`, between pieces that are joined. -/
def seams (n : ℕ) : List (List α) → List ℕ
  | a :: b :: pieces => a.length :: (seams n (b :: pieces)).map (a.length + n + ·)
  | _ => []

theorem seams_cons (n : ℕ) (a : List α) (h : pieces ≠ []) :
    seams n (a :: pieces) = a.length :: (seams n pieces).map (a.length + n + ·) := by
  cases pieces with
  | nil => exact absurd rfl h
  | cons b pieces => rfl

theorem length_seams (n : ℕ) (h : pieces ≠ []) : pieces.length = (seams n pieces).length + 1 := by
  induction pieces with
  | nil => exact absurd rfl h
  | cons a pieces ih =>
    cases pieces with
    | nil => rfl
    | cons b pieces =>
      rw [seams_cons n a (List.cons_ne_nil b pieces), List.length_cons, ih (List.cons_ne_nil b pieces), List.length_cons,
        List.length_map]

/-- Pieces are cut apart at the leftmost occurrences. -/
theorem Cut.leftmost_seams (h : Cut sep s pieces) : Leftmost sep s (seams sep.length pieces) := by
  induction h with
  | whole hs =>
    constructor
    case occurs => exact fun i hi => nomatch hi
    case apart => exact .nil
    case left => exact fun i hoccurs => absurd hoccurs (hs i)
  | @piece a rest pieces ha h ih =>
    have hlater (i : ℕ) : Occurs sep (a ++ (sep ++ rest)) (a.length + sep.length + i) ↔ Occurs sep rest i := by
      rw [Nat.add_assoc, occurs_append_add, occurs_append_add]
    rw [seams_cons _ _ h.ne_nil]
    constructor
    case occurs =>
      refine List.forall_mem_cons.mpr ⟨?_, List.forall_mem_map.mpr fun i hi => (hlater i).mpr (ih.occurs i hi)⟩
      rw [Occurs, List.drop_left]
      exact List.prefix_append _ _
    case apart =>
      refine List.pairwise_cons.mpr ⟨List.forall_mem_map.mpr fun i _ => Nat.le_add_right _ i, ?_⟩
      exact List.pairwise_map.mpr (ih.apart.imp fun hle => by omega)
    case left =>
      intro i hoccurs
      rcases Nat.lt_or_ge i (a.length + sep.length) with hlt | hge
      · -- before the end of the first separator, only the first separator begins
        have hfirst : a.length ≤ i := Nat.le_of_not_lt fun hi => ha i hi hoccurs
        exact ⟨a.length, List.mem_cons_self, hfirst, hlt⟩
      · obtain ⟨k, rfl⟩ := Nat.exists_eq_add_of_le hge
        obtain ⟨j, hj, hle, hreach⟩ := ih.left k ((hlater k).mp hoccurs)
        exact ⟨_, List.mem_cons_of_mem _ (List.mem_map_of_mem hj), by omega, by omega⟩

/-! ## Texts -/

/-- Pieces into which a separator divides a text. -/
structure Divides (sep text : String) (pieces : List String) : Prop where
  joined : sep.intercalate pieces = text
  free : ∀ piece ∈ pieces, ¬ sep.toList <:+: piece.toList
  /-- The text is cut at the leftmost occurrences of the separator. -/
  leftmost : Leftmost sep.toList text.toList (seams sep.length (pieces.map String.toList))
  /-- There is one piece more than there are such occurrences. -/
  counted : ∀ cuts, Leftmost sep.toList text.toList cuts → pieces.length = cuts.length + 1

/-- A text is divided by every separator that is not empty. -/
theorem parts_divides {sep : String} (hsep : sep ≠ "") (text : String) : Divides sep text (parts sep text) := by
  obtain ⟨x, rest, hlist⟩ := List.exists_cons_of_ne_nil (mt String.toList_eq_nil_iff.mp hsep)
  have hnil : sep.toList ≠ [] := by simp [hlist]
  obtain ⟨pieces, hloop, hcut⟩ := exists_cut_splitLoop x rest text.toList [] [] fun i hi => absurd hi (Nat.not_lt_zero i)
  have hparts : parts sep text = pieces.map String.ofList := by
    rw [parts, hlist]
    exact congrArg _ hloop
  have hlists : (parts sep text).map String.toList = pieces := by simp [hparts]
  rw [← hlist] at hcut
  -- the cuts between the pieces are the leftmost, and no others are
  have hleftmost := hcut.leftmost_seams
  constructor
  case joined =>
    rw [← String.toList_inj, String.toList_intercalate, hlists]
    exact hcut.intercalate_eq
  case free =>
    intro piece hpiece
    exact hcut.not_infix hnil _ (hlists ▸ List.mem_map_of_mem hpiece)
  case leftmost =>
    rw [hlists]
    exact hleftmost
  case counted =>
    intro cuts hcuts
    rw [hcuts.unique hleftmost hnil, ← length_seams _ hcut.ne_nil, ← hlists, List.length_map]

/-- Without a separator the parts are the characters, and together they are the text. -/
theorem join_parts_empty (text : String) : String.join (parts "" text) = text := by
  have hparts : parts "" text = text.toList.map fun c => String.ofList [c] := rfl
  rw [hparts, ← String.toList_inj, String.toList_join, List.flatMap_map]
  simp

/-- A text without characters is one part without characters. -/
theorem parts_of_empty {sep : String} (hsep : sep ≠ "") : parts sep "" = [""] := by
  obtain ⟨x, rest, hlist⟩ := List.exists_cons_of_ne_nil (mt String.toList_eq_nil_iff.mp hsep)
  rw [parts, hlist, String.toList_empty]
  simp [splitLoop]

end ScriptHost.Text
