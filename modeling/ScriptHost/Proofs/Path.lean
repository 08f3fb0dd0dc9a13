import Mathlib.Data.Set.List
import ScriptHost.Path
import ScriptHost.Proofs.Text.Split

/-!
# The steps of joined paths

A path is joined to a folder as a text. The steps of the result are those of the folder and then those of the path, if
the path starts neither at the root nor with a dot.

* `Path.components_join`: the steps of a joined path.
* `Path.isPlain_iff`: when all steps of a path are names.
* `Path.components_join_of_plain`: the steps of a plain path with an ending, below a folder.
-/

namespace ScriptHost.Path

variable {a b p ending text : String}

/-! ## Steps -/

/-- The steps of what stands below a folder. -/
def steps (p : String) : List Component := (Text.parts "/" p).filterMap pieceComponent?

theorem toList_slash : "/".toList = ['/'] := rfl

theorem pieceComponent?_of_name (hempty : text ≠ "") (hdot : text ≠ ".") (hdots : text ≠ "..") :
    pieceComponent? text = some (.name text) := by
  unfold pieceComponent?
  split
  · exact absurd rfl hempty
  · exact absurd rfl hdot
  · exact absurd rfl hdots
  · rfl

/-- A step between slashes is a name, or it leads to the folder around and is written as two dots. -/
theorem mem_steps {c : Component} (hc : c ∈ steps p) :
    (∃ text, c = .name text) ∨ c = .parent ∧ "..".toList <:+: p.toList := by
  obtain ⟨piece, hpiece, hc⟩ := List.mem_filterMap.mp hc
  unfold pieceComponent? at hc
  split at hc
  · cases hc
  · cases hc
  · cases hc
    exact .inr ⟨rfl, Text.infix_of_mem_parts toList_slash hpiece⟩
  · cases hc
    exact .inl ⟨_, rfl⟩

@[simp] theorem steps_empty : steps "" = [] := by
  rw [steps, Text.parts_of_not_mem toList_slash List.not_mem_nil]
  rfl

theorem steps_append (a b : String) : steps (a ++ "/" ++ b) = steps a ++ steps b := by
  rw [steps, Text.parts_append toList_slash, List.filterMap_append]
  rfl

theorem steps_slash (b : String) : steps ("/" ++ b) = steps b := by
  have hsteps := steps_append "" b
  rwa [String.empty_append, steps_empty, List.nil_append] at hsteps

/-! ## Beginnings -/

theorem isAbsolute_eq (p : String) : isAbsolute p = (p.toList.head? == some '/') := by
  unfold isAbsolute
  split
  · next hp =>
    rw [hp]
    rfl
  · next hp =>
    cases hlist : p.toList with
    | nil => rfl
    | cons c cs =>
      have hc : c ≠ '/' := by
        rintro rfl
        exact hp _ hlist
      simp [hc]

theorem isAbsolute_append (ha : a ≠ "") (b : String) : isAbsolute (a ++ b) = isAbsolute a := by
  obtain ⟨c, cs, hcs⟩ := List.exists_cons_of_ne_nil (mt String.toList_eq_nil_iff.mp ha)
  rw [isAbsolute_eq, isAbsolute_eq, String.toList_append, hcs]
  rfl

theorem components_of_absolute (hp : isAbsolute p = true) : components p = .root :: steps p := by
  simp [components, steps, hp]

theorem components_of_here (hp : isAbsolute p = false) (hhere : (Text.parts "/" p).head? = some ".") :
    components p = .here :: steps p := by
  simp [components, steps, hp, hhere]

theorem components_of_relative (hp : isAbsolute p = false) (hhere : (Text.parts "/" p).head? ≠ some ".") :
    components p = steps p := by
  simp [components, steps, hp, hhere]

/-- What stands below a folder does not change how the path begins. -/
theorem components_append (ha : a ≠ "") (b : String) : components (a ++ "/" ++ b) = components a ++ steps b := by
  have habsolute : isAbsolute (a ++ "/" ++ b) = isAbsolute a := by
    rw [String.append_assoc, isAbsolute_append ha]
  have hhead : (Text.parts "/" (a ++ "/" ++ b)).head? = (Text.parts "/" a).head? := by
    obtain ⟨piece, pieces, hpieces⟩ := List.exists_cons_of_ne_nil (Text.parts_ne_nil toList_slash a)
    rw [Text.parts_append toList_slash, hpieces]
    rfl
  cases hroot : isAbsolute a with
  | true =>
    rw [components_of_absolute (habsolute.trans hroot), components_of_absolute hroot, steps_append, List.cons_append]
  | false =>
    by_cases hhere : (Text.parts "/" a).head? = some "."
    · rw [components_of_here (habsolute.trans hroot) (hhead.trans hhere), components_of_here hroot hhere, steps_append,
        List.cons_append]
    · rw [components_of_relative (habsolute.trans hroot) (hhead ▸ hhere), components_of_relative hroot hhere, steps_append]

/-- A folder may end in a slash. -/
theorem components_append_of_slash (a b : String) : components (a ++ "/" ++ b) = components (a ++ "/") ++ steps b := by
  by_cases ha : a = ""
  · have hroot (p : String) : components ("/" ++ p) = .root :: steps p := by
      have habsolute : isAbsolute ("/" ++ p) = true := by simp [isAbsolute_eq]
      rw [components_of_absolute habsolute, steps_slash]
    have hself : components "/" = [.root] := by simpa using hroot ""
    rw [ha, String.empty_append, hroot, hself, List.singleton_append]
  · have hself : components (a ++ "/") = components a := by simpa using components_append ha ""
    rw [components_append ha, hself]

/-! ## Joining -/

/-- **The steps of a joined path** are those of the folder, and then those of what is joined to it. -/
theorem components_join (hp : isAbsolute p = false) (hhere : (Text.parts "/" p).head? ≠ some ".") (base : String) :
    components (join base p) = components base ++ steps p := by
  unfold join
  rw [hp, Bool.false_or]
  split
  · next hempty =>
    have hnone : components "" = [] := by
      rw [components_of_relative rfl, steps_empty]
      rw [Text.parts_of_not_mem toList_slash List.not_mem_nil]
      decide
    rw [String.isEmpty_iff.mp hempty, hnone, components_of_relative hp hhere, List.nil_append]
  · next hempty =>
    split
    · next hslash =>
      obtain ⟨front, hfront⟩ := List.getLast?_eq_some_iff.mp (beq_iff_eq.mp hslash)
      obtain ⟨a, rfl⟩ : ∃ a, base = a ++ "/" := ⟨String.ofList front, by
        rw [← String.toList_inj, hfront, String.toList_append, String.toList_ofList, toList_slash]⟩
      exact components_append_of_slash a p
    · exact components_append (mt String.isEmpty_iff.mpr hempty) p

/-! ## Plain paths -/

theorem relative_of_head (hroot : (components p).head? ≠ some .root) (hhere : (components p).head? ≠ some .here) :
    isAbsolute p = false ∧ (Text.parts "/" p).head? ≠ some "." := by
  have habsolute : isAbsolute p = false := by
    rw [← Bool.not_eq_true]
    exact fun habsolute => hroot (by rw [components_of_absolute habsolute]; rfl)
  exact ⟨habsolute, fun hdot => hhere (by rw [components_of_here habsolute hdot]; rfl)⟩

theorem isPlain_eq_true_iff : isPlain p = true ↔ ∀ c ∈ components p, ∃ text, c = .name text := by
  rw [isPlain, List.all_eq_true]
  refine forall₂_congr fun c _ => ?_
  cases c <;> simp

theorem head?_of_isPlain (hplain : isPlain p = true) :
    (components p).head? ≠ some .root ∧ (components p).head? ≠ some .here := by
  rw [isPlain_eq_true_iff] at hplain
  constructor <;> intro hhead
  all_goals
    obtain ⟨text, heq⟩ := hplain _ (List.mem_of_head? hhead)
    cases heq

/-- A path without two dots side by side is plain if it starts neither at the root nor with a dot. -/
theorem isPlain_iff (hdots : ¬ "..".toList <:+: p.toList) :
    isPlain p = true ↔ (components p).head? ≠ some .root ∧ (components p).head? ≠ some .here := by
  refine ⟨head?_of_isPlain, fun ⟨hroot, hhere⟩ => ?_⟩
  obtain ⟨habsolute, hdot⟩ := relative_of_head hroot hhere
  rw [isPlain_eq_true_iff, components_of_relative habsolute hdot]
  exact fun c hc => (mem_steps hc).resolve_right fun hparent => hdots hparent.2

/-- How a plain path with an ending goes on below a folder: by names, of which the last one has the ending. -/
theorem components_join_of_plain (hplain : isPlain p = true) (hp : p ≠ "") (hending : '/' ∉ ending.toList)
    (hlong : 2 < ending.length) (base : String) :
    ∃ (names : List String) (last : String),
      components (join base (p ++ ending)) = components base ++ names.map .name ++ [.name (last ++ ending)] := by
  obtain ⟨hroot, hdot⟩ := head?_of_isPlain hplain
  obtain ⟨habsolute, hhere⟩ := relative_of_head hroot hdot
  rw [isPlain_eq_true_iff, components_of_relative habsolute hhere] at hplain
  obtain ⟨init, last, hparts, hadded⟩ := Text.exists_last_part toList_slash p
  -- the last piece is too long with the ending to be a dot or two
  have hlast (text : String) (htext : text.length ≤ 2) : last ++ ending ≠ text := by
    rintro rfl
    rw [String.length_append] at htext
    omega
  have hlastStep := pieceComponent?_of_name (hlast "" (by decide)) (hlast "." (by decide)) (hlast ".." (by decide))
  have hnames : init.filterMap pieceComponent? ∈ Set.range (List.map Component.name) := by
    rw [Set.range_list_map]
    intro c hc
    obtain ⟨text, rfl⟩ := hplain c (by rw [steps, hparts, List.filterMap_append]; exact List.mem_append_left _ hc)
    exact ⟨text, rfl⟩
  obtain ⟨names, hnames⟩ := hnames
  have hstart : (Text.parts "/" (p ++ ending)).head? ≠ some "." := by
    rw [hadded ending hending]
    cases init with
    | nil => simpa using hlast "." (by decide)
    | cons piece init => rwa [hparts] at hhere
  refine ⟨names, last, ?_⟩
  rw [components_join ((isAbsolute_append hp ending).trans habsolute) hstart, steps, hadded ending hending,
    List.filterMap_append, List.filterMap_cons_some hlastStep, hnames, List.append_assoc]
  rfl

end ScriptHost.Path
