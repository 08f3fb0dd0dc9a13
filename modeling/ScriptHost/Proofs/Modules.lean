import ScriptHost.Bundles
import ScriptHost.Guest.Library.Scripts
import ScriptHost.Name
import ScriptHost.Proofs.Path

/-!
# Where modules lie

A script's name is one step of a path, and what a script can import as a module lies below the folder of its bundle.

* `isScriptName_iff`: what a script's name is made of.
* `components_folder`: the folder of a bundle.
* `exists_modulePath_iff`, `components_modulePath`: which modules can be imported, and where they lie.
* `modules_lie_in_bundle`: where the modules of a script lie.
-/

namespace ScriptHost

open ScriptHost.Path Guest.Library

variable {name module path folder : String}

/-! ## Names -/

theorem isScriptName_iff : isScriptName name = true ↔
    name ≠ "" ∧ ∀ c ∈ name.toList,
      'A' ≤ c ∧ c ≤ 'Z' ∨ 'a' ≤ c ∧ c ≤ 'z' ∨ '0' ≤ c ∧ c ≤ '9' ∨ c = '_' ∨ c = '-' := by
  rw [isScriptName, Bool.and_eq_true, List.all_eq_true, Bool.not_eq_true', String.isEmpty_eq_false_iff]
  refine and_congr_right fun _ => forall₂_congr fun c _ => ?_
  have hchar : isNameChar c = (c.isUpper || c.isLower || c.isDigit || c == '_' || c == '-') := rfl
  have hupper : c.isUpper = true ↔ 'A' ≤ c ∧ c ≤ 'Z' := decide_eq_true_iff
  have hlower : c.isLower = true ↔ 'a' ≤ c ∧ c ≤ 'z' :=
    Bool.and_eq_true_iff.trans (and_congr decide_eq_true_iff decide_eq_true_iff)
  have hdigit : c.isDigit = true ↔ '0' ≤ c ∧ c ≤ '9' :=
    Bool.and_eq_true_iff.trans (and_congr decide_eq_true_iff decide_eq_true_iff)
  simp only [hchar, Bool.or_eq_true, hupper, hlower, hdigit, beq_iff_eq, or_assoc]

/-- A script's name is one step. -/
theorem steps_of_isScriptName (hname : isScriptName name = true) :
    Text.parts "/" name = [name] ∧ steps name = [.name name] := by
  obtain ⟨hempty, hchars⟩ := isScriptName_iff.mp hname
  have hslash : '/' ∉ name.toList := fun hmem => absurd (hchars _ hmem) (by decide)
  have hdot : '.' ∉ name.toList := fun hmem => absurd (hchars _ hmem) (by decide)
  have hparts := Text.parts_of_not_mem toList_slash hslash
  refine ⟨hparts, ?_⟩
  have hstep : pieceComponent? name = some (.name name) := by
    refine pieceComponent?_of_name hempty ?_ ?_ <;> rintro rfl <;> exact hdot (by decide)
  rw [steps, hparts, List.filterMap_cons_some hstep]
  rfl

/-- The folder of a bundle is one step below the scripts folder. -/
theorem components_folder (b : BundleFolder) (hname : isScriptName name = true) :
    components (b.folder name) = components b.root ++ [.name name] := by
  obtain ⟨hempty, hchars⟩ := isScriptName_iff.mp hname
  obtain ⟨hparts, hsteps⟩ := steps_of_isScriptName hname
  have hrelative : isAbsolute name = false := by
    rw [isAbsolute_eq, beq_eq_false_iff_ne]
    exact fun hhead => absurd (hchars _ (List.mem_of_head? hhead)) (by decide)
  have hhere : (Text.parts "/" name).head? ≠ some "." := by
    rw [hparts, List.head?_cons, ne_eq, Option.some.injEq]
    rintro rfl
    exact absurd (hchars '.' (by decide)) (by decide)
  rw [BundleFolder.folder, components_join hrelative hhere, hsteps]

/-! ## Modules -/

theorem modulePath_eq_ok_iff : modulePath (some folder) module = .ok path ↔
    module ≠ "" ∧ ¬ "..".toList <:+: module.toList ∧ isPlain module = true ∧ path = join folder (module ++ ".lua") := by
  have hdots := Text.length_parts_eq_one_iff (show ".." ≠ "" by decide) module
  have hrefused : (module.isEmpty || (Text.parts ".." module).length != 1 || !isPlain module) = false ↔
      module ≠ "" ∧ ¬ "..".toList <:+: module.toList ∧ isPlain module = true := by
    rw [Bool.or_eq_false_iff, Bool.or_eq_false_iff, String.isEmpty_eq_false_iff, bne_eq_false_iff_eq, hdots,
      Bool.not_eq_false', and_assoc]
  rw [modulePath]
  cases hcase : module.isEmpty || (Text.parts ".." module).length != 1 || !isPlain module with
  | true =>
    have hno : ¬ (module ≠ "" ∧ ¬ "..".toList <:+: module.toList ∧ isPlain module = true) := by
      rw [← hrefused, hcase]
      exact Bool.noConfusion
    rw [if_pos rfl]
    exact iff_of_false nofun fun ⟨hempty, hnone, hplain, _⟩ => hno ⟨hempty, hnone, hplain⟩
  | false =>
    obtain ⟨hempty, hnone, hplain⟩ := hrefused.mp hcase
    rw [if_neg Bool.false_ne_true, Except.ok.injEq, and_iff_right hempty, and_iff_right hnone, and_iff_right hplain,
      eq_comm]
    rfl

/-- The modules that a script can import. -/
theorem exists_modulePath_iff (folder : Option String) (module : String) :
    (∃ path, modulePath folder module = .ok path) ↔
      folder ≠ none ∧ module ≠ "" ∧ ¬ "..".toList <:+: module.toList ∧
        (components module).head? ≠ some .root ∧ (components module).head? ≠ some .here := by
  cases folder with
  | none => simp [modulePath]
  | some folder =>
    simp only [modulePath_eq_ok_iff, exists_and_left, exists_eq, and_true, ne_eq, reduceCtorEq, not_false_eq_true, true_and]
    refine and_congr_right fun _ => and_congr_right fun hnone => isPlain_iff hnone

/-- A module lies below the folder, on a way of names to a file with the ending of modules. -/
theorem components_modulePath (h : modulePath (some folder) module = .ok path) :
    ∃ (names : List String) (last : String),
      components path = components folder ++ names.map .name ++ [.name (last ++ ".lua")] := by
  obtain ⟨hempty, -, hplain, rfl⟩ := modulePath_eq_ok_iff.mp h
  exact components_join_of_plain hplain hempty (by decide) (by decide) folder

/-! ## Scripts -/

/-- **The modules of a script lie in the folder of its bundle.** A script's name is a word of letters, digits and two
other signs, and thus one step below the scripts folder. A module is refused if it has no folder, is empty, holds two
dots side by side or starts at the root or with a dot; of any other one all steps below the folder are names. -/
theorem modules_lie_in_bundle :
    (∀ name, isScriptName name = true ↔ name ≠ "" ∧ ∀ c ∈ name.toList,
      'A' ≤ c ∧ c ≤ 'Z' ∨ 'a' ≤ c ∧ c ≤ 'z' ∨ '0' ≤ c ∧ c ≤ '9' ∨ c = '_' ∨ c = '-') ∧
    (∀ (b : BundleFolder) name, isScriptName name = true →
      components (b.folder name) = components b.root ++ [.name name]) ∧
    (∀ folder module, (∃ path, modulePath folder module = .ok path) ↔
      folder ≠ none ∧ module ≠ "" ∧ ¬ "..".toList <:+: module.toList ∧
        (components module).head? ≠ some .root ∧ (components module).head? ≠ some .here) ∧
    (∀ folder module path, modulePath (some folder) module = .ok path →
      ∃ (names : List String) (last : String),
        components path = components folder ++ names.map .name ++ [.name (last ++ ".lua")]) ∧
    ∀ (b : BundleFolder) name module path, isScriptName name = true →
      modulePath (some (b.folder name)) module = .ok path →
        ∃ (names : List String) (last : String),
          components path = components b.root ++ .name name :: names.map .name ++ [.name (last ++ ".lua")] := by
  refine ⟨fun name => isScriptName_iff, fun b name => components_folder b, exists_modulePath_iff,
    fun folder module path => components_modulePath, fun b name module path hname hpath => ?_⟩
  -- the bundle lies one step below the root, and the module below the bundle
  obtain ⟨names, last, hsteps⟩ := components_modulePath hpath
  refine ⟨names, last, ?_⟩
  rw [hsteps, components_folder b hname, List.append_assoc (components b.root), List.singleton_append]

/-- Slashes side by side, a dot at the end and a name that starts with dots. -/
theorem modules_lie_in_bundle_dotted :
    isScriptName "greet-2" = true ∧
      modulePath (some (BundleFolder.folder ⟨"./scripts/", "main.lua"⟩ "greet-2")) "lib//.a/." =
        .ok "./scripts/greet-2/lib//.a/..lua" ∧
      ∃ (names : List String) (last : String), components "./scripts/greet-2/lib//.a/..lua" =
        components "./scripts/" ++ .name "greet-2" :: names.map .name ++ [.name (last ++ ".lua")] := by
  have hname : isScriptName "greet-2" = true := by decide +kernel
  have hpath : modulePath (some (BundleFolder.folder ⟨"./scripts/", "main.lua"⟩ "greet-2")) "lib//.a/." =
      .ok "./scripts/greet-2/lib//.a/..lua" := by decide +kernel
  obtain ⟨-, -, -, -, hwithin⟩ := modules_lie_in_bundle
  exact ⟨hname, hpath, hwithin ⟨"./scripts/", "main.lua"⟩ "greet-2" "lib//.a/." _ hname hpath⟩

end ScriptHost
