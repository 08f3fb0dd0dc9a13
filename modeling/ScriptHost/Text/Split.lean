/-!
# Splitting at a separator

`splitAt sep s` cuts a list at the leftmost non-overlapping occurrences of a separator. `parts`
is the same on texts, where the empty separator cuts between any two characters.
-/

namespace ScriptHost.Text

/-- What stands after `p` when `s` starts with it. -/
def afterPrefix? {α : Type} [DecidableEq α] : List α → List α → Option (List α)
  | [], s => some s
  | _ :: _, [] => none
  | x :: p, y :: s => if x = y then afterPrefix? p s else none

theorem afterPrefix?_eq_some {α : Type} [DecidableEq α] {p s rest : List α} :
    afterPrefix? p s = some rest ↔ s = p ++ rest := by
  induction p generalizing s with
  | nil => simp [afterPrefix?, eq_comm]
  | cons x p ih =>
    cases s with
    | nil => simp [afterPrefix?]
    | cons y s =>
      by_cases h : x = y
      · simp [afterPrefix?, h, ih]
      · simp [afterPrefix?, h, Ne.symm h]

/-- Cut `s` at the leftmost non-overlapping occurrences of the separator `x :: sep`. The characters
since the last cut are held in reverse in `part`, the finished parts in reverse in `done`. -/
def splitLoop {α : Type} [DecidableEq α] (x : α) (sep : List α) :
    List α → List α → List (List α) → List (List α)
  | [], part, done => (part.reverse :: done).reverse
  | y :: s, part, done =>
    match _h : afterPrefix? (x :: sep) (y :: s) with
    | some rest => splitLoop x sep rest [] (part.reverse :: done)
    | none => splitLoop x sep s (y :: part) done
termination_by s => s.length
decreasing_by
  · have := congrArg List.length (afterPrefix?_eq_some.1 _h)
    simp at this ⊢
    omega
  · simp

/-- The parts of a text between the occurrences of a separator; an empty separator gives the
characters. -/
def parts (sep s : String) : List String :=
  match sep.toList with
  | [] => s.toList.map fun c => String.ofList [c]
  | x :: sep => (splitLoop x sep s.toList [] []).map String.ofList

example : parts "," "a,,b" = ["a", "", "b"] := by decide +kernel
example : parts "aa" "aaa" = ["", "a"] := by decide +kernel
example : parts "," "" = [""] := by decide +kernel
example : parts "" "" = [] := by decide +kernel

end ScriptHost.Text
