/-!
# Histories

Histories grow at their end.
-/

namespace ScriptHost

variable {ε : Type} {history later before after : List ε} {x y : ε}

/-- An event of a longer history is one of the later ones or was there before. -/
theorem append_split (h : history ++ later = before ++ y :: after) :
    (∃ before', before = history ++ before' ∧ later = before' ++ y :: after) ∨
      ∃ after', after = after' ++ later ∧ history = before ++ y :: after' := by
  rcases List.append_eq_append_iff.mp h with ⟨before', hbefore, hlater⟩ | ⟨rest, hhistory, hrest⟩
  · exact .inl ⟨before', hbefore, hlater⟩
  · cases rest with
    | nil =>
      rw [List.append_nil] at hhistory
      exact .inl ⟨[], by rw [List.append_nil, hhistory], hrest.symm⟩
    | cons z after' =>
      rw [List.cons_append, List.cons.injEq] at hrest
      exact .inr ⟨after', hrest.2, by rw [hhistory, hrest.1]⟩

/-- An event of a history that has grown by one is the last one or was there before. -/
theorem append_singleton_split (h : history ++ [x] = before ++ y :: after) :
    (after = [] ∧ before = history ∧ y = x) ∨
      ∃ after', after = after' ++ [x] ∧ history = before ++ y :: after' := by
  rcases append_split h with ⟨before', hbefore, hlast⟩ | hold
  · cases before' with
    | nil =>
      rw [List.nil_append, List.cons.injEq] at hlast
      exact .inl ⟨hlast.2.symm, by rw [hbefore, List.append_nil], hlast.1.symm⟩
    | cons z rest =>
      have hnil := (List.cons.inj hlast).2
      cases rest <;> cases hnil
  · exact .inr hold

end ScriptHost
