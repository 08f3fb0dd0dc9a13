import Std.Data.TreeMap.Lemmas

/-!
# Stores by name

The stores of the host are tree maps from names. These are the facts about them that the host's theory needs,
in the form in which the host reads them.
-/

namespace ScriptHost
namespace NameMap

open Std

variable {β : Type} (t : TreeMap String β) (k a : String) (v : β)

theorem get?_empty : ({} : TreeMap String β).get? a = none :=
  (TreeMap.get?_eq_getElem?).trans TreeMap.getElem?_emptyc

theorem get?_insert : (t.insert k v).get? a = if k = a then some v else t.get? a := by
  simp only [TreeMap.get?_eq_getElem?, TreeMap.getElem?_insert,
    Std.compare_eq_iff_eq]

theorem get?_erase : (t.erase k).get? a = if k = a then none else t.get? a := by
  simp only [TreeMap.get?_eq_getElem?, TreeMap.getElem?_erase,
    Std.compare_eq_iff_eq]

theorem mem_toList {t : TreeMap String β} {k : String} {v : β} :
    (k, v) ∈ t.toList ↔ t.get? k = some v := by
  rw [TreeMap.mem_toList_iff_getElem?_eq_some, TreeMap.get?_eq_getElem?]

theorem values_eq : t.values = t.toList.map Prod.snd := by
  show t.inner.inner.values = (DTreeMap.Internal.Impl.Const.toList t.inner.inner).map Prod.snd
  rw [DTreeMap.Internal.Impl.values_eq_map_snd,
    DTreeMap.Internal.Impl.Const.toList_eq_toListModel_map, List.map_map]
  rfl

theorem mem_values {t : TreeMap String β} {v : β} : v ∈ t.values ↔ ∃ k, t.get? k = some v := by
  rw [values_eq, List.mem_map]
  constructor
  · rintro ⟨⟨k, v⟩, hmem, rfl⟩
    exact ⟨k, mem_toList.mp hmem⟩
  · rintro ⟨k, hget⟩
    exact ⟨(k, v), mem_toList.mpr hget, rfl⟩

end NameMap
end ScriptHost
