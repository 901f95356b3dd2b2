import Mathlib.Data.List.Nodup
import Formulary.Bindings

/-!
# Sorted names

Names are shown sorted and each once.  This module says that such a list depends
only on which names there are.

Main results:

- Theorem `nodup_sortedNames`: every name is listed once.
- Theorem `sortedNames_congr`: the same names are listed in the same way.
-/

namespace Formulary

/-- Erasing duplicates leaves none. -/
theorem nodup_eraseDups {β : Type} [BEq β] [LawfulBEq β] (items : List β) :
    items.eraseDups.Nodup := by
  induction size : items.length using Nat.strongRecOn generalizing items with
  | ind length ih =>
    cases items with
    | nil => exact List.nodup_nil
    | cons item rest =>
      rw [List.eraseDups_cons, List.nodup_cons, List.mem_eraseDups]
      refine ⟨by simp, ih _ ?_ _ rfl⟩
      rw [← size, List.length_cons]
      exact Nat.lt_succ_of_le (List.length_filter_le _ _)

/-- Every name is listed once. -/
theorem nodup_sortedNames (names : List String) : (sortedNames names).Nodup :=
  (List.mergeSort_perm _ _).nodup_iff.2 (nodup_eraseDups names)

/-- Names are listed in increasing order. -/
theorem pairwise_sortedNames (names : List String) :
    (sortedNames names).Pairwise (· ≤ ·) := by
  have sorted := @List.pairwise_mergeSort _ (fun a b : String => decide (a ≤ b))
    (fun a b c first second => by
      simp only [decide_eq_true_eq] at first second ⊢
      exact String.le_trans first second)
    (fun a b => by simpa using String.le_total a b) names.eraseDups
  exact sorted.imp of_decide_eq_true

/-- The same names are listed in the same way. -/
theorem sortedNames_congr {names others : List String}
    (same : ∀ name, name ∈ names ↔ name ∈ others) : sortedNames names = sortedNames others := by
  have permuted : (sortedNames names).Perm (sortedNames others) := by
    rw [List.perm_ext_iff_of_nodup (nodup_sortedNames names) (nodup_sortedNames others)]
    intro name
    rw [mem_sortedNames, mem_sortedNames, same]
  exact permuted.eq_of_pairwise (fun _ _ _ _ => String.le_antisymm)
    (pairwise_sortedNames names) (pairwise_sortedNames others)

end Formulary
