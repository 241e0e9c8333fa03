import Mathlib.Data.List.Nodup
import Mathlib.Order.Basic

namespace Keyed

-- Rows with pairwise distinct keys: a key finds its one row, in any order.
variable {α κ : Type} [DecidableEq κ] {key : α → κ} {rows : List α}

theorem find_iff (distinct : (rows.map key).Nodup) (k : κ) : rows.find? (key · = k) = some row ↔ row ∈ rows ∧ key row = k := by
  constructor
  · exact fun found => ⟨List.mem_of_find?_eq_some found,by simpa using List.find?_some found⟩
  · rintro ⟨member,same⟩
    obtain ⟨other,found⟩ := Option.isSome_iff_exists.mp
      ((List.find?_isSome (p := fun entry => decide (key entry = k))).mpr ⟨row,member,decide_eq_true same⟩)
    have there : key other = k := by simpa using List.find?_some found
    rw [found,List.inj_on_of_nodup_map distinct (List.mem_of_find?_eq_some found) member (there.trans same.symm)]

theorem find_perm {others : List α} (perm : rows.Perm others) (distinct : (rows.map key).Nodup) (k : κ) :
    rows.find? (key · = k) = others.find? (key · = k) := by
  apply Option.ext
  intro row
  rw [find_iff distinct,find_iff ((perm.map key).nodup_iff.mp distinct),perm.mem_iff]

-- Rows at different places of an order have one arrangement by their places.
theorem sorted_unique {π : Type} [PartialOrder π] {place : α → π} {xs ys : List α} (perm : xs.Perm ys)
    (ordered : xs.Pairwise fun a b => place a ≤ place b) (strict : ys.Pairwise fun a b => place a < place b) : xs = ys := by
  have apart : (ys.map place).Nodup := List.pairwise_map.mpr (strict.imp ne_of_lt)
  refine List.Perm.eq_of_pairwise ?_ ordered (strict.imp le_of_lt) perm
  intro a b left right first second
  exact List.inj_on_of_nodup_map apart (perm.subset left) right (le_antisymm first second)

end Keyed
