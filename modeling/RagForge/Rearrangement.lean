import Mathlib.Algebra.BigOperators.Group.Finset.Basic
import Mathlib.Algebra.Order.BigOperators.Group.Finset
import Mathlib.Algebra.Order.BigOperators.Group.List
import Mathlib.Algebra.Order.Ring.Defs
import Mathlib.Data.List.Perm.Subperm
import Mathlib.Tactic.Ring

-- Which order of values a decreasing weight prefers.
namespace Rearrangement
open Finset

section Weights
variable {R : Type} [CommRing R] [LinearOrder R] [IsStrictOrderedRing R] {w d : Nat → R}

omit [LinearOrder R] [IsStrictOrderedRing R] in
-- Summation by parts.
theorem by_parts (w d : Nat → R) (n : Nat) :
    ∑ i ∈ range n, w i * d i =
      w n * ∑ i ∈ range n, d i + ∑ i ∈ range n, (w i - w (i + 1)) * ∑ j ∈ range (i + 1), d j := by
  induction n with
  | zero => simp
  | succ n ih =>
    rw [sum_range_succ,ih,sum_range_succ (fun i => (w i - w (i + 1)) * ∑ j ∈ range (i + 1), d j),sum_range_succ d]
    ring

theorem weighted_nonneg (positive : ∀ i, 0 < w i) (decreasing : ∀ i, w (i + 1) < w i)
    (ahead : ∀ j ≤ n, 0 ≤ ∑ i ∈ range j, d i) : 0 ≤ ∑ i ∈ range n, w i * d i := by
  rw [by_parts]
  apply add_nonneg
  · exact mul_nonneg (positive n).le (ahead n le_rfl)
  · apply sum_nonneg
    intro i member
    exact mul_nonneg (sub_nonneg.mpr (decreasing i).le) (ahead _ (mem_range.mp member))

-- Nothing cancels: a weighted difference of zero is no difference at all.
theorem weighted_zero (positive : ∀ i, 0 < w i) (decreasing : ∀ i, w (i + 1) < w i)
    (ahead : ∀ j ≤ n, 0 ≤ ∑ i ∈ range j, d i) : ∑ i ∈ range n, w i * d i = 0 ↔ ∀ i < n, d i = 0 := by
  constructor
  · intro level
    have terms : ∀ i ∈ range n, 0 ≤ (w i - w (i + 1)) * ∑ j ∈ range (i + 1), d j := fun i member =>
      mul_nonneg (sub_nonneg.mpr (decreasing i).le) (ahead _ (mem_range.mp member))
    rw [by_parts] at level
    have none_ := ((add_eq_zero_iff_of_nonneg (mul_nonneg (positive n).le (ahead n le_rfl)) (sum_nonneg terms)).mp level).2
    have partial_ : ∀ j ≤ n, ∑ i ∈ range j, d i = 0 := by
      intro j bound
      cases j with
      | zero => exact sum_range_zero _
      | succ j =>
        have product := (sum_eq_zero_iff_of_nonneg terms).mp none_ j (mem_range.mpr bound)
        exact (mul_eq_zero.mp product).resolve_left (sub_pos.mpr (decreasing j)).ne'
    intro i bound
    have before := partial_ i bound.le
    have after := partial_ (i + 1) bound
    rw [sum_range_succ,before,zero_add] at after
    exact after
  · intro zero
    exact sum_eq_zero fun i member => by rw [zero i (mem_range.mp member),mul_zero]

end Weights

section Largest
variable {M : Type} [AddCommMonoid M] [LinearOrder M] [IsOrderedAddMonoid M]

-- Entry `i` of a list that goes on with zeros.
def entry (xs : List M) (i : Nat) : M := xs[i]?.getD 0

omit [LinearOrder M] [IsOrderedAddMonoid M] in
theorem sum_entry (xs : List M) (n : Nat) : ∑ i ∈ range n, entry xs i = (xs.take n).sum := by
  induction n with
  | zero => simp
  | succ n ih =>
    rw [sum_range_succ,ih,List.take_add_one,List.sum_append,entry]
    cases xs[n]? <;> simp

omit [LinearOrder M] [IsOrderedAddMonoid M] in
theorem entry_take {xs : List M} (before : i < n) : entry (xs.take n) i = entry xs i := by
  rw [entry,List.getElem?_take_of_lt before,entry]

omit [LinearOrder M] [IsOrderedAddMonoid M] in
theorem entry_map {f : M → M} (zero : f 0 = 0) (xs : List M) (i : Nat) : entry (xs.map f) i = f (entry xs i) := by
  rw [entry,entry,List.getElem?_map]
  cases xs[i]? with
  | none => exact zero.symm
  | some x => rfl

-- No choice of `n` values sums to more than the `n` largest.
theorem sum_le_largest {xs ys : List M} (chosen : xs.Subperm ys) (descending : ys.Pairwise fun a b => b ≤ a)
    (nonneg : ∀ y ∈ ys, 0 ≤ y) (few : xs.length ≤ n) : xs.sum ≤ (ys.take n).sum := by
  induction ys generalizing xs n with
  | nil => simp [List.subperm_nil.mp chosen]
  | cons y rest ih =>
    obtain ⟨below,descending⟩ := List.pairwise_cons.mp descending
    have later : ∀ z ∈ rest, 0 ≤ z := fun z member => nonneg z (List.mem_cons_of_mem _ member)
    by_cases taken : y ∈ xs
    · -- the largest itself is among the chosen
      cases n with
      | zero => rw [List.length_eq_zero_iff.mp (Nat.le_zero.mp few)] at taken; cases taken
      | succ n =>
        have others : (xs.erase y).Subperm rest := by simpa using chosen.erase y
        have size := List.length_erase_of_mem taken
        rw [List.take_succ_cons,List.sum_cons,(List.perm_cons_erase taken).sum_eq,List.sum_cons]
        exact add_le_add_right (ih others descending later (by omega)) y
    · have inside : xs.Subperm rest := by
        have erased := chosen.erase y
        rwa [List.erase_of_not_mem taken,List.erase_cons_head] at erased
      cases xs with
      | nil => simpa using List.sum_nonneg fun z member => nonneg z (List.mem_of_mem_take member)
      | cons x xs =>
        cases n with
        | zero => cases few
        | succ n =>
          have others : xs.Subperm rest := (List.sublist_cons_self x xs).subperm.trans inside
          rw [List.take_succ_cons,List.sum_cons,List.sum_cons]
          exact add_le_add (below x (inside.subset List.mem_cons_self)) (ih others descending later (Nat.succ_le_succ_iff.mp few))

end Largest
end Rearrangement
