import Mathlib.Data.List.Sort

namespace Recent
variable {α : Type}

-- The last `n` entries, all of them if there are no more.
def last (n : Nat) (xs : List α) : List α := xs.drop (xs.length - n)

theorem last_append_of_le {xs ys : List α} (inside : n ≤ ys.length) : last n (xs ++ ys) = last n ys := by
  unfold last
  rw [List.length_append,List.drop_append,List.drop_of_length_le (by omega),List.nil_append]
  congr 1
  omega

theorem last_append_of_ge {xs ys : List α} (beyond : ys.length ≤ n) : last n (xs ++ ys) = last (n - ys.length) xs ++ ys := by
  unfold last
  rw [List.length_append,List.drop_append]
  congr 1
  · congr 1
    omega
  · rw [show xs.length + ys.length - n - xs.length = 0 by omega,List.drop_zero]

theorem last_of_length_le {xs : List α} (short : xs.length ≤ n) : last n xs = xs := by
  unfold last
  rw [Nat.sub_eq_zero_of_le short,List.drop_zero]

-- Entries in the order of their keys: sorting them newest first and taking `n`
-- gives the last `n`, backwards.
theorem sorted_desc (key : α → Nat) {xs : List α} (sorted : xs.Pairwise fun a b => key a < key b) :
    xs.insertionSort (fun a b => key b ≤ key a) = xs.reverse := by
  have total : Std.Total fun a b : α => key b ≤ key a := ⟨fun a b => Nat.le_total _ _⟩
  have trans : IsTrans α fun a b => key b ≤ key a := ⟨fun _ _ _ first second => Nat.le_trans second first⟩
  have apart : (xs.map key).Nodup := List.pairwise_map.mpr (sorted.imp Nat.ne_of_lt)
  refine List.Perm.eq_of_pairwise ?_ (List.pairwise_insertionSort _ xs) ?_
    ((List.perm_insertionSort _ xs).trans xs.reverse_perm.symm)
  · intro a b left right first second
    have inside := (List.mem_insertionSort _).mp left
    exact List.inj_on_of_nodup_map apart inside (List.mem_reverse.mp right) (Nat.le_antisymm second first)
  · exact List.pairwise_reverse.mpr (sorted.imp Nat.le_of_lt)

theorem latest_eq_last (key : α → Nat) {xs : List α} (sorted : xs.Pairwise fun a b => key a < key b) (n : Nat) :
    ((xs.insertionSort fun a b => key b ≤ key a).take n).reverse = last n xs := by
  rw [sorted_desc key sorted,List.take_reverse,List.reverse_reverse]
  rfl

end Recent
