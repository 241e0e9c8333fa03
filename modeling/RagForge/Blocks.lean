import Mathlib.Data.List.Basic

namespace Blocks

-- `range(0, count, size)`
def starts (size count : Nat) : List Nat := List.range' 0 ((count + size - 1) / size) size

-- `xs[start : start + size]`
def slice (size : Nat) (xs : List α) (start : Nat) : List α := (xs.drop start).take size

-- A list cut into blocks of `size`; the last one may be shorter.
def blocks (size : Nat) (xs : List α) : List (List α) := (starts size xs.length).map (slice size xs)

variable {size : Nat}

theorem starts_succ (positive : 0 < size) (some_ : 0 < count) :
    starts size count = 0 :: (starts size (count - size)).map (size + ·) := by
  have number : (count + size - 1) / size = (count - size + size - 1) / size + 1 := by
    by_cases one : count ≤ size
    · rw [Nat.sub_eq_zero_of_le one,Nat.zero_add,Nat.div_eq_of_lt (by omega : size - 1 < size),
        Nat.div_eq_of_lt_le (by omega : (0 + 1) * size ≤ count + size - 1) (by omega)]
    · rw [← Nat.add_div_right _ positive]
      congr 1
      omega
  unfold starts
  rw [number,List.range'_succ,Nat.zero_add,List.map_add_range']
  rfl

theorem blocks_nil (positive : 0 < size) : blocks size ([] : List α) = [] := by
  have none_ : (([] : List α).length + size - 1) / size = 0 := Nat.div_eq_of_lt (by rw [List.length_nil]; omega)
  rw [blocks,starts,none_]
  rfl

theorem blocks_cons (positive : 0 < size) {xs : List α} (some_ : xs ≠ []) :
    blocks size xs = xs.take size :: blocks size (xs.drop size) := by
  have further : slice size xs ∘ (size + ·) = slice size (xs.drop size) := by
    funext start
    rw [Function.comp_apply,slice,slice,List.drop_drop]
  unfold blocks
  rw [starts_succ positive (List.length_pos_iff.mpr some_),List.map_cons,List.map_map,further,List.length_drop]
  rfl

-- What holds of no block and of one block more holds of the whole cut.
theorem blocks_induct (positive : 0 < size) {motive : List α → List (List α) → Prop} (nil : motive [] [])
    (cons : ∀ xs, xs ≠ [] → motive (xs.drop size) (blocks size (xs.drop size)) →
      motive xs (xs.take size :: blocks size (xs.drop size))) (xs : List α) : motive xs (blocks size xs) := by
  induction count : xs.length using Nat.strongRecOn generalizing xs with
  | _ count ih =>
    by_cases none_ : xs = []
    · rw [none_,blocks_nil positive]
      exact nil
    · have some_ := List.length_pos_iff.mpr none_
      rw [blocks_cons positive none_]
      exact cons xs none_ (ih _ (by rw [List.length_drop]; omega) _ rfl)

theorem blocks_flatten (positive : 0 < size) (xs : List α) : (blocks size xs).flatten = xs := by
  induction xs using blocks_induct positive with
  | nil => rfl
  | cons xs _ ih => rw [List.flatten_cons,ih,List.take_append_drop]

theorem blocks_bounded (positive : 0 < size) (xs : List α) : ∀ block ∈ blocks size xs, block.length ≤ size ∧ block ≠ [] := by
  induction xs using blocks_induct positive with
  | nil => nofun
  | cons xs some_ ih =>
    intro block member
    rcases List.mem_cons.mp member with rfl | later
    · exact ⟨List.length_take_le _ _,by simp [Nat.ne_of_gt positive,some_]⟩
    · exact ih block later

end Blocks
