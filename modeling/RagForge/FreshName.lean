import Mathlib.Data.List.Dedup
import Mathlib.Data.List.Nodup
import Mathlib.Data.List.Perm.Subperm

namespace FreshName

-- The first of a sequence of names that is not in use, looked for from the
-- n-th on. One unit of fuel buys one look.
variable {α : Type} [DecidableEq α] {name : Nat → α} {used : List α}

def search (name : Nat → α) (used : List α) : Nat → Nat → Option Nat
  | 0,_ => none
  | fuel+1,n => if name n ∈ used then search name used fuel (n + 1) else some n

theorem search_least (found : search name used fuel n = some m) :
    n ≤ m ∧ m < n + fuel ∧ name m ∉ used ∧ ∀ k, n ≤ k → k < m → name k ∈ used := by
  induction fuel generalizing n with
  | zero => cases found
  | succ fuel ih =>
    unfold search at found
    split at found
    · rename_i taken
      obtain ⟨later,near,free,below⟩ := ih found
      refine ⟨by omega,by omega,free,fun k low high => ?_⟩
      rcases Nat.eq_or_lt_of_le low with rfl | above
      · exact taken
      · exact below k above high
    · rename_i free
      cases found
      exact ⟨Nat.le_refl _,by omega,free,fun k low high => absurd high (by omega)⟩

theorem search_none (exhausted : search name used fuel n = none) : ∀ k < fuel, name (n + k) ∈ used := by
  induction fuel generalizing n with
  | zero => exact fun k below => absurd below (Nat.not_lt_zero k)
  | succ fuel ih =>
    unfold search at exhausted
    split at exhausted
    · rename_i taken
      intro k below
      cases k with
      | zero => exact taken
      | succ k => exact Nat.add_right_comm n 1 k ▸ ih exhausted k (by omega)
    · cases exhausted

-- Distinct names cannot all be in use once there are more of them than names in use.
theorem search_total (distinct : Function.Injective name) (enough : used.dedup.length < fuel) (n : Nat) :
    ∃ m, search name used fuel n = some m := by
  cases searched : search name used fuel n with
  | some m => exact ⟨m,rfl⟩
  | none =>
    have apart : ((List.range fuel).map fun k => name (n + k)).Nodup :=
      List.nodup_range.map fun a b same => Nat.add_left_cancel (distinct same)
    have inside : ((List.range fuel).map fun k => name (n + k)) ⊆ used.dedup := by
      intro x member
      obtain ⟨k,below,rfl⟩ := List.mem_map.mp member
      exact List.mem_dedup.mpr (search_none searched k (List.mem_range.mp below))
    have bound := (apart.subperm inside).length_le
    rw [List.length_map,List.length_range] at bound
    omega

end FreshName
