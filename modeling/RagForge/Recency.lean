import Mathlib.Data.Finset.Card
import Mathlib.Data.List.Induction
import Mathlib.Data.List.Nodup

-- Keys by their last use, and what the most recent `n` of them are.
namespace Recency
variable {κ : Type} [DecidableEq κ]

def bump (key : κ) (keys : List κ) : List κ := key :: keys.filter (· ≠ key)

-- The keys of a log of uses, the last one used first.
def recents (log : List κ) : List κ := log.foldl (fun keys key => bump key keys) []

-- The distinct other keys used since the last use of `key`.
def since (key : κ) (log : List κ) : Finset κ := (log.reverse.takeWhile (· ≠ key)).toFinset

@[simp] theorem recents_snoc (log : List κ) (key : κ) : recents (log ++ [key]) = bump key (recents log) := by
  simp [recents]

theorem mem_bump {keys : List κ} : other ∈ bump key keys ↔ other = key ∨ other ∈ keys := by
  by_cases same : other = key <;> simp [bump,same]

theorem mem_recents {log : List κ} : key ∈ recents log ↔ key ∈ log := by
  induction log using List.reverseRecOn with
  | nil => rfl
  | append_singleton log last ih => simp [mem_bump,ih,or_comm]

theorem recents_nodup (log : List κ) : (recents log).Nodup := by
  induction log using List.reverseRecOn with
  | nil => exact List.nodup_nil
  | append_singleton log last ih =>
    rw [recents_snoc]
    exact List.nodup_cons.mpr ⟨by simp,ih.filter _⟩

theorem takeWhile_filter {keys : List κ} (other : key ≠ last) :
    (keys.filter (· ≠ last)).takeWhile (· ≠ key) = (keys.takeWhile (· ≠ key)).filter (· ≠ last) := by
  induction keys with
  | nil => rfl
  | cons head rest ih =>
    by_cases here : head = key
    · subst here
      simp [other]
    · by_cases gone : head = last
      · subst gone
        simpa [here] using ih
      · simpa [here,gone] using ih

theorem ahead_since (key : κ) (log : List κ) : ((recents log).takeWhile (· ≠ key)).toFinset = since key log := by
  induction log using List.reverseRecOn with
  | nil => rfl
  | append_singleton log last ih =>
    rw [recents_snoc,bump,since,List.reverse_append,List.reverse_singleton,List.singleton_append]
    by_cases here : last = key
    · simp [here]
    · have other : key ≠ last := fun same => here same.symm
      rw [List.takeWhile_cons_of_pos (by simpa using here),List.takeWhile_cons_of_pos (by simpa using here),
        takeWhile_filter other,List.toFinset_cons,List.toFinset_cons,List.toFinset_filter,ih,since]
      ext other
      by_cases same : other = last <;> simp [same]

theorem mem_take_iff {keys : List κ} (distinct : keys.Nodup) :
    key ∈ keys.take n ↔ key ∈ keys ∧ (keys.takeWhile (· ≠ key)).length < n := by
  induction keys generalizing n with
  | nil => simp
  | cons head rest ih =>
    obtain ⟨fresh,distinct⟩ := List.nodup_cons.mp distinct
    cases n with
    | zero => simp
    | succ n =>
      by_cases here : head = key
      · simp [here]
      · have away : key ≠ head := fun same => here same.symm
        simp [here,away,ih distinct]

-- A key is among the most recent `n` exactly if fewer than `n` others have been
-- used since.
theorem recent_iff {log : List κ} : key ∈ (recents log).take n ↔ key ∈ log ∧ (since key log).card < n := by
  have distinct : ((recents log).takeWhile (· ≠ key)).Nodup := (recents_nodup log).sublist (List.takeWhile_sublist _)
  rw [mem_take_iff (recents_nodup log),mem_recents,← ahead_since,List.toFinset_card_of_nodup distinct]

-- A use of a key that is not kept pushes out the last one.
theorem bump_take {keys : List κ} (distinct : keys.Nodup) (key : κ) (n : Nat) :
    (bump key keys).take n = (bump key (keys.take n)).take n := by
  have shrink : ∀ (n : Nat) (keys : List κ), keys.Nodup → (keys.filter (· ≠ key)).take n = ((keys.take (n + 1)).filter (· ≠ key)).take n := by
    intro n keys distinct
    induction keys generalizing n with
    | nil => simp
    | cons head rest ih =>
      obtain ⟨fresh,distinct⟩ := List.nodup_cons.mp distinct
      by_cases here : head = key
      · subst here
        have whole (xs : List κ) (sub : xs ⊆ rest) : xs.filter (· ≠ head) = xs :=
          List.filter_eq_self.mpr fun other member => decide_eq_true fun same => fresh (same ▸ sub member)
        rw [List.take_succ_cons,List.filter_cons_of_neg (by simp),List.filter_cons_of_neg (by simp),whole rest (List.Subset.refl _),
          whole _ (List.take_subset _ _),List.take_take,min_self]
      · cases n with
        | zero => rfl
        | succ n => simpa [here] using ih n distinct
  cases n with
  | zero => rfl
  | succ n =>
    rw [bump,bump,List.take_succ_cons,List.take_succ_cons,shrink n keys distinct]

end Recency
