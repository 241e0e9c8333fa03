import Mathlib.Data.List.Nodup
import Mathlib.Data.List.Sort

namespace RankedList

-- A stable sort by score, best first, and where it puts each entry.
variable {α β : Type} [LinearOrder β] (score : α → β)

def ranked (entries : List α) : List α := entries.insertionSort fun a b => score b ≤ score a

-- The entries ranked before the one at place `i`: the better ones, and of the
-- equally good ones those that stand before it.
def preceding (entries : List α) (i : Nat) (entry : α) : Nat :=
  (entries.take i).countP (fun other => score entry ≤ score other) +
    (entries.drop (i + 1)).countP fun other => score entry < score other

variable {score}

theorem preceding_map (entries : List α) (i : Nat) (entry : α) :
    preceding score entries i entry = preceding id (entries.map score) i (score entry) := by
  simp [preceding,← List.map_take,← List.map_drop,List.countP_map,Function.comp_def]

theorem ranked_sorted (score : α → β) (entries : List α) : (ranked score entries).Pairwise fun a b => score b ≤ score a := by
  have : Std.Total (fun a b : α => score b ≤ score a) := ⟨fun a b => le_total (score b) (score a)⟩
  have : IsTrans α fun a b => score b ≤ score a := ⟨fun _ _ _ first second => second.trans first⟩
  exact List.pairwise_insertionSort _ _

theorem ranked_perm (entries : List α) : (ranked score entries).Perm entries := List.perm_insertionSort _ _

theorem ranked_self (sorted : entries.Pairwise fun a b => score b ≤ score a) : ranked score entries = entries :=
  List.Pairwise.insertionSort_eq sorted

-- A new entry goes behind the better ones.
theorem insert_place {sorted : List α} (x : α) (descending : sorted.Pairwise fun a b => score b ≤ score a) :
    (sorted.orderedInsert (fun a b => score b ≤ score a) x)[sorted.countP fun other => score x < score other]? = some x := by
  induction sorted with
  | nil => simp
  | cons b rest ih =>
    obtain ⟨below,descending⟩ := List.pairwise_cons.mp descending
    rw [List.orderedInsert_cons]
    by_cases here : score b ≤ score x
    · -- nothing from here on is better than the new entry
      have none_ : (b :: rest).countP (fun other => score x < score other) = 0 := by
        refine List.countP_eq_zero.mpr fun other member => ?_
        rcases List.mem_cons.mp member with rfl | later
        · simpa using here
        · simpa using (below other later).trans here
      rw [if_pos here,none_]
      rfl
    · rw [if_neg here,List.countP_cons_of_pos (by simpa using here)]
      simpa using ih descending

-- An entry moves one place back exactly if the new one is as good.
theorem insert_shift {sorted : List α} (x : α) (descending : sorted.Pairwise fun a b => score b ≤ score a)
    (at_ : sorted[p]? = some y) :
    (sorted.orderedInsert (fun a b => score b ≤ score a) x)[p + if score y ≤ score x then 1 else 0]? = some y := by
  induction sorted generalizing p with
  | nil => simp at at_
  | cons b rest ih =>
    obtain ⟨below,descending⟩ := List.pairwise_cons.mp descending
    rw [List.orderedInsert_cons]
    by_cases here : score b ≤ score x
    · have worse : score y ≤ score x := by
        rcases List.mem_cons.mp (List.mem_of_getElem? at_) with rfl | later
        · exact here
        · exact (below y later).trans here
      rw [if_pos here,if_pos worse]
      exact at_
    · rw [if_neg here]
      cases p with
      | zero =>
        cases Option.some.inj at_
        rw [if_neg here]
        rfl
      | succ p =>
        rw [Nat.add_right_comm]
        exact ih descending at_

theorem ranked_place {entries : List α} (at_ : entries[i]? = some entry) :
    (ranked score entries)[preceding score entries i entry]? = some entry := by
  induction entries generalizing i with
  | nil => simp at at_
  | cons x rest ih =>
    cases i with
    | zero =>
      cases Option.some.inj at_
      have place := insert_place entry (ranked_sorted score rest)
      rw [(ranked_perm rest).countP_eq] at place
      have count : preceding score (entry :: rest) 0 entry = rest.countP fun other => score entry < score other := by
        simp [preceding]
      rw [count]
      exact place
    | succ i =>
      have place := insert_shift x (ranked_sorted score rest) (ih at_)
      have count : preceding score (x :: rest) (i + 1) entry =
          preceding score rest i entry + if score entry ≤ score x then 1 else 0 := by
        simp only [preceding,List.take_succ_cons,List.drop_succ_cons,List.countP_cons,decide_eq_true_eq]
        omega
      rw [count]
      exact place

-- The best `k` hold an entry exactly if fewer than `k` are ranked before it.
theorem mem_best {entries : List α} (distinct : entries.Nodup) (at_ : entries[i]? = some entry) :
    entry ∈ (ranked score entries).take k ↔ preceding score entries i entry < k := by
  have place : (ranked score entries)[preceding score entries i entry]? = some entry := ranked_place at_
  constructor
  · intro member
    obtain ⟨q,small,found⟩ := List.mem_take_iff_getElem.mp member
    have apart : (ranked score entries).Nodup := (ranked_perm entries).nodup_iff.mpr distinct
    have there : (ranked score entries)[q]? = some entry := List.getElem?_eq_some_iff.mpr ⟨_,found⟩
    have same := (List.getElem?_inj (List.getElem?_eq_some_iff.mp there).1 apart).mp (there.trans place.symm)
    omega
  · intro small
    obtain ⟨bound,found⟩ := List.getElem?_eq_some_iff.mp place
    exact List.mem_take_iff_getElem.mpr ⟨_,by omega,found⟩

-- Equally good entries keep the order they had.
theorem insert_stable {R : α → α → Prop} {sorted : List α} {x : α}
    (descending : sorted.Pairwise fun a b => score b < score a ∨ score a = score b ∧ R a b)
    (first : ∀ other ∈ sorted, R x other) :
    (sorted.orderedInsert (fun a b => score b ≤ score a) x).Pairwise fun a b => score b < score a ∨ score a = score b ∧ R a b := by
  induction sorted with
  | nil => simp
  | cons b rest ih =>
    obtain ⟨below,descending⟩ := List.pairwise_cons.mp descending
    rw [List.orderedInsert_cons]
    split
    · rename_i here
      refine List.pairwise_cons.mpr ⟨fun other member => ?_,List.pairwise_cons.mpr ⟨below,descending⟩⟩
      have worse : score other ≤ score x := by
        rcases List.mem_cons.mp member with rfl | later
        · exact here
        · exact ((below other later).elim le_of_lt fun level => level.1.ge).trans here
      rcases worse.lt_or_eq with less | level
      · exact .inl less
      · exact .inr ⟨level.symm,first other member⟩
    · rename_i here
      refine List.pairwise_cons.mpr ⟨fun other member => ?_,ih descending fun other later => first other (List.mem_cons_of_mem _ later)⟩
      rcases (List.mem_orderedInsert _).mp member with rfl | later
      · exact .inl (not_le.mp here)
      · exact below other later

theorem ranked_stable {R : α → α → Prop} {entries : List α} (order : entries.Pairwise R) :
    (ranked score entries).Pairwise fun a b => score b < score a ∨ score a = score b ∧ R a b := by
  induction entries with
  | nil => exact .nil
  | cons x rest ih =>
    obtain ⟨first,order⟩ := List.pairwise_cons.mp order
    exact insert_stable (ih order) fun other member => first other ((ranked_perm rest).mem_iff.mp member)

-- `a` stands before `b`.
def Before [DecidableEq γ] (a b : γ) (xs : List γ) : Prop := a ∈ xs ∧ b ∈ xs ∧ xs.idxOf a < xs.idxOf b

instance [DecidableEq γ] (a b : γ) (xs : List γ) : Decidable (Before a b xs) := inferInstanceAs (Decidable (_ ∧ _))

-- In a descending list the better one stands first.
theorem before_better [DecidableEq γ] {name : α → γ} {entries : List α} (descending : entries.Pairwise fun a b => score b ≤ score a)
    (better : α) (worse : α) (first : better ∈ entries) (second : worse ∈ entries) (less : score worse < score better)
    (distinct : (entries.map name).Nodup) : Before (name better) (name worse) (entries.map name) := by
  obtain ⟨i,bound,rfl⟩ := List.mem_iff_getElem.mp first
  obtain ⟨j,bound',rfl⟩ := List.mem_iff_getElem.mp second
  refine ⟨List.mem_map.mpr ⟨_,first,rfl⟩,List.mem_map.mpr ⟨_,second,rfl⟩,?_⟩
  have here := distinct.idxOf_getElem i (by simpa using bound)
  have there := distinct.idxOf_getElem j (by simpa using bound')
  rw [List.getElem_map] at here there
  rw [here,there]
  rcases Nat.lt_trichotomy i j with before | rfl | after
  · exact before
  · exact absurd less (lt_irrefl _)
  · exact absurd less (not_lt.mpr (List.pairwise_iff_getElem.mp descending j i bound' bound after))

end RankedList
