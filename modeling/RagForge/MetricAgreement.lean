import RagForge.Metrics

namespace RagForge.MetricAgreement
open RagForge Metrics
variable (retrieved_ids relevant_ids : List Str) (k : Int)

-- The first place of a hit, counted from 0.
def firstPlace (ids : List Str) : Option Nat := ids.findIdx? fun id => decide (id ∈ relevant_ids.toFinset)

def reciprocalRank (place : Option Nat) : ℚ :=
  match place with
  | none => 0
  | some i => 1 / ((i + 1 : Nat) : ℚ)

theorem hits_none : hits retrieved_ids relevant_ids k = 0 ↔ firstPlace relevant_ids (topK retrieved_ids k) = none := by
  simp [hits,firstPlace,List.countP_eq_zero]

-- Past their early exits the four functions follow one formula each, and at the
-- exits the formula gives the same.
theorem precision_value : precisionAtK retrieved_ids relevant_ids k = .ok ((hits retrieved_ids relevant_ids k : ℚ) / k) := by
  unfold precisionAtK
  split
  · rename_i small
    rw [hits_small _ _ _ small]
    simp
  · rename_i above
    split
    · rename_i nothing
      simp [hits,nothing]
    · have positive : (k : ℚ) ≠ 0 := by exact_mod_cast (not_le.mp above).ne'
      exact if_neg positive

theorem recall_value :
    recallAtK retrieved_ids relevant_ids k = .ok ((hits retrieved_ids relevant_ids k : ℚ) / relevant_ids.toFinset.card) := by
  unfold recallAtK
  split
  · rename_i trivial_
    rw [hits_trivial _ _ _ trivial_]
    simp
  · rename_i useful
    obtain ⟨_,some_⟩ := not_or.mp useful
    have relevant : (relevant_ids.toFinset.card : ℚ) ≠ 0 := by simpa using some_
    exact if_neg relevant

theorem firstHit_value (rank : Nat) (ids : List Str) : firstHit relevant_ids (rank + 1) ids =
    .ok (reciprocalRank ((firstPlace relevant_ids ids).map (rank + ·))) := by
  induction ids generalizing rank with
  | nil => rfl
  | cons doc_id rest ih =>
    unfold firstHit firstPlace
    rw [List.findIdx?_cons]
    by_cases hit : doc_id ∈ relevant_ids
    · have positive : (rank : ℚ) + 1 ≠ 0 := Nat.cast_add_one_ne_zero rank
      simp [hit,divide,reciprocalRank,positive]
    · have later := ih (rank + 1)
      simp only [List.mem_toFinset,hit,if_false,decide_false,Bool.false_eq_true,later,firstPlace,Option.map_map]
      refine congrArg (fun place => Except.ok (reciprocalRank place)) ?_
      exact congrArg (Option.map · _) (funext fun i => by simp only [Function.comp_apply]; omega)

theorem mrr_value : mrrAtK retrieved_ids relevant_ids k = .ok (reciprocalRank (firstPlace relevant_ids (topK retrieved_ids k))) := by
  unfold mrrAtK
  split
  · rename_i trivial_
    rw [(hits_none _ _ _).mp (hits_trivial _ _ _ trivial_)]
    rfl
  · have value := firstHit_value relevant_ids 0 (topK retrieved_ids k)
    rw [show (0 + ·) = (id : Nat → Nat) from funext Nat.zero_add,Option.map_id] at value
    exact value

theorem hit_rate_value : (hitRateAtK retrieved_ids relevant_ids k : ℚ) = if hits retrieved_ids relevant_ids k = 0 then 0 else 1 := by
  unfold hitRateAtK
  split
  · rename_i trivial_
    rw [if_pos (hits_trivial _ _ _ trivial_)]
  · have same : ((topK retrieved_ids k).any fun doc_id => decide (doc_id ∈ relevant_ids.toFinset)) = true ↔
        ¬ hits retrieved_ids relevant_ids k = 0 := by
      simp [hits,List.countP_eq_zero]
    by_cases none_ : hits retrieved_ids relevant_ids k = 0
    · rw [if_pos none_,if_neg (mt same.mp (not_not.mpr none_))]
    · rw [if_neg none_,if_pos (same.mpr none_)]

variable {retrieved_ids relevant_ids k}

theorem reciprocalRank_pos : 0 < reciprocalRank place ↔ place ≠ none := by
  cases place with
  | none => simp [reciprocalRank]
  | some i => simp [reciprocalRank,Nat.cast_add_one_pos]

theorem topK_extends (le : j ≤ k) : topK retrieved_ids j <+: topK retrieved_ids k :=
  List.take_prefix_take_left (Int.toNat_le_toNat le)

theorem hits_mono (le : j ≤ k) : hits retrieved_ids relevant_ids j ≤ hits retrieved_ids relevant_ids k :=
  (topK_extends le).sublist.countP_le

-- A longer list keeps its first hit.
theorem reciprocalRank_mono (le : j ≤ k) : reciprocalRank (firstPlace relevant_ids (topK retrieved_ids j)) ≤
    reciprocalRank (firstPlace relevant_ids (topK retrieved_ids k)) := by
  cases found : firstPlace relevant_ids (topK retrieved_ids j) with
  | none =>
    by_cases none_ : firstPlace relevant_ids (topK retrieved_ids k) = none
    · rw [none_]
    · exact (reciprocalRank_pos.mpr none_).le
  | some i => rw [show firstPlace relevant_ids (topK retrieved_ids k) = some i from (topK_extends le).findIdx?_eq_some found]

-- A relevant document stands at this rank, counted from 1.
def RelevantAt (retrieved_ids relevant_ids : List Str) (rank : Nat) : Prop :=
  1 ≤ rank ∧ ∃ id ∈ relevant_ids, retrieved_ids[rank - 1]? = some id

theorem firstPlace_rank (retrieved_ids relevant_ids : List Str) (k : Int) : match firstPlace relevant_ids (topK retrieved_ids k) with
    | none => ∀ rank : Nat, (rank : Int) ≤ k → ¬ RelevantAt retrieved_ids relevant_ids rank
    | some i => ((i + 1 : Nat) : Int) ≤ k ∧ RelevantAt retrieved_ids relevant_ids (i + 1) ∧
        ∀ rank < i + 1, ¬ RelevantAt retrieved_ids relevant_ids rank := by
  have inside {rank : Nat} (low : 1 ≤ rank) (high : (rank : Int) ≤ k) : (topK retrieved_ids k)[rank - 1]? = retrieved_ids[rank - 1]? :=
    List.getElem?_take_of_lt (by omega)
  split
  · rename_i none_
    rintro rank high ⟨low,id,relevant,there⟩
    rw [← inside low high] at there
    have missed := List.findIdx?_eq_none_iff.mp none_ id (List.mem_of_getElem? there)
    exact of_decide_eq_false missed (List.mem_toFinset.mpr relevant)
  · rename_i i found
    obtain ⟨bound,hit,before⟩ := List.findIdx?_eq_some_iff_getElem.mp found
    have short : (topK retrieved_ids k).length ≤ k.toNat := List.length_take_le _ _
    have within_ : ((i + 1 : Nat) : Int) ≤ k := by omega
    refine ⟨within_,⟨Nat.le_add_left 1 i,_,List.mem_toFinset.mp (of_decide_eq_true hit),?_⟩,?_⟩
    · rw [← inside (Nat.le_add_left 1 i) within_]
      exact List.getElem?_eq_getElem bound
    · rintro rank earlier ⟨low,id,relevant,there⟩
      rw [← inside low (by omega)] at there
      obtain ⟨position,same⟩ := List.getElem?_eq_some_iff.mp there
      exact before (rank - 1) (by omega) (decide_eq_true (List.mem_toFinset.mpr (same ▸ relevant)))

section Signs

theorem hit_rate_one : (hitRateAtK retrieved_ids relevant_ids k : ℚ) = 1 ↔ hits retrieved_ids relevant_ids k ≠ 0 := by
  rw [hit_rate_value]
  split <;> simp [*]

theorem share_pos : 0 < (hits retrieved_ids relevant_ids k : ℚ) / relevant_ids.toFinset.card ↔ hits retrieved_ids relevant_ids k ≠ 0 := by
  constructor
  · intro positive none_
    simp [none_] at positive
  · intro hit
    have some_ : relevant_ids ≠ [] := by
      rintro rfl
      exact hit (hits_irrelevant _ _)
    apply div_pos
    · exact Nat.cast_pos.mpr (Nat.pos_of_ne_zero hit)
    · simpa [Finset.card_pos] using some_

theorem cutoff_pos (hit : hits retrieved_ids relevant_ids k ≠ 0) : (0 : ℚ) < k := by
  have positive : 0 < k := not_le.mp fun small => hit (hits_small _ _ _ small)
  exact_mod_cast positive

theorem precision_pos : 0 < (hits retrieved_ids relevant_ids k : ℚ) / k ↔ hits retrieved_ids relevant_ids k ≠ 0 := by
  constructor
  · intro positive none_
    simp [none_] at positive
  · exact fun hit => div_pos (Nat.cast_pos.mpr (Nat.pos_of_ne_zero hit)) (cutoff_pos hit)

theorem mrr_pos : 0 < reciprocalRank (firstPlace relevant_ids (topK retrieved_ids k)) ↔ hits retrieved_ids relevant_ids k ≠ 0 :=
  reciprocalRank_pos.trans (not_congr (hits_none _ _ _).symm)

theorem precision_hits : (hits retrieved_ids relevant_ids k : ℚ) / k * k = hits retrieved_ids relevant_ids k := by
  by_cases hit : hits retrieved_ids relevant_ids k = 0
  · simp [hit]
  · exact div_mul_cancel₀ _ (cutoff_pos hit).ne'

theorem share_hits : (hits retrieved_ids relevant_ids k : ℚ) / relevant_ids.toFinset.card * relevant_ids.toFinset.card =
    hits retrieved_ids relevant_ids k := by
  by_cases hit : hits retrieved_ids relevant_ids k = 0
  · simp [hit]
  · refine div_mul_cancel₀ _ fun zero => ?_
    have positive := share_pos.mpr hit
    rw [zero,div_zero] at positive
    exact lt_irrefl _ positive

theorem hit_rate_mono (le : j ≤ k) : (hitRateAtK retrieved_ids relevant_ids j : ℚ) ≤ hitRateAtK retrieved_ids relevant_ids k := by
  have fewer : hits retrieved_ids relevant_ids j ≤ hits retrieved_ids relevant_ids k := hits_mono le
  rw [hit_rate_value,hit_rate_value]
  split
  · split
    · exact le_rfl
    · exact zero_le_one
  · rename_i hit
    rw [if_neg (by omega)]

end Signs

theorem metrics_consistent (retrieved_ids relevant_ids : List Str) :
    (∀ k : Int, ∃ precision share mrr : ℚ, precisionAtK retrieved_ids relevant_ids k = .ok precision ∧
      recallAtK retrieved_ids relevant_ids k = .ok share ∧ mrrAtK retrieved_ids relevant_ids k = .ok mrr ∧
      (hitRateAtK retrieved_ids relevant_ids k = (1 : ℚ) ↔ 0 < share) ∧ (0 < share ↔ 0 < precision) ∧ (0 < precision ↔ 0 < mrr) ∧
      ((mrr = 0 ∧ ∀ rank : Nat, (rank : Int) ≤ k → ¬ RelevantAt retrieved_ids relevant_ids rank) ∨
        ∃ r : Nat, (r : Int) ≤ k ∧ RelevantAt retrieved_ids relevant_ids r ∧
          (∀ rank < r, ¬ RelevantAt retrieved_ids relevant_ids rank) ∧ mrr = 1 / (r : ℚ)) ∧
      precision * k = share * relevant_ids.toFinset.card) ∧
    ∀ j k : Int, j ≤ k →
      (hitRateAtK retrieved_ids relevant_ids j : ℚ) ≤ hitRateAtK retrieved_ids relevant_ids k ∧
      (∀ before after : ℚ, recallAtK retrieved_ids relevant_ids j = .ok before →
        recallAtK retrieved_ids relevant_ids k = .ok after → before ≤ after) ∧
      ∀ before after : ℚ, mrrAtK retrieved_ids relevant_ids j = .ok before →
        mrrAtK retrieved_ids relevant_ids k = .ok after → before ≤ after := by
  constructor
  · intro k
    refine ⟨_,_,_,precision_value _ _ _,recall_value _ _ _,mrr_value _ _ _,?_,?_,?_,?_,?_⟩
    · rw [hit_rate_one,share_pos]
    · rw [share_pos,precision_pos]
    · rw [precision_pos,mrr_pos]
    · have first := firstPlace_rank retrieved_ids relevant_ids k
      cases found : firstPlace relevant_ids (topK retrieved_ids k) with
      | none =>
        rw [found] at first
        exact .inl ⟨rfl,first⟩
      | some i =>
        rw [found] at first
        obtain ⟨high,here,before⟩ := first
        exact .inr ⟨i + 1,high,here,before,rfl⟩
    · rw [precision_hits,share_hits]
  · intro j k le
    refine ⟨hit_rate_mono le,?_,?_⟩
    · intro before after first second
      cases (recall_value _ _ _).symm.trans first
      cases (recall_value _ _ _).symm.trans second
      apply div_le_div_of_nonneg_right
      · exact Nat.cast_le.mpr (hits_mono le)
      · exact Nat.cast_nonneg _
    · intro before after first second
      cases (mrr_value _ _ _).symm.trans first
      cases (mrr_value _ _ _).symm.trans second
      exact reciprocalRank_mono le

-- A cutoff beyond the list, with a relevant document never retrieved.
example : hits ["d1".toList,"d2".toList] ["d2".toList,"d3".toList] 5 = 1 ∧
    firstPlace ["d2".toList,"d3".toList] (topK ["d1".toList,"d2".toList] 5) = some 1 := by decide

end RagForge.MetricAgreement
