import Mathlib.Algebra.Order.Field.Basic
import Mathlib.Algebra.Order.Field.Rat
import Mathlib.Data.Finset.Card
import Mathlib.Data.List.Sort
import RagForge.Fallible
import RagForge.Floating
import RagForge.OrderedDict
import RagForge.PyText
import RagForge.RankedList
import RagForge.Rearrangement
import RagForge.Rounding

namespace RagForge.Metrics
open RagForge OrderedDict Rearrangement Rounding Floating Fallible

inductive PyError where
  | ZeroDivisionError
  | ValueError
  | KeyError
  | OverflowError

-- The integers that `float(k)` takes, of exact numbers and of doubles.
class FloatRange (R : Type) where
  fits : Int → Bool

-- `round(x, digits)`
class RoundDigits (R : Type) [Zero R] [One R] [LinearOrder R] where
  round : Nat → R → R
  unit : ∀ digits {x}, 0 ≤ x → x ≤ 1 → 0 ≤ round digits x ∧ round digits x ≤ 1

instance (R : Type) [Field R] : FloatRange R := ⟨fun _ => true⟩

instance (R : Type) [Field R] [LinearOrder R] [IsStrictOrderedRing R] [FloorRing R] : RoundDigits R where
  round := roundTo
  unit digits := roundTo_unit digits

abbrev Double := Number binary64

-- The least integer that rounds beyond the largest double.
def floatBound : Nat := 2 ^ 1024 - 2 ^ 970

noncomputable instance : FloatRange Double := ⟨fun k => decide (k.natAbs < floatBound)⟩

noncomputable instance : RoundDigits Double where
  round := Number.roundTo
  unit digits := Number.roundTo_unit digits

-- `2.0 ** x`, `math.log2`, `math.log` and `sum` on a list of floats.
structure Library (R : Type) where
  exp2 : R → R
  log2_ : R → R
  log_ : R → R
  sum : List R → R

-- The same on a number type of exact arithmetic.
structure Maths (R : Type) [Field R] [LinearOrder R] extends Library R where
  exp2_above : ∀ {x}, 0 < x → 1 < exp2 x
  exp2_rise : ∀ {x y}, 0 < x → x < y → exp2 x < exp2 y
  log2_above : ∀ {x}, 1 < x → 0 < log2_ x
  log2_rise : ∀ {x y}, 1 < x → x < y → log2_ x < log2_ y

instance (R : Type) [Field R] [LinearOrder R] : CoeOut (Maths R) (Library R) := ⟨Maths.toLibrary⟩

section Definitions
variable {R : Type} [Zero R] [One R] [Add R] [Sub R] [Mul R] [Div R] [NatCast R] [IntCast R] [RatCast R] [LinearOrder R]

def divide (x y : R) : Except PyError R := if y = 0 then .error .ZeroDivisionError else .ok (x / y)

def float [FloatRange R] (k : Int) : Except PyError R := if FloatRange.fits R k then .ok (k : R) else .error .OverflowError

def Library.log2 (m : Library R) (x : R) : Except PyError R := if x ≤ 0 then .error .ValueError else .ok (m.log2_ x)

def Library.log (m : Library R) (x : R) : Except PyError R := if x ≤ 0 then .error .ValueError else .ok (m.log_ x)

-- `retrieved_ids[:k]` for k > 0, the only case the callers leave.
def topK (retrieved_ids : List Str) (k : Int) : List Str := retrieved_ids.take k.toNat

def hitRateAtK (retrieved_ids relevant_ids : List Str) (k : Int) : R :=
  if k ≤ 0 ∨ relevant_ids = [] then 0
  else if (topK retrieved_ids k).any fun doc_id => decide (doc_id ∈ relevant_ids.toFinset) then 1 else 0

def hits (retrieved_ids relevant_ids : List Str) (k : Int) : Nat :=
  (topK retrieved_ids k).countP fun doc_id => decide (doc_id ∈ relevant_ids.toFinset)

def precisionAtK [FloatRange R] (retrieved_ids relevant_ids : List Str) (k : Int) : Except PyError R :=
  if k ≤ 0 then .ok 0
  else if topK retrieved_ids k = [] then .ok 0
  else do divide (hits retrieved_ids relevant_ids k : R) (← float k)

def recallAtK (retrieved_ids relevant_ids : List Str) (k : Int) : Except PyError R :=
  if k ≤ 0 ∨ relevant_ids = [] then .ok 0
  else divide (hits retrieved_ids relevant_ids k : R) (relevant_ids.toFinset.card : R)

-- The first hit ends the loop.
def firstHit (relevant_ids : List Str) : Nat → List Str → Except PyError R
  | _,[] => .ok 0
  | rank,doc_id :: rest => if doc_id ∈ relevant_ids.toFinset then divide 1 (rank : R) else firstHit relevant_ids (rank + 1) rest

def mrrAtK (retrieved_ids relevant_ids : List Str) (k : Int) : Except PyError R :=
  if k ≤ 0 ∨ relevant_ids = [] then .ok 0 else firstHit relevant_ids 1 (topK retrieved_ids k)

-- The loop that `dcg_at_k` and `idcg_at_k` share, from `rank` on.
def discounted (m : Library R) : Nat → R → List R → Except PyError R
  | _,dcg,[] => .ok dcg
  | rank,dcg,rel :: rest =>
    if 0 < rel then do
      let denominator ← m.log2 ((rank : R) + 1)
      let term ← divide (m.exp2 rel - 1) denominator
      discounted m (rank + 1) (dcg + term) rest
    else discounted m (rank + 1) dcg rest

def grade (relevance_scores : Dict Str R) (doc_id : Str) : R := (relevance_scores.get? doc_id).getD 0

def dcgAtK (m : Library R) (retrieved_ids : List Str) (relevance_scores : Dict Str R) (k : Int) : Except PyError R :=
  if k ≤ 0 ∨ retrieved_ids = [] then .ok 0
  else discounted m 1 0 ((topK retrieved_ids k).map (grade relevance_scores))

def idcgAtK (m : Library R) (relevance_scores : Dict Str R) (k : Int) : Except PyError R :=
  if k ≤ 0 ∨ relevance_scores.entries = [] then .ok 0
  else discounted m 1 0 ((relevance_scores.values.insertionSort (fun a b => b ≤ a)).take k.toNat)

def ndcgAtK (m : Library R) (retrieved_ids : List Str) (relevance_scores : Dict Str R) (k : Int) : Except PyError R := do
  let ideal_dcg ← idcgAtK m relevance_scores k
  if ideal_dcg ≤ 0 then return 0
  let actual_dcg ← dcgAtK m retrieved_ids relevance_scores k
  let ratio ← divide actual_dcg ideal_dcg
  return min 1 ratio

-- The key `recall@3` and its like.
def metricName (name : String) (k : Int) : Str := name.toList ++ '@' :: (toString k).toList

variable [FloatRange R] [RoundDigits R]

-- The five metrics of one cutoff.
def cutoffMetrics (m : Library R) (retrieved_ids : List Str) (ground_truth : Dict Str R) (relevant_ids : List Str)
    (metrics : Dict Str R) (k : Int) : Except PyError (Dict Str R) := do
  let metrics := metrics.set (metricName "recall" k) (RoundDigits.round 4 (← recallAtK retrieved_ids relevant_ids k))
  let metrics := metrics.set (metricName "precision" k) (RoundDigits.round 4 (← precisionAtK retrieved_ids relevant_ids k))
  let metrics := metrics.set (metricName "mrr" k) (RoundDigits.round 4 (← mrrAtK retrieved_ids relevant_ids k))
  let metrics := metrics.set (metricName "hit_rate" k) (RoundDigits.round 4 (hitRateAtK retrieved_ids relevant_ids k))
  return metrics.set (metricName "ndcg" k) (RoundDigits.round 4 (← ndcgAtK m retrieved_ids ground_truth k))

-- `k_list` defaults to [1, 3, 5, 10] and `relevance_threshold` to 1.
def calculateRetrievalMetrics (m : Library R) (retrieved_ids : List Str) (ground_truth : Dict Str R)
    (k_list : Option (List Int)) (relevance_threshold : R) : Except PyError (Dict Str R) :=
  let relevant_ids := (ground_truth.entries.filter fun pair => relevance_threshold ≤ pair.2).map Prod.fst
  (k_list.getD [1,3,5,10]).foldlM (cutoffMetrics m retrieved_ids ground_truth relevant_ids) .empty

end Definitions

section Recall
variable {retrieved_ids relevant_ids : List Str} {k : Int}

def setRecall (retrieved_ids relevant_ids : List Str) (k : Int) : ℚ :=
  ((topK retrieved_ids k).toFinset ∩ relevant_ids.toFinset).card / relevant_ids.toFinset.card

-- The loop counts the common documents exactly if it meets none of them twice.
theorem hits_card : hits retrieved_ids relevant_ids k = ((topK retrieved_ids k).toFinset ∩ relevant_ids.toFinset).card ↔
    ∀ id ∈ relevant_ids, (topK retrieved_ids k).count id ≤ 1 := by
  have common : (topK retrieved_ids k).toFinset ∩ relevant_ids.toFinset =
      ((topK retrieved_ids k).filter fun id => decide (id ∈ relevant_ids.toFinset)).toFinset := by
    ext id
    simp
  rw [hits,List.countP_eq_length_filter,common,eq_comm]
  have distinct (xs : List Str) : xs.toFinset.card = xs.length ↔ xs.Nodup :=
    Multiset.toFinset_card_eq_card_iff_nodup (m := (xs : Multiset Str))
  rw [distinct,List.nodup_iff_count_le_one]
  refine forall_congr' fun id => ?_
  by_cases member : id ∈ relevant_ids
  · rw [List.count_filter (by simpa using member)]
    simp [member]
  · have absent : id ∉ (topK retrieved_ids k).filter fun id => decide (id ∈ relevant_ids.toFinset) := by simp [member]
    rw [List.count_eq_zero_of_not_mem absent]
    simp [member]

theorem setRecall_unit : 0 ≤ setRecall retrieved_ids relevant_ids k ∧ setRecall retrieved_ids relevant_ids k ≤ 1 := by
  constructor
  · exact div_nonneg (Nat.cast_nonneg _) (Nat.cast_nonneg _)
  · apply div_le_one_of_le₀
    · exact Nat.cast_le.mpr (Finset.card_le_card Finset.inter_subset_right)
    · exact Nat.cast_nonneg _

theorem hits_small (retrieved_ids relevant_ids : List Str) (k : Int) (small : k ≤ 0) : hits retrieved_ids relevant_ids k = 0 := by
  simp [hits,topK,Int.toNat_of_nonpos small]

theorem hits_irrelevant (retrieved_ids : List Str) (k : Int) : hits retrieved_ids [] k = 0 := by simp [hits]

-- The early exit of the metrics.
theorem hits_trivial (retrieved_ids relevant_ids : List Str) (k : Int) (trivial_ : k ≤ 0 ∨ relevant_ids = []) :
    hits retrieved_ids relevant_ids k = 0 := by
  rcases trivial_ with small | rfl
  · exact hits_small _ _ _ small
  · exact hits_irrelevant _ _

-- Recall is the ratio of the two sets exactly if no relevant document is
-- retrieved twice within the first `k`.
theorem recall_at_k_ratio (retrieved_ids relevant_ids : List Str) (k : Int) :
    (recallAtK retrieved_ids relevant_ids k = .ok (setRecall retrieved_ids relevant_ids k) ∧
      0 ≤ setRecall retrieved_ids relevant_ids k ∧ setRecall retrieved_ids relevant_ids k ≤ 1) ↔
    ∀ id ∈ relevant_ids, (topK retrieved_ids k).count id ≤ 1 := by
  rw [and_iff_left setRecall_unit,← hits_card]
  by_cases trivial_ : k ≤ 0 ∨ relevant_ids = []
  · rw [recallAtK,if_pos trivial_]
    have none_ : (topK retrieved_ids k).toFinset ∩ relevant_ids.toFinset = ∅ := by
      rcases trivial_ with small | empty
      · simp [topK,Int.toNat_of_nonpos small]
      · simp [empty]
    simp [setRecall,none_,hits_trivial _ _ _ trivial_]
  · obtain ⟨_,some_⟩ := not_or.mp trivial_
    have relevant : (relevant_ids.toFinset.card : ℚ) ≠ 0 := by simpa using some_
    rw [recallAtK,if_neg trivial_,divide,if_neg relevant,setRecall,Except.ok.injEq,div_left_inj' relevant,Nat.cast_inj]

-- Two chunks of the one relevant document count twice.
theorem recall_at_k_exceeds : recallAtK ["d1".toList,"d1".toList] ["d1".toList] 2 = .ok (2 : ℚ) ∧
    setRecall ["d1".toList,"d1".toList] ["d1".toList] 2 = 1 ∧
    recallAtK ["d1".toList,"d1".toList] ["d1".toList] 2 ≠ .ok (setRecall ["d1".toList,"d1".toList] ["d1".toList] 2) := by
  have two : hits ["d1".toList,"d1".toList] ["d1".toList] 2 = 2 := by decide
  have both : ((topK ["d1".toList,"d1".toList] 2).toFinset ∩ ["d1".toList].toFinset).card = 1 := by decide
  have one : ["d1".toList].toFinset.card = 1 := by decide
  have counted : recallAtK ["d1".toList,"d1".toList] ["d1".toList] 2 = .ok (2 : ℚ) := by
    rw [recallAtK,if_neg (by decide),two,one,divide,if_neg (by simp)]
    simp
  have ratio : setRecall ["d1".toList,"d1".toList] ["d1".toList] 2 = 1 := by
    rw [setRecall,both,one]
    simp
  refine ⟨counted,ratio,?_⟩
  rw [counted,ratio]
  simp

end Recall

section Dcg
variable {R : Type} [Field R] [LinearOrder R] [IsStrictOrderedRing R] (m : Maths R)

-- What a grade adds at place `i`, counted from 0, is a product.
def gain (rel : R) : R := if 0 < rel then m.exp2 rel - 1 else 0

def weight (i : Nat) : R := 1 / m.log2_ ((i + 2 : Nat) : R)

theorem above_one (i : Nat) : (1 : R) < ((i + 2 : Nat) : R) := Nat.one_lt_cast.mpr (by omega)

theorem weight_pos (i : Nat) : 0 < weight m i := one_div_pos.mpr (m.log2_above (above_one i))

theorem weight_fall (i : Nat) : weight m (i + 1) < weight m i := by
  apply one_div_lt_one_div_of_lt
  · exact m.log2_above (above_one i)
  · apply m.log2_rise (above_one i)
    exact Nat.cast_lt.mpr (by omega)

omit [IsStrictOrderedRing R] in
theorem gain_zero : gain m 0 = 0 := if_neg (lt_irrefl _)

theorem gain_pos {rel : R} (positive : 0 < rel) : 0 < gain m rel := by
  rw [gain,if_pos positive]
  exact sub_pos.mpr (m.exp2_above positive)

theorem gain_nonneg (rel : R) : 0 ≤ gain m rel := by
  rcases lt_or_ge 0 rel with positive | low
  · exact (gain_pos m positive).le
  · exact (if_neg (not_lt.mpr low)).ge

theorem gain_rise {a b : R} (positive : 0 < b) (less : a < b) : gain m a < gain m b := by
  rcases lt_or_ge 0 a with above | low
  · rw [gain,gain,if_pos above,if_pos positive]
    exact sub_lt_sub_right (m.exp2_rise above less) 1
  · rw [gain,if_neg (not_lt.mpr low)]
    exact gain_pos m positive

theorem gain_mono {a b : R} (le : a ≤ b) : gain m a ≤ gain m b := by
  rcases lt_or_ge 0 b with positive | low
  · rcases le.lt_or_eq with less | rfl
    · exact (gain_rise m positive less).le
    · exact le_rfl
  · rw [gain,if_neg (not_lt.mpr (le.trans low))]
    exact gain_nonneg m b

-- Only the positive part of a grade counts.
theorem gain_inj {a b : R} : gain m a = gain m b ↔ max 0 a = max 0 b := by
  have part (rel : R) : gain m (max 0 rel) = gain m rel := by
    rcases le_total 0 rel with above | low
    · rw [max_eq_right above]
    · rw [max_eq_left low,gain_zero,gain,if_neg (not_lt.mpr low)]
  constructor
  · intro same
    rw [← part a,← part b] at same
    rcases lt_trichotomy (max 0 a) (max 0 b) with less | equal | more
    · exact absurd same (gain_rise m ((le_max_left _ _).trans_lt less) less).ne
    · exact equal
    · exact absurd same (gain_rise m ((le_max_left _ _).trans_lt more) more).ne'
  · intro same
    rw [← part a,← part b,same]

theorem discounted_value (s : Nat) (dcg : R) {grades : List R} (bound : grades.length ≤ n) :
    discounted m (s + 1) dcg grades = .ok (dcg + ∑ i ∈ Finset.range n, weight m (s + i) * gain m (entry grades i)) := by
  induction grades generalizing s dcg n with
  | nil => simp [discounted,entry,gain_zero]
  | cons rel rest ih =>
    obtain ⟨n,rfl⟩ : ∃ size, n = size + 1 := ⟨n - 1,by simp at bound; omega⟩
    have shorter : rest.length ≤ n := by simpa using bound
    have place : ((s + 1 : Nat) : R) + 1 = ((s + 2 : Nat) : R) := (Nat.cast_succ (s + 1)).symm
    have later (total : R) : discounted m (s + 1 + 1) total rest =
        .ok (total + ∑ i ∈ Finset.range n, weight m (s + (i + 1)) * gain m (entry (rel :: rest) (i + 1))) := by
      rw [ih (s + 1) total shorter]
      simp only [Nat.add_assoc,Nat.add_comm 1,entry,List.getElem?_cons_succ]
    rw [Finset.sum_range_succ',discounted]
    split
    · rename_i positive
      have fine : ¬ ((s + 2 : Nat) : R) ≤ 0 := not_le.mpr (zero_lt_one.trans (above_one s))
      have nonzero : m.log2_ ((s + 2 : Nat) : R) ≠ 0 := (m.log2_above (above_one s)).ne'
      have term : (m.exp2 rel - 1) / m.log2_ ((s + 2 : Nat) : R) = weight m s * gain m rel := by
        rw [gain,if_pos positive,weight,one_div,div_eq_inv_mul]
      rw [place,Library.log2,if_neg fine]
      simp only [bind,Except.bind,divide,if_neg nonzero]
      rw [later,term]
      simp [entry,add_assoc,add_comm]
    · rename_i low
      rw [later]
      simp [entry,gain,low]

variable (relevance_scores : Dict Str R) (retrieved_ids : List Str) (k : Int)

-- The grade at place `i` of a ranking, 0 for a missing or ungraded document.
def gradeAt (i : Nat) : R := entry (retrieved_ids.map (grade relevance_scores)) i

def sortedGrades : List R := RankedList.ranked id relevance_scores.values

theorem dcg_value : dcgAtK m retrieved_ids relevance_scores k =
    .ok (∑ i ∈ Finset.range k.toNat, weight m i * gain m (gradeAt relevance_scores retrieved_ids i)) := by
  unfold dcgAtK
  split
  · rename_i nothing
    rcases nothing with small | rfl
    · simp [Int.toNat_of_nonpos small]
    · simp [gradeAt,entry,gain_zero]
  · have bound : ((topK retrieved_ids k).map (grade relevance_scores)).length ≤ k.toNat := by simp [topK]
    rw [discounted_value m 0 0 bound,zero_add]
    refine congrArg Except.ok (Finset.sum_congr rfl fun i member => ?_)
    rw [Nat.zero_add,topK,List.map_take,entry_take (Finset.mem_range.mp member),gradeAt]

theorem idcg_value : idcgAtK m relevance_scores k =
    .ok (∑ i ∈ Finset.range k.toNat, weight m i * gain m (entry (sortedGrades relevance_scores) i)) := by
  unfold idcgAtK
  split
  · rename_i nothing
    rcases nothing with small | empty
    · simp [Int.toNat_of_nonpos small]
    · simp [sortedGrades,RankedList.ranked,Dict.values,empty,entry,gain_zero]
  · have bound : ((sortedGrades relevance_scores).take k.toNat).length ≤ k.toNat := by simp
    change discounted m (0 + 1) 0 ((sortedGrades relevance_scores).take k.toNat) = _
    rw [discounted_value m 0 0 bound,zero_add]
    refine congrArg Except.ok (Finset.sum_congr rfl fun i member => ?_)
    rw [Nat.zero_add,entry_take (Finset.mem_range.mp member)]

-- An ungraded document adds nothing.
theorem found_gain (ids : List Str) : ((ids.map (grade relevance_scores)).map (gain m)).sum =
    ((ids.filterMap relevance_scores.get?).map (gain m)).sum := by
  induction ids with
  | nil => rfl
  | cons id rest ih =>
    cases found : relevance_scores.get? id with
    | none => simpa [grade,found,gain_zero] using ih
    | some rel => simpa [grade,found] using ih

-- The best grades are ahead of any ranking from the first place on.
theorem ideal_ahead (distinct : retrieved_ids.Nodup) (j : Nat) : 0 ≤ ∑ i ∈ Finset.range j,
    (gain m (entry (sortedGrades relevance_scores) i) - gain m (gradeAt relevance_scores retrieved_ids i)) := by
  have got : ∑ i ∈ Finset.range j, gain m (gradeAt relevance_scores retrieved_ids i) =
      (((retrieved_ids.take j).filterMap relevance_scores.get?).map (gain m)).sum := by
    simp only [gradeAt,← entry_map (gain_zero m)]
    rw [sum_entry,← List.map_take,← List.map_take,found_gain]
  have best : ∑ i ∈ Finset.range j, gain m (entry (sortedGrades relevance_scores) i) =
      (((sortedGrades relevance_scores).map (gain m)).take j).sum := by
    simp only [← entry_map (gain_zero m)]
    rw [sum_entry]
  rw [Finset.sum_sub_distrib,got,best,sub_nonneg]
  have sorted : (sortedGrades relevance_scores).Perm relevance_scores.values := RankedList.ranked_perm _
  obtain ⟨chosen,perm,sub⟩ :=
    (relevance_scores.found_subperm (distinct.sublist (List.take_sublist j retrieved_ids))).trans sorted.symm.subperm
  apply sum_le_largest ⟨_,perm.map (gain m),sub.map (gain m)⟩
  · exact List.pairwise_map.mpr ((RankedList.ranked_sorted id _).imp fun le => gain_mono m le)
  · intro y member
    obtain ⟨rel,_,rfl⟩ := List.mem_map.mp member
    exact gain_nonneg m rel
  · rw [List.length_map]
    exact (List.length_filterMap_le _ _).trans (List.length_take_le _ _)

omit [IsStrictOrderedRing R] in
-- Sorting and taking positive parts commute.
theorem sorted_parts : (sortedGrades relevance_scores).map (max 0) =
    (relevance_scores.values.map (max 0)).insertionSort fun a b => b ≤ a := by
  have descending : ((sortedGrades relevance_scores).map (max 0)).Pairwise fun a b => b ≤ a :=
    List.pairwise_map.mpr ((RankedList.ranked_sorted id _).imp fun le => max_le_max_left 0 le)
  have perm : ((sortedGrades relevance_scores).map (max 0)).Perm (RankedList.ranked id (relevance_scores.values.map (max 0))) :=
    ((RankedList.ranked_perm _).map _).trans (RankedList.ranked_perm _).symm
  exact perm.eq_of_pairwise (fun a b _ _ first second => le_antisymm second first) descending (RankedList.ranked_sorted id _)

theorem dcg_le_idcg (distinct : retrieved_ids.Nodup) :
    ∃ dcg idcg ndcg, dcgAtK m retrieved_ids relevance_scores k = .ok dcg ∧ idcgAtK m relevance_scores k = .ok idcg ∧
      ndcgAtK m retrieved_ids relevance_scores k = .ok ndcg ∧ 0 ≤ dcg ∧ dcg ≤ idcg ∧
      ndcg = (if idcg ≤ 0 then 0 else dcg / idcg) ∧
      (0 < idcg → (ndcg = 1 ↔ ∀ i < k.toNat, max 0 (gradeAt relevance_scores retrieved_ids i) =
        entry ((relevance_scores.values.map (max 0)).insertionSort fun a b => b ≤ a) i)) := by
  have actual := dcg_value m relevance_scores retrieved_ids k
  have ideal := idcg_value m relevance_scores k
  have ahead := ideal_ahead m relevance_scores retrieved_ids distinct
  generalize shown : ∑ i ∈ Finset.range k.toNat, weight m i * gain m (gradeAt relevance_scores retrieved_ids i) = dcg at actual
  generalize best : ∑ i ∈ Finset.range k.toNat, weight m i * gain m (entry (sortedGrades relevance_scores) i) = idcg at ideal
  have apart : idcg - dcg = ∑ i ∈ Finset.range k.toNat, weight m i *
      (gain m (entry (sortedGrades relevance_scores) i) - gain m (gradeAt relevance_scores retrieved_ids i)) := by
    rw [← shown,← best,← Finset.sum_sub_distrib]
    exact Finset.sum_congr rfl fun i _ => (mul_sub _ _ _).symm
  have nonneg : 0 ≤ dcg := by
    rw [← shown]
    exact Finset.sum_nonneg fun i _ => mul_nonneg (weight_pos m i).le (gain_nonneg m _)
  have le : dcg ≤ idcg := by
    rw [← sub_nonneg,apart]
    exact weighted_nonneg (weight_pos m) (weight_fall m) fun j _ => ahead j
  have level : dcg = idcg ↔ ∀ i < k.toNat, max 0 (gradeAt relevance_scores retrieved_ids i) =
      entry ((relevance_scores.values.map (max 0)).insertionSort fun a b => b ≤ a) i := by
    rw [eq_comm,← sub_eq_zero,apart,weighted_zero (weight_pos m) (weight_fall m) fun j _ => ahead j]
    refine forall_congr' fun i => forall_congr' fun _ => ?_
    rw [sub_eq_zero,gain_inj,← sorted_parts,entry_map (max_self 0),eq_comm]
  refine ⟨dcg,idcg,if idcg ≤ 0 then 0 else dcg / idcg,actual,ideal,?_,nonneg,le,rfl,?_⟩
  · simp only [ndcgAtK,ideal,actual,bind,Except.bind,pure,Except.pure]
    split
    · rfl
    · rename_i positive
      have above : 0 < idcg := not_le.mp positive
      rw [divide,if_neg above.ne']
      exact congrArg Except.ok (min_eq_right ((div_le_one above).mpr le))
  · intro above
    rw [if_neg (not_le.mpr above),div_eq_one_iff_eq above.ne',level]

end Dcg

section Range
variable {R : Type} [Zero R] [One R] [Add R] [Sub R] [Mul R] [Div R] [NatCast R] [IntCast R] [RatCast R] [LinearOrder R]
variable {retrieved_ids relevant_ids : List Str} {k : Int}

def Unit (x : R) : Prop := 0 ≤ x ∧ x ≤ 1

-- The documented scale of relevance.
def Graded (relevance_scores : Dict Str R) : Prop := ∀ rel ∈ relevance_scores.values, 0 ≤ rel ∧ rel ≤ ((3 : Nat) : R)

-- What an evaluation relies on of the four functions.
structure Library.Sound (m : Library R) : Prop where
  exp2 : ∀ x, 0 < x → x ≤ ((3 : Nat) : R) → 1 ≤ m.exp2 x
  log2 : ∀ n : Nat, 0 < n → 0 < m.log2_ ((n : R) + 1)
  sum : ∀ vals, (∀ v ∈ vals, 0 ≤ v ∧ v ≤ 1) → 0 ≤ m.sum vals ∧ m.sum vals ≤ (vals.length : R)

def UnitValues (metrics : Dict Str R) : Prop := ∀ name v, metrics.get? name = some v → Unit v

omit [Add R] [Sub R] [Mul R] [Div R] [NatCast R] [IntCast R] [RatCast R] in
theorem UnitValues.set {metrics : Dict Str R} (units : UnitValues metrics) (name : Str) (unit : Unit v) : UnitValues (metrics.set name v) := by
  intro other w found
  rw [Dict.get?_set] at found
  split at found
  · cases found
    exact unit
  · exact units other w found

variable [OrderedArithmetic R]
open OrderedArithmetic (natCast_le natCast_pos natCast_nonneg one_le_natCast natCast_le_intCast intCast_pos add_pos_left add_nonneg)

theorem unit_zero : Unit (0 : R) := ⟨le_rfl,OrderedArithmetic.zero_lt_one.le⟩

theorem unit_one : Unit (1 : R) := ⟨OrderedArithmetic.zero_lt_one.le,le_rfl⟩

theorem unit_divide {x y : R} (nonneg : 0 ≤ x) (le : x ≤ y) (positive : 0 < y) : ∃ v, divide x y = .ok v ∧ Unit v :=
  ⟨x / y,if_neg positive.ne',OrderedArithmetic.div_nonneg nonneg positive,OrderedArithmetic.div_le_one le positive⟩

theorem hit_rate_unit : Unit (hitRateAtK retrieved_ids relevant_ids k : R) := by
  unfold hitRateAtK
  split
  · exact unit_zero
  · split
    · exact unit_one
    · exact unit_zero

theorem precision_unit [FloatRange R] (fits : FloatRange.fits R k = true) :
    ∃ v : R, precisionAtK retrieved_ids relevant_ids k = .ok v ∧ Unit v := by
  unfold precisionAtK
  split
  · exact ⟨0,rfl,unit_zero⟩
  · rename_i above
    split
    · exact ⟨0,rfl,unit_zero⟩
    · have positive : 0 < k := not_le.mp above
      have few : (hits retrieved_ids relevant_ids k : Int) ≤ k := by
        have counted : hits retrieved_ids relevant_ids k ≤ (topK retrieved_ids k).length := List.countP_le_length
        have size : (topK retrieved_ids k).length ≤ k.toNat := List.length_take_le _ _
        omega
      rw [float,if_pos fits]
      exact unit_divide (natCast_nonneg _) (natCast_le_intCast few) (intCast_pos positive)

omit [OrderedArithmetic R] [One R] [Add R] [Sub R] [Mul R] [RatCast R] in
theorem precision_overflow [FloatRange R] (beyond : FloatRange.fits R k = false) (positive : 0 < k) (some_ : retrieved_ids ≠ []) :
    precisionAtK (R := R) retrieved_ids relevant_ids k = .error .OverflowError := by
  have top : topK retrieved_ids k ≠ [] := by
    rw [topK,ne_eq,List.take_eq_nil_iff]
    exact not_or.mpr ⟨by omega,some_⟩
  rw [precisionAtK,if_neg (not_le.mpr positive),if_neg top,float,beyond]
  rfl

-- Of distinct ids no more are hit than are relevant.
theorem recall_unit (distinct : retrieved_ids.Nodup) : ∃ v : R, recallAtK retrieved_ids relevant_ids k = .ok v ∧ Unit v := by
  unfold recallAtK
  split
  · exact ⟨0,rfl,unit_zero⟩
  · rename_i useful
    obtain ⟨_,some_⟩ := not_or.mp useful
    have once : ∀ id ∈ relevant_ids, (topK retrieved_ids k).count id ≤ 1 := fun id _ =>
      List.nodup_iff_count_le_one.mp (distinct.sublist (List.take_sublist _ _)) id
    have few : hits retrieved_ids relevant_ids k ≤ relevant_ids.toFinset.card := by
      rw [hits_card.mpr once]
      exact Finset.card_le_card Finset.inter_subset_right
    have positive : 0 < relevant_ids.toFinset.card := by simpa [Finset.card_pos] using some_
    exact unit_divide (natCast_nonneg _) (natCast_le few) (natCast_pos positive)

theorem firstHit_unit (rank : Nat) (ids : List Str) : ∃ v : R, firstHit relevant_ids (rank + 1) ids = .ok v ∧ Unit v := by
  induction ids generalizing rank with
  | nil => exact ⟨0,rfl,unit_zero⟩
  | cons doc_id rest ih =>
    unfold firstHit
    split
    · exact unit_divide OrderedArithmetic.zero_lt_one.le (one_le_natCast (Nat.succ_pos rank)) (natCast_pos (Nat.succ_pos rank))
    · exact ih (rank + 1)

theorem mrr_unit : ∃ v : R, mrrAtK retrieved_ids relevant_ids k = .ok v ∧ Unit v := by
  unfold mrrAtK
  split
  · exact ⟨0,rfl,unit_zero⟩
  · exact firstHit_unit 0 _

-- The loop ends with a sum that is not negative, whatever is lost in rounding.
theorem discounted_nonneg {m : Library R} (sound : m.Sound) (rank : Nat) {dcg : R} (nonneg : 0 ≤ dcg) (grades : List R)
    (scale : ∀ rel ∈ grades, rel ≤ ((3 : Nat) : R)) : ∃ v, discounted m (rank + 1) dcg grades = .ok v ∧ 0 ≤ v := by
  induction grades generalizing rank dcg with
  | nil => exact ⟨dcg,rfl,nonneg⟩
  | cons rel rest ih =>
    have later : ∀ rel ∈ rest, rel ≤ ((3 : Nat) : R) := fun rel member => scale rel (List.mem_cons_of_mem _ member)
    unfold discounted
    split
    · rename_i positive
      have place : (0 : R) < ((rank + 1 : Nat) : R) + 1 :=
        add_pos_left (natCast_pos (Nat.succ_pos rank)) OrderedArithmetic.zero_lt_one.le
      have denominator := sound.log2 (rank + 1) (Nat.succ_pos rank)
      have numerator : 0 ≤ m.exp2 rel - 1 :=
        OrderedArithmetic.sub_nonneg (sound.exp2 rel positive (scale rel List.mem_cons_self))
      rw [Library.log2,if_neg (not_le.mpr place)]
      simp only [bind,Except.bind,divide,if_neg denominator.ne']
      exact ih (rank + 1) (add_nonneg nonneg (OrderedArithmetic.div_nonneg numerator denominator)) later
    · exact ih (rank + 1) nonneg later

theorem dcg_nonneg {m : Library R} (sound : m.Sound) {relevance_scores : Dict Str R} (graded : Graded relevance_scores)
    (retrieved_ids : List Str) (k : Int) : ∃ v, dcgAtK m retrieved_ids relevance_scores k = .ok v ∧ 0 ≤ v := by
  unfold dcgAtK
  split
  · exact ⟨0,rfl,le_rfl⟩
  · apply discounted_nonneg sound 0 le_rfl
    intro rel member
    obtain ⟨doc_id,_,rfl⟩ := List.mem_map.mp member
    unfold grade
    cases found : relevance_scores.get? doc_id with
    | none => exact natCast_nonneg 3
    | some rel => exact (graded rel (List.mem_map.mpr ⟨_,Dict.mem_entries.mpr found,rfl⟩)).2

theorem idcg_nonneg {m : Library R} (sound : m.Sound) {relevance_scores : Dict Str R} (graded : Graded relevance_scores) (k : Int) :
    ∃ v, idcgAtK m relevance_scores k = .ok v ∧ 0 ≤ v := by
  unfold idcgAtK
  split
  · exact ⟨0,rfl,le_rfl⟩
  · apply discounted_nonneg sound 0 le_rfl
    intro rel member
    exact (graded rel ((List.perm_insertionSort _ _).mem_iff.mp (List.mem_of_mem_take member))).2

theorem ndcg_unit {m : Library R} (sound : m.Sound) {relevance_scores : Dict Str R} (graded : Graded relevance_scores)
    (retrieved_ids : List Str) (k : Int) : ∃ v, ndcgAtK m retrieved_ids relevance_scores k = .ok v ∧ Unit v := by
  obtain ⟨ideal,best,_⟩ := idcg_nonneg sound graded k
  obtain ⟨actual,shown,nonneg⟩ := dcg_nonneg sound graded retrieved_ids k
  unfold ndcgAtK
  rw [best,shown]
  simp only [bind,Except.bind,pure,Except.pure]
  split
  · exact ⟨0,rfl,unit_zero⟩
  · rename_i above
    have positive : 0 < ideal := not_le.mp above
    rw [divide,if_neg positive.ne']
    exact ⟨_,rfl,le_min OrderedArithmetic.zero_lt_one.le (OrderedArithmetic.div_nonneg nonneg positive),min_le_left _ _⟩

variable [FloatRange R] [RoundDigits R]

omit [OrderedArithmetic R] [Add R] [Sub R] [Mul R] [Div R] [NatCast R] [IntCast R] [RatCast R] [FloatRange R] in
theorem unit_round {x : R} (unit : Unit x) : Unit (RoundDigits.round 4 x) := RoundDigits.unit 4 unit.1 unit.2

theorem cutoffMetrics_unit {m : Library R} (sound : m.Sound) {ground_truth : Dict Str R} (graded : Graded ground_truth)
    (distinct : retrieved_ids.Nodup) (fits : FloatRange.fits R k = true) {metrics : Dict Str R} (units : UnitValues metrics) :
    ∃ next, cutoffMetrics m retrieved_ids ground_truth relevant_ids metrics k = .ok next ∧ UnitValues next := by
  obtain ⟨share,recalled,first⟩ : ∃ v : R, recallAtK retrieved_ids relevant_ids k = .ok v ∧ Unit v := recall_unit distinct
  obtain ⟨precision,precise,second⟩ : ∃ v : R, precisionAtK retrieved_ids relevant_ids k = .ok v ∧ Unit v := precision_unit fits
  obtain ⟨mrr,found,third⟩ : ∃ v : R, mrrAtK retrieved_ids relevant_ids k = .ok v ∧ Unit v := mrr_unit
  have fourth : Unit (hitRateAtK retrieved_ids relevant_ids k : R) := hit_rate_unit
  obtain ⟨ndcg,gained,fifth⟩ := ndcg_unit sound graded retrieved_ids k
  unfold cutoffMetrics
  rw [recalled,precise,found,gained]
  refine ⟨_,rfl,?_⟩
  apply UnitValues.set _ _ (unit_round fifth)
  apply UnitValues.set _ _ (unit_round fourth)
  apply UnitValues.set _ _ (unit_round third)
  apply UnitValues.set _ _ (unit_round second)
  exact units.set _ (unit_round first)

-- Distinct ids have metrics, and all of them are in range.
theorem calculate_unit {m : Library R} (sound : m.Sound) {ground_truth : Dict Str R} (graded : Graded ground_truth)
    {k_list : List Int} (fits : ∀ k ∈ k_list, FloatRange.fits R k = true) (relevance_threshold : R) (distinct : retrieved_ids.Nodup) :
    ∃ metrics, calculateRetrievalMetrics m retrieved_ids ground_truth (some k_list) relevance_threshold = .ok metrics ∧
      UnitValues metrics := by
  apply foldlM_keeps
  · exact nofun
  · intro metrics k units listed
    exact cutoffMetrics_unit sound graded distinct (fits k listed) units

end Range

noncomputable def realMaths : Maths ℝ where
  exp2 := Floating.exp2
  log2_ := Floating.log2
  log_ := Real.log
  sum := List.sum
  exp2_above := fun above => Real.one_lt_rpow one_lt_two above
  exp2_rise := fun _ less => Real.rpow_lt_rpow_of_exponent_lt one_lt_two less
  log2_above := fun above => Real.logb_pos one_lt_two above
  log2_rise := fun above less => Real.logb_lt_logb one_lt_two (zero_lt_one.trans above) less

-- The functions on doubles, each result rounded once.
noncomputable def nearestLibrary : Library Double where
  exp2 x := .of binary64 (Floating.exp2 x.value)
  log2_ x := .of binary64 (Floating.log2 x.value)
  log_ x := .of binary64 (Real.log x.value)
  sum vals := .of binary64 (vals.map Number.value).sum

theorem successor_two {n : Nat} (positive : 0 < n) : 2 ≤ ((n : Double) + 1).value := by
  have two : nearest 2 = 2 := by simpa using nearest_integer (n := 2) (k := 51) (by decide) (by decide)
  have one : (1 : Double) ≤ n := OrderedArithmetic.one_le_natCast positive
  have reals : (1 : ℝ) ≤ (n : Double).value := one
  have sum : (2 : ℝ) ≤ (n : Double).value + 1 := by linarith only [reals]
  exact two.symm.trans_le (nearest_mono sum)

theorem nearestLibrary_sound : nearestLibrary.Sound := by
  refine ⟨fun x positive _ => ?_,fun n positive => ?_,fun vals units => ⟨?_,?_⟩⟩
  · exact Number.le_of (Real.one_le_rpow one_le_two (le_of_lt positive))
  · exact binary64.pos (Real.logb_pos one_lt_two (one_lt_two.trans_le (successor_two positive)))
  · apply Number.of_nonneg
    apply List.sum_nonneg
    intro x member
    obtain ⟨v,inside,rfl⟩ := List.mem_map.mp member
    exact (units v inside).1
  · apply Number.of_mono
    have bound := List.sum_le_card_nsmul (vals.map Number.value) 1 fun x member => by
      obtain ⟨v,inside,rfl⟩ := List.mem_map.mp member
      exact (units v inside).2
    simpa using bound

-- No ranking beats the grades in descending order, and only their positive
-- parts, place by place, reach it.
theorem ideal_dcg (m : Maths ℝ) (relevance_scores : Dict Str ℝ) (retrieved_ids : List Str) (distinct : retrieved_ids.Nodup) (k : Int) :
    ∃ dcg idcg ndcg, dcgAtK m retrieved_ids relevance_scores k = .ok dcg ∧
      idcgAtK m relevance_scores k = .ok idcg ∧ ndcgAtK m retrieved_ids relevance_scores k = .ok ndcg ∧
      dcg ≤ idcg ∧ ndcg = (if idcg ≤ 0 then 0 else dcg / idcg) ∧
      (0 < idcg → (ndcg = 1 ↔ ∀ i < k.toNat, max 0 (gradeAt relevance_scores retrieved_ids i) =
        entry ((relevance_scores.values.map (max 0)).insertionSort fun a b => b ≤ a) i)) := by
  obtain ⟨dcg,idcg,ndcg,actual,ideal,ratio,_,rest⟩ := dcg_le_idcg m relevance_scores retrieved_ids k distinct
  exact ⟨dcg,idcg,ndcg,actual,ideal,ratio,rest⟩

-- A graded document behind an irrelevant one that counts as ungraded.
theorem ideal_dcg_irrelevant : ∃ relevance_scores : Dict Str ℝ, relevance_scores.entries = [("d1".toList,3),("d2".toList,-1)] ∧
    ∃ dcg idcg ndcg, dcgAtK realMaths ["d2".toList,"d1".toList] relevance_scores 2 = .ok dcg ∧
      idcgAtK realMaths relevance_scores 2 = .ok idcg ∧
      ndcgAtK realMaths ["d2".toList,"d1".toList] relevance_scores 2 = .ok ndcg ∧
      dcg ≤ idcg ∧ ndcg = (if idcg ≤ 0 then 0 else dcg / idcg) ∧
      (0 < idcg → (ndcg = 1 ↔ ∀ i < (2 : Int).toNat, max 0 (gradeAt relevance_scores ["d2".toList,"d1".toList] i) =
        entry ((relevance_scores.values.map (max 0)).insertionSort fun a b => b ≤ a) i)) :=
  ⟨⟨[("d1".toList,3),("d2".toList,-1)],by simp⟩,rfl,ideal_dcg realMaths _ ["d2".toList,"d1".toList] (by decide) 2⟩

end RagForge.Metrics
