import Mathlib.Algebra.Order.BigOperators.Group.List
import Mathlib.Algebra.Order.Field.Basic
import Mathlib.Algebra.Order.Field.Rat
import RagForge.OrderedDict
import RagForge.RankedList
import RagForge.Site

namespace RagForge.Fusion
open RagForge OrderedDict RankedList Fallible

variable {ι : Type} [DecidableEq ι]

-- What position `rank` of a ranking is worth.
def reciprocal (rrf_k rank : Nat) : ℚ := 1 / ((rrf_k + rank + 1 : Nat) : ℚ)

section Evaluator
variable {R : Type} [Zero R] [One R] [Add R] [Div R] [NatCast R]

-- One ranking of the evaluator from position `rank` on.
def addGains (rrf_k : Nat) : Nat → List ι → Dict ι R → Dict ι R
  | _,[],scores => scores
  | rank,doc_id :: rest,scores =>
    addGains rrf_k (rank + 1) rest (scores.set doc_id ((scores.get? doc_id).getD 0 + 1 / ((rrf_k + rank + 1 : Nat) : R)))

-- The evaluator's own `reciprocal_rank_fusion`, in whatever numbers it reckons.
def reciprocalRankFusion [LinearOrder R] (dense_ranking sparse_ranking : List ι) (rrf_k top_k : Nat) : List (ι × R) :=
  let scores := addGains rrf_k 0 dense_ranking .empty
  let scores := addGains rrf_k 0 sparse_ranking scores
  (ranked Prod.snd scores.entries).take top_k

theorem addGains_keys (rrf_k rank : Nat) (ranking : List ι) (scores : Dict ι R) :
    (addGains rrf_k rank ranking scores).keys = ranking.foldl note scores.keys := by
  induction ranking generalizing rank scores with
  | nil => rfl
  | cons doc_id rest ih =>
    rw [addGains,ih,Dict.keys_set]
    rfl

end Evaluator

def gains (rrf_k rank : Nat) (ranking : List ι) : List (ι × ℚ) :=
  (ranking.zipIdx rank).map fun place => (place.1,reciprocal rrf_k place.2)

def board (rrf_k : Nat) (rankings : List (List ι)) : Dict ι ℚ := Dict.empty.tally (rankings.flatMap (gains rrf_k 0))

def fused (rrf_k : Nat) (rankings : List (List ι)) : List (ι × ℚ) := ranked Prod.snd (board rrf_k rankings).entries

-- The score of an id by its definition, over all of its places.
def reciprocalScore (rrf_k : Nat) (rankings : List (List ι)) (id : ι) : ℚ :=
  (rankings.map fun ranking => ((ranking.zipIdx.filter (·.1 = id)).map fun place => reciprocal rrf_k place.2).sum).sum

structure IsFusion (rrf_k : Nat) (rankings : List (List ι)) (fused : List (ι × ℚ)) : Prop where
  once : (fused.map Prod.fst).Nodup
  complete : ∀ id, id ∈ fused.map Prod.fst ↔ ∃ ranking ∈ rankings, id ∈ ranking
  score : ∀ pair ∈ fused, pair.2 = reciprocalScore rrf_k rankings pair.1
  order : fused.Pairwise fun a b => b.2 < a.2 ∨ a.2 = b.2 ∧ rankings.flatten.idxOf a.1 < rankings.flatten.idxOf b.1

omit [DecidableEq ι] in
theorem gains_cons (rrf_k rank : Nat) (id : ι) (ranking : List ι) :
    gains rrf_k rank (id :: ranking) = (id,reciprocal rrf_k rank) :: gains rrf_k (rank + 1) ranking := by
  simp [gains]

omit [DecidableEq ι] in
theorem gains_names (rrf_k rank : Nat) (ranking : List ι) : (gains rrf_k rank ranking).map Prod.fst = ranking := by
  induction ranking generalizing rank with
  | nil => rfl
  | cons id rest ih => simp [gains_cons,ih]

omit [DecidableEq ι] in
theorem all_names (rrf_k : Nat) (rankings : List (List ι)) :
    (rankings.flatMap (gains rrf_k 0)).map Prod.fst = rankings.flatten := by
  induction rankings with
  | nil => rfl
  | cons ranking rest ih => simp [ih,gains_names]

theorem addGains_tally (rrf_k rank : Nat) (ranking : List ι) (scores : Dict ι ℚ) :
    addGains rrf_k rank ranking scores = scores.tally (gains rrf_k rank ranking) := by
  induction ranking generalizing rank scores with
  | nil => rfl
  | cons id rest ih =>
    rw [addGains,ih,gains_cons]
    rfl

theorem addScore_set (chunk_id : Uuid) (gain : ℚ) (scores : Dict Uuid ℚ) :
    addScore chunk_id gain scores.entries = (scores.set chunk_id ((scores.get? chunk_id).getD 0 + gain)).entries := by
  obtain ⟨entries,apart⟩ := scores
  simp only [Dict.set,Dict.get?]
  clear apart
  induction entries with
  | nil => simp [addScore,assign]
  | cons head rest ih =>
    obtain ⟨known,score⟩ := head
    by_cases here : known = chunk_id
    · simp [addScore,assign,here]
    · simpa [addScore,assign,here] using ih

theorem addRanking_tally (rank : Nat) (ranking : List Uuid) (scores : Dict Uuid ℚ) :
    addRanking rank ranking scores.entries = (scores.tally (gains rrfK rank ranking)).entries := by
  induction ranking generalizing rank scores with
  | nil => rfl
  | cons id rest ih =>
    rw [addRanking,addScore_set,ih,gains_cons]
    rfl

theorem rankings_tally (rankings : List (List Uuid)) (scores : Dict Uuid ℚ) :
    rankings.foldl (fun scores ranking => addRanking 0 ranking scores) scores.entries =
      (scores.tally (rankings.flatMap (gains rrfK 0))).entries := by
  induction rankings generalizing scores with
  | nil => rfl
  | cons ranking rest ih =>
    rw [List.foldl_cons,addRanking_tally,ih,List.flatMap_cons,Dict.tally,Dict.tally,Dict.tally,Dict.fold_append]

-- Both implementations sort one board.
theorem production_fused (rankings : List (List Uuid)) :
    RagForge.reciprocalRankFusion rankings = (fused rrfK rankings).map fun pair => ⟨pair.1,pair.2⟩ := by
  have same := rankings_tally rankings .empty
  unfold RagForge.reciprocalRankFusion fused ranked board
  rw [← same]
  rfl

theorem evaluator_fused (dense_ranking sparse_ranking : List ι) (rrf_k top_k : Nat) :
    reciprocalRankFusion dense_ranking sparse_ranking rrf_k top_k = (fused rrf_k [dense_ranking,sparse_ranking]).take top_k := by
  simp only [reciprocalRankFusion,addGains_tally,fused,board,List.flatMap_cons,List.flatMap_nil,List.append_nil,Dict.tally,Dict.fold_append]

theorem board_total (rrf_k : Nat) (rankings : List (List ι)) (id : ι) :
    (board rrf_k rankings).total id = reciprocalScore rrf_k rankings id := by
  rw [board,Dict.total_tally,reciprocalScore]
  induction rankings with
  | nil => simp [Dict.total]
  | cons ranking rest ih =>
    have here : (((gains rrf_k 0 ranking).filter fun gain => gain.1 = id).map Prod.snd) =
        (ranking.zipIdx.filter (·.1 = id)).map fun place => reciprocal rrf_k place.2 := by
      simp [gains,List.filter_map,Function.comp_def]
    rw [List.flatMap_cons,List.filter_append,List.map_append,List.sum_append,here,List.map_cons,List.sum_cons,← ih,add_left_comm]

theorem fused_isFusion (rrf_k : Nat) (rankings : List (List ι)) : IsFusion rrf_k rankings (fused rrf_k rankings) := by
  have perm : (fused rrf_k rankings).Perm (board rrf_k rankings).entries := ranked_perm _
  have keys : (board rrf_k rankings).keys = rankings.flatten.foldl note [] := by
    rw [board,Dict.tally,Dict.keys_fold,all_names,Dict.keys_empty]
  constructor
  · exact (perm.map Prod.fst).nodup_iff.mpr (board rrf_k rankings).apart
  · intro id
    rw [(perm.map Prod.fst).mem_iff]
    change id ∈ (board rrf_k rankings).keys ↔ _
    rw [keys,mem_notes]
    simp
  · intro pair member
    rw [← board_total,Dict.total_of_mem (perm.mem_iff.mp member)]
  · apply ranked_stable
    have order := notes_order rankings.flatten
    rw [← keys,Dict.keys] at order
    exact List.Pairwise.of_map Prod.fst (fun _ _ before => before) order

-- No two lists meet the definition.
theorem IsFusion.unique {rankings : List (List ι)} (one : IsFusion rrf_k rankings xs) (other : IsFusion rrf_k rankings ys) :
    xs = ys := by
  have inside {left right : List (ι × ℚ)} (here : IsFusion rrf_k rankings left) (there : IsFusion rrf_k rankings right)
      (pair : ι × ℚ) (member : pair ∈ left) : pair ∈ right := by
    have known := (there.complete pair.1).mpr ((here.complete pair.1).mp (List.mem_map.mpr ⟨pair,member,rfl⟩))
    obtain ⟨same,present,name⟩ := List.mem_map.mp known
    have equal : same = pair := Prod.ext name ((there.score same present).trans (name ▸ (here.score pair member).symm))
    exact equal ▸ present
  have perm : xs.Perm ys := (List.perm_ext_iff_of_nodup one.once.of_map other.once.of_map).mpr fun pair =>
    ⟨inside one other pair,inside other one pair⟩
  refine perm.eq_of_pairwise ?_ one.order other.order
  intro a b _ _ first second
  rcases first with less | ⟨level,before⟩
  · rcases second with less' | ⟨level',_⟩
    · exact absurd less less'.asymm
    · exact absurd level' less.ne
  · rcases second with less' | ⟨_,before'⟩
    · exact absurd level less'.ne
    · exact absurd before before'.asymm

theorem reciprocal_pos (rrf_k rank : Nat) : 0 < reciprocal rrf_k rank :=
  one_div_pos.mpr (Nat.cast_pos.mpr (Nat.succ_pos _))

theorem reciprocal_lt (rrf_k : Nat) (before : i < j) : reciprocal rrf_k j < reciprocal rrf_k i := by
  apply one_div_lt_one_div_of_lt
  · exact Nat.cast_pos.mpr (Nat.succ_pos _)
  · exact Nat.cast_lt.mpr (by omega)

theorem reciprocal_le (rrf_k : Nat) (before : i ≤ j) : reciprocal rrf_k j ≤ reciprocal rrf_k i := by
  rcases before.lt_or_eq with less | rfl
  · exact (reciprocal_lt rrf_k less).le
  · exact le_rfl

theorem places_once {ranking : List ι} (distinct : ranking.Nodup) (rank : Nat) (id : ι) :
    (ranking.zipIdx rank).filter (·.1 = id) = if id ∈ ranking then [(id,rank + ranking.idxOf id)] else [] := by
  induction ranking generalizing rank with
  | nil => simp
  | cons head rest ih =>
    obtain ⟨fresh,distinct⟩ := List.nodup_cons.mp distinct
    by_cases here : head = id
    · subst here
      simp [ih distinct,fresh]
    · have away : ¬ id = head := fun same => here same.symm
      simp only [List.zipIdx_cons,List.filter_cons,here,decide_false,ih distinct,List.mem_cons,away,false_or,
        List.idxOf_cons_ne _ here,Bool.false_eq_true,if_false]
      split <;> simp [Nat.add_assoc,Nat.add_comm 1]

-- What a ranking without repetitions gives an id.
def share (rrf_k : Nat) (id : ι) (ranking : List ι) : ℚ :=
  if id ∈ ranking then reciprocal rrf_k (ranking.idxOf id) else 0

theorem score_shares {rankings : List (List ι)} (distinct : ∀ ranking ∈ rankings, ranking.Nodup) (rrf_k : Nat) (id : ι) :
    reciprocalScore rrf_k rankings id = (rankings.map (share rrf_k id)).sum := by
  refine congrArg List.sum (List.map_congr_left fun ranking member => ?_)
  rw [places_once (distinct ranking member),share]
  split <;> simp

-- Whoever scores higher stands first.
theorem before_of_score {rankings : List (List Uuid)} (first : ∃ ranking ∈ rankings, a ∈ ranking)
    (second : ∃ ranking ∈ rankings, b ∈ ranking) (less : reciprocalScore rrfK rankings b < reciprocalScore rrfK rankings a) :
    Before a b ((RagForge.reciprocalRankFusion rankings).map (·.chunk_id)) ∧
      ∃ better ∈ RagForge.reciprocalRankFusion rankings, ∃ worse ∈ RagForge.reciprocalRankFusion rankings,
        better.chunk_id = a ∧ worse.chunk_id = b ∧ worse.fused_score < better.fused_score := by
  obtain ⟨once,complete,score,order⟩ := fused_isFusion rrfK rankings
  obtain ⟨better,here,rfl⟩ := List.mem_map.mp ((complete a).mpr first)
  obtain ⟨worse,there,rfl⟩ := List.mem_map.mp ((complete b).mpr second)
  rw [← score _ here,← score _ there] at less
  rw [production_fused,List.map_map]
  constructor
  · exact before_better (ranked_sorted Prod.snd _) better worse here there less once
  · exact ⟨_,List.mem_map.mpr ⟨better,here,rfl⟩,_,List.mem_map.mpr ⟨worse,there,rfl⟩,rfl,rfl,less⟩

theorem share_nonneg (rrf_k : Nat) (id : ι) (ranking : List ι) : 0 ≤ share rrf_k id ranking := by
  unfold share
  split
  · exact (reciprocal_pos _ _).le
  · exact le_rfl

theorem share_le (rrf_k : Nat) (id : ι) (ranking : List ι) : share rrf_k id ranking ≤ reciprocal rrf_k 0 := by
  unfold share
  split
  · exact reciprocal_le rrf_k (Nat.zero_le _)
  · exact (reciprocal_pos _ _).le

theorem share_absent {id : ι} {ranking : List ι} (rrf_k : Nat) (absent : id ∉ ranking) : share rrf_k id ranking = 0 := if_neg absent

-- Every place of a ranking of at most 61 entries gives at least 1/121.
theorem share_present {id : ι} {ranking : List ι} (short : ranking.length ≤ 61) (member : id ∈ ranking) :
    reciprocal rrfK 60 ≤ share rrfK id ranking := by
  have place := List.idxOf_lt_length_of_mem member
  rw [share,if_pos member]
  exact reciprocal_le rrfK (by omega)

theorem both_beat_one (first second : List ι) (first_distinct : first.Nodup) (second_distinct : second.Nodup)
    (first_short : first.length ≤ 61) (second_short : second.length ≤ 61) (in_first : both ∈ first) (in_second : both ∈ second)
    (one : single ∉ first ∨ single ∉ second) :
    reciprocalScore rrfK [first,second] single < reciprocalScore rrfK [first,second] both := by
  have distinct : ∀ ranking ∈ [first,second], ranking.Nodup := by simp [first_distinct,second_distinct]
  have twice : reciprocal rrfK 0 < reciprocal rrfK 60 + reciprocal rrfK 60 := by decide +kernel
  have high : reciprocal rrfK 60 + reciprocal rrfK 60 ≤ share rrfK both first + share rrfK both second :=
    add_le_add (share_present first_short in_first) (share_present second_short in_second)
  have low : share rrfK single first + share rrfK single second ≤ reciprocal rrfK 0 := by
    rcases one with absent | absent
    · rw [share_absent rrfK absent,zero_add]
      exact share_le _ _ _
    · rw [share_absent rrfK absent,add_zero]
      exact share_le _ _ _
  rw [score_shares distinct,score_shares distinct]
  simpa using low.trans_lt (twice.trans_le high)

theorem zip_ids (chunk_ids : List Uuid) (scores : List ℚ) :
    (chunk_ids.zipWith SparseSearchResult.mk scores).map (·.chunk_id) = chunk_ids.take scores.length := by
  induction chunk_ids generalizing scores with
  | nil => simp
  | cons id rest ih => cases scores <;> simp [ih]

-- The sparse side repeats no chunk: ids are the primary key.
theorem sparse_ranking {chunk_ids : List Uuid}
    (ranked_ : SparseSearch.rank deployment call version bm25 chunk_ids = .ranked call version chunk_ids sparse_results)
    (stored : chunk_ids.Nodup) :
    (sparse_results.map (·.chunk_id)).Nodup ∧ (sparse_results.map (·.chunk_id)).length ≤ call.top_k := by
  cases bm25 with
  | none => cases ranked_; simp
  | some corpus =>
    cases ranked_
    generalize deployment.getScores corpus (tokenize call.query) = scores
    have zipped : ((chunk_ids.zipWith SparseSearchResult.mk scores).map (·.chunk_id)).Nodup := by
      rw [zip_ids]
      exact stored.sublist (List.take_sublist _ _)
    constructor
    · rw [rankByScore,List.map_take]
      exact (((List.perm_insertionSort _ _).map _).nodup_iff.mpr zipped).sublist (List.take_sublist _ _)
    · rw [List.length_map,rankByScore,List.length_take]
      exact min_le_left _ _

theorem before_take {a b : ι} {xs : List ι} (before : Before a b xs) (kept : b ∈ xs.take k) : a ∈ xs.take k := by
  obtain ⟨member,_,less⟩ := before
  have place : xs.idxOf b < (xs.take k).length := by
    conv_lhs => rw [← List.take_append_drop k xs]
    rw [List.idxOf_append_of_mem kept]
    exact List.idxOf_lt_length_of_mem kept
  rw [List.length_take] at place
  exact List.mem_take_iff_getElem.mpr ⟨xs.idxOf a,by omega,List.getElem_idxOf _⟩

-- Both loops give the list of the definition, the evaluator's cut at `top_k`.
theorem fusion_definition :
    (∀ rankings : List (List Uuid),
      IsFusion 60 rankings ((RagForge.reciprocalRankFusion rankings).map fun r => (r.chunk_id,r.fused_score))) ∧
    (∀ (dense_ranking sparse_ranking : List Uuid) (top_k : Nat),
      reciprocalRankFusion dense_ranking sparse_ranking 60 top_k =
        ((RagForge.reciprocalRankFusion [dense_ranking,sparse_ranking]).take top_k).map fun r => (r.chunk_id,r.fused_score)) ∧
    ∀ (ids : Type) [DecidableEq ids] (dense_ranking sparse_ranking : List ids),
      ∃ whole, IsFusion 60 [dense_ranking,sparse_ranking] whole ∧
        ∀ top_k, reciprocalRankFusion dense_ranking sparse_ranking 60 top_k = whole.take top_k := by
  have pairs (rankings : List (List Uuid)) :
      (RagForge.reciprocalRankFusion rankings).map (fun r => (r.chunk_id,r.fused_score)) = fused 60 rankings := by
    rw [production_fused,List.map_map]
    exact List.map_id _
  refine ⟨fun rankings => ?_,fun dense_ranking sparse_ranking top_k => ?_,fun ids _ dense_ranking sparse_ranking => ?_⟩
  · rw [pairs]
    exact fused_isFusion 60 rankings
  · rw [List.map_take,pairs,evaluator_fused]
  · exact ⟨_,fused_isFusion 60 _,fun top_k => evaluator_fused _ _ _ _⟩

-- With both lists cut at 61, fusion ranks agreement first.
theorem agreement_first :
    (∀ first second : List Uuid, first.Nodup → second.Nodup → first.length ≤ 61 → second.length ≤ 61 →
      ∀ both single, both ∈ first → both ∈ second → (single ∈ first ∧ single ∉ second ∨ single ∉ first ∧ single ∈ second) →
        Before both single ((RagForge.reciprocalRankFusion [first,second]).map (·.chunk_id))) ∧
    ∀ (deployment : Deployment) (store : VectorStore) (call : SparseSearch.Call) (version : Nat) (bm25 : Option Corpus)
      (chunk_ids : List Uuid) (dense_top_k : Nat) (dense_results : List VectorPoint) (sparse_results : List SparseSearchResult)
      (dense_ranking : List Uuid) (fused_top_k : Nat) (retrieved : List RetrievedChunk),
      dense_top_k ≤ 61 → call.top_k ≤ 61 → store.Answers call.workspace_id dense_top_k dense_results →
      SparseSearch.rank deployment call version bm25 chunk_ids = .ranked call version chunk_ids sparse_results →
      (dense_results.mapM fun r => Uuid.parse r.payload.chunk_id) = some dense_ranking → dense_ranking.Nodup → chunk_ids.Nodup →
      fuse dense_results sparse_results fused_top_k = some retrieved →
      ∀ both single, both ∈ dense_ranking → both ∈ sparse_results.map (·.chunk_id) →
        (single ∈ dense_ranking ∧ single ∉ sparse_results.map (·.chunk_id) ∨
          single ∉ dense_ranking ∧ single ∈ sparse_results.map (·.chunk_id)) →
        single ∈ retrieved.map (·.chunk_id) → both ∈ retrieved.map (·.chunk_id) := by
  have first_part : ∀ first second : List Uuid, first.Nodup → second.Nodup → first.length ≤ 61 → second.length ≤ 61 →
      ∀ both single, both ∈ first → both ∈ second → (single ∈ first ∧ single ∉ second ∨ single ∉ first ∧ single ∈ second) →
        Before both single ((RagForge.reciprocalRankFusion [first,second]).map (·.chunk_id)) := by
    intro first second first_distinct second_distinct first_short second_short both single in_first in_second one
    have less := both_beat_one first second first_distinct second_distinct first_short second_short in_first in_second
      (one.elim (fun only => .inr only.2) fun only => .inl only.1)
    refine (before_of_score ⟨first,by simp,in_first⟩ ?_ less).1
    rcases one with only | only
    · exact ⟨first,by simp,only.1⟩
    · exact ⟨second,by simp,only.2⟩
  refine ⟨first_part,?_⟩
  intro deployment store call version bm25 chunk_ids dense_top_k dense_results sparse_results dense_ranking fused_top_k retrieved
    dense_small sparse_small answered ranked_ parsed dense_distinct stored fused_ both single in_dense in_sparse one kept
  have dense_short : dense_ranking.length ≤ 61 := by
    rw [mapM_length parsed]
    exact answered.1.trans dense_small
  obtain ⟨sparse_distinct,sparse_short⟩ := sparse_ranking ranked_ stored
  have before := first_part dense_ranking (sparse_results.map (·.chunk_id)) dense_distinct sparse_distinct dense_short
    (sparse_short.trans sparse_small) both single in_dense in_sparse one
  simp only [fuse,parsed] at fused_
  cases Option.some.inj fused_
  rw [List.map_take] at kept ⊢
  exact before_take before kept

-- Chunk 2 is found by both searches, chunk 1 by the dense one alone.
def densePoints : List VectorPoint :=
  [⟨⟨11⟩,[],⟨Uuid.str ⟨1⟩,[],Uuid.str ⟨7⟩,[]⟩⟩,⟨⟨12⟩,[],⟨Uuid.str ⟨2⟩,[],Uuid.str ⟨7⟩,[]⟩⟩]

def sparseCall : SparseSearch.Call := ⟨0,⟨7⟩,"alpha".toList,50⟩

theorem densePoints_parsed : (densePoints.mapM fun r => Uuid.parse r.payload.chunk_id) = some [⟨1⟩,⟨2⟩] := by
  simp [densePoints,Uuid.parse_str]

theorem agreement_first_kept :
    Before (⟨2⟩ : Uuid) ⟨1⟩ ((RagForge.reciprocalRankFusion [[⟨1⟩,⟨2⟩],[⟨2⟩,⟨3⟩]]).map (·.chunk_id)) ∧
    ∃ retrieved, fuse densePoints [⟨⟨2⟩,1⟩] 2 = some retrieved ∧ (⟨2⟩ : Uuid) ∈ retrieved.map (·.chunk_id) := by
  obtain ⟨before,kept⟩ := agreement_first
  have fused_ : fuse densePoints [⟨⟨2⟩,1⟩] 2 = some ((RagForge.reciprocalRankFusion [[⟨1⟩,⟨2⟩],[⟨2⟩]]).take 2) := by
    simp only [fuse,densePoints_parsed]
    rfl
  refine ⟨before _ _ (by decide) (by decide) (by decide) (by decide) _ _ (by decide) (by decide) (by decide),_,fused_,?_⟩
  exact kept Site.plain densePoints sparseCall 0 (some [["alpha".toList]]) [⟨2⟩] 50 densePoints [⟨⟨2⟩,1⟩] [⟨1⟩,⟨2⟩] 2 _
    (by decide) (by decide) ⟨by decide,by decide⟩ rfl densePoints_parsed (by decide) (by decide) fused_ ⟨2⟩ ⟨1⟩
    (by decide) (by decide) (by decide) (by decide +kernel)

theorem unanimity_first (rankings : List (List Uuid)) (a b : Uuid) (distinct : ∀ ranking ∈ rankings, ranking.Nodup)
    (occurs : ∃ ranking ∈ rankings, b ∈ ranking) (earlier : ∀ ranking ∈ rankings, b ∈ ranking → Before a b ranking) :
    Before a b ((RagForge.reciprocalRankFusion rankings).map (·.chunk_id)) ∧
      ∃ better ∈ RagForge.reciprocalRankFusion rankings, ∃ worse ∈ RagForge.reciprocalRankFusion rankings,
        better.chunk_id = a ∧ worse.chunk_id = b ∧ worse.fused_score < better.fused_score := by
  have ahead : ∀ ranking ∈ rankings, b ∈ ranking → share rrfK b ranking < share rrfK a ranking := by
    intro ranking member inside
    obtain ⟨present,_,less⟩ := earlier ranking member inside
    rw [share,share,if_pos inside,if_pos present]
    exact reciprocal_lt rrfK less
  have never_behind : ∀ ranking ∈ rankings, share rrfK b ranking ≤ share rrfK a ranking := by
    intro ranking member
    by_cases inside : b ∈ ranking
    · exact (ahead ranking member inside).le
    · rw [share_absent rrfK inside]
      exact share_nonneg _ _ _
  obtain ⟨ranking,member,inside⟩ := occurs
  refine before_of_score ⟨ranking,member,(earlier ranking member inside).1⟩ ⟨ranking,member,inside⟩ ?_
  rw [score_shares distinct,score_shares distinct]
  exact List.sum_lt_sum _ _ never_behind ⟨ranking,member,ahead ranking member inside⟩

theorem unanimity_first_three :
    Before (⟨1⟩ : Uuid) ⟨2⟩ ((RagForge.reciprocalRankFusion [[⟨3⟩,⟨1⟩,⟨2⟩],[⟨1⟩,⟨2⟩],[⟨1⟩]]).map (·.chunk_id)) :=
  (unanimity_first [[⟨3⟩,⟨1⟩,⟨2⟩],[⟨1⟩,⟨2⟩],[⟨1⟩]] ⟨1⟩ ⟨2⟩ (by decide) (by decide) (by decide)).1

end RagForge.Fusion
