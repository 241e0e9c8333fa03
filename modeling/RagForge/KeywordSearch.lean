import Mathlib.Algebra.Order.Field.Basic
import Mathlib.Algebra.Order.Field.Rat
import RagForge.Site
import RagForge.Provenance
import RagForge.RankedList

namespace RagForge.KeywordSearch
open RagForge Transition

theorem asciiRuns_nil {before text : Str} : asciiRuns before text = [] ↔ before = [] ∧ ∀ c ∈ text, isAsciiAlnum c = false := by
  induction text generalizing before with
  | nil => simp [asciiRuns]
  | cons c rest ih =>
    unfold asciiRuns
    by_cases plain : isAsciiAlnum c = true
    · simp [plain,ih]
    · cases before <;> simp [plain,ih]

-- A text has a token exactly if it has an ASCII letter or digit.
theorem tokenize_nil : tokenize text = [] ↔ ∀ c ∈ text, isAsciiAlnum c = false := by
  simp [tokenize,asciiRuns_nil]

def corpusOf (rows : List (Uuid × Str)) : Corpus := rows.map fun row => tokenize row.2

-- Something for the constructor to average over, or no construction.
def Indexable (rows : List (Uuid × Str)) : Prop := rows = [] ∨ ∃ row ∈ rows, ∃ c ∈ row.2, isAsciiAlnum c = true

theorem indexable_iff : Indexable rows ↔ rows = [] ∨ BM25Okapi (corpusOf rows) = some (corpusOf rows) := by
  refine or_congr_right ?_
  have empty : (corpusOf rows).all (·.isEmpty) = true ↔ ∀ row ∈ rows, ∀ c ∈ row.2, isAsciiAlnum c = false := by
    simp [corpusOf,tokenize_nil]
  unfold BM25Okapi
  split
  · rename_i nothing
    have none_ := empty.mp nothing
    refine iff_of_false ?_ nofun
    rintro ⟨row,member,c,inside,plain⟩
    rw [none_ row member c inside] at plain
    cases plain
  · rename_i something
    have some_ := empty.not.mp something
    refine iff_of_true ?_ rfl
    by_contra absent
    refine some_ fun row member c inside => Bool.eq_false_iff.mpr fun plain => absent ⟨row,member,c,inside,plain⟩

-- What `sparse_search` answers over the rows it indexes; `none` is the exception.
def answer (deployment : Deployment) (rows : List (Uuid × Str)) (query : Str) (top_k : Nat) : Option (List SparseSearchResult) :=
  if rows.isEmpty then some []
  else (BM25Okapi (corpusOf rows)).map fun corpus =>
    rankByScore (rows.map Prod.fst) (deployment.getScores corpus (tokenize query)) top_k

theorem answer_none : answer deployment rows query top_k = none ↔ ¬ Indexable rows := by
  rw [indexable_iff]
  unfold answer BM25Okapi
  cases rows with
  | nil => simp
  | cons row rest =>
    simp only [List.isEmpty_cons,Bool.false_eq_true,if_false,reduceCtorEq,false_or]
    split <;> simp

-- The index of these rows as `sparse_search` caches it.
def IndexOf (rows : List (Uuid × Str)) (entry : CacheEntry) : Prop :=
  entry.chunk_ids = rows.map Prod.fst ∧ if rows.isEmpty then entry.bm25 = none else entry.bm25 = some (corpusOf rows)

-- Fresh or cached, the index of the same rows gives the same answer.
theorem cachePut_answer (deployment : Deployment) (s : Stores) (call : SparseSearch.Call) (version : Nat) (rows : List (Uuid × Str)) :
    match answer deployment rows call.query call.top_k with
    | some results => ∃ entry, IndexOf rows entry ∧ entry.version = version ∧
        SparseSearch.act deployment s (.selected call version rows) .cachePut =
          some (SparseSearch.setCache s call.worker ((s.caches call.worker).put call.workspace_id entry),
            .ranked call version (rows.map Prod.fst) results)
    | none => SparseSearch.act deployment s (.selected call version rows) .cachePut =
        some (s,.raised call ⟨false,"division by zero".toList⟩) := by
  unfold answer
  cases rows with
  | nil => exact ⟨⟨version,none,[]⟩,⟨rfl,rfl⟩,rfl,rfl⟩
  | cons row rest =>
    simp only [List.isEmpty_cons,Bool.false_eq_true,if_false,SparseSearch.act]
    cases built : BM25Okapi (corpusOf (row :: rest)) with
    | none =>
      have same : BM25Okapi ((row :: rest).map fun row => tokenize row.2) = none := built
      simp only [Option.map_none,same]
    | some corpus =>
      have same : BM25Okapi ((row :: rest).map fun row => tokenize row.2) = some corpus := built
      have whole : corpus = corpusOf (row :: rest) := by
        unfold BM25Okapi at built
        split at built <;> cases built
        rfl
      simp only [Option.map_some,same,whole]
      exact ⟨⟨version,some (corpusOf (row :: rest)),_⟩,⟨rfl,rfl⟩,rfl,rfl⟩

-- One call by itself: nothing else moves between its steps.
def alone (deployment : Deployment) (c : Stores × SparseSearch.Phase) (label : SparseSearch.Label) : Option (Stores × SparseSearch.Phase) :=
  SparseSearch.act deployment c.1 c.2 label

def cached (s : Stores) (call : SparseSearch.Call) : Option (CacheEntry × WorkspaceBM25Cache) :=
  (s.caches call.worker).get call.workspace_id (s.versions call.workspace_id)

theorem Indexable.perm (same : rows.Perm others) (fine : Indexable others) : Indexable rows := by
  rcases fine with rfl | ⟨row,member,fine⟩
  · exact .inl same.eq_nil
  · exact .inr ⟨row,same.mem_iff.mpr member,fine⟩

-- Where a call that meets no outside failure can be.
inductive Along (s : Stores) (call : SparseSearch.Call) : Stores × SparseSearch.Phase → Prop where
  | requested : Along s call (s,.requested call)
  | versioned : Along s call (s,.versioned call (s.versions call.workspace_id))
  | missed : cached s call = none → Along s call (s,.missed call version)
  | selected : cached s call = none → rows.Perm (s.chunkRows call.workspace_id) → Along s call (s,.selected call version rows)
  | ranked : Along s call (after,.ranked call version chunk_ids results)

theorem along_step (fine : (∃ hit, cached s call = some hit) ∨ Indexable (s.chunkRows call.workspace_id))
    (along : Along s call c) (calm : ∀ failure, label ≠ .fails failure) (moved : alone deployment c label = some next) :
    Along s call next := by
  unfold alone SparseSearch.act at moved
  cases along with
  | requested =>
    cases label with
    | readVersion => cases moved; exact .versioned
    | fails failure => exact absurd rfl (calm failure)
    | _ => cases moved
  | versioned =>
    cases label with
    | cacheGet =>
      dsimp only at moved
      split at moved
      · rename_i entry cache _
        obtain ⟨results,ranked,_⟩ := SparseSearch.rank_ranked deployment call (s.versions call.workspace_id) entry.bm25 entry.chunk_ids
        rw [ranked] at moved
        cases moved
        exact .ranked
      · rename_i missed
        cases moved
        exact .missed missed
    | fails failure => exact absurd rfl (calm failure)
    | _ => cases moved
  | missed none_ =>
    cases label with
    | select rows =>
      dsimp only at moved
      split at moved
      · rename_i same
        cases moved
        exact .selected none_ same
      · cases moved
    | fails failure => exact absurd rfl (calm failure)
    | _ => cases moved
  | @selected version rows none_ same =>
    have rows_fine : Indexable rows := by
      rcases fine with ⟨hit,some_⟩ | fine
      · rw [none_] at some_; cases some_
      · exact fine.perm same
    cases label with
    | cachePut =>
      have put := cachePut_answer deployment s call version rows
      cases answered : answer deployment rows call.query call.top_k with
      | none => exact absurd rows_fine (answer_none.mp answered)
      | some results =>
        rw [answered] at put
        obtain ⟨entry,_,_,acted⟩ := put
        cases moved.symm.trans acted
        exact .ranked
    | fails failure => exact absurd rfl (calm failure)
    | _ => cases moved
  | ranked => cases label <;> cases moved

-- A call raises of its own exactly if it has to build an index over chunks that
-- have no ASCII letter or digit among them.
theorem sparse_search_never_raises_iff (deployment : Deployment) (s : Stores) (call : SparseSearch.Call) :
    (∀ labels c, Runs (taken (alone deployment)) (s,.requested call) labels c → (∀ failure, .fails failure ∉ labels) →
      ∀ error, c.2 ≠ .raised call error) ↔
    (∃ hit, cached s call = some hit) ∨ Indexable (s.chunkRows call.workspace_id) := by
  constructor
  · intro never
    by_contra broken
    obtain ⟨uncached,bare⟩ := not_or.mp broken
    have missed : cached s call = none := Option.eq_none_iff_forall_not_mem.mpr fun hit some_ => uncached ⟨hit,some_⟩
    let version := s.versions call.workspace_id
    let rows := s.chunkRows call.workspace_id
    have first : taken (alone deployment) (s,.requested call) .readVersion (s,.versioned call version) := rfl
    have second : taken (alone deployment) (s,.versioned call version) .cacheGet (s,.missed call version) := by
      unfold cached at missed
      simp only [taken,alone,SparseSearch.act,version,missed]
    have third : taken (alone deployment) (s,.missed call version) (.select rows) (s,.selected call version rows) := by
      simp [taken,alone,SparseSearch.act,rows]
    have fourth : taken (alone deployment) (s,.selected call version rows) .cachePut
        (s,.raised call ⟨false,"division by zero".toList⟩) := by
      have put := cachePut_answer deployment s call version rows
      rw [answer_none.mpr bare] at put
      exact put
    exact never _ _ ((((Runs.single first).snoc second).snoc third).snoc fourth) (by simp) _ rfl
  · intro fine labels c path
    have kept := path.history (fun labels c => (∀ failure, .fails failure ∉ labels) → Along s call c) (fun _ => .requested)
      fun labels before label next _ along moved calm =>
        along_step fine (along fun failure member => calm failure (List.mem_append_left _ member))
          (fun failure same => calm failure (same ▸ List.mem_append_right _ (List.mem_singleton.mpr rfl))) moved
    intro calm error raised
    have there := kept calm
    obtain ⟨after,phase⟩ := c
    cases raised
    cases there

-- A document in another script, its ingestion, and a search of its workspace.
def cyrillic : Ingestion.Providers := {Site.providers with parse := fun _ _ => .ok ⟨[⟨1,"Привет".toList⟩]⟩}

def reader : Site.Config where
  shared := Site.vacant
  locals := fun
    | 0 => .upload (.requested Site.memo)
    | 1 => .ingest (.received ⟨10⟩ none)
    | 2 => .search (.requested ⟨0,⟨1⟩,"Привет".toList,50⟩)
    | _ => .idle

def cyrillicSearch : List (Nat × Site.Label) :=
  Site.uploadSteps 0 ⟨10⟩ ⟨11⟩ ++ [(1,.ingest (.load ⟨14⟩ 1)),(1,.ingest (.prepare cyrillic [(⟨12⟩,⟨13⟩)])),(1,.ingest (.clear .ok)),
    (1,.ingest (.index .ok)),(1,.ingest (.persist 2)),(1,.ingest .invalidate),
    (2,.search .readVersion),(2,.search .cacheGet),(2,.search (.select [(⟨12⟩,"Привет".toList)])),(2,.search .cachePut)]

def raised : Site.Activity → Bool
  | .search (.raised _ _) => true
  | _ => false

theorem cyrillic_search_raises : ¬ ∀ (deployment : Deployment) (start c : Site.Config) (labels : List (Nat × Site.Label)),
    Provenance.Opening start.shared → (∀ i, (start.locals i).fresh = true) → Runs (Site.Step deployment) start labels c →
    (∀ i failure, (i,Site.Label.search (.fails failure)) ∉ labels) → ∀ i call error, c.locals i ≠ .search (.raised call error) := by
  intro all
  obtain ⟨c,path,broken⟩ := run_any (Interleave.advance (Site.act Site.plain)) reader cyrillicSearch
    (fun c => raised (c.locals 2)) (by decide +kernel)
  have fresh (i : Nat) : (reader.locals i).fresh = true := by
    unfold reader; dsimp only; split <;> rfl
  have never := all Site.plain reader c cyrillicSearch Provenance.vacant_opening fresh path
    (by simp [cyrillicSearch,Site.uploadSteps]) 2
  unfold raised at broken
  split at broken
  · rename_i call error there
    exact never call error there
  · cases broken

-- A chunk matches a query that names one of its tokens.
def Shares (content query : Str) : Prop := ∃ token ∈ tokenize content, token ∈ tokenize query

instance (content query : Str) : Decidable (Shares content query) :=
  inferInstanceAs (Decidable (∃ token ∈ tokenize content, token ∈ tokenize query))

def scoresOf (deployment : Deployment) (rows : List (Uuid × Str)) (query : Str) : List ℚ :=
  deployment.getScores (corpusOf rows) (tokenize query)

-- The chunks ranked before the one at place `i`: higher scores, and equal
-- scores that stand before it.
def rankedBefore (scores : List ℚ) (i : Nat) : Nat := RankedList.preceding id scores i (scores.getD i 0)

def entries (deployment : Deployment) (rows : List (Uuid × Str)) (query : Str) : List SparseSearchResult :=
  (rows.map Prod.fst).zipWith SparseSearchResult.mk (scoresOf deployment rows query)

theorem answer_results (answered : answer deployment rows query top_k = some results) :
    results = (RankedList.ranked SparseSearchResult.score (entries deployment rows query)).take top_k := by
  unfold answer at answered
  cases rows with
  | nil =>
    cases Option.some.inj answered
    simp [RankedList.ranked,entries]
  | cons row rest =>
    obtain ⟨corpus,built,equal⟩ := Option.map_eq_some_iff.mp answered
    subst equal
    have whole : corpus = corpusOf (row :: rest) := by
      unfold BM25Okapi at built
      split at built <;> cases built
      rfl
    rw [whole]
    rfl

section Ranking
variable {deployment : Deployment} {rows : List (Uuid × Str)} {query : Str}
variable (scored : (scoresOf deployment rows query).length = rows.length)
include scored

theorem entries_ids : (entries deployment rows query).map (·.chunk_id) = rows.map Prod.fst := by
  unfold entries
  rw [← List.map_uncurry_zip_eq_zipWith,List.map_map]
  exact List.map_fst_zip (by rw [List.length_map,scored])

theorem entries_scores : (entries deployment rows query).map (·.score) = scoresOf deployment rows query := by
  unfold entries
  rw [← List.map_uncurry_zip_eq_zipWith,List.map_map]
  exact List.map_snd_zip (by rw [List.length_map,scored])

theorem entries_at (at_ : rows[i]? = some row) :
    ∃ entry, (entries deployment rows query)[i]? = some entry ∧ entry.chunk_id = row.1 ∧
      RankedList.preceding SparseSearchResult.score (entries deployment rows query) i entry =
        rankedBefore (scoresOf deployment rows query) i := by
  have id_ := congrArg (·[i]?) (entries_ids scored)
  simp only [List.getElem?_map,at_,Option.map_some] at id_
  obtain ⟨entry,there,named⟩ := Option.map_eq_some_iff.mp id_
  refine ⟨entry,there,named,?_⟩
  have score := congrArg (·[i]?) (entries_scores scored)
  simp only [List.getElem?_map,there,Option.map_some] at score
  rw [RankedList.preceding_map,rankedBefore,entries_scores scored,List.getD_eq_getElem?_getD,← score]
  rfl

-- A chunk is returned exactly if fewer than `top_k` chunks are ranked before it.
theorem returned_iff (stored : (rows.map Prod.fst).Nodup) (answered : answer deployment rows query top_k = some results)
    (at_ : rows[i]? = some row) :
    row.1 ∈ results.map (·.chunk_id) ↔ rankedBefore (scoresOf deployment rows query) i < top_k := by
  obtain ⟨entry,there,named,before⟩ := entries_at scored at_
  have apart : ((entries deployment rows query).map (·.chunk_id)).Nodup := by rw [entries_ids scored]; exact stored
  rw [answer_results answered,← before,← RankedList.mem_best (.of_map _ apart) there,← named]
  constructor
  · intro member
    obtain ⟨other,best,same⟩ := List.mem_map.mp member
    have stored := (RankedList.ranked_perm _).mem_iff.mp (List.mem_of_mem_take best)
    rw [← List.inj_on_of_nodup_map apart stored (List.mem_of_getElem? there) same]
    exact best
  · exact fun best => List.mem_map.mpr ⟨entry,best,rfl⟩

theorem matches_iff (stored : (rows.map Prod.fst).Nodup) (answered : answer deployment rows query top_k = some results) :
    (∀ r ∈ results, ∃ row ∈ rows, row.1 = r.chunk_id ∧ Shares row.2 query) ↔
      ∀ i row, rows[i]? = some row → ¬ Shares row.2 query → top_k ≤ rankedBefore (scoresOf deployment rows query) i := by
  constructor
  · intro matched i row at_ other
    by_contra near
    obtain ⟨r,member,same⟩ := List.mem_map.mp ((returned_iff scored stored answered at_).mpr (Nat.lt_of_not_le near))
    obtain ⟨row',present,named,shares⟩ := matched r member
    cases List.inj_on_of_nodup_map stored present (List.mem_of_getElem? at_) (named.trans same)
    exact other shares
  · intro far r member
    have known : r.chunk_id ∈ rows.map Prod.fst := by
      rw [← entries_ids scored]
      rw [answer_results answered] at member
      exact List.mem_map.mpr ⟨r,(RankedList.ranked_perm _).mem_iff.mp (List.mem_of_mem_take member),rfl⟩
    obtain ⟨row,present,named⟩ := List.mem_map.mp known
    obtain ⟨i,at_⟩ := List.mem_iff_getElem?.mp present
    refine ⟨row,present,named,?_⟩
    by_contra other
    have returned := (returned_iff scored stored answered at_).mp (List.mem_map.mpr ⟨r,member,named.symm⟩)
    have := far i row at_ other
    omega

-- Equal scores keep the order of the rows.
theorem level_results (answered : answer deployment rows query top_k = some results)
    (level : ∀ score ∈ scoresOf deployment rows query, score = 0) :
    results.map (·.chunk_id) = (rows.map Prod.fst).take top_k := by
  have zero : ∀ entry ∈ entries deployment rows query, entry.score = 0 := by
    intro entry member
    refine level _ ?_
    rw [← entries_scores scored]
    exact List.mem_map.mpr ⟨entry,member,rfl⟩
  rw [answer_results answered,RankedList.ranked_self,List.map_take,entries_ids scored]
  exact List.pairwise_of_forall_mem_list fun a first b second => by rw [zero a first,zero b second]

end Ranking

theorem addScore_absent (absent : chunk_id ∉ scores.map Prod.fst) : addScore chunk_id gain scores = scores ++ [(chunk_id,gain)] := by
  induction scores with
  | nil => rfl
  | cons head rest ih =>
    obtain ⟨other,absent⟩ := not_or.mp (List.mem_cons.not.mp absent)
    rw [addScore,if_neg (Ne.symm other),ih absent]
    rfl

-- What one ranking alone comes to.
def gains : Nat → List Uuid → List (Uuid × ℚ)
  | _,[] => []
  | rank,chunk_id :: rest => (chunk_id,1 / ((rrfK + rank + 1 : Nat) : ℚ)) :: gains (rank + 1) rest

theorem gains_ids (rank : Nat) (ranking : List Uuid) : (gains rank ranking).map Prod.fst = ranking := by
  induction ranking generalizing rank with
  | nil => rfl
  | cons chunk_id rest ih => rw [gains,List.map_cons,ih]

theorem addRanking_gains (distinct : ranking.Nodup) (apart : ∀ chunk_id ∈ ranking, chunk_id ∉ scores.map Prod.fst) :
    addRanking rank ranking scores = scores ++ gains rank ranking := by
  induction ranking generalizing rank scores with
  | nil => exact (List.append_nil _).symm
  | cons chunk_id rest ih =>
    obtain ⟨fresh,distinct⟩ := List.nodup_cons.mp distinct
    rw [addRanking,addScore_absent (apart chunk_id List.mem_cons_self),ih distinct,gains,List.append_assoc]
    · rfl
    · intro other member inside
      rw [List.map_append] at inside
      rcases List.mem_append.mp inside with old | new
      · exact apart other (List.mem_cons_of_mem _ member) old
      · rw [List.mem_singleton.mp new] at member
        exact fresh member

theorem gain_step (rank : Nat) : (1 : ℚ) / ((rrfK + (rank + 1) + 1 : Nat) : ℚ) ≤ 1 / ((rrfK + rank + 1 : Nat) : ℚ) := by
  apply one_div_le_one_div_of_le
  · exact_mod_cast Nat.succ_pos (rrfK + rank)
  · exact_mod_cast (by omega : rrfK + rank + 1 ≤ rrfK + (rank + 1) + 1)

theorem gains_bound (member : pair ∈ gains rank ranking) : pair.2 ≤ 1 / ((rrfK + rank + 1 : Nat) : ℚ) := by
  induction ranking generalizing rank with
  | nil => cases member
  | cons chunk_id rest ih =>
    rcases List.mem_cons.mp member with rfl | later
    · exact le_rfl
    · exact (ih later).trans (gain_step rank)

theorem gains_sorted (rank : Nat) (ranking : List Uuid) : (gains rank ranking).Pairwise fun a b => b.2 ≤ a.2 := by
  induction ranking generalizing rank with
  | nil => exact .nil
  | cons chunk_id rest ih =>
    exact .cons (fun pair member => (gains_bound member).trans (gain_step rank)) (ih (rank + 1))

-- Without a sparse side, fusion keeps the dense order.
theorem fuse_dense (parsed : (dense.mapM fun r : VectorPoint => Uuid.parse r.payload.chunk_id) = some ranking) (distinct : ranking.Nodup) :
    ∃ retrieved, fuse dense [] fused_top_k = some retrieved ∧ retrieved.map (·.chunk_id) = ranking.take fused_top_k := by
  refine ⟨_,by simp only [fuse,parsed]; rfl,?_⟩
  have alone_ : addRanking 0 ranking [] = gains 0 ranking := addRanking_gains distinct (by simp)
  simp only [reciprocalRankFusion,List.foldl_cons,List.foldl_nil,List.map_nil,alone_,addRanking]
  rw [List.Pairwise.insertionSort_eq (gains_sorted 0 ranking),List.map_take,List.map_map]
  exact congrArg (List.take fused_top_k) (gains_ids 0 ranking)

-- The list is the best `top_k` of all the workspace's chunks, matching or not.
theorem sparse_search_returns (deployment : Deployment) (rows : List (Uuid × Str)) (query : Str) (top_k : Nat)
    (results : List SparseSearchResult) (stored : (rows.map Prod.fst).Nodup)
    (scored : (scoresOf deployment rows query).length = rows.length)
    (answered : answer deployment rows query top_k = some results) :
    (∀ i row, rows[i]? = some row →
      (row.1 ∈ results.map (·.chunk_id) ↔ rankedBefore (scoresOf deployment rows query) i < top_k)) ∧
    ((∀ r ∈ results, ∃ row ∈ rows, row.1 = r.chunk_id ∧ Shares row.2 query) ↔
      ∀ i row, rows[i]? = some row → ¬ Shares row.2 query → top_k ≤ rankedBefore (scoresOf deployment rows query) i) ∧
    ((∀ score ∈ scoresOf deployment rows query, score = 0) → results.map (·.chunk_id) = (rows.map Prod.fst).take top_k) ∧
    (results = [] ↔ rows = [] ∨ top_k = 0) ∧
    (results = [] → ∀ dense ranking fused_top_k,
      (dense.mapM fun r : VectorPoint => Uuid.parse r.payload.chunk_id) = some ranking → ranking.Nodup →
      ∃ retrieved, fuse dense results fused_top_k = some retrieved ∧ retrieved.map (·.chunk_id) = ranking.take fused_top_k) := by
  refine ⟨fun i row at_ => returned_iff scored stored answered at_,matches_iff scored stored answered,
    level_results scored answered,?_,fun none_ dense ranking fused_top_k parsed distinct => none_ ▸ fuse_dense parsed distinct⟩
  have size : (RankedList.ranked SparseSearchResult.score (entries deployment rows query)).length = rows.length := by
    rw [(RankedList.ranked_perm _).length_eq,← List.length_map (·.chunk_id),entries_ids scored,List.length_map]
  rw [answer_results answered,← List.length_eq_zero_iff,List.length_take,size,← List.length_eq_zero_iff]
  omega

-- A workspace of three chunks and a query in none of them: every score is 0.
def library : List (Uuid × Str) := [(⟨12⟩,"Alpha".toList),(⟨13⟩,"Beta".toList),(⟨14⟩,"Gamma".toList)]

def silent : Deployment := {Site.plain with getScores := fun corpus _ => corpus.map fun _ => 0}

theorem library_returns : ∃ results, answer silent library "Delta".toList 2 = some results ∧
    results.map (·.chunk_id) = [⟨12⟩,⟨13⟩] ∧ ¬ ∀ r ∈ results, ∃ row ∈ library, row.1 = r.chunk_id ∧ Shares row.2 "Delta".toList := by
  obtain ⟨results,answered⟩ : ∃ results, answer silent library "Delta".toList 2 = some results :=
    Option.isSome_iff_exists.mp (by decide)
  obtain ⟨_,matched,level,_,_⟩ := sparse_search_returns silent library "Delta".toList 2 results (by decide) (by decide) answered
  refine ⟨results,answered,level (by decide),fun all => ?_⟩
  have far := matched.mp all 0 _ rfl (by decide)
  revert far
  decide

-- Chunks that share no token with the query score 0.
def Faithful (deployment : Deployment) : Prop := ∀ (rows : List (Uuid × Str)) (query : Str),
  (scoresOf deployment rows query).length = rows.length ∧
    ∀ (i : Nat) row, rows[i]? = some row → ¬ Shares row.2 query → (scoresOf deployment rows query)[i]? = some 0

theorem unmatched_returned : ¬ ∀ (deployment : Deployment) (rows : List (Uuid × Str)) (query : Str) (top_k : Nat)
    (results : List SparseSearchResult), Faithful deployment → (rows.map Prod.fst).Nodup →
    answer deployment rows query top_k = some results → ∀ r ∈ results, ∃ row ∈ rows, row.1 = r.chunk_id ∧ Shares row.2 query := by
  intro all
  have faithful : Faithful silent := by
    intro rows query
    refine ⟨by simp [scoresOf,silent,corpusOf],fun i row at_ _ => ?_⟩
    obtain ⟨bound,_⟩ := List.getElem?_eq_some_iff.mp at_
    simp [scoresOf,silent,corpusOf,bound]
  obtain ⟨r,member,none_⟩ : ∃ r ∈ rankByScore [⟨12⟩,⟨13⟩,⟨14⟩] [0,0,0] 50,
      ∀ row ∈ library, ¬ (row.1 = r.chunk_id ∧ Shares row.2 "Delta".toList) := by
    decide +kernel
  obtain ⟨row,present,both⟩ := all silent library "Delta".toList 50 _ faithful (by decide) rfl r member
  exact none_ row present both

end RagForge.KeywordSearch
