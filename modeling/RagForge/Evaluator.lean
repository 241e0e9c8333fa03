import RagForge.Bm25Cache
import RagForge.Fusion
import RagForge.Lowercase
import RagForge.Metrics

namespace RagForge.Evaluator
open RagForge OrderedDict RankedList Floating Fallible Metrics

structure DocumentChunk where
  id : Str
  content : Str
  domain : Str
  metadata : Dict Str Str

structure BenchmarkItem (R : Type) where
  query_id : Str
  query : Str
  ground_truth_relevance : Dict Str R

structure BenchmarkDataset (R : Type) where
  name : Str
  documents : List DocumentChunk
  items : List (BenchmarkItem R)

inductive RetrievalStrategy where
  | DENSE_ONLY | SPARSE_BM25 | HYBRID_RRF | HYBRID_RERANKED
  deriving DecidableEq

def RetrievalStrategy.value : RetrievalStrategy → Str
  | .DENSE_ONLY => "dense_only".toList
  | .SPARSE_BM25 => "sparse_bm25".toList
  | .HYBRID_RRF => "hybrid_rrf".toList
  | .HYBRID_RERANKED => "hybrid_reranked".toList

def isTokenChar (c : Char) : Bool := isAsciiAlnum c || c == '_'

-- `_tokenize`: the nonempty pieces between other characters. Both small sigmas
-- are other characters, so it does not matter which one a capital becomes.
def tokenize (text : Str) : List Str :=
  ((PyText.lower (fun _ _ => false) text).splitOnP fun c => !isTokenChar c).filter (!·.isEmpty)

section Search
variable (isalnum : Char → Bool)

-- `\b` between two neighbours; `isalnum` is Unicode's table of letters and digits.
def boundary (before after : Option Char) : Bool :=
  (before.any fun c => isalnum c || c == '_') != after.any fun c => isalnum c || c == '_'

-- `re.I` for a letter of a token: two more lowercase letters have the same capital.
def sameLetter (letter c : Char) : Bool :=
  (PyText.lowerChar c).head? == some letter || (letter == 'i' && c == 'ı') || (letter == 's' && c == 'ſ')

def matchesHere (token text : Str) : Bool :=
  token.length ≤ text.length && (token.zip text).all fun pair => sameLetter pair.1 pair.2

def searchFrom (token : Str) (before : Option Char) : Str → Bool
  | [] => false
  | c :: rest =>
    (boundary isalnum before (some c) && matchesHere token (c :: rest) &&
      boundary isalnum ((c :: rest).take token.length).getLast? ((c :: rest).drop token.length).head?) ||
    searchFrom token (some c) rest

-- `re.search(r"\b" + re.escape(token) + r"\b", content, re.I)`, for a token.
def exactMatch (token content : Str) : Bool := searchFrom isalnum token none content

end Search

-- `d[key]`
def item [DecidableEq κ] (d : Dict κ ν) (key : κ) : Except PyError ν :=
  match d.get? key with
  | some value => .ok value
  | none => .error .KeyError

-- `counts[key] = counts.get(key, 0) + 1` for each key.
def count [DecidableEq κ] (keys : List κ) : Dict κ Nat := Dict.fold id (fun old _ => old.getD 0 + 1) keys .empty

section Scorers
variable {R : Type} [Zero R] [One R] [Add R] [Sub R] [Mul R] [Div R] [NatCast R] [IntCast R] [RatCast R] [LinearOrder R]

structure DeterministicBM25Scorer (R : Type) where
  k1 : R
  b : R
  num_docs : Nat
  doc_tokens : Dict Str (List Str)
  doc_lengths : Dict Str Nat
  avg_doc_len : R
  doc_freq : Dict Str Nat

-- A document counts once for a token.
def DeterministicBM25Scorer.initWith (documents : List DocumentChunk) (k1 b : R) : Except PyError (DeterministicBM25Scorer R) := do
  let doc_tokens := Dict.of DocumentChunk.id
    (fun doc => tokenize (doc.content ++ ' ' :: PyText.join [' '] doc.metadata.values)) documents
  let doc_lengths : Dict Str Nat := Dict.of Prod.fst (fun pair => pair.2.length) doc_tokens.entries
  let avg_doc_len ←
    if 0 < documents.length then divide ((doc_lengths.values.sum : Nat) : R) (documents.length : R) else .ok 1
  return ⟨k1,b,documents.length,doc_tokens,doc_lengths,avg_doc_len,count (doc_tokens.values.flatMap List.dedup)⟩

-- The defaults, which doubles hold like every other decimal here.
def DeterministicBM25Scorer.init (documents : List DocumentChunk) : Except PyError (DeterministicBM25Scorer R) :=
  initWith documents (3 / 2 : ℚ) (3 / 4 : ℚ)

-- One round of the loop over the query's tokens.
def termScore (m : Library R) (s : DeterministicBM25Scorer R) (doc_len : Nat) (term_counts : Dict Str Nat)
    (doc_score : R) (q_token : Str) : Except PyError R :=
  match term_counts.get? q_token with
  | none => .ok doc_score
  | some tf => do
    let df := (s.doc_freq.get? q_token).getD 0
    let odds ← divide ((((s.num_docs : Int) - df : Int) : R) + (1 / 2 : ℚ)) ((df : R) + (1 / 2 : ℚ))
    let idf ← m.log (1 + odds)
    let numerator := (tf : R) * (s.k1 + 1)
    let relative ← divide (doc_len : R) s.avg_doc_len
    let denominator := (tf : R) + s.k1 * (1 - s.b + s.b * relative)
    return doc_score + idf * (← divide numerator denominator)

def docScore (m : Library R) (s : DeterministicBM25Scorer R) (query_tokens : List Str) (pair : Str × List Str) : Except PyError R := do
  let doc_len ← item s.doc_lengths pair.1
  query_tokens.foldlM (termScore m s doc_len (count pair.2)) 0

-- `ranked[:top_k]`; a negative count leaves off the last entries.
def upTo (top_k : Int) (entries : List α) : List α :=
  if 0 ≤ top_k then entries.take top_k.toNat else entries.take (entries.length - top_k.natAbs)

def DeterministicBM25Scorer.scoreUpTo (m : Library R) (s : DeterministicBM25Scorer R) (query : Str) (top_k : Int) :
    Except PyError (List (Str × R)) :=
  let query_tokens := tokenize query
  if query_tokens = [] ∨ s.num_docs = 0 then .ok []
  else do
    let scores ← Dict.ofM Prod.fst (docScore m s query_tokens) s.doc_tokens.entries
    return upTo top_k (ranked Prod.snd scores.entries)

-- The evaluator asks for a count.
def DeterministicBM25Scorer.score (m : Library R) (s : DeterministicBM25Scorer R) (query : Str) (top_k : Nat) :
    Except PyError (List (Str × R)) := s.scoreUpTo m query top_k

structure DeterministicDenseScorer where
  doc_tokens : Dict Str (Finset Str)

def DeterministicDenseScorer.init (documents : List DocumentChunk) : DeterministicDenseScorer :=
  ⟨Dict.of DocumentChunk.id (fun doc => (tokenize (doc.content ++ ' ' :: doc.domain)).toFinset) documents⟩

def jaccard (query_tokens : Finset Str) (pair : Str × Finset Str) : Except PyError R :=
  if query_tokens = ∅ ∨ pair.2 = ∅ then .ok 0
  else divide ((query_tokens ∩ pair.2).card : R) ((query_tokens ∪ pair.2).card : R)

def DeterministicDenseScorer.score (s : DeterministicDenseScorer) (query : Str) (top_k : Nat) :
    Except PyError (List (Str × R)) := do
  let scores ← Dict.ofM Prod.fst (jaccard (tokenize query).toFinset) s.doc_tokens.entries
  return (ranked Prod.snd scores.entries).take top_k

-- One candidate of the cross-encoder; an unknown one is passed over.
def rerankOne (isalnum : Char → Bool) (q_tokens : List Str) (documents_map : Dict Str DocumentChunk)
    (reranked : List (Str × R)) (doc_id : Str) : Except PyError (List (Str × R)) :=
  match documents_map.get? doc_id with
  | none => .ok reranked
  | some doc => do
    let doc_toks := tokenize doc.content
    let overlap := doc_toks.countP fun t => decide (t ∈ q_tokens.toFinset)
    let exact_match_bonus : R :=
      if q_tokens.any fun t => decide (4 < t.length) && exactMatch isalnum t doc.content then (3 / 2 : ℚ) else 0
    let share ← divide (overlap : R) ((doc_toks.length : R) + 1)
    return reranked ++ [(doc_id,share * (10 : ℚ) + exact_match_bonus)]

def crossEncoderRerank (isalnum : Char → Bool) (query : Str) (candidate_doc_ids : List Str)
    (documents_map : Dict Str DocumentChunk) (top_k : Nat) : Except PyError (List (Str × R)) := do
  let reranked ← candidate_doc_ids.foldlM (rerankOne isalnum (tokenize query) documents_map) []
  return (ranked Prod.snd reranked).take top_k

end Scorers

structure QueryEvaluationDetail (R : Type) where
  query_id : Str
  query : Str
  strategy : RetrievalStrategy
  retrieved_ids : List Str
  metrics : Dict Str R

-- All but the time it took.
structure EvaluationResult (R : Type) where
  dataset_name : Str
  num_queries : Nat
  strategy_results : Dict Str (Dict Str R)
  details : List (QueryEvaluationDetail R)

structure RetrievalEvaluator (R : Type) where
  dataset : BenchmarkDataset R
  bm25_scorer : DeterministicBM25Scorer R
  dense_scorer : DeterministicDenseScorer
  docs_map : Dict Str DocumentChunk

section Evaluation
variable {R : Type} [Zero R] [One R] [Add R] [Sub R] [Mul R] [Div R] [NatCast R] [IntCast R] [RatCast R] [LinearOrder R]

def RetrievalEvaluator.init (dataset : BenchmarkDataset R) : Except PyError (RetrievalEvaluator R) := do
  let bm25_scorer ← DeterministicBM25Scorer.init dataset.documents
  return ⟨dataset,bm25_scorer,.init dataset.documents,Dict.of DocumentChunk.id id dataset.documents⟩

variable (m : Library R) (isalnum : Char → Bool)

def RetrievalEvaluator.runStrategy (e : RetrievalEvaluator R) (query : Str) (strategy : RetrievalStrategy) (top_k : Nat) :
    Except PyError (List Str) :=
  match strategy with
  | .SPARSE_BM25 => do
    let scored ← e.bm25_scorer.score m query top_k
    return scored.map Prod.fst
  | .DENSE_ONLY => do
    let scored : List (Str × R) ← e.dense_scorer.score query top_k
    return scored.map Prod.fst
  | .HYBRID_RRF => do
    let dense_top : List (Str × R) ← e.dense_scorer.score query 20
    let sparse_top ← e.bm25_scorer.score m query 20
    let fused : List (Str × R) := Fusion.reciprocalRankFusion (dense_top.map Prod.fst) (sparse_top.map Prod.fst) 60 top_k
    return fused.map Prod.fst
  | .HYBRID_RERANKED => do
    let dense_top : List (Str × R) ← e.dense_scorer.score query 20
    let sparse_top ← e.bm25_scorer.score m query 20
    let fused : List (Str × R) := Fusion.reciprocalRankFusion (dense_top.map Prod.fst) (sparse_top.map Prod.fst) 60 20
    let reranked : List (Str × R) ← crossEncoderRerank isalnum query (fused.map Prod.fst) e.docs_map top_k
    return reranked.map Prod.fst

def strategies : List RetrievalStrategy := [.DENSE_ONLY,.SPARSE_BM25,.HYBRID_RRF,.HYBRID_RERANKED]

-- What the two loops build up.
structure Progress (R : Type) where
  strategy_metrics_accum : Dict Str (Dict Str (List R))
  details : List (QueryEvaluationDetail R)

variable [FloatRange R] [RoundDigits R]

-- One strategy on one item. `max(k_list)` is a count wherever it is positive.
def evaluateOne (e : RetrievalEvaluator R) (k_list : List Int) (query_item : BenchmarkItem R) (p : Progress R)
    (strat : RetrievalStrategy) : Except PyError (Progress R) :=
  match k_list.max? with
  | none => .error .ValueError
  | some top_k => do
    let retrieved_ids ← e.runStrategy m isalnum query_item.query strat top_k.toNat
    let metrics ← calculateRetrievalMetrics m retrieved_ids query_item.ground_truth_relevance (some k_list) 1
    let metric_lists ← item p.strategy_metrics_accum strat.value
    return {
      strategy_metrics_accum := p.strategy_metrics_accum.set strat.value
        (Dict.fold Prod.fst (fun old pair => old.getD [] ++ [pair.2]) metrics.entries metric_lists)
      details := p.details ++ [⟨query_item.query_id,query_item.query,strat,retrieved_ids,metrics⟩]}

def average (vals : List R) : Except PyError R :=
  if vals = [] then .ok 0 else do return RoundDigits.round 4 (← divide (m.sum vals) (vals.length : R))

def RetrievalEvaluator.evaluateAll (e : RetrievalEvaluator R) (k_list : Option (List Int)) : Except PyError (EvaluationResult R) := do
  let k_list := k_list.getD [1,3,5,10]
  let p ← e.dataset.items.foldlM (fun p query_item => strategies.foldlM (evaluateOne m isalnum e k_list query_item) p)
    ⟨Dict.of RetrievalStrategy.value (fun _ => .empty) strategies,[]⟩
  let strategy_results ← Dict.ofM Prod.fst
    (fun pair => Dict.ofM Prod.fst (fun entry => average m entry.2) pair.2.entries) p.strategy_metrics_accum.entries
  return ⟨e.dataset.name,e.dataset.items.length,strategy_results,p.details⟩

end Evaluation

section Counts

theorem count_snoc [DecidableEq κ] (keys : List κ) (key : κ) :
    count (keys ++ [key]) = (count keys).set key (((count keys).get? key).getD 0 + 1) := by
  rw [count,Dict.fold_append]
  rfl

theorem count_get [DecidableEq κ] (keys : List κ) (key : κ) : ((count keys).get? key).getD 0 = keys.count key := by
  induction keys using List.reverseRecOn with
  | nil => rfl
  | append_singleton keys last ih =>
    rw [count_snoc,Dict.get?_set,List.count_append]
    by_cases here : last = key
    · subst here
      simp [ih]
    · simp [here,ih]

theorem mem_of_count [DecidableEq κ] {keys : List κ} (found : (count keys).get? key = some n) : key ∈ keys := by
  have known := Dict.mem_keys.mpr ⟨n,found⟩
  rw [count,Dict.keys_fold,mem_notes] at known
  simpa using known

theorem count_of_mem [DecidableEq κ] {keys : List κ} (member : key ∈ keys) : ∃ n, (count keys).get? key = some n ∧ 0 < n := by
  have counted := count_get keys key
  have some_ : 0 < keys.count key := List.count_pos_iff.mpr member
  cases found : (count keys).get? key with
  | none =>
    rw [found,Option.getD_none] at counted
    omega
  | some n =>
    rw [found,Option.getD_some] at counted
    exact ⟨n,rfl,counted ▸ some_⟩

-- A token has one document at most for each.
theorem dedup_count [DecidableEq κ] (texts : List (List κ)) (token : κ) : (texts.flatMap List.dedup).count token ≤ texts.length := by
  induction texts with
  | nil => simp
  | cons tokens rest ih =>
    have once := List.nodup_iff_count_le_one.mp tokens.nodup_dedup token
    rw [List.flatMap_cons,List.count_append,List.length_cons]
    omega

end Counts

-- At most `top_k` distinct documents.
structure Found (documents : List DocumentChunk) (top_k : Nat) (ids : List Str) : Prop where
  distinct : ids.Nodup
  known : ∀ id ∈ ids, id ∈ documents.map DocumentChunk.id
  few : ids.length ≤ top_k

theorem found_take {entries : List (Str × α)} (top_k : Nat) (distinct : (entries.map Prod.fst).Nodup)
    (known : ∀ id ∈ entries.map Prod.fst, id ∈ documents.map DocumentChunk.id) :
    Found documents top_k ((entries.take top_k).map Prod.fst) := by
  have part : ((entries.take top_k).map Prod.fst).Sublist (entries.map Prod.fst) := (List.take_sublist _ _).map _
  constructor
  · exact distinct.sublist part
  · exact fun id member => known id (part.subset member)
  · rw [List.length_map]
    exact List.length_take_le _ _

theorem found_top {R : Type} [LinearOrder R] {entries : List (Str × R)} (top_k : Nat) (distinct : (entries.map Prod.fst).Nodup)
    (known : ∀ id ∈ entries.map Prod.fst, id ∈ documents.map DocumentChunk.id) :
    Found documents top_k (((ranked Prod.snd entries).take top_k).map Prod.fst) := by
  have perm : ((ranked Prod.snd entries).map Prod.fst).Perm (entries.map Prod.fst) := (ranked_perm entries).map _
  apply found_take
  · exact perm.nodup_iff.mpr distinct
  · exact fun id member => known id (perm.mem_iff.mp member)

section Bm25
variable {R : Type} [Zero R] [One R] [Add R] [Sub R] [Mul R] [Div R] [NatCast R] [IntCast R] [RatCast R] [LinearOrder R]
variable [OrderedArithmetic R] {documents : List DocumentChunk}
open OrderedArithmetic (natCast_le natCast_pos natCast_nonneg intCast_nonneg ratCast_pos ratCast_nonneg ratCast_le_one
  add_pos_left add_pos_right add_nonneg)

-- What the constructor leaves for the scores to rely on.
structure Indexed (documents : List DocumentChunk) (k1 b : R) (s : DeterministicBM25Scorer R) : Prop where
  k1 : s.k1 = k1
  b : s.b = b
  num_docs : s.num_docs = documents.length
  doc_tokens : s.doc_tokens = Dict.of DocumentChunk.id
    (fun doc => tokenize (doc.content ++ ' ' :: PyText.join [' '] doc.metadata.values)) documents
  known : ∀ id ∈ s.doc_tokens.keys, id ∈ documents.map DocumentChunk.id
  lengths : ∀ id tokens, s.doc_tokens.get? id = some tokens → s.doc_lengths.get? id = some tokens.length
  average : ∀ id tokens, s.doc_tokens.get? id = some tokens → tokens ≠ [] → 0 < s.avg_doc_len
  freq : ∀ token, (s.doc_freq.get? token).getD 0 ≤ s.num_docs

theorem init_indexed (documents : List DocumentChunk) (k1 b : R) :
    ∃ s : DeterministicBM25Scorer R, DeterministicBM25Scorer.initWith documents k1 b = .ok s ∧ Indexed documents k1 b s := by
  let doc_tokens := Dict.of DocumentChunk.id
    (fun doc => tokenize (doc.content ++ ' ' :: PyText.join [' '] doc.metadata.values)) documents
  let doc_lengths : Dict Str Nat := Dict.of Prod.fst (fun pair => pair.2.length) doc_tokens.entries
  have known : ∀ id ∈ doc_tokens.keys, id ∈ documents.map DocumentChunk.id := fun id => (Dict.mem_keys_of _ _ _).mp
  have lengths (id : Str) (tokens : List Str) (found : doc_tokens.get? id = some tokens) : doc_lengths.get? id = some tokens.length := by
    rw [Dict.get?_of_entries,found]
    rfl
  have few : doc_tokens.values.length ≤ documents.length := by
    rw [Dict.values_length,← List.length_map (f := DocumentChunk.id)]
    exact (List.subperm_of_subset doc_tokens.apart known).length_le
  have freq (token : Str) : ((count (doc_tokens.values.flatMap List.dedup)).get? token).getD 0 ≤ documents.length := by
    rw [count_get]
    exact (dedup_count _ token).trans few
  have average (id : Str) (tokens : List Str) (found : doc_tokens.get? id = some tokens) (some_ : tokens ≠ []) :
      0 < doc_lengths.values.sum := by
    have member : tokens.length ∈ doc_lengths.values :=
      List.mem_map.mpr ⟨_,Dict.mem_entries.mpr (lengths id tokens found),rfl⟩
    exact (List.length_pos_iff.mpr some_).trans_le (List.le_sum_of_mem member)
  by_cases docs : 0 < documents.length
  · have size : (documents.length : R) ≠ 0 := (natCast_pos docs).ne'
    refine ⟨⟨k1,b,documents.length,doc_tokens,doc_lengths,(doc_lengths.values.sum : Nat) / documents.length,_⟩,?_,
      rfl,rfl,rfl,rfl,known,lengths,?_,freq⟩
    · rw [DeterministicBM25Scorer.initWith,if_pos docs,divide,if_neg size]
      rfl
    · exact fun id tokens found some_ => OrderedArithmetic.div_pos (natCast_pos (average id tokens found some_)) (natCast_pos docs)
  · refine ⟨⟨k1,b,documents.length,doc_tokens,doc_lengths,1,_⟩,?_,rfl,rfl,rfl,rfl,known,lengths,?_,freq⟩
    · rw [DeterministicBM25Scorer.initWith,if_neg docs]
      rfl
    · exact fun _ _ _ _ => OrderedArithmetic.zero_lt_one

-- The two parameters in their ranges, and what the constructor counted.
structure Scoreable (s : DeterministicBM25Scorer R) : Prop where
  k1 : 0 ≤ s.k1
  b : 0 ≤ s.b
  b_le : s.b ≤ 1
  lengths : ∀ id tokens, s.doc_tokens.get? id = some tokens → s.doc_lengths.get? id = some tokens.length
  average : ∀ id tokens, s.doc_tokens.get? id = some tokens → tokens ≠ [] → 0 < s.avg_doc_len
  freq : ∀ token, (s.doc_freq.get? token).getD 0 ≤ s.num_docs

omit [OrderedArithmetic R] [Add R] [Sub R] [Mul R] [Div R] [NatCast R] [IntCast R] [RatCast R] in
theorem Indexed.scoreable {k1 b : R} {s : DeterministicBM25Scorer R} (indexed : Indexed documents k1 b s) (k1_nonneg : 0 ≤ k1) (b_nonneg : 0 ≤ b)
    (b_le : b ≤ 1) : Scoreable s :=
  ⟨k1_nonneg.trans_eq indexed.k1.symm,b_nonneg.trans_eq indexed.b.symm,indexed.b.trans_le b_le,indexed.lengths,indexed.average,
    indexed.freq⟩

omit [OrderedArithmetic R] in
-- A token the document has not got adds nothing.
theorem termScore_absent (m : Library R) (s : DeterministicBM25Scorer R) (doc_len : Nat) (doc_score : R) (absent : q_token ∉ tokens) :
    termScore m s doc_len (count tokens) doc_score q_token = .ok doc_score := by
  unfold termScore
  split
  · rfl
  · rename_i found
    exact absurd (mem_of_count found) absent

-- One that it has adds a positive multiple of the logarithm of more than one.
theorem termScore_present (m : Library R) {s : DeterministicBM25Scorer R} (scoreable : Scoreable s)
    (stored : s.doc_tokens.get? doc_id = some tokens) (present : q_token ∈ tokens) (doc_score : R) :
    ∃ odds weight, 0 < odds ∧ 0 < weight ∧
      termScore m s tokens.length (count tokens) doc_score q_token = .ok (doc_score + m.log_ (1 + odds) * weight) := by
  have positive := scoreable.average _ _ stored (List.ne_nil_of_mem present)
  have few := scoreable.freq q_token
  have half : (0 : R) < ((1 / 2 : ℚ) : R) := ratCast_pos one_half_pos
  obtain ⟨tf,found,some_⟩ := count_of_mem present
  have tf_pos : (0 : R) < (tf : R) := natCast_pos some_
  unfold termScore
  rw [found]
  dsimp only
  generalize (s.doc_freq.get? q_token).getD 0 = df at few
  have df_pos : (0 : R) < (df : R) + (1 / 2 : ℚ) := add_pos_right (natCast_nonneg _) half
  have others : (0 : R) ≤ (((s.num_docs : Int) - df : Int) : R) := intCast_nonneg (by omega)
  have odds : (0 : R) < ((((s.num_docs : Int) - df : Int) : R) + (1 / 2 : ℚ)) / ((df : R) + (1 / 2 : ℚ)) :=
    OrderedArithmetic.div_pos (add_pos_right others half) df_pos
  have argument := add_pos_left OrderedArithmetic.zero_lt_one odds.le
  have relative : (0 : R) ≤ (tokens.length : R) / s.avg_doc_len := OrderedArithmetic.div_nonneg (natCast_nonneg _) positive
  have denominator : (0 : R) < (tf : R) + s.k1 * (1 - s.b + s.b * ((tokens.length : R) / s.avg_doc_len)) :=
    add_pos_left tf_pos (OrderedArithmetic.mul_nonneg scoreable.k1
      (add_nonneg (OrderedArithmetic.sub_nonneg scoreable.b_le) (OrderedArithmetic.mul_nonneg scoreable.b relative)))
  have numerator : (0 : R) < (tf : R) * (s.k1 + 1) :=
    OrderedArithmetic.mul_pos tf_pos (add_pos_right scoreable.k1 OrderedArithmetic.zero_lt_one)
  refine ⟨_,_,odds,OrderedArithmetic.div_pos numerator denominator,?_⟩
  simp only [divide,if_neg df_pos.ne',Library.log,if_neg (not_le.mpr argument),if_neg positive.ne',if_neg denominator.ne',
    bind,Except.bind,pure,Except.pure]

theorem termScore_ok (m : Library R) {s : DeterministicBM25Scorer R} (scoreable : Scoreable s)
    (stored : s.doc_tokens.get? doc_id = some tokens) (doc_score : R) (q_token : Str) :
    ∃ v, termScore m s tokens.length (count tokens) doc_score q_token = .ok v := by
  by_cases present : q_token ∈ tokens
  · obtain ⟨_,_,_,_,scored⟩ := termScore_present m scoreable stored present doc_score
    exact ⟨_,scored⟩
  · exact ⟨_,termScore_absent m s _ doc_score present⟩

theorem docScore_ok (m : Library R) {s : DeterministicBM25Scorer R} (scoreable : Scoreable s) (query_tokens : List Str)
    (member : pair ∈ s.doc_tokens.entries) : ∃ v, docScore m s query_tokens pair = .ok v := by
  have stored := Dict.mem_entries.mp member
  unfold docScore item
  rw [scoreable.lengths _ _ stored]
  have loop : ∃ v, query_tokens.foldlM (termScore m s pair.2.length (count pair.2)) 0 = .ok v ∧ True := by
    apply foldlM_keeps trivial
    intro doc_score q_token _ _
    obtain ⟨v,scored⟩ := termScore_ok m scoreable stored doc_score q_token
    exact ⟨v,scored,trivial⟩
  obtain ⟨v,scored,_⟩ := loop
  exact ⟨v,scored⟩

theorem bm25_found (m : Library R) {s : DeterministicBM25Scorer R} (indexed : Indexed documents ((3 / 2 : ℚ) : R) ((3 / 4 : ℚ) : R) s)
    (query : Str) (top_k : Nat) : ∃ scored, s.score m query top_k = .ok scored ∧ Found documents top_k (scored.map Prod.fst) := by
  have scoreable := indexed.scoreable (ratCast_nonneg (by norm_num)) (ratCast_nonneg (by norm_num)) (ratCast_le_one (by norm_num))
  unfold DeterministicBM25Scorer.score DeterministicBM25Scorer.scoreUpTo
  dsimp only
  split
  · exact ⟨[],rfl,List.nodup_nil,nofun,Nat.zero_le _⟩
  · have each : ∀ pair ∈ s.doc_tokens.entries, ∃ v, docScore m s (tokenize query) pair = .ok v :=
      fun pair member => docScore_ok m scoreable (tokenize query) member
    obtain ⟨scores,computed,keys⟩ := Dict.ofM_exists Prod.fst each
    rw [computed]
    refine ⟨_,rfl,?_⟩
    rw [upTo,if_pos (Int.natCast_nonneg top_k),Int.toNat_natCast]
    exact found_top top_k scores.apart fun id member => indexed.known id ((keys id).mp member)

end Bm25

section Strategies
variable {R : Type} [Zero R] [One R] [Add R] [Sub R] [Mul R] [Div R] [NatCast R] [IntCast R] [RatCast R] [LinearOrder R]
variable [OrderedArithmetic R] {documents : List DocumentChunk}
open OrderedArithmetic (natCast_pos natCast_nonneg add_pos_right)

theorem jaccard_ok (query_tokens : Finset Str) (pair : Str × Finset Str) : ∃ v : R, jaccard query_tokens pair = .ok v := by
  unfold jaccard
  split
  · exact ⟨0,rfl⟩
  · rename_i tokens
    have some_ : query_tokens.Nonempty := Finset.nonempty_iff_ne_empty.mpr (not_or.mp tokens).1
    have size : (0 : R) < ((query_tokens ∪ pair.2).card : R) := natCast_pos (Finset.card_pos.mpr some_.inl)
    exact ⟨_,if_neg size.ne'⟩

theorem dense_found (documents : List DocumentChunk) (query : Str) (top_k : Nat) :
    ∃ scored : List (Str × R), (DeterministicDenseScorer.init documents).score query top_k = .ok scored ∧
      Found documents top_k (scored.map Prod.fst) := by
  have each : ∀ pair ∈ (DeterministicDenseScorer.init documents).doc_tokens.entries, ∃ v : R, jaccard (tokenize query).toFinset pair = .ok v :=
    fun pair _ => jaccard_ok _ pair
  obtain ⟨scores,computed,keys⟩ := Dict.ofM_exists Prod.fst each
  unfold DeterministicDenseScorer.score
  rw [computed]
  refine ⟨_,rfl,found_top top_k scores.apart fun id member => ?_⟩
  exact (Dict.mem_keys_of _ _ _).mp ((keys id).mp member)

omit [OrderedArithmetic R] [Sub R] [Mul R] [IntCast R] [RatCast R] in
theorem fusion_found (dense : Found documents k dense_ranking) (sparse : Found documents k' sparse_ranking) (top_k : Nat) :
    Found documents top_k ((Fusion.reciprocalRankFusion dense_ranking sparse_ranking 60 top_k : List (Str × R)).map Prod.fst) := by
  let scores : Dict Str R := Fusion.addGains 60 0 sparse_ranking (Fusion.addGains 60 0 dense_ranking .empty)
  apply found_top top_k scores.apart
  intro id member
  have noted : id ∈ scores.keys := member
  rw [Fusion.addGains_keys,Fusion.addGains_keys,mem_notes,mem_notes] at noted
  rcases noted with (early | first) | second
  · cases early
  · exact dense.known id first
  · exact sparse.known id second

-- The cross-encoder keeps the known candidates in their order until it sorts.
theorem rerankOne_sublist (isalnum : Char → Bool) (q_tokens : List Str) (documents_map : Dict Str DocumentChunk)
    (candidates : List Str) (reranked : List (Str × R)) :
    ∃ out kept, candidates.foldlM (rerankOne isalnum q_tokens documents_map) reranked = .ok out ∧ kept.Sublist candidates ∧
      out.map Prod.fst = reranked.map Prod.fst ++ kept := by
  induction candidates generalizing reranked with
  | nil => exact ⟨reranked,[],rfl,.slnil,by simp⟩
  | cons doc_id rest ih =>
    rw [List.foldlM_cons]
    cases found : documents_map.get? doc_id with
    | none =>
      obtain ⟨out,kept,ran,sub,names⟩ := ih reranked
      have here : rerankOne isalnum q_tokens documents_map reranked doc_id = .ok reranked := by rw [rerankOne,found]
      rw [here]
      exact ⟨out,kept,ran,sub.cons _,names⟩
    | some doc =>
      have size : (0 : R) < ((tokenize doc.content).length : R) + 1 := add_pos_right (natCast_nonneg _) OrderedArithmetic.zero_lt_one
      obtain ⟨score,here⟩ : ∃ score, rerankOne isalnum q_tokens documents_map reranked doc_id = .ok (reranked ++ [(doc_id,score)]) := by
        rw [rerankOne,found]
        simp only [divide,if_neg size.ne',bind,Except.bind,pure,Except.pure]
        exact ⟨_,rfl⟩
      obtain ⟨out,kept,ran,sub,names⟩ := ih (reranked ++ [(doc_id,score)])
      rw [here]
      exact ⟨out,doc_id :: kept,ran,sub.cons_cons _,by simp [names]⟩

theorem rerank_found (isalnum : Char → Bool) (query : Str) (candidates : Found documents k candidate_doc_ids)
    (documents_map : Dict Str DocumentChunk) (top_k : Nat) :
    ∃ reranked : List (Str × R), crossEncoderRerank isalnum query candidate_doc_ids documents_map top_k = .ok reranked ∧
      Found documents top_k (reranked.map Prod.fst) := by
  obtain ⟨out,kept,ran,sub,names⟩ := rerankOne_sublist (R := R) isalnum (tokenize query) documents_map candidate_doc_ids []
  unfold crossEncoderRerank
  rw [ran]
  refine ⟨_,rfl,found_top top_k ?_ ?_⟩
  · rw [names]
    exact candidates.distinct.sublist sub
  · rw [names]
    exact fun id member => candidates.known id (sub.subset member)

-- An evaluator as the constructor leaves it.
structure Built (dataset : BenchmarkDataset R) (e : RetrievalEvaluator R) : Prop where
  same : e.dataset = dataset
  indexed : Indexed dataset.documents ((3 / 2 : ℚ) : R) ((3 / 4 : ℚ) : R) e.bm25_scorer
  dense : e.dense_scorer = .init dataset.documents

theorem init_built (dataset : BenchmarkDataset R) : ∃ e, RetrievalEvaluator.init dataset = .ok e ∧ Built dataset e := by
  obtain ⟨s,made,indexed⟩ := init_indexed dataset.documents ((3 / 2 : ℚ) : R) ((3 / 4 : ℚ) : R)
  unfold RetrievalEvaluator.init DeterministicBM25Scorer.init
  rw [made]
  exact ⟨_,rfl,rfl,indexed,rfl⟩

theorem strategy_found (m : Library R) (isalnum : Char → Bool) {dataset : BenchmarkDataset R} {e : RetrievalEvaluator R} (built : Built dataset e)
    (query : Str) (strategy : RetrievalStrategy) (top_k : Nat) :
    ∃ ids, e.runStrategy m isalnum query strategy top_k = .ok ids ∧ Found dataset.documents top_k ids := by
  have dense (k : Nat) : ∃ scored : List (Str × R), e.dense_scorer.score query k = .ok scored ∧ Found dataset.documents k (scored.map Prod.fst) := by
    rw [built.dense]
    exact dense_found dataset.documents query k
  have sparse (k : Nat) := bm25_found m built.indexed query k
  unfold RetrievalEvaluator.runStrategy
  cases strategy with
  | SPARSE_BM25 =>
    obtain ⟨scored,ran,found⟩ := sparse top_k
    dsimp only
    rw [ran]
    exact ⟨_,rfl,found⟩
  | DENSE_ONLY =>
    obtain ⟨scored,ran,found⟩ := dense top_k
    dsimp only
    rw [ran]
    exact ⟨_,rfl,found⟩
  | HYBRID_RRF =>
    obtain ⟨dense_top,first,found⟩ := dense 20
    obtain ⟨sparse_top,second,found'⟩ := sparse 20
    dsimp only
    rw [first,second]
    exact ⟨_,rfl,fusion_found (R := R) found found' top_k⟩
  | HYBRID_RERANKED =>
    obtain ⟨dense_top,first,found⟩ := dense 20
    obtain ⟨sparse_top,second,found'⟩ := sparse 20
    obtain ⟨reranked,third,found⟩ := rerank_found (R := R) isalnum query (fusion_found (R := R) found found' 20) e.docs_map top_k
    dsimp only
    rw [first,second]
    simp only [bind,Except.bind]
    rw [third]
    exact ⟨_,rfl,found⟩

end Strategies

section Results
variable {R : Type} [Zero R] [One R] [Add R] [Sub R] [Mul R] [Div R] [NatCast R] [IntCast R] [RatCast R] [LinearOrder R]

-- The values a metric took under one strategy, item by item.
def recorded (details : List (QueryEvaluationDetail R)) (strategy : RetrievalStrategy) (name : Str) : List R :=
  (details.filter (·.strategy = strategy)).filterMap (·.metrics.get? name)

omit [Zero R] [One R] [Add R] [Sub R] [Mul R] [Div R] [NatCast R] [IntCast R] [RatCast R] [LinearOrder R] in
theorem recorded_snoc (details : List (QueryEvaluationDetail R)) (d : QueryEvaluationDetail R) (strategy : RetrievalStrategy) (name : Str) :
    recorded (details ++ [d]) strategy name =
      recorded details strategy name ++ if d.strategy = strategy then (d.metrics.get? name).toList else [] := by
  unfold recorded
  rw [List.filter_append,List.filterMap_append]
  split
  · rename_i own
    cases found : d.metrics.get? name <;> simp [own,found]
  · rename_i other
    simp [other]

theorem value_inj {a b : RetrievalStrategy} (same : a.value = b.value) : a = b := by
  revert same
  cases a <;> cases b <;> decide

theorem value_listed (strat : RetrievalStrategy) : strat.value ∈ strategies.map RetrievalStrategy.value := by
  cases strat <;> simp [strategies]

variable [FloatRange R] [RoundDigits R] (m : Library R) (isalnum : Char → Bool)

-- What one strategy on one item leaves behind.
structure Measured (e : RetrievalEvaluator R) (k_list : List Int) (top_k : Nat) (place : BenchmarkItem R × RetrievalStrategy)
    (d : QueryEvaluationDetail R) : Prop where
  query_id : d.query_id = place.1.query_id
  query : d.query = place.1.query
  strategy : d.strategy = place.2
  retrieved : e.runStrategy m isalnum place.1.query place.2 top_k = .ok d.retrieved_ids
  metrics : calculateRetrievalMetrics m d.retrieved_ids place.1.ground_truth_relevance (some k_list) 1 = .ok d.metrics

-- The lists kept for the averages hold what the details say, and these are those
-- of the pairs met so far.
structure Recorded (e : RetrievalEvaluator R) (documents : List DocumentChunk) (k_list : List Int) (top_k : Nat)
    (met : List (BenchmarkItem R × RetrievalStrategy)) (p : Progress R) : Prop where
  order : List.Forall₂ (Measured m isalnum e k_list top_k) met p.details
  details : ∀ d ∈ p.details, Found documents top_k d.retrieved_ids ∧ UnitValues d.metrics
  strategies : p.strategy_metrics_accum.keys = strategies.map RetrievalStrategy.value
  lists : ∀ strat : RetrievalStrategy, ∃ lists, p.strategy_metrics_accum.get? strat.value = some lists ∧
    ∀ name, lists.get? name = if recorded p.details strat name = [] then none else some (recorded p.details strat name)

variable {m isalnum} {e : RetrievalEvaluator R} {k_list : List Int}

theorem recorded_initial (documents : List DocumentChunk) (top_k : Nat) :
    Recorded m isalnum e documents k_list top_k [] ⟨Dict.of RetrievalStrategy.value (fun _ => .empty) strategies,[]⟩ := by
  refine ⟨.nil,nofun,rfl,fun strat => ⟨.empty,?_,fun name => rfl⟩⟩
  cases strat <;> rfl

theorem recorded_step {p : Progress R} (kept : Recorded m isalnum e documents k_list top_k met p) {d : QueryEvaluationDetail R}
    (measured : Measured m isalnum e k_list top_k place d) (found : Found documents top_k d.retrieved_ids) (units : UnitValues d.metrics)
    (stored : p.strategy_metrics_accum.get? d.strategy.value = some lists) :
    Recorded m isalnum e documents k_list top_k (met ++ [place]) ⟨p.strategy_metrics_accum.set d.strategy.value
      (Dict.fold Prod.fst (fun old pair => old.getD [] ++ [pair.2]) d.metrics.entries lists),p.details ++ [d]⟩ := by
  constructor
  · exact List.rel_append kept.order (.cons measured .nil)
  · intro other member
    rcases List.mem_append.mp member with old | new
    · exact kept.details other old
    · rw [List.mem_singleton.mp new]
      exact ⟨found,units⟩
  · have known : d.strategy.value ∈ p.strategy_metrics_accum.keys := by
      rw [kept.strategies]
      exact value_listed _
    rw [Dict.keys_set,note,if_pos known,kept.strategies]
  · intro strat
    obtain ⟨before,there,each⟩ := kept.lists strat
    by_cases own : d.strategy = strat
    · subst own
      cases stored.symm.trans there
      refine ⟨_,by rw [Dict.get?_set,if_pos rfl],fun name => ?_⟩
      rw [recorded_snoc,if_pos rfl,Dict.get?_fold_entries,each name]
      cases d.metrics.get? name with
      | none => simp
      | some v =>
        by_cases nothing : recorded p.details d.strategy name = [] <;> simp [nothing]
    · refine ⟨before,?_,fun name => ?_⟩
      · rw [Dict.get?_set,if_neg fun same => own (value_inj same)]
        exact there
      · rw [recorded_snoc,if_neg own,List.append_nil]
        exact each name

variable [OrderedArithmetic R] {dataset : BenchmarkDataset R}

theorem evaluateOne_recorded (sound : m.Sound) (built : Built dataset e) (fits : ∀ k ∈ k_list, FloatRange.fits R k = true)
    (largest : k_list.max? = some top_k) {query_item : BenchmarkItem R} (graded : Graded query_item.ground_truth_relevance)
    (strat : RetrievalStrategy) {p : Progress R} (kept : Recorded m isalnum e dataset.documents k_list top_k.toNat met p) :
    ∃ next, evaluateOne m isalnum e k_list query_item p strat = .ok next ∧
      Recorded m isalnum e dataset.documents k_list top_k.toNat (met ++ [(query_item,strat)]) next := by
  obtain ⟨ids,ran,found⟩ := strategy_found m isalnum built query_item.query strat top_k.toNat
  obtain ⟨metrics,measured,units⟩ := calculate_unit sound graded fits 1 found.distinct
  obtain ⟨lists,stored,_⟩ := kept.lists strat
  let d : QueryEvaluationDetail R := ⟨query_item.query_id,query_item.query,strat,ids,metrics⟩
  have here : Measured m isalnum e k_list top_k.toNat (query_item,strat) d := ⟨rfl,rfl,rfl,ran,measured⟩
  refine ⟨_,?_,recorded_step kept here found units stored⟩
  simp only [evaluateOne,largest,ran,measured,item,stored,bind,Except.bind,pure,Except.pure]
  rfl

-- Both loops, whatever the items are.
theorem loops_recorded (isalnum : Char → Bool) (sound : m.Sound) (built : Built dataset e) (fits : ∀ k ∈ k_list, FloatRange.fits R k = true)
    (largest : k_list.max? = some top_k) (items : List (BenchmarkItem R))
    (graded : ∀ query_item ∈ items, Graded query_item.ground_truth_relevance) :
    ∃ p, items.foldlM (fun p query_item => strategies.foldlM (evaluateOne m isalnum e k_list query_item) p)
      ⟨Dict.of RetrievalStrategy.value (fun _ => .empty) strategies,[]⟩ = .ok p ∧
      Recorded m isalnum e dataset.documents k_list top_k.toNat (items ×ˢ strategies) p := by
  rw [foldlM_product]
  exact foldlM_history (Recorded m isalnum e dataset.documents k_list top_k.toNat) [] (recorded_initial _ _)
    fun met p place kept member => evaluateOne_recorded sound built fits largest (graded place.1 (List.mem_product.mp member).1) place.2 kept

def mean (m : Library R) (vals : List R) : R := RoundDigits.round 4 (m.sum vals / (vals.length : R))

omit [FloatRange R] in
theorem average_ok (m : Library R) (vals : List R) : average m vals = .ok (if vals = [] then 0 else mean m vals) := by
  unfold average
  split
  · rfl
  · rename_i some_
    have size : (0 : R) < (vals.length : R) := OrderedArithmetic.natCast_pos (List.length_pos_iff.mpr some_)
    rw [divide,if_neg size.ne']
    rfl

omit [FloatRange R] in
theorem mean_unit (sound : m.Sound) {vals : List R} (some_ : vals ≠ []) (units : ∀ v ∈ vals, Unit v) : Unit (mean m vals) := by
  obtain ⟨low,high⟩ := sound.sum vals units
  have size : (0 : R) < (vals.length : R) := OrderedArithmetic.natCast_pos (List.length_pos_iff.mpr some_)
  exact unit_round ⟨OrderedArithmetic.div_nonneg low size,OrderedArithmetic.div_le_one high size⟩

omit [OrderedArithmetic R] in
theorem recorded_unit {p : Progress R} (kept : Recorded m isalnum e documents k_list top_k met p) (strategy : RetrievalStrategy) (name : Str) :
    ∀ v ∈ recorded p.details strategy name, Unit v := by
  intro v member
  obtain ⟨d,inside,got⟩ := List.mem_filterMap.mp member
  exact (kept.details d (List.mem_filter.mp inside).1).2 name v got

-- The averages of all lists, as the last loop builds them.
def averages (m : Library R) (accum : Dict Str (Dict Str (List R))) : Dict Str (Dict Str R) :=
  Dict.of Prod.fst (fun pair => Dict.of Prod.fst (fun entry => if entry.2 = [] then 0 else mean m entry.2) pair.2.entries) accum.entries

omit [FloatRange R] in
theorem averages_ok (m : Library R) (accum : Dict Str (Dict Str (List R))) :
    Dict.ofM Prod.fst (fun pair => Dict.ofM Prod.fst (fun entry => average m entry.2) pair.2.entries) accum.entries =
      .ok (averages m accum) := by
  apply Dict.ofM_ok
  intro pair _
  apply Dict.ofM_ok
  exact fun entry _ => average_ok m entry.2

-- An answer in full: the details in the order of the loops, and the rounded means.
structure Evaluated (m : Library R) (isalnum : Char → Bool) (dataset : BenchmarkDataset R) (e : RetrievalEvaluator R) (k_list : List Int)
    (top_k : Nat) (result : EvaluationResult R) : Prop where
  dataset_name : result.dataset_name = dataset.name
  num_queries : result.num_queries = dataset.items.length
  details : List.Forall₂ (Measured m isalnum e k_list top_k) (dataset.items ×ˢ strategies) result.details
  found : ∀ d ∈ result.details, Found dataset.documents top_k d.retrieved_ids ∧ UnitValues d.metrics
  strategies : result.strategy_results.keys = strategies.map RetrievalStrategy.value
  means : ∀ strategy : RetrievalStrategy, ∃ metrics, result.strategy_results.get? strategy.value = some metrics ∧ UnitValues metrics ∧
    ∀ name, metrics.get? name =
      if recorded result.details strategy name = [] then none else some (mean m (recorded result.details strategy name))

theorem evaluateAll_recorded (isalnum : Char → Bool) (sound : m.Sound) (built : Built dataset e) (fits : ∀ k ∈ k_list, FloatRange.fits R k = true)
    (largest : k_list.max? = some top_k) (graded : ∀ query_item ∈ dataset.items, Graded query_item.ground_truth_relevance) :
    ∃ result, e.evaluateAll m isalnum (some k_list) = .ok result ∧ Evaluated m isalnum dataset e k_list top_k.toNat result := by
  obtain ⟨p,ran,kept⟩ := loops_recorded isalnum sound built fits largest dataset.items graded
  have answer : e.evaluateAll m isalnum (some k_list) =
      .ok ⟨dataset.name,dataset.items.length,averages m p.strategy_metrics_accum,p.details⟩ := by
    simp only [RetrievalEvaluator.evaluateAll,Option.getD_some,built.same,ran,averages_ok,bind,Except.bind,pure,Except.pure]
  refine ⟨_,answer,rfl,rfl,kept.order,kept.details,?_,fun strategy => ?_⟩
  · rw [← kept.strategies]
    exact Dict.keys_of_entries _ _
  · obtain ⟨lists,stored,each⟩ := kept.lists strategy
    have named (name : Str) : (Dict.of Prod.fst (fun entry => if entry.2 = [] then 0 else mean m entry.2) lists.entries).get? name =
        if recorded p.details strategy name = [] then none else some (mean m (recorded p.details strategy name)) := by
      rw [Dict.get?_of_entries,each name]
      by_cases nothing : recorded p.details strategy name = [] <;> simp [nothing]
    refine ⟨_,?_,fun name v found => ?_,named⟩
    · rw [averages,Dict.get?_of_entries,stored]
      rfl
    · rw [named] at found
      split at found
      · cases found
      · rename_i some_
        cases found
        exact mean_unit sound some_ (recorded_unit kept strategy name)

end Results

-- In doubles, whatever the documents are, an evaluation ends with one detail for
-- each strategy on each item, metrics in range and the rounded means of what it
-- records, as long as `float` takes the cutoffs.
theorem evaluate_all_well_defined (m : Library Double) (sound : m.Sound) (isalnum : Char → Bool) (dataset : BenchmarkDataset Double)
    (graded : ∀ query_item ∈ dataset.items, Graded query_item.ground_truth_relevance) (k_list : List Int) (some_ : k_list ≠ [])
    (positive : ∀ k ∈ k_list, 0 < k) (finite : ∀ k ∈ k_list, k < 2 ^ 1024 - 2 ^ 970) :
    ∃ e result top_k, RetrievalEvaluator.init dataset = .ok e ∧ k_list.max? = some top_k ∧
      e.evaluateAll m isalnum (some k_list) = .ok result ∧
      (∀ query strategy, ∃ ids, e.runStrategy m isalnum query strategy top_k.toNat = .ok ids ∧ ids.Nodup ∧
        (∀ id ∈ ids, id ∈ dataset.documents.map DocumentChunk.id) ∧ (ids.length : Int) ≤ top_k) ∧
      List.Forall₂ (fun place d => d.query_id = place.1.query_id ∧ d.query = place.1.query ∧ d.strategy = place.2 ∧
          e.runStrategy m isalnum place.1.query place.2 top_k.toNat = .ok d.retrieved_ids ∧
          calculateRetrievalMetrics m d.retrieved_ids place.1.ground_truth_relevance (some k_list) 1 = .ok d.metrics)
        (dataset.items ×ˢ strategies) result.details ∧
      (∀ d ∈ result.details, ∀ name v, d.metrics.get? name = some v → 0 ≤ v ∧ v ≤ 1) ∧
      result.strategy_results.keys = strategies.map RetrievalStrategy.value ∧
      (∀ strategy : RetrievalStrategy, ∃ metrics, result.strategy_results.get? strategy.value = some metrics ∧
        (∀ name v, metrics.get? name = some v → 0 ≤ v ∧ v ≤ 1) ∧
        ∀ name, metrics.get? name = let vals := recorded result.details strategy name
          if vals = [] then none else some (Number.roundTo 4 (m.sum vals / (vals.length : Double)))) ∧
      result.dataset_name = dataset.name ∧ result.num_queries = dataset.items.length := by
  obtain ⟨top_k,largest⟩ : ∃ top_k, k_list.max? = some top_k := by
    cases found : k_list.max? with
    | none => exact absurd (List.max?_eq_none_iff.mp found) some_
    | some top_k => exact ⟨top_k,rfl⟩
  have above : 0 < top_k := positive top_k (List.max?_mem largest)
  have fits : ∀ k ∈ k_list, FloatRange.fits Double k = true := by
    intro k listed
    have low := positive k listed
    have bound : k < (floatBound : Int) := (finite k listed).trans_eq (by decide +kernel)
    exact decide_eq_true (by omega)
  obtain ⟨e,made,built⟩ := init_built dataset
  obtain ⟨result,ran,evaluated⟩ := evaluateAll_recorded isalnum sound built fits largest graded
  refine ⟨e,result,top_k,made,largest,ran,?_,?_,?_,evaluated.strategies,evaluated.means,evaluated.dataset_name,evaluated.num_queries⟩
  · intro query strategy
    obtain ⟨ids,answered,found⟩ := strategy_found m isalnum built query strategy top_k.toNat
    have bound := found.few
    exact ⟨ids,answered,found.distinct,found.known,by omega⟩
  · exact evaluated.details.imp fun place d measured =>
      ⟨measured.query_id,measured.query,measured.strategy,measured.retrieved,measured.metrics⟩
  · exact fun d member => (evaluated.found d member).2

-- A corpus with a repeated id and a text without tokens, and two queries.
noncomputable def degenerate : BenchmarkDataset Double := {
  name := "degenerate".toList
  documents := [⟨"d1".toList,"Raft log".toList,[],.empty⟩,⟨"d1".toList,"--".toList,[],.empty⟩]
  items := [⟨"q1".toList,"raft".toList,⟨[("d1".toList,1)],List.nodup_singleton _⟩⟩,⟨"q2".toList,[],.empty⟩]}

theorem degenerate_graded : ∀ query_item ∈ degenerate.items, Graded query_item.ground_truth_relevance := by
  refine List.forall_mem_cons.mpr ⟨fun rel listed => ?_,List.forall_mem_singleton.mpr nofun⟩
  rw [List.mem_singleton.mp listed]
  exact ⟨OrderedArithmetic.zero_lt_one.le,OrderedArithmetic.one_le_natCast (by decide)⟩

theorem evaluate_all_degenerate : ∃ e result, RetrievalEvaluator.init degenerate = .ok e ∧
    e.evaluateAll nearestLibrary Char.isAlphanum (some [1,3]) = .ok result ∧
    result.details.map (fun d => (d.query_id,d.strategy)) =
      [("q1".toList,.DENSE_ONLY),("q1".toList,.SPARSE_BM25),("q1".toList,.HYBRID_RRF),("q1".toList,.HYBRID_RERANKED),
        ("q2".toList,.DENSE_ONLY),("q2".toList,.SPARSE_BM25),("q2".toList,.HYBRID_RRF),("q2".toList,.HYBRID_RERANKED)] ∧
    ∀ d ∈ result.details, e.runStrategy nearestLibrary Char.isAlphanum d.query d.strategy 3 = .ok d.retrieved_ids ∧
      d.retrieved_ids.Nodup := by
  obtain ⟨e,result,top_k,made,largest,ran,strategy_ids,details,_⟩ := evaluate_all_well_defined nearestLibrary nearestLibrary_sound
    Char.isAlphanum degenerate degenerate_graded [1,3] (by decide) (by decide) (by decide +kernel)
  cases largest
  refine ⟨e,result,made,ran,?_,fun d member => ?_⟩
  · have named : List.Forall₂ (· = ·) ((degenerate.items ×ˢ strategies).map fun place => (place.1.query_id,place.2))
        (result.details.map fun d => (d.query_id,d.strategy)) := by
      rw [List.forall₂_map_left_iff,List.forall₂_map_right_iff]
      exact details.imp fun place d ⟨query_id,_,strategy,_⟩ => Prod.ext query_id.symm strategy.symm
    exact (List.forall₂_eq_eq_eq ▸ named :).symm
  · obtain ⟨place,_,_,query,strategy,retrieved,_⟩ := forall₂_right details member
    obtain ⟨ids,answered,distinct,_⟩ := strategy_ids d.query d.strategy
    rw [← query,← strategy] at retrieved
    cases answered.symm.trans retrieved
    exact ⟨retrieved,distinct⟩

-- A cutoff that `float` does not take ends an evaluation that has found anything.
def beyond : BenchmarkDataset Double := {
  name := "beyond".toList
  documents := [⟨"d1".toList,"raft".toList,[],.empty⟩]
  items := [⟨"q1".toList,"raft".toList,.empty⟩]}

theorem dense_raft {e : RetrievalEvaluator Double} (built : Built beyond e) (m : Library Double) (isalnum : Char → Bool) (size : 0 < top_k) :
    e.runStrategy m isalnum "raft".toList .DENSE_ONLY top_k = .ok ["d1".toList] := by
  let pair := ("d1".toList,(tokenize "raft ".toList).toFinset)
  obtain ⟨score,scored⟩ := jaccard_ok (R := Double) (tokenize "raft".toList).toFinset pair
  have entries : (DeterministicDenseScorer.init beyond.documents).doc_tokens.entries = [pair] := rfl
  have scores : Dict.ofM Prod.fst (jaccard (tokenize "raft".toList).toFinset) [pair] =
      .ok (Dict.empty.set "d1".toList score) := by
    rw [Dict.ofM,List.foldlM_cons,scored]
    rfl
  have first : ((ranked Prod.snd (Dict.empty.set "d1".toList score).entries).take top_k).map Prod.fst = ["d1".toList] := by
    obtain ⟨n,rfl⟩ := Nat.exists_eq_add_of_lt size
    rw [Nat.zero_add,Dict.set,List.take_of_length_le (by simp [ranked,assign,Dict.empty])]
    rfl
  unfold RetrievalEvaluator.runStrategy DeterministicDenseScorer.score
  rw [built.dense,entries,scores,← first]
  rfl

theorem evaluate_all_overflow : (∀ k ∈ [(2 : Int) ^ 1024], 0 < k) ∧ ∃ e, RetrievalEvaluator.init beyond = .ok e ∧
    e.evaluateAll nearestLibrary Char.isAlphanum (some [2 ^ 1024]) = .error .OverflowError := by
  have positive : (0 : Int) < 2 ^ 1024 := by positivity
  have large : FloatRange.fits Double (2 ^ 1024) = false := by
    apply decide_eq_false
    decide +kernel
  generalize (2 : Int) ^ 1024 = k at positive large
  obtain ⟨e,made,built⟩ := init_built beyond
  refine ⟨List.forall_mem_singleton.mpr positive,e,made,?_⟩
  have ran : e.runStrategy nearestLibrary Char.isAlphanum "raft".toList .DENSE_ONLY k.toNat = .ok ["d1".toList] :=
    dense_raft built nearestLibrary Char.isAlphanum (by omega)
  have recalled : recallAtK ["d1".toList] [] k = .ok (0 : Double) := if_pos (.inr rfl)
  have precise : precisionAtK (R := Double) ["d1".toList] [] k = .error .OverflowError :=
    precision_overflow large positive (List.cons_ne_nil _ _)
  have cut : cutoffMetrics nearestLibrary ["d1".toList] .empty [] .empty k = .error .OverflowError := by
    unfold cutoffMetrics
    rw [recalled,precise]
    rfl
  have measured : calculateRetrievalMetrics nearestLibrary ["d1".toList] .empty (some [k]) 1 = .error .OverflowError := by
    change (cutoffMetrics nearestLibrary ["d1".toList] .empty [] .empty k >>= _) = _
    rw [cut]
    rfl
  have round : evaluateOne nearestLibrary Char.isAlphanum e [k] ⟨"q1".toList,"raft".toList,.empty⟩
      ⟨Dict.of RetrievalStrategy.value (fun _ => .empty) strategies,[]⟩ .DENSE_ONLY = .error .OverflowError := by
    simp only [evaluateOne,List.max?_singleton,ran,measured,bind,Except.bind]
  simp only [RetrievalEvaluator.evaluateAll,built.same,Option.getD_some,beyond,strategies,List.foldlM_cons]
  simp only [strategies] at round
  rw [round]
  rfl

end RagForge.Evaluator
