import RagForge.Evaluator

namespace RagForge.Evaluator
open RagForge OrderedDict RankedList Fallible Metrics

def textOf (doc : DocumentChunk) : Str := doc.content ++ ' ' :: PyText.join [' '] doc.metadata.values

def Shares (query : Str) (doc : DocumentChunk) : Prop := ∃ token ∈ tokenize query, token ∈ tokenize (textOf doc)

-- Scores tell the matches from the others, for the documents that the ids stand for.
structure Separated (named : Str → DocumentChunk → Prop) (query : Str) (scored : List (Str × ℝ)) : Prop where
  nonneg : ∀ id v, (id,v) ∈ scored → 0 ≤ v
  positive : ∀ id v, (id,v) ∈ scored → ∀ doc, named id doc → (0 < v ↔ Shares query doc)
  first : scored.Pairwise fun a b => ∀ doc other, named a.1 doc → named b.1 other → Shares query other → Shares query doc

-- Every document that has the id.
def Listed (documents : List DocumentChunk) (id : Str) (doc : DocumentChunk) : Prop := doc ∈ documents ∧ doc.id = id

-- The one the index keeps: of several, the last.
def Kept (documents : List DocumentChunk) (id : Str) (doc : DocumentChunk) : Prop :=
  documents.reverse.find? (fun other => other.id = id) = some doc

section Scores
variable {documents : List DocumentChunk} {s : DeterministicBM25Scorer ℝ}

theorem termScore_grows (scoreable : Scoreable s) (stored : s.doc_tokens.get? doc_id = some tokens) (doc_score : ℝ) (q_token : Str) :
    ∃ v, termScore realMaths s tokens.length (count tokens) doc_score q_token = .ok v ∧ doc_score ≤ v ∧
      (doc_score < v ↔ q_token ∈ tokens) := by
  by_cases present : q_token ∈ tokens
  · obtain ⟨odds,weight,odds_pos,weight_pos,scored⟩ := termScore_present realMaths scoreable stored present doc_score
    have idf : 0 < Real.log (1 + odds) := Real.log_pos (lt_add_of_pos_right 1 odds_pos)
    have grows : doc_score < doc_score + Real.log (1 + odds) * weight := lt_add_of_pos_right _ (mul_pos idf weight_pos)
    exact ⟨_,scored,grows.le,iff_of_true grows present⟩
  · exact ⟨_,termScore_absent realMaths s _ doc_score present,le_rfl,iff_of_false (lt_irrefl _) present⟩

theorem termScores_grow (scoreable : Scoreable s) (stored : s.doc_tokens.get? doc_id = some tokens) (query_tokens : List Str)
    (doc_score : ℝ) :
    ∃ v, query_tokens.foldlM (termScore realMaths s tokens.length (count tokens)) doc_score = .ok v ∧ doc_score ≤ v ∧
      (doc_score < v ↔ ∃ token ∈ query_tokens, token ∈ tokens) := by
  induction query_tokens generalizing doc_score with
  | nil => exact ⟨doc_score,rfl,le_rfl,by simp⟩
  | cons q_token rest ih =>
    obtain ⟨next,here,low,grew⟩ := termScore_grows scoreable stored doc_score q_token
    obtain ⟨v,later,above,grows⟩ := ih next
    refine ⟨v,?_,low.trans above,?_⟩
    · rw [List.foldlM_cons,here]
      exact later
    · rw [List.exists_mem_cons_iff,← grew,← grows]
      constructor
      · intro total
        rcases low.lt_or_eq with now | same
        · exact .inl now
        · exact .inr (same ▸ total)
      · rintro (now | afterwards)
        · exact now.trans_le above
        · exact low.trans_lt afterwards

theorem docScore_positive (scoreable : Scoreable s) (query_tokens : List Str) (member : pair ∈ s.doc_tokens.entries) :
    ∃ v, docScore realMaths s query_tokens pair = .ok v ∧ 0 ≤ v ∧ (0 < v ↔ ∃ token ∈ query_tokens, token ∈ pair.2) := by
  have stored := Dict.mem_entries.mp member
  unfold docScore item
  rw [scoreable.lengths _ _ stored]
  exact termScores_grow scoreable stored query_tokens 0

theorem upTo_sublist (top_k : Int) (entries : List α) : (upTo top_k entries).Sublist entries := by
  unfold upTo
  split
  · exact List.take_sublist _ _
  · exact List.take_sublist _ _

theorem upTo_all {entries : List α} (enough : (entries.length : Int) ≤ top_k) : upTo top_k entries = entries := by
  rw [upTo,if_pos ((Int.natCast_nonneg _).trans enough)]
  exact List.take_of_length_le (by omega)

theorem ranking_separates {k1 b : ℝ} (documents : List DocumentChunk) (k1_nonneg : 0 ≤ k1) (b_nonneg : 0 ≤ b) (b_le : b ≤ 1) (query : Str) :
    ∃ s ranking, DeterministicBM25Scorer.initWith documents k1 b = .ok s ∧
      (∀ top_k, s.scoreUpTo realMaths query top_k = .ok (upTo top_k ranking)) ∧
      (∀ id v, (id,v) ∈ ranking → 0 ≤ v ∧ ∃ doc, Kept documents id doc ∧ (0 < v ↔ Shares query doc)) ∧
      (ranking.Pairwise fun a b => b.2 ≤ a.2) ∧ (ranking.map Prod.fst).Nodup ∧
      (tokenize query ≠ [] → ∀ doc ∈ documents, doc.id ∈ ranking.map Prod.fst) := by
  obtain ⟨s,made,indexed⟩ := init_indexed documents k1 b
  have scoreable := indexed.scoreable k1_nonneg b_nonneg b_le
  have num_docs := indexed.num_docs
  have doc_tokens := indexed.doc_tokens
  by_cases nothing : tokenize query = [] ∨ s.num_docs = 0
  · refine ⟨s,[],made,fun top_k => ?_,nofun,.nil,.nil,fun tokens doc member => ?_⟩
    · rw [DeterministicBM25Scorer.scoreUpTo,if_pos nothing,upTo]
      simp
    · have none_ := nothing.resolve_left tokens
      rw [num_docs] at none_
      exact absurd (List.length_eq_zero_iff.mp none_) (List.ne_nil_of_mem member)
  · choose! value computed low positive using fun pair (member : pair ∈ s.doc_tokens.entries) =>
      docScore_positive scoreable (tokenize query) member
    have scores : Dict.ofM Prod.fst (docScore realMaths s (tokenize query)) s.doc_tokens.entries =
        .ok (Dict.of Prod.fst value s.doc_tokens.entries) := Dict.ofM_ok value computed
    refine ⟨s,ranked Prod.snd (Dict.of Prod.fst value s.doc_tokens.entries).entries,made,fun top_k => ?_,?_,ranked_sorted _ _,?_,?_⟩
    · rw [DeterministicBM25Scorer.scoreUpTo,if_neg nothing,scores]
      rfl
    · intro id v member
      have listed := Dict.mem_entries.mp ((ranked_perm _).mem_iff.mp member)
      rw [Dict.get?_of_entries] at listed
      obtain ⟨tokens,stored,rfl⟩ := Option.map_eq_some_iff.mp listed
      have pair := Dict.mem_entries.mpr stored
      rw [doc_tokens,Dict.get?_of] at stored
      obtain ⟨doc,last,rfl⟩ := Option.map_eq_some_iff.mp stored
      exact ⟨low _ pair,doc,last,positive _ pair⟩
    · exact ((ranked_perm _).map _).nodup_iff.mpr (Dict.of Prod.fst value s.doc_tokens.entries).apart
    · intro _ doc member
      have known : doc.id ∈ s.doc_tokens.keys := by
        rw [doc_tokens]
        exact (Dict.mem_keys_of _ _ _).mpr (List.mem_map_of_mem member)
      exact ((ranked_perm _).map _).mem_iff.mpr ((Dict.mem_keys_of _ _ _).mpr known)

theorem kept_unique (kept : Kept documents doc_id doc) (other : Kept documents doc_id doc') : doc = doc' :=
  Option.some.inj (kept.symm.trans other)

theorem ranking_few {ranking : List (Str × ℝ)} (distinct : (ranking.map Prod.fst).Nodup)
    (known : ∀ id v, (id,v) ∈ ranking → ∃ doc, Kept documents id doc) : ranking.length ≤ documents.length := by
  have listed : ranking.map Prod.fst ⊆ documents.map DocumentChunk.id := by
    intro id member
    obtain ⟨⟨_,v⟩,ranked_,rfl⟩ := List.mem_map.mp member
    obtain ⟨doc,kept⟩ := known _ v ranked_
    exact List.mem_map.mpr ⟨doc,List.mem_reverse.mp (List.mem_of_find?_eq_some kept),of_decide_eq_true (List.find?_some kept :)⟩
  have sizes := (List.subperm_of_subset distinct listed).length_le
  rwa [List.length_map,List.length_map] at sizes

theorem separated_ranking {ranking : List (Str × ℝ)}
    (scores : ∀ id v, (id,v) ∈ ranking → 0 ≤ v ∧ ∃ doc, Kept documents id doc ∧ (0 < v ↔ Shares query doc))
    (sorted : ranking.Pairwise fun a b => b.2 ≤ a.2) : Separated (Kept documents) query ranking := by
  have positive : ∀ id v, (id,v) ∈ ranking → ∀ doc, Kept documents id doc → (0 < v ↔ Shares query doc) := by
    intro id v member doc kept
    obtain ⟨_,other,same,decides⟩ := scores id v member
    rwa [kept_unique kept same]
  refine ⟨fun id v member => (scores id v member).1,positive,?_⟩
  refine sorted.imp_of_mem fun before after order doc other kept kept' shares => ?_
  have match_ := (positive _ _ after other kept').mpr shares
  exact (positive _ _ before doc kept).mp (match_.trans_le order)

end Scores

theorem matches_rank_first (documents : List DocumentChunk) (k1 b : ℝ) (k1_nonneg : 0 ≤ k1) (b_nonneg : 0 ≤ b) (b_le : b ≤ 1)
    (query : Str) (top_k : Int) :
    ∃ s scored, DeterministicBM25Scorer.initWith documents k1 b = .ok s ∧ s.scoreUpTo realMaths query top_k = .ok scored ∧
      Separated (Kept documents) query scored ∧ (scored.map Prod.fst).Nodup ∧
      (∀ id v, (id,v) ∈ scored → ∃ doc, Kept documents id doc) ∧
      (tokenize query ≠ [] → (documents.length : Int) ≤ top_k → ∀ doc ∈ documents, ∃ v, (doc.id,v) ∈ scored) := by
  obtain ⟨s,ranking,made,ran,scores,sorted,distinct,complete⟩ := ranking_separates documents k1_nonneg b_nonneg b_le query
  have part := upTo_sublist top_k ranking
  have cut : ∀ id v, (id,v) ∈ upTo top_k ranking → 0 ≤ v ∧ ∃ doc, Kept documents id doc ∧ (0 < v ↔ Shares query doc) :=
    fun id v member => scores id v (part.subset member)
  refine ⟨s,_,made,ran top_k,separated_ranking cut (sorted.sublist part),distinct.sublist (part.map _),?_,?_⟩
  · intro id v member
    obtain ⟨_,doc,kept,_⟩ := cut id v member
    exact ⟨doc,kept⟩
  · intro tokens enough doc member
    have few := ranking_few distinct fun id v listed => (scores id v listed).2.imp fun _ => And.left
    rw [upTo_all ((Int.ofNat_le.mpr few).trans enough)]
    obtain ⟨⟨_,v⟩,listed,same⟩ := List.mem_map.mp (complete tokens doc member)
    exact ⟨v,same ▸ listed⟩

-- Two documents, one without tokens, and both extremes of the parameters.
theorem matches_rank_first_degenerate :
    ∃ s scored, DeterministicBM25Scorer.initWith [⟨"d1".toList,"Raft log".toList,[],.empty⟩,⟨"d2".toList,"--".toList,[],.empty⟩] (0 : ℝ) 1 = .ok s ∧
      s.scoreUpTo realMaths "raft".toList 2 = .ok scored ∧ (scored.map Prod.fst).Nodup ∧
      (∃ v, ("d1".toList,v) ∈ scored) ∧ ∃ v, ("d2".toList,v) ∈ scored := by
  obtain ⟨s,scored,made,ran,_,distinct,_,complete⟩ := matches_rank_first
    [⟨"d1".toList,"Raft log".toList,[],.empty⟩,⟨"d2".toList,"--".toList,[],.empty⟩] 0 1 le_rfl zero_le_one le_rfl "raft".toList 2
  have listed := complete (by decide) le_rfl
  exact ⟨s,scored,made,ran,distinct,listed _ List.mem_cons_self,listed _ (List.mem_cons_of_mem _ List.mem_cons_self)⟩

-- Of documents with one id only the last is scored, so the first match here has
-- the score of the other text.
theorem repeated_id_shadows : ¬ ∀ (documents : List DocumentChunk) (k1 b : ℝ), 0 ≤ k1 → 0 ≤ b → b ≤ 1 → ∀ (query : Str) (top_k : Int),
    ∃ s scored, DeterministicBM25Scorer.initWith documents k1 b = .ok s ∧ s.scoreUpTo realMaths query top_k = .ok scored ∧
      Separated (Listed documents) query scored := by
  intro all
  let documents : List DocumentChunk := [⟨"d1".toList,"raft".toList,[],.empty⟩,⟨"d1".toList,"log".toList,[],.empty⟩]
  obtain ⟨s,scored,made,ran,separated⟩ := all documents 1 0 zero_le_one le_rfl zero_le_one "raft".toList 10
  obtain ⟨s',ranking,made',ran',scores,_,distinct,complete⟩ := ranking_separates documents zero_le_one le_rfl zero_le_one "raft".toList
  cases made.symm.trans made'
  cases ran.symm.trans (ran' 10)
  have few := ranking_few distinct fun id v member => (scores id v member).2.imp fun _ => And.left
  have all_ : upTo 10 ranking = ranking := upTo_all (by change ranking.length ≤ 2 at few; omega)
  obtain ⟨⟨id,v⟩,member,same⟩ := List.mem_map.mp (complete (by decide) ⟨"d1".toList,"raft".toList,[],.empty⟩ List.mem_cons_self)
  rw [← all_] at member
  have first := separated.positive id v member ⟨"d1".toList,"raft".toList,[],.empty⟩ ⟨by simp [documents],same.symm⟩
  have last := separated.positive id v member ⟨"d1".toList,"log".toList,[],.empty⟩ ⟨by simp [documents],same.symm⟩
  have shares : Shares "raft".toList ⟨"d1".toList,"raft".toList,[],.empty⟩ := by unfold Shares; decide
  have apart : ¬ Shares "raft".toList ⟨"d1".toList,"log".toList,[],.empty⟩ := by unfold Shares; decide
  exact apart (last.mp (first.mpr shares))

end RagForge.Evaluator
