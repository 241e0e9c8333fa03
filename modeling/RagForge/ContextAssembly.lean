import RagForge.Fusion

namespace RagForge.ContextAssembly
open RagForge Fallible

-- The chunks the fetch still finds.
def stored (t : Tables) (chunk_id : Uuid) : Bool := t.document_chunks.any (·.id = chunk_id)

-- What a context entry copies from the row of its chunk.
def OwnData (t : Tables) (c : ContextChunk) : Prop := ∃ row ∈ t.document_chunks, ∃ document ∈ t.documents,
  document.id = row.document_id ∧ c.chunk_id = row.id.str ∧ c.document_id = row.document_id.str ∧
    c.document_filename = document.original_filename ∧ c.content = row.content ∧ c.page_number = row.page_number

theorem mem_selectChunks {t : Tables} {ids : List Uuid} (member : pair ∈ selectChunks t ids) :
    pair.1 ∈ t.document_chunks ∧ ∃ document ∈ t.documents, document.id = pair.1.document_id ∧ pair.2 = document.original_filename := by
  obtain ⟨row,present,kept⟩ := List.mem_filterMap.mp member
  split at kept
  · obtain ⟨document,found,rfl⟩ := Option.map_eq_some_iff.mp kept
    exact ⟨present,document,List.mem_of_find?_eq_some found,by simpa using List.find?_some found,rfl⟩
  · cases kept

-- A row of a fetched id comes with its document: the foreign key leaves no row
-- without one.
theorem selectChunks_finds (db : Database) {ids : List Uuid} (asked : chunk_id ∈ ids) :
    ((selectChunks db.toTables ids).find? (·.1.id = chunk_id)).isSome = stored db.toTables chunk_id := by
  rw [Bool.eq_iff_iff,List.find?_isSome,stored,List.any_eq_true]
  constructor
  · rintro ⟨pair,member,same⟩
    exact ⟨pair.1,(mem_selectChunks member).1,same⟩
  · rintro ⟨row,present,same⟩
    have id : row.id = chunk_id := of_decide_eq_true same
    obtain ⟨document,exists_,key⟩ := db.keys.chunk_document row present
    obtain ⟨joined,found⟩ : ∃ joined, db.documents.find? (·.id = row.document_id) = some joined :=
      Option.isSome_iff_exists.mp (List.find?_isSome.mpr ⟨document,exists_,decide_eq_true key⟩)
    refine ⟨(row,joined.original_filename),List.mem_filterMap.mpr ⟨row,present,?_⟩,same⟩
    rw [if_pos (id ▸ asked),found]
    rfl

theorem candidate_own {t : Tables} (member : c ∈ hybridRetrieveNode t retrieved) : OwnData t c := by
  obtain ⟨r,_,built⟩ := List.mem_filterMap.mp member
  obtain ⟨pair,found,rfl⟩ := Option.map_eq_some_iff.mp built
  obtain ⟨present,document,known,key,name⟩ := mem_selectChunks (List.mem_of_find?_eq_some found)
  exact ⟨pair.1,present,document,known,key,rfl,rfl,name,rfl,rfl⟩

-- The candidates are the fused chunks that still exist, in fused order.
theorem candidate_ids (db : Database) (retrieved : List RetrievedChunk) :
    (hybridRetrieveNode db.toTables retrieved).map (·.chunk_id) =
      (retrieved.filter fun r => stored db.toTables r.chunk_id).map fun r => r.chunk_id.str := by
  have each : ∀ asked : List Uuid, ∀ rs : List RetrievedChunk, (∀ r ∈ rs, r.chunk_id ∈ asked) →
      (rs.filterMap fun r => ((selectChunks db.toTables asked).find? (·.1.id = r.chunk_id)).map (contextChunk r)).map (·.chunk_id) =
        (rs.filter fun r => stored db.toTables r.chunk_id).map fun r => r.chunk_id.str := by
    intro asked rs inside
    induction rs with
    | nil => rfl
    | cons r rest ih =>
      have later := ih fun r member => inside r (List.mem_cons_of_mem _ member)
      have finds := selectChunks_finds db (inside r List.mem_cons_self)
      cases found : (selectChunks db.toTables asked).find? (·.1.id = r.chunk_id) with
      | none =>
        rw [found] at finds
        simpa [found,← finds] using later
      | some pair =>
        rw [found] at finds
        have same : pair.1.id = r.chunk_id := by simpa using List.find?_some found
        simpa [found,← finds,contextChunk,same] using later
  exact each _ retrieved fun r member => List.mem_map.mpr ⟨r,member,rfl⟩

theorem candidate_nodup (db : Database) (rankings : List (List Uuid)) (fused_top_k : Nat) :
    ((hybridRetrieveNode db.toTables ((reciprocalRankFusion rankings).take fused_top_k)).map (·.chunk_id)).Nodup := by
  have once := (Fusion.fused_isFusion rrfK rankings).once
  have whole : ((reciprocalRankFusion rankings).map (·.chunk_id)).Nodup := by
    rw [Fusion.production_fused,List.map_map]
    exact once
  have kept : ((((reciprocalRankFusion rankings).take fused_top_k).filter fun r => stored db.toTables r.chunk_id).map (·.chunk_id)).Nodup :=
    whole.sublist ((List.filter_sublist.trans (List.take_sublist _ _)).map _)
  have named := kept.map fun u v same => Uuid.str_injective (u := u) (v := v) same
  rw [List.map_map] at named
  rw [candidate_ids]
  exact named

-- A result and the entry it becomes.
def Reranks (candidates : List ContextChunk) (r : RerankResult) (c : ContextChunk) : Prop :=
  ∃ original, candidates[r.index.toNat]? = some original ∧ c = {original with relevance_score := r.relevance_score}

structure Selection (candidates : List ContextChunk) (top_n : Nat) (results : List RerankResult) : Prop where
  few : results.length ≤ top_n
  distinct : (results.map (·.index)).Nodup
  inside : ∀ r ∈ results, 0 ≤ r.index ∧ r.index < candidates.length

theorem getItem_nat {xs : List α} {i : Int} (nonneg : 0 ≤ i) : getItem xs i = xs[i.toNat]? := if_pos nonneg

theorem reranked_forall₂ {candidates : List ContextChunk} (selection : Selection candidates top_n results) :
    ∃ chunks, reranked candidates results = some chunks ∧ List.Forall₂ (Reranks candidates) results chunks := by
  have each : ∀ r ∈ results, ∃ c, (getItem candidates r.index).map (fun original : ContextChunk =>
      {original with relevance_score := r.relevance_score}) = some c := by
    intro r member
    obtain ⟨nonneg,bound⟩ := selection.inside r member
    obtain ⟨original,there⟩ : ∃ original, candidates[r.index.toNat]? = some original :=
      ⟨_,List.getElem?_eq_getElem (by omega)⟩
    rw [getItem_nat nonneg,there]
    exact ⟨_,rfl⟩
  obtain ⟨chunks,built⟩ := mapM_exists each
  refine ⟨chunks,built,?_⟩
  have placed := (List.forall₂_and_left _ _).mpr ⟨fun r member => (selection.inside r member).1,mapM_some.mp built⟩
  refine placed.imp fun r c both => ?_
  obtain ⟨nonneg,value⟩ := both
  rw [getItem_nat nonneg] at value
  obtain ⟨original,there,rfl⟩ := Option.map_eq_some_iff.mp value
  exact ⟨original,there,rfl⟩

-- Different indices lead to different chunks.
theorem reranked_nodup {candidates : List ContextChunk} (distinct : (candidates.map (·.chunk_id)).Nodup)
    (selection : Selection candidates top_n results) (related : List.Forall₂ (Reranks candidates) results chunks) :
    (chunks.map (·.chunk_id)).Nodup := by
  have placed := (List.forall₂_and_left _ _).mpr ⟨fun r member => (selection.inside r member).1,related⟩
  refine List.pairwise_map.mpr (pairwise_of_forall₂ placed (List.pairwise_map.mp selection.distinct) ?_)
  rintro r c r' c' ⟨nonneg,original,there,rfl⟩ ⟨nonneg',original',there',rfl⟩ other same
  have here : (candidates.map (·.chunk_id))[r.index.toNat]? = (candidates.map (·.chunk_id))[r'.index.toNat]? := by
    rw [List.getElem?_map,List.getElem?_map,there,there']
    exact congrArg some same
  have bound := (List.getElem?_eq_some_iff.mp there).1
  have equal := (List.getElem?_inj (by simpa using bound) distinct).mp here
  omega

theorem rerankNode_ok {candidates : List ContextChunk}
    (answered : provider (candidates.map (·.content)) settings.RETRIEVAL_RERANK_TOP_N = .ok results)
    (selection : Selection candidates top_n results) :
    ∃ chunks, rerankNode settings provider candidates = .ok chunks ∧ List.Forall₂ (Reranks candidates) results chunks := by
  obtain ⟨chunks,built,related⟩ := reranked_forall₂ selection
  refine ⟨chunks,?_,related⟩
  unfold rerankNode
  split
  · rename_i empty
    have none_ : results = [] := by
      apply List.eq_nil_iff_forall_not_mem.mpr
      intro r member
      have inside := selection.inside r member
      rw [List.isEmpty_iff.mp empty] at inside
      simp at inside
      omega
    rw [none_] at related
    cases related
    rfl
  · simp [answered,built,bind,Except.bind,pure,Except.pure]

-- `NoOpRerankProvider` as the provider of `rerank_node`.
def noop (documents : List Str) (top_n : Nat) : Except Failure (List RerankResult) := .ok (noopRerank documents top_n)

theorem noop_results (documents : List Str) (top_n : Nat) : noopRerank documents top_n =
    (List.range (min documents.length top_n)).map fun i : Nat => ⟨(i : Int),1 - (i : ℚ) / (max documents.length 1 : Nat)⟩ := by
  have cast : ((List.range (min documents.length top_n)).flatMap fun i : Nat => [(i : Int)]) =
      (List.range (min documents.length top_n)).map fun i : Nat => (i : Int) := List.map_eq_flatMap.symm
  simp [noopRerank,cast,Function.comp_def]

theorem noop_selection (candidates : List ContextChunk) (top_n : Nat) :
    Selection candidates top_n (noopRerank (candidates.map (·.content)) top_n) := by
  rw [noop_results]
  constructor
  · simp
  · rw [List.map_map]
    exact List.nodup_range.map fun _ _ same => Int.ofNat.inj same
  · intro r member
    obtain ⟨i,small,rfl⟩ := List.mem_map.mp member
    rw [List.mem_range,List.length_map] at small
    constructor
    · exact Int.natCast_nonneg i
    · exact Int.ofNat_lt.mpr (by omega)

theorem noop_scores (documents : List Str) (top_n : Nat) :
    (noopRerank documents top_n).Pairwise fun a b => b.relevance_score < a.relevance_score := by
  have whole : (0 : ℚ) < (max documents.length 1 : Nat) := Nat.cast_pos.mpr (by omega)
  rw [noop_results]
  refine List.pairwise_map.mpr (List.pairwise_lt_range.imp fun less => ?_)
  exact sub_lt_sub_left (div_lt_div_of_pos_right (Nat.cast_lt.mpr less) whole) 1

theorem noop_ids {candidates : List ContextChunk}
    (related : List.Forall₂ (Reranks candidates) (noopRerank (candidates.map (·.content)) top_n) chunks) :
    chunks.map (·.chunk_id) = (candidates.map (·.chunk_id)).take top_n := by
  rw [noop_results,List.forall₂_map_left_iff] at related
  have size := related.length_eq
  rw [List.length_range,List.length_map] at size
  apply List.ext_getElem
  · simp [← size,Nat.min_comm]
  · intro i bound _
    rw [List.length_map] at bound
    obtain ⟨original,there,equal⟩ := related.get (by simpa [size] using bound) bound
    simp only [List.get_eq_getElem,List.getElem_range,Int.toNat_natCast] at there equal
    simp [equal,(List.getElem?_eq_some_iff.mp there).2]

-- Chunks stay with their rows through fusion, fetch and reranking.
theorem context_assembly (db : Database) (settings : Settings) (rankings : List (List Uuid)) (fused_top_k : Nat) :
    (∀ provider results,
      let candidates := hybridRetrieveNode db.toTables ((reciprocalRankFusion rankings).take fused_top_k)
      provider (candidates.map (·.content)) settings.RETRIEVAL_RERANK_TOP_N = .ok results →
      Selection candidates settings.RETRIEVAL_RERANK_TOP_N results →
      ∃ chunks, rerankNode settings provider candidates = .ok chunks ∧ (chunks.map (·.chunk_id)).Nodup ∧
        (∀ c ∈ chunks, OwnData db.toTables c) ∧ List.Forall₂ (Reranks candidates) results chunks ∧
        chunks.length ≤ settings.RETRIEVAL_RERANK_TOP_N) ∧
    ∃ chunks, rerankNode settings noop
        (hybridRetrieveNode db.toTables ((reciprocalRankFusion rankings).take fused_top_k)) = .ok chunks ∧
      chunks.map (·.chunk_id) = ((((reciprocalRankFusion rankings).take fused_top_k).filter fun r =>
        stored db.toTables r.chunk_id).map fun r => r.chunk_id.str).take settings.RETRIEVAL_RERANK_TOP_N ∧
      (∀ c ∈ chunks, OwnData db.toTables c) ∧ chunks.Pairwise fun a b => b.relevance_score < a.relevance_score := by
  have distinct := candidate_nodup db rankings fused_top_k
  have named := candidate_ids db ((reciprocalRankFusion rankings).take fused_top_k)
  generalize built : hybridRetrieveNode db.toTables ((reciprocalRankFusion rankings).take fused_top_k) = candidates at distinct named
  have own {results : List RerankResult} {chunks : List ContextChunk} (related : List.Forall₂ (Reranks candidates) results chunks)
      (c : ContextChunk) (member : c ∈ chunks) : OwnData db.toTables c := by
    obtain ⟨r,_,original,there,rfl⟩ := forall₂_right related member
    have source : OwnData db.toTables original := candidate_own (built ▸ List.mem_of_getElem? there)
    exact source
  constructor
  · intro provider results candidates answered selection
    obtain ⟨chunks,ranked,related⟩ := rerankNode_ok answered selection
    refine ⟨chunks,ranked,reranked_nodup distinct selection related,own related,related,?_⟩
    rw [← related.length_eq]
    exact selection.few
  · have selection := noop_selection candidates settings.RETRIEVAL_RERANK_TOP_N
    have answered : noop (candidates.map (·.content)) settings.RETRIEVAL_RERANK_TOP_N = .ok (noopRerank _ _) := rfl
    obtain ⟨chunks,ranked,related⟩ := rerankNode_ok answered selection
    refine ⟨chunks,ranked,?_,own related,?_⟩
    · rw [noop_ids related,named]
    · refine pairwise_of_forall₂ related (noop_scores _ _) ?_
      rintro r c r' c' ⟨_,_,rfl⟩ ⟨_,_,rfl⟩ less
      exact less

-- A reranker that puts the second of two chunks first.
def twoChunks : Database where
  workspaces := [⟨⟨1⟩,⟨3⟩⟩]
  documents := [⟨⟨11⟩,⟨1⟩,"a.txt".toList,"text/plain".toList,5,"a".toList,.completed,none⟩]
  document_chunks := [⟨⟨21⟩,⟨11⟩,⟨1⟩,0,"Alpha".toList,1,⟨31⟩,none⟩,⟨⟨22⟩,⟨11⟩,⟨1⟩,1,"Beta".toList,1,⟨32⟩,none⟩]
  ingestion_jobs := []
  conversations := []
  messages := []
  message_citations := []
  usage_records := []
  keys := by decide

def swapped (_ : List Str) (_ : Nat) : Except Failure (List RerankResult) := .ok [⟨1,9 / 10⟩,⟨0,1 / 2⟩]

theorem context_assembly_swapped : ∃ chunks,
    rerankNode {} swapped (hybridRetrieveNode twoChunks.toTables ((reciprocalRankFusion [[⟨21⟩,⟨22⟩]]).take 30)) = .ok chunks ∧
    chunks.map (·.chunk_id) = [Uuid.str ⟨22⟩,Uuid.str ⟨21⟩] ∧ (chunks.map (·.chunk_id)).Nodup ∧
    ∀ c ∈ chunks, OwnData twoChunks.toTables c := by
  obtain ⟨reranks,_⟩ := context_assembly twoChunks {} [[⟨21⟩,⟨22⟩]] 30
  have fetched : (hybridRetrieveNode twoChunks.toTables ((reciprocalRankFusion [[⟨21⟩,⟨22⟩]]).take 30)).map (·.chunk_id) =
      [Uuid.str ⟨21⟩,Uuid.str ⟨22⟩] := by
    rw [candidate_ids]
    decide +kernel
  generalize hybridRetrieveNode twoChunks.toTables _ = candidates at reranks fetched ⊢
  have two : candidates.length = 2 := (List.length_map _).symm.trans (congrArg List.length fetched)
  have inside : ∀ r ∈ [(⟨1,9 / 10⟩ : RerankResult),⟨0,1 / 2⟩], 0 ≤ r.index ∧ r.index < candidates.length := by
    rw [two]
    decide
  obtain ⟨chunks,ranked,distinct,own,related,_⟩ := reranks swapped _ rfl ⟨by decide,by decide,inside⟩
  refine ⟨chunks,ranked,?_,distinct,own⟩
  have named (i : Nat) (c : ContextChunk) (there : candidates[i]? = some c) : [Uuid.str ⟨21⟩,Uuid.str ⟨22⟩][i]? = some c.chunk_id := by
    rw [← fetched,List.getElem?_map,there]
    rfl
  obtain _ | ⟨⟨first,there,rfl⟩,_ | ⟨⟨second,here,rfl⟩,_ | _⟩⟩ := related
  have ahead : Uuid.str ⟨22⟩ = first.chunk_id := Option.some.inj (named 1 first there)
  have behind : Uuid.str ⟨21⟩ = second.chunk_id := Option.some.inj (named 0 second here)
  rw [ahead,behind]
  rfl

end RagForge.ContextAssembly
