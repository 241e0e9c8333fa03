import RagForge.Fallible
import RagForge.PyText
import RagForge.Bm25Cache
import RagForge.VectorStore
import RagForge.Tables
import RagForge.Stores

namespace RagForge
open PyText Fallible

structure ChatTurn where
  role : MessageRole
  content : Str

structure ContextChunk where
  chunk_id : Str
  document_id : Str
  document_filename : Str
  content : Str
  page_number : Option Nat
  relevance_score : ℚ
  deriving DecidableEq

structure RetrievedChunk where
  chunk_id : Uuid
  fused_score : ℚ

structure RerankResult where
  index : Int
  relevance_score : ℚ

structure LLMMessage where
  role : MessageRole
  content : Str
  deriving DecidableEq

structure LLMResponse where
  content : Str
  model : Str
  usage : LLMUsage

def MessageRole.value : MessageRole → Str
  | .user => "user".toList
  | .assistant => "assistant".toList
  | .system => "system".toList

-- `xs[i]` of a Python list: negative indices count from the end, `none` is
-- IndexError.
def getItem (xs : List α) (i : Int) : Option α :=
  if 0 ≤ i then xs[i.toNat]? else if -(xs.length : Int) ≤ i then xs[(xs.length + i).toNat]? else none

-- `xs[-n:]`; `-0` is 0 and takes everything.
def lastItems (n : Nat) (xs : List α) : List α := if n = 0 then xs else xs.drop (xs.length - n)

theorem getItem_mem {xs : List α} (found : getItem xs i = some x) : x ∈ xs := by
  unfold getItem at found
  split at found
  · exact List.mem_of_getElem? found
  · split at found
    · exact List.mem_of_getElem? found
    · cases found

-- `scores[chunk_id] = scores.get(chunk_id, 0.0) + gain`: an update keeps the
-- key's place, a new key goes last.
def addScore (chunk_id : Uuid) (gain : ℚ) : List (Uuid × ℚ) → List (Uuid × ℚ)
  | [] => [(chunk_id,gain)]
  | (key,score) :: rest =>
    if key = chunk_id then (key,score + gain) :: rest else (key,score) :: addScore chunk_id gain rest

def rrfK : Nat := 60

-- One ranking from position `rank` on.
def addRanking : Nat → List Uuid → List (Uuid × ℚ) → List (Uuid × ℚ)
  | _,[],scores => scores
  | rank,chunk_id :: rest,scores => addRanking (rank + 1) rest (addScore chunk_id (1 / ((rrfK + rank + 1 : Nat) : ℚ)) scores)

-- `_reciprocal_rank_fusion`, with scores as rationals.
def reciprocalRankFusion (rankings : List (List Uuid)) : List RetrievedChunk :=
  let scores := rankings.foldl (fun scores ranking => addRanking 0 ranking scores) []
  (scores.insertionSort (fun a b => b.2 ≤ a.2)).map fun pair => ⟨pair.1,pair.2⟩

theorem mem_addScore (member : pair ∈ addScore chunk_id gain scores) :
    pair.1 = chunk_id ∨ pair.1 ∈ scores.map Prod.fst := by
  induction scores with
  | nil => exact .inl (by rw [List.mem_singleton.mp member])
  | cons head rest ih =>
    unfold addScore at member
    split at member
    · rename_i same
      rcases List.mem_cons.mp member with rfl | later
      · exact .inl same
      · exact .inr (List.mem_cons_of_mem _ (List.mem_map.mpr ⟨pair,later,rfl⟩))
    · rcases List.mem_cons.mp member with rfl | later
      · exact .inr List.mem_cons_self
      · rcases ih later with new | old
        · exact .inl new
        · exact .inr (List.mem_cons_of_mem _ old)

theorem mem_addRanking (member : pair ∈ addRanking rank ranking scores) :
    pair.1 ∈ ranking ∨ pair.1 ∈ scores.map Prod.fst := by
  induction ranking generalizing rank scores with
  | nil => exact .inr (List.mem_map.mpr ⟨pair,member,rfl⟩)
  | cons chunk_id rest ih =>
    rcases ih member with later | before
    · exact .inl (List.mem_cons_of_mem _ later)
    · obtain ⟨entry,present,same⟩ := List.mem_map.mp before
      rw [← same]
      rcases mem_addScore present with new | old
      · exact .inl (new ▸ List.mem_cons_self)
      · exact .inr old

-- Fusion invents no chunk: what it returns was ranked by one of its inputs.
theorem mem_reciprocalRankFusion (member : r ∈ reciprocalRankFusion rankings) :
    ∃ ranking ∈ rankings, r.chunk_id ∈ ranking := by
  have folded : ∀ (rankings : List (List Uuid)) (scores : List (Uuid × ℚ)) (pair : Uuid × ℚ),
      pair ∈ rankings.foldl (fun scores ranking => addRanking 0 ranking scores) scores →
      (∃ ranking ∈ rankings, pair.1 ∈ ranking) ∨ pair.1 ∈ scores.map Prod.fst := by
    intro rankings
    induction rankings with
    | nil => exact fun scores pair member => .inr (List.mem_map.mpr ⟨pair,member,rfl⟩)
    | cons ranking rest ih =>
      intro scores pair member
      rcases ih _ pair member with ⟨other,later,inside⟩ | before
      · exact .inl ⟨other,List.mem_cons_of_mem _ later,inside⟩
      · obtain ⟨entry,present,same⟩ := List.mem_map.mp before
        rw [← same]
        rcases mem_addRanking present with here | old
        · exact .inl ⟨ranking,List.mem_cons_self,here⟩
        · exact .inr old
  obtain ⟨pair,sorted,rfl⟩ := List.mem_map.mp member
  rcases folded rankings [] pair ((List.mem_insertionSort _).mp sorted) with inside | absurd_
  · exact inside
  · simp at absurd_

-- `hybrid_retrieve` after both searches: dense payload texts are read back as
-- uuids, `none` being the ValueError of a text that is none.
def fuse (dense_results : List VectorPoint) (sparse_results : List SparseSearchResult) (fused_top_k : Nat) :
    Option (List RetrievedChunk) := do
  let dense_ranking ← dense_results.mapM fun r => Uuid.parse r.payload.chunk_id
  pure ((reciprocalRankFusion [dense_ranking,sparse_results.map (·.chunk_id)]).take fused_top_k)

-- The join of chunk rows with their document's name, restricted to `chunk_ids`.
def selectChunks (t : Tables) (chunk_ids : List Uuid) : List (DocumentChunk × Str) :=
  t.document_chunks.filterMap fun chunk =>
    if chunk.id ∈ chunk_ids then
      (t.documents.find? (·.id = chunk.document_id)).map fun document => (chunk,document.original_filename)
    else none

def contextChunk (r : RetrievedChunk) (pair : DocumentChunk × Str) : ContextChunk :=
  ⟨pair.1.id.str,pair.1.document_id.str,pair.2,pair.1.content,pair.1.page_number,r.fused_score⟩

-- The second half of `hybrid_retrieve_node`: ids without a row are skipped.
def hybridRetrieveNode (t : Tables) (retrieved : List RetrievedChunk) : List ContextChunk :=
  let by_id := selectChunks t (retrieved.map (·.chunk_id))
  retrieved.filterMap fun r => (by_id.find? (·.1.id = r.chunk_id)).map (contextChunk r)

-- The loop of `rerank_node` over the provider's results.
def reranked (candidates : List ContextChunk) (results : List RerankResult) : Option (List ContextChunk) :=
  results.mapM fun r => (getItem candidates r.index).map fun original =>
    {original with relevance_score := r.relevance_score}

def rerankNode (settings : Settings) (rerank : List Str → Nat → Except Failure (List RerankResult))
    (candidates : List ContextChunk) : Except Failure (List ContextChunk) := do
  if candidates.isEmpty then return []
  let results ← rerank (candidates.map (·.content)) settings.RETRIEVAL_RERANK_TOP_N
  match reranked candidates results with
  | some chunks => return chunks
  | none => throw ⟨false,"list index out of range".toList⟩

-- `NoOpRerankProvider.rerank`
def noopRerank (documents : List Str) (top_n : Nat) : List RerankResult :=
  (List.range (min documents.length top_n)).map fun i => ⟨i,1 - (i : ℚ) / (max documents.length 1 : Nat)⟩

def buildQueryRewriteUserPrompt (history_text latest_message : Str) : Str :=
  "Conversation so far:\n".toList ++ history_text ++ "\n\nLatest message: ".toList ++ latest_message ++
    "\n\nStandalone search query:".toList

-- `rewrite_query_node`; the constant system prompt belongs to `generate`.
def rewriteQueryNode (settings : Settings) (generate : List LLMMessage → Except Failure LLMResponse)
    (history : List ChatTurn) (user_message : Str) : Except Failure Str := do
  let history := lastItems settings.RETRIEVAL_HISTORY_TURNS_FOR_REWRITE history
  if history.isEmpty then return user_message
  let history_text := join ['\n'] (history.map fun turn => turn.role.value ++ ": ".toList ++ turn.content)
  let response ← generate [⟨.user,buildQueryRewriteUserPrompt history_text user_message⟩]
  let rewritten := strip response.content
  return if rewritten.isEmpty then user_message else rewritten

theorem contextChunk_row {t : Tables} (member : c ∈ hybridRetrieveNode t retrieved) :
    ∃ r ∈ retrieved, ∃ row ∈ t.document_chunks, row.id = r.chunk_id ∧ c.chunk_id = row.id.str := by
  obtain ⟨r,present,built⟩ := List.mem_filterMap.mp member
  obtain ⟨pair,found,rfl⟩ := Option.map_eq_some_iff.mp built
  obtain ⟨row,stored,kept⟩ := List.mem_filterMap.mp (List.mem_of_find?_eq_some found)
  have same : pair.1.id = r.chunk_id := by simpa using List.find?_some found
  split at kept
  · obtain ⟨document,_,rfl⟩ := Option.map_eq_some_iff.mp kept
    exact ⟨r,present,row,stored,same,rfl⟩
  · cases kept

theorem mem_fuse (fused : fuse dense sparse top_k = some retrieved) (member : r ∈ retrieved) :
    (∃ p ∈ dense, Uuid.parse p.payload.chunk_id = some r.chunk_id) ∨ ∃ hit ∈ sparse, hit.chunk_id = r.chunk_id := by
  obtain ⟨ranking,parsed,rest⟩ := Option.bind_eq_some_iff.mp fused
  cases Option.some.inj rest
  obtain ⟨source,known,inside⟩ := mem_reciprocalRankFusion (List.mem_of_mem_take member)
  rcases List.mem_cons.mp known with rfl | second
  · exact .inl (mem_of_mapM parsed inside)
  · rw [List.mem_singleton.mp second] at inside
    exact .inr (List.mem_map.mp inside)

-- Reranking keeps the chunk and changes its score only.
theorem mem_rerankNode (ranked : rerankNode settings rerank candidates = .ok chunks) (member : c ∈ chunks) :
    ∃ original ∈ candidates, original.chunk_id = c.chunk_id := by
  unfold rerankNode at ranked
  split at ranked
  · cases ranked; cases member
  · cases answered : rerank (candidates.map (·.content)) settings.RETRIEVAL_RERANK_TOP_N with
    | error error => rw [answered] at ranked; cases ranked
    | ok results =>
      cases built : reranked candidates results with
      | none => simp [answered,built,bind,Except.bind] at ranked
      | some final =>
        simp only [answered,built,bind,Except.bind,pure,Except.pure,Except.ok.injEq] at ranked
        subst ranked
        obtain ⟨r,_,here⟩ := mem_of_mapM built member
        obtain ⟨original,found,rfl⟩ := Option.map_eq_some_iff.mp here
        exact ⟨original,getItem_mem found,rfl⟩

end RagForge
