import RagForge.Stores

namespace RagForge.SparseSearch
open RagForge

-- A call of `sparse_search` in one process of the API, which owns the cache
-- number `worker`.
structure Call where
  worker : Nat
  workspace_id : Uuid
  query : Str
  top_k : Nat

inductive Phase where
  | requested (call : Call)
  | versioned (call : Call) (version : Nat)
  | missed (call : Call) (version : Nat)
  | selected (call : Call) (version : Nat) (rows : List (Uuid × Str))
  | ranked (call : Call) (version : Nat) (chunk_ids : List Uuid) (results : List SparseSearchResult)
  | raised (call : Call) (error : Failure)

-- The order of selected rows is the database's own.
inductive Label where
  | readVersion
  | cacheGet
  | select (rows : List (Uuid × Str))
  | cachePut
  | fails (error : Failure)

def setCache (s : Stores) (worker : Nat) (cache : WorkspaceBM25Cache) : Stores :=
  {s with caches := Function.update s.caches worker cache}

-- From the cached pair on: no await is left.
def rank (deployment : Deployment) (call : Call) (version : Nat) (bm25 : Option Corpus) (chunk_ids : List Uuid) : Phase :=
  match bm25 with
  | none => .ranked call version chunk_ids []
  | some corpus =>
    .ranked call version chunk_ids
      (rankByScore chunk_ids (deployment.getScores corpus (tokenize call.query)) call.top_k)

def act (deployment : Deployment) (s : Stores) : Phase → Label → Option (Stores × Phase)
  | .requested call,.readVersion => some (s,.versioned call (s.versions call.workspace_id))
  | .versioned call version,.cacheGet => match (s.caches call.worker).get call.workspace_id version with
    | some (cached,cache) =>
      some (setCache s call.worker cache,rank deployment call version cached.bm25 cached.chunk_ids)
    | none => some (s,.missed call version)
  | .missed call version,.select rows =>
    if rows.Perm (s.chunkRows call.workspace_id) then some (s,.selected call version rows) else none
  | .selected call version rows,.cachePut =>
    let chunk_ids := rows.map Prod.fst
    let put bm25 := setCache s call.worker ((s.caches call.worker).put call.workspace_id ⟨version,bm25,chunk_ids⟩)
    if rows.isEmpty then some (put none,rank deployment call version none chunk_ids)
    else match BM25Okapi (rows.map fun row => tokenize row.2) with
      | some corpus => some (put (some corpus),rank deployment call version (some corpus) chunk_ids)
      | none => some (s,.raised call ⟨false,"division by zero".toList⟩)
  | .requested call,.fails error => some (s,.raised call error)
  | .versioned call _,.fails error => some (s,.raised call error)
  | .missed call _,.fails error => some (s,.raised call error)
  | _,_ => none

def Phase.call : Phase → Call
  | .requested call => call
  | .versioned call _ => call
  | .missed call _ => call
  | .selected call _ _ => call
  | .ranked call _ _ _ => call
  | .raised call _ => call

theorem rank_ranked (deployment : Deployment) (call : Call) (version : Nat) (bm25 : Option Corpus) (chunk_ids : List Uuid) :
    ∃ results, rank deployment call version bm25 chunk_ids = .ranked call version chunk_ids results ∧
      ∀ r ∈ results, r.chunk_id ∈ chunk_ids := by
  cases bm25 with
  | none => exact ⟨[],rfl,fun _ member => nomatch member⟩
  | some corpus => exact ⟨_,rfl,fun _ member => rankByScore_mem member⟩

-- Everything a step of a search can do. Only the cache of its own process
-- changes, and a new entry of it holds the rows selected under the version read.
inductive Change (s : Stores) : Phase → Stores → Phase → Prop where
  | version : Change s (.requested call) s (.versioned call (s.versions call.workspace_id))
  | miss : (s.caches call.worker).get call.workspace_id version = none →
      Change s (.versioned call version) s (.missed call version)
  | hit : (s.caches call.worker).get call.workspace_id version = some (cached,cache) →
      (∀ r ∈ results, r.chunk_id ∈ cached.chunk_ids) →
      Change s (.versioned call version) (setCache s call.worker cache) (.ranked call version cached.chunk_ids results)
  | select : rows.Perm (s.chunkRows call.workspace_id) →
      Change s (.missed call version) s (.selected call version rows)
  | put : (∀ r ∈ results, r.chunk_id ∈ rows.map Prod.fst) → Change s (.selected call version rows)
      (setCache s call.worker ((s.caches call.worker).put call.workspace_id ⟨version,bm25,rows.map Prod.fst⟩))
      (.ranked call version (rows.map Prod.fst) results)
  | fail : Change s phase s (.raised phase.call error)

theorem act_change (acted : act deployment s phase label = some (s',phase')) : Change s phase s' phase' := by
  unfold act at acted
  split at acted
  · cases acted; exact .version
  · rename_i call version
    split at acted
    · rename_i cached cache hit
      obtain ⟨results,ranked,inside⟩ := rank_ranked deployment call version cached.bm25 cached.chunk_ids
      rw [ranked] at acted
      cases acted
      exact .hit hit inside
    · rename_i missed
      cases acted
      exact .miss missed
  · split at acted
    · rename_i same
      cases acted
      exact .select same
    · cases acted
  · rename_i call version rows
    dsimp only at acted
    split at acted
    · obtain ⟨results,ranked,inside⟩ := rank_ranked deployment call version none (rows.map Prod.fst)
      rw [ranked] at acted
      cases acted
      exact .put inside
    · split at acted
      · rename_i corpus _
        obtain ⟨results,ranked,inside⟩ := rank_ranked deployment call version (some corpus) (rows.map Prod.fst)
        rw [ranked] at acted
        cases acted
        exact .put inside
      · cases acted; exact .fail
  · cases acted; exact .fail
  · cases acted; exact .fail
  · cases acted; exact .fail
  · cases acted

theorem Change.call (change : Change s phase s' phase') : phase'.call = phase.call := by
  cases change <;> rfl

end RagForge.SparseSearch
