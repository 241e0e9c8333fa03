import RagForge.Tables
import RagForge.VectorStore
import RagForge.FileStorage
import RagForge.Bm25Cache

namespace RagForge

structure Settings where
  MAX_UPLOAD_SIZE_MB : Nat := 50
  RETRIEVAL_DENSE_TOP_K : Nat := 50
  RETRIEVAL_SPARSE_TOP_K : Nat := 50
  RETRIEVAL_FUSED_TOP_K : Nat := 30
  RETRIEVAL_RERANK_TOP_N : Nat := 8
  RETRIEVAL_HISTORY_TURNS_FOR_REWRITE : Nat := 6

-- One installation: its settings, its storage root and the pure third-party
-- functions it calls. `get_scores` answers one score a document.
structure Deployment where
  settings : Settings
  storage : LocalStorageBackend
  splitText : Str → List Str
  getScores : Corpus → List Str → List ℚ

-- An exception as the callers tell it apart: UpstreamProviderError or not.
structure Failure where
  upstream : Bool
  message : Str
  deriving DecidableEq

-- A call to a service outside the process. A call that reports a failure may
-- still have taken effect, as after a lost answer.
inductive Reply where
  | ok
  | failed (error : Failure) (landed : Bool)

def Reply.landed : Reply → Bool
  | .ok => true
  | .failed _ landed => landed

-- Everything the processes share. `issued` logs every uuid4 value drawn so far
-- with the workspace it was drawn for; no service reads it.
structure Stores where
  db : Database
  vectors : VectorStore
  storage : FileSystem
  versions : Uuid → Nat
  caches : Nat → WorkspaceBM25Cache
  issued : List (Uuid × Uuid)

namespace Stores

-- `uuid4()` never repeats: values already drawn are refused.
def draw (s : Stores) (workspace_id : Uuid) (ids : List Uuid) : Option Stores :=
  if (ids ++ s.issued.map Prod.fst).Nodup then
    some {s with issued := ids.map (·,workspace_id) ++ s.issued}
  else none

theorem draw_parts {s : Stores} (drawn : s.draw w ids = some after) :
    ids.Nodup ∧ (∀ u ∈ ids, u ∉ s.issued.map Prod.fst) ∧
      after = {s with issued := ids.map (·,w) ++ s.issued} := by
  unfold draw at drawn
  split at drawn
  · rename_i apart
    obtain ⟨mine,_,cross⟩ := List.nodup_append.mp apart
    exact ⟨mine,fun u member old => cross u member u old rfl,(Option.some.inj drawn).symm⟩
  · cases drawn

theorem draw_grows {s : Stores} (drawn : s.draw w ids = some after) : s.issued ⊆ after.issued := by
  rw [(draw_parts drawn).2.2]
  exact List.subset_append_right _ _

theorem draw_one {s : Stores} (drawn : s.draw w [key] = some after) :
    key ∉ s.issued.map Prod.fst ∧ key ∈ after.issued.map Prod.fst := by
  obtain ⟨_,fresh,rfl⟩ := draw_parts drawn
  exact ⟨fresh key (List.mem_singleton.mpr rfl),List.mem_cons_self⟩

structure Drawn (s after : Stores) : Prop where
  db : after.db = s.db
  vectors : after.vectors = s.vectors
  storage : after.storage = s.storage
  versions : after.versions = s.versions
  caches : after.caches = s.caches

theorem draw_same {s : Stores} (drawn : s.draw w ids = some after) : Drawn s after := by
  rw [(draw_parts drawn).2.2]
  exact ⟨rfl,rfl,rfl,rfl,rfl⟩

-- Redis INCR of `bm25:version:{workspace_id}`; a missing key counts as 0.
def invalidateWorkspaceBm25Cache (s : Stores) (workspace_id : Uuid) : Stores :=
  {s with versions := Function.update s.versions workspace_id (s.versions workspace_id + 1)}

def chunkRows (s : Stores) (workspace_id : Uuid) : List (Uuid × Str) :=
  (s.db.document_chunks.filter (·.workspace_id = workspace_id)).map fun row => (row.id,row.content)

end Stores
end RagForge
