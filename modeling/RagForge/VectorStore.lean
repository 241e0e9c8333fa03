import Mathlib.Algebra.Order.Ring.Rat
import RagForge.Identifier

namespace RagForge

-- Payload values are texts: `str(uuid)` on the way in, string equality in filters.
structure Payload where
  chunk_id : Str
  document_id : Str
  workspace_id : Str
  organization_id : Str
  deriving DecidableEq

structure VectorPoint where
  id : Uuid
  vector : List ℚ
  payload : Payload
  deriving DecidableEq

-- The points of the one collection, each id at most once after an upsert.
abbrev VectorStore := List VectorPoint

namespace VectorStore

def put (store : VectorStore) (point : VectorPoint) : VectorStore :=
  store.filter (·.id ≠ point.id) ++ [point]

def upsert (store : VectorStore) (points : List VectorPoint) : VectorStore := points.foldl put store

def deleteByDocument (store : VectorStore) (document_id : Uuid) : VectorStore :=
  store.filter (·.payload.document_id ≠ document_id.str)

-- An answer of `search` with the `must` filter on workspace_id: at most `top_k`
-- stored points, all of them matching. Order and scores are the service's own.
def Answers (store : VectorStore) (workspace_id : Uuid) (top_k : Nat) (found : List VectorPoint) : Prop :=
  found.length ≤ top_k ∧ ∀ p ∈ found, p ∈ store ∧ p.payload.workspace_id = workspace_id.str

instance (store : VectorStore) (workspace_id : Uuid) (top_k : Nat) (found : List VectorPoint) :
    Decidable (Answers store workspace_id top_k found) := inferInstanceAs (Decidable (_ ∧ _))

theorem mem_put {store : VectorStore} (member : p ∈ store.put q) : p ∈ store ∨ p = q := by
  rcases List.mem_append.mp member with old | new
  · exact .inl (List.mem_filter.mp old).1
  · exact .inr (List.mem_singleton.mp new)

theorem mem_upsert {store : VectorStore} (member : p ∈ store.upsert points) : p ∈ store ∨ p ∈ points := by
  induction points generalizing store with
  | nil => exact .inl member
  | cons q rest ih =>
    rcases ih member with first | later
    · rcases mem_put first with old | rfl
      · exact .inl old
      · exact .inr List.mem_cons_self
    · exact .inr (List.mem_cons_of_mem _ later)

-- Fresh ids replace nothing: the upsert adds exactly its points.
theorem upsert_fresh {store : VectorStore} (fresh : ∀ p ∈ points, ∀ q ∈ store, q.id ≠ p.id)
    (apart : (points.map (·.id)).Nodup) : store.upsert points = store ++ points := by
  induction points generalizing store with
  | nil => exact (List.append_nil _).symm
  | cons q rest ih =>
    obtain ⟨absent,restApart⟩ := List.nodup_cons.mp apart
    have kept : store.filter (·.id ≠ q.id) = store :=
      List.filter_eq_self.mpr fun other member => decide_eq_true (fresh q List.mem_cons_self other member)
    have restFresh : ∀ p ∈ rest, ∀ other ∈ store.put q, other.id ≠ p.id := by
      intro p later other member same
      rcases mem_put member with old | rfl
      · exact fresh p (List.mem_cons_of_mem _ later) other old same
      · exact absent (List.mem_map.mpr ⟨p,later,same.symm⟩)
    change (store.put q).upsert rest = _
    rw [ih restFresh restApart]
    simp only [put,kept,List.append_assoc,List.singleton_append]

theorem mem_upsert_fresh {store : VectorStore} (fresh : ∀ p ∈ points, ∀ q ∈ store, q.id ≠ p.id)
    (apart : (points.map (·.id)).Nodup) : p ∈ store.upsert points ↔ p ∈ store ∨ p ∈ points := by
  rw [upsert_fresh fresh apart,List.mem_append]

theorem mem_delete {store : VectorStore} :
    p ∈ store.deleteByDocument d ↔ p ∈ store ∧ p.payload.document_id ≠ d.str := by
  simp [deleteByDocument]

end VectorStore
end RagForge
