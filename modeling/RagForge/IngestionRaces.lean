import RagForge.ChunkAccounts

namespace RagForge.IngestionRaces
open RagForge Site Provenance Transition VectorLedger ChunkAccounts

def finished : Activity → Bool
  | .ingest (.ended _ .missing) => true
  | .ingest (.ended _ (.completed _ _)) => true
  | _ => false

-- In every reachable state the stores agree on a document exactly if the points
-- not cleared since and the rows committed last have the same writer.
theorem reingestions_agree_iff (deployment : Deployment) (start c : Config) (labels : List (Nat × Label)) (d : Uuid)
    (traced : Traced start.shared) (fresh : ∀ i, (start.locals i).fresh = true) (empty : Unindexed start.shared d)
    (path : Runs (Step deployment) start labels c) :
    Agrees c.shared d ↔ ∀ i, some i ∈ uncleared d start.locals labels ↔ some i ∈ rowWriters d start.locals labels := by
  obtain ⟨built,ghost,account⟩ := runs_account .nil path traced fresh d
  -- nothing was there at the start
  have points (p : VectorPoint) : p ∈ c.shared.vectors ∧ p.payload.document_id = d.str ↔
      ∃ i batch, some i ∈ uncleared d start.locals labels ∧ built i = some batch ∧ p ∈ batch.vector_points :=
    (account.points p).trans (or_iff_right fun base => empty.1 p base.2.1 base.2.2)
  have chunks (row : DocumentChunk) : row ∈ c.shared.db.document_chunks ∧ row.document_id = d ↔
      ∃ i batch, some i ∈ rowWriters d start.locals labels ∧ built i = some batch ∧ row ∈ batch.chunk_rows :=
    (account.chunks row).trans (or_iff_right fun base => empty.2 row base.2.1 base.2.2)
  constructor
  · intro agrees i
    constructor
    · intro member
      obtain ⟨batch,set,paired⟩ := account.owners i (.inl member)
      obtain ⟨p,inside⟩ := List.exists_mem_of_ne_nil _ paired.inhabited
      obtain ⟨stored,mine⟩ := (points p).mpr ⟨i,batch,member,set,inside⟩
      obtain ⟨row,present,home,named,_⟩ := agrees.points p stored mine
      obtain ⟨j,other,last,theirs,within_⟩ := (chunks row).mp ⟨present,home⟩
      obtain ⟨_,paired'⟩ := ghost.paired j other theirs
      obtain ⟨q,sent,key,_⟩ := (paired'.2.rows row within_).2
      rw [ghost.apart i j batch other set theirs p inside q sent (named.symm.trans key.symm)]
      exact last
    · intro last
      obtain ⟨batch,set,paired⟩ := account.owners i (.inr last)
      obtain ⟨p,inside⟩ := List.exists_mem_of_ne_nil _ paired.inhabited
      obtain ⟨row,within_,named,_⟩ := (paired.points p inside).2
      obtain ⟨present,home⟩ := (chunks row).mpr ⟨i,batch,last,set,within_⟩
      obtain ⟨q,stored,mine,key,_⟩ := agrees.rows row present home
      obtain ⟨j,other,member,theirs,sent⟩ := (points q).mp ⟨stored,mine⟩
      rw [ghost.apart i j batch other set theirs p inside q sent (named.symm.trans key.symm)]
      exact member
  · intro one
    constructor
    · intro p stored mine
      obtain ⟨i,batch,member,set,inside⟩ := (points p).mp ⟨stored,mine⟩
      obtain ⟨other,same,paired⟩ := account.owners i (.inl member)
      cases set.symm.trans same
      obtain ⟨row,within_,named,chunk⟩ := (paired.points p inside).2
      obtain ⟨present,home⟩ := (chunks row).mpr ⟨i,batch,(one i).mp member,set,within_⟩
      exact ⟨row,present,home,named,chunk⟩
    · intro row present home
      obtain ⟨i,batch,last,set,within_⟩ := (chunks row).mp ⟨present,home⟩
      obtain ⟨other,same,paired⟩ := account.owners i (.inr last)
      cases set.symm.trans same
      obtain ⟨p,inside,key,chunk⟩ := (paired.rows row within_).2
      obtain ⟨stored,mine⟩ := (points p).mpr ⟨i,batch,(one i).mpr last,set,inside⟩
      exact ⟨p,stored,mine,key,chunk⟩

theorem vacant_unindexed : Unindexed vacant d := ⟨fun _ member => (nomatch member),fun _ member => nomatch member⟩

def oneByOne : List (Nat × Label) := uploadSteps 0 ⟨10⟩ ⟨11⟩ ++ ingestSteps 1 ⟨14⟩ ⟨12⟩ ⟨13⟩ ++ ingestSteps 2 ⟨17⟩ ⟨15⟩ ⟨16⟩

theorem one_by_one_agrees : ∃ c, Runs (Step plain) redelivery oneByOne c ∧ Agrees c.shared ⟨10⟩ ∧
    finished (c.locals 1) = true ∧ finished (c.locals 2) = true := by
  obtain ⟨c,path,passed⟩ := run_any (Interleave.advance (act plain)) redelivery oneByOne
    (fun c => finished (c.locals 1) = true ∧ finished (c.locals 2) = true) (by decide +kernel)
  have agree := reingestions_agree_iff plain redelivery c oneByOne ⟨10⟩ vacant_opening.traced redelivery_fresh vacant_unindexed path
  refine ⟨c,path,agree.mpr fun i => ?_,of_decide_eq_true passed⟩
  rw [show uncleared ⟨10⟩ redelivery.locals oneByOne = [some 2] by decide +kernel,
    show rowWriters ⟨10⟩ redelivery.locals oneByOne = [some 2] by decide +kernel]

-- Each execution clears before the other refills, and the first commits last:
-- the points of both stay, the rows are those of the first.
def crossed : List (Nat × Label) :=
  uploadSteps 0 ⟨10⟩ ⟨11⟩ ++ (ingestSteps 1 ⟨14⟩ ⟨12⟩ ⟨13⟩).take 3 ++ (ingestSteps 2 ⟨17⟩ ⟨15⟩ ⟨16⟩).take 3 ++
  [(1,.ingest (.index .ok)),(2,.ingest (.index .ok)),(2,.ingest (.persist 2)),(1,.ingest (.persist 3)),
   (1,.ingest .invalidate),(2,.ingest .invalidate)]

theorem crossed_disagree : ¬ ∀ (deployment : Deployment) (start c : Config) (labels : List (Nat × Label)) (d : Uuid),
    Opening start.shared → (∀ i, (start.locals i).fresh = true) → Runs (Step deployment) start labels c →
    (∀ i, (c.locals i).document_id = some d → finished (c.locals i) = true) → Agrees c.shared d := by
  intro all
  obtain ⟨c,path,passed⟩ := run_any (Interleave.advance (act plain)) redelivery crossed
    (fun c => (finished (c.locals 1) = true ∧ finished (c.locals 2) = true) ∧
      ∃ p ∈ c.shared.vectors, p.payload.document_id = Uuid.str ⟨10⟩ ∧
        ∀ row ∈ c.shared.db.document_chunks, row.vector_id ≠ p.id) (by decide +kernel)
  obtain ⟨both,p,stored,mine,unnamed⟩ := of_decide_eq_true passed
  have done (i : Nat) (own : (c.locals i).document_id = some ⟨10⟩) : finished (c.locals i) = true := by
    have kind := runs_document_id path i
    match i with
    | 0 => exact nomatch own.symm.trans kind
    | 1 => exact both.1
    | 2 => exact both.2
    | i + 3 => exact nomatch own.symm.trans kind
  obtain ⟨row,present,_,named,_⟩ := (all plain redelivery c crossed ⟨10⟩ vacant_opening redelivery_fresh path done).points p stored mine
  exact unnamed row present named

end RagForge.IngestionRaces
