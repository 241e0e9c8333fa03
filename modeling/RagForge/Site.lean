import RagForge.Interleave
import RagForge.Documents
import RagForge.Turn

namespace RagForge.Site
open RagForge Transition

-- One request, task or turn of the running system.
inductive Activity where
  | idle
  | upload (phase : Documents.UploadPhase)
  | reingest (phase : Documents.ReingestPhase)
  | delete (phase : Documents.DeletePhase)
  | ingest (phase : Ingestion.Phase)
  | search (phase : SparseSearch.Phase)
  | turn (phase : Turn.Phase)

inductive Label where
  | upload (label : Documents.UploadLabel)
  | reingest (label : Documents.ReingestLabel)
  | delete (label : Documents.DeleteLabel)
  | ingest (label : Ingestion.Label)
  | search (label : SparseSearch.Label)
  | turn (label : Turn.Label)

def act (deployment : Deployment) (_ : Nat) (s : Stores) : Activity → Label → Option (Stores × Activity)
  | .upload phase,.upload label => (Documents.upload deployment s phase label).map (Prod.map id .upload)
  | .reingest phase,.reingest label => (Documents.reingest s phase label).map (Prod.map id .reingest)
  | .delete phase,.delete label => (Documents.delete deployment s phase label).map (Prod.map id .delete)
  | .ingest phase,.ingest label => (Ingestion.act deployment s phase label).map (Prod.map id .ingest)
  | .search phase,.search label => (SparseSearch.act deployment s phase label).map (Prod.map id .search)
  | .turn phase,.turn label => (Turn.act deployment s phase label).map (Prod.map id .turn)
  | _,_ => none

abbrev Config := Interleave.Config Stores Activity
abbrev Step (deployment : Deployment) : Config → Nat × Label → Config → Prop := Interleave.Step (act deployment)

-- A step of the site is a step of the one activity its label is for.
inductive Part (deployment : Deployment) (s s' : Stores) : Activity → Label → Activity → Prop where
  | upload : Documents.upload deployment s phase label = some (s',phase') →
      Part deployment s s' (.upload phase) (.upload label) (.upload phase')
  | reingest : Documents.reingest s phase label = some (s',phase') →
      Part deployment s s' (.reingest phase) (.reingest label) (.reingest phase')
  | delete : Documents.delete deployment s phase label = some (s',phase') →
      Part deployment s s' (.delete phase) (.delete label) (.delete phase')
  | ingest : Ingestion.act deployment s phase label = some (s',phase') →
      Part deployment s s' (.ingest phase) (.ingest label) (.ingest phase')
  | search : SparseSearch.act deployment s phase label = some (s',phase') →
      Part deployment s s' (.search phase) (.search label) (.search phase')
  | turn : Turn.act deployment s phase label = some (s',phase') →
      Part deployment s s' (.turn phase) (.turn label) (.turn phase')

theorem act_part (acted : act deployment i s a label = some (s',a')) : Part deployment s s' a label a' := by
  unfold act at acted
  split at acted
  · obtain ⟨phase,moved,rfl⟩ := lifted acted
    exact .upload moved
  · obtain ⟨phase,moved,rfl⟩ := lifted acted
    exact .reingest moved
  · obtain ⟨phase,moved,rfl⟩ := lifted acted
    exact .delete moved
  · obtain ⟨phase,moved,rfl⟩ := lifted acted
    exact .ingest moved
  · obtain ⟨phase,moved,rfl⟩ := lifted acted
    exact .search moved
  · obtain ⟨phase,moved,rfl⟩ := lifted acted
    exact .turn moved
  · cases acted

inductive Change (deployment : Deployment) (s : Stores) : Activity → Stores → Activity → Prop where
  | upload : Documents.UploadChange deployment s phase s' phase' → Change deployment s (.upload phase) s' (.upload phase')
  | reingest : Documents.ReingestChange s phase s' phase' → Change deployment s (.reingest phase) s' (.reingest phase')
  | delete : Documents.DeleteChange deployment s phase s' phase' → Change deployment s (.delete phase) s' (.delete phase')
  | ingest : Ingestion.Change deployment s phase s' phase' → Change deployment s (.ingest phase) s' (.ingest phase')
  | search : SparseSearch.Change s phase s' phase' → Change deployment s (.search phase) s' (.search phase')
  | turn : Turn.Change deployment s phase s' phase' → Change deployment s (.turn phase) s' (.turn phase')

theorem act_change (acted : act deployment i s a label = some (s',a')) : Change deployment s a s' a' := by
  cases act_part acted with
  | upload moved => exact .upload (Documents.upload_change moved)
  | reingest moved => exact .reingest (Documents.reingest_change moved)
  | delete moved => exact .delete (Documents.delete_change moved)
  | ingest moved => exact .ingest (Ingestion.act_change moved)
  | search moved => exact .search (SparseSearch.act_change moved)
  | turn moved => exact .turn (Turn.act_change moved)

-- No step has been taken yet.
def Activity.fresh : Activity → Bool
  | .idle => true
  | .upload (.requested _) => true
  | .reingest (.requested _ _) => true
  | .delete (.requested _ _) => true
  | .ingest (.received _ _) => true
  | .search (.requested _) => true
  | .turn (.requested _ _) => true
  | _ => false

-- The document a deletion or an ingestion works on.
def Activity.document_id : Activity → Option Uuid
  | .delete phase => some phase.document_id
  | .ingest phase => some phase.document_id
  | _ => none

theorem act_document_id (acted : act deployment i s a label = some (s',a')) : a'.document_id = a.document_id := by
  cases act_part acted with
  | delete moved => exact congrArg some (Documents.delete_document_id moved)
  | ingest moved => exact congrArg some (Ingestion.act_document_id moved)
  | _ => rfl

theorem runs_document_id (path : Runs (Step deployment) start labels c) (i : Nat) :
    (c.locals i).document_id = (start.locals i).document_id :=
  Interleave.Runs.local_stays i (fun a => a.document_id = (start.locals i).document_id)
    (fun _ _ _ _ _ same acted => (act_document_id acted).trans same) path rfl

theorem runs_idle (path : Runs (Step deployment) start labels c) (idle : start.locals i = .idle) : c.locals i = .idle :=
  Interleave.Runs.local_stays i (· = .idle) (fun _ _ _ _ _ same acted => by subst same; cases acted) path idle

-- Identifiers drawn once stay drawn.
theorem act_issued (acted : act deployment i s a label = some (s',a')) (member : entry ∈ s.issued) : entry ∈ s'.issued := by
  cases act_change acted with
  | upload change =>
    cases change with
    | save drawn _ => exact (Stores.draw_grows drawn :) member
    | torn drawn _ => exact (Stores.draw_grows drawn :) member
    | insert drawn _ => exact (Stores.draw_grows drawn :) member
    | stop => exact member
  | reingest change =>
    cases change with
    | insert _ drawn _ => exact (Stores.draw_grows drawn :) member
    | stop => exact member
  | delete change => cases change <;> exact member
  | ingest change =>
    cases change with
    | load _ drawn => exact (Stores.draw_grows drawn :) member
    | prepare _ _ drawn => exact (Stores.draw_grows drawn :) member
    | _ => exact member
  | search change => cases change <;> exact member
  | turn change =>
    cases change with
    | open_ _ drawn => exact (Stores.draw_grows drawn :) member
    | persist _ drawn => exact (Stores.draw_grows drawn :) member
    | sparse inner => cases inner <;> exact member
    | _ => exact member

-- The one step of an activity that rewrites a document's points.
inductive VectorWrite where
  | none
  | clear (document_id : Uuid)
  | upsert (points : List VectorPoint)

def VectorWrite.apply (vectors : VectorStore) : VectorWrite → VectorStore
  | .none => vectors
  | .clear document_id => vectors.deleteByDocument document_id
  | .upsert points => vectors.upsert points

def vectorWrite : Activity → Label → VectorWrite
  | .ingest (.embedded run _),.ingest (.clear reply) => if reply.landed then .clear run.document_id else .none
  | .ingest (.cleared _ batch),.ingest (.index reply) => if reply.landed then .upsert batch.vector_points else .none
  | .delete (.loaded document),.delete (.clear reply) => if reply.landed then .clear document.id else .none
  | _,_ => .none

theorem ingest_vectors (acted : Ingestion.act deployment s phase label = some (s',phase')) :
    s'.vectors = (vectorWrite (.ingest phase) (.ingest label)).apply s.vectors := by
  unfold Ingestion.act at acted
  split at acted
  · split at acted
    · obtain ⟨after,drawn,equal⟩ := Option.map_eq_some_iff.mp acted
      cases equal
      exact (Stores.draw_same drawn).vectors
    · cases acted; rfl
    · cases acted
  · cases acted; rfl
  · split at acted
    · split at acted
      · obtain ⟨after,drawn,equal⟩ := Option.map_eq_some_iff.mp acted
        cases equal
        exact (Stores.draw_same drawn).vectors
      · cases acted
    · cases acted; rfl
  · rename_i reply
    cases reply with
    | ok => cases acted; rfl
    | failed error landed => cases landed <;> cases acted <;> rfl
  · rename_i reply
    cases reply with
    | ok => cases acted; rfl
    | failed error landed => cases landed <;> cases acted <;> rfl
  · obtain ⟨db,_,equal⟩ := Option.map_eq_some_iff.mp acted
    cases equal; rfl
  all_goals first | (cases acted; rfl) | cases acted

theorem delete_vectors (acted : Documents.delete deployment s phase label = some (s',phase')) :
    s'.vectors = (vectorWrite (.delete phase) (.delete label)).apply s.vectors := by
  unfold Documents.delete at acted
  split at acted
  · split at acted <;> cases acted <;> rfl
  · rename_i reply
    cases reply with
    | ok => cases acted; rfl
    | failed error landed => cases landed <;> cases acted <;> rfl
  · split at acted <;> cases acted <;> rfl
  all_goals first | (cases acted; rfl) | cases acted

-- Vectors move in those three steps and in no other.
theorem act_vectors (acted : act deployment i s a label = some (s',a')) :
    s'.vectors = (vectorWrite a label).apply s.vectors := by
  cases act_part acted with
  | upload moved =>
    cases Documents.upload_change moved with
    | save drawn _ => exact (Stores.draw_same drawn).vectors
    | torn drawn _ => exact (Stores.draw_same drawn).vectors
    | insert drawn _ => exact (Stores.draw_same drawn).vectors
    | stop => rfl
  | reingest moved =>
    cases Documents.reingest_change moved with
    | insert _ drawn _ => exact (Stores.draw_same drawn).vectors
    | stop => rfl
  | delete moved => exact delete_vectors moved
  | ingest moved => exact ingest_vectors moved
  | search moved => cases SparseSearch.act_change moved <;> rfl
  | turn moved =>
    cases Turn.act_change moved with
    | open_ _ drawn => exact (Stores.draw_same drawn).vectors
    | persist _ drawn => exact (Stores.draw_same drawn).vectors
    | sparse inner => cases inner <;> rfl
    | _ => rfl

-- The two commits that replace a document's chunk rows.
def rowsWrite : Activity → Label → Option (Uuid × List DocumentChunk)
  | .ingest (.indexed run batch),.ingest (.persist _) => some (run.document_id,batch.chunk_rows)
  | .delete (.invalidated document _),.delete .commit => some (document.id,[])
  | _,_ => none

def rewriteRows (rows : List DocumentChunk) : Option (Uuid × List DocumentChunk) → List DocumentChunk
  | none => rows
  | some (document_id,fresh) => rows.filter (·.document_id ≠ document_id) ++ fresh

-- Every document row comes from an earlier one with the same identity.
def Descends (earlier later : Tables) : Prop :=
  ∀ document ∈ later.documents, ∃ old ∈ earlier.documents, old.id = document.id ∧
    old.workspace_id = document.workspace_id ∧ old.storage_path = document.storage_path

theorem Descends.of_subset (same : later.documents ⊆ earlier.documents) : Descends earlier later :=
  fun document member => ⟨document,same member,rfl,rfl,rfl⟩

theorem Descends.of_setStatus {earlier later : Tables} {document_id : Uuid} {status : DocumentStatus} {error : Option Str}
    (same : later.documents = (earlier.setStatus document_id status error).documents) : Descends earlier later := by
  intro document member
  rw [same] at member
  exact Tables.mem_setStatus member

-- A small installation with one workspace, for concrete runs.
def plain : Deployment where
  settings := {}
  storage := ⟨[]⟩
  splitText := fun text => [text]
  getScores := fun corpus _ => corpus.map fun _ => 1

def vacant : Stores where
  db := ⟨⟨[⟨⟨1⟩,⟨2⟩⟩],[],[],[],[],[],[],[]⟩,by decide⟩
  vectors := []
  storage := ⟨fun _ => none,fun _ => false⟩
  versions := fun _ => 0
  caches := fun _ => ⟨[],32,List.nodup_nil⟩
  issued := []

def providers : Ingestion.Providers where
  read := none
  parse := fun _ _ => .ok ⟨[⟨1,"Alpha".toList⟩]⟩
  embedDocuments := fun texts => .ok ⟨texts.map fun _ => [1],1⟩

def memo : Documents.Upload := ⟨⟨1⟩,some "a.txt".toList,some "text/plain".toList,[65]⟩

-- The steps of one upload and of one ingestion, numbered by their process.
def uploadSteps (i : Nat) (document_id job_id : Uuid) : List (Nat × Label) :=
  [(i,.upload (.save document_id)),(i,.upload (.insert job_id 0))]

def ingestSteps (i : Nat) (job_id chunk_id vector_id : Uuid) : List (Nat × Label) :=
  [(i,.ingest (.load job_id 1)),(i,.ingest (.prepare providers [(chunk_id,vector_id)])),(i,.ingest (.clear .ok)),
   (i,.ingest (.index .ok)),(i,.ingest (.persist 2)),(i,.ingest .invalidate)]

def deleteSteps (i : Nat) : List (Nat × Label) :=
  [(i,.delete .get),(i,.delete (.clear .ok)),(i,.delete .unlink),(i,.delete .invalidate),(i,.delete .commit)]

end RagForge.Site
