import RagForge.Site

namespace RagForge.Commits
open RagForge Site

-- The job rows after the latest one of a document has been closed.
def closeLatest (db : Database) (document_id : Uuid) (status : IngestionStatus) (stage : IngestionStage → IngestionStage)
    (error : Option Str → Option Str) (now : Nat) : List IngestionJob :=
  match db.latestJob document_id with
  | some job => (db.toTables.updateJob job.id status stage error now).ingestion_jobs
  | none => db.ingestion_jobs

def runningJob (document_id job_id : Uuid) (celery_task_id : Option Str) (now : Nat) : IngestionJob :=
  ⟨job_id,document_id,.running,.parsing,celery_task_id,none,some now,none,now⟩

def ingestUsage (run : Ingestion.RunContext) (batch : Ingestion.Batch) : UsageRecord :=
  ⟨run.organization_id,some run.workspace_id,none,.document_ingested,batch.total_tokens,0,0⟩

-- The three transactions of an execution, table by table.
theorem load_tables (loaded : Ingestion.load db d task job_id now = some (some (after,run))) :
    ∃ document workspace, db.getDocument d = some document ∧ db.getWorkspace document.workspace_id = some workspace ∧
      run = ⟨d,document.workspace_id,workspace.organization_id,document.mime_type,document.storage_path⟩ ∧
      after.toTables = {db.toTables.setStatus d .processing none with
        ingestion_jobs := db.ingestion_jobs ++ [runningJob d job_id task now]} := by
  unfold Ingestion.load at loaded
  split at loaded
  · cases loaded
  · rename_i document found
    split at loaded
    · cases loaded
    · rename_i workspace home
      obtain ⟨enforced,checked,equal⟩ := Option.map_eq_some_iff.mp loaded
      cases equal
      refine ⟨document,workspace,found,home,rfl,?_⟩
      rw [Database.enforce_tables checked,(Database.getDocument_mem found).2]
      rfl

theorem persist_tables (persisted : Ingestion.persist db run batch now = some after) :
    after.toTables = {db.toTables.deleteChunks run.document_id with
      documents := (db.toTables.setStatus run.document_id .completed none).documents
      document_chunks := db.document_chunks.filter (·.document_id ≠ run.document_id) ++ batch.chunk_rows
      ingestion_jobs := closeLatest db run.document_id .completed (fun _ => .done) id now
      usage_records := db.usage_records ++ [ingestUsage run batch]} := by
  unfold Ingestion.persist at persisted
  rw [Database.enforce_tables persisted]
  unfold closeLatest
  cases db.latestJob run.document_id <;> rfl

theorem markFailed_tables (db : Database) (d : Uuid) (message : Str) (now : Nat) :
    (Ingestion.markFailed db d message now).toTables = {db.toTables.setStatus d .failed (some (message.take 2048)) with
      ingestion_jobs := closeLatest db d .failed id (fun _ => some (message.take 2048)) now} := by
  unfold Ingestion.markFailed closeLatest
  cases db.latestJob d <;> rfl

-- The job row a step adds.
def inserts (db : Database) : Activity → Label → Option IngestionJob
  | .upload (.saved _ document_id),.upload (.insert job_id now) => some (Documents.pendingJob document_id job_id now)
  | .reingest (.requested workspace_id document_id),.reingest (.insert job_id now) =>
    (Documents.getDocument db workspace_id document_id).map fun document => Documents.pendingJob document.id job_id now
  | .ingest (.received d task),.ingest (.load job_id now) => (db.getDocument d).map fun _ => runningJob d job_id task now
  | _,_ => none

-- Every transaction the running system commits, with the step that commits it.
-- A step of no other kind changes a table.
inductive Commit (db : Database) : Activity → Label → Database → Activity → Prop where
  | upload : Database.enforce {db.toTables with
        documents := db.documents ++ [request.row document_id]
        ingestion_jobs := db.ingestion_jobs ++ [Documents.pendingJob document_id job_id now]} = some after →
      Commit db (.upload (.saved request document_id)) (.upload (.insert job_id now)) after
        (.upload (.uploaded request document_id))
  | reingest : Documents.getDocument db workspace_id document_id = some document →
      Database.enforce {db.toTables.setStatus document.id .pending none with
        ingestion_jobs := db.ingestion_jobs ++ [Documents.pendingJob document.id job_id now]} = some after →
      Commit db (.reingest (.requested workspace_id document_id)) (.reingest (.insert job_id now)) after
        (.reingest (.queued document.id))
  | delete : Commit db (.delete (.invalidated document version)) (.delete .commit)
      ⟨db.deleteDocument document.id,db.keys.deleteDocument document.id⟩ (.delete (.deleted document))
  | load : Ingestion.load db d task job_id now = some (some (after,run)) →
      Commit db (.ingest (.received d task)) (.ingest (.load job_id now)) after (.ingest (.loaded run))
  | persist : Ingestion.persist db run batch now = some after →
      Commit db (.ingest (.indexed run batch)) (.ingest (.persist now)) after (.ingest (.persisted run batch))
  | mark : Commit db (.ingest (.failing d message)) (.ingest (.mark now)) (Ingestion.markFailed db d message now)
      (.ingest (.ended d (.recorded message)))
  | open_ : ChatService.openTurn Turn.never db request conversation_id message_id now = .ok (after,conversation,history) →
      Commit db (.turn (.requested request worker)) (.turn (.open_ conversation_id message_id now)) after
        (.turn (.opened request worker conversation history))
  | save : ChatService.persistTurn Turn.never db conversation request.user_id message_id now g cited_indices = .ok after →
      Commit db (.turn (.generated request conversation g cited_indices)) (.turn (.persist message_id now)) after
        (.turn (.saved request conversation g cited_indices))
  | none : rowsWrite a label = .none → inserts db a label = .none → Commit db a label db a'

-- A workspace is never missing: the document row has a key to it.
theorem load_missing (loaded : Ingestion.load db d task job_id now = some none) : db.getDocument d = none := by
  unfold Ingestion.load at loaded
  split at loaded
  · assumption
  · rename_i document found
    split at loaded
    · rename_i gone
      obtain ⟨stored,_⟩ := Database.getDocument_mem found
      obtain ⟨w,present,key⟩ := db.keys.document_workspace document stored
      exact absurd (decide_eq_true key) (List.find?_eq_none.mp gone w present)
    · obtain ⟨_,_,equal⟩ := Option.map_eq_some_iff.mp loaded
      cases equal

theorem ingest_commit (acted : Ingestion.act deployment s phase label = some (s',phase')) :
    Commit s.db (.ingest phase) (.ingest label) s'.db (.ingest phase') := by
  unfold Ingestion.act at acted
  split at acted
  · split at acted
    · rename_i loaded
      obtain ⟨after,_,equal⟩ := Option.map_eq_some_iff.mp acted
      cases equal
      exact .load loaded
    · rename_i loaded
      cases acted
      exact .none rfl (by rw [inserts,load_missing loaded]; rfl)
    · cases acted
  · cases acted; exact .none rfl rfl
  · split at acted
    · split at acted
      · obtain ⟨after,drawn,equal⟩ := Option.map_eq_some_iff.mp acted
        cases equal
        rw [(Stores.draw_same drawn).db]
        exact .none rfl rfl
      · cases acted
    · cases acted; exact .none rfl rfl
  · rename_i reply
    cases reply with
    | ok => cases acted; exact .none rfl rfl
    | failed error landed => cases landed <;> cases acted <;> exact .none rfl rfl
  · rename_i reply
    cases reply with
    | ok => cases acted; exact .none rfl rfl
    | failed error landed => cases landed <;> cases acted <;> exact .none rfl rfl
  · obtain ⟨db,persisted,equal⟩ := Option.map_eq_some_iff.mp acted
    cases equal
    exact .persist persisted
  · cases acted; exact .none rfl rfl
  · cases acted; exact .none rfl rfl
  · cases acted; exact .none rfl rfl
  · cases acted; exact .mark
  all_goals first | (cases acted; exact .none rfl rfl) | cases acted

theorem upload_commit (acted : Documents.upload deployment s phase label = some (s',phase')) :
    Commit s.db (.upload phase) (.upload label) s'.db (.upload phase') := by
  unfold Documents.upload at acted
  split at acted
  · split at acted
    · cases acted; exact .none rfl rfl
    · obtain ⟨after,drawn,rest⟩ := Option.bind_eq_some_iff.mp acted
      obtain ⟨storage,_,equal⟩ := Option.bind_eq_some_iff.mp rest
      cases equal
      rw [show ({after with storage := storage} : Stores).db = s.db from (Stores.draw_same drawn).db]
      exact .none rfl rfl
  · obtain ⟨after,drawn,rest⟩ := Option.bind_eq_some_iff.mp acted
    have same := (Stores.draw_same drawn).db
    split at rest
    · cases rest
      rw [same]
      exact .none rfl rfl
    · obtain ⟨storage,_,equal⟩ := Option.bind_eq_some_iff.mp rest
      cases equal
      rw [show ({after with storage := storage} : Stores).db = s.db from same]
      exact .none rfl rfl
  · cases acted; exact .none rfl rfl
  · obtain ⟨after,drawn,rest⟩ := Option.bind_eq_some_iff.mp acted
    obtain ⟨db,enforced,equal⟩ := Option.bind_eq_some_iff.mp rest
    cases equal
    rw [(Stores.draw_parts drawn).2.2] at enforced
    exact .upload enforced
  · cases acted; exact .none rfl rfl
  · cases acted

theorem reingest_commit (acted : Documents.reingest s phase label = some (s',phase')) :
    Commit s.db (.reingest phase) (.reingest label) s'.db (.reingest phase') := by
  unfold Documents.reingest at acted
  split at acted
  · split at acted
    · rename_i absent
      cases acted
      exact .none rfl (by rw [inserts,absent]; rfl)
    · rename_i document found
      obtain ⟨after,drawn,rest⟩ := Option.bind_eq_some_iff.mp acted
      obtain ⟨db,enforced,equal⟩ := Option.bind_eq_some_iff.mp rest
      cases equal
      rw [(Stores.draw_parts drawn).2.2] at enforced
      exact .reingest found enforced
  · cases acted; exact .none rfl rfl
  · cases acted

theorem delete_commit (acted : Documents.delete deployment s phase label = some (s',phase')) :
    Commit s.db (.delete phase) (.delete label) s'.db (.delete phase') := by
  unfold Documents.delete at acted
  split at acted
  · split at acted <;> cases acted <;> exact .none rfl rfl
  · rename_i reply
    cases reply with
    | ok => cases acted; exact .none rfl rfl
    | failed error landed => cases landed <;> cases acted <;> exact .none rfl rfl
  · split at acted <;> cases acted <;> exact .none rfl rfl
  · cases acted; exact .none rfl rfl
  · cases acted; exact .delete
  all_goals first | (cases acted; exact .none rfl rfl) | cases acted

theorem search_db (acted : SparseSearch.act deployment s phase label = some (s',phase')) : s'.db = s.db := by
  cases SparseSearch.act_change acted <;> rfl

theorem turn_commit (acted : Turn.act deployment s phase label = some (s',phase')) :
    Commit s.db (.turn phase) (.turn label) s'.db (.turn phase') := by
  unfold Turn.act at acted
  split at acted
  · split at acted
    · rename_i opened
      obtain ⟨after,_,equal⟩ := Option.map_eq_some_iff.mp acted
      cases equal
      exact .open_ opened
    · cases acted; exact .none rfl rfl
  · split at acted <;> cases acted <;> exact .none rfl rfl
  · cases acted; exact .none rfl rfl
  · split at acted <;> cases acted
    exact .none rfl rfl
  · obtain ⟨out,moved,equal⟩ := Option.map_eq_some_iff.mp acted
    cases equal
    rw [search_db moved]
    exact .none rfl rfl
  · split at acted <;> cases acted <;> exact .none rfl rfl
  · cases acted; exact .none rfl rfl
  · split at acted <;> cases acted <;> exact .none rfl rfl
  · dsimp only at acted
    split at acted <;> cases acted <;> exact .none rfl rfl
  · split at acted
    · rename_i persisted
      obtain ⟨after,_,equal⟩ := Option.map_eq_some_iff.mp acted
      cases equal
      exact .save persisted
    · cases acted; exact .none rfl rfl
  all_goals first | (cases acted; exact .none rfl rfl) | cases acted

theorem act_commit (acted : act deployment i s a label = some (s',a')) : Commit s.db a label s'.db a' := by
  cases act_part acted with
  | upload moved => exact upload_commit moved
  | reingest moved => exact reingest_commit moved
  | delete moved => exact delete_commit moved
  | ingest moved => exact ingest_commit moved
  | search moved => rw [search_db moved]; exact .none rfl rfl
  | turn moved => exact turn_commit moved

-- Chunk rows move in two commits and in no other.
theorem act_chunks (acted : act deployment i s a label = some (s',a')) :
    s'.db.document_chunks = rewriteRows s.db.document_chunks (rowsWrite a label) := by
  generalize found : s'.db = after
  have commit := found ▸ act_commit acted
  cases commit with
  | upload enforced => exact (congrArg Tables.document_chunks (Database.enforce_tables enforced) :)
  | reingest _ enforced => exact (congrArg Tables.document_chunks (Database.enforce_tables enforced) :)
  | delete => exact (List.append_nil _).symm
  | load loaded =>
    obtain ⟨_,_,_,_,_,tables⟩ := load_tables loaded
    exact (congrArg Tables.document_chunks tables :)
  | persist persisted => exact (congrArg Tables.document_chunks (persist_tables persisted) :)
  | mark => exact (congrArg Tables.document_chunks (markFailed_tables _ _ _ _) :)
  | open_ opened =>
    obtain ⟨_,_,_,_,tables⟩ := ChatService.openTurn_parts opened
    exact (congrArg Tables.document_chunks tables :)
  | save persisted =>
    obtain ⟨_,_,tables⟩ := ChatService.persistTurn_parts persisted
    exact (congrArg Tables.document_chunks tables :)
  | none silent _ => rw [silent]; rfl

-- A document row without an earlier one comes from an upload holding its id.
theorem act_documents (acted : act deployment i s a label = some (s',a')) :
    Descends s.db.toTables s'.db.toTables ∨ ∃ request document_id, a = .upload (.saved request document_id) ∧
      s'.db.documents = s.db.documents ++ [request.row document_id] := by
  have same {tables : Tables} (equal : tables.documents = s.db.documents) : Descends s.db.toTables tables :=
    .of_subset (equal ▸ List.Subset.refl _)
  generalize found : s'.db = after
  have commit := found ▸ act_commit acted
  cases commit with
  | upload enforced => exact .inr ⟨_,_,rfl,congrArg Tables.documents (Database.enforce_tables enforced)⟩
  | reingest _ enforced => exact .inl (.of_setStatus (congrArg Tables.documents (Database.enforce_tables enforced) :))
  | delete => exact .inl (.of_subset (List.filter_subset_self _))
  | load loaded =>
    obtain ⟨_,_,_,_,_,tables⟩ := load_tables loaded
    exact .inl (.of_setStatus (congrArg Tables.documents tables :))
  | persist persisted => exact .inl (.of_setStatus (congrArg Tables.documents (persist_tables persisted) :))
  | mark => exact .inl (.of_setStatus (congrArg Tables.documents (markFailed_tables _ _ _ _) :))
  | open_ opened =>
    obtain ⟨_,_,_,_,tables⟩ := ChatService.openTurn_parts opened
    exact .inl (same (congrArg Tables.documents tables :))
  | save persisted =>
    obtain ⟨_,_,tables⟩ := ChatService.persistTurn_parts persisted
    exact .inl (same (congrArg Tables.documents tables :))
  | none => exact .inl (same rfl)

-- The row's id is drawn by the step that adds it.
theorem act_inserts (acted : act deployment i s a label = some (s',a')) (inserted : inserts s.db a label = some job) :
    job.id ∉ s.issued.map Prod.fst ∧ job.id ∈ s'.issued.map Prod.fst := by
  unfold inserts at inserted
  split at inserted
  · cases inserted
    obtain ⟨⟨t,phase⟩,moved,equal⟩ := Option.map_eq_some_iff.mp acted
    cases equal
    obtain ⟨after,drawn,rest⟩ := Option.bind_eq_some_iff.mp moved
    obtain ⟨db,_,equal⟩ := Option.bind_eq_some_iff.mp rest
    cases equal
    exact (Stores.draw_one drawn :)
  · obtain ⟨document,found,rfl⟩ := Option.map_eq_some_iff.mp inserted
    obtain ⟨⟨t,phase⟩,moved,equal⟩ := Option.map_eq_some_iff.mp acted
    cases equal
    rw [Documents.reingest,found] at moved
    obtain ⟨after,drawn,rest⟩ := Option.bind_eq_some_iff.mp moved
    obtain ⟨db,_,equal⟩ := Option.bind_eq_some_iff.mp rest
    cases equal
    exact (Stores.draw_one drawn :)
  · obtain ⟨document,found,rfl⟩ := Option.map_eq_some_iff.mp inserted
    obtain ⟨⟨t,phase⟩,moved,equal⟩ := Option.map_eq_some_iff.mp acted
    cases equal
    unfold Ingestion.act at moved
    dsimp only at moved
    split at moved
    · obtain ⟨after,drawn,equal⟩ := Option.map_eq_some_iff.mp moved
      cases equal
      exact (Stores.draw_one drawn :)
    · rename_i loaded
      rw [load_missing loaded] at found
      cases found
    · cases moved
  · cases inserted

end RagForge.Commits
