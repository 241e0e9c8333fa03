import RagForge.Commits
import RagForge.VectorLedger

namespace RagForge.Redelivery
open RagForge Transition Interleave Commits
variable {run : Ingestion.RunContext} {batch : Ingestion.Batch}

-- Contents without what every delivery draws or reads anew: ids and clocks.
def rowContent (row : DocumentChunk) : DocumentChunk := {row with id := ⟨0⟩,vector_id := ⟨0⟩}

def pointContent (p : VectorPoint) : VectorPoint := {p with id := ⟨0⟩,payload := {p.payload with chunk_id := []}}

def jobContent (job : IngestionJob) : IngestionJob :=
  {job with
    id := ⟨0⟩
    started_at := job.started_at.map fun _ => 0
    completed_at := job.completed_at.map fun _ => 0
    created_at := 0}

structure Alike (a b : Stores) : Prop where
  chunks : (a.db.document_chunks.map rowContent).Perm (b.db.document_chunks.map rowContent)
  vectors : (a.vectors.map pointContent).Perm (b.vectors.map pointContent)
  documents : a.db.documents = b.db.documents
  usage_records : a.db.usage_records.Perm b.db.usage_records
  ingestion_jobs : (a.db.ingestion_jobs.map jobContent).Perm (b.db.ingestion_jobs.map jobContent)

theorem Alike.refl (s : Stores) : Alike s s := ⟨.refl _,.refl _,rfl,.refl _,.refl _⟩

-- The first transaction has committed `db`.
def Loaded (s : Stores) (d : Uuid) (task : Option Str) (run : Ingestion.RunContext) (db : Database) : Prop :=
  ∃ job_id now, Ingestion.load s.db d task job_id now = some (some (db,run))

-- The batch came from the document's file, with ids new to the stores.
def Built (deployment : Deployment) (s : Stores) (labels : List Ingestion.Label) (run : Ingestion.RunContext)
    (batch : Ingestion.Batch) : Prop :=
  ∃ providers ids chunks embed_result, Ingestion.Label.prepare providers ids ∈ labels ∧
    Ingestion.prepare deployment s.storage run providers = .ok (chunks,embed_result) ∧ ids.length = chunks.length ∧
    batch = Ingestion.build run chunks embed_result ids ∧
    (ids.map Prod.snd).Nodup ∧ ∀ u ∈ ids.map Prod.snd, u ∉ s.issued.map Prod.fst

theorem Built.snoc (built : Built deployment s labels run batch) : Built deployment s (labels ++ [label]) run batch := by
  obtain ⟨providers,ids,chunks,embed_result,used,rest⟩ := built
  exact ⟨providers,ids,chunks,embed_result,List.mem_append_left _ used,rest⟩

-- The last transaction has committed, after the points were replaced.
def Finished (deployment : Deployment) (s : Stores) (d : Uuid) (task : Option Str) (labels : List Ingestion.Label)
    (run : Ingestion.RunContext) (batch : Ingestion.Batch) (t : Stores) : Prop :=
  t.vectors = (s.vectors.deleteByDocument d).upsert batch.vector_points ∧ Built deployment s labels run batch ∧
    ∃ db now, Loaded s d task run db ∧ Ingestion.persist db run batch now = some t.db

theorem Finished.snoc (finished : Finished deployment s d task labels run batch t) :
    Finished deployment s d task (labels ++ [label]) run batch t := ⟨finished.1,finished.2.1.snoc,finished.2.2⟩

theorem solo_traced (path : Runs (taken (solo (Ingestion.act deployment))) (s,.received d task) labels c) (traced : Provenance.Traced s) :
    Provenance.Traced c.1 := by
  refine (path.history (fun _ c => Provenance.Traced c.1 ∧ Provenance.Known c.1.issued (.ingest c.2)) ?_ ?_).1
  · exact ⟨traced,trivial⟩
  · intro _ _ _ _ _ kept moved
    exact Provenance.ingest_traced kept.1 kept.2 (Ingestion.act_change moved)

-- Where one delivery can be, and what it has done to the state it found.
def Along (deployment : Deployment) (s : Stores) (d : Uuid) (task : Option Str) (labels : List Ingestion.Label)
    (c : Stores × Ingestion.Phase) : Prop :=
  match c with
  | (t,.received d' task') => t = s ∧ d' = d ∧ task' = task
  | (t,.loaded run) => Loaded s d task run t.db ∧ t.vectors = s.vectors ∧ s.issued ⊆ t.issued
  | (t,.embedded run batch) => Loaded s d task run t.db ∧ t.vectors = s.vectors ∧ Built deployment s labels run batch
  | (t,.cleared run batch) => Loaded s d task run t.db ∧ t.vectors = s.vectors.deleteByDocument d ∧
      Built deployment s labels run batch
  | (t,.indexed run batch) => Loaded s d task run t.db ∧
      t.vectors = (s.vectors.deleteByDocument d).upsert batch.vector_points ∧ Built deployment s labels run batch
  | (t,.persisted run batch) => Finished deployment s d task labels run batch t
  | (t,.failing d' _) => d' = d ∧ ∃ run, Loaded s d task run t.db
  | (t,.ended _ .missing) => t = s ∧ s.db.getDocument d = none
  | (t,.ended _ (.completed run batch)) => Finished deployment s d task labels run batch t
  | (t,.ended _ (.recorded message)) => ∃ run db now, Loaded s d task run db ∧ t.db = Ingestion.markFailed db d message now
  | (_,.ended _ _) => True

theorem Loaded.document_id (loaded : Loaded s d task run db) : run.document_id = d := by
  obtain ⟨_,_,read⟩ := loaded
  obtain ⟨_,_,_,_,rfl,_⟩ := load_tables read
  rfl

theorem along_handle (loaded : Loaded s d task run t.db) (error : Failure) :
    Along deployment s d task labels (t,Ingestion.handle run.document_id error) := by
  unfold Ingestion.handle
  split
  · trivial
  · exact ⟨loaded.document_id,run,loaded⟩

theorem act_storage (acted : Ingestion.act deployment s phase label = some (s',phase')) : s'.storage = s.storage := by
  cases Ingestion.act_change acted with
  | load _ drawn => exact (Stores.draw_same drawn).storage
  | prepare _ _ drawn => exact (Stores.draw_same drawn).storage
  | _ => rfl

theorem runs_storage (path : Runs (taken (solo (Ingestion.act deployment))) start labels c) : c.1.storage = start.1.storage :=
  path.history (fun _ c => c.1.storage = start.1.storage) rfl fun _ _ _ _ _ same moved => (act_storage moved).trans same

theorem along_step (same : t.storage = s.storage) (along : Along deployment s d task labels (t,phase))
    (acted : Ingestion.act deployment t phase label = some next) : Along deployment s d task (labels ++ [label]) next := by
  unfold Ingestion.act at acted
  split at acted
  · obtain ⟨rfl,rfl,rfl⟩ := along
    split at acted
    · rename_i loaded
      obtain ⟨after,drawn,equal⟩ := Option.map_eq_some_iff.mp acted
      cases equal
      exact ⟨⟨_,_,loaded⟩,(Stores.draw_same drawn).vectors,(Stores.draw_grows drawn :)⟩
    · rename_i loaded
      cases acted
      exact ⟨rfl,load_missing loaded⟩
    · cases acted
  · cases acted; trivial
  · obtain ⟨loaded,vectors,grows⟩ := along
    split at acted
    · rename_i providers ids _ chunks embed_result prepared
      split at acted
      · rename_i one
        obtain ⟨after,drawn,equal⟩ := Option.map_eq_some_iff.mp acted
        cases equal
        obtain ⟨apart,fresh,_⟩ := Stores.draw_parts drawn
        have untouched := Stores.draw_same drawn
        refine ⟨untouched.db ▸ loaded,untouched.vectors.trans vectors,providers,ids,chunks,embed_result,?_,same ▸ prepared,one,rfl,
          (List.nodup_append.mp apart).2.1,fun u member old => fresh u (List.mem_append_right _ member) ?_⟩
        · exact List.mem_append_right _ (List.mem_singleton.mpr rfl)
        · exact List.map_subset _ grows old
      · cases acted
    · cases acted; exact along_handle loaded _
  · rename_i reply
    obtain ⟨loaded,vectors,built⟩ := along
    cases reply with
    | ok =>
      cases acted
      exact ⟨loaded,by rw [← vectors,← loaded.document_id]; rfl,built.snoc⟩
    | failed error landed =>
      cases landed <;> cases acted
      · exact along_handle loaded error
      · exact along_handle (t := {t with vectors := t.vectors.deleteByDocument _}) loaded error
  · rename_i reply
    obtain ⟨loaded,vectors,built⟩ := along
    cases reply with
    | ok =>
      cases acted
      exact ⟨loaded,by rw [← vectors]; rfl,built.snoc⟩
    | failed error landed =>
      cases landed <;> cases acted
      · exact along_handle loaded error
      · exact along_handle (t := {t with vectors := t.vectors.upsert _}) loaded error
  · obtain ⟨loaded,vectors,built⟩ := along
    obtain ⟨db,persisted,equal⟩ := Option.map_eq_some_iff.mp acted
    cases equal
    exact ⟨vectors,built.snoc,_,_,loaded,persisted⟩
  · cases acted; trivial
  · cases acted; exact along.snoc
  · cases acted; trivial
  · obtain ⟨rfl,run,loaded⟩ := along
    cases acted
    exact ⟨run,_,_,loaded,rfl⟩
  all_goals first | (cases acted; trivial) | cases acted

theorem runs_along (path : Runs (taken (solo (Ingestion.act deployment))) (s,.received d task) labels c) :
    Along deployment s d task labels c :=
  path.history (Along deployment s d task) ⟨rfl,rfl,rfl⟩ fun _ _ _ _ prior along moved =>
    along_step (runs_storage prior) along moved

theorem closeLatest_length (db : Database) : (closeLatest db d status stage error now).length = db.ingestion_jobs.length := by
  unfold closeLatest
  cases db.latestJob d with
  | none => rfl
  | some job => exact List.length_map _

theorem Loaded.parts (loaded : Loaded s d task run db) :
    (∃ row ∈ s.db.documents, row.id = d) ∧ (∃ row ∈ db.documents, row.id = d) ∧
      db.ingestion_jobs.length = s.db.ingestion_jobs.length + 1 := by
  obtain ⟨job_id,now,read⟩ := loaded
  obtain ⟨document,_,found,_,_,tables⟩ := load_tables read
  have present := Database.getDocument_mem found
  refine ⟨⟨document,present⟩,?_,?_⟩
  · rw [congrArg Tables.documents tables]
    exact Tables.setStatus_parent _ _ ⟨document,present⟩
  · rw [congrArg Tables.ingestion_jobs tables]
    exact List.length_append

-- What the end of a delivery writes keeps the document and the number of job rows.
theorem Loaded.ended {t : Stores} (loaded : Loaded s d task run db)
    (documents : t.db.documents = (db.toTables.setStatus key status error).documents)
    (jobs : t.db.ingestion_jobs = closeLatest db key job_status stage job_error now) :
    (∃ row ∈ s.db.documents, row.id = d) ∧ (∃ row ∈ t.db.documents, row.id = d) ∧
      t.db.ingestion_jobs.length = s.db.ingestion_jobs.length + 1 := by
  obtain ⟨before,after,grown⟩ := loaded.parts
  refine ⟨before,?_,?_⟩
  · rw [documents]
    exact Tables.setStatus_parent _ _ after
  · rw [jobs,← grown]
    exact closeLatest_length db

-- A delivery that returns has found no document, or has added a job row.
theorem returned_jobs (path : Runs (taken (solo (Ingestion.act deployment))) (s,.received d task) labels (t,.ended d outcome))
    (done : outcome.returned = true) : t = s ∧ (∀ row ∈ s.db.documents, row.id ≠ d) ∨
      (∃ row ∈ s.db.documents, row.id = d) ∧ (∃ row ∈ t.db.documents, row.id = d) ∧
        t.db.ingestion_jobs.length = s.db.ingestion_jobs.length + 1 := by
  have along := runs_along path
  cases outcome with
  | missing => exact .inl ⟨along.1,fun row member => by simpa using List.find?_eq_none.mp along.2 row member⟩
  | completed run batch =>
    obtain ⟨_,_,db,now,loaded,persisted⟩ := along
    have tables := persist_tables persisted
    exact .inr (loaded.ended (congrArg Tables.documents tables :) (congrArg Tables.ingestion_jobs tables :))
  | recorded message =>
    obtain ⟨run,db,now,loaded,marked⟩ := along
    have tables := markFailed_tables db d message now
    rw [← marked] at tables
    exact .inr (loaded.ended (congrArg Tables.documents tables :) (congrArg Tables.ingestion_jobs tables :))
  | raised error => cases done
  | killed => cases done

-- A redelivered message leaves the stores as they are exactly if the document
-- it names does not exist: every other delivery leaves a job row of its own.
theorem redelivery_safe_iff (deployment : Deployment) (s once twice : Stores) (d : Uuid) (task : Option Str)
    (first second : List Ingestion.Label) (outcome again : Ingestion.Outcome)
    (delivered : Runs (taken (solo (Ingestion.act deployment))) (s,.received d task) first (once,.ended d outcome))
    (redelivered : Runs (taken (solo (Ingestion.act deployment))) (once,.received d task) second (twice,.ended d again))
    (done : outcome.returned = true) (redone : again.returned = true) :
    Alike once twice ↔ ∀ row ∈ s.db.documents, row.id ≠ d := by
  constructor
  · rintro alike row stored rfl
    rcases returned_jobs delivered done with ⟨_,none_⟩ | ⟨_,present,_⟩
    · exact none_ row stored rfl
    · obtain ⟨kept,inside,same⟩ := present
      rcases returned_jobs redelivered redone with ⟨_,none_⟩ | ⟨_,_,more⟩
      · exact none_ kept inside same
      · have equal := alike.ingestion_jobs.length_eq
        simp only [List.length_map] at equal
        omega
  · intro none_
    rcases returned_jobs delivered done with ⟨rfl,_⟩ | ⟨⟨row,stored,same⟩,_⟩
    · rcases returned_jobs redelivered redone with ⟨rfl,_⟩ | ⟨⟨row,stored,same⟩,_⟩
      · exact .refl _
      · exact absurd same (none_ row stored)
    · exact absurd same (none_ row stored)

-- What the batch holds apart from its ids depends on the file alone.
def contents (run : Ingestion.RunContext) (chunks : List Chunk) : List DocumentChunk :=
  chunks.map fun chunk => rowContent (Ingestion.chunkRow run chunk (⟨0⟩,⟨0⟩))

def points (run : Ingestion.RunContext) (vectors : List (List ℚ)) : List VectorPoint :=
  vectors.map fun vector => pointContent (Ingestion.vectorPoint run vector (⟨0⟩,⟨0⟩))

theorem map_zipWith_left {α β γ δ : Type} {f : α → β → γ} {g : γ → δ} {h : α → δ} {xs : List α} {ys : List β}
    (each : ∀ a b, g (f a b) = h a) (enough : xs.length ≤ ys.length) : (List.zipWith f xs ys).map g = xs.map h := by
  rw [List.map_zipWith,← List.map_uncurry_zip_eq_zipWith]
  calc (xs.zip ys).map (Function.uncurry fun a b => g (f a b))
      = ((xs.zip ys).map Prod.fst).map h := by rw [List.map_map]; exact List.map_congr_left fun pair _ => each _ _
    _ = xs.map h := by rw [List.map_fst_zip enough]

theorem built_contents (run : Ingestion.RunContext) (one : ids.length = chunks.length) (lengths : embed_result.vectors.length = chunks.length) :
    (Ingestion.build run chunks embed_result ids).chunk_rows.map rowContent = contents run chunks ∧
      (Ingestion.build run chunks embed_result ids).vector_points.map pointContent = points run embed_result.vectors :=
  ⟨map_zipWith_left (fun _ _ => rfl) (by omega),map_zipWith_left (fun _ _ => rfl) (by omega)⟩

-- A completed delivery, store by store.
structure Replaced (s t : Stores) (d : Uuid) (run : Ingestion.RunContext) (batch : Ingestion.Batch) : Prop where
  paired : VectorLedger.Paired d batch
  chunks : t.db.document_chunks = s.db.document_chunks.filter (·.document_id ≠ d) ++ batch.chunk_rows
  vectors : t.vectors = s.vectors.deleteByDocument d ++ batch.vector_points
  documents : t.db.documents = (s.db.toTables.setStatus d .completed none).documents
  workspaces : t.db.workspaces = s.db.workspaces
  usage_records : t.db.usage_records = s.db.usage_records ++ [ingestUsage run batch]
  ingestion_jobs : t.db.ingestion_jobs.length = s.db.ingestion_jobs.length + 1

theorem setStatus_again (t : Tables) (d : Uuid) (status later : DocumentStatus) (error after : Option Str) :
    ((t.setStatus d status error).setStatus d later after).documents = (t.setStatus d later after).documents := by
  simp only [Tables.setStatus,List.map_map]
  refine List.map_congr_left fun row _ => ?_
  simp only [Function.comp_apply]
  split <;> rename_i own <;> simp [own]

theorem Finished.replaced (traced : Provenance.Traced s) (finished : Finished deployment s d task labels run batch t) :
    Replaced s t d run batch := by
  obtain ⟨vectors,⟨providers,ids,chunks,embed_result,_,prepared,one,built,apart,fresh⟩,db,now,loaded,persisted⟩ := finished
  have home := loaded.document_id
  have jobs := loaded.parts.2.2
  obtain ⟨nonempty,lengths⟩ := Ingestion.prepare_parts prepared
  have same : embed_result.vectors.length = ids.length := lengths.trans one.symm
  have inhabited : ids ≠ [] := fun none_ => nonempty (List.eq_nil_of_length_eq_zero (by rw [← one,none_]; rfl))
  have paired : VectorLedger.Paired run.document_id (Ingestion.build run chunks embed_result ids) :=
    VectorLedger.build_paired same one.symm inhabited apart
  have drawn := VectorLedger.build_ids run chunks same
  rw [← built,home] at paired
  rw [← built] at drawn
  obtain ⟨_,_,read⟩ := loaded
  obtain ⟨_,_,_,_,_,first⟩ := load_tables read
  have last := persist_tables persisted
  rw [home] at last
  refine ⟨paired,?_,?_,?_,?_,?_,?_⟩
  · rw [congrArg Tables.document_chunks last,congrArg Tables.document_chunks first]; rfl
  · rw [vectors]
    refine VectorStore.upsert_fresh (fun p new q old taken => ?_) (drawn ▸ apart)
    -- a stored point has an id drawn before
    obtain ⟨_,w,_,_,_,issued⟩ := traced.points q (VectorStore.mem_delete.mp old).1
    refine fresh p.id (drawn ▸ List.mem_map.mpr ⟨p,new,rfl⟩) (List.mem_map.mpr ⟨_,issued,taken⟩)
  · rw [congrArg Tables.documents last,← setStatus_again s.db.toTables d .processing .completed none none]
    exact congrArg (List.map _) (congrArg Tables.documents first :)
  · rw [congrArg Tables.workspaces last]
    exact (congrArg Tables.workspaces first :)
  · rw [congrArg Tables.usage_records last,congrArg Tables.usage_records first]; rfl
  · rw [congrArg Tables.ingestion_jobs last,← jobs]
    exact closeLatest_length db

-- A status change keeps what an ingestion reads of the document row.
theorem getDocument_setStatus {db after : Database} (documents : after.documents = (db.toTables.setStatus d status error).documents)
    (found : db.getDocument key = some document) : ∃ later, after.getDocument key = some later ∧
      later.workspace_id = document.workspace_id ∧ later.mime_type = document.mime_type ∧ later.storage_path = document.storage_path := by
  have same : (fun row : Document => decide ((if row.id = d then {row with status := status,error_message := error} else row).id = key)) =
      fun row => decide (row.id = key) := funext fun row => by split <;> rfl
  unfold Database.getDocument at found ⊢
  rw [documents,Tables.setStatus,List.find?_map,Function.comp_def,same,found]
  refine ⟨_,rfl,?_⟩
  dsimp only
  split <;> exact ⟨rfl,rfl,rfl⟩

-- A second delivery reads the same row, file and workspace as the first.
theorem Replaced.context (replaced : Replaced s t d run batch) (first : Loaded s d task run db)
    (second : Loaded t d task' run' db') : run' = run := by
  obtain ⟨_,_,read⟩ := first
  obtain ⟨_,_,again⟩ := second
  obtain ⟨document,workspace,found,home,rfl,_⟩ := load_tables read
  obtain ⟨document',workspace',found',home',rfl,_⟩ := load_tables again
  obtain ⟨later,stored,same,mime_type,storage_path⟩ := getDocument_setStatus replaced.documents found
  cases found'.symm.trans stored
  have lookup : t.db.getWorkspace document'.workspace_id = s.db.getWorkspace document.workspace_id := by
    unfold Database.getWorkspace
    rw [replaced.workspaces,same]
  cases home'.symm.trans (lookup.trans home)
  rw [same,mime_type,storage_path]

-- Chunk contents, vectors and the document row come out the same when the file
-- parses and embeds the same. The ledger and the job table grow each time.
theorem redelivery_repeats (deployment : Deployment) (s once twice : Stores) (d : Uuid) (task : Option Str)
    (providers : Ingestion.Providers) (first second : List Ingestion.Label) (run run' : Ingestion.RunContext)
    (batch batch' : Ingestion.Batch) (traced : Provenance.Traced s)
    (delivered : Runs (taken (solo (Ingestion.act deployment))) (s,.received d task) first (once,.ended d (.completed run batch)))
    (redelivered : Runs (taken (solo (Ingestion.act deployment))) (once,.received d task) second
      (twice,.ended d (.completed run' batch')))
    (answers : ∀ other ids, .prepare other ids ∈ first ++ second → other = providers) :
    twice.db.document_chunks.map rowContent = once.db.document_chunks.map rowContent ∧
      twice.vectors.map pointContent = once.vectors.map pointContent ∧ twice.db.documents = once.db.documents ∧
      (∃ record, once.db.usage_records = s.db.usage_records ++ [record] ∧
        twice.db.usage_records = s.db.usage_records ++ [record,record]) ∧
      once.db.ingestion_jobs.length = s.db.ingestion_jobs.length + 1 ∧
      twice.db.ingestion_jobs.length = s.db.ingestion_jobs.length + 2 := by
  have finished : Finished deployment s d task first run batch once := runs_along delivered
  have again : Finished deployment once d task second run' batch' twice := runs_along redelivered
  have storage : once.storage = s.storage := runs_storage delivered
  have left := finished.replaced traced
  have right := again.replaced (solo_traced delivered traced)
  obtain ⟨_,⟨_,_,_,_,used,prepared,one,built,_⟩,_,_,loaded,_⟩ := finished
  obtain ⟨_,⟨_,_,_,_,used',prepared',one',built',_⟩,_,_,loaded',_⟩ := again
  cases left.context loaded loaded'
  cases answers _ _ (List.mem_append_left _ used)
  cases answers _ _ (List.mem_append_right _ used')
  rw [storage] at prepared'
  cases prepared.symm.trans prepared'
  obtain ⟨rows,vectors⟩ := built_contents run one (Ingestion.prepare_parts prepared).2
  obtain ⟨rows',vectors'⟩ := built_contents run one' (Ingestion.prepare_parts prepared).2
  rw [← built] at rows vectors
  rw [← built'] at rows' vectors'
  have emptied : batch.chunk_rows.filter (·.document_id ≠ d) = [] :=
    List.filter_eq_nil_iff.mpr fun row member => by simp [(left.paired.rows row member).1]
  have cleared : batch.vector_points.filter (·.payload.document_id ≠ d.str) = [] :=
    List.filter_eq_nil_iff.mpr fun p member => by simp [(left.paired.points p member).1]
  have jobs := left.ingestion_jobs
  refine ⟨?_,?_,?_,⟨ingestUsage run batch,left.usage_records,?_⟩,jobs,by rw [right.ingestion_jobs,jobs]⟩
  · rw [right.chunks,left.chunks,List.filter_append,List.filter_filter,emptied]
    simp only [List.map_append,rows,rows',Bool.and_self,List.append_nil]
  · rw [right.vectors,left.vectors]
    simp only [VectorStore.deleteByDocument,List.filter_append,List.filter_filter,cleared,List.map_append,vectors,vectors',
      Bool.and_self,List.append_nil]
  · calc twice.db.documents
        = ((s.db.toTables.setStatus d .completed none).setStatus d .completed none).documents :=
          right.documents.trans (congrArg (List.map _) left.documents)
      _ = (s.db.toTables.setStatus d .completed none).documents := setStatus_again _ _ _ _ _ _
      _ = once.db.documents := left.documents.symm
  · rw [right.usage_records,left.usage_records,List.append_assoc,built,built']
    rfl

-- One uploaded file, and a task message that arrives twice.
def shelf : Stores :=
  {Site.vacant with
    db := ⟨⟨[⟨⟨1⟩,⟨2⟩⟩],[Site.memo.row ⟨10⟩],[],[],[],[],[],[]⟩,by decide⟩
    storage := ⟨fun _ => some Site.memo.content,fun _ => false⟩
    issued := [(⟨10⟩,⟨1⟩)]}

def delivery (job_id chunk_id vector_id : Uuid) : List Ingestion.Label :=
  [.load job_id 1,.prepare Site.providers [(chunk_id,vector_id)],.clear .ok,.index .ok,.persist 2,.invalidate]

def completedOn (d : Uuid) : Ingestion.Phase → Bool
  | .ended d' (.completed _ _) => d' = d
  | _ => false

theorem completedOn_sound (done : completedOn d phase = true) : ∃ run batch, phase = .ended d (.completed run batch) := by
  unfold completedOn at done
  split at done
  · rename_i d' run batch
    exact ⟨run,batch,by rw [of_decide_eq_true done]⟩
  · cases done

theorem delivered_twice : ∃ once twice run batch run' batch',
    Runs (taken (solo (Ingestion.act Site.plain))) (shelf,.received ⟨10⟩ none) (delivery ⟨14⟩ ⟨12⟩ ⟨13⟩)
      (once,.ended ⟨10⟩ (.completed run batch)) ∧
    Runs (taken (solo (Ingestion.act Site.plain))) (once,.received ⟨10⟩ none) (delivery ⟨17⟩ ⟨15⟩ ⟨16⟩)
      (twice,.ended ⟨10⟩ (.completed run' batch')) := by
  let again (s : Stores) := run (solo (Ingestion.act Site.plain)) (s,.received ⟨10⟩ none) (delivery ⟨17⟩ ⟨15⟩ ⟨16⟩)
  obtain ⟨⟨once,phase⟩,delivered,passed⟩ := run_any (solo (Ingestion.act Site.plain)) (shelf,.received ⟨10⟩ none)
    (delivery ⟨14⟩ ⟨12⟩ ⟨13⟩) (fun c => completedOn ⟨10⟩ c.2 && (again c.1).any (completedOn ⟨10⟩ ·.2)) (by decide +kernel)
  obtain ⟨done,repeated⟩ := Bool.and_eq_true_iff.mp passed
  obtain ⟨⟨twice,phase'⟩,redelivered,redone⟩ := run_any _ _ _ _ repeated
  obtain ⟨run,batch,rfl⟩ := completedOn_sound done
  obtain ⟨run',batch',rfl⟩ := completedOn_sound redone
  exact ⟨once,twice,run,batch,run',batch',delivered,redelivered⟩

theorem redelivery_safe_shelf : ∃ once twice run batch run' batch',
    Runs (taken (solo (Ingestion.act Site.plain))) (shelf,.received ⟨10⟩ none) (delivery ⟨14⟩ ⟨12⟩ ⟨13⟩)
      (once,.ended ⟨10⟩ (.completed run batch)) ∧
    Runs (taken (solo (Ingestion.act Site.plain))) (once,.received ⟨10⟩ none) (delivery ⟨17⟩ ⟨15⟩ ⟨16⟩)
      (twice,.ended ⟨10⟩ (.completed run' batch')) ∧
    (Alike once twice ↔ ∀ row ∈ shelf.db.documents, row.id ≠ ⟨10⟩) := by
  obtain ⟨once,twice,run,batch,run',batch',delivered,redelivered⟩ := delivered_twice
  exact ⟨once,twice,run,batch,run',batch',delivered,redelivered,
    redelivery_safe_iff Site.plain shelf once twice ⟨10⟩ none _ _ _ _ delivered redelivered rfl rfl⟩

theorem shelf_traced : Provenance.Traced shelf where
  unique := by decide
  tables := by
    refine ⟨?_,nofun,nofun,nofun,nofun⟩
    intro row member
    rw [List.mem_singleton.mp member]
    exact List.mem_singleton.mpr rfl
  points := nofun
  caches _ := nofun

-- A tenant is billed for every delivery, with one more job row each time.
theorem redelivery_bills_again : ¬ ∀ (deployment : Deployment) (s once twice : Stores) (d : Uuid) (task : Option Str)
    (providers : Ingestion.Providers) (first second : List Ingestion.Label) (run run' : Ingestion.RunContext)
    (batch batch' : Ingestion.Batch), Provenance.Traced s →
    Runs (taken (solo (Ingestion.act deployment))) (s,.received d task) first (once,.ended d (.completed run batch)) →
    Runs (taken (solo (Ingestion.act deployment))) (once,.received d task) second (twice,.ended d (.completed run' batch')) →
    (∀ other ids, .prepare other ids ∈ first ++ second → other = providers) → Alike once twice := by
  intro safe
  obtain ⟨once,twice,run,batch,run',batch',delivered,redelivered⟩ := delivered_twice
  have answers (other : Ingestion.Providers) (ids : List (Uuid × Uuid))
      (member : .prepare other ids ∈ delivery ⟨14⟩ ⟨12⟩ ⟨13⟩ ++ delivery ⟨17⟩ ⟨15⟩ ⟨16⟩) : other = Site.providers := by
    simp only [delivery,List.mem_append,List.mem_cons,Ingestion.Label.prepare.injEq,reduceCtorEq,List.not_mem_nil,false_or,or_false] at member
    rcases member with ⟨same,_⟩ | ⟨same,_⟩ <;> exact same
  have alike := safe Site.plain shelf once twice ⟨10⟩ none Site.providers _ _ run run' batch batch' shelf_traced delivered redelivered answers
  obtain ⟨_,_,_,⟨record,first,second⟩,_⟩ := redelivery_repeats Site.plain shelf once twice ⟨10⟩ none Site.providers _ _ run run'
    batch batch' shelf_traced delivered redelivered answers
  have lengths := alike.usage_records.length_eq
  rw [first,second] at lengths
  simp at lengths

end RagForge.Redelivery
