import RagForge.Stores
import RagForge.Chunking

namespace RagForge.Ingestion
open RagForge

-- What `_process_document` keeps from its first transaction.
structure RunContext where
  document_id : Uuid
  workspace_id : Uuid
  organization_id : Uuid
  mime_type : Str
  storage_path : Str

structure EmbeddingResult where
  vectors : List (List ℚ)
  total_tokens : Nat

-- `chunk_rows` and `vector_points`, built before either store is touched.
structure Batch where
  chunk_rows : List DocumentChunk
  vector_points : List VectorPoint
  total_tokens : Nat

-- The answers of storage I/O, the parser libraries and the embedding provider.
structure Providers where
  read : Option Failure
  parse : Str → Bytes → Except Failure ParsedDocument
  embedDocuments : List Str → Except Failure EmbeddingResult

def supportedMimeTypes : List Str :=
  ["application/pdf".toList,
   "application/vnd.openxmlformats-officedocument.wordprocessingml.document".toList,
   "text/html".toList,"text/markdown".toList,"text/x-markdown".toList,"text/plain".toList]

def isSupportedMimeType (mime_type : Str) : Bool := supportedMimeTypes.contains mime_type

-- An exception that Celery does not retry.
def terminal (message : Str) : Failure := ⟨false,message⟩

def chunkRow (run : RunContext) (chunk : Chunk) (ids : Uuid × Uuid) : DocumentChunk where
  id := ids.1
  document_id := run.document_id
  workspace_id := run.workspace_id
  chunk_index := chunk.chunk_index
  content := chunk.content
  token_count := chunk.token_count
  vector_id := ids.2
  page_number := chunk.page_number

def vectorPoint (run : RunContext) (vector : List ℚ) (ids : Uuid × Uuid) : VectorPoint where
  id := ids.2
  vector := vector
  payload := ⟨ids.1.str,run.document_id.str,run.workspace_id.str,run.organization_id.str⟩

-- Parse, chunk and embed up to the `zip(..., strict=True)`.
def prepare (deployment : Deployment) (storage : FileSystem) (run : RunContext) (providers : Providers) :
    Except Failure (List Chunk × EmbeddingResult) := do
  if let some error := providers.read then throw error
  let content ← match deployment.storage.read storage run.storage_path with
    | some content => pure content
    | none => throw (terminal "File not found in storage".toList)
  if !isSupportedMimeType run.mime_type then
    throw (terminal ("Unsupported file type: ".toList ++ run.mime_type))
  let parsed ← providers.parse run.mime_type content
  if parsed.isEmpty then throw (terminal "No extractable text found in this document".toList)
  let chunks := RecursiveChunker.chunk deployment.splitText parsed
  if chunks.isEmpty then throw (terminal "Document produced no chunks after splitting".toList)
  let embed_result ← providers.embedDocuments (chunks.map (·.content))
  if embed_result.vectors.length ≠ chunks.length then throw (terminal "zip() argument mismatch".toList)
  pure (chunks,embed_result)

-- The loop over the zipped chunks: two fresh ids an iteration.
def build (run : RunContext) (chunks : List Chunk) (embed_result : EmbeddingResult) (ids : List (Uuid × Uuid)) : Batch where
  chunk_rows := chunks.zipWith (chunkRow run) ids
  vector_points := embed_result.vectors.zipWith (vectorPoint run) ids
  total_tokens := embed_result.total_tokens

inductive Outcome where
  | missing
  | completed (run : RunContext) (batch : Batch)
  | recorded (message : Str)
  | raised (error : Failure)
  | killed

-- The task function has come to its end without raising.
def Outcome.returned : Outcome → Bool
  | .missing => true
  | .completed _ _ => true
  | .recorded _ => true
  | _ => false

inductive Phase where
  | received (document_id : Uuid) (celery_task_id : Option Str)
  | loaded (run : RunContext)
  | embedded (run : RunContext) (batch : Batch)
  | cleared (run : RunContext) (batch : Batch)
  | indexed (run : RunContext) (batch : Batch)
  | persisted (run : RunContext) (batch : Batch)
  | failing (document_id : Uuid) (message : Str)
  | ended (document_id : Uuid) (outcome : Outcome)

inductive Label where
  | load (job_id : Uuid) (now : Nat)
  | loadFails (error : Failure)
  | prepare (providers : Providers) (ids : List (Uuid × Uuid))
  | clear (reply : Reply)
  | index (reply : Reply)
  | persist (now : Nat)
  | persistFails (error : Failure)
  | invalidate
  | invalidateFails (error : Failure)
  | mark (now : Nat)
  | markFails (error : Failure)
  | crash

-- The two `except` clauses around parse, chunk, embed and index.
def handle (document_id : Uuid) (error : Failure) : Phase :=
  if error.upstream then .ended document_id (.raised error) else .failing document_id error.message

-- The first transaction, up to and including its commit. A missing document or
-- workspace returns early.
def load (db : Database) (document_id : Uuid) (celery_task_id : Option Str) (job_id : Uuid) (now : Nat) :
    Option (Option (Database × RunContext)) :=
  match db.getDocument document_id with
  | none => some none
  | some document => match db.getWorkspace document.workspace_id with
    | none => some none
    | some workspace =>
      let job : IngestionJob := ⟨job_id,document.id,.running,.parsing,celery_task_id,none,some now,none,now⟩
      let t := {db.toTables with ingestion_jobs := db.ingestion_jobs ++ [job]}
      (Database.enforce (t.setStatus document_id .processing none)).map fun after =>
        some (after,⟨document_id,document.workspace_id,workspace.organization_id,document.mime_type,document.storage_path⟩)

-- The last transaction: old chunks out, new chunks in, document and latest job
-- completed, usage recorded. A chunk whose document is gone aborts all of it.
def persist (db : Database) (run : RunContext) (batch : Batch) (now : Nat) : Option Database :=
  let t := db.toTables.deleteChunks run.document_id
  let t := {t with document_chunks := t.document_chunks ++ batch.chunk_rows}
  let t := t.setStatus run.document_id .completed none
  let t := match db.latestJob run.document_id with
    | some job => t.updateJob job.id .completed (fun _ => .done) id now
    | none => t
  let usage : UsageRecord :=
    ⟨run.organization_id,some run.workspace_id,none,.document_ingested,batch.total_tokens,0,0⟩
  Database.enforce {t with usage_records := t.usage_records ++ [usage]}

-- `_mark_failed`: the document and its latest job, if they still exist.
def markFailed (db : Database) (document_id : Uuid) (message : Str) (now : Nat) : Database :=
  let t := db.toTables.setStatus document_id .failed (some (message.take 2048))
  have keys := db.keys.setStatus document_id .failed (some (message.take 2048))
  match db.latestJob document_id with
  | some job => ⟨t.updateJob job.id .failed id (fun _ => some (message.take 2048)) now,keys.updateJob _ _ _ _ _⟩
  | none => ⟨t,keys⟩

-- One action of one execution. Stores other than Postgres change call by call.
-- A last transaction that aborts, IntegrityError included, is `persistFails`.
def act (deployment : Deployment) (s : Stores) : Phase → Label → Option (Stores × Phase)
  | .received d task,.load job_id now => match load s.db d task job_id now with
    | some (some (db,run)) => (s.draw run.workspace_id [job_id]).map ({· with db := db},.loaded run)
    | some none => some (s,.ended d .missing)
    | none => none
  | .received d _,.loadFails error => some (s,.ended d (.raised error))
  | .loaded run,.prepare providers ids => match prepare deployment s.storage run providers with
    | .ok (chunks,embed_result) =>
      if ids.length = chunks.length then
        (s.draw run.workspace_id (ids.map Prod.fst ++ ids.map Prod.snd)).map
          (·,.embedded run (build run chunks embed_result ids))
      else none
    | .error error => some (s,handle run.document_id error)
  | .embedded run batch,.clear reply =>
    let s' := if reply.landed then {s with vectors := s.vectors.deleteByDocument run.document_id} else s
    match reply with
    | .ok => some (s',.cleared run batch)
    | .failed error _ => some (s',handle run.document_id error)
  | .cleared run batch,.index reply =>
    let s' := if reply.landed then {s with vectors := s.vectors.upsert batch.vector_points} else s
    match reply with
    | .ok => some (s',.indexed run batch)
    | .failed error _ => some (s',handle run.document_id error)
  | .indexed run batch,.persist now => (persist s.db run batch now).map ({s with db := ·},.persisted run batch)
  | .indexed run _,.persistFails error => some (s,.ended run.document_id (.raised error))
  | .persisted run batch,.invalidate =>
    some (s.invalidateWorkspaceBm25Cache run.workspace_id,.ended run.document_id (.completed run batch))
  | .persisted run _,.invalidateFails error => some (s,.ended run.document_id (.raised error))
  | .failing d message,.mark now => some ({s with db := markFailed s.db d message now},.ended d (.recorded message))
  | .failing d _,.markFails error => some (s,.ended d (.raised error))
  | .received d _,.crash => some (s,.ended d .killed)
  | .loaded run,.crash => some (s,.ended run.document_id .killed)
  | .embedded run _,.crash => some (s,.ended run.document_id .killed)
  | .cleared run _,.crash => some (s,.ended run.document_id .killed)
  | .indexed run _,.crash => some (s,.ended run.document_id .killed)
  | .persisted run _,.crash => some (s,.ended run.document_id .killed)
  | .failing d _,.crash => some (s,.ended d .killed)
  | _,_ => none

theorem prepare_parts (prepared : prepare deployment storage run providers = .ok (chunks,embed_result)) :
    chunks ≠ [] ∧ embed_result.vectors.length = chunks.length := by
  unfold prepare at prepared
  simp only [bind,Except.bind,pure,Except.pure,throw,throwThe,MonadExceptOf.throw] at prepared
  -- only the branch past every check returns
  repeat' split at prepared
  all_goals cases prepared
  rename_i some_chunks _ _ same_length
  exact ⟨fun none_ => some_chunks (by rw [none_]; rfl),not_not.mp same_length⟩

theorem mem_build_rows (member : row ∈ (build run chunks embed_result ids).chunk_rows) :
    ∃ chunk ∈ chunks, ∃ pair ∈ ids, row = chunkRow run chunk pair := by
  simp only [build,← List.map_uncurry_zip_eq_zipWith,List.mem_map] at member
  obtain ⟨⟨chunk,pair⟩,zipped,rfl⟩ := member
  exact ⟨chunk,(List.of_mem_zip zipped).1,pair,(List.of_mem_zip zipped).2,rfl⟩

theorem mem_build_points (member : p ∈ (build run chunks embed_result ids).vector_points) :
    ∃ vector, ∃ pair ∈ ids, p = vectorPoint run vector pair := by
  simp only [build,← List.map_uncurry_zip_eq_zipWith,List.mem_map] at member
  obtain ⟨⟨vector,pair⟩,zipped,rfl⟩ := member
  exact ⟨vector,pair,(List.of_mem_zip zipped).2,rfl⟩

def Phase.document_id : Phase → Uuid
  | .received d _ => d
  | .loaded run => run.document_id
  | .embedded run _ => run.document_id
  | .cleared run _ => run.document_id
  | .indexed run _ => run.document_id
  | .persisted run _ => run.document_id
  | .failing d _ => d
  | .ended d _ => d

-- The execution has met an error. An early return is none.
def Phase.failed : Phase → Bool
  | .failing _ _ => true
  | .ended _ .missing => false
  | .ended _ (.completed _ _) => false
  | .ended _ _ => true
  | _ => false

def Phase.halted : Phase → Bool
  | .ended _ _ => true
  | _ => false

-- The batch an execution has built, as long as it is on its way to success.
def Phase.batch : Phase → Option Batch
  | .embedded _ batch => some batch
  | .cleared _ batch => some batch
  | .indexed _ batch => some batch
  | .persisted _ batch => some batch
  | .ended _ (.completed _ batch) => some batch
  | _ => none

theorem handle_failed (d : Uuid) (error : Failure) : (handle d error).failed = true ∧ (handle d error).document_id = d := by
  unfold handle
  split <;> exact ⟨rfl,rfl⟩

-- Everything a step can do, in nine cases. `aside` is where a run goes when
-- the step fails, with or without having taken effect.
inductive Change (deployment : Deployment) (s : Stores) : Phase → Stores → Phase → Prop where
  | load : load s.db d task job_id now = some (some (db,run)) → s.draw run.workspace_id [job_id] = some after →
      Change deployment s (.received d task) {after with db := db} (.loaded run)
  | skip : Change deployment s (.received d task) s (.ended d .missing)
  | prepare : prepare deployment s.storage run providers = .ok (chunks,embed_result) → ids.length = chunks.length →
      s.draw run.workspace_id (ids.map Prod.fst ++ ids.map Prod.snd) = some after →
      Change deployment s (.loaded run) after (.embedded run (build run chunks embed_result ids))
  | clear : aside = .cleared run batch ∨ aside.failed = true ∧ aside.document_id = run.document_id →
      Change deployment s (.embedded run batch) {s with vectors := s.vectors.deleteByDocument run.document_id} aside
  | index : aside = .indexed run batch ∨ aside.failed = true ∧ aside.document_id = run.document_id →
      Change deployment s (.cleared run batch) {s with vectors := s.vectors.upsert batch.vector_points} aside
  | persist : persist s.db run batch now = some db →
      Change deployment s (.indexed run batch) {s with db := db} (.persisted run batch)
  | invalidate : Change deployment s (.persisted run batch) (s.invalidateWorkspaceBm25Cache run.workspace_id)
      (.ended run.document_id (.completed run batch))
  | mark : Change deployment s (.failing d message) {s with db := markFailed s.db d message now} (.ended d (.recorded message))
  | stop : aside.failed = true → aside.document_id = phase.document_id → (∀ d outcome, phase ≠ .ended d outcome) →
      Change deployment s phase s aside

theorem act_change (acted : act deployment s phase label = some (s',phase')) : Change deployment s phase s' phase' := by
  unfold act at acted
  split at acted
  · split at acted
    · rename_i loaded
      obtain ⟨after,drawn,equal⟩ := Option.map_eq_some_iff.mp acted
      cases equal
      exact .load loaded drawn
    · cases acted; exact .skip
    · cases acted
  · cases acted; exact .stop rfl rfl nofun
  · split at acted
    · rename_i prepared
      split at acted
      · rename_i one
        obtain ⟨after,drawn,equal⟩ := Option.map_eq_some_iff.mp acted
        cases equal
        exact .prepare prepared one drawn
      · cases acted
    · cases acted
      exact .stop (handle_failed _ _).1 (handle_failed _ _).2 nofun
  · rename_i run batch reply
    cases reply with
    | ok => cases acted; exact .clear (.inl rfl)
    | failed error landed =>
      cases landed <;> cases acted
      · exact .stop (handle_failed _ _).1 (handle_failed _ _).2 nofun
      · exact .clear (.inr (handle_failed _ _))
  · rename_i run batch reply
    cases reply with
    | ok => cases acted; exact .index (.inl rfl)
    | failed error landed =>
      cases landed <;> cases acted
      · exact .stop (handle_failed _ _).1 (handle_failed _ _).2 nofun
      · exact .index (.inr (handle_failed _ _))
  · obtain ⟨db,persisted,equal⟩ := Option.map_eq_some_iff.mp acted
    cases equal
    exact .persist persisted
  · cases acted; exact .stop rfl rfl nofun
  · cases acted; exact .invalidate
  · cases acted; exact .stop rfl rfl nofun
  · cases acted; exact .mark
  all_goals first | (cases acted; exact .stop rfl rfl nofun) | cases acted

theorem load_document_id (loaded : load db d task job_id now = some (some (after,run))) : run.document_id = d := by
  unfold load at loaded
  split at loaded
  · cases loaded
  · split at loaded
    · cases loaded
    · obtain ⟨_,_,equal⟩ := Option.map_eq_some_iff.mp loaded
      cases equal
      rfl

theorem act_document_id (acted : act deployment s phase label = some (s',phase')) :
    phase'.document_id = phase.document_id := by
  cases act_change acted with
  | load loaded drawn => exact load_document_id loaded
  | skip => rfl
  | prepare => rfl
  | clear next => rcases next with rfl | ⟨_,same⟩; exacts [rfl,same]
  | index next => rcases next with rfl | ⟨_,same⟩; exacts [rfl,same]
  | persist => rfl
  | invalidate => rfl
  | mark => rfl
  | stop _ same => exact same

end RagForge.Ingestion
