import RagForge.Ingestion

namespace RagForge.Documents
open RagForge

-- `_validate_upload`: the message of its ValidationAppError, if it raises one.
def validateUpload (settings : Settings) (mime_type : Str) (size_bytes : Nat) : Option Str :=
  if !Ingestion.isSupportedMimeType mime_type then some ("Unsupported file type: ".toList ++ mime_type)
  else if settings.MAX_UPLOAD_SIZE_MB * 1024 * 1024 < size_bytes then
    some ("File exceeds the ".toList ++ Nat.toDigits 10 settings.MAX_UPLOAD_SIZE_MB ++ " MB upload limit".toList)
  else if size_bytes = 0 then some "Uploaded file is empty".toList
  else none

structure Upload where
  workspace_id : Uuid
  filename : Option Str
  content_type : Option Str
  content : Bytes

namespace Upload

-- `file.filename or "untitled"`
def original_filename (upload : Upload) : Str :=
  match upload.filename with
  | none | some [] => "untitled".toList
  | some name => name

-- `file.content_type or "application/octet-stream"`
def mime_type (upload : Upload) : Str :=
  match upload.content_type with
  | none | some [] => "application/octet-stream".toList
  | some kind => kind

def storageKey (upload : Upload) (document_id : Uuid) : Str :=
  upload.workspace_id.str ++ '/' :: document_id.str ++ '/' :: upload.original_filename

def row (upload : Upload) (document_id : Uuid) : Document where
  id := document_id
  workspace_id := upload.workspace_id
  original_filename := upload.original_filename
  mime_type := upload.mime_type
  size_bytes := upload.content.length
  storage_path := upload.storageKey document_id
  status := .pending
  error_message := none

end Upload

def pendingJob (document_id job_id : Uuid) (now : Nat) : IngestionJob :=
  ⟨job_id,document_id,.pending,.queued,none,none,none,none,now⟩

inductive UploadPhase where
  | requested (upload : Upload)
  | saved (upload : Upload) (document_id : Uuid)
  | uploaded (upload : Upload) (document_id : Uuid)
  | failed (error : Failure)

-- A save that raises may leave `left` in the file it was writing.
inductive UploadLabel where
  | save (document_id : Uuid)
  | saveFails (document_id : Uuid) (error : Failure) (left : Option Bytes)
  | insert (job_id : Uuid) (now : Nat)
  | fails (error : Failure)

-- `create_document` and the commit of its endpoint.
def upload (deployment : Deployment) (s : Stores) : UploadPhase → UploadLabel → Option (Stores × UploadPhase)
  | .requested upload,.save document_id =>
    match validateUpload deployment.settings upload.mime_type upload.content.length with
    | some message => some (s,.failed ⟨false,message⟩)
    | none => do
      let s ← s.draw upload.workspace_id [document_id]
      let storage ← deployment.storage.save s.storage (upload.storageKey document_id) upload.content
      some ({s with storage := storage},.saved upload document_id)
  | .requested upload,.saveFails document_id error left => do
    let s ← s.draw upload.workspace_id [document_id]
    match left with
    | none => some (s,.failed error)
    | some content => do
      let storage ← deployment.storage.save s.storage (upload.storageKey document_id) content
      some ({s with storage := storage},.failed error)
  | .requested _,.fails error => some (s,.failed error)
  | .saved upload document_id,.insert job_id now => do
    let s ← s.draw upload.workspace_id [job_id]
    let db ← Database.enforce {s.db.toTables with
      documents := s.db.documents ++ [upload.row document_id]
      ingestion_jobs := s.db.ingestion_jobs ++ [pendingJob document_id job_id now]}
    some ({s with db := db},.uploaded upload document_id)
  | .saved _ _,.fails error => some (s,.failed error)
  | _,_ => none

-- `get_document`: a document of another workspace is not found.
def getDocument (db : Database) (workspace_id document_id : Uuid) : Option Document :=
  (db.getDocument document_id).filter (·.workspace_id = workspace_id)

inductive DeletePhase where
  | requested (workspace_id document_id : Uuid)
  | loaded (document : Document)
  | cleared (document : Document)
  | unlinked (document : Document)
  | invalidated (document : Document) (version : Nat)
  | deleted (document : Document)
  | failed (document_id : Uuid) (error : Failure)

inductive DeleteLabel where
  | get
  | clear (reply : Reply)
  | unlink
  | invalidate
  | commit
  | fails (error : Failure)

-- `delete_document` and the commit of its endpoint. The flushed DELETE shows to
-- other sessions at the commit; INCR answers the new version.
def delete (deployment : Deployment) (s : Stores) : DeletePhase → DeleteLabel → Option (Stores × DeletePhase)
  | .requested workspace_id document_id,.get => match getDocument s.db workspace_id document_id with
    | some document => some (s,.loaded document)
    | none => some (s,.failed document_id ⟨false,"Document not found".toList⟩)
  | .loaded document,.clear reply =>
    let s' := if reply.landed then {s with vectors := s.vectors.deleteByDocument document.id} else s
    match reply with
    | .ok => some (s',.cleared document)
    | .failed error _ => some (s',.failed document.id error)
  | .cleared document,.unlink => match deployment.storage.delete s.storage document.storage_path with
    | some storage => some ({s with storage := storage},.unlinked document)
    | none => some (s,.failed document.id ⟨false,"Invalid storage path".toList⟩)
  | .unlinked document,.invalidate =>
    some (s.invalidateWorkspaceBm25Cache document.workspace_id,
      .invalidated document (s.versions document.workspace_id + 1))
  | .invalidated document _,.commit =>
    some ({s with db := ⟨s.db.deleteDocument document.id,s.db.keys.deleteDocument document.id⟩},.deleted document)
  | .requested _ document_id,.fails error => some (s,.failed document_id error)
  | .loaded document,.fails error => some (s,.failed document.id error)
  | .cleared document,.fails error => some (s,.failed document.id error)
  | .unlinked document,.fails error => some (s,.failed document.id error)
  | .invalidated document _,.fails error => some (s,.failed document.id error)
  | _,_ => none

inductive ReingestPhase where
  | requested (workspace_id document_id : Uuid)
  | queued (document_id : Uuid)
  | failed (error : Failure)

inductive ReingestLabel where
  | insert (job_id : Uuid) (now : Nat)
  | fails (error : Failure)

-- `reingest_document` and the commit of its endpoint; the task it enqueues is
-- an ingestion of its own.
def reingest (s : Stores) : ReingestPhase → ReingestLabel → Option (Stores × ReingestPhase)
  | .requested workspace_id document_id,.insert job_id now => match getDocument s.db workspace_id document_id with
    | none => some (s,.failed ⟨false,"Document not found".toList⟩)
    | some document => do
      let s ← s.draw workspace_id [job_id]
      let t := s.db.toTables.setStatus document.id .pending none
      let db ← Database.enforce {t with ingestion_jobs := t.ingestion_jobs ++ [pendingJob document.id job_id now]}
      some ({s with db := db},.queued document.id)
  | .requested _ _,.fails error => some (s,.failed error)
  | _,_ => none

theorem getDocument_parts (found : getDocument db workspace_id document_id = some document) :
    document ∈ db.documents ∧ document.id = document_id ∧ document.workspace_id = workspace_id := by
  obtain ⟨got,same⟩ := Option.filter_eq_some_iff.mp found
  obtain ⟨stored,key⟩ := Database.getDocument_mem got
  exact ⟨stored,key,of_decide_eq_true same⟩

-- Everything a step of an upload can do. A torn save has drawn its id and may
-- have written to its file.
inductive UploadChange (deployment : Deployment) (s : Stores) : UploadPhase → Stores → UploadPhase → Prop where
  | save : s.draw request.workspace_id [document_id] = some after →
      deployment.storage.save s.storage (request.storageKey document_id) request.content = some storage →
      UploadChange deployment s (.requested request) {after with storage := storage} (.saved request document_id)
  | torn : s.draw request.workspace_id [document_id] = some after →
      storage = s.storage ∨ (∃ left, deployment.storage.save s.storage (request.storageKey document_id) left = some storage) →
      UploadChange deployment s (.requested request) {after with storage := storage} (.failed error)
  | insert : s.draw request.workspace_id [job_id] = some after →
      Database.enforce {s.db.toTables with
        documents := s.db.documents ++ [request.row document_id]
        ingestion_jobs := s.db.ingestion_jobs ++ [pendingJob document_id job_id now]} = some db →
      UploadChange deployment s (.saved request document_id) {after with db := db} (.uploaded request document_id)
  | stop : UploadChange deployment s phase s (.failed error)

theorem upload_change (acted : upload deployment s phase label = some (s',phase')) :
    UploadChange deployment s phase s' phase' := by
  unfold upload at acted
  split at acted
  · split at acted
    · cases acted; exact .stop
    · obtain ⟨after,drawn,rest⟩ := Option.bind_eq_some_iff.mp acted
      obtain ⟨storage,saved,equal⟩ := Option.bind_eq_some_iff.mp rest
      cases equal
      rw [(Stores.draw_parts drawn).2.2] at saved
      exact .save drawn saved
  · obtain ⟨after,drawn,rest⟩ := Option.bind_eq_some_iff.mp acted
    have same := congrArg Stores.storage (Stores.draw_parts drawn).2.2
    split at rest
    · cases rest; exact UploadChange.torn drawn (.inl same)
    · obtain ⟨storage,saved,equal⟩ := Option.bind_eq_some_iff.mp rest
      cases equal
      rw [same] at saved
      exact .torn drawn (.inr ⟨_,saved⟩)
  · cases acted; exact .stop
  · obtain ⟨after,drawn,rest⟩ := Option.bind_eq_some_iff.mp acted
    obtain ⟨db,enforced,equal⟩ := Option.bind_eq_some_iff.mp rest
    cases equal
    rw [(Stores.draw_parts drawn).2.2] at enforced
    exact .insert drawn enforced
  · cases acted; exact .stop
  · cases acted

def DeletePhase.document_id : DeletePhase → Uuid
  | .requested _ document_id => document_id
  | .loaded document => document.id
  | .cleared document => document.id
  | .unlinked document => document.id
  | .invalidated document _ => document.id
  | .deleted document => document.id
  | .failed document_id _ => document_id

inductive DeleteChange (deployment : Deployment) (s : Stores) : DeletePhase → Stores → DeletePhase → Prop where
  | get : document ∈ s.db.documents → document.id = document_id → document.workspace_id = workspace_id →
      DeleteChange deployment s (.requested workspace_id document_id) s (.loaded document)
  | clear : aside = .cleared document ∨ (∃ error, aside = .failed document.id error) →
      DeleteChange deployment s (.loaded document) {s with vectors := s.vectors.deleteByDocument document.id} aside
  | unlink : deployment.storage.delete s.storage document.storage_path = some storage →
      DeleteChange deployment s (.cleared document) {s with storage := storage} (.unlinked document)
  | invalidate : DeleteChange deployment s (.unlinked document)
      (s.invalidateWorkspaceBm25Cache document.workspace_id)
      (.invalidated document (s.versions document.workspace_id + 1))
  | commit : DeleteChange deployment s (.invalidated document version)
      {s with db := ⟨s.db.deleteDocument document.id,s.db.keys.deleteDocument document.id⟩} (.deleted document)
  | stop : phase.document_id = document_id → DeleteChange deployment s phase s (.failed document_id error)

theorem delete_change (acted : delete deployment s phase label = some (s',phase')) :
    DeleteChange deployment s phase s' phase' := by
  unfold delete at acted
  split at acted
  · split at acted
    · rename_i document found
      cases acted
      obtain ⟨stored,key,home⟩ := getDocument_parts found
      exact .get stored key home
    · cases acted; exact .stop rfl
  · rename_i document reply
    cases reply with
    | ok => cases acted; exact .clear (.inl rfl)
    | failed error landed =>
      cases landed <;> cases acted
      · exact .stop rfl
      · exact .clear (.inr ⟨error,rfl⟩)
  · split at acted
    · rename_i storage removed
      cases acted
      exact .unlink removed
    · cases acted; exact .stop rfl
  · cases acted; exact .invalidate
  · cases acted; exact .commit
  all_goals first | (cases acted; exact .stop rfl) | cases acted

theorem delete_document_id (acted : delete deployment s phase label = some (s',phase')) :
    phase'.document_id = phase.document_id := by
  cases delete_change acted with
  | get _ key _ => exact key
  | clear next => rcases next with rfl | ⟨error,rfl⟩ <;> rfl
  | unlink => rfl
  | invalidate => rfl
  | commit => rfl
  | stop same => exact same.symm

inductive ReingestChange (s : Stores) : ReingestPhase → Stores → ReingestPhase → Prop where
  | insert : document ∈ s.db.documents → s.draw workspace_id [job_id] = some after →
      Database.enforce {s.db.toTables.setStatus document.id .pending none with
        ingestion_jobs := s.db.ingestion_jobs ++ [pendingJob document.id job_id now]} = some db →
      ReingestChange s (.requested workspace_id document_id) {after with db := db} (.queued document.id)
  | stop : ReingestChange s phase s (.failed error)

theorem reingest_change (acted : reingest s phase label = some (s',phase')) : ReingestChange s phase s' phase' := by
  unfold reingest at acted
  split at acted
  · split at acted
    · cases acted; exact .stop
    · rename_i document found
      obtain ⟨after,drawn,rest⟩ := Option.bind_eq_some_iff.mp acted
      obtain ⟨db,enforced,equal⟩ := Option.bind_eq_some_iff.mp rest
      cases equal
      rw [(Stores.draw_parts drawn).2.2] at enforced
      exact .insert (getDocument_parts found).1 drawn enforced
  · cases acted; exact .stop
  · cases acted

-- A queued document is one of the workspace the request names.
theorem reingest_parts (acted : reingest s phase label = some (s',.queued queued)) :
    ∃ workspace_id document_id document, phase = .requested workspace_id document_id ∧ queued = document.id ∧
      document ∈ s.db.documents ∧ document.workspace_id = workspace_id ∧
      ∃ job_id now after db, s.draw workspace_id [job_id] = some after ∧ s' = {after with db := db} ∧
        db.toTables = {s.db.toTables.setStatus document.id .pending none with
          ingestion_jobs := s.db.ingestion_jobs ++ [pendingJob document.id job_id now]} := by
  unfold reingest at acted
  split at acted
  · split at acted
    · cases acted
    · rename_i document found
      obtain ⟨after,drawn,rest⟩ := Option.bind_eq_some_iff.mp acted
      obtain ⟨db,enforced,equal⟩ := Option.bind_eq_some_iff.mp rest
      cases equal
      rw [(Stores.draw_parts drawn).2.2] at enforced
      obtain ⟨stored,_,home⟩ := getDocument_parts found
      exact ⟨_,_,document,rfl,rfl,stored,home,_,_,after,db,drawn,rfl,Database.enforce_tables enforced⟩
  · cases acted
  · cases acted

end RagForge.Documents
