import Mathlib.Algebra.Order.Ring.Rat
import Mathlib.Data.List.Induction
import RagForge.Identifier

namespace RagForge

-- Rows carry the columns some modelled function reads or writes. `created_at`
-- is the clock of the inserting transaction (`server_default=func.now()`).
structure User where
  id : Uuid
  email : Str
  hashed_password : Str
  is_active : Bool
  is_superuser : Bool
  deriving DecidableEq

structure Workspace where
  id : Uuid
  organization_id : Uuid
  deriving DecidableEq

inductive DocumentStatus where
  | pending | processing | completed | failed
  deriving DecidableEq

structure Document where
  id : Uuid
  workspace_id : Uuid
  original_filename : Str
  mime_type : Str
  size_bytes : Nat
  storage_path : Str
  status : DocumentStatus
  error_message : Option Str
  deriving DecidableEq

structure DocumentChunk where
  id : Uuid
  document_id : Uuid
  workspace_id : Uuid
  chunk_index : Nat
  content : Str
  token_count : Nat
  vector_id : Uuid
  page_number : Option Nat
  deriving DecidableEq

inductive IngestionStage where
  | queued | parsing | chunking | embedding | indexing | done
  deriving DecidableEq

inductive IngestionStatus where
  | pending | running | completed | failed
  deriving DecidableEq

structure IngestionJob where
  id : Uuid
  document_id : Uuid
  status : IngestionStatus
  stage : IngestionStage
  celery_task_id : Option Str
  error_message : Option Str
  started_at : Option Nat
  completed_at : Option Nat
  created_at : Nat
  deriving DecidableEq

structure Conversation where
  id : Uuid
  workspace_id : Uuid
  user_id : Uuid
  title : Str
  deriving DecidableEq

inductive MessageRole where
  | user | assistant | system
  deriving DecidableEq

structure LLMUsage where
  input_tokens : Nat
  output_tokens : Nat
  cache_creation_input_tokens : Nat
  cache_read_input_tokens : Nat
  deriving DecidableEq

structure Message where
  id : Uuid
  conversation_id : Uuid
  role : MessageRole
  content : Str
  model_used : Option Str
  token_usage : Option LLMUsage
  created_at : Nat
  deriving DecidableEq

structure MessageCitation where
  message_id : Uuid
  chunk_id : Uuid
  marker_index : Nat
  relevance_score : ℚ
  deriving DecidableEq

-- A stored citation as it is answered. Keys are UUIDs on the server and texts in
-- the page.
structure CitationRead (κ : Type) where
  marker_index : Nat
  document_id : κ
  document_filename : Str
  chunk_id : κ
  chunk_content : Str
  page_number : Option Nat
  relevance_score : ℚ
  deriving DecidableEq

def CitationRead.parsed (read : CitationRead Uuid) : CitationRead Str :=
  {read with document_id := read.document_id.str,chunk_id := read.chunk_id.str}

inductive UsageEventType where
  | chat_message | document_ingested | embedding_batch | rerank_call
  deriving DecidableEq

structure UsageRecord where
  organization_id : Uuid
  workspace_id : Option Uuid
  user_id : Option Uuid
  event_type : UsageEventType
  tokens_input : Nat
  tokens_output : Nat
  cost_usd : ℚ
  deriving DecidableEq

structure Tables where
  workspaces : List Workspace
  documents : List Document
  document_chunks : List DocumentChunk
  ingestion_jobs : List IngestionJob
  conversations : List Conversation
  messages : List Message
  message_citations : List MessageCitation
  usage_records : List UsageRecord

namespace Tables

-- The foreign keys among these tables. `users` and `organizations` rows are
-- never deleted by the program and have no part in them.
structure ForeignKeys (t : Tables) : Prop where
  document_workspace : ∀ row ∈ t.documents, ∃ w ∈ t.workspaces, w.id = row.workspace_id
  chunk_document : ∀ row ∈ t.document_chunks, ∃ d ∈ t.documents, d.id = row.document_id
  chunk_workspace : ∀ row ∈ t.document_chunks, ∃ w ∈ t.workspaces, w.id = row.workspace_id
  job_document : ∀ row ∈ t.ingestion_jobs, ∃ d ∈ t.documents, d.id = row.document_id
  conversation_workspace : ∀ row ∈ t.conversations, ∃ w ∈ t.workspaces, w.id = row.workspace_id
  message_conversation : ∀ row ∈ t.messages, ∃ c ∈ t.conversations, c.id = row.conversation_id
  citation_message : ∀ row ∈ t.message_citations, ∃ m ∈ t.messages, m.id = row.message_id
  citation_chunk : ∀ row ∈ t.message_citations, ∃ c ∈ t.document_chunks, c.id = row.chunk_id
  usage_workspace : ∀ row ∈ t.usage_records, ∀ id ∈ row.workspace_id, ∃ w ∈ t.workspaces, w.id = id

instance (t : Tables) : Decidable t.ForeignKeys :=
  decidable_of_iff
    ((∀ row ∈ t.documents, ∃ w ∈ t.workspaces, w.id = row.workspace_id) ∧
      (∀ row ∈ t.document_chunks, ∃ d ∈ t.documents, d.id = row.document_id) ∧
      (∀ row ∈ t.document_chunks, ∃ w ∈ t.workspaces, w.id = row.workspace_id) ∧
      (∀ row ∈ t.ingestion_jobs, ∃ d ∈ t.documents, d.id = row.document_id) ∧
      (∀ row ∈ t.conversations, ∃ w ∈ t.workspaces, w.id = row.workspace_id) ∧
      (∀ row ∈ t.messages, ∃ c ∈ t.conversations, c.id = row.conversation_id) ∧
      (∀ row ∈ t.message_citations, ∃ m ∈ t.messages, m.id = row.message_id) ∧
      (∀ row ∈ t.message_citations, ∃ c ∈ t.document_chunks, c.id = row.chunk_id) ∧
      ∀ row ∈ t.usage_records, ∀ id ∈ row.workspace_id, ∃ w ∈ t.workspaces, w.id = id)
    ⟨fun ⟨a,b,c,d,e,f,g,h,i⟩ => ⟨a,b,c,d,e,f,g,h,i⟩,fun ⟨a,b,c,d,e,f,g,h,i⟩ => ⟨a,b,c,d,e,f,g,h,i⟩⟩

-- DELETE FROM document_chunks WHERE document_id = ..., and through
-- `ondelete=CASCADE` every citation of a deleted chunk.
def deleteChunks (t : Tables) (document_id : Uuid) : Tables :=
  let gone := (t.document_chunks.filter (·.document_id = document_id)).map (·.id)
  {t with
    document_chunks := t.document_chunks.filter (·.document_id ≠ document_id)
    message_citations := t.message_citations.filter (·.chunk_id ∉ gone)}

-- DELETE of one document row: chunks, their citations and jobs go with it.
def deleteDocument (t : Tables) (document_id : Uuid) : Tables :=
  {t.deleteChunks document_id with
    documents := t.documents.filter (·.id ≠ document_id)
    ingestion_jobs := t.ingestion_jobs.filter (·.document_id ≠ document_id)}

-- DELETE of one conversation row: its messages and their citations go with it.
def deleteConversation (t : Tables) (conversation_id : Uuid) : Tables :=
  let gone := (t.messages.filter (·.conversation_id = conversation_id)).map (·.id)
  {t with
    conversations := t.conversations.filter (·.id ≠ conversation_id)
    messages := t.messages.filter (·.conversation_id ≠ conversation_id)
    message_citations := t.message_citations.filter (·.message_id ∉ gone)}

def setStatus (t : Tables) (document_id : Uuid) (status : DocumentStatus) (error : Option Str) : Tables :=
  {t with documents := t.documents.map fun row =>
    if row.id = document_id then {row with status := status,error_message := error} else row}

def updateJob (t : Tables) (job_id : Uuid) (status : IngestionStatus) (stage : IngestionStage → IngestionStage)
    (error : Option Str → Option Str) (now : Nat) : Tables :=
  {t with ingestion_jobs := t.ingestion_jobs.map fun row =>
    if row.id = job_id then
      {row with status := status,stage := stage row.stage,error_message := error row.error_message,completed_at := some now}
    else row}

theorem ForeignKeys.deleteChunks {t : Tables} (keys : t.ForeignKeys) (document_id : Uuid) :
    (t.deleteChunks document_id).ForeignKeys := by
  refine {keys with chunk_document := ?_,chunk_workspace := ?_,citation_message := ?_,citation_chunk := ?_}
  · exact fun row member => keys.chunk_document row (List.mem_filter.mp member).1
  · exact fun row member => keys.chunk_workspace row (List.mem_filter.mp member).1
  · exact fun row member => keys.citation_message row (List.mem_filter.mp member).1
  · intro row member
    obtain ⟨old,kept⟩ := List.mem_filter.mp member
    obtain ⟨chunk,present,same⟩ := keys.citation_chunk row old
    refine ⟨chunk,List.mem_filter.mpr ⟨present,?_⟩,same⟩
    -- a chunk of the document would have taken this citation with it
    refine decide_eq_true fun inside => of_decide_eq_true kept ?_
    exact List.mem_map.mpr ⟨chunk,List.mem_filter.mpr ⟨present,decide_eq_true inside⟩,same⟩

theorem ForeignKeys.deleteDocument {t : Tables} (keys : t.ForeignKeys) (document_id : Uuid) :
    (t.deleteDocument document_id).ForeignKeys := by
  have chunks := keys.deleteChunks document_id
  have others (parent : Document) (present : parent ∈ t.documents) (other : parent.id ≠ document_id) :
      parent ∈ t.documents.filter (·.id ≠ document_id) :=
    List.mem_filter.mpr ⟨present,decide_eq_true other⟩
  refine {chunks with document_workspace := ?_,chunk_document := ?_,job_document := ?_}
  · exact fun row member => keys.document_workspace row (List.mem_filter.mp member).1
  · intro row member
    obtain ⟨parent,present,same⟩ := chunks.chunk_document row member
    refine ⟨parent,others parent present ?_,same⟩
    rw [same]; exact of_decide_eq_true (List.mem_filter.mp member).2
  · intro row member
    obtain ⟨old,other⟩ := List.mem_filter.mp member
    obtain ⟨parent,present,same⟩ := keys.job_document row old
    exact ⟨parent,others parent present (by rw [same]; exact of_decide_eq_true other),same⟩

theorem ForeignKeys.deleteConversation {t : Tables} (keys : t.ForeignKeys) (conversation_id : Uuid) :
    (t.deleteConversation conversation_id).ForeignKeys := by
  refine {keys with conversation_workspace := ?_,message_conversation := ?_,citation_message := ?_,citation_chunk := ?_}
  · exact fun row member => keys.conversation_workspace row (List.mem_filter.mp member).1
  · intro row member
    obtain ⟨old,other⟩ := List.mem_filter.mp member
    obtain ⟨parent,present,same⟩ := keys.message_conversation row old
    exact ⟨parent,List.mem_filter.mpr ⟨present,decide_eq_true (by rw [same]; exact of_decide_eq_true other)⟩,same⟩
  · intro row member
    obtain ⟨old,kept⟩ := List.mem_filter.mp member
    obtain ⟨message,present,same⟩ := keys.citation_message row old
    refine ⟨message,List.mem_filter.mpr ⟨present,decide_eq_true fun inside => of_decide_eq_true kept ?_⟩,same⟩
    exact List.mem_map.mpr ⟨message,List.mem_filter.mpr ⟨present,decide_eq_true inside⟩,same⟩
  · exact fun row member => keys.citation_chunk row (List.mem_filter.mp member).1

-- A status update moves no key.
theorem setStatus_parent {t : Tables} (status : DocumentStatus) (error : Option Str)
    (present : ∃ d ∈ t.documents, d.id = key) :
    ∃ d ∈ (t.setStatus document_id status error).documents, d.id = key := by
  obtain ⟨d,member,rfl⟩ := present
  refine ⟨_,List.mem_map.mpr ⟨d,member,rfl⟩,?_⟩
  split <;> rfl

theorem mem_setStatus {t : Tables} (member : d ∈ (t.setStatus document_id status error).documents) :
    ∃ old ∈ t.documents, old.id = d.id ∧ old.workspace_id = d.workspace_id ∧ old.storage_path = d.storage_path := by
  obtain ⟨old,present,rfl⟩ := List.mem_map.mp member
  refine ⟨old,present,?_⟩
  split <;> exact ⟨rfl,rfl,rfl⟩

-- The document's own row takes the status, any other is an old row.
theorem mem_setStatus_cases {t : Tables} (member : row ∈ (t.setStatus document_id status error).documents) :
    row.id = document_id ∧ row.status = status ∨ row.id ≠ document_id ∧ row ∈ t.documents := by
  obtain ⟨old,present,rfl⟩ := List.mem_map.mp member
  split
  · rename_i own
    exact .inl ⟨own,rfl⟩
  · rename_i other
    exact .inr ⟨other,present⟩

theorem mem_setStatus_of_ne {t : Tables} (other : row.id ≠ document_id) :
    row ∈ (t.setStatus document_id status error).documents ↔ row ∈ t.documents := by
  constructor
  · intro member
    rcases mem_setStatus_cases member with ⟨own,_⟩ | ⟨_,present⟩
    · exact absurd own other
    · exact present
  · exact fun present => List.mem_map.mpr ⟨row,present,if_neg other⟩

theorem ForeignKeys.setStatus {t : Tables} (keys : t.ForeignKeys) (document_id : Uuid)
    (status : DocumentStatus) (error : Option Str) : (t.setStatus document_id status error).ForeignKeys := by
  refine {keys with document_workspace := ?_,chunk_document := ?_,job_document := ?_}
  · intro row member
    obtain ⟨old,present,_,workspace,_⟩ := mem_setStatus member
    rw [← workspace]; exact keys.document_workspace old present
  · exact fun row member => setStatus_parent status error (keys.chunk_document row member)
  · exact fun row member => setStatus_parent status error (keys.job_document row member)

theorem ForeignKeys.updateJob {t : Tables} (keys : t.ForeignKeys) (job_id : Uuid) (status : IngestionStatus)
    (stage : IngestionStage → IngestionStage) (error : Option Str → Option Str) (now : Nat) :
    (t.updateJob job_id status stage error now).ForeignKeys := by
  refine {keys with job_document := ?_}
  intro row member
  obtain ⟨old,present,rfl⟩ := List.mem_map.mp member
  have parent := keys.job_document old present
  split <;> exact parent

-- Appended rows need their parents and nothing else.
theorem ForeignKeys.addConversation {t : Tables} (keys : t.ForeignKeys) (row : Conversation)
    (parent : ∃ w ∈ t.workspaces, w.id = row.workspace_id) :
    ({t with conversations := t.conversations ++ [row]} : Tables).ForeignKeys := by
  refine {keys with conversation_workspace := ?_,message_conversation := ?_}
  · intro other member
    rcases List.mem_append.mp member with old | new
    · exact keys.conversation_workspace other old
    · rw [List.mem_singleton.mp new]; exact parent
  · intro message member
    obtain ⟨c,present,same⟩ := keys.message_conversation message member
    exact ⟨c,List.mem_append_left _ present,same⟩

theorem ForeignKeys.addMessage {t : Tables} (keys : t.ForeignKeys) (row : Message)
    (parent : ∃ c ∈ t.conversations, c.id = row.conversation_id) :
    ({t with messages := t.messages ++ [row]} : Tables).ForeignKeys := by
  refine {keys with message_conversation := ?_,citation_message := ?_}
  · intro other member
    rcases List.mem_append.mp member with old | new
    · exact keys.message_conversation other old
    · rw [List.mem_singleton.mp new]; exact parent
  · intro citation member
    obtain ⟨m,present,same⟩ := keys.citation_message citation member
    exact ⟨m,List.mem_append_left _ present,same⟩

theorem ForeignKeys.addCitations {t : Tables} (keys : t.ForeignKeys)
    (parents : ∀ row ∈ rows, (∃ m ∈ t.messages, m.id = row.message_id) ∧ ∃ c ∈ t.document_chunks, c.id = row.chunk_id) :
    ({t with message_citations := t.message_citations ++ rows} : Tables).ForeignKeys := by
  refine {keys with citation_message := ?_,citation_chunk := ?_}
  · intro row member
    rcases List.mem_append.mp member with old | new
    · exact keys.citation_message row old
    · exact (parents row new).1
  · intro row member
    rcases List.mem_append.mp member with old | new
    · exact keys.citation_chunk row old
    · exact (parents row new).2

theorem ForeignKeys.addUsage {t : Tables} (keys : t.ForeignKeys) (row : UsageRecord)
    (parent : ∀ key ∈ row.workspace_id, ∃ w ∈ t.workspaces, w.id = key) :
    ({t with usage_records := t.usage_records ++ [row]} : Tables).ForeignKeys := by
  refine {keys with usage_workspace := ?_}
  intro other member
  rcases List.mem_append.mp member with old | new
  · exact keys.usage_workspace other old
  · rw [List.mem_singleton.mp new]; exact parent

-- `CitationRead.model_validate` through `chunk` and `chunk.document`.
def citationRead (t : Tables) (row : MessageCitation) : Option (CitationRead Uuid) := do
  let chunk ← t.document_chunks.find? (·.id = row.chunk_id)
  let document ← t.documents.find? (·.id = chunk.document_id)
  some ⟨row.marker_index,chunk.document_id,document.original_filename,row.chunk_id,chunk.content,chunk.page_number,
    row.relevance_score⟩

def citationReads (t : Tables) (message : Message) : List (CitationRead Uuid) :=
  (t.message_citations.filter (·.message_id = message.id)).filterMap t.citationRead

end Tables

-- Committed contents. A statement that would break a key has no result.
structure Database extends Tables where
  keys : toTables.ForeignKeys

namespace Database

-- The integrity check of an INSERT or UPDATE: `none` is IntegrityError.
def enforce (t : Tables) : Option Database := if keys : t.ForeignKeys then some ⟨t,keys⟩ else none

theorem enforce_tables (enforced : enforce t = some db) : db.toTables = t := by
  unfold enforce at enforced
  split at enforced
  · cases Option.some.inj enforced; rfl
  · cases enforced

theorem enforce_of_keys (keys : t.ForeignKeys) : enforce t = some ⟨t,keys⟩ := by simp [enforce,keys]

def getWorkspace (db : Database) (key : Uuid) : Option Workspace := db.workspaces.find? (·.id = key)
def getDocument (db : Database) (key : Uuid) : Option Document := db.documents.find? (·.id = key)
def getConversation (db : Database) (key : Uuid) : Option Conversation := db.conversations.find? (·.id = key)

theorem getWorkspace_mem {db : Database} (found : db.getWorkspace key = some w) : w ∈ db.workspaces ∧ w.id = key :=
  ⟨List.mem_of_find?_eq_some found,by simpa using List.find?_some found⟩

theorem getDocument_mem {db : Database} (found : db.getDocument key = some d) : d ∈ db.documents ∧ d.id = key :=
  ⟨List.mem_of_find?_eq_some found,by simpa using List.find?_some found⟩

theorem getConversation_mem {db : Database} (found : db.getConversation key = some c) :
    c ∈ db.conversations ∧ c.id = key :=
  ⟨List.mem_of_find?_eq_some found,by simpa using List.find?_some found⟩

def newer (best : Option IngestionJob) (job : IngestionJob) : Option IngestionJob :=
  match best with
  | none => some job
  | some old => if old.created_at < job.created_at then some job else some old

-- `order_by(created_at.desc()).limit(1)` over a document's jobs.
def latestJob (db : Database) (document_id : Uuid) : Option IngestionJob :=
  (db.ingestion_jobs.filter (·.document_id = document_id)).foldl newer none

-- `latestJob` takes the first of the rows with the greatest `created_at`.
theorem latestJob_split (db : Database) (d : Uuid) :
    match db.latestJob d with
    | none => db.ingestion_jobs.filter (·.document_id = d) = []
    | some best => ∃ front back, db.ingestion_jobs.filter (·.document_id = d) = front ++ best :: back ∧
        (∀ job ∈ front, job.created_at < best.created_at) ∧ ∀ job ∈ back, job.created_at ≤ best.created_at := by
  unfold latestJob
  generalize db.ingestion_jobs.filter (·.document_id = d) = jobs
  induction jobs using List.reverseRecOn with
  | nil => rfl
  | append_singleton jobs job ih =>
    rw [List.foldl_append,List.foldl_cons,List.foldl_nil]
    cases taken : jobs.foldl newer none with
    | none =>
      rw [taken] at ih
      exact ⟨[],[],by rw [ih],fun _ member => absurd member List.not_mem_nil,fun _ member => absurd member List.not_mem_nil⟩
    | some best =>
      rw [taken] at ih
      obtain ⟨front,back,rfl,before,after⟩ := ih
      by_cases later : best.created_at < job.created_at
      · simp only [newer,later,if_true]
        refine ⟨front ++ best :: back,[],rfl,fun other member => ?_,fun _ member => absurd member List.not_mem_nil⟩
        simp only [List.mem_append,List.mem_cons] at member
        rcases member with old | rfl | old
        · exact (before other old).trans later
        · exact later
        · exact (after other old).trans_lt later
      · simp only [newer,later,if_false]
        refine ⟨front,back ++ [job],by simp,before,fun other member => ?_⟩
        rcases List.mem_append.mp member with old | new
        · exact after other old
        · rw [List.mem_singleton.mp new]; exact Nat.le_of_not_lt later

theorem latestJob_newest {db : Database} (latest : db.latestJob d = some best) : best ∈ db.ingestion_jobs ∧ best.document_id = d ∧
    ∀ job ∈ db.ingestion_jobs, job.document_id = d → job.created_at ≤ best.created_at := by
  have split := latestJob_split db d
  rw [latest] at split
  obtain ⟨front,back,rows,before,after⟩ := split
  have mine : best ∈ db.ingestion_jobs.filter (·.document_id = d) := by rw [rows]; simp
  obtain ⟨stored,home⟩ := List.mem_filter.mp mine
  refine ⟨stored,of_decide_eq_true home,fun job member same => ?_⟩
  have inside : job ∈ front ++ best :: back := rows ▸ List.mem_filter.mpr ⟨member,decide_eq_true same⟩
  simp only [List.mem_append,List.mem_cons] at inside
  rcases inside with old | rfl | old
  · exact (before job old).le
  · exact Nat.le_refl _
  · exact after job old

theorem latestJob_some {db : Database} (member : job ∈ db.ingestion_jobs) : ∃ best, db.latestJob job.document_id = some best := by
  have split := latestJob_split db job.document_id
  cases latest : db.latestJob job.document_id with
  | some best => exact ⟨best,rfl⟩
  | none =>
    rw [latest] at split
    have inside : job ∈ db.ingestion_jobs.filter (·.document_id = job.document_id) :=
      List.mem_filter.mpr ⟨member,decide_eq_true rfl⟩
    rw [split] at inside
    cases inside

end Database
end RagForge
