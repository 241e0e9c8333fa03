import RagForge.Endpoints
import RagForge.Residence

namespace RagForge.AccessControl
open RagForge Site Provenance TenantIsolation Residence Endpoints Transition

-- Privilege, from least to most.
def rank : WorkspaceRole → Nat
  | .viewer => 0
  | .editor => 1
  | .owner => 2

theorem value_injective {a b : WorkspaceRole} (same : a.value = b.value) : a = b := by
  cases a <;> cases b <;> first | rfl | exact absurd same (by decide)

theorem roleSatisfies_value (role minimum : WorkspaceRole) :
    roleSatisfies role.value minimum.value = decide (rank minimum ≤ rank role) := by
  cases role <;> cases minimum <;> decide

-- A stored text that is no role ranks below every guard.
theorem roleSatisfies_unknown (unknown : ∀ role, actual ≠ WorkspaceRole.value role) (minimum : WorkspaceRole) :
    roleSatisfies actual minimum.value = false := by
  have absent : roleRank.lookup actual = none := by
    refine List.lookup_eq_none_iff.mpr fun pair member => ?_
    simp only [roleRank,List.mem_cons,List.not_mem_nil,or_false] at member
    rcases member with rfl | rfl | rfl
    · simpa using unknown .viewer
    · simpa using unknown .editor
    · simpa using unknown .owner
  unfold roleSatisfies
  rw [absent]
  cases minimum <;> decide

-- The check on texts is the comparison of privileges.
theorem roleSatisfies_iff (actual : Str) (minimum : WorkspaceRole) :
    roleSatisfies actual minimum.value = true ↔ ∃ role, actual = WorkspaceRole.value role ∧ rank minimum ≤ rank role := by
  by_cases known : ∃ role, actual = WorkspaceRole.value role
  · obtain ⟨role,rfl⟩ := known
    rw [roleSatisfies_value,decide_eq_true_iff]
    refine ⟨fun enough => ⟨role,rfl,enough⟩,?_⟩
    rintro ⟨other,same,enough⟩
    rw [value_injective same]
    exact enough
  · rw [roleSatisfies_unknown (fun role same => known ⟨role,same⟩)]
    refine iff_of_false Bool.false_ne_true ?_
    rintro ⟨role,same,_⟩
    exact known ⟨role,same⟩

-- The caller is a member of the workspace with at least the role of the guard.
def Permitted (members : List WorkspaceMember) (request : Request) : Prop :=
  ∃ membership ∈ members, membership.workspace_id = request.workspace_id ∧ membership.user_id = request.user_id ∧
    ∃ role, membership.role = WorkspaceRole.value role ∧ rank request.endpoint.minimumRole ≤ rank role

theorem getWorkspaceMembership_parts
    (found : getWorkspaceMembership members workspace_id user_id = .ok (some membership)) :
    membership ∈ members ∧ membership.workspace_id = workspace_id ∧ membership.user_id = user_id := by
  unfold getWorkspaceMembership at found
  split at found
  · cases found
  · rename_i one
    cases found
    have member := one ▸ List.mem_singleton.mpr rfl
    obtain ⟨stored,same⟩ := List.mem_filter.mp member
    exact ⟨stored,of_decide_eq_true same⟩
  · cases found

theorem permitted_of_guard {request : Request}
    (passed : requireWorkspaceRole members request.workspace_id request.user_id request.endpoint.minimumRole.value =
      .ok membership) : Permitted members request := by
  obtain ⟨found,looked,rest⟩ := Fallible.bind_ok.mp passed
  split at rest
  · cases rest
  · rename_i member
    split at rest
    · rename_i satisfied
      obtain ⟨stored,home,caller⟩ := getWorkspaceMembership_parts looked
      exact ⟨member,stored,home,caller,(roleSatisfies_iff _ _).mp satisfied⟩
    · cases rest

-- A row of some table or a point of the collection.
inductive Record where
  | workspace (row : Workspace)
  | document (row : Document)
  | chunk (row : DocumentChunk)
  | job (row : IngestionJob)
  | conversation (row : Conversation)
  | message (row : Message)
  | citation (row : MessageCitation)
  | usageRecord (row : UsageRecord)
  | point (p : VectorPoint)

def Stored (s : Stores) : Record → Prop
  | .workspace row => row ∈ s.db.workspaces
  | .document row => row ∈ s.db.documents
  | .chunk row => row ∈ s.db.document_chunks
  | .job row => row ∈ s.db.ingestion_jobs
  | .conversation row => row ∈ s.db.conversations
  | .message row => row ∈ s.db.messages
  | .citation row => row ∈ s.db.message_citations
  | .usageRecord row => row ∈ s.db.usage_records
  | .point p => p ∈ s.vectors

def DocumentOf (s : Stores) (w document_id : Uuid) : Prop :=
  ∃ row ∈ s.db.documents, row.id = document_id ∧ row.workspace_id = w

def ConversationOf (s : Stores) (w conversation_id : Uuid) : Prop :=
  ∃ row ∈ s.db.conversations, row.id = conversation_id ∧ row.workspace_id = w

-- The workspace at the end of the foreign keys. A citation hangs below a
-- message and below a chunk, and goes with either.
def Owned (s : Stores) (w : Uuid) : Record → Prop
  | .workspace row => row.id = w
  | .document row => row.workspace_id = w
  | .chunk row => DocumentOf s w row.document_id
  | .job row => DocumentOf s w row.document_id
  | .conversation row => row.workspace_id = w
  | .message row => ConversationOf s w row.conversation_id
  | .citation row => (∃ message ∈ s.db.messages, message.id = row.message_id ∧ ConversationOf s w message.conversation_id) ∨
      ∃ chunk ∈ s.db.document_chunks, chunk.id = row.chunk_id ∧ DocumentOf s w chunk.document_id
  | .usageRecord row => row.workspace_id = some w
  | .point p => ∃ document_id, document_id.str = p.payload.document_id ∧ DocumentOf s w document_id

-- What else of a record names a workspace.
def Labelled (s : Stores) (w : Uuid) : Record → Prop
  | .chunk row => row.workspace_id = w
  | .citation row => (∀ message ∈ s.db.messages, message.id = row.message_id → ConversationOf s w message.conversation_id) ∧
      ∀ chunk ∈ s.db.document_chunks, chunk.id = row.chunk_id → chunk.workspace_id = w
  | .point p => p.payload.workspace_id = w.str
  | _ => True

def Belongs (s : Stores) (w : Uuid) (record : Record) : Prop := Owned s w record ∧ (Coherent s → Labelled s w record)

theorem DocumentOf.named (coherent : Coherent s) (mine : DocumentOf s w d) : (d,w) ∈ s.issued := by
  obtain ⟨row,stored,rfl,rfl⟩ := mine
  exact coherent.traced.tables.documents row stored

theorem ConversationOf.named (coherent : Coherent s) (mine : ConversationOf s w c) : (c,w) ∈ s.issued := by
  obtain ⟨row,stored,rfl,rfl⟩ := mine
  exact coherent.traced.tables.conversations row stored

theorem citation_labelled (coherent : Coherent s) (stored : row ∈ s.db.message_citations) (owned : Owned s w (.citation row)) :
    Labelled s w (.citation row) := by
  obtain ⟨traced,housed⟩ := coherent
  obtain ⟨home,said,cited⟩ := traced.tables.citations row stored
  -- the message and the chunk were named for one workspace, whichever owns the row
  have chunks (chunk : DocumentChunk) (present : chunk ∈ s.db.document_chunks) (key : chunk.id = row.chunk_id) : chunk.workspace_id = home :=
    one_workspace traced (traced.tables.chunks chunk present) (key ▸ cited)
  have messages (message : Message) (present : message ∈ s.db.messages) (key : message.id = row.message_id) :
      (message.conversation_id,home) ∈ s.issued := by
    obtain ⟨other,first,second⟩ := traced.tables.messages message present
    rw [show home = other from one_workspace traced (key ▸ said) first]
    exact second
  have same : home = w := by
    rcases owned with ⟨message,present,key,mine⟩ | ⟨chunk,present,key,mine⟩
    · exact one_workspace traced (messages message present key) (mine.named ⟨traced,housed⟩)
    · rw [← chunks chunk present key]
      exact one_workspace traced (housed.chunks chunk present) (mine.named ⟨traced,housed⟩)
  subst same
  refine ⟨fun message present key => ?_,chunks⟩
  obtain ⟨conversation,held,same⟩ := s.db.keys.message_conversation message present
  refine ⟨conversation,held,same,one_workspace traced (traced.tables.conversations conversation held) ?_⟩
  rw [same]
  exact messages message present key

theorem labelled_of_owned (coherent : Coherent s) (stored : Stored s record) (owned : Owned s w record) :
    Labelled s w record := by
  cases record with
  | chunk row => exact one_workspace coherent.traced (coherent.housed.chunks row stored) (owned.named coherent)
  | citation row => exact citation_labelled coherent stored owned
  | point p =>
    obtain ⟨d,key,mine⟩ := owned
    obtain ⟨other,home,document,workspace,named⟩ := coherent.housed.points p stored
    cases Uuid.str_injective (key.trans document)
    rw [show Labelled s w (.point p) = (p.payload.workspace_id = w.str) from rfl,workspace,
      one_workspace coherent.traced named (mine.named coherent)]
  | _ => trivial

theorem belongs (stored : Stored s record) (owned : Owned s w record) : Belongs s w record :=
  ⟨owned,fun coherent => labelled_of_owned coherent stored owned⟩

-- All of `s` is in `s'`, and the rest of `s'` is the workspace's.
structure Within (w : Uuid) (s s' : Stores) : Prop where
  kept : ∀ record, Stored s record → Stored s' record
  owned : ∀ record, Stored s' record → ¬ Stored s record → Owned s' w record

theorem DocumentOf.mono (kept : ∀ record, Stored s record → Stored s' record) (mine : DocumentOf s w d) : DocumentOf s' w d := by
  obtain ⟨row,stored,key,home⟩ := mine
  exact ⟨row,kept (.document row) stored,key,home⟩

theorem ConversationOf.mono (kept : ∀ record, Stored s record → Stored s' record) (mine : ConversationOf s w c) :
    ConversationOf s' w c := by
  obtain ⟨row,stored,key,home⟩ := mine
  exact ⟨row,kept (.conversation row) stored,key,home⟩

theorem owned_mono (kept : ∀ record, Stored s record → Stored s' record) (owned : Owned s w record) : Owned s' w record := by
  cases record with
  | chunk row => exact DocumentOf.mono kept owned
  | job row => exact DocumentOf.mono kept owned
  | message row => exact ConversationOf.mono kept owned
  | citation row =>
    rcases owned with ⟨message,stored,key,mine⟩ | ⟨chunk,stored,key,mine⟩
    · exact .inl ⟨message,kept (.message message) stored,key,mine.mono kept⟩
    · exact .inr ⟨chunk,kept (.chunk chunk) stored,key,mine.mono kept⟩
  | point p =>
    obtain ⟨d,key,mine⟩ := owned
    exact ⟨d,key,mine.mono kept⟩
  | _ => exact owned

theorem Within.trans (first : Within w a b) (second : Within w b c) : Within w a c where
  kept record stored := second.kept record (first.kept record stored)
  owned record stored absent := by
    by_cases between : Stored b record
    · exact owned_mono second.kept (first.owned record between absent)
    · exact second.owned record stored between

-- Steps that write no table and no point.
theorem stored_of_same {s s' : Stores} (db : s'.db = s.db) (vectors : s'.vectors = s.vectors) : Stored s' = Stored s := by
  funext record
  cases record <;> simp only [Stored,db,vectors]

theorem Within.of_same (same : Stored s' = Stored s) : Within w s s' where
  kept _ stored := same ▸ stored
  owned _ stored absent := absurd (same ▸ stored) absent

theorem Within.of_added (added : List Record) (grown : ∀ record, Stored s' record ↔ Stored s record ∨ record ∈ added)
    (mine : ∀ record ∈ added, Owned s' w record) : Within w s s' where
  kept record stored := (grown record).mpr (.inl stored)
  owned record stored absent := mine record (((grown record).mp stored).resolve_left absent)

-- What a request may change: records of the workspace, before and after.
structure Confined (w : Uuid) (s s' : Stores) : Prop where
  removed : ∀ record, Stored s record → ¬ Stored s' record → Owned s w record
  added : ∀ record, Stored s' record → ¬ Stored s record → Owned s' w record

theorem Within.grown (within : Within w s s') : Confined w s s' where
  removed record stored absent := absurd (within.kept record stored) absent
  added := within.owned

theorem Confined.of_same (same : Stored s = Stored start) (confined : Confined w s s') : Confined w start s' where
  removed record stored absent :=
    owned_mono (fun _ stored => same ▸ stored) (confined.removed record (same ▸ stored) absent)
  added record stored absent := confined.added record stored (same ▸ absent)

theorem Confined.refl : Confined w s s := ⟨fun _ stored absent => absurd stored absent,fun _ stored absent => absurd stored absent⟩

theorem Within.shrunk (within : Within w s' s) : Confined w s s' where
  removed := within.owned
  added record stored absent := absurd (within.kept record stored) absent

-- The constraints `documents_pkey` and `conversations_pkey`.
structure PrimaryKeys (s : Stores) : Prop where
  documents : ∀ a ∈ s.db.documents, ∀ b ∈ s.db.documents, a.id = b.id → a = b
  conversations : ∀ a ∈ s.db.conversations, ∀ b ∈ s.db.conversations, a.id = b.id → a = b

theorem PrimaryKeys.mono (keyed : PrimaryKeys s) (kept : ∀ record, Stored s' record → Stored s record) : PrimaryKeys s' where
  documents a first b second := keyed.documents a (kept (.document a) first) b (kept (.document b) second)
  conversations a first b second := keyed.conversations a (kept (.conversation a) first) b (kept (.conversation b) second)

section Upload
open Documents

def Uploading (w : Uuid) (s : Stores) : UploadPhase → Prop
  | .requested upload => upload.workspace_id = w
  | .saved upload _ => upload.workspace_id = w
  | .uploaded upload document_id => upload.workspace_id = w ∧ upload.row document_id ∈ s.db.documents
  | .failed _ => True

theorem upload_within (uploading : Uploading w s phase) (change : UploadChange deployment s phase s' phase') :
    Within w s s' ∧ Uploading w s' phase' := by
  cases change with
  | save drawn _ =>
    have same := Stores.draw_same drawn
    exact ⟨.of_same (stored_of_same (same.db :) (same.vectors :)),uploading⟩
  | torn drawn _ =>
    have same := Stores.draw_same drawn
    exact ⟨.of_same (stored_of_same (same.db :) (same.vectors :)),trivial⟩
  | @insert job_id after document_id now db request drawn enforced =>
    have tables := Database.enforce_tables enforced
    have inside : request.row document_id ∈ db.documents := by
      rw [show db.documents = _ from congrArg Tables.documents tables]
      exact List.mem_append_right _ (List.mem_singleton.mpr rfl)
    refine ⟨.of_added [.document (request.row document_id),.job (pendingJob document_id job_id now)] ?_ ?_,uploading,inside⟩
    · intro record
      have vectors := (Stores.draw_same drawn).vectors
      cases record <;> simp [Stored,tables,vectors]
    · refine List.forall_mem_cons.mpr ⟨uploading,List.forall_mem_singleton.mpr ?_⟩
      exact ⟨request.row document_id,inside,rfl,uploading⟩
  | stop => exact ⟨.of_same rfl,trivial⟩

end Upload

-- A row outside the filter is one the statement names.
theorem named {A : Type} {rows : List A} {test : A → Bool} {row : A} (present : row ∈ rows)
    (absent : row ∉ rows.filter test) : test row = false :=
  Bool.eq_false_iff.mpr fun passed => absent (List.mem_filter.mpr ⟨present,passed⟩)

section Delete
open Documents

def Deleting (w : Uuid) (s : Stores) : DeletePhase → Prop
  | .requested workspace_id _ => workspace_id = w
  | .loaded document => document ∈ s.db.documents ∧ document.workspace_id = w
  | .cleared document => document ∈ s.db.documents ∧ document.workspace_id = w
  | .unlinked document => document ∈ s.db.documents ∧ document.workspace_id = w
  | .invalidated document _ => document ∈ s.db.documents ∧ document.workspace_id = w
  | .deleted _ => True
  | .failed _ _ => True

theorem within_clear (stored : document ∈ s.db.documents) (home : document.workspace_id = w) :
    Within w {s with vectors := s.vectors.deleteByDocument document.id} s where
  kept record stored := by
    cases record with
    | point p => exact (VectorStore.mem_delete.mp stored).1
    | _ => exact stored
  owned record present absent := by
    cases record with
    | point p =>
      by_cases same : p.payload.document_id = document.id.str
      · exact ⟨document.id,same.symm,document,stored,rfl,home⟩
      · exact absurd (VectorStore.mem_delete.mpr ⟨present,same⟩) absent
    | _ => exact absurd present absent

-- The deleted document, its chunks with their citations, and its jobs.
theorem within_deleteDocument (keyed : PrimaryKeys s) (stored : document ∈ s.db.documents) (home : document.workspace_id = w) :
    Within w {s with db := ⟨s.db.deleteDocument document.id,s.db.keys.deleteDocument document.id⟩} s where
  kept record present := by
    cases record with
    | document row => exact (List.mem_filter.mp present).1
    | chunk row => exact (List.mem_filter.mp present).1
    | job row => exact (List.mem_filter.mp present).1
    | citation row => exact (List.mem_filter.mp present).1
    | _ => exact present
  owned record present absent := by
    cases record with
    | document row =>
      have key : row.id = document.id := by simpa using named present absent
      rw [keyed.documents row present document stored key]
      exact home
    | chunk row =>
      have key : row.document_id = document.id := by simpa using named present absent
      exact ⟨document,stored,key.symm,home⟩
    | job row =>
      have key : row.document_id = document.id := by simpa using named present absent
      exact ⟨document,stored,key.symm,home⟩
    | citation row =>
      have gone := of_decide_eq_false (named (A := MessageCitation) present absent)
      obtain ⟨chunk,inside,key⟩ := List.mem_map.mp (not_not.mp gone)
      obtain ⟨held,parent⟩ := List.mem_filter.mp inside
      exact .inr ⟨chunk,held,key,document,stored,(of_decide_eq_true parent).symm,home⟩
    | _ => exact absurd present absent

theorem delete_within (keyed : PrimaryKeys s) (deleting : Deleting w s phase)
    (change : DeleteChange deployment s phase s' phase') : Within w s' s ∧ Deleting w s' phase' := by
  cases change with
  | get stored _ home => exact ⟨.of_same rfl,stored,home.trans deleting⟩
  | clear next =>
    refine ⟨within_clear deleting.1 deleting.2,?_⟩
    rcases next with rfl | ⟨_,rfl⟩
    · exact deleting
    · trivial
  | unlink => exact ⟨.of_same (stored_of_same rfl rfl),deleting⟩
  | invalidate => exact ⟨.of_same (stored_of_same rfl rfl),deleting⟩
  | commit => exact ⟨within_deleteDocument keyed deleting.1 deleting.2,trivial⟩
  | stop => exact ⟨.of_same rfl,trivial⟩

end Delete

section Reingest
open Documents

-- Nothing has been written, or a pending job of a document of the workspace.
def Reingesting (w : Uuid) (start s : Stores) : ReingestPhase → Prop
  | .requested workspace_id _ => workspace_id = w ∧ Stored s = Stored start
  | .queued _ => Confined w start s ∧
      ∃ job ∈ s.db.ingestion_jobs, s.db.ingestion_jobs.getLast? = some job ∧ DocumentOf s w job.document_id
  | .failed _ => Confined w start s

theorem confined_requeue {s : Stores} (s' : Stores) {job : IngestionJob} (keyed : PrimaryKeys s) (stored : document ∈ s.db.documents)
    (home : document.workspace_id = w) (parent : job.document_id = document.id)
    (tables : s'.db.toTables = {s.db.toTables.setStatus document.id status error with
      ingestion_jobs := s.db.ingestion_jobs ++ [job]}) (vectors : s'.vectors = s.vectors) :
    Confined w s s' ∧ DocumentOf s' w document.id := by
  have documents : s'.db.documents = (s.db.toTables.setStatus document.id status error).documents :=
    (congrArg Tables.documents tables :)
  have there : DocumentOf s' w document.id := by
    unfold DocumentOf
    rw [documents]
    refine ⟨_,List.mem_map.mpr ⟨document,stored,rfl⟩,?_,?_⟩ <;> rw [if_pos rfl]
    exact home
  refine ⟨⟨?_,?_⟩,there⟩
  · intro record present absent
    cases record with
    | document row =>
      by_cases key : row.id = document.id
      · rw [keyed.documents row present document stored key]
        exact home
      · refine absurd ?_ absent
        simp only [Stored,documents]
        exact (Tables.mem_setStatus_of_ne key).mpr present
    | job row =>
      refine absurd ?_ absent
      simp only [Stored,tables]
      exact List.mem_append_left _ present
    | point p => exact absurd (by simpa only [Stored,vectors] using present) absent
    | _ => exact absurd (by simpa only [Stored,tables,Tables.setStatus] using present) absent
  · intro record present absent
    cases record with
    | document row =>
      simp only [Stored,documents] at present
      by_cases key : row.id = document.id
      · obtain ⟨old,before,same,workspace,_⟩ := Tables.mem_setStatus present
        rw [keyed.documents old before document stored (same.trans key)] at workspace
        exact workspace.symm.trans home
      · exact absurd ((Tables.mem_setStatus_of_ne key).mp present) absent
    | job row =>
      simp only [Stored,tables] at present
      rcases List.mem_append.mp present with old | new
      · exact absurd old absent
      · rw [List.mem_singleton.mp new]
        simp only [Owned,parent]
        exact there
    | point p => exact absurd (by simpa only [Stored,vectors] using present) absent
    | _ => exact absurd (by simpa only [Stored,tables,Tables.setStatus] using present) absent

theorem reingest_confined (keyed : PrimaryKeys start) (reingesting : Reingesting w start s phase)
    (acted : reingest s phase label = some (s',phase')) : Reingesting w start s' phase' := by
  cases phase' with
  | requested => cases reingest_change acted
  | queued document_id =>
    obtain ⟨workspace_id,_,document,rfl,rfl,stored,home,job_id,now,after,db,drawn,rfl,tables⟩ := reingest_parts acted
    obtain ⟨rfl,same⟩ := reingesting
    obtain ⟨confined,there⟩ := confined_requeue {after with db := db} (keyed.mono fun record stored => same ▸ stored) stored
      home rfl tables (Stores.draw_same drawn).vectors
    have jobs : db.ingestion_jobs = s.db.ingestion_jobs ++ [pendingJob document.id job_id now] :=
      (congrArg Tables.ingestion_jobs tables :)
    refine ⟨confined.of_same same,pendingJob document.id job_id now,?_,?_,there⟩
    · rw [show ({after with db := db} : Stores).db.ingestion_jobs = _ from jobs]
      exact List.mem_append_right _ (List.mem_singleton.mpr rfl)
    · rw [show ({after with db := db} : Stores).db.ingestion_jobs = _ from jobs]
      exact List.getLast?_concat
  | failed error =>
    cases reingest_change acted with
    | stop =>
      cases phase with
      | requested => exact Confined.refl.of_same reingesting.2
      | queued => exact reingesting.1
      | failed => exact reingesting

end Reingest

section Chat
open ChatService

-- The conversation of a turn stays in the tables, in the workspace of the path.
def Chatting (w : Uuid) (s : Stores) : Turn.Phase → Prop
  | .requested request _ => request.workspace_id = w
  | .opened _ _ conversation _ => conversation ∈ s.db.conversations ∧ conversation.workspace_id = w
  | .rewritten _ _ conversation _ => conversation ∈ s.db.conversations ∧ conversation.workspace_id = w
  | .searching _ conversation _ _ => conversation ∈ s.db.conversations ∧ conversation.workspace_id = w
  | .fused _ conversation _ => conversation ∈ s.db.conversations ∧ conversation.workspace_id = w
  | .fetched _ conversation _ => conversation ∈ s.db.conversations ∧ conversation.workspace_id = w
  | .retrieved _ conversation _ => conversation ∈ s.db.conversations ∧ conversation.workspace_id = w
  | .generated _ conversation _ _ => conversation ∈ s.db.conversations ∧ conversation.workspace_id = w
  | .saved _ _ _ _ => True
  | .failed _ => True

theorem within_openTurn {s s' : Stores} (opened : openTurn fails s.db request key message_id now = .ok (s'.db,conversation,history))
    (vectors : s'.vectors = s.vectors) (home : request.workspace_id = w) :
    Within w s s' ∧ conversation ∈ s'.db.conversations ∧ conversation.workspace_id = w := by
  obtain ⟨stored,same,added,origin,tables⟩ := openTurn_parts opened
  have mine : conversation.workspace_id = w := same.trans home
  refine ⟨.of_added (.message (userMessage request conversation.id message_id now) :: added.map .conversation) ?_ ?_,stored,mine⟩
  · intro record
    cases record <;> simp [Stored,tables,vectors]
  · refine List.forall_mem_cons.mpr ⟨⟨conversation,stored,rfl,mine⟩,List.forall_mem_map.mpr fun row member => ?_⟩
    rcases origin with rfl | ⟨_,rfl,_⟩
    · cases member
    · rw [List.mem_singleton.mp member]
      exact mine

theorem within_persistTurn {s s' : Stores}
    (persisted : persistTurn fails s.db conversation user_id message_id now g cited_indices = .ok s'.db)
    (vectors : s'.vectors = s.vectors) (stored : conversation ∈ s.db.conversations) (home : conversation.workspace_id = w) :
    Within w s s' := by
  obtain ⟨citations,built,tables⟩ := persistTurn_parts persisted
  have mine : ConversationOf s' w conversation.id := by
    refine ⟨conversation,?_,rfl,home⟩
    rw [tables]
    exact stored
  refine .of_added (.message (assistantMessage g conversation.id message_id now) :: citations.map .citation ++
    (usageRows s.db conversation user_id g).map .usageRecord) ?_ ?_
  · intro record
    cases record <;> simp [Stored,tables,vectors]
  · rw [List.cons_append]
    refine List.forall_mem_cons.mpr ⟨mine,List.forall_mem_append.mpr ⟨List.forall_mem_map.mpr fun row member => ?_,
      List.forall_mem_map.mpr fun row member => ?_⟩⟩
    · obtain ⟨idx,_,one⟩ := Fallible.forall₂_right built member
      refine .inl ⟨assistantMessage g conversation.id message_id now,?_,(citation_parts one).1.symm,mine⟩
      rw [tables]
      exact List.mem_append_right _ (List.mem_singleton.mpr rfl)
    · obtain ⟨workspace,found,rfl⟩ := List.mem_map.mp member
      exact congrArg some ((Database.getWorkspace_mem (Option.mem_toList.mp found)).2.trans home)

theorem search_same (change : SparseSearch.Change s phase s' phase') : s'.db = s.db ∧ s'.vectors = s.vectors := by
  cases change <;> exact ⟨rfl,rfl⟩

theorem chat_within (chatting : Chatting w s phase) (change : Turn.Change deployment s phase s' phase') :
    Within w s s' ∧ Chatting w s' phase' := by
  cases change with
  | open_ opened drawn => exact within_openTurn opened (Stores.draw_same drawn).vectors chatting
  | persist persisted drawn =>
    exact ⟨within_persistTurn persisted (Stores.draw_same drawn).vectors chatting.1 chatting.2,trivial⟩
  | sparse inner =>
    obtain ⟨db,vectors⟩ := search_same inner
    exact ⟨.of_same (stored_of_same db vectors),by simpa only [Chatting,db] using chatting⟩
  | stop => exact ⟨.of_same rfl,trivial⟩
  | _ => exact ⟨.of_same rfl,chatting⟩

-- The chunks a turn has in hand.
def quoted : Turn.Phase → List ContextChunk
  | .fetched _ _ chunks => chunks
  | .retrieved _ _ chunks => chunks
  | .generated _ _ g _ => g.context_chunks
  | .saved _ _ g _ => g.context_chunks
  | _ => []

def Quoting (w : Uuid) (s : Stores) (phase : Turn.Phase) : Prop :=
  Traced s ∧ TurnKnown s.issued phase ∧ ∀ chunk ∈ quoted phase, Found s w chunk

theorem found_mono (within : Within w s s') (found : Found s home chunk) : Found s' home chunk := by
  obtain ⟨row,stored,text,same⟩ := found
  exact ⟨row,within.kept (.chunk row) stored,text,same⟩

theorem chat_quoting (chatting : Chatting w s phase) (quoting : Quoting w s phase)
    (change : Turn.Change deployment s phase s' phase') : Quoting w s' phase' := by
  obtain ⟨traced,known,found⟩ := quoting
  obtain ⟨within,_⟩ := chat_within chatting change
  obtain ⟨kept,told⟩ := turn_traced traced known change
  refine ⟨kept,told,?_⟩
  cases change with
  | fetch =>
    intro chunk member
    obtain ⟨r,asked,row,stored,same,text⟩ := contextChunk_row member
    refine ⟨row,stored,text.symm,?_⟩
    exact (one_workspace traced (traced.tables.chunks row stored) (same ▸ known.2 r asked)).trans chatting.2
  | rerank ranked =>
    intro chunk member
    obtain ⟨original,before,same⟩ := mem_rerankNode ranked member
    obtain ⟨row,stored,text,home⟩ := found original before
    exact ⟨row,stored,text.trans same,home⟩
  | generate => exact found
  | persist => exact fun chunk member => found_mono within (found chunk member)
  | _ => exact fun chunk member => nomatch member

end Chat

-- A row in the response is stored and belongs to the workspace.
def Answers (s : Stores) (w : Uuid) : Returned → Prop
  | .document row => Stored s (.document row) ∧ Belongs s w (.document row)
  | .chunk row => Stored s (.chunk row) ∧ Belongs s w (.chunk row)
  | .job row => Stored s (.job row) ∧ Belongs s w (.job row)
  | .conversation row => Stored s (.conversation row) ∧ Belongs s w (.conversation row)
  | .message row _ => Stored s (.message row) ∧ Belongs s w (.message row)
  | .context _ => True

-- What a response quotes of chunks it does not return itself.
def Quotes (s : Stores) (w : Uuid) : Returned → Prop
  | .message _ citations => ∀ citation ∈ citations, ∃ chunk ∈ s.db.document_chunks, chunk.id = citation.chunk_id ∧
      chunk.content = citation.chunk_content ∧ chunk.workspace_id = w
  | .context chunk => Found s w chunk
  | _ => True

theorem answers_of_owned {s : Stores} (stored : Stored s record) (owned : Owned s w record) : Stored s record ∧ Belongs s w record :=
  ⟨stored,belongs stored owned⟩

theorem getConversation_parts (found : getConversation db workspace_id conversation_id = some conversation) :
    conversation ∈ db.conversations ∧ conversation.workspace_id = workspace_id := by
  obtain ⟨got,same⟩ := Option.filter_eq_some_iff.mp found
  exact ⟨(Database.getConversation_mem got).1,of_decide_eq_true same⟩

theorem within_deleteConversation (keyed : PrimaryKeys s) (stored : conversation ∈ s.db.conversations)
    (home : conversation.workspace_id = w) :
    Within w {s with db := ⟨s.db.deleteConversation conversation.id,s.db.keys.deleteConversation conversation.id⟩} s where
  kept record present := by
    cases record with
    | conversation row => exact (List.mem_filter.mp present).1
    | message row => exact (List.mem_filter.mp present).1
    | citation row => exact (List.mem_filter.mp present).1
    | _ => exact present
  owned record present absent := by
    cases record with
    | conversation row =>
      have key : row.id = conversation.id := by simpa using named present absent
      rw [keyed.conversations row present conversation stored key]
      exact home
    | message row =>
      have key : row.conversation_id = conversation.id := by simpa using named present absent
      exact ⟨conversation,stored,key.symm,home⟩
    | citation row =>
      have gone := of_decide_eq_false (named (A := MessageCitation) present absent)
      obtain ⟨message,inside,key⟩ := List.mem_map.mp (not_not.mp gone)
      obtain ⟨held,parent⟩ := List.mem_filter.mp inside
      exact .inl ⟨message,held,key,conversation,stored,(of_decide_eq_true parent).symm,home⟩
    | _ => exact absurd present absent

-- The single-step routes: what is read passes the ownership check first.
theorem document_answers {s : Stores} (found : Documents.getDocument s.db w document_id = some row) : Answers s w (.document row) := by
  obtain ⟨stored,_,home⟩ := Documents.getDocument_parts found
  exact answers_of_owned stored home

theorem chunks_answer {s : Stores} (found : listChunks s.db w document_id = some rows) : ∀ row ∈ rows, Answers s w (.chunk row) := by
  obtain ⟨document,got,rfl⟩ := Option.map_eq_some_iff.mp found
  obtain ⟨stored,key,home⟩ := Documents.getDocument_parts got
  intro row member
  obtain ⟨present,parent⟩ := List.mem_filter.mp ((List.mem_insertionSort _).mp member)
  exact answers_of_owned present ⟨document,stored,key.trans (of_decide_eq_true parent).symm,home⟩

theorem job_answers {s : Stores} (found : getLatestIngestionJob s.db w document_id = some (some job)) : Answers s w (.job job) := by
  obtain ⟨document,got,latest⟩ := Option.map_eq_some_iff.mp found
  obtain ⟨stored,key,home⟩ := Documents.getDocument_parts got
  obtain ⟨present,parent,_⟩ := Database.latestJob_newest latest
  exact answers_of_owned present ⟨document,stored,key.trans parent.symm,home⟩

theorem messages_answer {s : Stores} (found : getConversationWithMessages s.db w conversation_id = some rows) :
    ∀ row ∈ rows, Answers s w row := by
  obtain ⟨conversation,got,rfl⟩ := Option.map_eq_some_iff.mp found
  obtain ⟨stored,home⟩ := getConversation_parts got
  refine List.forall_mem_map.mpr fun message member => ?_
  obtain ⟨present,parent⟩ := List.mem_filter.mp ((List.mem_insertionSort _).mp member)
  exact answers_of_owned present ⟨conversation,stored,(of_decide_eq_true parent).symm,home⟩

theorem citationRead_chunk {t : Tables} (read : t.citationRead row = some citation) :
    ∃ chunk ∈ t.document_chunks, chunk.id = row.chunk_id ∧ citation.chunk_id = row.chunk_id ∧ chunk.content = citation.chunk_content := by
  obtain ⟨chunk,chunk_found,rest⟩ := Option.bind_eq_some_iff.mp read
  obtain ⟨document,_,last⟩ := Option.bind_eq_some_iff.mp rest
  cases last
  exact ⟨chunk,List.mem_of_find?_eq_some chunk_found,by simpa using List.find?_some chunk_found,rfl,rfl⟩

-- A message quotes chunks of its own workspace only.
theorem messages_quote {s : Stores} (traced : Traced s)
    (found : getConversationWithMessages s.db w conversation_id = some rows) : ∀ row ∈ rows, Quotes s w row := by
  obtain ⟨conversation,got,rfl⟩ := Option.map_eq_some_iff.mp found
  obtain ⟨stored,home⟩ := getConversation_parts got
  refine List.forall_mem_map.mpr fun message member citation quoted => ?_
  obtain ⟨present,parent⟩ := List.mem_filter.mp ((List.mem_insertionSort _).mp member)
  obtain ⟨row,cited,read⟩ := List.mem_filterMap.mp quoted
  obtain ⟨inside,said⟩ := List.mem_filter.mp cited
  obtain ⟨chunk,held,key,same,text⟩ := citationRead_chunk read
  refine ⟨chunk,held,key.trans same.symm,text,?_⟩
  rw [citations_at_home traced row inside chunk held key message present (of_decide_eq_true said).symm conversation stored
    (of_decide_eq_true parent).symm]
  exact home

-- What a request has done so far, and what it may answer.
def Handled (members : List WorkspaceMember) (request : Request) (start s : Stores) : Phase → Prop
  | .received r => r = request ∧ s = start
  | .admitted r _ => r = request ∧ s = start ∧ Permitted members request
  | .running (.upload phase) => Permitted members request ∧ Within request.workspace_id start s ∧ Uploading request.workspace_id s phase
  | .running (.reingest phase) => Permitted members request ∧ Reingesting request.workspace_id start s phase
  | .running (.delete phase) => Permitted members request ∧ Within request.workspace_id s start ∧ Deleting request.workspace_id s phase
  | .running (.turn phase) => Permitted members request ∧ Within request.workspace_id start s ∧
      Chatting request.workspace_id s phase ∧ (Traced start → Quoting request.workspace_id s phase)
  | .running _ => False
  | .answered rows => Permitted members request ∧ Confined request.workspace_id start s ∧
      ∀ row ∈ rows, Answers s request.workspace_id row ∧ (Traced start → Quotes s request.workspace_id row)
  | .failed _ => s = start

theorem reply_handled (permitted : Permitted members request)
    (each : ∀ rows, answer = some rows → ∀ row ∈ rows,
      Answers s request.workspace_id row ∧ (Traced s → Quotes s request.workspace_id row)) :
    Handled members request s s (reply missing answer) := by
  cases answer with
  | none => exact rfl
  | some rows => exact ⟨permitted,.refl,each rows rfl⟩

theorem handle_handled (keyed : PrimaryKeys s) (permitted : Permitted members request)
    (handled : handle s request membership label = some (s',phase')) : Handled members request s s' phase' := by
  cases label with
  | handle worker =>
    dsimp only [handle] at handled
    split at handled
    · cases handled
      exact ⟨permitted,.of_same rfl,rfl⟩
    · cases handled
      refine reply_handled permitted fun rows found => ?_
      obtain ⟨row,got,rfl⟩ := Option.map_eq_some_iff.mp found
      exact List.forall_mem_singleton.mpr ⟨document_answers got,fun _ => trivial⟩
    · cases handled
      refine reply_handled permitted fun rows found => ?_
      obtain ⟨latest,got,rfl⟩ := Option.map_eq_some_iff.mp found
      refine List.forall_mem_map.mpr fun job member => ⟨?_,fun _ => trivial⟩
      rw [Option.mem_toList.mp member] at got
      exact job_answers got
    · cases handled
      refine reply_handled permitted fun rows found => ?_
      obtain ⟨chunks,got,rfl⟩ := Option.map_eq_some_iff.mp found
      exact List.forall_mem_map.mpr fun row member => ⟨chunks_answer got row member,fun _ => trivial⟩
    · cases handled
      exact ⟨permitted,rfl,rfl⟩
    · cases handled
      exact ⟨permitted,.of_same rfl,rfl⟩
    · cases handled
      exact ⟨permitted,.of_same rfl,rfl,fun traced => ⟨traced,trivial,fun _ member => nomatch member⟩⟩
    · cases handled
      refine reply_handled permitted fun rows found row member => ?_
      exact ⟨messages_answer found row member,fun traced => messages_quote traced found row member⟩
    · split at handled
      · cases handled
        exact rfl
      · rename_i conversation found
        cases handled
        obtain ⟨stored,home⟩ := getConversation_parts found
        exact ⟨permitted,(within_deleteConversation keyed stored home).shrunk,fun _ member => nomatch member⟩
    · cases handled
    · cases handled
  | documents rows =>
    dsimp only [handle] at handled
    split at handled
    · split at handled
      · rename_i listed
        cases handled
        refine ⟨permitted,.refl,List.forall_mem_map.mpr fun row member => ⟨?_,fun _ => trivial⟩⟩
        obtain ⟨present,home⟩ := List.mem_filter.mp (listed.subset member)
        exact answers_of_owned present (of_decide_eq_true home :)
      · cases handled
    · cases handled
  | conversations rows =>
    dsimp only [handle] at handled
    split at handled
    · split at handled
      · rename_i listed
        cases handled
        refine ⟨permitted,.refl,List.forall_mem_map.mpr fun row member => ⟨?_,fun _ => trivial⟩⟩
        obtain ⟨present,home⟩ := List.mem_filter.mp (listed.subset member)
        exact answers_of_owned present (of_decide_eq_true home :)
      · cases handled
    · cases handled
  | fails error =>
    cases handled
    exact rfl
  | guard => cases handled
  | step => cases handled

theorem running_handled (keyed : PrimaryKeys start) (handled : Handled members request start s (.running a))
    (acted : Site.act deployment i s a label = some (s',a')) : Handled members request start s' (.running a') := by
  cases a with
  | upload phase =>
    cases Site.act_change acted with
    | upload change =>
      obtain ⟨permitted,within,uploading⟩ := handled
      obtain ⟨grown,next⟩ := upload_within uploading change
      exact ⟨permitted,within.trans grown,next⟩
  | reingest phase =>
    obtain ⟨permitted,reingesting⟩ := handled
    cases label with
    | reingest label =>
      obtain ⟨next,moved,rfl⟩ := lifted acted
      exact ⟨permitted,reingest_confined keyed reingesting moved⟩
    | _ => cases acted
  | delete phase =>
    cases Site.act_change acted with
    | delete change =>
      obtain ⟨permitted,within,deleting⟩ := handled
      obtain ⟨shrunk,next⟩ := delete_within (keyed.mono within.kept) deleting change
      exact ⟨permitted,shrunk.trans within,next⟩
  | turn phase =>
    cases Site.act_change acted with
    | turn change =>
      obtain ⟨permitted,within,chatting,quoting⟩ := handled
      obtain ⟨grown,next⟩ := chat_within chatting change
      exact ⟨permitted,within.trans grown,next,fun traced => chat_quoting chatting (quoting traced) change⟩
  | _ => exact handled.elim

theorem act_handled (keyed : PrimaryKeys start) (handled : Handled members request start s phase)
    (acted : Endpoints.act deployment members s phase label = some (s',phase')) : Handled members request start s' phase' := by
  cases phase with
  | received r =>
    obtain ⟨rfl,rfl⟩ := handled
    cases label with
    | guard =>
      dsimp only [Endpoints.act] at acted
      split at acted
      · rename_i passed
        cases acted
        exact ⟨rfl,rfl,permitted_of_guard passed⟩
      · cases acted
        exact rfl
    | fails error =>
      cases acted
      exact rfl
    | _ => cases acted
  | admitted r membership =>
    obtain ⟨rfl,rfl,permitted⟩ := handled
    exact handle_handled keyed permitted acted
  | running a =>
    cases label with
    | step label =>
      obtain ⟨next,moved,rfl⟩ := lifted acted
      exact running_handled keyed handled moved
    | _ => cases acted
  | answered => cases acted
  | failed => cases acted

theorem runs_handled (keyed : PrimaryKeys start)
    (path : Runs (taken (Interleave.solo (Endpoints.act deployment members))) (start,.received request) labels (s,phase)) :
    Handled members request start s phase := by
  refine path.history (fun _ (c : Stores × Phase) => Handled members request start c.1 c.2) ⟨rfl,rfl⟩ ?_
  intro _ _ _ _ _ handled moved
  exact act_handled keyed handled moved

theorem Handled.confined (handled : Handled members request start s phase) :
    Confined request.workspace_id start s ∧ (Stored s = Stored start ∨ Permitted members request) := by
  cases phase with
  | received => exact handled.2 ▸ ⟨.refl,.inl rfl⟩
  | admitted => exact handled.2.1 ▸ ⟨.refl,.inl rfl⟩
  | running a =>
    cases a with
    | upload => exact ⟨handled.2.1.grown,.inr handled.1⟩
    | reingest phase =>
      obtain ⟨permitted,reingesting⟩ := handled
      cases phase with
      | requested => exact ⟨Confined.refl.of_same reingesting.2,.inr permitted⟩
      | queued => exact ⟨reingesting.1,.inr permitted⟩
      | failed => exact ⟨reingesting,.inr permitted⟩
    | delete => exact ⟨handled.2.1.shrunk,.inr handled.1⟩
    | turn => exact ⟨handled.2.1.grown,.inr handled.1⟩
    | _ => exact handled.elim
  | answered => exact ⟨handled.2.1,.inr handled.1⟩
  | failed => exact handled ▸ ⟨.refl,.inl rfl⟩

theorem Handled.returned (handled : Handled members request start s phase) : ∀ row ∈ returned s phase,
    Permitted members request ∧ Answers s request.workspace_id row ∧ (Traced start → Quotes s request.workspace_id row) := by
  intro row member
  unfold Endpoints.returned at member
  split at member
  · exact ⟨handled.1,handled.2.2 row member⟩
  · obtain ⟨permitted,_,home,stored⟩ := handled
    rw [List.mem_singleton.mp member]
    exact ⟨permitted,answers_of_owned stored home,fun _ => trivial⟩
  · obtain ⟨permitted,_,job,stored,latest,there⟩ := handled
    rw [latest] at member
    rw [List.mem_singleton.mp member]
    exact ⟨permitted,answers_of_owned stored there,fun _ => trivial⟩
  · obtain ⟨permitted,_,_,quoting⟩ := handled
    obtain ⟨chunk,inside,rfl⟩ := List.mem_map.mp member
    exact ⟨permitted,trivial,fun traced => (quoting traced).2.2 chunk inside⟩
  · cases member

-- The body of a route writes at most the deletion of a conversation, or starts
-- an activity.
theorem handle_parts (handled : handle s request membership label = some (s',phase')) :
    (s' = s ∨ ∃ conversation_id, s' = {s with db := ⟨s.db.deleteConversation conversation_id,s.db.keys.deleteConversation conversation_id⟩}) ∧
      ∀ a, phase' = .running a → a.fresh = true := by
  have replied {missing : Failure} {answer : Option (List Returned)} : ∀ a, reply missing answer = .running a → a.fresh = true := by
    intro a same
    cases answer <;> cases same
  cases label with
  | handle worker =>
    dsimp only [handle] at handled
    split at handled
    all_goals first
      | (cases handled; exact ⟨.inl rfl,replied⟩)
      | (cases handled; exact ⟨.inl rfl,fun _ same => by cases same; rfl⟩)
      | cases handled
      | skip
    split at handled <;> cases handled
    · exact ⟨.inl rfl,fun _ same => by cases same⟩
    · exact ⟨.inr ⟨_,rfl⟩,fun _ same => by cases same⟩
  | documents rows =>
    dsimp only [handle] at handled
    split at handled
    · split at handled <;> cases handled
      exact ⟨.inl rfl,fun _ same => by cases same⟩
    · cases handled
  | conversations rows =>
    dsimp only [handle] at handled
    split at handled
    · split at handled <;> cases handled
      exact ⟨.inl rfl,fun _ same => by cases same⟩
    · cases handled
  | fails error =>
    cases handled
    exact ⟨.inl rfl,fun _ same => by cases same⟩
  | guard => cases handled
  | step => cases handled

theorem coherent_deleteConversation (coherent : Coherent s) (conversation_id : Uuid) :
    Coherent {s with db := ⟨s.db.deleteConversation conversation_id,s.db.keys.deleteConversation conversation_id⟩} := by
  obtain ⟨⟨unique,tables,points,caches⟩,housed⟩ := coherent
  refine ⟨⟨unique,⟨tables.documents,tables.chunks,?_,?_,?_⟩,points,caches⟩,⟨housed.chunks,housed.points⟩⟩
  · exact fun row member => tables.conversations row (List.mem_filter.mp member).1
  · exact fun row member => tables.messages row (List.mem_filter.mp member).1
  · exact fun row member => tables.citations row (List.mem_filter.mp member).1

def Told (s : Stores) (phase : Phase) : Prop := ∀ a, phase = .running a → Known s.issued a ∧ Settled s.issued a

theorem act_coherent (coherent : Coherent s) (told : Told s phase)
    (acted : Endpoints.act deployment members s phase label = some (s',phase')) : Coherent s' ∧ Told s' phase' := by
  unfold Endpoints.act at acted
  split at acted
  · split at acted <;> cases acted <;> exact ⟨coherent,fun _ same => by cases same⟩
  · cases acted
    exact ⟨coherent,fun _ same => by cases same⟩
  · obtain ⟨written,started⟩ := handle_parts acted
    refine ⟨?_,fun a same => ⟨.of_fresh (started a same),.of_fresh (started a same)⟩⟩
    rcases written with rfl | ⟨conversation_id,rfl⟩
    · exact coherent
    · exact coherent_deleteConversation coherent conversation_id
  · obtain ⟨next,moved,rfl⟩ := lifted acted
    obtain ⟨kept,known⟩ := (Residence.outline deployment).own _ _ _ _ _ _ coherent (told _ rfl) moved
    exact ⟨kept,fun a same => by cases same; exact known⟩
  · cases acted

-- A coherent installation stays one, request after request.
theorem runs_request_coherent (coherent : Coherent start)
    (path : Runs (taken (Interleave.solo (Endpoints.act deployment members))) (start,.received request) labels (s,phase)) :
    Coherent s := by
  have both := path.history (fun _ (c : Stores × Phase) => Coherent c.1 ∧ Told c.1 c.2) ⟨coherent,fun _ same => by cases same⟩
    fun _ _ _ _ _ before moved => act_coherent before.1 before.2 moved
  exact both.1

theorem request_stays_in_workspace (keyed : PrimaryKeys start)
    (path : Runs (taken (Interleave.solo (Endpoints.act deployment members))) (start,.received request) labels (s,phase)) :
    (∀ row ∈ returned s phase, Permitted members request ∧ Answers s request.workspace_id row ∧
      (Traced start → Quotes s request.workspace_id row)) ∧
    (∀ record, Stored start record → ¬ Stored s record → Permitted members request ∧ Belongs start request.workspace_id record) ∧
    ∀ record, Stored s record → ¬ Stored start record → Permitted members request ∧ Belongs s request.workspace_id record := by
  have handled := runs_handled keyed path
  obtain ⟨confined,changed⟩ := handled.confined
  have permitted {record : Record} (different : Stored s record ≠ Stored start record) : Permitted members request :=
    changed.resolve_left fun same => different (congrFun same record)
  refine ⟨handled.returned,fun record before after => ?_,fun record after before => ?_⟩
  · exact ⟨permitted fun same => after (same.mpr before),belongs before (confined.removed record before after)⟩
  · exact ⟨permitted fun same => before (same.mp after),belongs after (confined.added record after before)⟩

-- Two workspaces with one indexed document each.
def twoWorkspaces : Stores where
  db := {
    workspaces := [⟨⟨1⟩,⟨3⟩⟩,⟨⟨2⟩,⟨3⟩⟩]
    documents := [⟨⟨11⟩,⟨1⟩,"a.txt".toList,"text/plain".toList,5,"a".toList,.completed,none⟩,
      ⟨⟨12⟩,⟨2⟩,"b.txt".toList,"text/plain".toList,4,"b".toList,.completed,none⟩]
    document_chunks := [⟨⟨21⟩,⟨11⟩,⟨1⟩,0,"Alpha".toList,1,⟨31⟩,none⟩,⟨⟨22⟩,⟨12⟩,⟨2⟩,0,"Beta".toList,1,⟨32⟩,none⟩]
    ingestion_jobs := []
    conversations := []
    messages := []
    message_citations := []
    usage_records := []
    keys := by decide
  }
  vectors := []
  storage := ⟨fun _ => none,fun _ => false⟩
  versions := fun _ => 0
  caches := fun _ => ⟨[],32,List.nodup_nil⟩
  issued := []

def reader : WorkspaceMember := ⟨⟨1⟩,⟨9⟩,"viewer".toList⟩

theorem member_reads_chunks : ∃ s phase,
    Runs (taken (Interleave.solo (Endpoints.act plain [reader]))) (twoWorkspaces,.received ⟨⟨1⟩,⟨9⟩,.listChunks ⟨11⟩⟩)
      [.guard,.handle 0] (s,phase) ∧
    returned s phase = [.chunk ⟨⟨21⟩,⟨11⟩,⟨1⟩,0,"Alpha".toList,1,⟨31⟩,none⟩] ∧
    ∀ row ∈ returned s phase, Permitted [reader] ⟨⟨1⟩,⟨9⟩,.listChunks ⟨11⟩⟩ ∧ Answers s ⟨1⟩ row := by
  obtain ⟨⟨s,phase⟩,path,shown⟩ := run_any (Interleave.solo (Endpoints.act plain [reader]))
    (twoWorkspaces,.received ⟨⟨1⟩,⟨9⟩,.listChunks ⟨11⟩⟩) [.guard,.handle 0]
    (fun c => returned c.1 c.2 = [.chunk ⟨⟨21⟩,⟨11⟩,⟨1⟩,0,"Alpha".toList,1,⟨31⟩,none⟩]) (by decide +kernel)
  obtain ⟨answers,_⟩ := request_stays_in_workspace ⟨by decide,by decide⟩ path
  exact ⟨s,phase,path,of_decide_eq_true shown,fun row member => ⟨(answers row member).1,(answers row member).2.1⟩⟩

-- The other workspace's document is not found under this path.
example : (run (Interleave.solo (Endpoints.act plain [reader])) (twoWorkspaces,.received ⟨⟨1⟩,⟨9⟩,.getDocument ⟨12⟩⟩)
    [.guard,.handle 0]).any (fun c => match c.2 with | .failed error => error = documentNotFound | _ => false) = true := by
  decide +kernel

end RagForge.AccessControl
