import RagForge.Site

namespace RagForge.Endpoints
open RagForge Site Documents

inductive WorkspaceRole where
  | owner | editor | viewer
  deriving DecidableEq

def WorkspaceRole.value : WorkspaceRole → Str
  | .owner => "owner".toList
  | .editor => "editor".toList
  | .viewer => "viewer".toList

-- `_ROLE_RANK`
def roleRank : List (Str × Int) :=
  [(WorkspaceRole.viewer.value,0),(WorkspaceRole.editor.value,1),(WorkspaceRole.owner.value,2)]

def roleSatisfies (actual minimum : Str) : Bool :=
  decide ((roleRank.lookup minimum).getD 999 ≤ (roleRank.lookup actual).getD (-1))

-- The stored role is a text of up to 32 characters, not an enumeration.
structure WorkspaceMember where
  workspace_id : Uuid
  user_id : Uuid
  role : Str
  deriving DecidableEq

-- `scalar_one_or_none` raises on a second row.
def getWorkspaceMembership (members : List WorkspaceMember) (workspace_id user_id : Uuid) :
    Except Failure (Option WorkspaceMember) :=
  match members.filter fun row => row.workspace_id = workspace_id ∧ row.user_id = user_id with
  | [] => .ok none
  | [row] => .ok (some row)
  | _ => .error ⟨false,"Multiple rows were found when one or none was required".toList⟩

def requireWorkspaceRole (members : List WorkspaceMember) (workspace_id user_id : Uuid) (minimumRole : Str) :
    Except Failure WorkspaceMember := do
  match ← getWorkspaceMembership members workspace_id user_id with
  | none => throw ⟨false,"Insufficient permissions for this workspace".toList⟩
  | some membership =>
    if roleSatisfies membership.role minimumRole then return membership
    else throw ⟨false,"Insufficient permissions for this workspace".toList⟩

inductive Endpoint where
  | uploadDocument (filename content_type : Option Str) (content : Bytes)
  | listDocuments
  | getDocument (document_id : Uuid)
  | getIngestionStatus (document_id : Uuid)
  | listChunks (document_id : Uuid)
  | reingestDocument (document_id : Uuid)
  | deleteDocument (document_id : Uuid)
  | chat (conversation_id : Option Uuid) (message : Str)
  | listConversations
  | getConversationMessages (conversation_id : Uuid)
  | deleteConversation (conversation_id : Uuid)

def Endpoint.minimumRole : Endpoint → WorkspaceRole
  | .uploadDocument _ _ _ => .editor
  | .listDocuments => .viewer
  | .getDocument _ => .viewer
  | .getIngestionStatus _ => .viewer
  | .listChunks _ => .viewer
  | .reingestDocument _ => .editor
  | .deleteDocument _ => .editor
  | .chat _ _ => .viewer
  | .listConversations => .viewer
  | .getConversationMessages _ => .viewer
  | .deleteConversation _ => .editor

structure Request where
  workspace_id : Uuid
  user_id : Uuid
  endpoint : Endpoint

def listChunks (db : Database) (workspace_id document_id : Uuid) : Option (List DocumentChunk) :=
  (Documents.getDocument db workspace_id document_id).map fun _ =>
    (db.document_chunks.filter (·.document_id = document_id)).insertionSort fun a b => a.chunk_index ≤ b.chunk_index

def getLatestIngestionJob (db : Database) (workspace_id document_id : Uuid) : Option (Option IngestionJob) :=
  (Documents.getDocument db workspace_id document_id).map fun _ => db.latestJob document_id

-- The row both services of a single conversation look up; `none` is their
-- NotFoundError.
def getConversation (db : Database) (workspace_id conversation_id : Uuid) : Option Conversation :=
  (db.getConversation conversation_id).filter (·.workspace_id = workspace_id)

-- The rows an endpoint answers with. `context` is a chunk quoted by the `done`
-- event of a turn.
inductive Returned where
  | document (row : Document)
  | chunk (row : DocumentChunk)
  | job (row : IngestionJob)
  | conversation (row : Conversation)
  | message (row : Message) (citations : List (CitationRead Uuid))
  | context (chunk : ContextChunk)
  deriving DecidableEq

def getConversationWithMessages (db : Database) (workspace_id conversation_id : Uuid) : Option (List Returned) :=
  (getConversation db workspace_id conversation_id).map fun conversation =>
    ((db.messages.filter (·.conversation_id = conversation.id)).insertionSort fun a b => a.created_at ≤ b.created_at).map
      fun row => .message row (db.citationReads row)

inductive Phase where
  | received (request : Request)
  | admitted (request : Request) (membership : WorkspaceMember)
  | running (a : Activity)
  | answered (rows : List Returned)
  | failed (error : Failure)

-- A list ordered by a column the model leaves out comes in any order.
inductive Label where
  | guard
  | handle (worker : Nat)
  | documents (rows : List Document)
  | conversations (rows : List Conversation)
  | step (label : Site.Label)
  | fails (error : Failure)

def documentNotFound : Failure := ⟨false,"Document not found".toList⟩
def conversationNotFound : Failure := ⟨false,"Conversation not found".toList⟩

def reply (missing : Failure) (answer : Option (List Returned)) : Phase :=
  match answer with
  | some rows => .answered rows
  | none => .failed missing

-- The body of a route. A route of several steps goes on as an activity.
def handle (s : Stores) (request : Request) (membership : WorkspaceMember) : Label → Option (Stores × Phase)
  | .handle worker =>
    let w := request.workspace_id
    match request.endpoint with
    | .uploadDocument filename content_type content =>
      some (s,.running (.upload (.requested ⟨w,filename,content_type,content⟩)))
    | .getDocument document_id =>
      some (s,reply documentNotFound ((Documents.getDocument s.db w document_id).map fun row => [.document row]))
    | .getIngestionStatus document_id =>
      some (s,reply documentNotFound ((getLatestIngestionJob s.db w document_id).map fun job => job.toList.map .job))
    | .listChunks document_id => some (s,reply documentNotFound ((listChunks s.db w document_id).map fun rows => rows.map .chunk))
    | .reingestDocument document_id => some (s,.running (.reingest (.requested w document_id)))
    | .deleteDocument document_id => some (s,.running (.delete (.requested w document_id)))
    | .chat conversation_id message =>
      some (s,.running (.turn (.requested ⟨w,membership.user_id,conversation_id,message⟩ worker)))
    | .getConversationMessages conversation_id =>
      some (s,reply conversationNotFound (getConversationWithMessages s.db w conversation_id))
    | .deleteConversation conversation_id =>
      match getConversation s.db w conversation_id with
      | none => some (s,.failed conversationNotFound)
      | some conversation =>
        some ({s with db := ⟨s.db.deleteConversation conversation.id,s.db.keys.deleteConversation conversation.id⟩},.answered [])
    | .listDocuments => none
    | .listConversations => none
  | .documents rows => match request.endpoint with
    | .listDocuments =>
      if rows.Perm (s.db.documents.filter (·.workspace_id = request.workspace_id)) then
        some (s,.answered (rows.map .document))
      else none
    | _ => none
  | .conversations rows => match request.endpoint with
    | .listConversations =>
      if rows.Perm (s.db.conversations.filter (·.workspace_id = request.workspace_id)) then
        some (s,.answered (rows.map .conversation))
      else none
    | _ => none
  | .fails error => some (s,.failed error)
  | _ => none

def act (deployment : Deployment) (members : List WorkspaceMember) (s : Stores) : Phase → Label → Option (Stores × Phase)
  | .received request,.guard =>
    match requireWorkspaceRole members request.workspace_id request.user_id request.endpoint.minimumRole.value with
    | .ok membership => some (s,.admitted request membership)
    | .error error => some (s,.failed error)
  | .received _,.fails error => some (s,.failed error)
  | .admitted request membership,label => handle s request membership label
  | .running a,.step label => (Site.act deployment 0 s a label).map (Prod.map id .running)
  | _,_ => none

def returned (s : Stores) : Phase → List Returned
  | .answered rows => rows
  | .running (.upload (.uploaded upload document_id)) => [.document (upload.row document_id)]
  | .running (.reingest (.queued _)) => s.db.ingestion_jobs.getLast?.toList.map .job
  | .running (.turn (.saved _ _ g _)) => g.context_chunks.map .context
  | _ => []

end RagForge.Endpoints
