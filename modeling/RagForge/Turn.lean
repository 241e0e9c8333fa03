import RagForge.SparseSearch
import RagForge.ChatService

namespace RagForge.Turn
open RagForge ChatService

-- One chat turn among the other sessions, await by await, with the regions of
-- `stream_chat_turn` as its steps. The dense and the sparse search run side by
-- side.
inductive Phase where
  | requested (request : Request) (worker : Nat)
  | opened (request : Request) (worker : Nat) (conversation : Conversation) (history : List ChatTurn)
  | rewritten (request : Request) (worker : Nat) (conversation : Conversation) (query : Str)
  | searching (request : Request) (conversation : Conversation) (dense : Option (List VectorPoint)) (sparse : SparseSearch.Phase)
  | fused (request : Request) (conversation : Conversation) (retrieved : List RetrievedChunk)
  | fetched (request : Request) (conversation : Conversation) (candidates : List ContextChunk)
  | retrieved (request : Request) (conversation : Conversation) (context_chunks : List ContextChunk)
  | generated (request : Request) (conversation : Conversation) (g : Generation) (cited_indices : List Nat)
  | saved (request : Request) (conversation : Conversation) (g : Generation) (cited_indices : List Nat)
  | failed (error : Failure)

inductive Label where
  | open_ (conversation_id message_id : Uuid) (now : Nat)
  | rewrite (generate : List LLMMessage → Except Failure LLMResponse)
  | embed
  | dense (found : List VectorPoint)
  | sparse (label : SparseSearch.Label)
  | fuse
  | fetch
  | rerank (provider : List Str → Nat → Except Failure (List RerankResult))
  | generate (full_text_parts : List Str) (final_response : LLMResponse)
  | persist (message_id : Uuid) (now : Nat)
  | fails (error : Failure)

def never : Point → Option Failure := fun _ => none

-- The uuid4 values of the opening transaction.
def openingIds (request : Request) (conversation_id message_id : Uuid) : List Uuid :=
  match request.conversation_id with
  | some _ => [message_id]
  | none => [conversation_id,message_id]

def act (deployment : Deployment) (s : Stores) : Phase → Label → Option (Stores × Phase)
  | .requested request worker,.open_ conversation_id message_id now =>
    match openTurn never s.db request conversation_id message_id now with
    | .ok (db,conversation,history) =>
      (s.draw request.workspace_id (openingIds request conversation_id message_id)).map
        ({· with db := db},.opened request worker conversation history)
    | .error error => some (s,.failed error)
  | .opened request worker conversation history,.rewrite generate =>
    match rewriteQueryNode deployment.settings generate history request.user_message with
    | .ok query => some (s,.rewritten request worker conversation query)
    | .error error => some (s,.failed error)
  | .rewritten request worker conversation query,.embed =>
    let call : SparseSearch.Call :=
      ⟨worker,conversation.workspace_id,query,deployment.settings.RETRIEVAL_SPARSE_TOP_K⟩
    some (s,.searching request conversation none (.requested call))
  | .searching request conversation none sparse,.dense found =>
    if s.vectors.Answers conversation.workspace_id deployment.settings.RETRIEVAL_DENSE_TOP_K found then
      some (s,.searching request conversation (some found) sparse)
    else none
  | .searching request conversation dense sparse,.sparse label =>
    (SparseSearch.act deployment s sparse label).map fun out =>
      (out.1,.searching request conversation dense out.2)
  | .searching request conversation (some found) (.ranked _ _ _ results),.fuse =>
    match fuse found results deployment.settings.RETRIEVAL_FUSED_TOP_K with
    | some retrieved => some (s,.fused request conversation retrieved)
    | none => some (s,.failed ⟨false,"badly formed hexadecimal UUID string".toList⟩)
  | .fused request conversation retrieved,.fetch =>
    some (s,.fetched request conversation (hybridRetrieveNode s.db.toTables retrieved))
  | .fetched request conversation candidates,.rerank provider =>
    match rerankNode deployment.settings provider candidates with
    | .ok context_chunks => some (s,.retrieved request conversation context_chunks)
    | .error error => some (s,.failed error)
  | .retrieved request conversation context_chunks,.generate full_text_parts final_response =>
    let g : Generation := ⟨context_chunks,full_text_parts,final_response⟩
    match extractCitedIndices g.fullText context_chunks.length with
    | .ok cited_indices => some (s,.generated request conversation g cited_indices)
    | .error error => some (s,.failed error)
  | .generated request conversation g cited_indices,.persist message_id now =>
    match persistTurn never s.db conversation request.user_id message_id now g cited_indices with
    | .ok db => (s.draw conversation.workspace_id [message_id]).map
        ({· with db := db},.saved request conversation g cited_indices)
    | .error error => some (s,.failed error)
  | .requested _ _,.fails error => some (s,.failed error)
  | .opened _ _ _ _,.fails error => some (s,.failed error)
  | .rewritten _ _ _ _,.fails error => some (s,.failed error)
  | .searching _ _ _ _,.fails error => some (s,.failed error)
  | .fused _ _ _,.fails error => some (s,.failed error)
  | .fetched _ _ _,.fails error => some (s,.failed error)
  | .retrieved _ _ _,.fails error => some (s,.failed error)
  | .generated _ _ _ _,.fails error => some (s,.failed error)
  | _,_ => none

-- Everything a step of a turn can do.
inductive Change (deployment : Deployment) (s : Stores) : Phase → Stores → Phase → Prop where
  | open_ : openTurn never s.db request conversation_id message_id now = .ok (db,conversation,history) →
      s.draw request.workspace_id (openingIds request conversation_id message_id) = some after →
      Change deployment s (.requested request worker) {after with db := db} (.opened request worker conversation history)
  | rewrite : Change deployment s (.opened request worker conversation history) s (.rewritten request worker conversation query)
  | embed : Change deployment s (.rewritten request worker conversation query) s
      (.searching request conversation none (.requested ⟨worker,conversation.workspace_id,query,top_k⟩))
  | dense : s.vectors.Answers conversation.workspace_id top_k found →
      Change deployment s (.searching request conversation none sparse) s (.searching request conversation (some found) sparse)
  | sparse : SparseSearch.Change s sparse s' sparse' →
      Change deployment s (.searching request conversation dense sparse) s' (.searching request conversation dense sparse')
  | fuse : fuse found results top_k = some retrieved →
      Change deployment s (.searching request conversation (some found) (.ranked call version chunk_ids results)) s
        (.fused request conversation retrieved)
  | fetch : Change deployment s (.fused request conversation retrieved) s
      (.fetched request conversation (hybridRetrieveNode s.db.toTables retrieved))
  | rerank : rerankNode deployment.settings provider candidates = .ok context_chunks →
      Change deployment s (.fetched request conversation candidates) s (.retrieved request conversation context_chunks)
  | generate : extractCitedIndices g.fullText g.context_chunks.length = .ok cited_indices →
      Change deployment s (.retrieved request conversation g.context_chunks) s (.generated request conversation g cited_indices)
  | persist : persistTurn never s.db conversation request.user_id message_id now g cited_indices = .ok db →
      s.draw conversation.workspace_id [message_id] = some after →
      Change deployment s (.generated request conversation g cited_indices) {after with db := db}
        (.saved request conversation g cited_indices)
  | stop : Change deployment s phase s (.failed error)

theorem act_change (acted : act deployment s phase label = some (s',phase')) : Change deployment s phase s' phase' := by
  unfold act at acted
  split at acted
  · split at acted
    · rename_i opened
      obtain ⟨after,drawn,equal⟩ := Option.map_eq_some_iff.mp acted
      cases equal
      exact .open_ opened drawn
    · cases acted; exact .stop
  · split at acted
    · cases acted; exact .rewrite
    · cases acted; exact .stop
  · cases acted; exact .embed
  · split at acted
    · rename_i answers
      cases acted
      exact .dense answers
    · cases acted
  · obtain ⟨out,moved,equal⟩ := Option.map_eq_some_iff.mp acted
    cases equal
    exact .sparse (SparseSearch.act_change moved)
  · split at acted
    · rename_i fused
      cases acted
      exact .fuse fused
    · cases acted; exact .stop
  · cases acted; exact .fetch
  · split at acted
    · rename_i ranked
      cases acted
      exact .rerank ranked
    · cases acted; exact .stop
  · dsimp only at acted
    split at acted
    · rename_i extracted
      cases acted
      exact .generate extracted
    · cases acted; exact .stop
  · split at acted
    · rename_i persisted
      obtain ⟨after,drawn,equal⟩ := Option.map_eq_some_iff.mp acted
      cases equal
      exact .persist persisted drawn
    · cases acted; exact .stop
  all_goals first | (cases acted; exact .stop) | cases acted

end RagForge.Turn
