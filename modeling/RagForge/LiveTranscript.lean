import RagForge.ChatHook
import RagForge.Transcripts
import RagForge.Keyed

namespace RagForge.LiveTranscript
open RagForge.Transcripts (Chat Outcome Turned mine Quiet On)
open RagForge ChatService EventStream ChatHook Transition MessageContent Fallible Js

-- The labels of a turn in the page: the submission, then what the wire brings.
def rejection : Thrown → Rejection
  | .api _ _ message => .api message
  | _ => .other

def responseLabels (assistantId : Str) (streamed : Streamed) : List Label :=
  (streamed.events.filterMap readEvent).map (.event assistantId) ++
    [match streamed.thrown with
      | none => .ended assistantId
      | some thrown => .thrown assistantId (rejection thrown)]

-- One turn on both sides: what is typed, the ids the page draws, the turn the
-- server plays and the reads the network cuts its answer into.
structure Exchange where
  value : Str
  userId : Str
  assistantId : Str
  chat : Chat
  reads : List Bytes

def viewLabels (codec : JsonCodec) (e : Exchange) : List Label :=
  .submit e.value e.userId e.assistantId :: responseLabels e.assistantId (streamChat codec ⟨true,200,none,some e.reads,false⟩)

theorem streamChat_whole {codec : JsonCodec} {events : List Event} {reads : List Bytes}
    (plain : ∀ event ∈ events, Plain codec (serializeEvent event)) (whole : reads.flatten = sseStream codec events) :
    streamChat codec ⟨true,200,none,some reads,false⟩ = ⟨events.map serializeEvent,none⟩ := by
  have inside : reads.flatten <+: sseStream codec events := by simp [whole]
  obtain ⟨n,tail,bound,split,ends,yields⟩ := streamChat_received plain 200 none false inside
  have all := received_exactly plain inside bound split ends (Nat.le_refl events.length)
  rw [List.take_length,whole] at all
  rw [yields,List.take_of_length_le (all.mp List.prefix_rfl)]
  rfl

-- A completely delivered answer of an ordinary turn.
theorem viewLabels_whole {codec : JsonCodec} {e : Exchange} (texts : List Str)
    (plain : ∀ event ∈ texts.map Event.token ++ [.done message_id conversation_id context_chunks cited_indices],
      Plain codec (serializeEvent event))
    (whole : e.reads.flatten = sseStream codec (texts.map Event.token ++ [.done message_id conversation_id context_chunks cited_indices]))
    (short : context_chunks.length < 2 ^ 32) : viewLabels codec e = .submit e.value e.userId e.assistantId ::
      ((texts.map ChatStreamEvent.token ++ [ChatStreamEvent.done message_id.str conversation_id.str ⟨context_chunks,short⟩ cited_indices]).map
        (.event e.assistantId) ++ [.ended e.assistantId]) := by
  have tokens : (texts.map Event.token).filterMap received = texts.map ChatStreamEvent.token := by
    rw [List.filterMap_map]
    exact List.filterMap_eq_map' ▸ rfl
  have one : received (.done message_id conversation_id context_chunks cited_indices) =
      some (.done message_id.str conversation_id.str ⟨context_chunks,short⟩ cited_indices) := by
    rw [received,asArray,dif_pos short]
    rfl
  have read : readEvent ∘ serializeEvent = received := funext readEvent_serialize
  unfold viewLabels responseLabels
  rw [streamChat_whole plain whole,List.filterMap_map,read,List.filterMap_append,tokens,List.filterMap_cons_some one]
  rfl

theorem note_events (front : List Turn) (t : Turn) (events : List ChatStreamEvent) :
    (events.map (.event assistantId)).foldl note (front ++ [t]) = front ++ [{t with events := t.events ++ events}] := by
  induction events generalizing t with
  | nil => simp
  | cons event rest ih =>
    rw [List.map_cons,List.foldl_cons,note,amendLast_snoc,ih]
    simp

-- The turns of a schedule that goes on with a whole answer.
theorem turns_answered (labels : List Label) (events : List ChatStreamEvent) :
    turns (labels ++ .submit value userId assistantId :: (events.map (.event assistantId) ++ [.ended assistantId])) =
      turns labels ++ [⟨userId,assistantId,trim value,events,some .ended⟩] := by
  unfold turns
  rw [List.foldl_append,List.foldl_cons,List.foldl_append,note,note_events]
  simp [note]

theorem loaded_answered (labels : List Label) (events : List ChatStreamEvent) :
    loaded (labels ++ .submit value userId assistantId :: (events.map (.event assistantId) ++ [.ended assistantId])) = loaded labels := by
  have silent : loaded (.submit value userId assistantId :: (events.map (.event assistantId) ++ [.ended assistantId])) = [] := by
    simp [loaded,List.flatMap_map]
  rw [loaded,List.flatMap_append]
  exact (congrArg (loaded labels ++ ·) silent).trans (List.append_nil _)

-- The bubble of an answered turn.
theorem bubble_done (t : Turn) (texts : List Str)
    (events : t.events = texts.map ChatStreamEvent.token ++ [.done message_id conversation_id context_chunks cited_indices]) :
    t.bubble = ⟨message_id,.assistant,texts.flatten,
      some (CitationMarkers.citationsByIndex ⟨context_chunks,cited_indices⟩),false⟩ := by
  unfold Turn.bubble
  rw [events,List.foldl_append]
  have tokens := bubble_tokens (blankBubble t.assistantId) texts
  change (texts.map ChatStreamEvent.token).foldl (receive t.assistantId) _ = _ at tokens
  rw [tokens]
  simp [receive,blankBubble]

-- What a citation shows: the chunk row of a key and the name of its document.
def source (t : Tables) (key : Uuid) : Option (DocumentChunk × Str) :=
  (t.document_chunks.find? (·.id = key)).bind fun chunk =>
    (t.documents.find? (·.id = chunk.document_id)).map fun document => (chunk,document.original_filename)

def pageRead (t : Tables) (row : MessageCitation) : Option (CitationRead Str) := (t.citationRead row).map CitationRead.parsed

theorem pageRead_source (t : Tables) (row : MessageCitation) : pageRead t row =
    (source t row.chunk_id).map fun pair =>
      ⟨row.marker_index,pair.1.document_id.str,pair.2,pair.1.id.str,pair.1.content,pair.1.page_number,row.relevance_score⟩ := by
  unfold pageRead Tables.citationRead source
  cases chunk_found : t.document_chunks.find? (·.id = row.chunk_id) with
  | none => rfl
  | some chunk =>
    have key : chunk.id = row.chunk_id := by simpa using List.find?_some chunk_found
    cases document_found : t.documents.find? (·.id = chunk.document_id) with
    | none => simp [document_found]
    | some document => simp [document_found,CitationRead.parsed,key]

def citationsOf (t : Tables) (message : Message) : List (CitationRead Str) := (t.citationReads message).map CitationRead.parsed

theorem citationsOf_rows (t : Tables) (message : Message) : citationsOf t message =
    (t.message_citations.filter (·.message_id = message.id)).filterMap (pageRead t) :=
  List.map_filterMap

-- `MessageRead`; the relation of the citations has no order.
structure Reads (t : Tables) (message : Message) (answer : MessageRead) : Prop where
  id : answer.id = message.id.str
  role : answer.role = message.role
  content : answer.content = message.content
  citations : answer.citations.Perm (citationsOf t message)

-- `get_conversation_messages`: what it may answer with.
structure Reloads (t : Tables) (workspace_id conversation_id : Uuid) (answer : List MessageRead) : Prop where
  conversation : ∃ c ∈ t.conversations, c.id = conversation_id ∧ c.workspace_id = workspace_id
  ordered : ∃ rows : List Message, rows.Perm (t.messages.filter (·.conversation_id = conversation_id)) ∧
    rows.Pairwise (fun a b => a.created_at ≤ b.created_at) ∧ List.Forall₂ (Reads t) rows answer

-- The chunk a bubble shows at a marker.
def cited (m : ChatUIMessage) (marker : Nat) : Option ContextChunk := m.citationsByIndex.bind (·.get (some marker))

-- A bubble shows a stored message: the id of an answer, and of every message
-- its speaker, its text and the chunk behind each marker.
structure Pictures (t : Tables) (message : Message) (bubble : ChatUIMessage) : Prop where
  id : message.role = .assistant → bubble.id = message.id.str
  role : bubble.role = if message.role = .assistant then .assistant else .user
  content : bubble.content = message.content
  settled : bubble.isStreaming = false
  markers : ((citationsOf t message).map (·.marker_index)).Nodup
  cited : ∀ marker, cited bubble marker = ((citationsOf t message).find? (·.marker_index = marker)).map preview

-- Two bubbles no reader can tell apart, but for the id of a question.
structure Agree (live reloaded : ChatUIMessage) : Prop where
  id : live.role = .assistant → live.id = reloaded.id
  role : live.role = reloaded.role
  content : live.content = reloaded.content
  streaming : live.isStreaming = reloaded.isStreaming
  cited : ∀ marker, cited live marker = cited reloaded marker

theorem get_set (map : CitationMap γ) (key marker : Nat) (chunk : γ) :
    (map.set key chunk).get (some marker) = if marker = key then some chunk else map.get (some marker) := by
  have others : (map.filter (·.1 ≠ key)).find? (·.1 = marker) = if marker = key then none else map.find? (·.1 = marker) := by
    induction map with
    | nil => simp
    | cons pair rest ih =>
      by_cases kept : pair.1 = key <;> by_cases here : pair.1 = marker <;> simp_all
  simp only [CitationMap.set,CitationMap.get,Option.bind_some,List.find?_append,others]
  split
  · rename_i same
    simp [same]
  · rename_i other
    simp [Ne.symm other]

-- A map built entry by entry under distinct keys.
theorem get_fold {key : α → Nat} (value : α → γ) {xs : List α} (distinct : (xs.map key).Nodup) (map : CitationMap γ) (marker : Nat) :
    (xs.foldl (fun map x => map.set (key x) (value x)) map).get (some marker) =
      ((xs.find? (key · = marker)).map value).or (map.get (some marker)) := by
  induction xs generalizing map with
  | nil => rfl
  | cons x rest ih =>
    obtain ⟨fresh,later⟩ := List.nodup_cons.mp distinct
    rw [List.foldl_cons,ih later,get_set]
    by_cases here : key x = marker
    · subst here
      have absent : rest.find? (key · = key x) = none :=
        List.find?_eq_none.mpr fun y member => by
          simpa using fun same : key y = key x => fresh (same ▸ List.mem_map_of_mem member)
      simp [absent]
    · rw [List.find?_cons_of_neg (by simpa using here),if_neg (Ne.symm here)]

-- What the history effect shows of a stored message pictures it.
theorem reads_pictures (reads : Reads t message answer) (distinct : ((citationsOf t message).map (·.marker_index)).Nodup) :
    Pictures t message (historyMessage answer) where
  id := fun _ => reads.id
  role := by rw [historyMessage,reads.role]
  content := reads.content
  settled := rfl
  markers := distinct
  cited := by
    intro marker
    have own := (reads.citations.map (·.marker_index)).nodup_iff.mpr distinct
    rw [← Keyed.find_perm reads.citations own]
    unfold cited historyMessage citationsByIndexFromMessage
    cases none_ : answer.citations with
    | nil => rfl
    | cons c rest =>
      have whole := get_fold preview own [] marker
      rw [none_] at whole
      simpa [CitationMap.get] using whole

theorem pictures_agree (first : Pictures t message live) (second : Pictures t message reloaded) : Agree live reloaded where
  id := by
    intro answer
    have assistant : message.role = .assistant := by
      by_contra other
      rw [first.role,if_neg other] at answer
      cases answer
    exact (first.id assistant).trans (second.id assistant).symm
  role := first.role.trans second.role.symm
  content := first.content.trans second.content.symm
  streaming := first.settled.trans second.settled.symm
  cited := fun marker => (first.cited marker).trans (second.cited marker).symm

-- The answer of a turn that ends in `done`.
structure Answered (world : World) (db : Database) (request : Request) (played : Played) (conversation_id : Uuid) (texts : List Str)
    (g : Generation) (cited_indices : List Nat) : Prop where
  opened : ∃ first conversation history, conversation.id = conversation_id ∧
    openTurn world.fails db request world.conversation_id world.user_message_id world.opened_at = .ok (first,conversation,history) ∧
    generation world (world.before_fetch.apply first) history request.user_message = (texts,.ok g) ∧
    played.before = world.before_persist.apply (world.before_fetch.apply first) ∧
    persistTurn world.fails played.before conversation request.user_id world.assistant_message_id world.closed_at g cited_indices =
      .ok played.final
  extracted : extractCitedIndices g.fullText g.context_chunks.length = .ok cited_indices
  events : played.events = texts.map Event.token ++ [.done world.assistant_message_id conversation_id g.context_chunks cited_indices]

theorem answered_of_done {world : World} {db : Database} {request : Request}
    (last : (streamChatTurn world db request).events.getLast? = some (.done message_id conversation_id context_chunks cited_indices)) :
    ∃ texts g, Answered world db request (streamChatTurn world db request) conversation_id texts g cited_indices := by
  generalize turn : streamChatTurn world db request = out at last ⊢
  unfold streamChatTurn at turn
  split at turn
  · subst turn
    cases last
  · rename_i first conversation history opened
    dsimp only at turn
    split at turn
    · subst turn
      simp at last
    · rename_i texts g generated
      obtain ⟨_,before,ended⟩ := ChatTurns.finishTurn_cases turn
      rcases ended with ⟨_,unsaved⟩ | ⟨indices,extracted,persisted,events⟩
      · exact absurd last (unsaved _ _ _ _)
      · rw [events,List.getLast?_append_of_ne_nil _ (List.cons_ne_nil _ _)] at last
        cases Option.some.inj last
        exact ⟨texts,g,⟨_,_,_,rfl,opened,generated,before,before ▸ persisted⟩,extracted,events⟩

-- Every stored chunk has a document, so the join finds the row `source` finds.
theorem selectChunks_source {t : Tables} (keys : t.ForeignKeys) (inside : key ∈ chunk_ids) :
    (selectChunks t chunk_ids).find? (·.1.id = key) = source t key := by
  have parents := keys.chunk_document
  unfold selectChunks source
  generalize t.document_chunks = rows at parents ⊢
  induction rows with
  | nil => rfl
  | cons chunk rest ih =>
    obtain ⟨⟨document,stored,parent⟩,later⟩ := List.forall_mem_cons.mp parents
    obtain ⟨found,named⟩ := Option.isSome_iff_exists.mp
      ((List.find?_isSome (p := fun d : Document => decide (d.id = chunk.document_id))).mpr ⟨document,stored,decide_eq_true parent⟩)
    by_cases same : chunk.id = key
    · subst same
      simp [inside,named]
    · by_cases listed : chunk.id ∈ chunk_ids <;> simp [listed,named,same,ih later]

-- A chunk of the context shows what `source` finds under its key.
def Sourced (t : Tables) (c : ContextChunk) : Prop :=
  ∃ key pair, source t key = some pair ∧ c.chunk_id = key.str ∧ pair.1.id = key ∧ c.document_id = pair.1.document_id.str ∧
    c.document_filename = pair.2 ∧ c.content = pair.1.content ∧ c.page_number = pair.1.page_number

theorem retrieved_sourced {t : Tables} (keys : t.ForeignKeys) (member : c ∈ hybridRetrieveNode t retrieved) : Sourced t c := by
  obtain ⟨r,present,built⟩ := List.mem_filterMap.mp member
  obtain ⟨pair,found,rfl⟩ := Option.map_eq_some_iff.mp built
  have same : pair.1.id = r.chunk_id := by simpa using List.find?_some found
  rw [selectChunks_source keys (List.mem_map_of_mem present)] at found
  exact ⟨r.chunk_id,pair,found,congrArg Uuid.str same,same,rfl,rfl,rfl,rfl⟩

theorem reranked_sourced {t : Tables} (sourced : ∀ c ∈ candidates, Sourced t c)
    (ranked : rerankNode settings rerank candidates = .ok chunks) (member : c ∈ chunks) : Sourced t c := by
  unfold rerankNode at ranked
  split at ranked
  · cases ranked; cases member
  · obtain ⟨results,_,rest⟩ := bind_ok.mp ranked
    split at rest
    · rename_i final built
      cases rest
      obtain ⟨r,_,here⟩ := mem_of_mapM built member
      obtain ⟨original,found,rfl⟩ := Option.map_eq_some_iff.mp here
      exact sourced original (getItem_mem found)
    · cases rest

theorem generation_sourced {texts : List Str} (generated : generation world db history user_message = (texts,.ok g))
    (member : c ∈ g.context_chunks) : Sourced db.toTables c := by
  unfold generation at generated
  split at generated
  · cases generated
  · rename_i query context_chunks retrieved
    obtain ⟨_,_,rest⟩ := bind_ok.mp retrieved
    obtain ⟨_,_,rest⟩ := bind_ok.mp rest
    obtain ⟨_,_,rest⟩ := bind_ok.mp rest
    obtain ⟨_,ranked,last⟩ := bind_ok.mp rest
    cases last
    have sourced : ∀ c ∈ context_chunks, Sourced db.toTables c :=
      fun c member => reranked_sourced (fun _ there => retrieved_sourced db.keys there) ranked member
    dsimp only at generated
    split at generated
    · cases generated
    · split at generated
      · cases generated
      · split at generated
        · cases generated
        · cases generated
          exact sourced c member

theorem citation_score (built : citation message_id context_chunks idx = .ok row)
    (found : getItem context_chunks ((idx : Int) - 1) = some chunk) : row.relevance_score = chunk.relevance_score := by
  unfold citation at built
  rw [found] at built
  dsimp only at built
  split at built
  · cases built
  · cases built
    rfl

-- The citations stored for an answer, as the page reads them back, are the
-- chunks at the cited positions.
theorem citations_read {t : Tables} (sourced : ∀ c ∈ context_chunks, Sourced t c)
    (built : List.Forall₂ (fun idx row => citation message_id context_chunks idx = .ok row) cited_indices rows)
    (low : ∀ idx ∈ cited_indices, 1 ≤ idx) :
    List.Forall₂ (fun idx read => read.marker_index = idx ∧ context_chunks[idx - 1]? = some (preview read)) cited_indices
      (rows.filterMap (pageRead t)) := by
  induction built with
  | nil => exact .nil
  | @cons idx row indices rows one _ ih =>
    obtain ⟨one_le,later⟩ := List.forall_mem_cons.mp low
    obtain ⟨_,marker,chunk,found,parsed⟩ := citation_parts one
    have there := ChatTurns.getItem_pred one_le found
    obtain ⟨key,pair,shown,named,own,document,filename,content,page⟩ := sourced chunk (List.mem_of_getElem? there)
    rw [named,Uuid.parse_str] at parsed
    cases Option.some.inj parsed
    have score := citation_score one found
    have read : pageRead t row =
        some ⟨idx,chunk.document_id,chunk.document_filename,chunk.chunk_id,chunk.content,chunk.page_number,chunk.relevance_score⟩ := by
      rw [pageRead_source,shown,Option.map_some,marker,document,filename,content,page,score,named,own]
    rw [List.filterMap_cons_some read]
    exact .cons ⟨rfl,there⟩ (ih later)

theorem citationsByIndex_fold (event : CitationMarkers.DoneEvent γ) : CitationMarkers.citationsByIndex event =
    event.cited_indices.foldl (fun (map : CitationMap γ) (idx : Nat) => (event.context_chunks.get ((idx : Int) - 1)).elim map (map.set idx)) [] := by
  unfold CitationMarkers.citationsByIndex
  congr 1
  funext map idx
  cases event.context_chunks.get ((idx : Int) - 1) <;> rfl

-- The map `sendMessage` builds is the one the history effect builds.
theorem live_fold (array : JsArray ContextChunk) (map : CitationMap ContextChunk)
    (related : List.Forall₂ (fun idx read => read.marker_index = idx ∧ array.items[idx - 1]? = some (preview read)) indices reads)
    (low : ∀ idx ∈ indices, 1 ≤ idx) :
    indices.foldl (fun map (idx : Nat) => (array.get ((idx : Int) - 1)).elim map (map.set idx)) map =
      reads.foldl (fun map c => map.set c.marker_index (preview c)) map := by
  induction related generalizing map with
  | nil => rfl
  | @cons idx read indices reads here _ ih =>
    obtain ⟨one_le,later⟩ := List.forall_mem_cons.mp low
    have at_ : array.get ((idx : Int) - 1) = some (preview read) := by
      rw [JsArray.get,if_pos (by omega),show ((idx : Int) - 1).toNat = idx - 1 by omega]
      exact here.2
    rw [List.foldl_cons,List.foldl_cons,at_,← here.1]
    exact ih _ later

theorem markers_related {P : Nat → CitationRead Str → Prop}
    (related : List.Forall₂ (fun idx (read : CitationRead Str) => read.marker_index = idx ∧ P idx read) indices reads) :
    reads.map (·.marker_index) = indices := by
  induction related with
  | nil => rfl
  | cons here _ ih => rw [List.map_cons,here.1,ih]

-- The bubble `done` leaves pictures the stored answer.
theorem answer_pictures {t : Tables} {message : Message} {texts : List Str} (short : context_chunks.length < 2 ^ 32)
    (role : message.role = .assistant) (content : message.content = texts.flatten)
    (sourced : ∀ c ∈ context_chunks, Sourced t c)
    (extracted : extractCitedIndices text context_chunks.length = .ok cited_indices)
    (built : List.Forall₂ (fun idx row => citation message.id context_chunks idx = .ok row) cited_indices rows)
    (own : t.message_citations.filter (·.message_id = message.id) = rows) :
    Pictures t message ⟨message.id.str,.assistant,texts.flatten,
      some (CitationMarkers.citationsByIndex ⟨⟨context_chunks,short⟩,cited_indices⟩),false⟩ := by
  obtain ⟨distinct,bounds⟩ := extractCitedIndices_bounds extracted
  have low : ∀ idx ∈ cited_indices, 1 ≤ idx := fun idx member => (bounds idx member).1
  have related := citations_read sourced built low
  have reads : citationsOf t message = rows.filterMap (pageRead t) := by rw [citationsOf_rows,own]
  rw [← reads] at related
  have markers := markers_related related
  have apart : ((citationsOf t message).map (·.marker_index)).Nodup := markers ▸ distinct
  refine ⟨fun _ => rfl,by rw [role]; rfl,content.symm,rfl,apart,fun marker => ?_⟩
  have live : CitationMarkers.citationsByIndex ⟨⟨context_chunks,short⟩,cited_indices⟩ = citationsByIndexFromMessage (citationsOf t message) := by
    rw [citationsByIndex_fold]
    exact live_fold ⟨context_chunks,short⟩ [] related low
  unfold cited
  rw [Option.bind_some,live,citationsByIndexFromMessage,get_fold _ apart]
  simp [CitationMap.get]

-- What other requests leave alone: the messages of the conversation with their
-- citations, and whatever a citation can show.
structure Undisturbed (conversation_id : Uuid) (meanwhile : Meanwhile) : Prop where
  messages : ∀ db, mine (meanwhile.apply db) conversation_id = mine db conversation_id
  citations : ∀ db, ∀ message ∈ mine db conversation_id, (meanwhile.apply db).message_citations.filter (·.message_id = message.id) =
    db.message_citations.filter (·.message_id = message.id)
  sources : ∀ db key pair, source db.toTables key = some pair → source (meanwhile.apply db).toTables key = some pair

structure Joint where
  server : Database × List Outcome
  view : View

-- One turn on both sides, its answer delivered whole.
structure Exchanged (codec : JsonCodec) (workspaceId : Str) (conversation_id : Uuid) (s : Joint) (e : Exchange) (next : Joint) : Prop where
  turned : Turned conversation_id s.server e.chat next.server
  undisturbed : ∀ meanwhile ∈ [e.chat.before_open,e.chat.world.before_fetch,e.chat.world.before_persist],
    Undisturbed conversation_id meanwhile
  question_id : ∀ m ∈ (e.chat.before_open.apply s.server.1).messages, m.id ≠ e.chat.world.user_message_id
  answer_id : ∀ m ∈ (e.chat.played s.server.1).before.messages, m.id ≠ e.chat.world.assistant_message_id
  -- an answer with text is streamed as text
  spoken : ∀ messages final, (e.chat.world.stream messages).final_response = .ok final →
    (e.chat.world.stream messages).text_stream.flatten = [] → final.content = []
  done : ∃ message_id context_chunks cited_indices, context_chunks.length < 2 ^ 32 ∧
    (e.chat.played s.server.1).events.getLast? = some (.done message_id conversation_id context_chunks cited_indices)
  plain : ∀ event ∈ (e.chat.played s.server.1).events, Plain codec (serializeEvent event)
  wire : e.reads.flatten = sseStream codec (e.chat.played s.server.1).events
  shown : Runs (Step workspaceId) s.view (viewLabels codec e) next.view
  posted : next.view.posted = s.view.posted ++ [⟨e.chat.payload.conversation_id.map Uuid.str,e.chat.payload.message⟩]

-- A stored citation always has something to show.
theorem source_exists {t : Tables} (keys : t.ForeignKeys) (member : row ∈ t.message_citations) : ∃ pair, source t row.chunk_id = some pair := by
  obtain ⟨chunk,stored,same⟩ := keys.citation_chunk row member
  obtain ⟨found,here⟩ := Option.isSome_iff_exists.mp
    ((List.find?_isSome (p := fun c : DocumentChunk => decide (c.id = row.chunk_id))).mpr ⟨chunk,stored,decide_eq_true same⟩)
  obtain ⟨document,there,parent⟩ := keys.chunk_document found (List.mem_of_find?_eq_some here)
  obtain ⟨named,this⟩ := Option.isSome_iff_exists.mp
    ((List.find?_isSome (p := fun d : Document => decide (d.id = found.document_id))).mpr ⟨document,there,decide_eq_true parent⟩)
  exact ⟨(found,named.original_filename),by rw [source,here,Option.bind_some,this]; rfl⟩

theorem citationsOf_kept {before after : Tables} (keys : before.ForeignKeys)
    (rows : after.message_citations.filter (·.message_id = message.id) = before.message_citations.filter (·.message_id = message.id))
    (sources : ∀ key pair, source before key = some pair → source after key = some pair) :
    citationsOf after message = citationsOf before message := by
  rw [citationsOf_rows,citationsOf_rows,rows]
  apply List.filterMap_congr
  intro row member
  obtain ⟨pair,shown⟩ := source_exists keys (List.mem_filter.mp member).1
  rw [pageRead_source,pageRead_source,shown,sources _ _ shown]

-- What a completed turn adds to the database, seen from its conversation.
structure Grown (conversation_id : Uuid) (before after : Database) (question answer : Message) (rows : List MessageCitation) : Prop where
  messages : mine after conversation_id = mine before conversation_id ++ [question,answer]
  old : ∀ message ∈ mine before conversation_id, after.message_citations.filter (·.message_id = message.id) =
    before.message_citations.filter (·.message_id = message.id)
  asked : after.message_citations.filter (·.message_id = question.id) = []
  answered : after.message_citations.filter (·.message_id = answer.id) = rows
  sources : ∀ key pair, source before.toTables key = some pair → source after.toTables key = some pair

theorem filter_other {rows : List MessageCitation} (own : ∀ row ∈ rows, row.message_id = key) (other : key ≠ wanted) :
    rows.filter (·.message_id = wanted) = [] :=
  List.filter_eq_nil_iff.mpr fun row member => by simpa [own row member] using other

theorem filter_unknown {t : Tables} (keys : t.ForeignKeys) (fresh : ∀ m ∈ t.messages, m.id ≠ wanted) :
    t.message_citations.filter (·.message_id = wanted) = [] := by
  apply List.filter_eq_nil_iff.mpr
  intro row member same
  obtain ⟨m,stored,parent⟩ := keys.citation_message row member
  exact fresh m stored (parent.trans (of_decide_eq_true same))

theorem source_congr {t t' : Tables} (chunks : t'.document_chunks = t.document_chunks) (documents : t'.documents = t.documents)
    (key : Uuid) : source t' key = source t key := by
  unfold source
  rw [chunks,documents]

theorem turn_grown {chat : Chat} {db : Database} {texts : List Str} (on : On conversation_id db chat)
    (undisturbed : ∀ meanwhile ∈ [chat.before_open,chat.world.before_fetch,chat.world.before_persist], Undisturbed conversation_id meanwhile)
    (question_id : ∀ m ∈ (chat.before_open.apply db).messages, m.id ≠ chat.world.user_message_id)
    (answer_id : ∀ m ∈ (chat.played db).before.messages, m.id ≠ chat.world.assistant_message_id)
    (answered : Answered chat.world (chat.before_open.apply db) chat.request (chat.played db) conversation_id texts g cited_indices) :
    ∃ rows, Grown conversation_id db (chat.played db).final
        (userMessage chat.request conversation_id chat.world.user_message_id chat.world.opened_at)
        (assistantMessage g conversation_id chat.world.assistant_message_id chat.world.closed_at) rows ∧
      List.Forall₂ (fun idx row => citation chat.world.assistant_message_id g.context_chunks idx = .ok row) cited_indices rows ∧
      ∀ c ∈ g.context_chunks, Sourced (chat.played db).final.toTables c := by
  simp only [List.forall_mem_cons,List.not_mem_nil,false_imp_iff,implies_true,and_true] at undisturbed
  obtain ⟨before_open,before_fetch,before_persist⟩ := undisturbed
  obtain ⟨first,conversation,history,_,opened,generated,before,persisted⟩ := answered.opened
  obtain ⟨same,_,asked⟩ := Transcripts.opens_mine on opened
  obtain ⟨_,_,_,_,opening⟩ := openTurn_parts opened
  obtain ⟨rows,built,closing⟩ := persistTurn_parts persisted
  have stamped : ∀ row ∈ rows, row.message_id = chat.world.assistant_message_id := by
    intro row member
    obtain ⟨idx,_,one⟩ := forall₂_right built member
    exact (citation_parts one).1
  have answer := Transcripts.mine_append conversation_id _ (congrArg Tables.messages closing :) (List.forall_mem_singleton.mpr same)
  change _ = mine _ _ ++ _ at answer
  have later : mine (chat.played db).before conversation_id = mine first conversation_id := by
    rw [before,before_persist.messages,before_fetch.messages]
  have openedCitations : first.message_citations = (chat.before_open.apply db).message_citations :=
    (congrArg Tables.message_citations opening :)
  have closedCitations : (chat.played db).final.message_citations = (chat.played db).before.message_citations ++ rows :=
    congrArg Tables.message_citations closing
  -- from the opening commit on, only the last transaction cites, and for its own answer
  have kept : ∀ message ∈ mine first conversation_id,
      (chat.played db).final.message_citations.filter (·.message_id = message.id) =
        first.message_citations.filter (·.message_id = message.id) := by
    intro message member
    have there : message ∈ (chat.played db).before.messages := by
      rw [← later] at member
      exact (List.mem_filter.mp member).1
    have other := (answer_id message there).symm
    rw [closedCitations,List.filter_append,filter_other stamped other,List.append_nil,before,before_persist.citations,
      before_fetch.citations _ _ member]
    rw [before_fetch.messages]
    exact member
  have stays : ∀ key pair, source first.toTables key = some pair → source (chat.played db).final.toTables key = some pair := by
    intro key pair shown
    rw [source_congr (congrArg Tables.document_chunks closing) (congrArg Tables.documents closing),before]
    exact before_persist.sources _ key pair (before_fetch.sources _ key pair shown)
  have opens : ∀ key, source first.toTables key = source (chat.before_open.apply db).toTables key :=
    source_congr (congrArg Tables.document_chunks opening :) (congrArg Tables.documents opening :)
  refine ⟨rows,⟨?_,?_,?_,?_,?_⟩,built,?_⟩
  · rw [answer,later,asked,before_open.messages,List.append_assoc,same]
    rfl
  · intro message member
    have inside : message ∈ mine first conversation_id := by
      rw [asked,before_open.messages]
      exact List.mem_append_left _ member
    rw [kept message inside,openedCitations,before_open.citations db message member]
  · have inside : userMessage chat.request conversation_id chat.world.user_message_id chat.world.opened_at ∈ mine first conversation_id := by
      rw [asked]
      exact List.mem_append_right _ (List.mem_singleton.mpr rfl)
    rw [kept _ inside,openedCitations]
    exact filter_unknown (chat.before_open.apply db).keys question_id
  · rw [closedCitations,List.filter_append]
    have none_ := filter_unknown (chat.played db).before.keys answer_id
    have all : rows.filter (·.message_id = chat.world.assistant_message_id) = rows :=
      List.filter_eq_self.mpr fun row member => decide_eq_true (stamped row member)
    change _ ++ rows.filter (·.message_id = chat.world.assistant_message_id) = rows
    rw [all]
    exact (congrArg (· ++ rows) none_).trans (List.nil_append rows)
  · intro key pair shown
    exact stays key pair ((opens key).trans (before_open.sources db key pair shown))
  · intro c member
    obtain ⟨key,pair,shown,rest⟩ := generation_sourced generated member
    refine ⟨key,pair,?_,rest⟩
    rw [source_congr (congrArg Tables.document_chunks closing) (congrArg Tables.documents closing),before]
    exact before_persist.sources _ key pair shown

-- The page shows what the database holds of the conversation.
structure Synced (workspaceId : Str) (initial : Option Str) (conversation_id : Uuid) (labels : List Label) (s : Joint) : Prop where
  path : Runs (Step workspaceId) (mount initial) labels s.view
  ordered : (mine s.server.1 conversation_id).Pairwise fun a b => a.created_at < b.created_at
  pictured : List.Forall₂ (Pictures s.server.1.toTables) (mine s.server.1 conversation_id) s.view.messages

theorem Pictures.kept {before after : Tables} (pictures : Pictures before message bubble)
    (same : citationsOf after message = citationsOf before message) : Pictures after message bubble where
  id := pictures.id
  role := pictures.role
  content := pictures.content
  settled := pictures.settled
  markers := by
    rw [same]
    exact pictures.markers
  cited := by
    rw [same]
    exact pictures.cited

theorem Apart.earlier (apart : Apart (labels ++ later)) : Apart labels := by
  unfold Apart drawn served at *
  simp only [List.flatMap_append] at apart
  exact apart.sublist ((List.sublist_append_left _ _).append (List.sublist_append_left _ _))

-- What the page gains by a whole answer, and what it has asked for.
theorem view_grows {v next : View} {codec : JsonCodec} {e : Exchange} {texts : List Str} (short : context_chunks.length < 2 ^ 32)
    (apart : Apart (labels ++ viewLabels codec e)) (path : Runs (Step workspaceId) (mount initial) labels v)
    (shown : Runs (Step workspaceId) v (viewLabels codec e) next)
    (plain : ∀ event ∈ texts.map Event.token ++ [.done message_id conversation_id context_chunks cited_indices],
      Plain codec (serializeEvent event))
    (whole : e.reads.flatten = sseStream codec (texts.map Event.token ++ [.done message_id conversation_id context_chunks cited_indices])) :
    next.messages = v.messages ++ [userBubble e.userId (trim e.value),⟨message_id.str,.assistant,texts.flatten,
      some (CitationMarkers.citationsByIndex ⟨⟨context_chunks,short⟩,cited_indices⟩),false⟩] ∧
      ∃ conversationId, next.posted = v.posted ++ [⟨conversationId,trim e.value⟩] := by
  have before := runs_exact (Apart.earlier apart) path
  have after := runs_exact apart (path.append shown)
  have labelled := viewLabels_whole texts plain whole short
  have turned := after.messages
  have posted := after.posted
  rw [labelled,turns_answered] at posted
  rw [labelled,turns_answered,loaded_answered,List.flatMap_append,← List.append_assoc,← before.messages,List.flatMap_singleton] at turned
  refine ⟨?_,_,posted.trans (by rw [thread_snoc,before.posted])⟩
  rw [turned,Turn.shown]
  simp only [Option.elim_some,Ending.keeps]
  rw [bubble_done _ texts rfl]

theorem question_pictures {t : Tables} {message : Message} (role : message.role = .user) (uncited : citationsOf t message = [])
    (content : message.content = text) (userId : Str) : Pictures t message (userBubble userId text) := by
  refine ⟨fun answer => ?_,?_,content.symm,rfl,?_,fun marker => ?_⟩
  · rw [role] at answer
    cases answer
  · rw [role]
    rfl
  · rw [uncited]
    exact List.nodup_nil
  · rw [uncited]
    rfl

-- An answer with text is the text that was streamed.
theorem spoken_text {world : World} {texts : List Str}
    (spoken : ∀ messages final, (world.stream messages).final_response = .ok final →
      (world.stream messages).text_stream.flatten = [] → final.content = [])
    (generated : generation world db history user_message = (texts,.ok g)) : g.fullText = texts.flatten := by
  obtain ⟨parts,messages,streamed,answered⟩ := ChatTurns.generation_parts generated
  unfold Generation.fullText
  rw [parts]
  split
  · rename_i empty
    rw [List.isEmpty_iff] at empty
    rw [empty,spoken messages _ answered (by rw [streamed,empty])]
  · rfl

theorem synced_step {codec : JsonCodec} (synced : Synced workspaceId initial conversation_id labels s)
    (apart : Apart (labels ++ viewLabels codec e)) (exchanged : Exchanged codec workspaceId conversation_id s e next) :
    Synced workspaceId initial conversation_id (labels ++ viewLabels codec e) next := by
  obtain ⟨message_id,context_chunks,cited_indices,short,last⟩ := exchanged.done
  obtain ⟨texts,g,answered⟩ := answered_of_done last
  have events := answered.events
  change (e.chat.played s.server.1).events = _ at events
  change (e.chat.played s.server.1).events.getLast? = _ at last
  rw [events,List.getLast?_append_of_ne_nil _ (List.cons_ne_nil _ _)] at last
  cases Option.some.inj last
  have plain := exchanged.plain
  have wire := exchanged.wire
  rw [events] at plain wire
  obtain ⟨messages,conversationId,asked⟩ := view_grows short apart synced.path exchanged.shown plain wire
  have posted : e.chat.payload.message = trim e.value := by
    have same := exchanged.posted.symm.trans asked
    simp only [List.append_cancel_left_eq,List.cons.injEq,and_true,ChatPayload.mk.injEq] at same
    exact same.2
  obtain ⟨rows,grown,built,sourced⟩ := turn_grown exchanged.turned.on exchanged.undisturbed exchanged.question_id exchanged.answer_id answered
  obtain ⟨_,_,_,_,_,generated,_,_⟩ := answered.opened
  refine ⟨synced.path.append exchanged.shown,?_,?_⟩
  · rw [exchanged.turned.final,grown.messages]
    refine List.pairwise_append.mpr ⟨synced.ordered,List.pairwise_pair.mpr exchanged.turned.closed,?_⟩
    intro old member new added
    have opened := exchanged.turned.opened old member
    rcases List.mem_pair.mp added with rfl | rfl
    · exact opened
    · exact Nat.lt_trans opened exchanged.turned.closed
  · rw [exchanged.turned.final,grown.messages,messages]
    refine List.rel_append ?_ (.cons ?_ (.cons ?_ .nil))
    · have all := (List.forall₂_and_left _ _).mpr ⟨fun message (member : message ∈ mine s.server.1 conversation_id) => member,synced.pictured⟩
      exact all.imp fun message bubble both => both.2.kept (citationsOf_kept s.server.1.keys (grown.old message both.1) grown.sources)
    · refine question_pictures rfl ?_ posted e.userId
      rw [citationsOf_rows,grown.asked]
      rfl
    · exact answer_pictures short rfl (spoken_text exchanged.spoken generated) sourced answered.extracted built grown.answered

-- The page opens on a new chat, or on a conversation whose history has loaded.
inductive Begins (workspaceId : Str) (workspace_id conversation_id : Uuid) (db : Database) : Option Str → List Label → View → Prop where
  | new : mine db conversation_id = [] → Begins workspaceId workspace_id conversation_id db none [] (mount none)
  | resumed : (mine db conversation_id).Pairwise (fun a b => a.created_at < b.created_at) →
      (∀ message ∈ mine db conversation_id, ((citationsOf db.toTables message).map (·.marker_index)).Nodup) →
      Reloads db.toTables workspace_id conversation_id history →
      Runs (Step workspaceId) (mount (some conversation_id.str)) [.historyLoaded history] v →
      Begins workspaceId workspace_id conversation_id db (some conversation_id.str) [.historyLoaded history] v

theorem reloads_pictures {db : Database} (ordered : (mine db conversation_id).Pairwise fun a b => a.created_at < b.created_at)
    (markers : ∀ message ∈ mine db conversation_id, ((citationsOf db.toTables message).map (·.marker_index)).Nodup)
    (reloads : Reloads db.toTables workspace_id conversation_id answer) :
    List.Forall₂ (Pictures db.toTables) (mine db conversation_id) (answer.map historyMessage) := by
  obtain ⟨rows,perm,sorted,reads⟩ := reloads.ordered
  cases Keyed.sorted_unique perm sorted ordered
  have all := (List.forall₂_and_left _ _).mpr ⟨markers,reads⟩
  exact List.forall₂_map_right_iff.mpr (all.imp fun message read both => reads_pictures both.2 both.1)

theorem Begins.synced {db : Database} (begins : Begins workspaceId workspace_id conversation_id db initial labels v) (outcomes : List Outcome) :
    Synced workspaceId initial conversation_id labels ⟨(db,outcomes),v⟩ := by
  cases begins with
  | new empty =>
    refine ⟨.nil,?_,?_⟩
    · rw [empty]
      exact .nil
    · rw [empty]
      exact .nil
  | resumed ordered markers reloads path =>
    refine ⟨path,ordered,?_⟩
    obtain ⟨middle,moved,rest⟩ := Option.bind_eq_some_iff.mp (run_exact.mpr path)
    cases Option.some.inj rest
    cases step_change moved
    exact reloads_pictures ordered markers reloads

-- While nobody else touches a conversation and its answers arrive whole, what
-- the page has built up from the events is what it would show after a reload.
theorem live_view_reloads (codec : JsonCodec) (workspaceId : Str) (workspace_id conversation_id : Uuid) (db : Database)
    (initial : Option Str) (labels : List Label) (v : View) (begins : Begins workspaceId workspace_id conversation_id db initial labels v)
    (exchanges : List Exchange) (s : Joint) (path : Runs (Exchanged codec workspaceId conversation_id) ⟨(db,[]),v⟩ exchanges s)
    (apart : Apart (labels ++ exchanges.flatMap (viewLabels codec))) (answer : List MessageRead)
    (reloads : Reloads s.server.1.toTables workspace_id conversation_id answer) :
    List.Forall₂ Agree s.view.messages (answer.map historyMessage) := by
  have synced := path.history (fun exchanges s => Apart (labels ++ exchanges.flatMap (viewLabels codec)) →
      Synced workspaceId initial conversation_id (labels ++ exchanges.flatMap (viewLabels codec)) s)
    (fun _ => by simpa using begins.synced []) (fun exchanges s e next _ before exchanged apart => by
      rw [List.flatMap_append,List.flatMap_singleton,← List.append_assoc] at apart ⊢
      exact synced_step (before (Apart.earlier apart)) apart exchanged) apart
  have markers : ∀ message ∈ mine s.server.1 conversation_id, ((citationsOf s.server.1.toTables message).map (·.marker_index)).Nodup := by
    intro message member
    obtain ⟨bubble,_,pictures⟩ := forall₂_left synced.pictured member
    exact pictures.markers
  exact forall₂_meet synced.pictured (reloads_pictures synced.ordered markers reloads) fun _ _ _ => pictures_agree

-- "Hello" in a new chat of the workspace of `tenant`, answered with a citation.
def helloEvents : List Event := (Transcripts.opening.played ChatTurns.tenant).events

def helloDumps : Json → Str
  | .object ((_,.string text) :: _) => text
  | _ => []

def helloCodec : JsonCodec where
  dumps := helloDumps
  parse text := (helloEvents.map serializeEvent).find? fun value => helloDumps value = text

def hello : Exchange where
  value := " Hello".toList
  userId := "u1".toList
  assistantId := "a1".toList
  chat := Transcripts.opening
  reads := [(sseStream helloCodec helloEvents).take 9,(sseStream helloCodec helloEvents).drop 9]

def helloRead : List MessageRead :=
  [⟨Uuid.str ⟨2⟩,.user,"Hello".toList,[]⟩,
    ⟨Uuid.str ⟨3⟩,.assistant,"See[1]".toList,[⟨1,Uuid.str ⟨5⟩,"a.txt".toList,Uuid.str ⟨6⟩,"Alpha".toList,some 1,1⟩]⟩]

theorem hello_plain : ∀ event ∈ helloEvents, Plain helloCodec (serializeEvent event) := by
  intro event member
  have listed : helloEvents = [.token "See".toList,.token "[1]".toList,.done ⟨3⟩ ⟨1⟩
      [⟨Uuid.str ⟨6⟩,Uuid.str ⟨5⟩,"a.txt".toList,"Alpha".toList,some 1,1⟩] [1]] := rfl
  rw [listed] at member
  rcases List.mem_cons.mp member with rfl | member
  · exact ⟨by decide +kernel,by decide +kernel,rfl⟩
  · rcases List.mem_cons.mp member with rfl | member
    · exact ⟨by decide +kernel,by decide +kernel,rfl⟩
    · rw [List.mem_singleton.mp member]
      exact ⟨by decide +kernel,by decide +kernel,rfl⟩

theorem undisturbed_same : Undisturbed conversation_id Transcripts.same :=
  ⟨fun _ => rfl,fun _ _ _ => rfl,fun _ _ _ shown => shown⟩

theorem helloRead_reloads : Reloads (Transcripts.opening.played ChatTurns.tenant).final.toTables ⟨7⟩ ⟨1⟩ helloRead := by
  refine ⟨by decide +kernel,(Transcripts.opening.played ChatTurns.tenant).final.messages,.of_eq (by decide +kernel),by decide +kernel,?_⟩
  have none_ : citationsOf (Transcripts.opening.played ChatTurns.tenant).final.toTables
      (userMessage hello.chat.request ⟨1⟩ ⟨2⟩ 0) = [] := by decide +kernel
  exact .cons ⟨rfl,rfl,rfl,.of_eq none_.symm⟩ (.cons ⟨rfl,rfl,rfl,.of_eq (by decide +kernel)⟩ .nil)

theorem hello_reloads : ∃ s : Joint, List.Forall₂ Agree s.view.messages (helloRead.map historyMessage) := by
  obtain ⟨outcomes,ended⟩ := Transcripts.ended_total Transcripts.opening ChatTurns.tenant
  have whole : hello.reads.flatten = sseStream helloCodec helloEvents := by simp [hello]
  have labelled := viewLabels_whole (e := hello) ["See".toList,"[1]".toList] hello_plain whole (by decide)
  obtain ⟨v,path,asked⟩ := run_any (advance "7".toList) (mount none) (viewLabels helloCodec hello)
    (fun v => decide (v.posted = [⟨none,"Hello".toList⟩])) (by rw [labelled]; decide +kernel)
  have exchanged : Exchanged helloCodec "7".toList ⟨1⟩ ⟨(ChatTurns.tenant,[]),mount none⟩ hello
      ⟨((Transcripts.opening.played ChatTurns.tenant).final,outcomes),v⟩ := by
    refine ⟨⟨.inr ⟨rfl,rfl,rfl⟩,Transcripts.quiet_of_same rfl rfl rfl,(fun _ member => nomatch member),by decide,rfl,outcomes,ended,rfl⟩,
      ?_,(fun _ member => nomatch member),by decide +kernel,?_,⟨⟨3⟩,_,[1],by decide,rfl⟩,hello_plain,whole,path,of_decide_eq_true asked⟩
    · intro meanwhile member
      simp only [List.mem_cons,List.not_mem_nil,or_false] at member
      rcases member with rfl | rfl | rfl <;> exact undisturbed_same
    · intro messages final _ silent
      exact absurd silent (show ¬ ["See".toList,"[1]".toList].flatten = [] by decide)
  refine ⟨_,live_view_reloads helloCodec "7".toList ⟨7⟩ ⟨1⟩ ChatTurns.tenant none [] (mount none) (.new rfl) [hello] _ (.single exchanged) ?_
    helloRead helloRead_reloads⟩
  rw [List.flatMap_singleton,labelled]
  unfold Apart
  decide +kernel

end RagForge.LiveTranscript
