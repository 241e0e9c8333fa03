import Mathlib.Data.List.TakeWhile
import RagForge.Retrieval

namespace RagForge.ChatService
open RagForge PyText Fallible

inductive Event where
  | token (text : Str)
  | done (message_id conversation_id : Uuid) (context_chunks : List ContextChunk) (cited_indices : List Nat)
  | error (message : Str)

def Event.terminal : Event → Bool
  | .token _ => false
  | _ => true

-- One match of `_CITATION_MARKER_RE` at the start of the text: its digits.
def markerAt : Str → Option Str
  | '[' :: rest =>
    let digits := rest.takeWhile isDecimal
    if !digits.isEmpty && (rest.dropWhile isDecimal).head? == some ']' then some digits else none
  | _ => none

-- `finditer`. Matches cannot overlap: a marker holds one "[" and starts with it.
def markers (text : Str) : List Str := text.tails.filterMap markerAt

theorem markerAt_iff : markerAt text = some digits ↔
    ∃ rest, text = '[' :: (digits ++ ']' :: rest) ∧ digits ≠ [] ∧ ∀ c ∈ digits, isDecimal c = true := by
  constructor
  · intro matched
    unfold markerAt at matched
    split at matched
    · rename_i rest
      dsimp only at matched
      split at matched
      · rename_i found
        obtain ⟨some_,closed⟩ := Bool.and_eq_true_iff.mp found
        cases Option.some.inj matched
        obtain ⟨tail,shape⟩ := List.head?_eq_some_iff.mp (eq_of_beq closed)
        refine ⟨tail,?_,by simpa using some_,fun c member => List.mem_takeWhile_imp member⟩
        rw [← shape,List.takeWhile_append_dropWhile]
      · cases matched
    · cases matched
  · rintro ⟨rest,rfl,some_,decimal⟩
    have stop : ¬ isDecimal ']' = true := by decide
    have taken : (digits ++ ']' :: rest).takeWhile isDecimal = digits := by
      rw [List.takeWhile_append_of_pos decimal,List.takeWhile_cons_of_neg stop,List.append_nil]
    have dropped : (digits ++ ']' :: rest).dropWhile isDecimal = ']' :: rest := by
      rw [List.dropWhile_append_of_pos decimal,List.dropWhile_cons_of_neg stop]
    simp only [markerAt,taken,dropped]
    exact if_pos (by simpa using some_)

theorem markers_cons (c : Char) (rest : Str) : markers (c :: rest) = (markerAt (c :: rest)).toList ++ markers rest := by
  change ((c :: rest) :: rest.tails).filterMap markerAt = _
  rw [List.filterMap_cons]
  cases markerAt (c :: rest) <;> rfl

def extractLoop (num_chunks : Nat) : List Str → List Nat → Except Failure (List Nat)
  | [],seen => .ok seen
  | digits :: rest,seen => match int digits with
    | none => .error ⟨false,"Exceeds the limit (4300 digits) for integer string conversion".toList⟩
    | some idx =>
      extractLoop num_chunks rest (if 1 ≤ idx ∧ idx ≤ num_chunks ∧ idx ∉ seen then seen ++ [idx] else seen)

def extractCitedIndices (text : Str) (num_chunks : Nat) : Except Failure (List Nat) :=
  extractLoop num_chunks (markers text) []

theorem extractLoop_ok : (∃ seen, extractLoop n found before = .ok seen) ↔ ∀ digits ∈ found, digits.length ≤ maxStrDigits := by
  induction found generalizing before with
  | nil => simp [extractLoop]
  | cons digits rest ih =>
    unfold extractLoop
    cases read : int digits with
    | none =>
      have long := (int_none digits).mp read
      simp only [List.mem_cons,forall_eq_or_imp,reduceCtorEq,exists_false,false_iff,not_and]
      exact fun short => absurd short (Nat.not_le.mpr long)
    | some idx =>
      have short : digits.length ≤ maxStrDigits :=
        Nat.le_of_not_lt fun long => by rw [(int_none digits).mpr long] at read; cases read
      rw [ih]
      simp [short]

theorem extractCitedIndices_ok : (∃ cited, extractCitedIndices text n = .ok cited) ↔
    ∀ digits ∈ markers text, digits.length ≤ maxStrDigits := extractLoop_ok

theorem extractLoop_bounds (extracted : extractLoop n found before = .ok seen)
    (initial : before.Nodup ∧ ∀ i ∈ before, 1 ≤ i ∧ i ≤ n) : seen.Nodup ∧ ∀ i ∈ seen, 1 ≤ i ∧ i ≤ n := by
  induction found generalizing before with
  | nil => cases extracted; exact initial
  | cons digits rest ih =>
    unfold extractLoop at extracted
    split at extracted
    · cases extracted
    · rename_i idx _
      refine ih extracted ?_
      split
      · rename_i fresh
        obtain ⟨low,high,absent⟩ := fresh
        refine ⟨List.nodup_append.mpr ⟨initial.1,List.nodup_singleton _,?_⟩,?_⟩
        · intro a member b last same
          rw [List.mem_singleton.mp last] at same
          exact absent (same ▸ member)
        · intro i member
          rcases List.mem_append.mp member with old | new
          · exact initial.2 i old
          · rw [List.mem_singleton.mp new]; exact ⟨low,high⟩
      · exact initial

theorem extractCitedIndices_bounds (extracted : extractCitedIndices text n = .ok cited) :
    cited.Nodup ∧ ∀ i ∈ cited, 1 ≤ i ∧ i ≤ n :=
  extractLoop_bounds extracted ⟨List.nodup_nil,fun _ member => nomatch member⟩

theorem mem_extractLoop (extracted : extractLoop n found before = .ok seen) :
    i ∈ seen ↔ i ∈ before ∨ (1 ≤ i ∧ i ≤ n) ∧ ∃ digits ∈ found, int digits = some i := by
  induction found generalizing before with
  | nil => cases extracted; simp
  | cons digits rest ih =>
    unfold extractLoop at extracted
    split at extracted
    · cases extracted
    · rename_i idx read
      rw [ih extracted]
      simp only [List.mem_cons,exists_eq_or_imp,read,Option.some.injEq]
      split
      · rename_i fresh
        rw [List.mem_append,List.mem_singleton]
        constructor
        · rintro ((old | rfl) | ⟨within_,later⟩)
          · exact .inl old
          · exact .inr ⟨⟨fresh.1,fresh.2.1⟩,.inl rfl⟩
          · exact .inr ⟨within_,.inr later⟩
        · rintro (old | ⟨within_,rfl | later⟩)
          · exact .inl (.inl old)
          · exact .inl (.inr rfl)
          · exact .inr ⟨within_,later⟩
      · rename_i stale
        constructor
        · rintro (old | ⟨within_,later⟩)
          · exact .inl old
          · exact .inr ⟨within_,.inr later⟩
        · rintro (old | ⟨within_,rfl | later⟩)
          · exact .inl old
          · exact .inl (by_contra fun absent => stale ⟨within_.1,within_.2,absent⟩)
          · exact .inr ⟨within_,later⟩

theorem mem_extractCitedIndices (extracted : extractCitedIndices text n = .ok cited) :
    i ∈ cited ↔ (1 ≤ i ∧ i ≤ n) ∧ ∃ digits ∈ markers text, int digits = some i := by
  rw [mem_extractLoop extracted]
  exact or_iff_right (List.not_mem_nil)

def llmPricingPerMillion : List (Str × ℚ × ℚ) :=
  [("claude-fable-5".toList,10,50),("claude-mythos-5".toList,10,50),("claude-opus-4-8".toList,5,25),
   ("claude-opus-4-7".toList,5,25),("claude-opus-4-6".toList,5,25),("claude-opus-4-5".toList,5,25),
   ("claude-sonnet-5".toList,3,15),("claude-sonnet-4-6".toList,3,15),("claude-sonnet-4-5".toList,3,15),
   ("claude-haiku-4-5".toList,1,5)]

def estimateLlmCostUsd (model : Str) (tokens_input tokens_output : Nat) : ℚ :=
  let rate := ((llmPricingPerMillion.find? (·.1 = model)).map Prod.snd).getD (0,0)
  tokens_input / 1000000 * rate.1 + tokens_output / 1000000 * rate.2

def excerpt (number : Nat) (chunk : ContextChunk) : Str :=
  let page := match chunk.page_number with
    | none | some 0 => []
    | some n => ", page ".toList ++ Nat.toDigits 10 n
  "[".toList ++ Nat.toDigits 10 number ++ "] (from \"".toList ++ chunk.document_filename ++ "\"".toList ++ page ++
    ")\n".toList ++ chunk.content

def buildRagContextBlock (chunks : List ContextChunk) : Str :=
  join "\n\n".toList (chunks.mapIdx fun i chunk => excerpt (i + 1) chunk)

def buildRagUserPrompt (context_block question : Str) : Str :=
  "Context excerpts:\n\n".toList ++ context_block ++ "\n\n---\n\nQuestion: ".toList ++ question

structure Request where
  workspace_id : Uuid
  user_id : Uuid
  conversation_id : Option Uuid
  user_message : Str

inductive Point where
  | getConversation | flushConversation | loadHistory | flushUserMessage | commitOpening | fetchChunks
  | flushAssistant | getWorkspace | flushUsage | commitTurn | rollback
  deriving DecidableEq

-- What `async with llm_provider.stream(...)` does: the text that arrives
-- before an error, if one breaks the stream, and the answer afterwards.
structure LLMStream where
  opening : Option Failure
  text_stream : List Str
  broken : Option Failure
  final_response : Except Failure LLMResponse

-- What other sessions commit while this turn has no transaction open. No
-- service deletes a workspace.
structure Meanwhile where
  apply : Database → Database
  keeps : ∀ db, ∀ w ∈ db.workspaces, w ∈ (apply db).workspaces

-- Everything a turn meets that it does not decide.
structure World where
  settings : Settings
  fails : Point → Option Failure
  conversation_id : Uuid
  user_message_id : Uuid
  assistant_message_id : Uuid
  opened_at : Nat
  closed_at : Nat
  generate : List LLMMessage → Except Failure LLMResponse
  hybridRetrieve : Str → Except Failure (List RetrievedChunk)
  rerank : List Str → Nat → Except Failure (List RerankResult)
  stream : List LLMMessage → LLMStream
  before_fetch : Meanwhile
  before_persist : Meanwhile

def attempt (fails : Point → Option Failure) (point : Point) : Except Failure Unit :=
  match fails point with
  | some error => .error error
  | none => .ok ()

def flush (t : Tables) : Except Failure Database :=
  match Database.enforce t with
  | some db => .ok db
  | none => .error ⟨false,"IntegrityError".toList⟩

def conversationTitle (first_message : Str) : Str :=
  let title := ((strip first_message).map fun c => if c = '\n' then ' ' else c).take 80
  if title.isEmpty then "New conversation".toList else title

def getOrCreateConversation (fails : Point → Option Failure) (db : Database) (request : Request) (key : Uuid) :
    Except Failure (Database × Conversation) :=
  match request.conversation_id with
  | some conversation_id => do
    attempt fails .getConversation
    match db.getConversation conversation_id with
    | none => .error ⟨false,"Conversation not found".toList⟩
    | some conversation =>
      if conversation.workspace_id = request.workspace_id then .ok (db,conversation)
      else .error ⟨false,"Conversation not found".toList⟩
  | none => do
    let conversation : Conversation :=
      ⟨key,request.workspace_id,request.user_id,conversationTitle request.user_message⟩
    attempt fails .flushConversation
    let after ← flush {db.toTables with conversations := db.conversations ++ [conversation]}
    .ok (after,conversation)

def loadHistory (db : Database) (conversation_id : Uuid) : List ChatTurn :=
  let recent := (db.messages.filter (·.conversation_id = conversation_id)).insertionSort
    (fun a b => b.created_at ≤ a.created_at)
  (recent.take 20).reverse.map fun m => ⟨m.role,m.content⟩

def userMessage (request : Request) (conversation_id key : Uuid) (now : Nat) : Message :=
  ⟨key,conversation_id,.user,request.user_message,none,none,now⟩

-- The first transaction, commit included.
def openTurn (fails : Point → Option Failure) (db : Database) (request : Request) (conversation_id message_id : Uuid)
    (now : Nat) : Except Failure (Database × Conversation × List ChatTurn) := do
  let (opened,conversation) ← getOrCreateConversation fails db request conversation_id
  attempt fails .loadHistory
  let history := loadHistory opened conversation.id
  attempt fails .flushUserMessage
  let after ← flush {opened.toTables with
    messages := opened.messages ++ [userMessage request conversation.id message_id now]}
  attempt fails .commitOpening
  .ok (after,conversation,history)

def runRetrieval (world : World) (db : Database) (history : List ChatTurn) (user_message : Str) :
    Except Failure (Str × List ContextChunk) := do
  let rewritten_query ← rewriteQueryNode world.settings world.generate history user_message
  let retrieved ← world.hybridRetrieve rewritten_query
  attempt world.fails .fetchChunks
  let context_chunks ← rerankNode world.settings world.rerank (hybridRetrieveNode db.toTables retrieved)
  .ok (rewritten_query,context_chunks)

def llmMessages (history : List ChatTurn) (context_chunks : List ContextChunk) (user_message : Str) : List LLMMessage :=
  let context_block :=
    if context_chunks.isEmpty then "(no relevant documents found in this workspace)".toList
    else buildRagContextBlock context_chunks
  history.map (fun turn => ⟨turn.role,turn.content⟩) ++ [⟨.user,buildRagUserPrompt context_block user_message⟩]

structure Generation where
  context_chunks : List ContextChunk
  full_text_parts : List Str
  final_response : LLMResponse

-- The second `try`: the tokens already yielded and how the region ended.
def generation (world : World) (db : Database) (history : List ChatTurn) (user_message : Str) :
    List Str × Except Failure Generation :=
  match runRetrieval world db history user_message with
  | .error error => ([],.error error)
  | .ok (_,context_chunks) =>
    let stream := world.stream (llmMessages history context_chunks user_message)
    match stream.opening with
    | some error => ([],.error error)
    | none => match stream.broken with
      | some error => (stream.text_stream,.error error)
      | none => match stream.final_response with
        | .error error => (stream.text_stream,.error error)
        | .ok final_response => (stream.text_stream,.ok ⟨context_chunks,stream.text_stream,final_response⟩)

def Generation.fullText (g : Generation) : Str :=
  if g.full_text_parts.flatten.isEmpty then g.final_response.content else g.full_text_parts.flatten

def assistantMessage (g : Generation) (conversation_id key : Uuid) (now : Nat) : Message :=
  ⟨key,conversation_id,.assistant,g.fullText,some g.final_response.model,some g.final_response.usage,now⟩

def citation (message_id : Uuid) (context_chunks : List ContextChunk) (idx : Nat) : Except Failure MessageCitation :=
  match getItem context_chunks ((idx : Int) - 1) with
  | none => .error ⟨false,"list index out of range".toList⟩
  | some cited_chunk => match Uuid.parse cited_chunk.chunk_id with
    | none => .error ⟨false,"badly formed hexadecimal UUID string".toList⟩
    | some chunk_id => .ok ⟨message_id,chunk_id,idx,cited_chunk.relevance_score⟩

def chatUsage (g : Generation) (workspace : Workspace) (user_id : Uuid) : UsageRecord :=
  let usage := g.final_response.usage
  ⟨workspace.organization_id,some workspace.id,some user_id,.chat_message,usage.input_tokens,usage.output_tokens,
    estimateLlmCostUsd g.final_response.model usage.input_tokens usage.output_tokens⟩

-- The last transaction. All its rows become visible at its commit or never.
def persistTurn (fails : Point → Option Failure) (db : Database) (conversation : Conversation) (user_id message_id : Uuid)
    (now : Nat) (g : Generation) (cited_indices : List Nat) : Except Failure Database := do
  attempt fails .flushAssistant
  let saved ← flush {db.toTables with messages := db.messages ++ [assistantMessage g conversation.id message_id now]}
  let citations ← cited_indices.mapM (citation message_id g.context_chunks)
  attempt fails .getWorkspace
  let cited := {saved.toTables with message_citations := saved.message_citations ++ citations}
  match saved.getWorkspace conversation.workspace_id with
  | none => do
    attempt fails .commitTurn
    flush cited
  | some workspace => do
    attempt fails .flushUsage
    attempt fails .commitTurn
    flush {cited with usage_records := cited.usage_records ++ [chatUsage g workspace user_id]}

-- What the consumer of the generator sees, and the committed contents after the
-- first commit, before the last transaction and at the end.
structure Played where
  events : List Event
  raised : Option Failure
  first : Option Database
  before : Database
  final : Database

-- Citation extraction and the last `try`, from the yielded texts on. No `try`
-- surrounds the extraction.
def finishTurn (world : World) (first later : Database) (conversation : Conversation) (user_id : Uuid)
    (texts : List Str) (g : Generation) : Played :=
  match extractCitedIndices g.fullText g.context_chunks.length with
  | .error error => ⟨texts.map .token,some error,some first,later,later⟩
  | .ok cited_indices =>
    match persistTurn world.fails later conversation user_id world.assistant_message_id world.closed_at g cited_indices with
    | .error _ => match world.fails .rollback with
      | some error => ⟨texts.map .token,some error,some first,later,later⟩
      | none =>
        ⟨texts.map .token ++ [.error "Response generated but could not be saved.".toList],none,some first,later,later⟩
    | .ok final =>
      ⟨texts.map .token ++ [.done world.assistant_message_id conversation.id g.context_chunks cited_indices],
        none,some first,later,final⟩

def streamChatTurn (world : World) (db : Database) (request : Request) : Played :=
  match openTurn world.fails db request world.conversation_id world.user_message_id world.opened_at with
  | .error error => ⟨[],some ((world.fails .rollback).getD error),none,db,db⟩
  | .ok (first,conversation,history) =>
    let fetched := world.before_fetch.apply first
    let later := world.before_persist.apply fetched
    match generation world fetched history request.user_message with
    | (texts,.error _) =>
      ⟨texts.map .token ++ [.error "Something went wrong generating a response.".toList],none,some first,later,later⟩
    | (texts,.ok g) => finishTurn world first later conversation request.user_id texts g

theorem attempt_ok {fails : Point → Option Failure} : attempt fails point = .ok u ↔ fails point = none := by
  unfold attempt
  split <;> simp_all

theorem flush_ok {t : Tables} : flush t = .ok db ↔ Database.enforce t = some db := by
  unfold flush
  split <;> simp_all

theorem flush_exists {t : Tables} : (∃ db, flush t = .ok db) ↔ t.ForeignKeys := by
  constructor
  · rintro ⟨db,inserted⟩
    rw [← Database.enforce_tables (flush_ok.mp inserted)]
    exact db.keys
  · exact fun keys => ⟨⟨t,keys⟩,flush_ok.mpr (Database.enforce_of_keys keys)⟩

theorem getOrCreateConversation_parts
    (found : getOrCreateConversation fails db request key = .ok (after,conversation)) :
    conversation ∈ after.conversations ∧ conversation.workspace_id = request.workspace_id ∧
      ∃ added, (added = [] ∨ request.conversation_id = none ∧ added = [conversation] ∧ conversation.id = key) ∧
        after.toTables = {db.toTables with conversations := db.conversations ++ added} := by
  unfold getOrCreateConversation at found
  split at found
  · obtain ⟨_,_,rest⟩ := bind_ok.mp found
    split at rest
    · cases rest
    · rename_i got
      split at rest
      · rename_i same
        cases rest
        exact ⟨(Database.getConversation_mem got).1,same,[],.inl rfl,by simp⟩
      · cases rest
  · rename_i asked
    obtain ⟨_,_,rest⟩ := bind_ok.mp found
    obtain ⟨saved,inserted,last⟩ := bind_ok.mp rest
    cases last
    have tables := Database.enforce_tables (flush_ok.mp inserted)
    refine ⟨?_,rfl,_,.inr ⟨asked,rfl,rfl⟩,tables⟩
    rw [show after.conversations = _ from congrArg Tables.conversations tables]
    exact List.mem_append_right _ (List.mem_singleton.mpr rfl)

theorem getOrCreateConversation_key
    (found : getOrCreateConversation fails db request key = .ok (after,conversation)) :
    conversation.id = request.conversation_id.getD key := by
  unfold getOrCreateConversation at found
  split at found
  · rename_i asked named
    obtain ⟨_,_,rest⟩ := bind_ok.mp found
    split at rest
    · cases rest
    · rename_i looked
      split at rest
      · cases rest
        rw [named]
        exact (Database.getConversation_mem looked).2
      · cases rest
  · rename_i new
    obtain ⟨_,_,rest⟩ := bind_ok.mp found
    obtain ⟨_,_,last⟩ := bind_ok.mp rest
    cases last
    rw [new]; rfl

theorem openTurn_parts
    (opened : openTurn fails db request conversation_id message_id now = .ok (after,conversation,history)) :
    conversation ∈ after.conversations ∧ conversation.workspace_id = request.workspace_id ∧
      ∃ added, (added = [] ∨ request.conversation_id = none ∧ added = [conversation] ∧ conversation.id = conversation_id) ∧
        after.toTables = {db.toTables with
          conversations := db.conversations ++ added
          messages := db.messages ++ [userMessage request conversation.id message_id now]} := by
  obtain ⟨⟨base,found⟩,got,rest⟩ := bind_ok.mp opened
  obtain ⟨_,_,rest⟩ := bind_ok.mp rest
  obtain ⟨_,_,rest⟩ := bind_ok.mp rest
  obtain ⟨saved,inserted,rest⟩ := bind_ok.mp rest
  obtain ⟨_,_,last⟩ := bind_ok.mp rest
  cases last
  obtain ⟨stored,same,added,origin,tables⟩ := getOrCreateConversation_parts got
  have whole := Database.enforce_tables (flush_ok.mp inserted)
  rw [tables] at whole
  refine ⟨?_,same,added,origin,whole⟩
  rw [show after.conversations = _ from congrArg Tables.conversations whole]
  rw [show base.conversations = _ from congrArg Tables.conversations tables] at stored
  exact stored

theorem openTurn_history
    (opened : openTurn fails db request conversation_id message_id now = .ok (after,conversation,history)) :
    conversation.id = request.conversation_id.getD conversation_id ∧ history = loadHistory db conversation.id := by
  obtain ⟨⟨base,found⟩,got,rest⟩ := bind_ok.mp opened
  obtain ⟨_,_,rest⟩ := bind_ok.mp rest
  obtain ⟨_,_,rest⟩ := bind_ok.mp rest
  obtain ⟨_,_,rest⟩ := bind_ok.mp rest
  obtain ⟨_,_,last⟩ := bind_ok.mp rest
  cases last
  obtain ⟨_,_,_,_,tables⟩ := getOrCreateConversation_parts got
  have messages : base.messages = db.messages := (congrArg Tables.messages tables :)
  exact ⟨getOrCreateConversation_key got,by simp only [loadHistory,messages]⟩

-- The conversation lookup answers when the row is there and in the workspace,
-- or when a new row has a workspace to point at.
def Addressed (fails : Point → Option Failure) (db : Database) (request : Request) : Prop :=
  match request.conversation_id with
  | some key => fails .getConversation = none ∧
      ∃ conversation, db.getConversation key = some conversation ∧ conversation.workspace_id = request.workspace_id
  | none => fails .flushConversation = none ∧ ∃ w ∈ db.workspaces, w.id = request.workspace_id

theorem getOrCreateConversation_ok (key : Uuid) :
    (∃ out, getOrCreateConversation fails db request key = .ok out) ↔ Addressed fails db request := by
  unfold getOrCreateConversation Addressed
  cases request.conversation_id with
  | some conversation_id =>
    simp only [bind_ok,attempt_ok,exists_and_left,exists_const]
    cases found : db.getConversation conversation_id with
    | none => simp
    | some conversation => by_cases same : conversation.workspace_id = request.workspace_id <;> simp [same]
  | none =>
    simp only [bind_ok,attempt_ok]
    constructor
    · rintro ⟨out,u,quiet,after,inserted,_⟩
      have tables := Database.enforce_tables (flush_ok.mp inserted)
      have keys := after.keys.conversation_workspace
      rw [tables] at keys
      exact ⟨quiet,keys _ (List.mem_append_right _ (List.mem_singleton.mpr rfl))⟩
    · rintro ⟨quiet,parent⟩
      obtain ⟨after,inserted⟩ := flush_exists.mpr (db.keys.addConversation
        ⟨key,request.workspace_id,request.user_id,conversationTitle request.user_message⟩ parent)
      exact ⟨_,⟨⟩,quiet,after,inserted,rfl⟩

def Opens (world : World) (db : Database) (request : Request) : Prop :=
  Addressed world.fails db request ∧ world.fails .loadHistory = none ∧
    world.fails .flushUserMessage = none ∧ world.fails .commitOpening = none

theorem openTurn_ok {world : World} (conversation_id message_id : Uuid) (now : Nat) :
    (∃ out, openTurn world.fails db request conversation_id message_id now = .ok out) ↔ Opens world db request := by
  unfold openTurn Opens
  rw [← getOrCreateConversation_ok conversation_id]
  simp only [bind_ok,attempt_ok]
  constructor
  · rintro ⟨out,⟨base,found⟩,got,u,history,v,message,after,_,w,commit,_⟩
    exact ⟨⟨_,got⟩,history,message,commit⟩
  · rintro ⟨⟨⟨base,conversation⟩,got⟩,history,message,commit⟩
    obtain ⟨stored,_,_⟩ := getOrCreateConversation_parts got
    obtain ⟨after,inserted⟩ := flush_exists.mpr (base.keys.addMessage
      (userMessage request conversation.id message_id now) ⟨conversation,stored,rfl⟩)
    exact ⟨_,_,got,⟨⟩,history,⟨⟩,message,after,inserted,⟨⟩,commit,rfl⟩

theorem citation_ok : (∃ row, citation message_id context_chunks idx = .ok row) ↔
    ∃ chunk key, getItem context_chunks ((idx : Int) - 1) = some chunk ∧ Uuid.parse chunk.chunk_id = some key := by
  unfold citation
  cases getItem context_chunks ((idx : Int) - 1) with
  | none => simp
  | some chunk => cases parsed : Uuid.parse chunk.chunk_id <;> simp [parsed]

theorem citation_parts (built : citation message_id context_chunks idx = .ok row) :
    row.message_id = message_id ∧ row.marker_index = idx ∧
      ∃ chunk, getItem context_chunks ((idx : Int) - 1) = some chunk ∧ Uuid.parse chunk.chunk_id = some row.chunk_id := by
  unfold citation at built
  split at built
  · cases built
  · rename_i chunk found
    split at built
    · cases built
    · rename_i key parsed
      cases built
      exact ⟨rfl,rfl,chunk,found,parsed⟩

def usageRows (db : Database) (conversation : Conversation) (user_id : Uuid) (g : Generation) : List UsageRecord :=
  (db.getWorkspace conversation.workspace_id).toList.map (chatUsage g · user_id)

theorem persistTurn_parts
    (persisted : persistTurn fails db conversation user_id message_id now g cited_indices = .ok final) :
    ∃ citations, List.Forall₂ (fun idx row => citation message_id g.context_chunks idx = .ok row) cited_indices citations ∧
      final.toTables = {db.toTables with
        messages := db.messages ++ [assistantMessage g conversation.id message_id now]
        message_citations := db.message_citations ++ citations
        usage_records := db.usage_records ++ usageRows db conversation user_id g} := by
  obtain ⟨_,_,rest⟩ := bind_ok.mp persisted
  obtain ⟨saved,inserted,rest⟩ := bind_ok.mp rest
  obtain ⟨citations,mapped,rest⟩ := bind_ok.mp rest
  obtain ⟨_,_,rest⟩ := bind_ok.mp rest
  have tables := Database.enforce_tables (flush_ok.mp inserted)
  have lookup : saved.getWorkspace conversation.workspace_id = db.getWorkspace conversation.workspace_id := by
    unfold Database.getWorkspace; rw [tables]
  refine ⟨citations,mapM_forall₂.mp mapped,?_⟩
  unfold usageRows
  rw [lookup] at rest
  split at rest
  · rename_i absent
    obtain ⟨_,_,last⟩ := bind_ok.mp rest
    rw [Database.enforce_tables (flush_ok.mp last),tables]
    simp [absent]
  · rename_i workspace found
    obtain ⟨_,_,rest⟩ := bind_ok.mp rest
    obtain ⟨_,_,last⟩ := bind_ok.mp rest
    rw [Database.enforce_tables (flush_ok.mp last),tables]
    simp [found]

-- When the last transaction can commit: no call fails, and every row it writes
-- finds its parents.
def Persists (world : World) (db : Database) (conversation : Conversation) (g : Generation) (cited_indices : List Nat) : Prop :=
  world.fails .flushAssistant = none ∧ (∃ c ∈ db.conversations, c.id = conversation.id) ∧
    (∀ idx ∈ cited_indices, ∃ chunk key, getItem g.context_chunks ((idx : Int) - 1) = some chunk ∧
      Uuid.parse chunk.chunk_id = some key ∧ ∃ row ∈ db.document_chunks, row.id = key) ∧
    world.fails .getWorkspace = none ∧
    ((db.getWorkspace conversation.workspace_id).isSome → world.fails .flushUsage = none) ∧
    world.fails .commitTurn = none

theorem persists_of_ok {world : World}
    (persisted : persistTurn world.fails db conversation user_id message_id now g cited_indices = .ok final) :
    Persists world db conversation g cited_indices := by
  obtain ⟨citations,built,tables⟩ := persistTurn_parts persisted
  obtain ⟨_,assistant,rest⟩ := bind_ok.mp persisted
  obtain ⟨saved,inserted,rest⟩ := bind_ok.mp rest
  obtain ⟨_,_,rest⟩ := bind_ok.mp rest
  obtain ⟨_,workspace,rest⟩ := bind_ok.mp rest
  have keys := final.keys
  rw [tables] at keys
  have savedTables := Database.enforce_tables (flush_ok.mp inserted)
  have lookup : saved.getWorkspace conversation.workspace_id = db.getWorkspace conversation.workspace_id := by
    unfold Database.getWorkspace; rw [savedTables]
  rw [lookup] at rest
  refine ⟨attempt_ok.mp assistant,keys.message_conversation _ (List.mem_append_right _ (List.mem_singleton.mpr rfl)),
    ?_,attempt_ok.mp workspace,?_⟩
  · intro idx member
    obtain ⟨row,present,one⟩ := forall₂_left built member
    obtain ⟨_,_,chunk,found,parsed⟩ := citation_parts one
    exact ⟨chunk,row.chunk_id,found,parsed,keys.citation_chunk row (List.mem_append_right _ present)⟩
  · split at rest
    · rename_i absent
      obtain ⟨_,commit,_⟩ := bind_ok.mp rest
      exact ⟨fun there => absurd (absent ▸ there) (by simp),attempt_ok.mp commit⟩
    · obtain ⟨_,usage,rest⟩ := bind_ok.mp rest
      obtain ⟨_,commit,_⟩ := bind_ok.mp rest
      exact ⟨fun _ => attempt_ok.mp usage,attempt_ok.mp commit⟩

theorem ok_of_persists {world : World} (ready : Persists world db conversation g cited_indices) :
    ∃ final, persistTurn world.fails db conversation user_id message_id now g cited_indices = .ok final := by
  obtain ⟨assistant,parent,rows,workspace,usage,commit⟩ := ready
  obtain ⟨saved,inserted⟩ := flush_exists.mpr (db.keys.addMessage
    (assistantMessage g conversation.id message_id now) parent)
  have savedTables := Database.enforce_tables (flush_ok.mp inserted)
  have lookup : saved.getWorkspace conversation.workspace_id = db.getWorkspace conversation.workspace_id := by
    unfold Database.getWorkspace; rw [savedTables]
  obtain ⟨citations,mapped⟩ := (mapM_ok (f := citation message_id g.context_chunks)).mpr fun idx member => by
    obtain ⟨chunk,key,found,parsed,_⟩ := rows idx member
    exact citation_ok.mpr ⟨chunk,key,found,parsed⟩
  have parents : ∀ row ∈ citations, (∃ m ∈ saved.messages, m.id = row.message_id) ∧
      ∃ c ∈ saved.document_chunks, c.id = row.chunk_id := by
    intro row present
    obtain ⟨idx,member,one⟩ := forall₂_right (mapM_forall₂.mp mapped) present
    obtain ⟨message,_,chunk,found,parsed⟩ := citation_parts one
    obtain ⟨chunk',key,found',parsed',stored,there,same⟩ := rows idx member
    rw [found] at found'
    cases Option.some.inj found'
    rw [parsed] at parsed'
    cases Option.some.inj parsed'
    rw [savedTables]
    exact ⟨⟨_,List.mem_append_right _ (List.mem_singleton.mpr rfl),message.symm⟩,stored,there,same⟩
  have cited := saved.keys.addCitations parents
  cases found : db.getWorkspace conversation.workspace_id with
  | none =>
    obtain ⟨final,last⟩ := flush_exists.mpr cited
    refine ⟨final,bind_ok.mpr ⟨⟨⟩,attempt_ok.mpr assistant,bind_ok.mpr ⟨saved,inserted,bind_ok.mpr ⟨citations,mapped,
      bind_ok.mpr ⟨⟨⟩,attempt_ok.mpr workspace,?_⟩⟩⟩⟩⟩
    simp only [lookup,found]
    exact bind_ok.mpr ⟨⟨⟩,attempt_ok.mpr commit,last⟩
  | some w =>
    have stored := Database.getWorkspace_mem (lookup.trans found)
    obtain ⟨final,last⟩ := flush_exists.mpr (cited.addUsage (chatUsage g w user_id)
      fun key same => ⟨w,stored.1,Option.mem_some.mp same⟩)
    refine ⟨final,bind_ok.mpr ⟨⟨⟩,attempt_ok.mpr assistant,bind_ok.mpr ⟨saved,inserted,bind_ok.mpr ⟨citations,mapped,
      bind_ok.mpr ⟨⟨⟩,attempt_ok.mpr workspace,?_⟩⟩⟩⟩⟩
    simp only [lookup,found]
    exact bind_ok.mpr ⟨⟨⟩,attempt_ok.mpr (usage (by rw [found]; rfl)),bind_ok.mpr ⟨⟨⟩,attempt_ok.mpr commit,last⟩⟩

theorem persistTurn_ok {world : World} (user_id message_id : Uuid) (now : Nat) :
    (∃ final, persistTurn world.fails db conversation user_id message_id now g cited_indices = .ok final) ↔
      Persists world db conversation g cited_indices :=
  ⟨fun ⟨_,persisted⟩ => persists_of_ok persisted,ok_of_persists⟩

end RagForge.ChatService
