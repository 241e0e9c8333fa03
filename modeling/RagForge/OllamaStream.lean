import RagForge.ChatTurns

namespace RagForge.OllamaStream
open RagForge ChatService ChatTurns PyText Fallible

-- The fields of a decoded line that are read; `message` is only looked into.
structure OllamaData where
  content : Option Str := none
  done : Bool := false
  error : Option Str := none
  model : Option Str := none
  done_reason : Option Str := none
  prompt_eval_count : Option Nat := none
  eval_count : Option Nat := none

-- One line of the body. `unreadable` is one that `json.loads` or a lookup in
-- its value fails on.
inductive OllamaLine where
  | blank
  | unreadable (error : Failure)
  | data (line : OllamaData)

-- What arrives under status 200, and the transport error that cuts it off, if any.
structure OllamaBody where
  lines : List OllamaLine
  lost : Option Str

-- `_OllamaLLMStream`; `final_line` starts as an empty dictionary.
structure OllamaLLMStream where
  model : Str
  content_parts : List Str := []
  final_line : OllamaData := {}

structure FinalResponse extends LLMResponse where
  stop_reason : Option Str

-- One decoded line: the chunk yielded, if it has one.
def OllamaLLMStream.receive (s : OllamaLLMStream) (data : OllamaData) : List Str × OllamaLLMStream :=
  let chunk := data.content.getD []
  let yielded := if chunk = [] then [] else [chunk]
  let s := {s with content_parts := s.content_parts ++ yielded}
  (yielded,if data.done then {s with final_line := data} else s)

-- `_iter_text`, to its end or to the line that raises.
def OllamaLLMStream.iterText (s : OllamaLLMStream) : List OllamaLine → List Str × OllamaLLMStream × Option Failure
  | [] => ([],s,none)
  | .blank :: rest => s.iterText rest
  | .unreadable error :: _ => ([],s,some error)
  | .data data :: rest =>
    let (yielded,next) := s.receive data
    let (texts,ended) := next.iterText rest
    (yielded ++ texts,ended)

def OllamaLLMStream.getFinalResponse (s : OllamaLLMStream) : FinalResponse where
  content := s.content_parts.flatten
  model := s.final_line.model.getD s.model
  usage := ⟨s.final_line.prompt_eval_count.getD 0,s.final_line.eval_count.getD 0,0,0⟩
  stop_reason := s.final_line.done_reason

-- `except httpx.HTTPError`
def providerError (text : Str) : Failure := ⟨true,"LLM provider error: ".toList ++ text⟩

-- `_stream_ctx` around the loop of the turn: the request fails or a body comes.
def streamCtx (model : Str) : Except Str OllamaBody → LLMStream
  | .error text => ⟨some (providerError text),[],none,.error (providerError text)⟩
  | .ok body =>
    let (texts,s,raised) := OllamaLLMStream.iterText {model} body.lines
    ⟨none,texts,raised.or (body.lost.map providerError),.ok s.getFinalResponse.toLLMResponse⟩

def HasDone (body : OllamaBody) : Prop := ∃ data, .data data ∈ body.lines ∧ data.done = true

def HasError (body : OllamaBody) : Prop := ∃ data, .data data ∈ body.lines ∧ data.error ≠ none

def Breaks (body : OllamaBody) : Prop := (∃ error, .unreadable error ∈ body.lines) ∨ body.lost ≠ none

-- The turns that get this body for an answer, whatever else happens in them:
-- only a complete one is stored, and every other one is reported.
structure Reliable (model : Str) (body : OllamaBody) : Prop where
  content : ∀ final, (streamCtx model (.ok body)).final_response = .ok final →
    final.content = (streamCtx model (.ok body)).text_stream.flatten
  saved : ∀ (world : World) db request message_id conversation_id context_chunks cited_indices,
    world.stream = (fun _ => streamCtx model (.ok body)) →
    (streamChatTurn world db request).events.getLast? = some (.done message_id conversation_id context_chunks cited_indices) →
    HasDone body
  reported : ∀ (world : World) db request first, world.stream = (fun _ => streamCtx model (.ok body)) →
    (streamChatTurn world db request).first = some first → ¬ HasDone body ∨ HasError body →
    ∃ message, (streamChatTurn world db request).events.getLast? = some (.error message)

section Iteration

theorem iterText_content (s : OllamaLLMStream) (lines : List OllamaLine) :
    (s.iterText lines).2.1.content_parts = s.content_parts ++ (s.iterText lines).1 := by
  induction lines generalizing s with
  | nil => simp [OllamaLLMStream.iterText]
  | cons line rest ih =>
    cases line with
    | blank => exact ih s
    | unreadable error => simp [OllamaLLMStream.iterText]
    | data data =>
      have taken : (s.receive data).2.content_parts = s.content_parts ++ (s.receive data).1 := by
        simp only [OllamaLLMStream.receive]
        split <;> rfl
      have later := ih (s.receive data).2
      rw [taken,List.append_assoc] at later
      exact later

theorem iterText_raises (s : OllamaLLMStream) (lines : List OllamaLine) :
    (s.iterText lines).2.2 = none ↔ ∀ error, .unreadable error ∉ lines := by
  induction lines generalizing s with
  | nil => simp [OllamaLLMStream.iterText]
  | cons line rest ih =>
    cases line with
    | blank => simpa [OllamaLLMStream.iterText] using ih s
    | unreadable error => exact iff_of_false nofun fun none_ => none_ error List.mem_cons_self
    | data data => simpa [OllamaLLMStream.iterText] using ih (s.receive data).2

theorem stream_broken (model : Str) (body : OllamaBody) : (streamCtx model (.ok body)).broken ≠ none ↔ Breaks body := by
  have loop := iterText_raises {model} body.lines
  simp only [streamCtx,Breaks,ne_eq,Option.or_eq_none_iff,Option.map_eq_none_iff,loop]
  rw [not_and_or]
  simp

theorem stream_content (model : Str) (body : OllamaBody) (final : LLMResponse)
    (answered : (streamCtx model (.ok body)).final_response = .ok final) :
    final.content = (streamCtx model (.ok body)).text_stream.flatten := by
  cases answered
  exact congrArg List.flatten (iterText_content {model} body.lines)

end Iteration

section Turns

theorem generation_broken {world : World} (broken : ∀ messages, (world.stream messages).broken ≠ none) (db : Database)
    (history : List ChatTurn) (user_message : Str) :
    ∃ texts error, generation world db history user_message = (texts,.error error) := by
  unfold generation
  split
  · exact ⟨_,_,rfl⟩
  · rename_i context_chunks _
    have cut := broken (llmMessages history context_chunks user_message)
    dsimp only
    split
    · exact ⟨_,_,rfl⟩
    · split
      · exact ⟨_,_,rfl⟩
      · rename_i whole
        exact absurd whole cut

theorem broken_reported {world : World} (broken : ∀ messages, (world.stream messages).broken ≠ none) (db : Database) (request : Request) :
    ((streamChatTurn world db request).first = none ∧ (streamChatTurn world db request).events = []) ∨
      ∃ message, (streamChatTurn world db request).events.getLast? = some (.error message) := by
  unfold streamChatTurn
  cases openTurn world.fails db request world.conversation_id world.user_message_id world.opened_at with
  | error error => exact .inl ⟨rfl,rfl⟩
  | ok opening =>
    obtain ⟨first,conversation,history⟩ := opening
    obtain ⟨texts,error,generated⟩ := generation_broken broken (world.before_fetch.apply first) history request.user_message
    simp only [generated]
    exact .inr ⟨_,List.getLast?_concat⟩

-- No chunk was retrieved, so none is cited, and every row of the answer finds its
-- parents.
theorem uncited_unreported {world : World} {texts : List Str} (quiet : ∀ point, world.fails point = none)
    (parent : ∃ c ∈ later.conversations, c.id = conversation.id) (nothing : g.context_chunks = []) (message : Str) :
    (finishTurn world first later conversation user_id texts g).events.getLast? ≠ some (.error message) := by
  intro last
  unfold finishTurn at last
  cases extracted : extractCitedIndices g.fullText g.context_chunks.length with
  | error error =>
    rw [extracted] at last
    obtain ⟨_,_,equal⟩ := List.mem_map.mp (List.mem_of_getLast? last)
    cases equal
  | ok cited_indices =>
    have uncited : ∀ idx ∈ cited_indices, False := fun idx member => by
      obtain ⟨low,high⟩ := (extractCitedIndices_bounds extracted).2 idx member
      rw [nothing] at high
      exact Nat.not_succ_le_zero _ (low.trans high)
    have ready : Persists world later conversation g cited_indices :=
      ⟨quiet _,parent,fun idx member => (uncited idx member).elim,quiet _,fun _ => quiet _,quiet _⟩
    obtain ⟨final,persisted⟩ := (persistTurn_ok user_id world.assistant_message_id world.closed_at).mpr ready
    rw [extracted] at last
    dsimp only at last
    rw [persisted,List.getLast?_concat] at last
    cases last

-- A first turn about nothing indexed, in which every call succeeds.
def answering (stream : LLMStream) : World := {calm with
  hybridRetrieve := fun _ => .ok []
  stream := fun _ => stream}

theorem answering_retrieval (stream : LLMStream) (db : Database) (history : List ChatTurn) (user_message : Str) :
    ∃ query, runRetrieval (answering stream) db history user_message = .ok (query,[]) := by
  unfold runRetrieval rewriteQueryNode
  dsimp only
  split
  · exact ⟨_,rfl⟩
  · exact ⟨_,rfl⟩

theorem answering_unreported {stream : LLMStream} (accepted : stream.opening = none) (whole : stream.broken = none)
    (answered : stream.final_response = .ok final) :
    ∃ first, (streamChatTurn (answering stream) tenant hello).first = some first ∧
      ∀ message, (streamChatTurn (answering stream) tenant hello).events.getLast? ≠ some (.error message) := by
  let world := answering stream
  have opens : Opens world tenant hello := ⟨⟨rfl,_,List.mem_cons_self,rfl⟩,rfl,rfl,rfl⟩
  obtain ⟨⟨first,conversation,history⟩,opened⟩ := (openTurn_ok ⟨1⟩ ⟨2⟩ 0).mpr opens
  obtain ⟨query,retrieved⟩ := answering_retrieval stream first history hello.user_message
  let g : Generation := ⟨[],stream.text_stream,final⟩
  have generated : generation world first history hello.user_message = (stream.text_stream,.ok g) := by
    unfold generation
    rw [retrieved]
    simp only [world,answering,accepted,whole,answered,g]
  have turn : streamChatTurn world tenant hello = finishTurn world first first conversation ⟨9⟩ stream.text_stream g := by
    unfold streamChatTurn
    rw [show openTurn world.fails tenant hello world.conversation_id world.user_message_id world.opened_at = _ from opened]
    dsimp only
    rw [show generation world (world.before_fetch.apply first) history hello.user_message = _ from generated]
    rfl
  obtain ⟨stored,_⟩ := openTurn_parts opened
  rw [show streamChatTurn (answering stream) tenant hello = _ from turn]
  exact ⟨first,(finishTurn_cases rfl).1,uncited_unreported (fun _ => rfl) ⟨conversation,stored,rfl⟩ rfl⟩

theorem whole_unreported {model : Str} {body : OllamaBody} (whole : ¬ Breaks body) (wrong : ¬ HasDone body ∨ HasError body) :
    ¬ Reliable model body := by
  intro reliable
  have unbroken : (streamCtx model (.ok body)).broken = none := not_not.mp (mt (stream_broken model body).mp whole)
  have accepted : (streamCtx model (.ok body)).opening = none := rfl
  obtain ⟨first,committed,unreported⟩ := answering_unreported accepted unbroken rfl
  obtain ⟨message,last⟩ := reliable.reported _ tenant hello first rfl committed wrong
  exact unreported message last

end Turns

-- Two lines of an answer that never says it is done.
theorem truncated_answer_stored : ¬ ∀ model body, Reliable model body := by
  intro all
  let body : OllamaBody := ⟨[.data {content := some "Raft ".toList},.data {content := some "is".toList}],none⟩
  obtain ⟨data,member,done⟩ := (all "llama3.1:8b".toList body).saved (answering (streamCtx "llama3.1:8b".toList (.ok body)))
    tenant hello ⟨3⟩ ⟨1⟩ [] [] rfl rfl
  simp only [body,List.mem_cons,OllamaLine.data.injEq,List.not_mem_nil,or_false] at member
  rcases member with rfl | rfl
  · cases done
  · cases done

theorem reliable_iff (model : Str) (body : OllamaBody) : Reliable model body ↔ Breaks body ∨ (HasDone body ∧ ¬ HasError body) := by
  constructor
  · intro reliable
    by_contra neither
    obtain ⟨whole,wrong⟩ := not_or.mp neither
    refine whole_unreported whole ?_ reliable
    by_cases done : HasDone body
    · exact .inr (not_not.mp (not_and.mp wrong done))
    · exact .inl done
  · intro treated
    -- a turn with this body is reported, or the body is complete and clean
    have fate (world : World) (db : Database) (request : Request) (served : world.stream = fun _ => streamCtx model (.ok body)) :
        (((streamChatTurn world db request).first = none ∧ (streamChatTurn world db request).events = []) ∨
          ∃ message, (streamChatTurn world db request).events.getLast? = some (.error message)) ∨ (HasDone body ∧ ¬ HasError body) := by
      refine treated.imp_left fun breaks => broken_reported (fun messages => ?_) db request
      rw [served]
      exact (stream_broken model body).mpr breaks
    refine ⟨stream_content model body,?_,?_⟩
    · intro world db request message_id conversation_id context_chunks cited_indices served last
      rcases fate world db request served with (⟨_,nothing⟩ | ⟨message,reported⟩) | ⟨done,_⟩
      · rw [nothing] at last
        cases last
      · cases reported.symm.trans last
      · exact done
    · intro world db request first served committed wrong
      rcases fate world db request served with (⟨uncommitted,_⟩ | reported) | ⟨done,clean⟩
      · cases uncommitted.symm.trans committed
      · exact reported
      · exact wrong.elim (fun missing => absurd done missing) fun error => absurd error clean

end RagForge.OllamaStream
