import RagForge.ChatTurns
import RagForge.Recent
import RagForge.Transition

namespace RagForge.Transcripts
open RagForge ChatService ChatTurns Transition Fallible Recent

-- The body of a chat request: `Field(min_length=1, max_length=8000)`.
structure ChatRequest where
  conversation_id : Option Uuid
  message : Str
  min_length : 1 ≤ message.length
  max_length : message.length ≤ 8000

def ChatRequest.turn (payload : ChatRequest) (workspace_id user_id : Uuid) : Request :=
  ⟨workspace_id,user_id,payload.conversation_id,payload.message⟩

-- What a turn leaves in its conversation: the question, and the answer if the
-- last transaction committed.
inductive Outcome where
  | failed (question : Str)
  | answered (question answer : Str)
  deriving DecidableEq

def Outcome.rows : Outcome → List ChatTurn
  | .failed question => [⟨.user,question⟩]
  | .answered question answer => [⟨.user,question⟩,⟨.assistant,answer⟩]

def Outcome.question : Outcome → Str
  | .failed question => question
  | .answered question _ => question

def rows (outcomes : List Outcome) : List ChatTurn := outcomes.flatMap Outcome.rows

inductive Ended (question : Str) (played : Played) : List Outcome → Prop where
  | refused : played.first = none → Ended question played []
  | failed : played.first = some first → played.final = played.before → Ended question played [.failed question]
  | answered : played.first = some first → played.final.messages = played.before.messages ++ [assistant] →
      Ended question played [.answered question assistant.content]

def mine (db : Database) (conversation_id : Uuid) : List Message := db.messages.filter (·.conversation_id = conversation_id)

-- One turn, and what other requests commit before it.
structure Chat where
  payload : ChatRequest
  workspace_id : Uuid
  user_id : Uuid
  world : World
  before_open : Meanwhile

def Chat.request (chat : Chat) : Request := chat.payload.turn chat.workspace_id chat.user_id

def Chat.played (chat : Chat) (db : Database) : Played :=
  streamChatTurn chat.world (chat.before_open.apply db) chat.request

-- The turn is one of this conversation: it names it, or opens it under a new id.
def On (conversation_id : Uuid) (db : Database) (chat : Chat) : Prop :=
  chat.payload.conversation_id = some conversation_id ∨
    chat.payload.conversation_id = none ∧ chat.world.conversation_id = conversation_id ∧ mine db conversation_id = []

-- Other requests write no message of this conversation meanwhile.
def Quiet (conversation_id : Uuid) (chat : Chat) : Prop :=
  ∀ meanwhile ∈ [chat.before_open,chat.world.before_fetch,chat.world.before_persist], ∀ db,
    mine (meanwhile.apply db) conversation_id = mine db conversation_id

-- One turn after the other: each reads the clock later than all before it.
structure Turned (conversation_id : Uuid) (s : Database × List Outcome) (chat : Chat) (next : Database × List Outcome) : Prop where
  on : On conversation_id s.1 chat
  quiet : Quiet conversation_id chat
  opened : ∀ message ∈ mine s.1 conversation_id, message.created_at < chat.world.opened_at
  closed : chat.world.opened_at < chat.world.closed_at
  final : next.1 = (chat.played s.1).final
  ended : ∃ outcomes, Ended chat.payload.message (chat.played s.1) outcomes ∧ next.2 = s.2 ++ outcomes

-- The list handed to `llm_provider.stream`, if the turn gets that far.
def transcript (chat : Chat) (db : Database) : Option (List LLMMessage) :=
  match openTurn chat.world.fails (chat.before_open.apply db) chat.request chat.world.conversation_id
    chat.world.user_message_id chat.world.opened_at with
  | .error _ => none
  | .ok (first,_,history) =>
    match runRetrieval chat.world (chat.world.before_fetch.apply first) history chat.request.user_message with
    | .error _ => none
    | .ok (_,context_chunks) => some (llmMessages history context_chunks chat.request.user_message)

-- What the Messages API requires.
def WellFormed (messages : List LLMMessage) : Prop :=
  (∃ first, messages.head? = some first ∧ first.role = .user) ∧ ∀ message ∈ messages, message.content ≠ []

-- No window edge between a question and its answer, and no empty answer in the
-- window.
def Regular (outcomes : List Outcome) : Prop :=
  ∀ question answer later, .answered question answer :: later <:+ outcomes →
    (rows later).length + 1 ≠ 20 ∧ ((rows later).length < 20 → answer ≠ [])

-- Ten answers and a question without one: twenty-one rows, so the window starts
-- with an answer.
example : ¬ Regular (List.replicate 10 (.answered "Hello".toList "Hi".toList) ++ [.failed "Hello".toList]) :=
  fun regular => (regular _ _ (List.replicate 9 (.answered "Hello".toList "Hi".toList) ++ [.failed "Hello".toList])
    List.suffix_rfl).1 rfl

theorem rows_cons (outcome : Outcome) (rest : List Outcome) : rows (outcome :: rest) = outcome.rows ++ rows rest := rfl

theorem rows_append (front later : List Outcome) : rows (front ++ later) = rows front ++ rows later := List.flatMap_append

-- A question and an answer stand before what follows them.
theorem rows_suffix (below : .answered question answer :: later <:+ outcomes) :
    (rows later).length + 2 ≤ (rows outcomes).length := by
  obtain ⟨front,rfl⟩ := below
  rw [rows_append,rows_cons,List.length_append,List.length_append]
  simp only [Outcome.rows,List.length_cons,List.length_nil]
  omega

-- The window starts with a question unless its edge parts one from its answer.
theorem last_head (n : Nat) (outcomes : List Outcome) :
    (∀ turn, (last n (rows outcomes)).head? = some turn → turn.role = .user) ↔
      ∀ question answer later, .answered question answer :: later <:+ outcomes → (rows later).length + 1 ≠ n := by
  induction outcomes with
  | nil => simp [rows,last]
  | cons outcome rest ih =>
    simp only [rows_cons,List.suffix_cons_iff]
    by_cases inside : n ≤ (rows rest).length
    · rw [last_append_of_le inside,ih]
      refine ⟨?_,fun all question answer later below => all question answer later (.inr below)⟩
      rintro all question answer later (⟨rfl,rfl⟩ | below)
      · omega
      · exact all question answer later below
    · rw [last_append_of_ge (by omega)]
      -- the edge lies in this outcome, so no later one can meet it
      have beyond {question answer : Str} {later : List Outcome} (below : .answered question answer :: later <:+ rest) :
          (rows later).length + 1 ≠ n := by
        have := rows_suffix below
        omega
      cases outcome with
      | failed question =>
        rw [last_of_length_le (by simp only [Outcome.rows,List.length_singleton]; omega)]
        refine iff_of_true ?_ ?_
        · rintro turn first
          cases first
          rfl
        · rintro _ _ later (same | below)
          · cases same
          · exact beyond below
      | answered question answer =>
        by_cases edge : n - (rows rest).length = 1
        · rw [edge]
          refine iff_of_false (fun all => ?_) fun all => ?_
          · cases all _ rfl
          · exact all question answer rest (.inl rfl) (by omega)
        · rw [last_of_length_le (by simp only [Outcome.rows,List.length_cons,List.length_nil]; omega)]
          refine iff_of_true ?_ ?_
          · rintro turn first
            cases first
            rfl
          · rintro _ _ later (⟨⟨⟩,rfl⟩ | below)
            · omega
            · exact beyond below

-- A window holds no empty text unless it holds an empty answer.
theorem last_contents (n : Nat) {outcomes : List Outcome} (asked : ∀ outcome ∈ outcomes, outcome.question ≠ []) :
    (∀ turn ∈ last n (rows outcomes), turn.content ≠ []) ↔
      ∀ question answer later, .answered question answer :: later <:+ outcomes → (rows later).length < n → answer ≠ [] := by
  induction outcomes with
  | nil => simp [rows,last]
  | cons outcome rest ih =>
    obtain ⟨question_asked,rest_asked⟩ := List.forall_mem_cons.mp asked
    simp only [rows_cons,List.suffix_cons_iff]
    by_cases inside : n ≤ (rows rest).length
    · rw [last_append_of_le inside,ih rest_asked]
      refine ⟨?_,fun all question answer later below => all question answer later (.inr below)⟩
      rintro all question answer later (⟨rfl,rfl⟩ | below) near
      · omega
      · exact all question answer later below near
    · have whole := ih rest_asked
      rw [last_of_length_le (by omega)] at whole
      rw [last_append_of_ge (by omega),List.forall_mem_append,whole]
      cases outcome with
      | failed question =>
        rw [last_of_length_le (by simp only [Outcome.rows,List.length_singleton]; omega)]
        refine ⟨?_,fun all => ⟨?_,fun question answer later below => all question answer later (.inr below)⟩⟩
        · rintro ⟨_,all⟩ question answer later (same | below)
          · cases same
          · exact all question answer later below
        · exact List.forall_mem_singleton.mpr question_asked
      | answered question answer =>
        have here : (∀ turn ∈ last (n - (rows rest).length) (Outcome.answered question answer).rows, turn.content ≠ []) ↔
            answer ≠ [] := by
          by_cases edge : n - (rows rest).length = 1
          · rw [edge]
            exact List.forall_mem_singleton
          · rw [last_of_length_le (by simp only [Outcome.rows,List.length_cons,List.length_nil]; omega)]
            refine ⟨fun all => all ⟨.assistant,answer⟩ (by simp [Outcome.rows]),fun some_text => ?_⟩
            exact List.forall_mem_cons.mpr ⟨question_asked,List.forall_mem_singleton.mpr some_text⟩
        rw [here]
        constructor
        · rintro ⟨some_text,all⟩ question answer later (⟨⟨⟩,rfl⟩ | below) near
          · exact some_text
          · exact all _ _ later below near
        · intro all
          exact ⟨all question answer rest (.inl rfl) (by omega),fun _ _ later below => all _ _ later (.inr below)⟩

-- What the model reads is well formed when both parts of `Regular` hold.
theorem regular_iff {outcomes : List Outcome} (asked : ∀ outcome ∈ outcomes, outcome.question ≠ []) :
    Regular outcomes ↔ (∀ turn, (last 20 (rows outcomes)).head? = some turn → turn.role = .user) ∧
      ∀ turn ∈ last 20 (rows outcomes), turn.content ≠ [] := by
  rw [last_head,last_contents 20 asked]
  exact ⟨fun regular => ⟨fun question answer later below => (regular question answer later below).1,
      fun question answer later below => (regular question answer later below).2⟩,
    fun both question answer later below => ⟨both.1 question answer later below,both.2 question answer later below⟩⟩

theorem prompt_nonempty (context_block question : Str) : buildRagUserPrompt context_block question ≠ [] := by
  have header : "Context excerpts:\n\n".toList ≠ [] := by decide
  unfold buildRagUserPrompt
  exact List.append_ne_nil_of_left_ne_nil (List.append_ne_nil_of_left_ne_nil (List.append_ne_nil_of_left_ne_nil header _) _) _

theorem wellFormed_llmMessages (history : List ChatTurn) (context_chunks : List ContextChunk) (user_message : Str) :
    WellFormed (llmMessages history context_chunks user_message) ↔
      (∀ turn, history.head? = some turn → turn.role = .user) ∧ ∀ turn ∈ history, turn.content ≠ [] := by
  unfold WellFormed llmMessages
  dsimp only
  generalize asked : buildRagUserPrompt _ user_message = prompt
  have nonempty : prompt ≠ [] := asked ▸ prompt_nonempty _ _
  rw [List.forall_mem_append,List.forall_mem_map,List.forall_mem_singleton]
  cases history with
  | nil => simp [nonempty]
  | cons turn rest => simp [nonempty]

-- The three ways a turn can go.
inductive Course (world : World) (db : Database) (request : Request) (played : Played) : Prop where
  | refused : played.first = none → played.final = db → Course world db request played
  | failed : openTurn world.fails db request world.conversation_id world.user_message_id world.opened_at =
        .ok (first,conversation,history) → played.first = some first →
      played.before = world.before_persist.apply (world.before_fetch.apply first) → played.final = played.before →
      Course world db request played
  | answered : openTurn world.fails db request world.conversation_id world.user_message_id world.opened_at =
        .ok (first,conversation,history) → played.first = some first →
      played.before = world.before_persist.apply (world.before_fetch.apply first) →
      persistTurn world.fails played.before conversation request.user_id world.assistant_message_id world.closed_at g
        cited_indices = .ok played.final → Course world db request played

theorem course (world : World) (db : Database) (request : Request) :
    Course world db request (streamChatTurn world db request) := by
  generalize turn : streamChatTurn world db request = out
  unfold streamChatTurn at turn
  split at turn
  · subst turn
    exact .refused rfl rfl
  · rename_i first conversation history opened
    dsimp only at turn
    split at turn
    · subst turn
      exact .failed opened rfl rfl rfl
    · obtain ⟨committed,before,ended⟩ := finishTurn_cases turn
      rcases ended with ⟨unsaved,_⟩ | ⟨_,_,persisted,_⟩
      · exact .failed opened committed before (unsaved.trans before.symm)
      · exact .answered opened committed before (before ▸ persisted)

theorem Ended.unique (first : Ended question played outcomes) (second : Ended question played others) : outcomes = others := by
  cases first with
  | refused none =>
    cases second with
    | refused => rfl
    | failed some | answered some => cases none.symm.trans some
  | failed some unsaved =>
    cases second with
    | refused none => cases none.symm.trans some
    | failed => rfl
    | answered _ saved =>
      rw [unsaved] at saved
      simpa using congrArg List.length saved
  | answered some saved =>
    cases second with
    | refused none => cases none.symm.trans some
    | failed _ unsaved =>
      rw [unsaved] at saved
      simpa using congrArg List.length saved
    | answered _ other =>
      cases List.append_cancel_left (saved.symm.trans other)
      rfl

-- Every turn ends in one of the ways an outcome records.
theorem ended_total (chat : Chat) (db : Database) : ∃ outcomes, Ended chat.payload.message (chat.played db) outcomes := by
  cases course chat.world (chat.before_open.apply db) chat.request with
  | refused none _ => exact ⟨_,.refused none⟩
  | failed _ committed _ final => exact ⟨_,.failed committed final⟩
  | answered _ committed _ persisted =>
    obtain ⟨_,_,tables⟩ := persistTurn_parts persisted
    exact ⟨_,.answered committed (congrArg Tables.messages tables)⟩

theorem mine_append {db : Database} (conversation_id : Uuid) (added : List Message) (messages : db.messages = front ++ added)
    (all : ∀ message ∈ added, message.conversation_id = conversation_id) :
    mine db conversation_id = front.filter (·.conversation_id = conversation_id) ++ added := by
  unfold mine
  rw [messages,List.filter_append]
  congr 1
  exact List.filter_eq_self.mpr fun message member => decide_eq_true (all message member)

theorem opens_mine (on : On conversation_id db chat)
    (opened : openTurn chat.world.fails start chat.request chat.world.conversation_id chat.world.user_message_id
      chat.world.opened_at = .ok (first,conversation,history)) :
    conversation.id = conversation_id ∧ history = loadHistory start conversation_id ∧
      mine first conversation_id = mine start conversation_id ++
        [userMessage chat.request conversation_id chat.world.user_message_id chat.world.opened_at] := by
  obtain ⟨named,read⟩ := openTurn_history opened
  obtain ⟨_,_,_,_,tables⟩ := openTurn_parts opened
  have same : conversation.id = conversation_id := by
    rw [named]
    rcases on with asked | ⟨unasked,fresh,_⟩
    · rw [show chat.request.conversation_id = _ from asked]
      rfl
    · rw [show chat.request.conversation_id = _ from unasked]
      exact fresh
  subst same
  exact ⟨rfl,read,mine_append _ _ (congrArg Tables.messages tables :) (List.forall_mem_singleton.mpr rfl)⟩

-- The rows of a conversation tell its outcomes, in the order of their clocks.
structure Told (conversation_id : Uuid) (s : Database × List Outcome) : Prop where
  ordered : (mine s.1 conversation_id).Pairwise fun a b => a.created_at < b.created_at
  told : (mine s.1 conversation_id).map (fun m => ⟨m.role,m.content⟩) = rows s.2
  asked : ∀ outcome ∈ s.2, outcome.question ≠ []

-- So the history a turn loads is the end of what was said.
theorem Told.history (told : Told conversation_id s) (same : mine db conversation_id = mine s.1 conversation_id) :
    loadHistory db conversation_id = last 20 (rows s.2) := by
  rw [← told.told,← same]
  have ordered := told.ordered
  rw [← same] at ordered
  unfold loadHistory last
  rw [List.length_map,← List.map_drop]
  exact congrArg _ (latest_eq_last Message.created_at ordered 20)

-- Rows stored later than all before them are told after them.
theorem Told.append (told : Told conversation_id s) {added : List Message}
    (grown : mine next conversation_id = mine s.1 conversation_id ++ added)
    (ordered : added.Pairwise fun a b => a.created_at < b.created_at)
    (later : ∀ old ∈ mine s.1 conversation_id, ∀ new ∈ added, old.created_at < new.created_at)
    (said : added.map (fun m => ⟨m.role,m.content⟩) = rows outcomes) (asked : ∀ outcome ∈ outcomes, outcome.question ≠ []) :
    Told conversation_id (next,s.2 ++ outcomes) where
  ordered := by
    rw [grown]
    exact List.pairwise_append.mpr ⟨told.ordered,ordered,later⟩
  told := by rw [grown,List.map_append,told.told,said,rows_append]
  asked := List.forall_mem_append.mpr ⟨told.asked,asked⟩

theorem ChatRequest.message_nonempty (payload : ChatRequest) : payload.message ≠ [] :=
  List.length_pos_iff.mp payload.min_length

theorem Told.turned (told : Told conversation_id s) (turned : Turned conversation_id s chat next) :
    Told conversation_id next := by
  obtain ⟨outcomes,ended,grown⟩ := turned.ended
  rw [← Prod.mk.eta (p := next),grown,turned.final]
  have quiet := turned.quiet
  simp only [Quiet,List.forall_mem_cons,List.not_mem_nil,false_imp_iff,implies_true,and_true] at quiet
  obtain ⟨before_open,before_fetch,before_persist⟩ := quiet
  have asked := chat.payload.message_nonempty
  change Ended _ (streamChatTurn chat.world (chat.before_open.apply s.1) chat.request) _ at ended
  change Told _ ((streamChatTurn chat.world (chat.before_open.apply s.1) chat.request).final,_)
  revert ended
  cases course chat.world (chat.before_open.apply s.1) chat.request with
  | refused none unchanged =>
    intro ended
    cases ended.unique (.refused none)
    rw [unchanged]
    exact told.append (by rw [before_open,List.append_nil]) .nil (by simp) rfl (by simp)
  | @failed first conversation history opened committed before unsaved =>
    intro ended
    cases ended.unique (.failed committed unsaved)
    obtain ⟨_,_,question⟩ := opens_mine turned.on opened
    rw [unsaved,before]
    refine told.append (by rw [before_persist,before_fetch,question,before_open]) (List.pairwise_singleton _ _) ?_ rfl
      (List.forall_mem_singleton.mpr asked)
    exact fun old member => List.forall_mem_singleton.mpr (turned.opened old member)
  | @answered first conversation history g cited_indices opened committed before persisted =>
    intro ended
    obtain ⟨_,_,tables⟩ := persistTurn_parts persisted
    have messages := (congrArg Tables.messages tables :)
    cases ended.unique (.answered committed messages)
    obtain ⟨same,_,question⟩ := opens_mine turned.on opened
    have answer := mine_append conversation_id _ messages (List.forall_mem_singleton.mpr same)
    change _ = mine _ _ ++ _ at answer
    rw [before,before_persist,before_fetch,question,before_open,List.append_assoc] at answer
    refine told.append answer ?_ ?_ rfl (List.forall_mem_singleton.mpr asked)
    · exact List.pairwise_pair.mpr turned.closed
    · intro old member new added
      have opened := turned.opened old member
      rcases List.mem_pair.mp added with rfl | rfl
      · exact opened
      · exact Nat.lt_trans opened turned.closed

theorem Told.run (fresh : mine db conversation_id = []) (turns : Runs (Turned conversation_id) (db,[]) chats s) :
    Told conversation_id s := by
  refine turns.preserves ⟨?_,?_,?_⟩ fun _ _ _ told turned => told.turned turned
  · rw [fresh]
    exact .nil
  · rw [fresh]
    rfl
  · exact fun _ member => nomatch member

theorem transcript_well_formed_iff_regular (fresh : mine db conversation_id = [])
    (turns : Runs (Turned conversation_id) (db,[]) chats s) (on : On conversation_id s.1 next)
    (quiet : Quiet conversation_id next) (sent : transcript next s.1 = some messages) :
    WellFormed messages ↔ Regular s.2 := by
  have told := Told.run fresh turns
  unfold transcript at sent
  split at sent
  · cases sent
  · rename_i first conversation history opened
    split at sent
    · cases sent
    · cases sent
      obtain ⟨_,read,_⟩ := opens_mine on opened
      rw [wellFormed_llmMessages,regular_iff told.asked,read,
        told.history (quiet next.before_open List.mem_cons_self s.1)]

def same : Meanwhile := ⟨fun db => db,fun _ _ member => member⟩

-- "Hello" in a new conversation, then in the same one.
def opening : Chat := ⟨⟨none,"Hello".toList,by decide,by decide⟩,⟨7⟩,⟨9⟩,calm,same⟩

def following : Chat where
  payload := ⟨some ⟨1⟩,"Hello".toList,by decide,by decide⟩
  workspace_id := ⟨7⟩
  user_id := ⟨9⟩
  world := {calm with user_message_id := ⟨12⟩,assistant_message_id := ⟨13⟩,opened_at := 2,closed_at := 3}
  before_open := same

-- A provider that refuses whatever is not the transcript of this turn.
def strict (messages : List LLMMessage) : LLMStream :=
  if transcript opening tenant = some messages then opening.world.stream messages
  else ⟨some ⟨true,"unasked".toList⟩,[],none,.error ⟨true,"unasked".toList⟩⟩

-- The model answers with no text block.
def wordless : Chat :=
  {opening with world := {calm with stream := fun _ => ⟨none,[],none,.ok ⟨[],"claude-opus-4-8".toList,⟨9,0,0,0⟩⟩⟩}}

theorem quiet_of_same (before_open : chat.before_open = same) (before_fetch : chat.world.before_fetch = same)
    (before_persist : chat.world.before_persist = same) : Quiet conversation_id chat := by
  intro meanwhile member db
  rw [before_open,before_fetch,before_persist] at member
  simp only [List.mem_cons,List.not_mem_nil,or_false,or_self] at member
  rw [member]
  rfl

-- The first turn of a conversation, played in the workspace of `tenant`.
theorem first_turned (unnamed : chat.payload.conversation_id = none) (key : chat.world.conversation_id = ⟨1⟩)
    (quiet : Quiet ⟨1⟩ chat) (closed : chat.world.opened_at < chat.world.closed_at)
    (ended : Ended chat.payload.message (chat.played tenant) outcomes) :
    Runs (Turned ⟨1⟩) (tenant,[]) [chat] ((chat.played tenant).final,outcomes) :=
  .single ⟨.inr ⟨unnamed,key,rfl⟩,quiet,(fun _ member => nomatch member),closed,rfl,outcomes,ended,rfl⟩

theorem regular_conversation_sends_well_formed : ∃ messages,
    transcript following (opening.played tenant).final = some messages ∧
      (WellFormed messages ↔ Regular [.answered "Hello".toList "See[1]".toList]) := by
  obtain ⟨messages,sent⟩ : ∃ messages, transcript following (opening.played tenant).final = some messages :=
    Option.isSome_iff_exists.mp (by decide +kernel)
  obtain ⟨first,committed⟩ : ∃ first, (opening.played tenant).first = some first :=
    Option.isSome_iff_exists.mp (by decide +kernel)
  have saved : (opening.played tenant).final.messages = (opening.played tenant).before.messages ++
      [⟨⟨3⟩,⟨1⟩,.assistant,"See[1]".toList,some "claude-opus-4-8".toList,some ⟨9,2,0,0⟩,1⟩] := by decide +kernel
  exact ⟨messages,sent,transcript_well_formed_iff_regular rfl
    (first_turned rfl rfl (quiet_of_same rfl rfl rfl) (by decide) (.answered committed saved)) (.inl rfl) (quiet_of_same rfl rfl rfl) sent⟩

-- The wordless answer is stored and sent back with the next question.
theorem empty_answer_sent : ¬ ∀ conversation_id db chats s next messages, mine db conversation_id = [] →
    Runs (Turned conversation_id) (db,[]) chats s → On conversation_id s.1 next → Quiet conversation_id next →
    transcript next s.1 = some messages → WellFormed messages := by
  intro all
  obtain ⟨outcomes,ended⟩ := ended_total wordless tenant
  obtain ⟨messages,sent⟩ : ∃ messages, transcript following (wordless.played tenant).final = some messages :=
    Option.isSome_iff_exists.mp (by decide +kernel)
  have formed := all ⟨1⟩ tenant _ _ following messages rfl
    (first_turned rfl rfl (quiet_of_same rfl rfl rfl) (by decide) ended) (.inl rfl) (quiet_of_same rfl rfl rfl) sent
  have wordy : (transcript following (wordless.played tenant).final).all (·.all (·.content ≠ [])) = true := by
    rw [sent]
    exact List.all_eq_true.mpr fun message member => decide_eq_true (formed.2 message member)
  exact absurd wordy (by decide +kernel)

end RagForge.Transcripts
