import RagForge.ChatService

namespace RagForge.ChatTurns
open RagForge ChatService PyText Fallible

-- Tokens, then one terminal event, and no exception out of the generator.
def WellFormed (played : Played) : Prop :=
  (∃ (texts : List Str) (last : Event), played.events = texts.map Event.token ++ [last] ∧ last.terminal = true) ∧ played.raised = none

theorem not_wellFormed_raised {played : Played} (raised : played.raised = some error) : ¬ WellFormed played :=
  fun formed => nomatch formed.2.symm.trans raised

-- The answer can be closed with an event: no marker is longer than `int`
-- reads, and a turn that cannot be saved can at least be rolled back.
def Finishes (world : World) (later : Database) (conversation : Conversation) (g : Generation) : Prop :=
  (∀ digits ∈ markers g.fullText, digits.length ≤ maxStrDigits) ∧
    (world.fails .rollback = none ∨
      ∀ cited_indices, extractCitedIndices g.fullText g.context_chunks.length = .ok cited_indices →
        Persists world later conversation g cited_indices)

theorem finishTurn_well_formed {texts : List Str} :
    WellFormed (finishTurn world first later conversation user_id texts g) ↔ Finishes world later conversation g := by
  unfold finishTurn Finishes
  rw [← extractCitedIndices_ok (n := g.context_chunks.length)]
  cases extracted : extractCitedIndices g.fullText g.context_chunks.length with
  | error error => exact iff_of_false (not_wellFormed_raised rfl) fun both => nomatch both.1
  | ok cited_indices =>
    simp only [Except.ok.injEq,exists_eq',true_and,forall_eq']
    rw [← persistTurn_ok user_id world.assistant_message_id world.closed_at]
    cases persistTurn world.fails later conversation user_id world.assistant_message_id world.closed_at g cited_indices with
    | ok final => exact iff_of_true ⟨⟨texts,_,rfl,rfl⟩,rfl⟩ (.inr ⟨final,rfl⟩)
    | error error =>
      cases world.fails .rollback with
      | none => exact iff_of_true ⟨⟨texts,_,rfl,rfl⟩,rfl⟩ (.inl rfl)
      | some second => exact iff_of_false (not_wellFormed_raised rfl) (by simp)

-- The regions no handler turns into an event: the opening transaction, and
-- what `Finishes` says of an answer that arrives.
def Closes (world : World) (db : Database) (request : Request) : Prop :=
  Opens world db request ∧ ∀ first conversation history texts g,
    openTurn world.fails db request world.conversation_id world.user_message_id world.opened_at =
      .ok (first,conversation,history) →
    generation world (world.before_fetch.apply first) history request.user_message = (texts,.ok g) →
    Finishes world (world.before_persist.apply (world.before_fetch.apply first)) conversation g

theorem stream_chat_turn_well_formed (world : World) (db : Database) (request : Request) :
    WellFormed (streamChatTurn world db request) ↔ Closes world db request := by
  unfold streamChatTurn Closes
  rw [← openTurn_ok world.conversation_id world.user_message_id world.opened_at]
  cases opened : openTurn world.fails db request world.conversation_id world.user_message_id world.opened_at with
  | error error => exact iff_of_false (not_wellFormed_raised rfl) fun both => nomatch both.1
  | ok out =>
    obtain ⟨first,conversation,history⟩ := out
    rcases played : generation world (world.before_fetch.apply first) history request.user_message with ⟨texts,ended⟩
    cases ended with
    | error error =>
      simp only [played]
      refine iff_of_true ⟨⟨texts,_,rfl,rfl⟩,rfl⟩ ⟨⟨_,rfl⟩,?_⟩
      rintro _ _ _ other g ⟨⟩ answered
      rw [played] at answered
      cases answered
    | ok g =>
      simp only [played,finishTurn_well_formed]
      constructor
      · intro finishes
        refine ⟨⟨_,rfl⟩,?_⟩
        rintro _ _ _ other answer ⟨⟩ answered
        rw [played] at answered
        cases answered
        exact finishes
      · exact fun closes => closes.2 _ _ _ _ _ rfl played

-- A workspace with one indexed document, and services that find its chunk and
-- cite it.
def tenant : Database where
  workspaces := [⟨⟨7⟩,⟨8⟩⟩]
  documents := [⟨⟨5⟩,⟨7⟩,"a.txt".toList,"text/plain".toList,5,"a".toList,.completed,none⟩]
  document_chunks := [⟨⟨6⟩,⟨5⟩,⟨7⟩,0,"Alpha".toList,1,⟨11⟩,some 1⟩]
  ingestion_jobs := []
  conversations := []
  messages := []
  message_citations := []
  usage_records := []
  keys := by decide

def calm : World where
  settings := {}
  fails := fun _ => none
  conversation_id := ⟨1⟩
  user_message_id := ⟨2⟩
  assistant_message_id := ⟨3⟩
  opened_at := 0
  closed_at := 1
  generate := fun _ => .ok ⟨[],[],⟨0,0,0,0⟩⟩
  hybridRetrieve := fun _ => .ok [⟨⟨6⟩,1⟩]
  rerank := fun _ _ => .ok [⟨0,1⟩]
  stream := fun _ => ⟨none,["See".toList,"[1]".toList],none,
    .ok ⟨"See[1]".toList,"claude-opus-4-8".toList,⟨9,2,0,0⟩⟩⟩
  before_fetch := ⟨fun db => db,fun _ _ member => member⟩
  before_persist := ⟨fun db => db,fun _ _ member => member⟩

-- A conversation id that names no row: the generator raises before any event.
theorem unknown_conversation_raises :
    ¬ ∀ world db request, WellFormed (streamChatTurn world db request) :=
  fun all => not_wellFormed_raised rfl (all calm tenant ⟨⟨7⟩,⟨9⟩,some ⟨4⟩,"Hello".toList⟩)

-- What a turn that ends in `done` has added in its last transaction.
structure Saved (request : Request) (played : Played) (conversation : Conversation) (message_id : Uuid)
    (context_chunks : List ContextChunk) (cited_indices : List Nat) (texts : List Str) : Prop where
  assistant : ∃ row, played.final.messages = played.before.messages ++ [row] ∧ row.id = message_id ∧
    row.conversation_id = conversation.id ∧ row.role = .assistant ∧ row.content = texts.flatten
  citations : ∃ rows, played.final.message_citations = played.before.message_citations ++ rows ∧
    rows.map (·.marker_index) = cited_indices ∧ ∀ row ∈ rows, row.message_id = message_id ∧
      ∃ chunk, context_chunks[row.marker_index - 1]? = some chunk ∧ Uuid.parse chunk.chunk_id = some row.chunk_id
  distinct : cited_indices.Nodup
  usage : ∃ row, played.final.usage_records = played.before.usage_records ++ [row] ∧
    row.event_type = .chat_message ∧ row.workspace_id = some request.workspace_id

theorem getItem_pred {xs : List α} {i : Nat} (low : 1 ≤ i) (found : getItem xs ((i : Int) - 1) = some x) :
    xs[i - 1]? = some x := by
  unfold getItem at found
  rw [if_pos (by omega),show ((i : Int) - 1).toNat = i - 1 by omega] at found
  exact found

theorem generation_parts {texts : List Str} (generated : generation world db history user_message = (texts,.ok g)) :
    g.full_text_parts = texts ∧ ∃ messages, (world.stream messages).text_stream = texts ∧
      (world.stream messages).final_response = .ok g.final_response := by
  unfold generation at generated
  split at generated
  · cases generated
  · dsimp only at generated
    split at generated
    · cases generated
    · split at generated
      · cases generated
      · split at generated
        · cases generated
        · rename_i final answered
          cases generated
          exact ⟨rfl,_,rfl,answered⟩

-- Only `done` comes with a committed last transaction.
theorem finishTurn_cases {texts : List Str} (finished : finishTurn world first later conversation user_id texts g = out) :
    out.first = some first ∧ out.before = later ∧
      ((out.final = later ∧ ∀ a b c d, out.events.getLast? ≠ some (.done a b c d)) ∨
        ∃ cited_indices, extractCitedIndices g.fullText g.context_chunks.length = .ok cited_indices ∧
          persistTurn world.fails later conversation user_id world.assistant_message_id world.closed_at g cited_indices =
            .ok out.final ∧
          out.events = texts.map .token ++ [.done world.assistant_message_id conversation.id g.context_chunks cited_indices]) := by
  have tokens : ∀ a b c d, (texts.map Event.token).getLast? ≠ some (.done a b c d) := by
    intro a b c d last
    obtain ⟨text,_,equal⟩ := List.mem_map.mp (List.mem_of_getLast? last)
    cases equal
  unfold finishTurn at finished
  split at finished
  · subst finished
    exact ⟨rfl,rfl,.inl ⟨rfl,tokens⟩⟩
  · rename_i cited_indices extracted
    split at finished
    · split at finished
      · subst finished
        exact ⟨rfl,rfl,.inl ⟨rfl,tokens⟩⟩
      · subst finished
        exact ⟨rfl,rfl,.inl ⟨rfl,fun a b c d last => by simp at last⟩⟩
    · rename_i final persisted
      subst finished
      exact ⟨rfl,rfl,.inr ⟨cited_indices,extracted,persisted,rfl⟩⟩

-- A saved turn carries one assistant message with the streamed text, one
-- citation for each cited index and one usage row.
theorem saved_of_persistTurn {world : World} {texts : List Str} (request : Request) (events : List Event) (first : Database)
    (persisted : persistTurn world.fails later conversation request.user_id message_id now g cited_indices = .ok final)
    (extracted : extractCitedIndices g.fullText g.context_chunks.length = .ok cited_indices)
    (there : ∃ w ∈ later.workspaces, w.id = conversation.workspace_id)
    (home : conversation.workspace_id = request.workspace_id) (text : g.fullText = texts.flatten) :
    Saved request ⟨events,none,some first,later,final⟩ conversation message_id g.context_chunks cited_indices texts := by
  obtain ⟨citations,built,tables⟩ := persistTurn_parts persisted
  obtain ⟨distinct,bounds⟩ := extractCitedIndices_bounds extracted
  refine ⟨⟨_,congrArg Tables.messages tables,rfl,rfl,rfl,text⟩,
    ⟨citations,congrArg Tables.message_citations tables,?_,?_⟩,distinct,?_⟩
  · exact List.forall₂_eq_eq_eq ▸ (List.forall₂_map_left_iff.mpr (built.flip.imp fun row idx one => (citation_parts one).2.1))
  · intro row member
    obtain ⟨idx,cited,one⟩ := forall₂_right built member
    obtain ⟨message,marker,chunk,found,parsed⟩ := citation_parts one
    subst marker
    exact ⟨message,chunk,getItem_pred (bounds _ cited).1 found,parsed⟩
  · obtain ⟨w,stored,same⟩ := there
    have found : ∃ w, later.getWorkspace conversation.workspace_id = some w :=
      Option.isSome_iff_exists.mp (List.find?_isSome.mpr ⟨w,stored,decide_eq_true same⟩)
    obtain ⟨workspace,looked⟩ := found
    refine ⟨chatUsage g workspace request.user_id,?_,rfl,?_⟩
    · have usage := congrArg Tables.usage_records tables
      simpa [usageRows,looked] using usage
    · rw [← home,← (Database.getWorkspace_mem looked).2]; rfl

-- The answer of a faithful provider is the text already streamed.
theorem generation_text {texts : List Str}
    (faithful : ∀ messages final, (world.stream messages).final_response = .ok final →
      final.content = (world.stream messages).text_stream.flatten)
    (generated : generation world db history user_message = (texts,.ok g)) : g.fullText = texts.flatten := by
  obtain ⟨parts,messages,streamed,answered⟩ := generation_parts generated
  have content := faithful messages _ answered
  rw [streamed] at content
  simp [Generation.fullText,parts,content]

theorem finishTurn_saved {world : World} {texts : List Str} {request : Request}
    (finished : finishTurn world first later conversation request.user_id texts g = out)
    (there : ∃ w ∈ later.workspaces, w.id = conversation.workspace_id) (home : conversation.workspace_id = request.workspace_id)
    (text : g.fullText = texts.flatten) (last : out.events.getLast? = some (.done message_id conversation_id context_chunks cited)) :
    out.events = texts.map Event.token ++ [.done message_id conversation_id context_chunks cited] ∧
      Saved request out conversation message_id context_chunks cited texts := by
  obtain ⟨_,before_eq,ended⟩ := finishTurn_cases finished
  rcases ended with ⟨_,unsaved⟩ | ⟨cited_indices,extracted,persisted,closed⟩
  · exact absurd last (unsaved _ _ _ _)
  · rw [closed,List.getLast?_append_of_ne_nil _ (List.cons_ne_nil _ _)] at last
    cases Option.some.inj last
    have saved := saved_of_persistTurn request out.events first persisted extracted there home text
    exact ⟨closed,before_eq ▸ saved.assistant,before_eq ▸ saved.citations,saved.distinct,before_eq ▸ saved.usage⟩

theorem finishTurn_unsaved {texts : List Str} (finished : finishTurn world first later conversation user_id texts g = out)
    (unsaved : ∀ a b c d, out.events.getLast? ≠ some (.done a b c d)) : out.final = out.before := by
  obtain ⟨_,before_eq,ended⟩ := finishTurn_cases finished
  rcases ended with ⟨unchanged,_⟩ | ⟨_,_,_,closed⟩
  · rw [unchanged,before_eq]
  · exact absurd (closed ▸ List.getLast?_concat) (unsaved _ _ _ _)

theorem stream_chat_turn_all_or_nothing (world : World) (db first : Database) (request : Request)
    (faithful : ∀ messages final, (world.stream messages).final_response = .ok final →
      final.content = (world.stream messages).text_stream.flatten)
    (committed : (streamChatTurn world db request).first = some first) :
    ∃ conversation ∈ first.conversations,
      first.messages = db.messages ++ [userMessage request conversation.id world.user_message_id world.opened_at] ∧
      first.message_citations = db.message_citations ∧ first.usage_records = db.usage_records ∧
      (∀ message_id conversation_id context_chunks cited_indices,
        (streamChatTurn world db request).events.getLast? =
          some (.done message_id conversation_id context_chunks cited_indices) →
        ∃ texts : List Str, (streamChatTurn world db request).events =
            texts.map Event.token ++ [.done message_id conversation_id context_chunks cited_indices] ∧
          Saved request (streamChatTurn world db request) conversation message_id context_chunks cited_indices texts) ∧
      ((∀ a b c d, (streamChatTurn world db request).events.getLast? ≠ some (.done a b c d)) →
        (streamChatTurn world db request).final = (streamChatTurn world db request).before) := by
  generalize turn : streamChatTurn world db request = out at committed ⊢
  unfold streamChatTurn at turn
  cases opened : openTurn world.fails db request world.conversation_id world.user_message_id world.opened_at with
  | error error =>
    rw [opened] at turn
    subst turn
    cases committed
  | ok opening =>
    obtain ⟨start,conversation,history⟩ := opening
    obtain ⟨stored,home,added,_,tables⟩ := openTurn_parts opened
    have kept : start.messages = db.messages ++ [userMessage request conversation.id world.user_message_id world.opened_at] ∧
        start.message_citations = db.message_citations ∧ start.usage_records = db.usage_records := by
      rw [tables]; exact ⟨rfl,rfl,rfl⟩
    rw [opened] at turn
    dsimp only at turn
    have opening (same : out.first = some start) : start = first :=
      Option.some.inj (same.symm.trans committed)
    split at turn
    · rename_i texts error _
      subst turn
      cases opening rfl
      exact ⟨conversation,stored,kept.1,kept.2.1,kept.2.2,fun _ _ _ _ last => by simp at last,fun _ => rfl⟩
    · rename_i texts g generated
      cases opening (finishTurn_cases turn).1
      refine ⟨conversation,stored,kept.1,kept.2.1,kept.2.2,fun _ _ _ _ last => ?_,finishTurn_unsaved turn⟩
      obtain ⟨w,there,same⟩ := first.keys.conversation_workspace conversation stored
      have later := world.before_persist.keeps _ w (world.before_fetch.keeps _ w there)
      exact ⟨texts,finishTurn_saved turn ⟨w,later,same⟩ home (generation_text faithful generated) last⟩

def hello : Request := ⟨⟨7⟩,⟨9⟩,none,"Hello".toList⟩

theorem first_turn_saved : ∃ texts conversation context_chunks,
    (streamChatTurn calm tenant hello).events = texts.map Event.token ++ [.done ⟨3⟩ ⟨1⟩ context_chunks [1]] ∧
      Saved hello (streamChatTurn calm tenant hello) conversation ⟨3⟩ context_chunks [1] texts := by
  obtain ⟨first,committed⟩ : ∃ first, (streamChatTurn calm tenant hello).first = some first :=
    Option.isSome_iff_exists.mp (by decide)
  obtain ⟨conversation,_,_,_,_,done,_⟩ := stream_chat_turn_all_or_nothing calm tenant first hello
    (fun _ _ answered => by cases answered; rfl) committed
  obtain ⟨texts,events,saved⟩ := done ⟨3⟩ ⟨1⟩ _ [1] rfl
  exact ⟨texts,conversation,_,events,saved⟩

end RagForge.ChatTurns
