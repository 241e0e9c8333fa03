import Mathlib.Algebra.GroupWithZero.Nat
import RagForge.ChatTurns

namespace RagForge.TurnUsage
open RagForge ChatService ChatTurns PyText Fallible

-- What the answers of the language model report of their tokens. An interrupted
-- call reports nothing.
def rewriteReported (settings : Settings) (generate : List LLMMessage → Except Failure LLMResponse)
    (history : List ChatTurn) (user_message : Str) : List LLMUsage :=
  let history := lastItems settings.RETRIEVAL_HISTORY_TURNS_FOR_REWRITE history
  if history.isEmpty then [] else
  let history_text := join ['\n'] (history.map fun turn => turn.role.value ++ ": ".toList ++ turn.content)
  match generate [⟨.user,buildQueryRewriteUserPrompt history_text user_message⟩] with
  | .error _ => []
  | .ok response => [response.usage]

def answerReported : Except Failure Generation → List LLMUsage
  | .error _ => []
  | .ok g => [g.final_response.usage]

-- Over a whole turn: the rewrite of the query comes first, whatever becomes of
-- the answer.
def reported (world : World) (db : Database) (request : Request) : List LLMUsage :=
  match openTurn world.fails db request world.conversation_id world.user_message_id world.opened_at with
  | .error _ => []
  | .ok (first,_,history) => rewriteReported world.settings world.generate history request.user_message ++
      answerReported (generation world (world.before_fetch.apply first) history request.user_message).2

-- What `_load_history` returns for the turn, in the database it starts from.
def priorTurns (world : World) (db : Database) (request : Request) : List ChatTurn :=
  loadHistory db (request.conversation_id.getD world.conversation_id)

theorem openTurn_prior {world : World}
    (opened : openTurn fails db request world.conversation_id message_id now = .ok (after,conversation,history)) :
    history = priorTurns world db request := by
  obtain ⟨key,read⟩ := openTurn_history opened
  rw [read,key]
  rfl

-- The rewrite call of a turn, when there is one.
def rewriteCall (world : World) (db : Database) (request : Request) : Except Failure LLMResponse :=
  let history := lastItems world.settings.RETRIEVAL_HISTORY_TURNS_FOR_REWRITE (priorTurns world db request)
  world.generate [⟨.user,buildQueryRewriteUserPrompt
    (join ['\n'] (history.map fun turn => turn.role.value ++ ": ".toList ++ turn.content)) request.user_message⟩]

-- No message precedes this one in its conversation, or the provider counts
-- nothing for the rewrite.
def NoRewriteTokens (world : World) (db : Database) (request : Request) : Prop :=
  priorTurns world db request = [] ∨ ∀ response, rewriteCall world db request = .ok response →
    response.usage.input_tokens = 0 ∧ response.usage.output_tokens = 0

theorem lastItems_nil {xs : List α} : lastItems n xs = [] ↔ xs = [] := by
  unfold lastItems
  split
  · rfl
  · rw [List.drop_eq_nil_iff,← List.length_eq_zero_iff]
    omega

-- The rows the two transactions of the turn add to `usage_records`.
def recorded (db : Database) (played : Played) : List UsageRecord :=
  (played.first.map fun first => first.usage_records.drop db.usage_records.length).getD [] ++
    played.final.usage_records.drop played.before.usage_records.length

structure Accounted (db : Database) (reported : List LLMUsage) (played : Played) : Prop where
  input : ((recorded db played).map (·.tokens_input)).sum = (reported.map (·.input_tokens)).sum
  output : ((recorded db played).map (·.tokens_output)).sum = (reported.map (·.output_tokens)).sum

theorem rewrite_reported (rewritten : rewriteQueryNode settings generate history user_message = .ok query) :
    let recent := lastItems settings.RETRIEVAL_HISTORY_TURNS_FOR_REWRITE history
    history = [] ∧ rewriteReported settings generate history user_message = [] ∨
      history ≠ [] ∧ ∃ response, generate [⟨.user,buildQueryRewriteUserPrompt
          (join ['\n'] (recent.map fun turn => turn.role.value ++ ": ".toList ++ turn.content)) user_message⟩] = .ok response ∧
        rewriteReported settings generate history user_message = [response.usage] := by
  unfold rewriteQueryNode at rewritten
  unfold rewriteReported
  dsimp only at rewritten ⊢
  split at rewritten
  · rename_i empty
    rw [if_pos empty]
    exact .inl ⟨lastItems_nil.mp (List.isEmpty_iff.mp empty),rfl⟩
  · rename_i recent
    rw [if_neg recent]
    refine .inr ⟨fun none => recent (List.isEmpty_iff.mpr (lastItems_nil.mpr none)),?_⟩
    obtain ⟨response,answered,_⟩ := bind_ok.mp rewritten
    exact ⟨response,answered,by rw [answered]⟩

theorem generation_rewritten {texts : List Str} (generated : generation world db history user_message = (texts,.ok g)) :
    ∃ query, rewriteQueryNode world.settings world.generate history user_message = .ok query := by
  unfold generation at generated
  split at generated
  · cases generated
  · rename_i retrieved
    obtain ⟨query,rewritten,_⟩ := bind_ok.mp retrieved
    exact ⟨query,rewritten⟩

-- A turn that ends in `done` records the answer's tokens and nothing else.
theorem finishTurn_recorded {world : World} {request : Request} {texts : List Str}
    (opened : openTurn world.fails db request world.conversation_id message_id now = .ok (first,conversation,history))
    (finished : finishTurn world first (world.before_persist.apply (world.before_fetch.apply first)) conversation
      request.user_id texts g = out)
    (done : out.events.getLast? = some (.done answer_id conversation_id context_chunks cited_indices)) :
    ∃ workspace, recorded db out = [chatUsage g workspace request.user_id] := by
  obtain ⟨opening,before,unsaved | ⟨_,_,persisted,_⟩⟩ := finishTurn_cases finished
  · exact absurd done (unsaved.2 _ _ _ _)
  · obtain ⟨stored,_,_,_,first_tables⟩ := openTurn_parts opened
    obtain ⟨_,_,final_tables⟩ := persistTurn_parts persisted
    obtain ⟨w,there,same⟩ := first.keys.conversation_workspace conversation stored
    have kept := world.before_persist.keeps _ w (world.before_fetch.keeps _ w there)
    obtain ⟨workspace,looked⟩ : ∃ workspace, Database.getWorkspace _ conversation.workspace_id = some workspace :=
      Option.isSome_iff_exists.mp (List.find?_isSome.mpr ⟨w,kept,decide_eq_true same⟩)
    have unmetered : first.usage_records = db.usage_records := by rw [first_tables]
    have metered : out.final.usage_records = out.before.usage_records ++ [chatUsage g workspace request.user_id] := by
      rw [final_tables,before]; simp [usageRows,looked]
    refine ⟨workspace,?_⟩
    simp [recorded,opening,unmetered,metered]

-- Beside the answer there is only the rewrite to account for.
theorem accounted_rewrite {rewritten : List LLMUsage} (rows : recorded db played = [chatUsage g workspace user_id]) :
    Accounted db (rewritten ++ [g.final_response.usage]) played ↔
      (rewritten.map (·.input_tokens)).sum = 0 ∧ (rewritten.map (·.output_tokens)).sum = 0 := by
  have balance (total answer : Nat) : answer = total + answer ↔ total = 0 := by omega
  constructor
  · rintro ⟨input,output⟩
    rw [rows,List.map_append,List.sum_append] at input output
    exact ⟨(balance _ _).mp input,(balance _ _).mp output⟩
  · rintro ⟨input,output⟩
    constructor
    · rw [rows,List.map_append,List.sum_append]; exact (balance _ _).mpr input
    · rw [rows,List.map_append,List.sum_append]; exact (balance _ _).mpr output

theorem accounted_iff (world : World) (db : Database) (request : Request)
    (done : (streamChatTurn world db request).events.getLast? =
      some (.done message_id conversation_id context_chunks cited_indices)) :
    Accounted db (reported world db request) (streamChatTurn world db request) ↔ NoRewriteTokens world db request := by
  unfold reported
  unfold streamChatTurn at done ⊢
  cases opened : openTurn world.fails db request world.conversation_id world.user_message_id world.opened_at with
  | error error => rw [opened] at done; cases done
  | ok opening =>
    obtain ⟨first,conversation,history⟩ := opening
    rw [opened] at done
    dsimp only at done ⊢
    rcases generated : generation world (world.before_fetch.apply first) history request.user_message with ⟨texts,error | g⟩
    · rw [generated] at done; simp at done
    · rw [generated] at done
      dsimp only at done ⊢
      obtain ⟨workspace,rows⟩ := finishTurn_recorded opened rfl done
      obtain ⟨query,rewritten⟩ := generation_rewritten generated
      have read : history = priorTurns world db request := openTurn_prior opened
      rw [answerReported,accounted_rewrite rows]
      subst read
      rcases rewrite_reported rewritten with ⟨fresh,silent⟩ | ⟨followed,response,answered,one⟩
      · rw [silent]
        exact iff_of_true ⟨rfl,rfl⟩ (.inl fresh)
      · have call : rewriteCall world db request = .ok response := answered
        rw [one]
        simp [NoRewriteTokens,followed,call]

-- A provider that counts its rewrites, and a conversation with one earlier
-- message.
def counting : World :=
  {calm with generate := fun _ => .ok ⟨"alpha".toList,"claude-opus-4-8".toList,⟨7,3,0,0⟩⟩}

def underway : Database where
  workspaces := tenant.workspaces
  documents := tenant.documents
  document_chunks := tenant.document_chunks
  ingestion_jobs := []
  conversations := [⟨⟨4⟩,⟨7⟩,⟨9⟩,"Hello".toList⟩]
  messages := [⟨⟨12⟩,⟨4⟩,.user,"Hello".toList,none,none,0⟩]
  message_citations := []
  usage_records := []
  keys := by decide

theorem first_turn_accounted : Accounted tenant (reported counting tenant hello) (streamChatTurn counting tenant hello) :=
  (accounted_iff counting tenant hello rfl).mpr (.inl rfl)

theorem rewrite_tokens_unrecorded : ¬ ∀ (world : World) (db : Database) (request : Request)
    (message_id conversation_id : Uuid) (context_chunks : List ContextChunk) (cited_indices : List Nat),
    (streamChatTurn world db request).events.getLast? =
      some (.done message_id conversation_id context_chunks cited_indices) →
    Accounted db (reported world db request) (streamChatTurn world db request) := by
  intro all
  have accounts := all counting underway ⟨⟨7⟩,⟨9⟩,some ⟨4⟩,"And then?".toList⟩ ⟨3⟩ ⟨4⟩ _ [1] rfl
  exact absurd accounts.input (by decide)

end RagForge.TurnUsage
