import RagForge.CitationMarkers
import RagForge.EventStream
import RagForge.Transition

namespace RagForge.ChatHook
open RagForge EventStream MessageContent Transition Js

inductive Speaker where
  | user | assistant
  deriving DecidableEq

-- An absent `isStreaming` is read as false.
structure ChatUIMessage where
  id : Str
  role : Speaker
  content : Str
  citationsByIndex : Option (CitationMap ContextChunk)
  isStreaming : Bool
  deriving DecidableEq

structure MessageRead where
  id : Str
  role : MessageRole
  content : Str
  citations : List (CitationRead Str)

-- What the `for await` may throw: an abort, an ApiError with its message, or
-- anything else.
inductive Rejection where
  | aborted
  | api (message : Str)
  | other

structure Toast where
  title : Str
  description : Option Str

def preview (c : CitationRead Str) : ContextChunk :=
  ⟨c.chunk_id,c.document_id,c.document_filename,c.chunk_content,c.page_number,c.relevance_score⟩

def citationsByIndexFromMessage (citations : List (CitationRead Str)) : CitationMap ContextChunk :=
  citations.foldl (fun map c => map.set c.marker_index (preview c)) []

-- One row of the loaded history.
def historyMessage (m : MessageRead) : ChatUIMessage where
  id := m.id
  role := if m.role = .assistant then .assistant else .user
  content := m.content
  citationsByIndex := if m.citations.isEmpty then none else some (citationsByIndexFromMessage m.citations)
  isStreaming := false

-- A `sendMessage` that has not returned, with the conversation its closure holds.
structure Call where
  assistantId : Str
  conversationId : Option Str
  deriving DecidableEq

structure ChatPayload where
  conversation_id : Option Str
  message : Str
  deriving DecidableEq

-- One mounted `useChat`, with the requests it has posted and the paths it has
-- sent the router to.
structure View where
  conversationId : Option Str
  messages : List ChatUIMessage
  isStreaming : Bool
  isLoadingHistory : Bool
  calls : List Call
  posted : List ChatPayload
  replaced : List Str
  toasts : List Toast

-- A conversation id that is no empty text, as `!!conversationId` reads it.
def named (conversationId : Option Str) : Bool := conversationId.any fun id => !id.isEmpty

def mount (initialConversationId : Option Str) : View where
  conversationId := initialConversationId
  messages := []
  isStreaming := false
  isLoadingHistory := named initialConversationId
  calls := []
  posted := []
  replaced := []
  toasts := []

-- White space and line ends of `String.prototype.trim`.
def isTrimmed (c : Char) : Bool :=
  let n := c.toNat
  (9 ≤ n && n ≤ 13) || n == 32 || n == 0xA0 || n == 0x1680 || (0x2000 ≤ n && n ≤ 0x200A) || n == 0x2028 ||
    n == 0x2029 || n == 0x202F || n == 0x205F || n == 0x3000 || n == 0xFEFF

def trim (value : Str) : Str := ((value.dropWhile isTrimmed).reverse.dropWhile isTrimmed).reverse

def userBubble (userId text : Str) : ChatUIMessage := ⟨userId,.user,text,none,false⟩

def blankBubble (assistantId : Str) : ChatUIMessage := ⟨assistantId,.assistant,[],none,true⟩

-- The updater an event hands to `setMessages`, on one message.
def receive (assistantId : Str) (m : ChatUIMessage) (event : ChatStreamEvent) : ChatUIMessage :=
  if m.id = assistantId then
    match event with
    | .token text => {m with content := m.content ++ text}
    | .done message_id _ context_chunks cited_indices =>
      {m with
        id := message_id
        citationsByIndex := some (CitationMarkers.citationsByIndex ⟨context_chunks,cited_indices⟩)
        isStreaming := false}
    | .error message =>
      {m with content := if m.content.isEmpty then '_' :: (message ++ ['_']) else m.content,isStreaming := false}
  else m

-- `(m) => m.id !== assistantId || m.content`
def survives (assistantId : Str) (m : ChatUIMessage) : Bool := m.id ≠ assistantId || !m.content.isEmpty

namespace View

def sendMessage (v : View) (text userId assistantId : Str) : View :=
  {v with
    messages := v.messages ++ [userBubble userId text,blankBubble assistantId]
    isStreaming := true
    calls := v.calls ++ [⟨assistantId,v.conversationId⟩]
    posted := v.posted ++ [⟨v.conversationId,text⟩]}

-- The body of the `for await`.
def handle (workspaceId : Str) (v : View) (call : Call) (event : ChatStreamEvent) : View :=
  let v := {v with messages := v.messages.map fun m => receive call.assistantId m event}
  match event with
  | .token _ => v
  | .done _ conversation_id _ _ =>
    {v with
      conversationId := some conversation_id
      replaced := if named call.conversationId then v.replaced
        else v.replaced ++ ["/workspaces/".toList ++ workspaceId ++ "/chat/".toList ++ conversation_id]}
  | .error message => {v with toasts := v.toasts ++ [⟨"Response incomplete".toList,some message⟩]}

-- The `finally`.
def settle (v : View) (call : Call) : View := {v with calls := v.calls.erase call,isStreaming := false}

-- The `catch`.
def reject (v : View) (call : Call) : Rejection → View
  | .aborted => v
  | .api message =>
    {v with
      toasts := v.toasts ++ [⟨"Something went wrong".toList,some message⟩]
      messages := v.messages.filter (survives call.assistantId)}
  | .other =>
    {v with
      toasts := v.toasts ++ [⟨"Something went wrong".toList,some "Chat request failed".toList⟩]
      messages := v.messages.filter (survives call.assistantId)}

end View

inductive Label where
  | historyLoaded (history : List MessageRead)
  | historyFailed
  | submit (value userId assistantId : Str)
  | event (assistantId : Str) (event : ChatStreamEvent)
  | ended (assistantId : Str)
  | thrown (assistantId : Str) (error : Rejection)

-- `ChatView` shows no input while the history loads, and `submit` of `ChatInput`
-- ignores a blank text and a disabled input.
def advance (workspaceId : Str) (v : View) : Label → Option View
  | .historyLoaded history =>
    if v.isLoadingHistory then some {v with messages := history.map historyMessage,isLoadingHistory := false} else none
  | .historyFailed =>
    if v.isLoadingHistory then
      some {v with toasts := v.toasts ++ [⟨"Could not load conversation".toList,none⟩],isLoadingHistory := false}
    else none
  | .submit value userId assistantId =>
    if v.isLoadingHistory || (trim value).isEmpty || v.isStreaming then none
    else some (v.sendMessage (trim value) userId assistantId)
  | .event assistantId event => (v.calls.find? (·.assistantId = assistantId)).map (v.handle workspaceId · event)
  | .ended assistantId => (v.calls.find? (·.assistantId = assistantId)).map v.settle
  | .thrown assistantId error =>
    (v.calls.find? (·.assistantId = assistantId)).map fun call => (v.reject call error).settle call

abbrev Step (workspaceId : Str) : View → Label → View → Prop := taken (advance workspaceId)

-- How a turn ends: its stream runs out, its component unmounts, or it breaks.
inductive Ending where
  | ended | aborted | broken

def Rejection.ending : Rejection → Ending
  | .aborted => .aborted
  | .api _ => .broken
  | .other => .broken

-- The messages an end of the call of `assistantId` leaves standing.
def Ending.keeps (assistantId : Str) (messages : List ChatUIMessage) : Ending → List ChatUIMessage
  | .broken => messages.filter (survives assistantId)
  | _ => messages

-- A question and what the network has made of it so far.
structure Turn where
  userId : Str
  assistantId : Str
  text : Str
  events : List ChatStreamEvent
  ending : Option Ending

def Turn.bubble (t : Turn) : ChatUIMessage := t.events.foldl (receive t.assistantId) (blankBubble t.assistantId)

-- What a turn shows, from its own events alone.
def Turn.shown (t : Turn) : List ChatUIMessage :=
  userBubble t.userId t.text :: t.ending.elim [t.bubble] (Ending.keeps t.assistantId [t.bubble])

def amendLast (f : α → α) (xs : List α) : List α := xs.dropLast ++ xs.getLast?.toList.map f

@[simp] theorem amendLast_snoc (f : α → α) (xs : List α) (x : α) : amendLast f (xs ++ [x]) = xs ++ [f x] := by
  simp [amendLast]

-- The turns of a schedule, read off in order: what follows a submission belongs to it.
def note (turns : List Turn) : Label → List Turn
  | .submit value userId assistantId => turns ++ [⟨userId,assistantId,trim value,[],none⟩]
  | .event _ event => amendLast (fun t => {t with events := t.events ++ [event]}) turns
  | .ended _ => amendLast (fun t => {t with ending := some .ended}) turns
  | .thrown _ error => amendLast (fun t => {t with ending := some error.ending}) turns
  | _ => turns

def turns (labels : List Label) : List Turn := labels.foldl note []

def loaded (labels : List Label) : List ChatUIMessage :=
  labels.flatMap fun
    | .historyLoaded history => history.map historyMessage
    | _ => []

-- Ids `crypto.randomUUID` draws, and ids the server sends.
def drawn (labels : List Label) : List Str :=
  labels.flatMap fun
    | .submit _ userId assistantId => [userId,assistantId]
    | _ => []

def served (labels : List Label) : List Str :=
  labels.flatMap fun
    | .historyLoaded history => history.map (·.id)
    | .event _ (.done message_id _ _ _) => [message_id]
    | _ => []

def Apart (labels : List Label) : Prop := (drawn labels ++ served labels).Nodup

-- The conversation a turn leaves open for the next one.
def Turn.conversation (conversationId : Option Str) (t : Turn) : Option Str :=
  t.events.foldl (fun
    | _,.done _ conversation_id _ _ => some conversation_id
    | kept,_ => kept) conversationId

-- The requests of a list of turns: each names the conversation left by those
-- before it.
def thread : Option Str → List Turn → List ChatPayload
  | _,[] => []
  | conversationId,t :: rest => ⟨conversationId,t.text⟩ :: thread (t.conversation conversationId) rest

theorem turns_snoc (labels : List Label) (label : Label) : turns (labels ++ [label]) = note (turns labels) label := by
  simp [turns]

theorem Turn.bubble_event (t : Turn) (event : ChatStreamEvent) :
    ({t with events := t.events ++ [event]} : Turn).bubble = receive t.assistantId t.bubble event := by
  simp [Turn.bubble]

theorem receive_other (other : m.id ≠ assistantId) (event : ChatStreamEvent) : receive assistantId m event = m := if_neg other

-- Everything a step can do.
inductive Change (workspaceId : Str) (v : View) : Label → View → Prop where
  | loaded : v.isLoadingHistory = true →
      Change workspaceId v (.historyLoaded history) {v with messages := history.map historyMessage,isLoadingHistory := false}
  | unloaded : v.isLoadingHistory = true → Change workspaceId v .historyFailed
      {v with toasts := v.toasts ++ [⟨"Could not load conversation".toList,none⟩],isLoadingHistory := false}
  | submit : v.isLoadingHistory = false → v.isStreaming = false → trim value ≠ [] →
      Change workspaceId v (.submit value userId assistantId) (v.sendMessage (trim value) userId assistantId)
  | event : call ∈ v.calls → call.assistantId = assistantId →
      Change workspaceId v (.event assistantId event) (v.handle workspaceId call event)
  | ended : call ∈ v.calls → call.assistantId = assistantId → Change workspaceId v (.ended assistantId) (v.settle call)
  | thrown : call ∈ v.calls → call.assistantId = assistantId →
      Change workspaceId v (.thrown assistantId error) ((v.reject call error).settle call)

theorem pending_call {v : View} {f : Call → View} (moved : (v.calls.find? (·.assistantId = assistantId)).map f = some next) :
    ∃ call ∈ v.calls, call.assistantId = assistantId ∧ next = f call := by
  obtain ⟨call,found,rfl⟩ := Option.map_eq_some_iff.mp moved
  exact ⟨call,List.mem_of_find?_eq_some found,by simpa using List.find?_some found,rfl⟩

theorem step_change (moved : Step workspaceId v label next) : Change workspaceId v label next := by
  unfold Step taken advance at moved
  cases label with
  | historyLoaded history =>
    dsimp only at moved
    split at moved
    · rename_i loading
      cases moved
      exact .loaded loading
    · cases moved
  | historyFailed =>
    dsimp only at moved
    split at moved
    · rename_i loading
      cases moved
      exact .unloaded loading
    · cases moved
  | submit value userId assistantId =>
    dsimp only at moved
    split at moved
    · cases moved
    · rename_i open_
      cases moved
      simp only [Bool.or_eq_true,not_or,Bool.not_eq_true,List.isEmpty_eq_false_iff] at open_
      exact .submit open_.1.1 open_.2 open_.1.2
  | event assistantId event =>
    obtain ⟨call,pending,own,rfl⟩ := pending_call moved
    exact .event pending own
  | ended assistantId =>
    obtain ⟨call,pending,own,rfl⟩ := pending_call moved
    exact .ended pending own
  | thrown assistantId error =>
    obtain ⟨call,pending,own,rfl⟩ := pending_call moved
    exact .thrown pending own

-- No turn is under way, or exactly the last one is, and no older bubble bears
-- the id its events are addressed to.
inductive Phase (labels : List Label) (v : View) : Prop where
  | quiet : v.isStreaming = false → v.calls = [] → (∀ t ∈ turns labels, t.ending ≠ none) → Phase labels v
  | busy (front : List Turn) (t : Turn) (conversationId : Option Str) : v.isLoadingHistory = false → v.isStreaming = true →
      v.calls = [⟨t.assistantId,conversationId⟩] → turns labels = front ++ [t] → (∀ t ∈ front, t.ending ≠ none) → t.ending = none →
      t.userId ≠ t.assistantId → (∀ m ∈ loaded labels ++ front.flatMap Turn.shown, m.id ≠ t.assistantId) → Phase labels v

structure Exact (initial : Option Str) (labels : List Label) (v : View) : Prop where
  messages : v.messages = loaded labels ++ (turns labels).flatMap Turn.shown
  phase : Phase labels v
  loading : v.isLoadingHistory = true → turns labels = [] ∧ loaded labels = []
  known : ∀ m ∈ v.messages, m.id ∈ drawn labels ++ served labels
  distinct : (v.messages.map (·.id)).Nodup
  posted : v.posted = thread initial (turns labels)
  left : v.conversationId = (turns labels).foldl Turn.conversation initial

theorem apart_snoc (labels : List Label) (label : Label) : Apart (labels ++ [label]) ↔
    Apart labels ∧ Apart [label] ∧ ∀ id ∈ drawn labels ++ served labels, id ∉ drawn [label] ++ served [label] := by
  have shuffled : (drawn (labels ++ [label]) ++ served (labels ++ [label])).Perm
      ((drawn labels ++ served labels) ++ (drawn [label] ++ served [label])) := by
    simp only [drawn,served,List.flatMap_append,List.append_assoc]
    exact List.Perm.append_left _ (List.perm_append_comm_assoc _ _ _)
  unfold Apart
  rw [shuffled.nodup_iff,List.nodup_append]
  exact ⟨fun ⟨old,new,apart⟩ => ⟨old,new,fun id known fresh => apart id known id fresh rfl⟩,
    fun ⟨old,new,apart⟩ => ⟨old,new,fun id known other fresh same => apart id known (same ▸ fresh)⟩⟩

theorem loaded_snoc (labels : List Label) (label : Label) : loaded (labels ++ [label]) = loaded labels ++ loaded [label] := by
  simp [loaded]

theorem known_snoc {labels : List Label} (label : Label) (known : key ∈ drawn labels ++ served labels) :
    key ∈ drawn (labels ++ [label]) ++ served (labels ++ [label]) := by
  simp only [drawn,served,List.flatMap_append,List.mem_append] at known ⊢
  tauto

theorem new_known {label : Label} (labels : List Label) (new : key ∈ drawn [label] ++ served [label]) :
    key ∈ drawn (labels ++ [label]) ++ served (labels ++ [label]) := by
  simp only [drawn,served,List.flatMap_append,List.mem_append] at new ⊢
  tauto

theorem thread_snoc (initial : Option Str) (earlier : List Turn) (t : Turn) :
    thread initial (earlier ++ [t]) = thread initial earlier ++ [⟨earlier.foldl Turn.conversation initial,t.text⟩] := by
  induction earlier generalizing initial with
  | nil => rfl
  | cons first rest ih => simp [thread,ih]

theorem shown_open {t : Turn} (unended : t.ending = none) : t.shown = [userBubble t.userId t.text,t.bubble] := by
  simp [Turn.shown,unended]

theorem map_receive_others {ms : List ChatUIMessage} (others : ∀ m ∈ ms, m.id ≠ assistantId) (event : ChatStreamEvent) :
    ms.map (receive assistantId · event) = ms := by
  rw [List.map_congr_left fun m member => receive_other (others m member) event]
  exact List.map_id' ms

theorem filter_survives_others {ms : List ChatUIMessage} (others : ∀ m ∈ ms, m.id ≠ assistantId) : ms.filter (survives assistantId) = ms :=
  List.filter_eq_self.mpr fun m member => by simp [survives,others m member]

theorem keeps_append {ms others : List ChatUIMessage} (apart : ∀ m ∈ ms, m.id ≠ assistantId) (ending : Ending) :
    ending.keeps assistantId (ms ++ others) = ms ++ ending.keeps assistantId others := by
  cases ending with
  | broken => rw [Ending.keeps,List.filter_append,filter_survives_others apart]; rfl
  | _ => rfl

theorem keeps_sublist (ending : Ending) (assistantId : Str) (ms : List ChatUIMessage) :
    (ending.keeps assistantId ms).Sublist ms := by
  cases ending with
  | broken => exact List.filter_sublist
  | _ => exact List.Sublist.refl _

-- Only `done` renames a bubble.
theorem receive_id (m : ChatUIMessage) (event : ChatStreamEvent) : (receive assistantId m event).id = m.id ∨
    (receive assistantId m event).id ∈ served [.event assistantId event] := by
  unfold receive
  split
  · cases event <;> simp [served]
  · exact .inl rfl

-- The conversation a `done` names is the one the next request goes to.
theorem handle_conversation (workspaceId : Str) (v : View) (call : Call) (event : ChatStreamEvent) :
    (v.handle workspaceId call event).conversationId = match event with
      | .done _ conversation_id _ _ => some conversation_id
      | _ => v.conversationId := by
  cases event <;> rfl

@[simp] theorem handle_rest (workspaceId : Str) (v : View) (call : Call) (event : ChatStreamEvent) :
    (v.handle workspaceId call event).messages = v.messages.map (receive call.assistantId · event) ∧
      (v.handle workspaceId call event).calls = v.calls ∧ (v.handle workspaceId call event).posted = v.posted ∧
      (v.handle workspaceId call event).isStreaming = v.isStreaming ∧
      (v.handle workspaceId call event).isLoadingHistory = v.isLoadingHistory := by
  cases event <;> exact ⟨rfl,rfl,rfl,rfl,rfl⟩

theorem reject_rest (v : View) (call : Call) (error : Rejection) :
    (v.reject call error).messages = error.ending.keeps call.assistantId v.messages ∧
      (v.reject call error).calls = v.calls ∧ (v.reject call error).posted = v.posted ∧
      (v.reject call error).conversationId = v.conversationId ∧ (v.reject call error).isLoadingHistory = v.isLoadingHistory := by
  cases error <;> exact ⟨rfl,rfl,rfl,rfl,rfl⟩

theorem exact_loaded {v : View} (exact_ : Exact initial labels v) (apart : Apart (labels ++ [.historyLoaded history]))
    (loading : v.isLoadingHistory = true) : Exact initial (labels ++ [.historyLoaded history])
      {v with messages := history.map historyMessage,isLoadingHistory := false} := by
  obtain ⟨untouched,unloaded⟩ := exact_.loading loading
  have same : turns (labels ++ [.historyLoaded history]) = [] := by rw [turns_snoc,untouched]; rfl
  have ids : (history.map historyMessage).map (·.id) = served [.historyLoaded history] := by
    simp [served,Function.comp_def,historyMessage]
  obtain ⟨_,new,_⟩ := (apart_snoc labels _).mp apart
  refine ⟨?_,?_,(fun h => by cases h),?_,?_,?_,?_⟩
  · rw [same,loaded_snoc,unloaded]
    simp [loaded]
  · cases exact_.phase with
    | quiet still none_ _ => exact .quiet still none_ (by simp [same])
    | busy _ _ _ open_ => rw [open_] at loading; cases loading
  · intro m member
    exact new_known _ (List.mem_append_right _ (ids ▸ List.mem_map_of_mem member))
  · rw [ids]
    exact new.sublist (List.sublist_append_right _ _)
  · rw [same,← untouched]
    exact exact_.posted
  · rw [same,← untouched]
    exact exact_.left

theorem exact_submit {v : View} (exact_ : Exact initial labels v) (apart : Apart (labels ++ [.submit value userId assistantId]))
    (open_ : v.isLoadingHistory = false) (still : v.isStreaming = false) :
    Exact initial (labels ++ [.submit value userId assistantId]) (v.sendMessage (trim value) userId assistantId) := by
  obtain ⟨_,new,fresh⟩ := (apart_snoc labels _).mp apart
  have unloaded : loaded (labels ++ [.submit value userId assistantId]) = loaded labels := by
    rw [loaded_snoc]
    exact List.append_nil _
  have grown : turns (labels ++ [.submit value userId assistantId]) =
    turns labels ++ [⟨userId,assistantId,trim value,[],none⟩] := turns_snoc _ _
  have differ : userId ≠ assistantId := by
    intro same
    simp [Apart,drawn,served,same] at new
  have others (m : ChatUIMessage) (member : m ∈ v.messages) : m.id ≠ userId ∧ m.id ≠ assistantId := by
    have known := fresh _ (exact_.known m member)
    simpa [drawn,served] using known
  refine ⟨?_,?_,fun loading => absurd (open_.symm.trans loading) (by simp),?_,?_,?_,?_⟩
  · rw [unloaded,grown,List.flatMap_append,← List.append_assoc,← exact_.messages]
    rfl
  · cases exact_.phase with
    | quiet _ none_ ended =>
      refine .busy (turns labels) _ v.conversationId open_ rfl ?_ grown ended rfl differ ?_
      · change v.calls ++ _ = _
        rw [none_]
        rfl
      · rw [unloaded,← exact_.messages]
        exact fun m member => (others m member).2
    | busy _ _ _ _ streaming => rw [still] at streaming; cases streaming
  · intro m member
    rcases List.mem_append.mp member with old | added
    · exact known_snoc _ (exact_.known m old)
    · apply new_known
      rcases List.mem_pair.mp added with rfl | rfl <;> simp [drawn,userBubble,blankBubble]
  · change ((v.messages ++ _).map _).Nodup
    rw [List.map_append,List.nodup_append]
    refine ⟨exact_.distinct,by simp [userBubble,blankBubble,differ],?_⟩
    intro key old other added same
    obtain ⟨m,member,rfl⟩ := List.mem_map.mp old
    have apart := others m member
    simp only [List.map_cons,List.map_nil,List.mem_cons,List.not_mem_nil,or_false,userBubble,blankBubble] at added
    rcases added with rfl | rfl
    · exact apart.1 same
    · exact apart.2 same
  · change v.posted ++ [⟨v.conversationId,trim value⟩] = _
    rw [grown,thread_snoc,exact_.posted,exact_.left]
  · rw [grown,List.foldl_append]
    exact exact_.left

-- The call an event, an end or an exception belongs to is the one of the last turn.
structure Answering (labels : List Label) (v : View) (call : Call) (front : List Turn) (t : Turn) : Prop where
  open_ : v.isLoadingHistory = false
  streaming : v.isStreaming = true
  calls : v.calls = [call]
  own : call.assistantId = t.assistantId
  turns : turns labels = front ++ [t]
  ended : ∀ t ∈ front, t.ending ≠ none
  unended : t.ending = none
  differ : t.userId ≠ t.assistantId
  others : ∀ m ∈ loaded labels ++ front.flatMap Turn.shown, m.id ≠ t.assistantId

theorem Exact.answering {v : View} (exact_ : Exact initial labels v) (pending : call ∈ v.calls) :
    ∃ front t, Answering labels v call front t := by
  cases exact_.phase with
  | quiet _ none_ _ => rw [none_] at pending; cases pending
  | busy front t conversationId open_ streaming calls grown ended unended differ others =>
    rw [calls,List.mem_singleton] at pending
    subst pending
    exact ⟨front,t,open_,streaming,calls,rfl,grown,ended,unended,differ,others⟩

-- Everything the view shows but the bubble of the turn under way.
def Answering.rest (labels : List Label) (front : List Turn) (t : Turn) : List ChatUIMessage :=
  loaded labels ++ front.flatMap Turn.shown ++ [userBubble t.userId t.text]

theorem Answering.messages {v : View} (answering : Answering labels v call front t) (exact_ : Exact initial labels v) :
    v.messages = rest labels front t ++ [t.bubble] := by
  rw [exact_.messages,answering.turns,List.flatMap_append,List.flatMap_singleton,shown_open answering.unended]
  simp [rest]

theorem Answering.rest_others (answering : Answering labels v call front t) : ∀ m ∈ rest labels front t, m.id ≠ t.assistantId := by
  intro m member
  rcases List.mem_append.mp member with old | own
  · exact answering.others m old
  · rw [List.mem_singleton.mp own]
    exact answering.differ

theorem exact_event {v : View} (exact_ : Exact initial labels v) (apart : Apart (labels ++ [.event assistantId event]))
    (pending : call ∈ v.calls) (own : call.assistantId = assistantId) :
    Exact initial (labels ++ [.event assistantId event]) (v.handle workspaceId call event) := by
  obtain ⟨front,t,answering⟩ := exact_.answering pending
  obtain ⟨_,_,fresh⟩ := (apart_snoc labels _).mp apart
  obtain ⟨messages,calls,posted,streaming,loading⟩ := handle_rest workspaceId v call event
  have unloaded : loaded (labels ++ [.event assistantId event]) = loaded labels := by
    rw [loaded_snoc]
    exact List.append_nil _
  have amended : turns (labels ++ [.event assistantId event]) = front ++ [{t with events := t.events ++ [event]}] := by
    rw [turns_snoc,note,answering.turns,amendLast_snoc]
  have shown : (v.handle workspaceId call event).messages =
      Answering.rest labels front t ++ [receive t.assistantId t.bubble event] := by
    rw [messages,answering.messages exact_,answering.own,List.map_append,map_receive_others answering.rest_others]
    rfl
  have bubble := answering.messages exact_
  have renamed : (receive t.assistantId t.bubble event).id = t.bubble.id ∨ _ := receive_id t.bubble event
  rw [← answering.own,own] at renamed
  refine ⟨?_,?_,fun h => ?_,?_,?_,?_,?_⟩
  · have last := shown_open (t := {t with events := t.events ++ [event]}) answering.unended
    rw [shown,unloaded,amended,List.flatMap_append,List.flatMap_singleton,last,Turn.bubble_event]
    simp [Answering.rest]
  · refine .busy front _ call.conversationId (loading.trans answering.open_) (streaming.trans answering.streaming) ?_ amended
      answering.ended answering.unended answering.differ ?_
    · rw [calls,answering.calls,← answering.own]
    · rw [unloaded]
      exact answering.others
  · rw [loading,answering.open_] at h
    cases h
  · intro m member
    rw [shown] at member
    rcases List.mem_append.mp member with old | last
    · exact known_snoc _ (exact_.known m (bubble ▸ List.mem_append_left _ old))
    · rw [List.mem_singleton.mp last,← answering.own,own]
      rcases renamed with same | new
      · rw [same]
        exact known_snoc _ (exact_.known _ (bubble ▸ List.mem_append_right _ (List.mem_singleton.mpr rfl)))
      · exact new_known _ (List.mem_append_right _ new)
  · have distinct := exact_.distinct
    rw [bubble,List.map_append,List.nodup_append] at distinct
    rw [shown,List.map_append,List.nodup_append,← answering.own,own]
    refine ⟨distinct.1,List.nodup_singleton _,?_⟩
    intro key old other last same
    rw [List.map_singleton,List.mem_singleton] at last
    subst last
    rcases renamed with kept | new
    · exact distinct.2.2 key old _ (List.mem_singleton.mpr rfl) (same.trans kept)
    · obtain ⟨m,member,rfl⟩ := List.mem_map.mp old
      have known := exact_.known m (bubble ▸ List.mem_append_left _ member)
      exact fresh _ known (same ▸ List.mem_append_right _ new)
  · rw [posted,exact_.posted,answering.turns,amended,thread_snoc,thread_snoc]
  · rw [handle_conversation,exact_.left,answering.turns,amended,List.foldl_append,List.foldl_append]
    simp only [List.foldl_cons,List.foldl_nil,Turn.conversation,List.foldl_append]
    cases event <;> rfl

-- An end or an exception closes the turn under way.
theorem exact_closed {v v' : View} (exact_ : Exact initial labels v)
    (answering : Answering labels v call front t) (ending : Ending)
    (noted : note (turns labels) label = amendLast (fun t => {t with ending := some ending}) (turns labels))
    (unloaded : loaded [label] = [])
    (messages : v'.messages = ending.keeps call.assistantId v.messages)
    (calls : v'.calls = []) (streaming : v'.isStreaming = false) (loading : v'.isLoadingHistory = v.isLoadingHistory)
    (posted : v'.posted = v.posted) (left : v'.conversationId = v.conversationId) :
    Exact initial (labels ++ [label]) v' := by
  have same : loaded (labels ++ [label]) = loaded labels := by rw [loaded_snoc,unloaded,List.append_nil]
  have amended : turns (labels ++ [label]) = front ++ [{t with ending := some ending}] := by
    rw [turns_snoc,noted,answering.turns,amendLast_snoc]
  have shown : v'.messages = Answering.rest labels front t ++ ending.keeps t.assistantId [t.bubble] := by
    rw [messages,answering.messages exact_,answering.own,keeps_append answering.rest_others]
  have inside : v'.messages.Sublist v.messages := messages ▸ keeps_sublist ending _ _
  refine ⟨?_,.quiet streaming calls ?_,fun h => ?_,?_,?_,?_,?_⟩
  · rw [shown,same,amended,List.flatMap_append,List.flatMap_singleton]
    simp [Answering.rest,Turn.shown,Turn.bubble]
  · rw [amended]
    exact List.forall_mem_append.mpr ⟨answering.ended,List.forall_mem_singleton.mpr (by simp)⟩
  · rw [loading,answering.open_] at h
    cases h
  · exact fun m member => known_snoc _ (exact_.known m (inside.subset member))
  · exact exact_.distinct.sublist (inside.map _)
  · rw [posted,exact_.posted,answering.turns,amended,thread_snoc,thread_snoc]
  · rw [left,exact_.left,answering.turns,amended,List.foldl_append,List.foldl_append]
    rfl

theorem exact_step {v : View} (exact_ : Exact initial labels v) (apart : Apart (labels ++ [label]))
    (moved : Step workspaceId v label next) : Exact initial (labels ++ [label]) next := by
  cases step_change moved with
  | loaded loading => exact exact_loaded exact_ apart loading
  | unloaded loading =>
    obtain ⟨untouched,none_⟩ := exact_.loading loading
    have same : turns (labels ++ [.historyFailed]) = turns labels := turns_snoc _ _
    have unloaded : loaded (labels ++ [.historyFailed]) = loaded labels := by
      rw [loaded_snoc]
      exact List.append_nil _
    refine ⟨by rw [same,unloaded]; exact exact_.messages,?_,(fun h => by cases h),?_,exact_.distinct,?_,?_⟩
    · cases exact_.phase with
      | quiet still idle _ => exact .quiet still idle (by simp [same,untouched])
      | busy _ _ _ open_ => rw [open_] at loading; cases loading
    · exact fun m member => known_snoc _ (exact_.known m member)
    · rw [same]
      exact exact_.posted
    · rw [same]
      exact exact_.left
  | submit open_ still _ => exact exact_submit exact_ apart open_ still
  | event pending own => exact exact_event exact_ apart pending own
  | @ended call assistantId pending own =>
    obtain ⟨front,t,answering⟩ := exact_.answering pending
    refine exact_closed exact_ answering .ended rfl rfl rfl ?_ rfl rfl rfl rfl
    rw [View.settle,answering.calls]
    simp
  | @thrown call assistantId error pending own =>
    obtain ⟨front,t,answering⟩ := exact_.answering pending
    obtain ⟨messages,calls,posted,left,loading⟩ := reject_rest v call error
    refine exact_closed exact_ answering error.ending rfl rfl ?_ ?_ rfl loading posted left
    · exact messages
    · change (v.reject call error).calls.erase call = []
      rw [calls,answering.calls]
      simp

theorem mount_exact (initial : Option Str) : Exact initial [] (mount initial) where
  messages := rfl
  phase := .quiet rfl rfl fun _ member => nomatch member
  loading := fun _ => ⟨rfl,rfl⟩
  known := fun _ member => nomatch member
  distinct := List.nodup_nil
  posted := rfl
  left := rfl

theorem runs_exact (apart : Apart labels) (path : Runs (Step workspaceId) (mount initial) labels v) : Exact initial labels v := by
  refine path.history (fun labels v => Apart labels → Exact initial labels v) (fun _ => mount_exact initial) ?_ apart
  intro labels v label next _ before moved apart
  exact exact_step (before ((apart_snoc labels label).mp apart).1) apart moved

-- The bubbles are those of the turns one after the other, each made from its own
-- events; never two calls run at once, and each request goes to the conversation
-- the turns before it left.
theorem view_shows (workspaceId : Str) (initial : Option Str) (labels : List Label) (v : View) (apart : Apart labels)
    (path : Runs (Step workspaceId) (mount initial) labels v) :
    v.messages = loaded labels ++ (turns labels).flatMap Turn.shown ∧ (v.messages.map (·.id)).Nodup ∧
      v.posted = thread initial (turns labels) ∧ v.calls.length ≤ 1 ∧ (v.isStreaming = true ↔ v.calls ≠ []) ∧
      (v.isStreaming = true ↔ ∃ t ∈ turns labels, t.ending = none) := by
  have exact_ := runs_exact apart path
  refine ⟨exact_.messages,exact_.distinct,exact_.posted,?_⟩
  cases exact_.phase with
  | quiet still idle ended =>
    rw [still,idle]
    refine ⟨Nat.zero_le _,by simp,iff_of_false (by simp) ?_⟩
    rintro ⟨t,member,unended⟩
    exact ended t member unended
  | busy front t conversationId _ streaming calls grown _ unended =>
    rw [streaming,calls]
    refine ⟨Nat.le_refl _,by simp,iff_of_true rfl ⟨t,?_,unended⟩⟩
    rw [grown]
    exact List.mem_append_right _ (List.mem_singleton.mpr rfl)

theorem bubble_tokens (m : ChatUIMessage) (texts : List Str) :
    (texts.map ChatStreamEvent.token).foldl (receive m.id) m = {m with content := m.content ++ texts.flatten} := by
  induction texts generalizing m with
  | nil => simp
  | cons text rest ih =>
    have later := ih {m with content := m.content ++ text}
    rw [List.map_cons,List.foldl_cons,receive,if_pos rfl]
    simpa using later

-- A turn whose stream has brought tokens only, and has not broken off before any
-- text: neither the end of a stream nor an abort takes the mark from its bubble,
-- and a break takes an empty bubble away and leaves the others as they are.
def Turn.typing (t : Turn) : Bool :=
  t.events.all (·.isToken) && match t.ending with
    | some .broken => !(t.events.flatMap (·.text)).isEmpty
    | _ => true

-- Tokens leave the typing indicator on; whatever else comes first turns it off
-- for good.
theorem receive_off (off : m.isStreaming = false) (event : ChatStreamEvent) : (receive assistantId m event).isStreaming = false := by
  unfold receive
  split
  · cases event <;> first | exact off | rfl
  · exact off

theorem receives_off (off : m.isStreaming = false) (events : List ChatStreamEvent) :
    (events.foldl (receive assistantId) m).isStreaming = false := by
  induction events generalizing m with
  | nil => exact off
  | cons event rest ih => exact ih (receive_off off event)

theorem receives_streaming {m : ChatUIMessage} (on : m.isStreaming = true) (events : List ChatStreamEvent) :
    (events.foldl (receive m.id) m).isStreaming = events.all (·.isToken) := by
  induction events generalizing m with
  | nil => exact on
  | cons event rest ih =>
    rw [List.foldl_cons,List.all_cons]
    cases event with
    | token text =>
      rw [show receive m.id m (.token text) = {m with content := m.content ++ text} from if_pos rfl]
      exact ih (m := {m with content := m.content ++ text}) on
    | _ => exact receives_off (by simp [receive]) rest

theorem tokens_of_all {events : List ChatStreamEvent} (only : events.all (·.isToken) = true) :
    events = (events.map (·.text)).map .token := by
  rw [List.map_map]
  refine (List.map_id events).symm.trans (List.map_congr_left fun event member => ?_)
  have token := List.all_eq_true.mp only event member
  cases event with
  | token text => rfl
  | _ => cases token

theorem bubble_typing {t : Turn} (only : t.events.all (·.isToken) = true) :
    t.bubble = {blankBubble t.assistantId with content := t.events.flatMap (·.text)} := by
  have spoken := bubble_tokens (blankBubble t.assistantId) (t.events.map (·.text))
  rw [← tokens_of_all only] at spoken
  rw [List.flatMap_def]
  exact spoken

-- The marked bubbles of one turn.
theorem shown_typing (t : Turn) : t.shown.filter (·.isStreaming) = if t.typing then [t.bubble] else [] := by
  have streaming : t.bubble.isStreaming = t.events.all (·.isToken) := receives_streaming (m := blankBubble t.assistantId) rfl t.events
  have asked : (userBubble t.userId t.text).isStreaming = false := rfl
  unfold Turn.shown Turn.typing
  rw [List.filter_cons_of_neg (by simp [asked])]
  cases only : t.events.all (·.isToken) with
  | false =>
    rw [only] at streaming
    have none_ (ending : Ending) : (Ending.keeps t.assistantId [t.bubble] ending).filter (·.isStreaming) = [] :=
      List.filter_eq_nil_iff.mpr fun m member => by
        rw [List.mem_singleton.mp ((keeps_sublist ending _ _).subset member),streaming]
        exact Bool.false_ne_true
    cases t.ending with
    | none => simp [streaming]
    | some ending => simpa using none_ ending
  | true =>
    rw [only] at streaming
    have stays : survives t.assistantId t.bubble = !(t.events.flatMap (·.text)).isEmpty := by
      rw [bubble_typing only]
      simp [survives,blankBubble]
    cases t.ending with
    | none => simp [streaming]
    | some ending =>
      cases ending with
      | broken => cases said : (t.events.flatMap (·.text)).isEmpty <;> simp [Ending.keeps,stays,said,streaming]
      | _ => simp [Ending.keeps,streaming]

theorem loaded_settled (labels : List Label) : (loaded labels).filter (·.isStreaming) = [] := by
  refine List.filter_eq_nil_iff.mpr fun m member => ?_
  obtain ⟨label,_,inside⟩ := List.mem_flatMap.mp member
  cases label with
  | historyLoaded history =>
    obtain ⟨row,_,rfl⟩ := List.mem_map.mp inside
    exact Bool.false_ne_true
  | _ => cases inside

-- The bubbles that keep typing are, in order, those of the turns whose stream has
-- brought neither a closing event nor an error and has not broken off before any
-- text.
theorem typing_bubbles (workspaceId : Str) (initial : Option Str) (labels : List Label) (v : View) (apart : Apart labels)
    (path : Runs (Step workspaceId) (mount initial) labels v) :
    v.messages.filter (·.isStreaming) = ((turns labels).filter Turn.typing).map Turn.bubble := by
  rw [(runs_exact apart path).messages,List.filter_append,loaded_settled,List.nil_append]
  induction turns labels with
  | nil => rfl
  | cons t rest ih =>
    rw [List.flatMap_cons,List.filter_append,ih,shown_typing]
    cases marked : t.typing <;> simp [marked]

-- A first turn that is answered, and a second one that breaks before any text.
def session : List Label :=
  [.submit " Hello\n".toList "u1".toList "a1".toList,.event "a1".toList (.token "He".toList),
    .event "a1".toList (.token "re".toList),.event "a1".toList (.done "m1".toList "c1".toList ⟨[],by decide⟩ []),
    .ended "a1".toList,.submit "Why?".toList "u2".toList "a2".toList,.thrown "a2".toList .other]

theorem session_shown : ∃ v, Runs (Step "w".toList) (mount none) session v ∧
    v.messages = [userBubble "u1".toList "Hello".toList,⟨"m1".toList,.assistant,"Here".toList,some [],false⟩,
      userBubble "u2".toList "Why?".toList] ∧
    v.posted = [⟨none,"Hello".toList⟩,⟨some "c1".toList,"Why?".toList⟩] := by
  obtain ⟨v,path,_⟩ := run_any (advance "w".toList) (mount none) session (fun _ => true) (by decide +kernel)
  obtain ⟨messages,_,posted,_⟩ := view_shows "w".toList none session v (by unfold Apart; decide +kernel) path
  exact ⟨v,path,by rw [messages]; decide +kernel,by rw [posted]; decide +kernel⟩

-- Its second stream breaks after a token: the bubble stays and keeps typing.
theorem broken_keeps_typing : ∃ v, Runs (Step "w".toList) (mount none)
    (session.take 6 ++ [.event "a2".toList (.token "Be".toList),.thrown "a2".toList .other]) v ∧ v.isStreaming = false ∧
      v.messages.filter (·.isStreaming) = [⟨"a2".toList,.assistant,"Be".toList,none,true⟩] := by
  obtain ⟨v,path,idle⟩ := run_any (advance "w".toList) (mount none)
    (session.take 6 ++ [.event "a2".toList (.token "Be".toList),.thrown "a2".toList .other]) (fun v => !v.isStreaming) (by decide +kernel)
  refine ⟨v,path,by simpa using idle,?_⟩
  rw [typing_bubbles "w".toList none _ v (by unfold Apart; decide +kernel) path]
  decide +kernel

end RagForge.ChatHook
