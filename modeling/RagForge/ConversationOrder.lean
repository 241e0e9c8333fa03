import RagForge.Provenance
import RagForge.VectorLedger
import RagForge.RankedList

namespace RagForge.ConversationOrder
open RagForge Transition Site ChatService
open RagForge.Provenance (Opening)

-- `conversations.updated_at` beside the other columns, by the row's id.
structure Stamped where
  stores : Stores
  updated_at : Uuid → Nat

-- `server_default` stamps an inserted row and `onupdate` a row an UPDATE changes.
def touch (now : Nat) (before after : Database) (updated_at : Uuid → Nat) (id : Uuid) : Nat :=
  if after.getConversation id = before.getConversation id then updated_at id else now

-- `now()` of the transactions of a turn; no other step writes a conversation.
def clock : Site.Label → Nat
  | .turn (.open_ _ _ now) => now
  | .turn (.persist _ now) => now
  | _ => 0

def act (deployment : Deployment) (i : Nat) (s : Stamped) (a : Activity) (label : Site.Label) : Option (Stamped × Activity) :=
  (Site.act deployment i s.stores a label).map fun out =>
    (⟨out.1,touch (clock label) s.stores.db out.1.db s.updated_at⟩,out.2)

abbrev Config := Interleave.Config Stamped Activity
abbrev Step (deployment : Deployment) : Config → Nat × Site.Label → Config → Prop := Interleave.Step (act deployment)

def conversationsOf (s : Stamped) (workspace_id : Uuid) : List Conversation :=
  s.stores.db.conversations.filter (·.workspace_id = workspace_id)

-- `order_by(updated_at.desc())` leaves the order of equal timestamps open, so
-- this says what an answer may be.
def listConversations (s : Stamped) (workspace_id : Uuid) (rows : List Conversation) : Prop :=
  rows.Perm (conversationsOf s workspace_id) ∧ rows.Pairwise fun a b => s.updated_at b.id ≤ s.updated_at a.id

-- Messages stand in the order of their commits: the place of the last one of a
-- conversation, counted from 1, and 0 without one.
def lastMessage (messages : List Message) (conversation_id : Uuid) : Nat :=
  messages.length - messages.reverse.findIdx (·.conversation_id = conversation_id)

def ByRecency (s : Stamped) (workspace_id : Uuid) : Prop :=
  ∀ rows, listConversations s workspace_id rows → rows.Pairwise fun a b =>
    lastMessage s.stores.db.messages b.id < lastMessage s.stores.db.messages a.id

theorem lastMessage_le (messages : List Message) (id : Uuid) : lastMessage messages id ≤ messages.length := Nat.sub_le _ _

theorem lastMessage_own (messages : List Message) (message : Message) :
    lastMessage (messages ++ [message]) message.conversation_id = messages.length + 1 := by
  simp [lastMessage,List.findIdx_cons]

theorem lastMessage_other {messages : List Message} {conversation_id : Uuid} (other : message.conversation_id ≠ conversation_id) :
    lastMessage (messages ++ [message]) conversation_id = lastMessage messages conversation_id := by
  simp [lastMessage,List.findIdx_cons,other]

-- The timestamps and the messages order the conversations alike.
def Agree (s : Stamped) (workspace_id : Uuid) : Prop :=
  ∀ a ∈ conversationsOf s workspace_id, ∀ b ∈ conversationsOf s workspace_id, a.id ≠ b.id → s.updated_at a.id ≤ s.updated_at b.id →
    lastMessage s.stores.db.messages a.id < lastMessage s.stores.db.messages b.id

def Keyed (s : Stamped) : Prop := (s.stores.db.conversations.map Conversation.id).Nodup

theorem conversationsOf_keyed (keyed : Keyed s) (w : Uuid) : ((conversationsOf s w).map Conversation.id).Nodup :=
  keyed.sublist (List.filter_sublist.map _)

-- Of two rows, the one with the older or the same timestamp may stand behind.
theorem listConversations_behind {s : Stamped} (keyed : Keyed s) (first : a ∈ conversationsOf s w) (second : b ∈ conversationsOf s w)
    (le : s.updated_at a.id ≤ s.updated_at b.id) : ∃ rows, listConversations s w rows ∧
      ∀ R : Conversation → Conversation → Prop, rows.Pairwise R → a.id ≠ b.id → R b a := by
  have distinct : (conversationsOf s w).Nodup := (conversationsOf_keyed keyed w).of_map
  have perm := List.perm_cons_erase second
  let score : Conversation → Nat := fun row => s.updated_at row.id
  refine ⟨RankedList.ranked score (b :: (conversationsOf s w).erase b),
    ⟨RankedList.ranked_perm _ |>.trans perm.symm,RankedList.ranked_sorted score _⟩,?_⟩
  intro R related different
  have front : (b :: (conversationsOf s w).erase b).Pairwise fun _ y => y ≠ b := by
    refine List.pairwise_cons.mpr ⟨?_,?_⟩
    · rintro y member rfl
      exact (distinct.not_mem_erase member).elim
    · refine List.Pairwise.imp_of_mem ?_ (List.pairwise_of_forall (R := fun _ _ => True) fun _ _ => trivial)
      rintro _ y _ member _ rfl
      exact (distinct.not_mem_erase member).elim
  have order := (RankedList.ranked_stable front).and related
  have inside {x : Conversation} (member : x ∈ conversationsOf s w) : x ∈ RankedList.ranked score (b :: (conversationsOf s w).erase b) :=
    (RankedList.ranked_perm _).mem_iff.mpr (perm.mem_iff.mp member)
  obtain ⟨i,bound,here⟩ := List.mem_iff_getElem.mp (inside first)
  obtain ⟨j,bound',there⟩ := List.mem_iff_getElem.mp (inside second)
  have pairs := List.pairwise_iff_getElem.mp order
  rcases Nat.lt_trichotomy i j with before | same | after
  · have both := pairs i j bound bound' before
    rw [here,there] at both
    rcases both.1 with less | ⟨_,off⟩
    · exact absurd less (Nat.not_lt.mpr le)
    · exact absurd rfl off
  · subst same
    exact absurd (congrArg Conversation.id (here.symm.trans there)) different
  · have both := pairs j i bound' bound after
    rw [here,there] at both
    exact both.2

theorem byRecency_iff (keyed : Keyed s) : ByRecency s w ↔ Agree s w := by
  constructor
  · intro recent a first b second different le
    obtain ⟨rows,listed,behind⟩ := listConversations_behind keyed first second le
    exact behind _ (recent rows listed) different
  · intro agree rows ⟨perm,sorted⟩
    have distinct : rows.Pairwise fun a b => a.id ≠ b.id :=
      List.pairwise_map.mp (((perm.map _).nodup_iff).mpr (conversationsOf_keyed keyed w))
    refine List.Pairwise.imp_of_mem ?_ (sorted.and distinct)
    intro a b first second both
    exact agree b (perm.mem_iff.mp second) a (perm.mem_iff.mp first) both.2.symm both.1

-- A turn whose database answers every call.
def quiet : World where
  settings := {}
  fails := Turn.never
  conversation_id := ⟨0⟩
  user_message_id := ⟨0⟩
  assistant_message_id := ⟨0⟩
  opened_at := 0
  closed_at := 0
  generate _ := .ok ⟨[],[],⟨0,0,0,0⟩⟩
  hybridRetrieve _ := .ok []
  rerank _ _ := .ok []
  stream _ := ⟨none,[],none,.ok ⟨[],[],⟨0,0,0,0⟩⟩⟩
  before_fetch := ⟨id,fun _ _ stored => stored⟩
  before_persist := ⟨id,fun _ _ stored => stored⟩

-- Every excerpt the answer cites is still stored.
def Citable (db : Database) (g : Generation) (cited_indices : List Nat) : Prop :=
  ∀ idx ∈ cited_indices, ∃ chunk key, getItem g.context_chunks ((idx : Int) - 1) = some chunk ∧
    Uuid.parse chunk.chunk_id = some key ∧ ∃ row ∈ db.document_chunks, row.id = key

-- The step commits a message to this conversation of this workspace; its row then
-- has this timestamp.
inductive Sends (s : Stamped) : Activity → Site.Label → Uuid → Uuid → Nat → Prop where
  | again : request.conversation_id = some key → s.stores.db.getConversation key = some row →
      row.workspace_id = request.workspace_id →
      Sends s (.turn (.requested request worker)) (.turn (.open_ conversation_id message_id now))
        request.workspace_id key (s.updated_at key)
  | new : request.conversation_id = none → (∃ w ∈ s.stores.db.workspaces, w.id = request.workspace_id) →
      Sends s (.turn (.requested request worker)) (.turn (.open_ conversation_id message_id now))
        request.workspace_id conversation_id now
  | answer : s.stores.db.getConversation conversation.id = some row → Citable s.stores.db g cited_indices →
      Sends s (.turn (.generated request conversation g cited_indices)) (.turn (.persist message_id now))
        row.workspace_id conversation.id (s.updated_at conversation.id)

theorem Sends.unique (first : Sends s a label w key at_) (second : Sends s a label w' key' at') : w' = w ∧ key' = key ∧ at' = at_ := by
  cases first with
  | again named found home =>
    cases second with
    | again named' found' _ =>
      cases named.symm.trans named'
      exact ⟨rfl,rfl,rfl⟩
    | new absent _ => cases named.symm.trans absent
  | new absent _ =>
    cases second with
    | again named _ _ => cases absent.symm.trans named
    | new => exact ⟨rfl,rfl,rfl⟩
  | answer found _ =>
    cases second with
    | answer found' _ =>
      cases found.symm.trans found'
      exact ⟨rfl,rfl,rfl⟩

theorem opens_iff : (∃ out, openTurn Turn.never db request conversation_id message_id now = .ok out) ↔
    Addressed Turn.never db request := by
  have answers : _ ↔ Opens quiet db request := openTurn_ok conversation_id message_id now
  refine answers.trans ?_
  simp [Opens,quiet,Turn.never]

theorem persists_iff : (∃ after, persistTurn Turn.never db conversation user_id message_id now g cited_indices = .ok after) ↔
    (∃ row, db.getConversation conversation.id = some row) ∧ Citable db g cited_indices := by
  have answers : _ ↔ Persists quiet db conversation g cited_indices := persistTurn_ok user_id message_id now
  have stored : (∃ row, db.getConversation conversation.id = some row) ↔ ∃ c ∈ db.conversations, c.id = conversation.id := by
    simp [Database.getConversation,← Option.isSome_iff_exists]
  refine answers.trans ?_
  simp [Persists,Citable,quiet,Turn.never,stored]

theorem touch_still {before after : Database} (same : after.conversations = before.conversations) :
    touch now before after updated_at = updated_at := by
  funext key
  unfold touch Database.getConversation
  rw [same]
  exact if_pos rfl

theorem touch_added {before after : Database} (added : after.conversations = before.conversations ++ [row])
    (fresh : row.id ∉ before.conversations.map Conversation.id) (key : Uuid) :
    touch now before after updated_at key = if key = row.id then now else updated_at key := by
  unfold touch Database.getConversation
  rw [added,List.find?_append]
  by_cases own : key = row.id
  · subst own
    have absent : before.conversations.find? (·.id = row.id) = none := by
      refine List.find?_eq_none.mpr fun other stored => ?_
      intro same
      exact fresh (List.mem_map.mpr ⟨other,stored,of_decide_eq_true same⟩)
    simp [absent]
  · have away : ¬ row.id = key := fun same => own same.symm
    simp [away,own]

structure Still (s s' : Stamped) : Prop where
  conversations : s'.stores.db.conversations = s.stores.db.conversations
  messages : s'.stores.db.messages = s.stores.db.messages
  updated_at : s'.updated_at = s.updated_at

structure Sent (s s' : Stamped) (workspace_id key : Uuid) (at_ : Nat) : Prop where
  conversations : ∃ row, row.id = key ∧ row.workspace_id = workspace_id ∧
    (s'.stores.db.conversations = s.stores.db.conversations ∧ row ∈ s.stores.db.conversations ∨
      s'.stores.db.conversations = s.stores.db.conversations ++ [row] ∧ key ∉ s.stores.db.conversations.map Conversation.id ∧
        key ∈ s'.stores.issued.map Prod.fst)
  messages : ∃ message, message.conversation_id = key ∧ s'.stores.db.messages = s.stores.db.messages ++ [message]
  own : s'.updated_at key = at_
  others : ∀ other, other ≠ key → s'.updated_at other = s.updated_at other

-- A commit that sends no message leaves both tables.
theorem commit_still {s : Stamped} (commit : Commits.Commit s.stores.db a label after a') (silent : ∀ w key at_, ¬ Sends s a label w key at_) :
    after.conversations = s.stores.db.conversations ∧ after.messages = s.stores.db.messages := by
  cases commit with
  | upload enforced =>
    have tables := Database.enforce_tables enforced
    exact ⟨(congrArg Tables.conversations tables :),(congrArg Tables.messages tables :)⟩
  | reingest _ enforced =>
    have tables := Database.enforce_tables enforced
    exact ⟨(congrArg Tables.conversations tables :),(congrArg Tables.messages tables :)⟩
  | load loaded =>
    obtain ⟨_,_,_,_,_,tables⟩ := Commits.load_tables loaded
    exact ⟨(congrArg Tables.conversations tables :),(congrArg Tables.messages tables :)⟩
  | persist persisted =>
    have tables := Commits.persist_tables persisted
    exact ⟨(congrArg Tables.conversations tables :),(congrArg Tables.messages tables :)⟩
  | @mark d message now =>
    have tables := Commits.markFailed_tables s.stores.db d message now
    exact ⟨(congrArg Tables.conversations tables :),(congrArg Tables.messages tables :)⟩
  | @open_ request conversation_id message_id now _ _ _ worker opened =>
    have addressed := opens_iff.mp ⟨_,opened⟩
    unfold Addressed at addressed
    split at addressed
    · rename_i key named
      obtain ⟨_,row,found,home⟩ := addressed
      exact absurd (.again named found home) (silent _ _ _)
    · rename_i absent
      exact absurd (.new absent addressed.2) (silent _ _ _)
  | save persisted =>
    obtain ⟨⟨row,found⟩,citable⟩ := persists_iff.mp ⟨_,persisted⟩
    exact absurd (.answer found citable) (silent _ _ _)
  | delete => exact ⟨rfl,rfl⟩
  | none => exact ⟨rfl,rfl⟩

-- Rows are apart and their ids are among those drawn.
structure Known (s : Stamped) : Prop where
  keyed : Keyed s
  drawn : ∀ row ∈ s.stores.db.conversations, row.id ∈ s.stores.issued.map Prod.fst

-- A message to a conversation that is there leaves its row and its timestamp.
theorem sent_there {s : Stamped} (now : Nat) (stored : row ∈ s.stores.db.conversations) (same : row.id = key)
    (home : row.workspace_id = w) (conversations : stores.db.conversations = s.stores.db.conversations)
    (messages : stores.db.messages = s.stores.db.messages ++ [message]) (mine : message.conversation_id = key) :
    Sent s ⟨stores,touch now s.stores.db stores.db s.updated_at⟩ w key (s.updated_at key) := by
  constructor
  · exact ⟨row,same,home,.inl ⟨conversations,stored⟩⟩
  · exact ⟨message,mine,messages⟩
  · exact congrFun (touch_still conversations) key
  · exact fun other _ => congrFun (touch_still conversations) other

-- An addressed request opens its turn, with the ids it draws.
theorem opening_parts (addressed : Addressed Turn.never s.db request)
    (turned : Turn.act deployment s (.requested request worker) (.open_ conversation_id message_id now) = some (stores,phase)) :
    ∃ db conversation history after, openTurn Turn.never s.db request conversation_id message_id now = .ok (db,conversation,history) ∧
      s.draw request.workspace_id (Turn.openingIds request conversation_id message_id) = some after ∧ stores = {after with db := db} := by
  obtain ⟨⟨db,conversation,history⟩,opened⟩ : ∃ out, openTurn Turn.never s.db request conversation_id message_id now = .ok out :=
    opens_iff.mpr addressed
  dsimp only [Turn.act] at turned
  rw [opened] at turned
  obtain ⟨after,drawn,equal⟩ := Option.map_eq_some_iff.mp turned
  cases equal
  exact ⟨db,conversation,history,after,opened,drawn,rfl⟩

theorem again_sent (turned : Turn.act deployment s.stores (.requested request worker) (.open_ conversation_id message_id now) = some (stores,phase))
    (named : request.conversation_id = some key) (found : s.stores.db.getConversation key = some row)
    (home : row.workspace_id = request.workspace_id) :
    Sent s ⟨stores,touch now s.stores.db stores.db s.updated_at⟩ request.workspace_id key (s.updated_at key) := by
  have addressed : Addressed Turn.never s.stores.db request := by
    unfold Addressed
    rw [named]
    exact ⟨rfl,row,found,home⟩
  obtain ⟨db,conversation,history,after,opened,drawn,rfl⟩ := opening_parts addressed turned
  have own : conversation.id = key := by rw [(ChatService.openTurn_history opened).1,named]; rfl
  obtain ⟨_,_,added,origin,tables⟩ := openTurn_parts opened
  obtain ⟨stored,same⟩ := Database.getConversation_mem found
  have nothing : added = [] := origin.elim id fun new => nomatch named.symm.trans new.1
  subst nothing
  rw [List.append_nil] at tables
  apply sent_there now stored same home
  · exact (congrArg Tables.conversations tables :)
  · exact (congrArg Tables.messages tables :)
  · exact own

theorem new_sent (known : Known s)
    (turned : Turn.act deployment s.stores (.requested request worker) (.open_ conversation_id message_id now) = some (stores,phase))
    (absent : request.conversation_id = none) (home : ∃ w ∈ s.stores.db.workspaces, w.id = request.workspace_id) :
    Sent s ⟨stores,touch now s.stores.db stores.db s.updated_at⟩ request.workspace_id conversation_id now := by
  have addressed : Addressed Turn.never s.stores.db request := by
    unfold Addressed
    rw [absent]
    exact ⟨rfl,home⟩
  obtain ⟨db,conversation,history,after,opened,drawn,rfl⟩ := opening_parts addressed turned
  have own : conversation.id = conversation_id := by rw [(ChatService.openTurn_history opened).1,absent]; rfl
  have asked : conversation_id ∈ Turn.openingIds request conversation_id message_id := by
    rw [Turn.openingIds,absent]
    exact List.mem_cons_self
  obtain ⟨unused,issued⟩ := VectorLedger.drawn_new drawn asked
  have fresh : conversation_id ∉ s.stores.db.conversations.map Conversation.id := by
    intro member
    obtain ⟨row,stored,same⟩ := List.mem_map.mp member
    exact unused (same ▸ known.drawn row stored)
  obtain ⟨stored,workspace,added,origin,tables⟩ := openTurn_parts opened
  have conversations : db.conversations = s.stores.db.conversations ++ added := congrArg Tables.conversations tables
  rcases origin with rfl | ⟨_,rfl,_⟩
  · -- the conversation would have been there under a new id
    rw [conversations,List.append_nil] at stored
    exact absurd (List.mem_map.mpr ⟨conversation,stored,own⟩) fresh
  · refine ⟨⟨conversation,own,workspace,.inr ⟨conversations,fresh,issued⟩⟩,?_,?_,?_⟩
    · exact ⟨userMessage request conversation.id message_id now,own,congrArg Tables.messages tables⟩
    · change touch now s.stores.db db s.updated_at conversation_id = now
      rw [touch_added conversations (own ▸ fresh),if_pos own.symm]
    · intro other different
      change touch now s.stores.db db s.updated_at other = s.updated_at other
      rw [touch_added conversations (own ▸ fresh),if_neg (own ▸ different)]

theorem answer_sent
    (turned : Turn.act deployment s.stores (.generated request conversation g cited_indices) (.persist message_id now) = some (stores,phase))
    (found : s.stores.db.getConversation conversation.id = some row) (citable : Citable s.stores.db g cited_indices) :
    Sent s ⟨stores,touch now s.stores.db stores.db s.updated_at⟩ row.workspace_id conversation.id (s.updated_at conversation.id) := by
  obtain ⟨db,persisted⟩ : ∃ after, persistTurn Turn.never s.stores.db conversation request.user_id message_id now g cited_indices = .ok after :=
    persists_iff.mpr ⟨⟨row,found⟩,citable⟩
  dsimp only [Turn.act] at turned
  rw [persisted] at turned
  obtain ⟨after,drawn,equal⟩ := Option.map_eq_some_iff.mp turned
  cases equal
  obtain ⟨stored,same⟩ := Database.getConversation_mem found
  obtain ⟨_,_,tables⟩ := persistTurn_parts persisted
  apply sent_there now stored same rfl
  · exact (congrArg Tables.conversations tables :)
  · exact (congrArg Tables.messages tables :)
  · rfl

theorem act_sent (known : Known s) (acted : act deployment i s a label = some (s',a')) (sends : Sends s a label w key at_) :
    Sent s s' w key at_ := by
  obtain ⟨⟨stores,b⟩,moved,equal⟩ := Option.map_eq_some_iff.mp acted
  cases equal
  cases sends with
  | again named found home =>
    cases Site.act_part moved with
    | turn turned => exact again_sent turned named found home
  | new absent home =>
    cases Site.act_part moved with
    | turn turned => exact new_sent known turned absent home
  | answer found citable =>
    cases Site.act_part moved with
    | turn turned => exact answer_sent turned found citable

theorem act_still (acted : act deployment i s a label = some (s',a')) (silent : ∀ w key at_, ¬ Sends s a label w key at_) : Still s s' := by
  obtain ⟨⟨stores,b⟩,moved,equal⟩ := Option.map_eq_some_iff.mp acted
  cases equal
  obtain ⟨conversations,messages⟩ := commit_still (Commits.act_commit moved) silent
  exact ⟨conversations,messages,touch_still conversations⟩

theorem Sent.stored (sent : Sent s s' w key at_) : ∃ row, row.id = key ∧ row.workspace_id = w ∧
    ∀ x, x ∈ s'.stores.db.conversations ↔ x ∈ s.stores.db.conversations ∨ x = row := by
  obtain ⟨row,own,home,⟨same,old⟩ | ⟨added,_,_⟩⟩ := sent.conversations
  · refine ⟨row,own,home,fun x => ?_⟩
    rw [same]
    exact ⟨.inl,fun either => either.elim id fun equal => equal ▸ old⟩
  · refine ⟨row,own,home,fun x => ?_⟩
    rw [added,List.mem_append,List.mem_singleton]

theorem known_step (known : Known s) (acted : act deployment i s a label = some (s',a')) : Known s' := by
  have grows {key : Uuid} (member : key ∈ s.stores.issued.map Prod.fst) : key ∈ s'.stores.issued.map Prod.fst := by
    obtain ⟨⟨stores,b⟩,moved,equal⟩ := Option.map_eq_some_iff.mp acted
    cases equal
    obtain ⟨entry,old,rfl⟩ := List.mem_map.mp member
    exact List.mem_map.mpr ⟨entry,act_issued moved old,rfl⟩
  have unchanged (same : s'.stores.db.conversations = s.stores.db.conversations) : Known s' := by
    constructor
    · rw [Keyed,same]
      exact known.keyed
    · intro x stored
      rw [same] at stored
      exact grows (known.drawn x stored)
  by_cases sends : ∃ w key at_, Sends s a label w key at_
  · obtain ⟨w,key,at_,sends⟩ := sends
    obtain ⟨row,own,_,⟨same,_⟩ | ⟨added,fresh,issued⟩⟩ := (act_sent known acted sends).conversations
    · exact unchanged same
    · constructor
      · rw [Keyed,added,List.map_append,List.map_singleton,own]
        apply List.nodup_append.mpr ⟨known.keyed,List.nodup_singleton _,_⟩
        intro x old y new same
        exact fresh (List.mem_singleton.mp new ▸ same ▸ old)
      · intro x stored
        rw [added] at stored
        rcases List.mem_append.mp stored with old | new
        · exact grows (known.drawn x old)
        · rw [List.mem_singleton.mp new,own]
          exact issued
  · exact unchanged (act_still acted fun w key at_ sent => sends ⟨w,key,at_,sent⟩).conversations

-- Every other conversation of the workspace has an older timestamp than the one
-- written to will have.
def Newest (s : Stamped) (w key : Uuid) (at_ : Nat) : Prop :=
  ∀ other ∈ conversationsOf s w, other.id ≠ key → s.updated_at other.id < at_

theorem mem_conversationsOf {s : Stamped} : x ∈ conversationsOf s w ↔ x ∈ s.stores.db.conversations ∧ x.workspace_id = w := by
  simp [conversationsOf]

theorem agree_still (still : Still s s') : Agree s' w ↔ Agree s w := by
  unfold Agree conversationsOf
  rw [still.conversations,still.messages,still.updated_at]

-- The conversation written to comes first by its messages; it does so by the
-- timestamps exactly if all others are older.
theorem agree_sent (known : Known s') (sent : Sent s s' home key at_) (agree : Agree s w) :
    Agree s' w ↔ home = w → Newest s w key at_ := by
  obtain ⟨row,rfl,rfl,stored⟩ := sent.stored
  obtain ⟨message,mine,messages⟩ := sent.messages
  have lastOwn : lastMessage s'.stores.db.messages row.id = s.stores.db.messages.length + 1 := by
    rw [messages,← mine,lastMessage_own]
  have lastOther {other : Uuid} (different : other ≠ row.id) :
      lastMessage s'.stores.db.messages other = lastMessage s.stores.db.messages other := by
    rw [messages,lastMessage_other (mine ▸ different.symm)]
  have older {x : Conversation} (member : x ∈ conversationsOf s' w) (different : x.id ≠ row.id) : x ∈ conversationsOf s w := by
    obtain ⟨there,home⟩ := mem_conversationsOf.mp member
    refine mem_conversationsOf.mpr ⟨((stored x).mp there).resolve_right ?_,home⟩
    rintro rfl
    exact different rfl
  constructor
  · intro after home other member different
    obtain ⟨there,same⟩ := mem_conversationsOf.mp member
    by_contra late
    have behind := after row (mem_conversationsOf.mpr ⟨(stored row).mpr (.inr rfl),home⟩) other
      (mem_conversationsOf.mpr ⟨(stored other).mpr (.inl there),same⟩) (Ne.symm different)
      (by rw [sent.own,sent.others _ different]; exact Nat.le_of_not_lt late)
    rw [lastOwn,lastOther different] at behind
    have bound := lastMessage_le s.stores.db.messages other.id
    omega
  · intro newest a first b second different le
    by_cases own : a.id = row.id
    · have other : b.id ≠ row.id := fun same => different (own.trans same.symm)
      obtain ⟨there,home⟩ := mem_conversationsOf.mp first
      have equal : a = row := List.inj_on_of_nodup_map known.keyed there ((stored row).mpr (.inr rfl)) own
      have less := newest (equal ▸ home) b (older second other) other
      rw [own,sent.own,sent.others _ other] at le
      omega
    · rw [lastOther own]
      by_cases mine : b.id = row.id
      · rw [mine,lastOwn]
        have bound := lastMessage_le s.stores.db.messages a.id
        omega
      · rw [lastOther mine]
        rw [sent.others _ own,sent.others _ mine] at le
        exact agree a (older first own) b (older second mine) different le

-- A message goes to the conversation of the workspace that is the newest by
-- `updated_at`, if the step commits one there.
def ToNewest (w : Uuid) (c : Config) (label : Nat × Site.Label) : Prop :=
  ∀ key at_, Sends c.shared (c.locals label.1) label.2 w key at_ → Newest c.shared w key at_

theorem agree_step (known : Known c.shared) (agree : Agree c.shared w) (moved : Step deployment c label next) :
    Agree next.shared w ↔ ToNewest w c label := by
  have acted := (Interleave.step_parts moved).1
  by_cases sends : ∃ home key at_, Sends c.shared (c.locals label.1) label.2 home key at_
  · obtain ⟨home,key,at_,sends⟩ := sends
    rw [agree_sent (known_step known acted) (act_sent known acted sends) agree]
    constructor
    · intro newest key' at' again
      obtain ⟨rfl,rfl,rfl⟩ := sends.unique again
      exact newest rfl
    · rintro newest rfl
      exact newest key at_ sends
  · have silent (home key : Uuid) (at_ : Nat) : ¬ Sends c.shared (c.locals label.1) label.2 home key at_ :=
      fun sent => sends ⟨home,key,at_,sent⟩
    rw [agree_still (act_still acted silent)]
    exact iff_of_true agree fun key at_ sent => absurd sent (silent w key at_)

-- From the empty installation on, the list stays in order of the last messages
-- exactly as long as every message goes to the newest conversation.
theorem listed_by_recency (deployment : Deployment) (start c : Config) (labels : List (Nat × Site.Label)) (w : Uuid)
    (opening : Opening start.shared.stores) (path : Runs (Step deployment) start labels c) :
    (∀ middle, Passes (Step deployment) start labels c middle → ByRecency middle.shared w) ↔
      Runs (within (ToNewest w) (Step deployment)) start labels c := by
  have initial : Known start.shared ∧ Agree start.shared w := by
    have nobody := opening.conversations
    refine ⟨⟨?_,?_⟩,?_⟩
    · rw [Keyed,nobody]; exact List.nodup_nil
    · rw [nobody]; exact nofun
    · intro a member
      rw [mem_conversationsOf,nobody] at member
      cases member.1
  have known {middle : Config} (passed : Passes (Step deployment) start labels c middle) : Known middle.shared := by
    obtain ⟨earlier,_,_,before,_⟩ := passed
    exact before.preserves initial.1 fun _ _ _ held moved => known_step held (Interleave.step_parts moved).1
  rw [← path.kept_iff (fun c => Known c.shared ∧ Agree c.shared w) initial]
  · refine forall_congr' fun middle => forall_congr' fun passed => ?_
    rw [byRecency_iff (known passed).keyed,and_iff_right (known passed)]
  · intro s label next held moved
    rw [and_iff_right (known_step held.1 (Interleave.step_parts moved).1)]
    exact agree_step held.1 held.2 moved

-- Two conversations are begun, then a turn goes on with one of them.
def chats (conversation_id : Uuid) : Config where
  shared := ⟨vacant,fun _ => 0⟩
  locals
    | 0 => .turn (.requested ⟨⟨1⟩,⟨3⟩,none,"first".toList⟩ 0)
    | 1 => .turn (.requested ⟨⟨1⟩,⟨3⟩,none,"second".toList⟩ 0)
    | 2 => .turn (.requested ⟨⟨1⟩,⟨3⟩,some conversation_id,"again".toList⟩ 0)
    | _ => .idle

theorem chats_fresh (conversation_id : Uuid) (i : Nat) : ((chats conversation_id).locals i).fresh = true := by
  unfold chats; dsimp only; split <;> rfl

def chatSteps : List (Nat × Site.Label) :=
  [(0,.turn (.open_ ⟨10⟩ ⟨20⟩ 1)),(1,.turn (.open_ ⟨11⟩ ⟨21⟩ 2)),(2,.turn (.open_ ⟨12⟩ ⟨22⟩ 3))]

def written (s : Stamped) : Activity → Site.Label → Option (Uuid × Nat)
  | .turn (.requested request _),.turn (.open_ conversation_id _ now) => match request.conversation_id with
    | some key => some (key,s.updated_at key)
    | none => some (conversation_id,now)
  | .turn (.generated _ conversation _ _),.turn (.persist _ _) => some (conversation.id,s.updated_at conversation.id)
  | _,_ => none

def toNewest (w : Uuid) (c : Config) (label : Nat × Site.Label) : Bool :=
  (written c.shared (c.locals label.1) label.2).all fun target =>
    (conversationsOf c.shared w).all fun other => other.id == target.1 || decide (c.shared.updated_at other.id < target.2)

theorem toNewest_sound (passed : toNewest w c label = true) : ToNewest w c label := by
  intro key at_ sends other member different
  have target : written c.shared (c.locals label.1) label.2 = some (key,at_) := by
    generalize c.locals label.1 = a at sends
    generalize label.2 = step at sends
    cases sends with
    | again named => simp [written,named]
    | new absent => simp [written,absent]
    | answer => rfl
  rw [toNewest,target] at passed
  have here := List.all_eq_true.mp passed other member
  simpa [different] using here

theorem listed_by_recency_newest : ∃ c, Runs (Step plain) (chats ⟨11⟩) chatSteps c ∧
    (∀ middle, Passes (Step plain) (chats ⟨11⟩) chatSteps c middle → ByRecency middle.shared ⟨1⟩) ∧
    (c.shared.stores.db.messages.map Message.conversation_id) = [⟨10⟩,⟨11⟩,⟨11⟩] := by
  obtain ⟨c,path,sent⟩ := run_within (Interleave.advance (act plain)) (chats ⟨11⟩) chatSteps (toNewest ⟨1⟩) (ToNewest ⟨1⟩)
    (fun c => decide (c.shared.stores.db.messages.map Message.conversation_id = [⟨10⟩,⟨11⟩,⟨11⟩])) (by decide +kernel)
    fun _ _ _ _ passed => toNewest_sound passed
  exact ⟨c,path.unguarded,(listed_by_recency plain (chats ⟨11⟩) c chatSteps ⟨1⟩ Provenance.vacant_opening path.unguarded).mpr path,
    of_decide_eq_true sent⟩

-- The older conversation has the newest message and stays behind.
theorem older_conversation_behind : ¬ ∀ (deployment : Deployment) (start c : Config) (labels : List (Nat × Site.Label)) (w : Uuid),
    Opening start.shared.stores → (∀ i, (start.locals i).fresh = true) → Runs (Step deployment) start labels c →
      ByRecency c.shared w := by
  intro all
  let first : Conversation := ⟨⟨10⟩,⟨1⟩,⟨3⟩,"first".toList⟩
  let second : Conversation := ⟨⟨11⟩,⟨1⟩,⟨3⟩,"second".toList⟩
  obtain ⟨c,path,reached⟩ := run_any (Interleave.advance (act plain)) (chats ⟨10⟩) chatSteps
    (fun c => decide (conversationsOf c.shared ⟨1⟩ = [first,second] ∧ c.shared.updated_at ⟨10⟩ ≤ c.shared.updated_at ⟨11⟩ ∧
      ¬ lastMessage c.shared.stores.db.messages ⟨10⟩ < lastMessage c.shared.stores.db.messages ⟨11⟩)) (by decide +kernel)
  obtain ⟨rows,older,later⟩ := of_decide_eq_true reached
  have listed : listConversations c.shared ⟨1⟩ [second,first] := by
    refine ⟨?_,List.pairwise_pair.mpr older⟩
    rw [rows]
    exact .swap first second []
  have behind := all plain (chats ⟨10⟩) c chatSteps ⟨1⟩ Provenance.vacant_opening (chats_fresh ⟨10⟩) path _ listed
  have ahead := List.pairwise_pair.mp behind
  exact later ahead

end RagForge.ConversationOrder
