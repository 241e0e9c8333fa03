import RagForge.Provenance

namespace RagForge.TenantIsolation
open RagForge Site Provenance Transition

-- An identifier was drawn for one workspace only.
theorem one_workspace {s : Stores} (traced : Traced s) (first : (key,w) ∈ s.issued) (second : (key,w') ∈ s.issued) : w = w' :=
  congrArg Prod.snd (List.inj_on_of_nodup_map traced.unique first second rfl)

def Found (s : Stores) (w : Uuid) (chunk : ContextChunk) : Prop :=
  ∃ row ∈ s.db.document_chunks, row.id.str = chunk.chunk_id ∧ row.workspace_id = w

-- What a turn has fetched or reranked so far, with its workspace.
def context : Activity → Uuid × List ContextChunk
  | .turn (.fetched _ conversation chunks) => (conversation.workspace_id,chunks)
  | .turn (.retrieved _ conversation chunks) => (conversation.workspace_id,chunks)
  | _ => (⟨0⟩,[])

theorem context_fresh (fresh : a.fresh = true) : (context a).2 = [] := by
  cases a with
  | turn phase => cases phase <;> first | rfl | cases fresh
  | _ => rfl

-- A context chunk is found in the fetching state, or was in the context before.
theorem act_context (traced : Traced s) (known : Known s.issued a) (acted : act deployment i s a label = some (s',a'))
    (member : chunk ∈ (context a').2) : Found s (context a').1 chunk ∨
      ∃ original ∈ (context a).2, original.chunk_id = chunk.chunk_id ∧ (context a).1 = (context a').1 := by
  cases act_change acted with
  | turn change =>
    cases change with
    | fetch =>
      obtain ⟨r,asked,row,stored,same,text⟩ := contextChunk_row member
      refine .inl ⟨row,stored,text.symm,?_⟩
      exact one_workspace traced (traced.tables.chunks row stored) (same ▸ known.2 r asked)
    | rerank ranked =>
      obtain ⟨original,before,same⟩ := mem_rerankNode ranked member
      exact .inr ⟨original,before,same,rfl⟩
    | _ => cases member
  | _ => cases member

theorem context_found (path : Runs (Step deployment) start labels c) (traced : Traced start.shared)
    (fresh : ∀ i, (start.locals i).fresh = true) :
    ∀ i, ∀ chunk ∈ (context (c.locals i)).2,
      ∃ m, Passes (Step deployment) start labels c m ∧ Found m.shared (context (c.locals i)).1 chunk := by
  refine path.history (fun labels c => ∀ i, ∀ chunk ∈ (context (c.locals i)).2,
    ∃ m, Passes (Step deployment) start labels c m ∧ Found m.shared (context (c.locals i)).1 chunk) ?_ ?_
  · intro i chunk member
    rw [context_fresh (fresh i)] at member
    cases member
  · intro labels s label next prior kept moved i chunk member
    obtain ⟨traced,known⟩ := runs_traced prior traced fresh
    obtain ⟨acted,same⟩ := Interleave.step_parts moved
    by_cases equal : i = label.1
    · subst equal
      rcases act_context traced (known _) acted member with found | ⟨original,before,text,home⟩
      · exact ⟨s,(Passes.here prior).snoc moved,found⟩
      · obtain ⟨m,passed,row,stored,key,workspace⟩ := kept _ original before
        exact ⟨m,passed.snoc moved,row,stored,key.trans text,workspace.trans home⟩
    · rw [same i equal] at member ⊢
      obtain ⟨m,passed,found⟩ := kept i chunk member
      exact ⟨m,passed.snoc moved,found⟩

-- Every citation row of a conversation cites a chunk of its workspace.
theorem citations_at_home {s : Stores} (traced : Traced s) :
    ∀ citation ∈ s.db.message_citations, ∀ row ∈ s.db.document_chunks, row.id = citation.chunk_id →
      ∀ message ∈ s.db.messages, message.id = citation.message_id →
      ∀ conversation ∈ s.db.conversations, conversation.id = message.conversation_id →
      row.workspace_id = conversation.workspace_id := by
  intro citation cited row stored chunkKey message said messageKey conversation held conversationKey
  obtain ⟨w,first,second⟩ := traced.tables.citations citation cited
  obtain ⟨w',third,fourth⟩ := traced.tables.messages message said
  have one := one_workspace traced (chunkKey ▸ traced.tables.chunks row stored) second
  have two := one_workspace traced (messageKey ▸ third) first
  have three := one_workspace traced (conversationKey ▸ traced.tables.conversations conversation held) fourth
  rw [one,three,two]

theorem retrieval_stays_in_workspace (deployment : Deployment) (start c : Config) (labels : List (Nat × Label))
    (opening : Opening start.shared) (fresh : ∀ i, (start.locals i).fresh = true)
    (path : Runs (Step deployment) start labels c) :
    (∀ i request conversation context_chunks, c.locals i = .turn (.retrieved request conversation context_chunks) →
      conversation.workspace_id = request.workspace_id ∧ ∀ chunk ∈ context_chunks,
        (∃ m, Passes (Step deployment) start labels c m ∧ Found m.shared request.workspace_id chunk) ∧
        ∀ row ∈ c.shared.db.document_chunks, row.id.str = chunk.chunk_id → row.workspace_id = request.workspace_id) ∧
    (∀ citation ∈ c.shared.db.message_citations, ∃ row ∈ c.shared.db.document_chunks, row.id = citation.chunk_id ∧
      ∃ message ∈ c.shared.db.messages, message.id = citation.message_id ∧
      ∃ conversation ∈ c.shared.db.conversations, conversation.id = message.conversation_id ∧
        row.workspace_id = conversation.workspace_id) := by
  obtain ⟨traced,known⟩ := runs_traced path opening.traced fresh
  constructor
  · intro i request conversation context_chunks here
    have mine := known i
    have found := context_found path opening.traced fresh i
    rw [here] at mine found
    obtain ⟨⟨home,_⟩,named⟩ := mine
    refine ⟨home,fun chunk member => ⟨home ▸ found chunk member,fun row stored text => ?_⟩⟩
    obtain ⟨key,same,drawn⟩ := named chunk member
    cases Uuid.str_injective (text.trans same)
    exact home ▸ one_workspace traced (traced.tables.chunks row stored) drawn
  · intro citation cited
    obtain ⟨row,stored,chunkKey⟩ := c.shared.db.keys.citation_chunk citation cited
    obtain ⟨message,said,messageKey⟩ := c.shared.db.keys.citation_message citation cited
    obtain ⟨conversation,held,conversationKey⟩ := c.shared.db.keys.message_conversation message said
    exact ⟨row,stored,chunkKey,message,said,messageKey,conversation,held,conversationKey,
      citations_at_home traced citation cited row stored chunkKey message said messageKey conversation held conversationKey⟩

-- A document is uploaded and ingested, and a turn retrieves its chunk.
def demo : Config where
  shared := vacant
  locals := fun
    | 0 => .upload (.requested memo)
    | 1 => .ingest (.received ⟨10⟩ none)
    | 2 => .turn (.requested ⟨⟨1⟩,⟨3⟩,none,"alpha".toList⟩ 0)
    | _ => .idle

def turnSteps : List (Nat × Label) :=
  [(2,.turn (.open_ ⟨20⟩ ⟨21⟩ 3)),(2,.turn (.rewrite fun _ => .ok ⟨[],[],⟨0,0,0,0⟩⟩)),(2,.turn .embed),
   (2,.turn (.sparse .readVersion)),(2,.turn (.sparse .cacheGet)),
   (2,.turn (.dense [⟨⟨13⟩,[1],⟨Uuid.str ⟨12⟩,Uuid.str ⟨10⟩,Uuid.str ⟨1⟩,Uuid.str ⟨2⟩⟩⟩])),
   (2,.turn (.sparse (.select [(⟨12⟩,"Alpha".toList)]))),(2,.turn (.sparse .cachePut)),(2,.turn .fuse),
   (2,.turn .fetch),(2,.turn (.rerank fun texts top_n => .ok (noopRerank texts top_n)))]

def retrievedChunks : Activity → Option (List Str)
  | .turn (.retrieved _ _ chunks) => some (chunks.map (·.chunk_id))
  | _ => none

def demoSteps : List (Nat × Label) := uploadSteps 0 ⟨10⟩ ⟨11⟩ ++ ingestSteps 1 ⟨14⟩ ⟨12⟩ ⟨13⟩ ++ turnSteps

theorem demo_retrieval_stays : ∃ c, Runs (Step plain) demo demoSteps c ∧
    ∃ request conversation context_chunks, c.locals 2 = .turn (.retrieved request conversation context_chunks) ∧
      context_chunks.map (·.chunk_id) = [Uuid.str ⟨12⟩] ∧
      ∀ chunk ∈ context_chunks, ∃ m, Passes (Step plain) demo demoSteps c m ∧ Found m.shared request.workspace_id chunk := by
  obtain ⟨c,ran,retrieved⟩ : ∃ c, run (Interleave.advance (act plain)) demo demoSteps = some c ∧
      retrievedChunks (c.locals 2) = some [Uuid.str ⟨12⟩] := by
    exact Option.map_eq_some_iff.mp (by decide +kernel)
  have path := run_sound ran
  unfold retrievedChunks at retrieved
  split at retrieved
  · rename_i request conversation context_chunks here
    have fresh (i : Nat) : (demo.locals i).fresh = true := by
      unfold demo; dsimp only; split <;> rfl
    obtain ⟨isolated,_⟩ := retrieval_stays_in_workspace plain demo c demoSteps vacant_opening fresh path
    obtain ⟨_,found⟩ := isolated 2 request conversation context_chunks here
    exact ⟨c,path,request,conversation,context_chunks,here,Option.some.inj retrieved,fun chunk member => (found chunk member).1⟩
  · cases retrieved

end RagForge.TenantIsolation
