import RagForge.Commits

namespace RagForge.Provenance
open RagForge Site

-- Identifiers drawn so far, each with the workspace it was drawn for.
abbrev Register := List (Uuid × Uuid)

-- A point names a chunk of the workspace its own payload is filtered by.
def Pointed (issued : Register) (p : VectorPoint) : Prop :=
  ∃ key w, p.payload.chunk_id = key.str ∧ p.payload.workspace_id = w.str ∧ (key,w) ∈ issued ∧ (p.id,w) ∈ issued

structure TablesTraced (issued : Register) (t : Tables) : Prop where
  documents : ∀ row ∈ t.documents, (row.id,row.workspace_id) ∈ issued
  chunks : ∀ row ∈ t.document_chunks, (row.id,row.workspace_id) ∈ issued
  conversations : ∀ row ∈ t.conversations, (row.id,row.workspace_id) ∈ issued
  messages : ∀ row ∈ t.messages, ∃ w, (row.id,w) ∈ issued ∧ (row.conversation_id,w) ∈ issued
  citations : ∀ row ∈ t.message_citations, ∃ w, (row.message_id,w) ∈ issued ∧ (row.chunk_id,w) ∈ issued

-- Every stored name of a row was drawn for the workspace it is stored under.
structure Traced (s : Stores) : Prop where
  unique : (s.issued.map Prod.fst).Nodup
  tables : TablesTraced s.issued s.db.toTables
  points : ∀ p ∈ s.vectors, Pointed s.issued p
  caches : ∀ worker, ∀ pair ∈ (s.caches worker).entries, ∀ key ∈ pair.2.chunk_ids, (key,pair.1) ∈ s.issued

def BatchKnown (issued : Register) (batch : Ingestion.Batch) : Prop :=
  (∀ row ∈ batch.chunk_rows, (row.id,row.workspace_id) ∈ issued) ∧ ∀ p ∈ batch.vector_points, Pointed issued p

def SearchKnown (issued : Register) : SparseSearch.Phase → Prop
  | .selected call _ rows => ∀ row ∈ rows, (row.1,call.workspace_id) ∈ issued
  | .ranked call _ _ results => ∀ r ∈ results, (r.chunk_id,call.workspace_id) ∈ issued
  | _ => True

-- A context chunk names a chunk of workspace `w`.
def Named (issued : Register) (w : Uuid) (chunk : ContextChunk) : Prop :=
  ∃ key, chunk.chunk_id = key.str ∧ (key,w) ∈ issued

def Homed (issued : Register) (request : ChatService.Request) (conversation : Conversation) : Prop :=
  conversation.workspace_id = request.workspace_id ∧ (conversation.id,conversation.workspace_id) ∈ issued

def TurnKnown (issued : Register) : Turn.Phase → Prop
  | .requested _ _ => True
  | .opened request _ conversation _ => Homed issued request conversation
  | .rewritten request _ conversation _ => Homed issued request conversation
  | .searching request conversation dense sparse => Homed issued request conversation ∧
      (∀ found ∈ dense, ∀ p ∈ found, Pointed issued p ∧ p.payload.workspace_id = conversation.workspace_id.str) ∧
      SearchKnown issued sparse ∧ sparse.call.workspace_id = conversation.workspace_id
  | .fused request conversation retrieved => Homed issued request conversation ∧
      ∀ r ∈ retrieved, (r.chunk_id,conversation.workspace_id) ∈ issued
  | .fetched request conversation chunks => Homed issued request conversation ∧
      ∀ c ∈ chunks, Named issued conversation.workspace_id c
  | .retrieved request conversation chunks => Homed issued request conversation ∧
      ∀ c ∈ chunks, Named issued conversation.workspace_id c
  | .generated request conversation g _ => Homed issued request conversation ∧
      ∀ c ∈ g.context_chunks, Named issued conversation.workspace_id c
  | .saved _ _ _ _ => True
  | .failed _ => True

def Known (issued : Register) : Activity → Prop
  | .upload (.saved request document_id) => (document_id,request.workspace_id) ∈ issued
  | .ingest (.embedded _ batch) => BatchKnown issued batch
  | .ingest (.cleared _ batch) => BatchKnown issued batch
  | .ingest (.indexed _ batch) => BatchKnown issued batch
  | .search phase => SearchKnown issued phase
  | .turn phase => TurnKnown issued phase
  | _ => True

section Growing
variable {issued later : Register} (grows : issued ⊆ later)
include grows

theorem Pointed.mono (known : Pointed issued p) : Pointed later p := by
  obtain ⟨key,w,chunk,workspace,named,drawn⟩ := known
  exact ⟨key,w,chunk,workspace,grows named,grows drawn⟩

theorem TablesTraced.mono (traced : TablesTraced issued t) : TablesTraced later t where
  documents row member := grows (traced.documents row member)
  chunks row member := grows (traced.chunks row member)
  conversations row member := grows (traced.conversations row member)
  messages row member := let ⟨w,one,two⟩ := traced.messages row member; ⟨w,grows one,grows two⟩
  citations row member := let ⟨w,one,two⟩ := traced.citations row member; ⟨w,grows one,grows two⟩

theorem BatchKnown.mono (known : BatchKnown issued batch) : BatchKnown later batch :=
  ⟨fun row member => grows (known.1 row member),fun p member => (known.2 p member).mono grows⟩

theorem SearchKnown.mono (known : SearchKnown issued phase) : SearchKnown later phase := by
  cases phase with
  | selected => exact fun row member => grows (known row member)
  | ranked => exact fun r member => grows (known r member)
  | _ => trivial

theorem Named.mono (known : Named issued w chunk) : Named later w chunk := by
  obtain ⟨key,same,named⟩ := known
  exact ⟨key,same,grows named⟩

theorem Homed.mono (known : Homed issued request conversation) : Homed later request conversation :=
  ⟨known.1,grows known.2⟩

theorem TurnKnown.mono (known : TurnKnown issued phase) : TurnKnown later phase := by
  cases phase with
  | opened => exact Homed.mono grows known
  | rewritten => exact Homed.mono grows known
  | searching =>
    obtain ⟨home,dense,sparse,call⟩ := known
    exact ⟨home.mono grows,fun found some p member => ⟨(dense found some p member).1.mono grows,(dense found some p member).2⟩,
      sparse.mono grows,call⟩
  | fused => exact ⟨known.1.mono grows,fun r member => grows (known.2 r member)⟩
  | fetched => exact ⟨known.1.mono grows,fun c member => (known.2 c member).mono grows⟩
  | retrieved => exact ⟨known.1.mono grows,fun c member => (known.2 c member).mono grows⟩
  | generated => exact ⟨known.1.mono grows,fun c member => (known.2 c member).mono grows⟩
  | _ => trivial

-- What a process knows of drawn identifiers stays true as more are drawn.
theorem Known.mono (known : Known issued a) : Known later a := by
  cases a with
  | upload phase => cases phase with
    | saved => exact grows known
    | _ => trivial
  | ingest phase => cases phase with
    | embedded => exact BatchKnown.mono grows known
    | cleared => exact BatchKnown.mono grows known
    | indexed => exact BatchKnown.mono grows known
    | _ => trivial
  | search phase => exact SearchKnown.mono grows known
  | turn phase => exact TurnKnown.mono grows known
  | _ => trivial

end Growing

theorem issued_of_draw {s : Stores} (drawn : s.draw w ids = some after) (member : u ∈ ids) : (u,w) ∈ after.issued := by
  rw [(Stores.draw_parts drawn).2.2]
  exact List.mem_append_left _ (List.mem_map.mpr ⟨u,member,rfl⟩)

theorem Traced.draw {s : Stores} (traced : Traced s) (drawn : s.draw w ids = some after) : Traced after := by
  obtain ⟨apart,fresh,equal⟩ := Stores.draw_parts drawn
  have grows : s.issued ⊆ after.issued := Stores.draw_grows drawn
  obtain ⟨db,vectors,_,_,caches⟩ := Stores.draw_same drawn
  refine ⟨?_,db ▸ traced.tables.mono grows,fun p member => (traced.points p (vectors ▸ member)).mono grows,
    fun worker pair member key inside => grows (traced.caches worker pair (caches ▸ member) key inside)⟩
  rw [equal,List.map_append,List.map_map,List.nodup_append]
  refine ⟨by simpa [Function.comp_def] using apart,traced.unique,?_⟩
  intro a mine b old same
  obtain ⟨u,member,rfl⟩ := List.mem_map.mp mine
  exact fresh u member ((show u = b from same).symm ▸ old)

theorem Traced.withDb {s : Stores} (traced : Traced s) (tables : TablesTraced s.issued db.toTables) :
    Traced {s with db := db} := ⟨traced.unique,tables,traced.points,traced.caches⟩

-- The transactions that touch documents and chunks, but no conversation.
theorem TablesTraced.rewrite (traced : TablesTraced issued t) (documents : Descends t t')
    (chunks : ∀ row ∈ t'.document_chunks, row ∈ t.document_chunks ∨ (row.id,row.workspace_id) ∈ issued)
    (conversations : t'.conversations = t.conversations) (messages : t'.messages = t.messages)
    (citations : ∀ row ∈ t'.message_citations, row ∈ t.message_citations) : TablesTraced issued t' where
  documents row member := by
    obtain ⟨old,present,key,home,_⟩ := documents row member
    rw [← key,← home]
    exact traced.documents old present
  chunks row member := (chunks row member).elim (traced.chunks row) (fun named => named)
  conversations row member := traced.conversations row (conversations ▸ member)
  messages row member := traced.messages row (messages ▸ member)
  citations row member := traced.citations row (citations row member)

theorem TablesTraced.addDocument (traced : TablesTraced issued t) (row : Document) (named : (row.id,row.workspace_id) ∈ issued)
    (jobs : List IngestionJob) :
    TablesTraced issued {t with documents := t.documents ++ [row],ingestion_jobs := jobs} := by
  refine ⟨?_,traced.chunks,traced.conversations,traced.messages,traced.citations⟩
  intro other member
  rcases List.mem_append.mp member with old | new
  · exact traced.documents other old
  · rw [List.mem_singleton.mp new]; exact named

theorem TablesTraced.openTurn {db after : Database} (traced : TablesTraced issued db.toTables)
    (opened : ChatService.openTurn fails db request conversation_id message_id now = .ok (after,conversation,history))
    (drawn : ∀ u ∈ Turn.openingIds request conversation_id message_id, (u,request.workspace_id) ∈ issued) :
    TablesTraced issued after.toTables ∧ Homed issued request conversation := by
  obtain ⟨stored,home,added,origin,tables⟩ := ChatService.openTurn_parts opened
  have message : (message_id,request.workspace_id) ∈ issued := drawn _ (by unfold Turn.openingIds; split <;> simp)
  have conversations : ∀ row ∈ after.conversations, (row.id,row.workspace_id) ∈ issued := by
    intro row member
    rw [show after.conversations = _ from congrArg Tables.conversations tables] at member
    rcases List.mem_append.mp member with old | new
    · exact traced.conversations row old
    · rcases origin with rfl | ⟨asked,rfl,key⟩
      · cases new
      · rw [List.mem_singleton.mp new,key,home]
        exact drawn _ (by unfold Turn.openingIds; rw [asked]; simp)
  refine ⟨?_,home,conversations conversation stored⟩
  rw [tables] at conversations ⊢
  refine ⟨traced.documents,traced.chunks,conversations,?_,traced.citations⟩
  intro row member
  rcases List.mem_append.mp member with old | new
  · exact traced.messages row old
  · rw [List.mem_singleton.mp new]
    exact ⟨request.workspace_id,message,home ▸ conversations conversation (tables ▸ stored)⟩

theorem TablesTraced.persistTurn {db after : Database} (traced : TablesTraced issued db.toTables)
    (persisted : ChatService.persistTurn fails db conversation user_id message_id now g cited_indices = .ok after)
    (conversationNamed : (conversation.id,conversation.workspace_id) ∈ issued)
    (named : ∀ c ∈ g.context_chunks, Named issued conversation.workspace_id c)
    (message : (message_id,conversation.workspace_id) ∈ issued) : TablesTraced issued after.toTables := by
  obtain ⟨citations,built,tables⟩ := ChatService.persistTurn_parts persisted
  rw [tables]
  refine ⟨traced.documents,traced.chunks,traced.conversations,?_,?_⟩
  · intro row member
    rcases List.mem_append.mp member with old | new
    · exact traced.messages row old
    · rw [List.mem_singleton.mp new]
      exact ⟨conversation.workspace_id,message,conversationNamed⟩
  · intro row member
    rcases List.mem_append.mp member with old | new
    · exact traced.citations row old
    · obtain ⟨idx,_,one⟩ := Fallible.forall₂_right built new
      obtain ⟨same,_,chunk,found,parsed⟩ := ChatService.citation_parts one
      obtain ⟨key,text,drawn⟩ := named chunk (getItem_mem found)
      rw [text,Uuid.parse_str] at parsed
      cases Option.some.inj parsed
      exact ⟨conversation.workspace_id,same ▸ message,drawn⟩

theorem upload_traced (traced : Traced s) (known : Known s.issued (.upload phase))
    (change : Documents.UploadChange deployment s phase s' phase') : Traced s' ∧ Known s'.issued (.upload phase') := by
  cases change with
  | save drawn _ =>
    have kept := traced.draw drawn
    exact ⟨⟨kept.unique,kept.tables,kept.points,kept.caches⟩,(issued_of_draw drawn (List.mem_singleton.mpr rfl) :)⟩
  | torn drawn _ =>
    have kept := traced.draw drawn
    exact ⟨⟨kept.unique,kept.tables,kept.points,kept.caches⟩,trivial⟩
  | insert drawn enforced =>
    have grows := Stores.draw_grows drawn
    refine ⟨(traced.draw drawn).withDb ?_,trivial⟩
    rw [Database.enforce_tables enforced]
    exact (traced.tables.mono grows).addDocument (Documents.Upload.row _ _) (grows known) _
  | stop => exact ⟨traced,trivial⟩

theorem reingest_traced (traced : Traced s) (change : Documents.ReingestChange s phase s' phase') : Traced s' := by
  cases change with
  | insert _ drawn enforced =>
    refine (traced.draw drawn).withDb ?_
    have tables := Database.enforce_tables enforced
    rw [tables]
    exact (traced.tables.mono (Stores.draw_grows drawn)).rewrite (.of_setStatus rfl) (fun row member => .inl member) rfl rfl
      fun row member => member
  | stop => exact traced

theorem delete_traced (traced : Traced s) (change : Documents.DeleteChange deployment s phase s' phase') : Traced s' := by
  cases change with
  | clear => exact ⟨traced.unique,traced.tables,fun p member => traced.points p (VectorStore.mem_delete.mp member).1,traced.caches⟩
  | commit =>
    exact traced.withDb (traced.tables.rewrite (.of_subset (List.filter_subset_self _))
      (fun row member => .inl (List.mem_filter.mp member).1) rfl rfl fun row member => (List.mem_filter.mp member).1)
  | unlink => exact ⟨traced.unique,traced.tables,traced.points,traced.caches⟩
  | invalidate => exact ⟨traced.unique,traced.tables,traced.points,traced.caches⟩
  | get => exact traced
  | stop => exact traced

theorem build_known {s : Stores} {run : Ingestion.RunContext}
    (drawn : s.draw run.workspace_id (ids.map Prod.fst ++ ids.map Prod.snd) = some after) :
    BatchKnown after.issued (Ingestion.build run chunks embed_result ids) := by
  have first (pair : Uuid × Uuid) (member : pair ∈ ids) : (pair.1,run.workspace_id) ∈ after.issued :=
    issued_of_draw drawn (List.mem_append_left _ (List.mem_map.mpr ⟨pair,member,rfl⟩))
  have second (pair : Uuid × Uuid) (member : pair ∈ ids) : (pair.2,run.workspace_id) ∈ after.issued :=
    issued_of_draw drawn (List.mem_append_right _ (List.mem_map.mpr ⟨pair,member,rfl⟩))
  constructor
  · intro row member
    obtain ⟨chunk,_,pair,inside,rfl⟩ := Ingestion.mem_build_rows member
    exact first pair inside
  · intro p member
    obtain ⟨vector,pair,inside,rfl⟩ := Ingestion.mem_build_points member
    exact ⟨pair.1,run.workspace_id,rfl,rfl,first pair inside,second pair inside⟩

theorem ingest_traced (traced : Traced s) (known : Known s.issued (.ingest phase))
    (change : Ingestion.Change deployment s phase s' phase') : Traced s' ∧ Known s'.issued (.ingest phase') := by
  have failing {aside : Ingestion.Phase} (failed : aside.failed = true) : Known s.issued (.ingest aside) := by
    cases aside with
    | failing => trivial
    | ended => trivial
    | _ => cases failed
  cases change with
  | load loaded drawn =>
    obtain ⟨_,_,_,_,_,tables⟩ := Commits.load_tables loaded
    refine ⟨(traced.draw drawn).withDb ?_,trivial⟩
    rw [tables]
    exact (traced.tables.mono (Stores.draw_grows drawn)).rewrite (.of_setStatus rfl) (fun row member => .inl member) rfl rfl
      fun row member => member
  | skip => exact ⟨traced,trivial⟩
  | prepare _ _ drawn => exact ⟨traced.draw drawn,build_known drawn⟩
  | clear next =>
    refine ⟨⟨traced.unique,traced.tables,fun p member => traced.points p (VectorStore.mem_delete.mp member).1,traced.caches⟩,?_⟩
    rcases next with rfl | ⟨failed,_⟩
    · exact known
    · exact failing failed
  | index next =>
    refine ⟨⟨traced.unique,traced.tables,fun p member => ?_,traced.caches⟩,?_⟩
    · exact (VectorStore.mem_upsert member).elim (traced.points p) (known.2 p)
    · rcases next with rfl | ⟨failed,_⟩
      · exact known
      · exact failing failed
  | persist persisted =>
    have tables := Commits.persist_tables persisted
    refine ⟨traced.withDb ?_,trivial⟩
    refine traced.tables.rewrite (.of_setStatus (congrArg Tables.documents tables :)) ?_ ?_ ?_ ?_ <;> rw [tables]
    · intro row member
      rcases List.mem_append.mp member with old | new
      · exact .inl (List.mem_filter.mp old).1
      · exact .inr (known.1 row new)
    · rfl
    · rfl
    · exact fun row member => (List.mem_filter.mp member).1
  | invalidate => exact ⟨⟨traced.unique,traced.tables,traced.points,traced.caches⟩,trivial⟩
  | @mark d message now =>
    refine ⟨traced.withDb ?_,trivial⟩
    have tables := Commits.markFailed_tables s.db d message now
    refine traced.tables.rewrite (.of_setStatus (congrArg Tables.documents tables :)) ?_ ?_ ?_ ?_ <;> rw [tables]
    · exact fun row member => .inl member
    · rfl
    · rfl
    · exact fun row member => member
  | stop failed => exact ⟨traced,failing failed⟩

theorem search_traced (traced : Traced s) (known : SearchKnown s.issued phase)
    (change : SparseSearch.Change s phase s' phase') : Traced s' ∧ SearchKnown s'.issued phase' := by
  have setCache {worker : Nat} {cache : WorkspaceBM25Cache}
      (entries : ∀ pair ∈ cache.entries, ∀ key ∈ pair.2.chunk_ids, (key,pair.1) ∈ s.issued) :
      Traced (SparseSearch.setCache s worker cache) := by
    refine ⟨traced.unique,traced.tables,traced.points,fun other => ?_⟩
    by_cases equal : other = worker
    · subst equal; simpa [SparseSearch.setCache] using entries
    · simpa [SparseSearch.setCache,Function.update_of_ne equal] using traced.caches other
  cases change with
  | version => exact ⟨traced,trivial⟩
  | miss => exact ⟨traced,trivial⟩
  | hit hit inside =>
    obtain ⟨stored,_,rest⟩ := WorkspaceBM25Cache.get_parts hit
    exact ⟨setCache fun pair member => traced.caches _ pair (rest pair member),
      fun r member => traced.caches _ _ stored _ (inside r member)⟩
  | select same =>
    refine ⟨traced,fun row member => ?_⟩
    obtain ⟨chunk,present,rfl⟩ := List.mem_map.mp (same.subset member)
    obtain ⟨stored,home⟩ := List.mem_filter.mp present
    exact of_decide_eq_true home ▸ traced.tables.chunks chunk stored
  | @put results call version rows bm25 inside =>
    have keys (key : Uuid) (member : key ∈ rows.map Prod.fst) : (key,call.workspace_id) ∈ s.issued := by
      obtain ⟨row,selected,rfl⟩ := List.mem_map.mp member
      exact known row selected
    refine ⟨setCache fun pair member => ?_,fun r member => keys _ (inside r member)⟩
    rcases WorkspaceBM25Cache.mem_put member with old | rfl
    · exact traced.caches _ pair old
    · exact keys
  | fail => exact ⟨traced,trivial⟩

-- A dense hit is read back as the identifier its payload names, in the
-- workspace the search was filtered by.
theorem pointed_parse (known : Pointed issued p) (home : p.payload.workspace_id = w.str)
    (parsed : Uuid.parse p.payload.chunk_id = some key) : (key,w) ∈ issued := by
  obtain ⟨named,other,chunk,workspace,drawn,_⟩ := known
  rw [chunk,Uuid.parse_str] at parsed
  cases Option.some.inj parsed
  cases Uuid.str_injective (workspace.symm.trans home)
  exact drawn

theorem turn_traced (traced : Traced s) (known : TurnKnown s.issued phase)
    (change : Turn.Change deployment s phase s' phase') : Traced s' ∧ TurnKnown s'.issued phase' := by
  cases change with
  | open_ opened drawn =>
    have grown := traced.tables.mono (Stores.draw_grows drawn)
    obtain ⟨tables,home⟩ := grown.openTurn opened fun u member => issued_of_draw drawn member
    exact ⟨(traced.draw drawn).withDb tables,home⟩
  | rewrite => exact ⟨traced,known⟩
  | embed => exact ⟨traced,known,fun _ absurd_ => (Option.not_mem_none _ absurd_).elim,trivial,rfl⟩
  | dense answers =>
    refine ⟨traced,known.1,fun found same p member => ?_,known.2.2⟩
    cases Option.mem_some.mp same
    obtain ⟨stored,home⟩ := answers.2 p member
    exact ⟨traced.points p stored,home⟩
  | sparse inner =>
    obtain ⟨home,dense,sparse,call⟩ := known
    obtain ⟨kept,next⟩ := search_traced traced sparse inner
    have same : s.issued ⊆ s'.issued := by cases inner <;> exact List.Subset.refl _
    refine ⟨kept,home.mono same,fun found some p member => ?_,next,inner.call ▸ call⟩
    exact ⟨(dense found some p member).1.mono same,(dense found some p member).2⟩
  | fuse fused =>
    obtain ⟨home,dense,sparse,call⟩ := known
    refine ⟨traced,home,fun r member => ?_⟩
    rcases mem_fuse fused member with ⟨p,found,parsed⟩ | ⟨hit,found,same⟩
    · obtain ⟨pointed,filtered⟩ := dense _ rfl p found
      exact pointed_parse pointed filtered parsed
    · have named := sparse hit found
      rw [same] at named
      exact call ▸ named
  | fetch =>
    refine ⟨traced,known.1,fun c member => ?_⟩
    obtain ⟨r,asked,row,_,same,text⟩ := contextChunk_row member
    exact ⟨row.id,text,same ▸ known.2 r asked⟩
  | rerank ranked =>
    refine ⟨traced,known.1,fun c member => ?_⟩
    obtain ⟨original,before,same⟩ := mem_rerankNode ranked member
    obtain ⟨key,text,named⟩ := known.2 original before
    exact ⟨key,same ▸ text,named⟩
  | generate => exact ⟨traced,known⟩
  | persist persisted drawn =>
    have grows := Stores.draw_grows drawn
    refine ⟨(traced.draw drawn).withDb ((traced.tables.mono grows).persistTurn persisted (grows known.1.2) ?_ ?_),trivial⟩
    · exact fun c member => (known.2 c member).mono grows
    · exact issued_of_draw drawn (List.mem_singleton.mpr rfl)
  | stop => exact ⟨traced,trivial⟩

theorem act_traced (traced : Traced s) (known : Known s.issued a) (acted : act deployment i s a label = some (s',a')) :
    Traced s' ∧ Known s'.issued a' := by
  cases act_change acted with
  | upload change => exact upload_traced traced known change
  | reingest change => exact ⟨reingest_traced traced change,trivial⟩
  | delete change => exact ⟨delete_traced traced change,trivial⟩
  | ingest change => exact ingest_traced traced known change
  | search change => exact search_traced traced known change
  | turn change => exact turn_traced traced known change

theorem outline (deployment : Deployment) :
    Interleave.Outline (act deployment) Traced fun s _ a => Known s.issued a where
  own _ _ _ _ _ _ traced known acted := act_traced traced known acted
  others _ _ _ _ _ _ _ _ _ _ _ known acted := known.mono fun _ member => act_issued acted member

theorem Known.of_fresh (fresh : a.fresh = true) : Known issued a := by
  cases a with
  | upload phase => cases phase <;> trivial
  | ingest phase => cases phase <;> trivial
  | search phase => cases phase <;> trivial
  | turn phase => cases phase <;> trivial
  | _ => trivial

theorem runs_traced (path : Transition.Runs (Step deployment) start labels c) (traced : Traced start.shared)
    (fresh : ∀ i, (start.locals i).fresh = true) : Traced c.shared ∧ ∀ i, Known c.shared.issued (c.locals i) :=
  (outline deployment).runs ⟨traced,fun i => .of_fresh (fresh i)⟩ path

-- Nothing has been uploaded, chatted or cached yet; workspaces may exist.
structure Opening (s : Stores) : Prop where
  documents : s.db.documents = []
  conversations : s.db.conversations = []
  vectors : s.vectors = []
  caches : ∀ worker, (s.caches worker).entries = []
  unique : (s.issued.map Prod.fst).Nodup

theorem Opening.traced (opening : Opening s) : Traced s := by
  have noChunk (row : DocumentChunk) (member : row ∈ s.db.document_chunks) : False := by
    obtain ⟨document,present,_⟩ := s.db.keys.chunk_document row member
    rw [opening.documents] at present
    cases present
  have noMessage (row : Message) (member : row ∈ s.db.messages) : False := by
    obtain ⟨conversation,present,_⟩ := s.db.keys.message_conversation row member
    rw [opening.conversations] at present
    cases present
  refine ⟨opening.unique,⟨?_,?_,?_,?_,?_⟩,?_,?_⟩
  · intro row member
    rw [opening.documents] at member
    cases member
  · exact fun row member => (noChunk row member).elim
  · intro row member
    rw [opening.conversations] at member
    cases member
  · exact fun row member => (noMessage row member).elim
  · intro row member
    obtain ⟨message,present,_⟩ := s.db.keys.citation_message row member
    exact (noMessage message present).elim
  · intro p member
    rw [opening.vectors] at member
    cases member
  · intro worker pair member
    rw [opening.caches worker] at member
    cases member

theorem vacant_opening : Opening vacant := ⟨rfl,rfl,rfl,fun _ => rfl,List.nodup_nil⟩

end RagForge.Provenance
