import RagForge.ContextAssembly
import RagForge.CitationLifetime
import RagForge.StorageIsolation

namespace RagForge.Quotation
open RagForge Site Provenance Transition VectorLedger StorageIsolation ContextAssembly

-- The key of this upload leads below `{workspace_id}/{document_id}`.
def Contained (deployment : Deployment) (request : Documents.Upload) : Prop :=
  ∀ d path, deployment.storage.resolve (request.storageKey d) = some path →
    deployment.storage.root ++ [request.workspace_id.str,d.str] <+: path

def Uploaded (c : Config) (request : Documents.Upload) (d : Uuid) : Prop := ∃ i, c.locals i = .upload (.uploaded request d)

-- A piece that splitting gave of a page of the upload, as the parser answered
-- in an ingestion of its document.
def Cut (deployment : Deployment) (labels : List (Nat × Label)) (c : Config) (request : Documents.Upload) (d : Uuid)
    (content : Str) (page_number : Option Nat) : Prop :=
  ∃ i providers ids parsed, (i,.ingest (.prepare providers ids)) ∈ labels ∧ (c.locals i).document_id = some d ∧
    providers.parse request.mime_type request.content = .ok parsed ∧
    ∃ page ∈ parsed.pages, page_number = some page.page_number ∧ content ∈ deployment.splitText page.text ∧ blank content = false

-- The upload a chunk row was cut from.
def Sourced (deployment : Deployment) (labels : List (Nat × Label)) (c : Config) (row : DocumentChunk) : Prop :=
  ∃ request, Uploaded c request row.document_id ∧ request.workspace_id = row.workspace_id ∧
    Cut deployment labels c request row.document_id row.content row.page_number

-- The upload a context chunk quotes, under the name its user gave it.
def Quoted (deployment : Deployment) (labels : List (Nat × Label)) (c : Config) (w : Uuid) (chunk : ContextChunk) : Prop :=
  ∃ request d, Uploaded c request d ∧ request.workspace_id = w ∧ chunk.document_id = d.str ∧
    chunk.document_filename = request.original_filename ∧ Cut deployment labels c request d chunk.content chunk.page_number

-- A document row as it was inserted.
def unstated (row : Document) : Document := {row with status := .pending,error_message := none}

def Listed (c : Config) (row : Document) : Prop := ∃ request, Uploaded c request row.id ∧ unstated row = request.row row.id

def FromUpload (c : Config) (run : Ingestion.RunContext) : Prop :=
  ∃ request, Uploaded c request run.document_id ∧ run.workspace_id = request.workspace_id ∧
    run.mime_type = request.mime_type ∧ run.storage_path = request.storageKey run.document_id

-- What an upload was asked for, and the document it has written a file for.
def asked : Activity → Option Documents.Upload
  | .upload (.requested request) => some request
  | .upload (.saved request _) => some request
  | .upload (.uploaded request _) => some request
  | _ => none

def filed : Activity → Option (Documents.Upload × Uuid)
  | .upload (.saved request d) => some (request,d)
  | .upload (.uploaded request d) => some (request,d)
  | _ => none

-- What a turn quotes, with its workspace, until it is saved.
def quoting : Activity → Uuid × List ContextChunk
  | .turn (.fetched _ conversation chunks) => (conversation.workspace_id,chunks)
  | .turn (.retrieved _ conversation chunks) => (conversation.workspace_id,chunks)
  | .turn (.generated _ conversation g _) => (conversation.workspace_id,g.context_chunks)
  | .turn (.saved _ conversation g _) => (conversation.workspace_id,g.context_chunks)
  | _ => (⟨0⟩,[])

structure Accounted (deployment : Deployment) (labels : List (Nat × Label)) (c : Config) : Prop where
  asked : ∀ i request, asked (c.locals i) = some request → Contained deployment request
  files : ∀ i request d, filed (c.locals i) = some (request,d) → ∀ path content,
    deployment.storage.resolve (request.storageKey d) = some path → c.shared.storage.files path = some content →
    content = request.content
  documents : ∀ row ∈ c.shared.db.documents, Listed c row
  runs : ∀ i run, c.locals i = .ingest (.loaded run) → FromUpload c run
  batches : ∀ i batch, batchOf (c.locals i) = some batch → ∀ row ∈ batch.chunk_rows, Sourced deployment labels c row
  chunks : ∀ row ∈ c.shared.db.document_chunks, Sourced deployment labels c row
  quotes : ∀ i, ∀ chunk ∈ (quoting (c.locals i)).2, Quoted deployment labels c (quoting (c.locals i)).1 chunk

section Growing
variable {deployment : Deployment} {c next : Config} {label : Nat × Label}

theorem Uploaded.snoc (there : Uploaded c request d) (moved : Step deployment c label next) : Uploaded next request d := by
  obtain ⟨i,phase⟩ := there
  obtain ⟨acted,same⟩ := Interleave.step_parts moved
  refine ⟨i,?_⟩
  by_cases own : i = label.1
  · subst own
    rw [phase] at acted
    exact (uploaded_rests acted).elim
  · rw [same i own,phase]

theorem Cut.snoc (cut : Cut deployment labels c request d content page_number) (moved : Step deployment c label next) :
    Cut deployment (labels ++ [label]) next request d content page_number := by
  obtain ⟨i,providers,ids,parsed,prepared,own,rest⟩ := cut
  refine ⟨i,providers,ids,parsed,List.mem_append_left _ prepared,?_,rest⟩
  rw [runs_document_id (.single moved) i,own]

theorem Sourced.snoc (sourced : Sourced deployment labels c row) (moved : Step deployment c label next) :
    Sourced deployment (labels ++ [label]) next row := by
  obtain ⟨request,there,home,cut⟩ := sourced
  exact ⟨request,there.snoc moved,home,cut.snoc moved⟩

theorem Quoted.snoc (quoted : Quoted deployment labels c w chunk) (moved : Step deployment c label next) :
    Quoted deployment (labels ++ [label]) next w chunk := by
  obtain ⟨request,d,there,home,key,name,cut⟩ := quoted
  exact ⟨request,d,there.snoc moved,home,key,name,cut.snoc moved⟩

theorem Listed.snoc (listed : Listed c row) (moved : Step deployment c label next) : Listed next row := by
  obtain ⟨request,there,same⟩ := listed
  exact ⟨request,there.snoc moved,same⟩

theorem FromUpload.snoc {run : Ingestion.RunContext} (from_ : FromUpload c run) (moved : Step deployment c label next) : FromUpload next run := by
  obtain ⟨request,there,rest⟩ := from_
  exact ⟨request,there.snoc moved,rest⟩

end Growing

-- A row of another status and message is listed as it was.
theorem Listed.of_same (listed : Listed c old)
    (same : unstated old = unstated row) : Listed c row := by
  obtain ⟨request,there,equal⟩ := listed
  have key : old.id = row.id := (congrArg Document.id same :)
  exact ⟨request,key ▸ there,key ▸ same.symm.trans equal⟩

theorem mem_restated {t : Tables} (member : row ∈ (t.setStatus d status error).documents) :
    ∃ old ∈ t.documents, unstated old = unstated row := by
  obtain ⟨old,present,rfl⟩ := List.mem_map.mp member
  refine ⟨old,present,?_⟩
  split <;> rfl

-- A document row is an earlier one restated, or an upload has just inserted it.
theorem act_restated (acted : act deployment i s a label = some (s',a')) (member : row ∈ s'.db.documents) :
    (∃ old ∈ s.db.documents, unstated old = unstated row) ∨
      ∃ request d, a' = .upload (.uploaded request d) ∧ row = request.row d := by
  have kept (same : row ∈ s.db.documents) : ∃ old ∈ s.db.documents, unstated old = unstated row := ⟨row,same,rfl⟩
  generalize found : s'.db = after at member
  have commit := found ▸ Commits.act_commit acted
  cases commit with
  | upload enforced =>
    rw [show after.documents = _ from congrArg Tables.documents (Database.enforce_tables enforced)] at member
    rcases List.mem_append.mp member with old | new
    · exact .inl (kept old)
    · exact .inr ⟨_,_,rfl,List.mem_singleton.mp new⟩
  | reingest _ enforced => exact .inl (mem_restated ((congrArg Tables.documents (Database.enforce_tables enforced) :) ▸ member))
  | delete => exact .inl (kept (List.mem_filter.mp member).1)
  | load loaded =>
    obtain ⟨_,_,_,_,_,tables⟩ := Commits.load_tables loaded
    exact .inl (mem_restated ((congrArg Tables.documents tables :) ▸ member))
  | persist persisted => exact .inl (mem_restated ((congrArg Tables.documents (Commits.persist_tables persisted) :) ▸ member))
  | mark => exact .inl (mem_restated ((congrArg Tables.documents (Commits.markFailed_tables _ _ _ _) :) ▸ member))
  | open_ opened =>
    obtain ⟨_,_,_,_,tables⟩ := ChatService.openTurn_parts opened
    exact .inl (kept ((congrArg Tables.documents tables :) ▸ member))
  | save persisted =>
    obtain ⟨_,_,tables⟩ := ChatService.persistTurn_parts persisted
    exact .inl (kept ((congrArg Tables.documents tables :) ▸ member))
  | none => exact .inl (kept member)

theorem act_asked (acted : act deployment i s a label = some (s',a')) (after : asked a' = some request) : asked a = some request := by
  cases act_change acted with
  | upload change => cases change <;> first | exact after | cases after
  | _ => cases after

theorem savedKey_asked (saves : savedKey deployment a label = some (d,key)) :
    ∃ request, asked a = some request ∧ key = request.storageKey d := by
  unfold savedKey at saves
  split at saves
  · split at saves <;> cases saves
    exact ⟨_,rfl,rfl⟩
  · cases saves
    exact ⟨_,rfl,rfl⟩
  · cases saves

theorem filed_held (mine : filed a = some (request,d)) : d ∈ held a ∧ asked a = some request := by
  unfold filed at mine
  split at mine <;> cases mine <;> exact ⟨List.mem_singleton.mpr rfl,rfl⟩

theorem act_filed (acted : act deployment i s a label = some (s',a')) (after : filed a' = some (request,d)) :
    filed a = some (request,d) ∨ a' = .upload (.saved request d) := by
  cases act_change acted with
  | upload change => cases change <;> first | exact .inl after | cases after
                     exact .inr rfl
  | _ => cases after

theorem filed_before (moved : Step deployment c label next) (mine : filed (next.locals i) = some (request,d)) :
    filed (c.locals i) = some (request,d) ∨ next.locals label.1 = .upload (.saved request d) := by
  obtain ⟨acted,same⟩ := Interleave.step_parts moved
  by_cases own : i = label.1
  · subst own
    exact act_filed acted mine
  · exact .inl (same i own ▸ mine)

-- No later upload writes where an upload has written: it writes below the
-- directory of a document that is new.
theorem filed_file (accounted : Accounted deployment labels c) (ledgered : Ledgered c) (moved : Step deployment c label next)
    (mine : filed (c.locals i) = some (request,d)) (resolved : deployment.storage.resolve (request.storageKey d) = some path) :
    next.shared.storage.files path = c.shared.storage.files path ∨ next.shared.storage.files path = none ∧
      ∃ document, pursuing (c.locals label.1) = some document ∧ unlinking (next.locals label.1) = some document.id ∧
        deployment.storage.resolve document.storage_path = some path := by
  obtain ⟨acted,_⟩ := Interleave.step_parts moved
  obtain ⟨holds,wanted⟩ := filed_held mine
  rcases act_files acted with kept | ⟨d',key,target,written,saves,place,files⟩ | ⟨document,target,pursued,unlinked,place,files⟩
  · exact .inl (congrFun kept path)
  · obtain ⟨other,asks,key_eq⟩ := savedKey_asked saves
    rw [key_eq] at place
    have apart : path ≠ target := by
      intro met
      have one := own_apart (accounted.asked i request wanted d path resolved) (met ▸ accounted.asked _ other asks d' target place)
      exact act_key_fresh acted saves (one ▸ ledgered.drawn i d holds)
    exact .inl (by rw [files,Function.update_of_ne apart])
  · by_cases met : path = target
    · subst met
      exact .inr ⟨by rw [files,Function.update_self],document,pursued,unlinked,place⟩
    · exact .inl (by rw [files,Function.update_of_ne met])

-- The file of an upload is its own bytes or is gone.
theorem files_step (accounted : Accounted deployment labels c) (ledgered : Ledgered c) (moved : Step deployment c label next)
    (mine : filed (next.locals i) = some (request,d)) (resolved : deployment.storage.resolve (request.storageKey d) = some path)
    (there : next.shared.storage.files path = some content) : content = request.content := by
  rcases filed_before moved mine with old | saved
  · rcases filed_file accounted ledgered moved old resolved with kept | ⟨gone,_⟩
    · exact accounted.files i request d old path content resolved (kept.symm.trans there)
    · cases gone.symm.trans there
  · obtain ⟨acted,_⟩ := Interleave.step_parts moved
    obtain ⟨_,target,place,files⟩ := act_saves (saved ▸ acted)
    cases place.symm.trans resolved
    rw [files,Function.update_self] at there
    exact (Option.some.inj there).symm

theorem documents_step (accounted : Accounted deployment labels c) (moved : Step deployment c label next)
    (member : row ∈ next.shared.db.documents) : Listed next row := by
  obtain ⟨acted,_⟩ := Interleave.step_parts moved
  rcases act_restated acted member with ⟨old,present,same⟩ | ⟨request,d,uploaded,rfl⟩
  · exact ((accounted.documents old present).snoc moved).of_same same
  · exact ⟨request,⟨label.1,uploaded⟩,rfl⟩

theorem load_from {db : Database} {run : Ingestion.RunContext} (listed : ∀ row ∈ db.documents, Listed c row)
    (loaded : Ingestion.load db d task job_id now = some (some (after,run))) : FromUpload c run := by
  obtain ⟨document,workspace,found,_,rfl,_⟩ := Commits.load_tables loaded
  obtain ⟨present,key⟩ := Database.getDocument_mem found
  obtain ⟨request,there,same⟩ := listed document present
  subst key
  exact ⟨request,there,(congrArg Document.workspace_id same :),(congrArg Document.mime_type same :),(congrArg Document.storage_path same :)⟩

theorem act_loads {run : Ingestion.RunContext} (acted : act deployment i s a label = some (s',.ingest (.loaded run))) :
    ∃ d task job_id now after, Ingestion.load s.db d task job_id now = some (some (after,run)) := by
  cases act_change acted with
  | ingest change =>
    cases change with
    | load loaded => exact ⟨_,_,_,_,_,loaded⟩
    | clear next => rcases next with equal | ⟨failed,_⟩ <;> contradiction
    | index next => rcases next with equal | ⟨failed,_⟩ <;> contradiction
    | stop failed => contradiction

theorem runs_step {run : Ingestion.RunContext} (accounted : Accounted deployment labels c) (moved : Step deployment c label next)
    (here : next.locals i = .ingest (.loaded run)) : FromUpload next run := by
  obtain ⟨acted,same⟩ := Interleave.step_parts moved
  refine FromUpload.snoc ?_ moved
  by_cases own : i = label.1
  · subst own
    rw [here] at acted
    obtain ⟨_,_,_,_,_,loaded⟩ := act_loads acted
    exact load_from accounted.documents loaded
  · exact accounted.runs i run (same i own ▸ here)

theorem prepare_reads {run : Ingestion.RunContext} {providers : Ingestion.Providers}
    (prepared : Ingestion.prepare deployment storage run providers = .ok (chunks,embed_result)) :
    ∃ content parsed, deployment.storage.read storage run.storage_path = some content ∧
      providers.parse run.mime_type content = .ok parsed ∧ chunks = RecursiveChunker.chunk deployment.splitText parsed := by
  unfold Ingestion.prepare at prepared
  simp only [bind,Except.bind,pure,Except.pure,throw,throwThe,MonadExceptOf.throw] at prepared
  -- only the branch past every check returns
  repeat' split at prepared
  all_goals cases prepared
  rename_i content found _ _ parsed answered _ _ _ _ _
  exact ⟨content,parsed,found,answered,rfl⟩

theorem chunk_cut (member : chunk ∈ RecursiveChunker.chunk splitText parsed) : ∃ page ∈ parsed.pages,
    chunk.page_number = some page.page_number ∧ chunk.content ∈ splitText page.text ∧ blank chunk.content = false := by
  have placed : (chunk.page_number,chunk.content) ∈ (RecursiveChunker.chunk splitText parsed).map fun c => (c.page_number,c.content) :=
    List.mem_map.mpr ⟨chunk,member,rfl⟩
  rw [(RecursiveChunker.chunk_exact splitText parsed).1] at placed
  obtain ⟨page,kept,split⟩ := List.mem_flatMap.mp placed
  obtain ⟨piece,cut,same⟩ := List.mem_map.mp split
  obtain ⟨number,content⟩ := Prod.mk.inj same
  obtain ⟨inside,text⟩ := List.mem_filter.mp cut
  exact ⟨page,(List.mem_filter.mp kept).1,number.symm,content ▸ inside,content ▸ by simpa using text⟩

-- Only a preparation builds a batch.
theorem act_prepares {run run' : Ingestion.RunContext} (acted : act deployment i s (.ingest (.loaded run)) label = some (s',.ingest (.embedded run' batch))) :
    ∃ providers ids chunks embed_result, label = .ingest (.prepare providers ids) ∧
      Ingestion.prepare deployment s.storage run providers = .ok (chunks,embed_result) ∧
      batch = Ingestion.build run chunks embed_result ids := by
  cases label with
  | ingest label =>
    cases label with
    | prepare providers ids =>
      obtain ⟨phase,moved,equal⟩ := lifted acted
      cases equal
      unfold Ingestion.act at moved
      dsimp only at moved
      split at moved
      · rename_i chunks embed_result prepared
        split at moved
        · obtain ⟨_,_,equal⟩ := Option.map_eq_some_iff.mp moved
          cases equal
          exact ⟨providers,ids,chunks,embed_result,rfl,prepared,rfl⟩
        · cases moved
      · rename_i error _
        unfold Ingestion.handle at moved
        split at moved <;> cases moved
    | _ => cases acted
  | _ => cases acted

theorem act_batch (acted : act deployment i s a label = some (s',a')) (built : batchOf a' = some batch) :
    batchOf a = some batch ∨ ∃ run, a = .ingest (.loaded run) ∧ a' = .ingest (.embedded run batch) := by
  cases act_change acted with
  | ingest change =>
    rcases ingest_batch change built with before | ⟨_,run,_,_,_,rfl,rfl,_⟩
    · exact .inl before
    · exact .inr ⟨run,rfl,rfl⟩
  | _ => cases built

-- The chunks an ingestion builds are cut from the upload it was loaded for.
theorem batches_step (accounted : Accounted deployment labels c) (moved : Step deployment c label next)
    (built : batchOf (next.locals i) = some batch) (member : row ∈ batch.chunk_rows) : Sourced deployment (labels ++ [label]) next row := by
  obtain ⟨acted,same⟩ := Interleave.step_parts moved
  have before : batchOf (c.locals i) = some batch ∨ ∃ run, c.locals label.1 = .ingest (.loaded run) ∧
      next.locals label.1 = .ingest (.embedded run batch) := by
    by_cases own : i = label.1
    · subst own
      exact act_batch acted built
    · exact .inl (same i own ▸ built)
  rcases before with old | ⟨run,loaded,embedded⟩
  · exact (accounted.batches i batch old row member).snoc moved
  · rw [loaded,embedded] at acted
    obtain ⟨providers,ids,chunks,embed_result,prepares,prepared,rfl⟩ := act_prepares acted
    obtain ⟨content,parsed,found,answered,rfl⟩ := prepare_reads prepared
    obtain ⟨request,there,home,kind,place⟩ := accounted.runs label.1 run loaded
    obtain ⟨path,resolved,bytes⟩ := Option.bind_eq_some_iff.mp found
    rw [place] at resolved
    obtain ⟨k,phase⟩ := there
    have whole : content = request.content := accounted.files k request run.document_id (by rw [phase]; rfl) path content resolved bytes
    rw [kind,whole] at answered
    obtain ⟨chunk,inside,pair,_,rfl⟩ := Ingestion.mem_build_rows member
    refine ⟨request,Uploaded.snoc ⟨k,phase⟩ moved,home.symm,label.1,providers,ids,parsed,?_,?_,answered,chunk_cut inside⟩
    · exact List.mem_append_right _ (List.mem_singleton.mpr (Prod.ext rfl prepares.symm))
    · rw [embedded]
      rfl

theorem written_batch (writes : rowsWrite a label = some (d,fresh)) (member : row ∈ fresh) :
    ∃ batch, batchOf a = some batch ∧ row ∈ batch.chunk_rows := by
  unfold rowsWrite at writes
  split at writes <;> cases writes
  · exact ⟨_,rfl,member⟩
  · cases member

theorem chunks_step (accounted : Accounted deployment labels c) (moved : Step deployment c label next)
    (member : row ∈ next.shared.db.document_chunks) : Sourced deployment (labels ++ [label]) next row := by
  obtain ⟨acted,_⟩ := Interleave.step_parts moved
  rw [Commits.act_chunks acted] at member
  refine Sourced.snoc ?_ moved
  cases writes : rowsWrite (c.locals label.1) label.2 with
  | none =>
    rw [writes] at member
    exact accounted.chunks row member
  | some written =>
    rw [writes] at member
    rcases List.mem_append.mp member with old | new
    · exact accounted.chunks row (List.mem_filter.mp old).1
    · obtain ⟨batch,built,inside⟩ := written_batch writes new
      exact accounted.batches label.1 batch built row inside

theorem uploaded_once (ledgered : Ledgered c) (first : Uploaded c request d) (second : Uploaded c request' d) : request = request' := by
  obtain ⟨i,left⟩ := first
  obtain ⟨j,right⟩ := second
  by_cases equal : i = j
  · subst equal
    cases left.symm.trans right
    rfl
  · refine absurd (?_ : d ∈ held (c.locals j)) (ledgered.apart i j equal d ?_)
    · rw [right]; exact List.mem_singleton.mpr rfl
    · rw [left]; exact List.mem_singleton.mpr rfl

-- Reranking changes the score of an entry only.
theorem rerank_entry (ranked : rerankNode settings provider candidates = .ok chunks) (member : chunk ∈ chunks) :
    ∃ original ∈ candidates, chunk = {original with relevance_score := chunk.relevance_score} := by
  unfold rerankNode at ranked
  split at ranked
  · cases ranked
    cases member
  · obtain ⟨results,answered,rest⟩ := Fallible.bind_ok.mp ranked
    split at rest <;> cases rest
    rename_i built
    obtain ⟨r,_,here⟩ := Fallible.mem_of_mapM built member
    obtain ⟨original,found,rfl⟩ := Option.map_eq_some_iff.mp here
    exact ⟨original,getItem_mem found,rfl⟩

-- A chunk a turn quotes it has just fetched with its row, or quoted before.
theorem act_quoting (traced : Traced s) (known : Known s.issued a) (acted : act deployment i s a label = some (s',a'))
    (member : chunk ∈ (quoting a').2) :
    (∃ row ∈ s.db.document_chunks, row.workspace_id = (quoting a').1 ∧ ∃ document ∈ s.db.documents, document.id = row.document_id ∧
      chunk.document_id = row.document_id.str ∧ chunk.document_filename = document.original_filename ∧
      chunk.content = row.content ∧ chunk.page_number = row.page_number) ∨
    ∃ original ∈ (quoting a).2, chunk = {original with relevance_score := chunk.relevance_score} ∧ (quoting a).1 = (quoting a').1 := by
  cases act_change acted with
  | turn change =>
    cases change with
    | fetch =>
      obtain ⟨row,present,document,listed,key,named,rest⟩ := candidate_own member
      obtain ⟨r,asked,other,_,same,text⟩ := contextChunk_row member
      have one : r.chunk_id = row.id := same.symm.trans (Uuid.str_injective (text.symm.trans named))
      exact .inl ⟨row,present,TenantIsolation.one_workspace traced (traced.tables.chunks row present) (one ▸ known.2 r asked),
        document,listed,key,rest⟩
    | rerank ranked =>
      obtain ⟨original,before,same⟩ := rerank_entry ranked member
      exact .inr ⟨original,before,same,rfl⟩
    | generate => exact .inr ⟨chunk,member,rfl,rfl⟩
    | persist => exact .inr ⟨chunk,member,rfl,rfl⟩
    | _ => cases member
  | _ => cases member

theorem quotes_step (accounted : Accounted deployment labels c) (ledgered : Ledgered c) (known : ∀ i, Known c.shared.issued (c.locals i))
    (moved : Step deployment c label next) (member : chunk ∈ (quoting (next.locals i)).2) :
    Quoted deployment (labels ++ [label]) next (quoting (next.locals i)).1 chunk := by
  obtain ⟨acted,same⟩ := Interleave.step_parts moved
  refine Quoted.snoc ?_ moved
  by_cases own : i = label.1
  · subst own
    rcases act_quoting ledgered.traced (known _) acted member with
      ⟨row,present,home,document,stored,key,named,name,content,page⟩ | ⟨original,before,score,home⟩
    · obtain ⟨request,there,workspace,cut⟩ := accounted.chunks row present
      obtain ⟨request',listed,restated⟩ := accounted.documents document stored
      cases uploaded_once ledgered there (key ▸ listed)
      refine ⟨request,row.document_id,there,workspace.trans home,named,name.trans (congrArg Document.original_filename restated :),?_⟩
      rw [content,page]
      exact cut
    · obtain ⟨request,d,there,workspace,named,name,cut⟩ := accounted.quotes label.1 original before
      rw [score]
      exact ⟨request,d,there,workspace.trans home,named,name,cut⟩
  · rw [same i own] at member ⊢
    exact accounted.quotes i chunk member

theorem opening_accounted (opening : Opening start.shared) (fresh : ∀ i, (start.locals i).fresh = true)
    (contained : ∀ i request, start.locals i = .upload (.requested request) → Contained deployment request) :
    Accounted deployment [] start where
  asked i request wanted := by
    have fresh := fresh i
    unfold asked at wanted
    split at wanted <;> cases wanted <;> rename_i phase <;> rw [phase] at fresh
    · exact contained i request phase
    · cases fresh
    · cases fresh
  files i request d mine := by
    have fresh := fresh i
    unfold filed at mine
    split at mine <;> cases mine <;> rename_i phase <;> rw [phase] at fresh <;> cases fresh
  documents row member := by rw [opening.documents] at member; cases member
  runs i run here := by
    have fresh := fresh i
    rw [here] at fresh
    cases fresh
  batches i batch built := by
    rw [(held_fresh (fresh i)).2] at built
    cases built
  chunks row member := by
    obtain ⟨document,present,_⟩ := start.shared.db.keys.chunk_document row member
    rw [opening.documents] at present
    cases present
  quotes i chunk member := by
    have fresh := fresh i
    unfold quoting at member
    split at member
    · rename_i phase; rw [phase] at fresh; cases fresh
    · rename_i phase; rw [phase] at fresh; cases fresh
    · rename_i phase; rw [phase] at fresh; cases fresh
    · rename_i phase; rw [phase] at fresh; cases fresh
    · cases member

theorem runs_accounted (opening : Opening start.shared) (fresh : ∀ i, (start.locals i).fresh = true)
    (contained : ∀ i request, start.locals i = .upload (.requested request) → Contained deployment request)
    (path : Runs (Step deployment) start labels c) : Accounted deployment labels c := by
  refine path.history (fun labels c => Accounted deployment labels c) (opening_accounted opening fresh contained) ?_
  intro labels s label next prior accounted moved
  have ledgered := runs_ledgered prior opening.traced fresh
  have known := (runs_traced prior opening.traced fresh).2
  refine ⟨fun i request wanted => ?_,fun i request d mine path content => files_step accounted ledgered moved mine,
    fun row => documents_step accounted moved,fun i run => runs_step accounted moved,fun i batch built row => batches_step accounted moved built,
    fun row => chunks_step accounted moved,fun i chunk => quotes_step accounted ledgered known moved⟩
  obtain ⟨acted,same⟩ := Interleave.step_parts moved
  by_cases own : i = label.1
  · subst own
    exact accounted.asked _ request (act_asked acted wanted)
  · exact accounted.asked i request (same i own ▸ wanted)

-- Whatever a turn puts before the model, and whatever an answer cites, is a
-- piece of a file that was uploaded to its workspace, under that file's name.
theorem quotations_sourced (deployment : Deployment) (start c : Config) (labels : List (Nat × Label))
    (opening : Opening start.shared) (fresh : ∀ i, (start.locals i).fresh = true)
    (contained : ∀ i request, start.locals i = .upload (.requested request) → Contained deployment request)
    (path : Runs (Step deployment) start labels c) :
    (∀ i, ∀ chunk ∈ (quoting (c.locals i)).2, Quoted deployment labels c (quoting (c.locals i)).1 chunk) ∧
    ∀ citation ∈ c.shared.db.message_citations, ∃ row ∈ c.shared.db.document_chunks, row.id = citation.chunk_id ∧
      Sourced deployment labels c row ∧
      (∀ request, Uploaded c request row.document_id → ∀ document ∈ c.shared.db.documents, document.id = row.document_id →
        document.original_filename = request.original_filename) ∧
      ∀ message ∈ c.shared.db.messages, message.id = citation.message_id →
      ∀ conversation ∈ c.shared.db.conversations, conversation.id = message.conversation_id →
        row.workspace_id = conversation.workspace_id := by
  have accounted := runs_accounted opening fresh contained path
  have traced := (runs_traced path opening.traced fresh).1
  refine ⟨accounted.quotes,fun citation cited => ?_⟩
  obtain ⟨row,stored,key⟩ := c.shared.db.keys.citation_chunk citation cited
  refine ⟨row,stored,key,accounted.chunks row stored,fun request there document held own => ?_,
    TenantIsolation.citations_at_home traced citation cited row stored key⟩
  obtain ⟨other,uploaded,same⟩ := accounted.documents document held
  cases uploaded_once (runs_ledgered path opening.traced fresh) there (own ▸ uploaded)
  exact (congrArg Document.original_filename same :)

theorem plain_contained {request : Documents.Upload} (plain : request.original_filename.all (fun c => decide (c ≠ '/')) = true)
    (down : request.original_filename ≠ ['.','.']) : Contained deployment request :=
  fun _ _ resolved => plain_filename_own (fun c inside => of_decide_eq_true (List.all_eq_true.mp plain c inside)) down resolved

theorem archive_contained (i : Nat) (request : Documents.Upload) (here : CitationLifetime.archive.locals i = .upload (.requested request)) :
    Contained plain request := by
  have mine : request = memo := by
    unfold CitationLifetime.archive at here
    dsimp only at here
    split at here <;> cases here <;> rfl
  subst mine
  exact plain_contained (by decide) (by decide)

theorem answer_quotes_memo : ∃ c, Runs (Step plain) CitationLifetime.archive CitationLifetime.answerSteps c ∧
    (∃ chunk ∈ (quoting (c.locals 2)).2, chunk.document_filename = "a.txt".toList ∧
      Quoted plain CitationLifetime.answerSteps c (quoting (c.locals 2)).1 chunk) ∧
    ∃ row, row.id = CitationLifetime.reference.chunk_id ∧ Sourced plain CitationLifetime.answerSteps c row := by
  obtain ⟨c,path,passed⟩ := run_any (Interleave.advance (act plain)) CitationLifetime.archive CitationLifetime.answerSteps
    (fun c => decide ((∃ chunk ∈ (quoting (c.locals 2)).2,chunk.document_filename = "a.txt".toList) ∧
      CitationLifetime.reference ∈ c.shared.db.message_citations)) (by decide +kernel)
  obtain ⟨⟨chunk,quoted,name⟩,cited⟩ := of_decide_eq_true passed
  obtain ⟨quotes,citations⟩ := quotations_sourced plain CitationLifetime.archive c CitationLifetime.answerSteps vacant_opening
    CitationLifetime.archive_fresh archive_contained path
  obtain ⟨row,_,key,sourced,_,_⟩ := citations CitationLifetime.reference cited
  exact ⟨c,path,⟨chunk,quoted,name,quotes 2 chunk quoted⟩,row,key,sourced⟩

end RagForge.Quotation
