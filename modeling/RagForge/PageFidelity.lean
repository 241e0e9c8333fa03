import RagForge.Parsers
import RagForge.Quotation

namespace RagForge.PageFidelity
open RagForge Site Provenance Transition VectorLedger StorageIsolation Quotation

-- Each ingestion of the schedule parses with the parsers of the factory, over
-- readers of its own: what OCR finds may differ from one to the next.
def Parses (readers : Nat → Parsers.Readers) (labels : List (Nat × Label)) : Prop :=
  ∀ i providers ids, (i,.ingest (.prepare providers ids)) ∈ labels → providers.parse = Parsers.parse (readers i)

-- The text is a piece of the page of the upload that its number names, as an
-- ingestion of the document read it.
def OnPage (deployment : Deployment) (readers : Nat → Parsers.Readers) (c : Config) (request : Documents.Upload) (d : Uuid)
    (content : Str) (page_number : Option Nat) : Prop :=
  ∃ i n text, (c.locals i).document_id = some d ∧ page_number = some n ∧
    Parsers.PageOf (readers i) request.mime_type request.content n text ∧ content ∈ deployment.splitText text

-- A piece of the whole text of the file, if that is UTF-8.
def Verbatim (deployment : Deployment) (request : Documents.Upload) (content : Str) (page_number : Option Nat) : Prop :=
  ∀ text, request.mime_type = "text/plain".toList → request.content = EventStream.encode text →
    page_number = some 1 ∧ content ∈ deployment.splitText text

theorem cut_onPage (cut : Cut deployment labels c request d content page_number) (parses : Parses readers labels) :
    OnPage deployment readers c request d content page_number := by
  obtain ⟨i,providers,ids,parsed,prepared,own,answered,page,listed,number,piece,_⟩ := cut
  rw [parses i providers ids prepared] at answered
  exact ⟨i,page.page_number,page.text,own,number,Parsers.parse_pages answered listed,piece⟩

theorem OnPage.verbatim (page : OnPage deployment readers c request d content page_number) : Verbatim deployment request content page_number := by
  intro text kind bytes
  obtain ⟨i,n,here,_,number,shown,piece⟩ := page
  rw [kind,bytes] at shown
  obtain ⟨rfl,rfl⟩ := shown.utf8
  exact ⟨number,piece⟩

-- A quote shows the page it stands on, and a quote of a UTF-8 text is verbatim.
theorem quotes_on_page (deployment : Deployment) (readers : Nat → Parsers.Readers) (start c : Config) (labels : List (Nat × Label))
    (opening : Opening start.shared) (fresh : ∀ i, (start.locals i).fresh = true)
    (contained : ∀ i request, start.locals i = .upload (.requested request) → Contained deployment request)
    (path : Runs (Step deployment) start labels c) (parses : Parses readers labels) :
    (∀ i, ∀ chunk ∈ (quoting (c.locals i)).2,
      (∃ request d, Uploaded c request d ∧ chunk.document_id = d.str ∧
        OnPage deployment readers c request d chunk.content chunk.page_number) ∧
      ∀ request d, Uploaded c request d → chunk.document_id = d.str → Verbatim deployment request chunk.content chunk.page_number) ∧
    ∀ citation ∈ c.shared.db.message_citations, ∃ row ∈ c.shared.db.document_chunks, row.id = citation.chunk_id ∧
      (∃ request, Uploaded c request row.document_id ∧ OnPage deployment readers c request row.document_id row.content row.page_number) ∧
      ∀ request, Uploaded c request row.document_id → Verbatim deployment request row.content row.page_number := by
  obtain ⟨quotes,citations⟩ := quotations_sourced deployment start c labels opening fresh contained path
  have ledgered := runs_ledgered path opening.traced fresh
  refine ⟨fun i chunk quoted => ?_,fun citation cited => ?_⟩
  · obtain ⟨request,d,there,_,key,_,cut⟩ := quotes i chunk quoted
    refine ⟨⟨request,d,there,key,cut_onPage cut parses⟩,fun other d' uploaded named => ?_⟩
    cases Uuid.str_injective (key.symm.trans named)
    cases uploaded_once ledgered there uploaded
    exact (cut_onPage cut parses).verbatim
  · obtain ⟨row,stored,key,⟨request,there,_,cut⟩,_⟩ := citations citation cited
    refine ⟨row,stored,key,⟨request,there,cut_onPage cut parses⟩,fun other uploaded => ?_⟩
    cases uploaded_once ledgered there uploaded
    exact (cut_onPage cut parses).verbatim

-- A text in UTF-8 is uploaded, ingested by its parser and retrieved.
def textReaders : Parsers.Readers where
  pdfPages _ := .error (Ingestion.terminal "No /Root object".toList)
  ocr _ _ := .missing
  docx _ := .error (Ingestion.terminal "File is not a zip file".toList)
  htmlText file_bytes := .ok (Parsers.decode file_bytes)
  markdownText text := .ok text

def alpha : Documents.Upload := ⟨⟨1⟩,some "a.txt".toList,some "text/plain".toList,EventStream.encode "Alpha".toList⟩

def reading : Config := {TenantIsolation.demo with locals := Function.update TenantIsolation.demo.locals 0 (.upload (.requested alpha))}

def textProviders : Ingestion.Providers := {providers with parse := Parsers.parse textReaders}

def loadSteps : List (Nat × Label) := uploadSteps 0 ⟨10⟩ ⟨11⟩ ++ [(1,.ingest (.load ⟨14⟩ 1))]

def readSteps : List (Nat × Label) := loadSteps ++
  [(1,.ingest (.prepare textProviders [(⟨12⟩,⟨13⟩)])),(1,.ingest (.clear .ok)),(1,.ingest (.index .ok)),(1,.ingest (.persist 2)),
   (1,.ingest .invalidate)] ++ TenantIsolation.turnSteps

theorem reading_fresh (i : Nat) : (reading.locals i).fresh = true := by
  match i with
  | 0 => rfl
  | 1 => rfl
  | 2 => rfl
  | i + 3 => rfl

theorem reading_asked (i : Nat) (wanted : asked (reading.locals i) = some request) : request = alpha := by
  match i with
  | 0 => cases wanted; rfl
  | 1 => cases wanted
  | 2 => cases wanted
  | i + 3 => cases wanted

theorem reading_contained (i : Nat) (request : Documents.Upload) (here : reading.locals i = .upload (.requested request)) :
    Contained plain request := by
  cases reading_asked i (show asked (reading.locals i) = some request by rw [here]; rfl)
  exact plain_contained (by decide) (by decide)

theorem reading_parses : Parses (fun _ => textReaders) readSteps := by
  intro i providers ids member
  simp only [readSteps,loadSteps,uploadSteps,TenantIsolation.turnSteps,List.cons_append,List.nil_append,List.mem_cons,List.not_mem_nil,
    Prod.mk.injEq,reduceCtorEq,and_false,or_false,false_or,Label.ingest.injEq,Ingestion.Label.prepare.injEq] at member
  obtain ⟨_,rfl,_⟩ := member
  rfl

theorem alpha_verbatim : ∃ c, Runs (Step plain) reading readSteps c ∧ ∃ chunk ∈ (quoting (c.locals 2)).2,
    (∃ request d, Uploaded c request d ∧ OnPage plain (fun _ => textReaders) c request d chunk.content chunk.page_number) ∧
    chunk.page_number = some 1 ∧ chunk.content ∈ plain.splitText "Alpha".toList := by
  obtain ⟨c,path,passed⟩ := run_any (Interleave.advance (act plain)) reading readSteps
    (fun c => decide ((quoting (c.locals 2)).2.length = 1)) (by decide +kernel)
  obtain ⟨chunk,only⟩ := List.length_eq_one_iff.mp (of_decide_eq_true passed)
  have quoted : chunk ∈ (quoting (c.locals 2)).2 := only ▸ List.mem_singleton_self _
  obtain ⟨pages,_⟩ := quotes_on_page plain (fun _ => textReaders) reading c readSteps vacant_opening reading_fresh reading_contained path
    reading_parses
  obtain ⟨⟨request,d,there,named,page⟩,verbatim⟩ := pages 2 chunk quoted
  obtain ⟨i,uploaded⟩ := there
  have mine : request = alpha := Interleave.Runs.local_stays i (fun a => ∀ r, asked a = some r → r = alpha)
    (fun _ _ _ _ _ kept acted r wanted => kept r (act_asked acted wanted)) path (fun _ => reading_asked i) request (by rw [uploaded]; rfl)
  subst mine
  exact ⟨c,path,chunk,quoted,⟨alpha,d,⟨i,uploaded⟩,page⟩,verbatim alpha d ⟨i,uploaded⟩ named _ rfl rfl⟩

-- A deletion of the document has come to its unlink.
def Unlinks (labels : List (Nat × Label)) (c : Config) (d : Uuid) : Prop :=
  ∃ k, (k,.delete .unlink) ∈ labels ∧ (c.locals k).document_id = some d

structure Readable (deployment : Deployment) (labels : List (Nat × Label)) (c : Config) : Prop where
  kinds : ∀ i request d, filed (c.locals i) = some (request,d) → Ingestion.isSupportedMimeType request.mime_type = true
  pursued : ∀ i document, pursuing (c.locals i) = some document → Listed c document
  files : ∀ i request d, filed (c.locals i) = some (request,d) → ∃ path,
    deployment.storage.resolve (request.storageKey d) = some path ∧
    (c.shared.storage.files path = some request.content ∨ Unlinks labels c d)

theorem Unlinks.snoc (unlinks : Unlinks labels c d) (moved : Step deployment c label next) : Unlinks (labels ++ [label]) next d := by
  obtain ⟨k,member,own⟩ := unlinks
  exact ⟨k,List.mem_append_left _ member,by rw [runs_document_id (.single moved) k,own]⟩

theorem validate_supported (valid : Documents.validateUpload settings mime_type size_bytes = none) :
    Ingestion.isSupportedMimeType mime_type = true := by
  unfold Documents.validateUpload at valid
  split at valid
  · cases valid
  · rename_i supported
    simpa using supported

-- Only a checked upload is saved.
theorem act_saved_kind (acted : act deployment i s a label = some (s',.upload (.saved request d))) :
    Ingestion.isSupportedMimeType request.mime_type = true := by
  obtain ⟨rfl,_⟩ := act_saved acted
  cases label with
  | upload label =>
    obtain ⟨phase,moved,equal⟩ := lifted acted
    cases equal
    cases label with
    | save document_id =>
      unfold Documents.upload at moved
      dsimp only at moved
      split at moved
      · cases moved
      · rename_i valid
        exact validate_supported valid
    | saveFails document_id error left =>
      obtain ⟨after,_,rest⟩ := Option.bind_eq_some_iff.mp moved
      cases left with
      | none => cases rest
      | some content =>
        obtain ⟨storage,_,equal⟩ := Option.bind_eq_some_iff.mp rest
        cases equal
    | insert => cases moved
    | fails => cases moved
  | _ => cases acted

theorem act_unlinks (acted : act deployment i s a label = some (s',a')) (pursued : pursuing a = some document)
    (after : unlinking a' = some d) : label = .delete .unlink ∧ a.document_id = some document.id := by
  unfold pursuing at pursued
  split at pursued <;> cases pursued
  · cases label with
    | delete label =>
      cases label with
      | clear reply =>
        obtain ⟨phase,moved,equal⟩ := lifted acted
        subst equal
        cases reply <;> cases moved <;> cases after
      | fails => cases acted; cases after
      | _ => cases acted
    | _ => cases acted
  · cases label with
    | delete label =>
      cases label with
      | unlink => exact ⟨rfl,rfl⟩
      | fails => cases acted; cases after
      | _ => cases acted
    | _ => cases acted

theorem pursued_step (readable : Readable deployment labels c) (accounted : Accounted deployment labels c)
    (moved : Step deployment c label next) (pursued : pursuing (next.locals i) = some document) : Listed next document := by
  obtain ⟨acted,same⟩ := Interleave.step_parts moved
  refine Listed.snoc ?_ moved
  by_cases own : i = label.1
  · subst own
    rcases act_pursuing acted pursued with before | stored
    · exact readable.pursued _ document before
    · exact accounted.documents document stored
  · exact readable.pursued i document (same i own ▸ pursued)

theorem kinds_step (readable : Readable deployment labels c) (moved : Step deployment c label next)
    (mine : filed (next.locals i) = some (request,d)) : Ingestion.isSupportedMimeType request.mime_type = true := by
  rcases filed_before moved mine with before | saved
  · exact readable.kinds i request d before
  · exact act_saved_kind (saved ▸ (Interleave.step_parts moved).1)

-- The deleter of a file is the deleter of its document.
theorem unlinked_own (readable : Readable deployment labels c) (accounted : Accounted deployment labels c)
    (contained : Contained deployment request) (resolved : deployment.storage.resolve (request.storageKey d) = some path)
    (pursued : pursuing (c.locals k) = some document) (place : deployment.storage.resolve document.storage_path = some path) :
    document.id = d := by
  obtain ⟨other,⟨j,uploaded⟩,same⟩ := readable.pursued k document pursued
  have key : document.storage_path = other.storageKey document.id := (congrArg Document.storage_path same :)
  rw [key] at place
  exact own_apart (accounted.asked j other (by rw [uploaded]; rfl) _ _ place) (contained d path resolved)

theorem files_step (readable : Readable deployment labels c) (accounted : Accounted deployment labels c) (ledgered : Ledgered c)
    (moved : Step deployment c label next) (mine : filed (next.locals i) = some (request,d)) : ∃ path,
    deployment.storage.resolve (request.storageKey d) = some path ∧
    (next.shared.storage.files path = some request.content ∨ Unlinks (labels ++ [label]) next d) := by
  obtain ⟨acted,_⟩ := Interleave.step_parts moved
  rcases filed_before moved mine with old | saved
  · obtain ⟨path,resolved,before⟩ := readable.files i request d old
    refine ⟨path,resolved,?_⟩
    rcases before with there | unlinks
    · rcases filed_file accounted ledgered moved old resolved with kept | ⟨_,document,pursued,unlinked,place⟩
      · exact .inl (kept.trans there)
      · have one := unlinked_own readable accounted (accounted.asked i request (filed_held old).2) resolved pursued place
        obtain ⟨unlinks,own⟩ := act_unlinks acted pursued unlinked
        refine .inr ⟨label.1,List.mem_append_right _ (List.mem_singleton.mpr (Prod.ext rfl unlinks.symm)),?_⟩
        rw [runs_document_id (.single moved),own,one]
    · exact .inr (unlinks.snoc moved)
  · obtain ⟨_,path,resolved,files⟩ := act_saves (saved ▸ acted)
    exact ⟨path,resolved,.inl (by rw [files,Function.update_self])⟩

theorem runs_readable (opening : Opening start.shared) (fresh : ∀ i, (start.locals i).fresh = true)
    (contained : ∀ i request, start.locals i = .upload (.requested request) → Contained deployment request)
    (path : Runs (Step deployment) start labels c) : Readable deployment labels c := by
  have none_filed (i : Nat) : filed (start.locals i) = none := by
    cases mine : filed (start.locals i) with
    | none => rfl
    | some pair =>
      have holds := (filed_held mine).1
      rw [(held_fresh (fresh i)).1] at holds
      cases holds
  refine path.history (fun labels c => Readable deployment labels c) ⟨?_,?_,?_⟩ ?_
  · exact fun i request d mine => nomatch (none_filed i).symm.trans mine
  · intro i document pursued
    have fresh := fresh i
    unfold pursuing at pursued
    split at pursued <;> cases pursued <;> rename_i phase <;> rw [phase] at fresh <;> cases fresh
  · exact fun i request d mine => nomatch (none_filed i).symm.trans mine
  · intro labels s label next prior readable moved
    have accounted := runs_accounted opening fresh contained prior
    have ledgered := runs_ledgered prior opening.traced fresh
    exact ⟨fun _ _ _ => kinds_step readable moved,fun _ _ => pursued_step readable accounted moved,
      fun _ _ _ => files_step readable accounted ledgered moved⟩

-- An ingestion finds a parser for its document, and the bytes that were uploaded
-- unless a deletion of this document has unlinked them.
theorem ingestion_reads_upload (deployment : Deployment) (readers : Parsers.Readers) (start c : Config) (labels : List (Nat × Label))
    (opening : Opening start.shared) (fresh : ∀ i, (start.locals i).fresh = true)
    (contained : ∀ i request, start.locals i = .upload (.requested request) → Contained deployment request)
    (path : Runs (Step deployment) start labels c) (i : Nat) (run : Ingestion.RunContext) (loaded : c.locals i = .ingest (.loaded run)) :
    ∃ request, Uploaded c request run.document_id ∧
      (∃ parser, Parsers.getParserForMimeType readers run.mime_type = .ok parser) ∧
      (deployment.storage.read c.shared.storage run.storage_path = some request.content ∨ Unlinks labels c run.document_id) := by
  have readable := runs_readable opening fresh contained path
  obtain ⟨request,⟨k,uploaded⟩,_,kind,place⟩ := (runs_accounted opening fresh contained path).runs i run loaded
  have mine : filed (c.locals k) = some (request,run.document_id) := by rw [uploaded]; rfl
  obtain ⟨target,resolved,kept⟩ := readable.files k request _ mine
  refine ⟨request,⟨k,uploaded⟩,(Parsers.get_parser_iff readers _).mpr (kind ▸ readable.kinds k request _ mine),kept.imp_left fun there => ?_⟩
  rw [place]
  exact (LocalStorageBackend.read_of_resolve resolved).trans there

def loadedRun : Activity → Option Ingestion.RunContext
  | .ingest (.loaded run) => some run
  | _ => none

theorem alpha_read : ∃ c, Runs (Step plain) reading loadSteps c ∧ ∃ run, c.locals 1 = .ingest (.loaded run) ∧
    ∃ request, Uploaded c request run.document_id ∧ plain.storage.read c.shared.storage run.storage_path = some request.content := by
  obtain ⟨c,path,passed⟩ := run_any (Interleave.advance (act plain)) reading loadSteps
    (fun c => (loadedRun (c.locals 1)).isSome) (by decide +kernel)
  obtain ⟨run,found⟩ := Option.isSome_iff_exists.mp passed
  have here : c.locals 1 = .ingest (.loaded run) := by
    unfold loadedRun at found
    split at found <;> cases found
    assumption
  obtain ⟨request,there,_,read⟩ := ingestion_reads_upload plain textReaders reading c loadSteps vacant_opening reading_fresh
    reading_contained path 1 run here
  refine ⟨c,path,run,here,request,there,read.resolve_right ?_⟩
  intro ⟨k,member,_⟩
  simp [loadSteps,uploadSteps] at member

end RagForge.PageFidelity
