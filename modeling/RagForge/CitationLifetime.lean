import RagForge.Commits
import RagForge.TenantIsolation

namespace RagForge.CitationLifetime
open RagForge Site Transition Commits

-- A citation row points at a chunk of this document.
def Cites (t : Tables) (row : MessageCitation) (document_id : Uuid) : Prop :=
  ∃ chunk ∈ t.document_chunks, chunk.id = row.chunk_id ∧ chunk.document_id = document_id

theorem mem_deleteChunks {t : Tables} :
    row ∈ (t.deleteChunks document_id).message_citations ↔ row ∈ t.message_citations ∧ ¬ Cites t row document_id := by
  have gone : row.chunk_id ∈ (t.document_chunks.filter (·.document_id = document_id)).map (·.id) ↔ Cites t row document_id := by
    simp [Cites,and_assoc,and_comm]
  simp only [Tables.deleteChunks,List.mem_filter,decide_eq_true_eq,gone]

-- Citation rows are added by a finished turn and go with the chunks they cite.
theorem commit_citations (commit : Commit db a label after a') :
    (rowsWrite a label = none → ∀ row ∈ db.message_citations, row ∈ after.message_citations) ∧
    ∀ document_id rows, rowsWrite a label = some (document_id,rows) →
      ∀ row, row ∈ after.message_citations ↔ row ∈ db.message_citations ∧ ¬ Cites db.toTables row document_id := by
  cases commit with
  | upload enforced =>
    have same := congrArg Tables.message_citations (Database.enforce_tables enforced)
    exact ⟨fun _ row stored => same ▸ stored,nofun⟩
  | reingest _ enforced =>
    have same := congrArg Tables.message_citations (Database.enforce_tables enforced)
    exact ⟨fun _ row stored => same ▸ stored,nofun⟩
  | delete =>
    refine ⟨nofun,fun document_id rows wrote row => ?_⟩
    cases wrote
    exact mem_deleteChunks
  | load loaded =>
    obtain ⟨_,_,_,_,_,tables⟩ := load_tables loaded
    have same := congrArg Tables.message_citations tables
    exact ⟨fun _ row stored => same ▸ stored,nofun⟩
  | persist persisted =>
    refine ⟨nofun,fun document_id rows wrote row => ?_⟩
    cases wrote
    rw [congrArg Tables.message_citations (persist_tables persisted)]
    exact mem_deleteChunks
  | @mark d message now =>
    have same := congrArg Tables.message_citations (markFailed_tables db d message now)
    exact ⟨fun _ row stored => same ▸ stored,nofun⟩
  | open_ opened =>
    obtain ⟨_,_,_,_,tables⟩ := ChatService.openTurn_parts opened
    have same := congrArg Tables.message_citations tables
    exact ⟨fun _ row stored => same ▸ stored,nofun⟩
  | save saved =>
    obtain ⟨_,_,tables⟩ := ChatService.persistTurn_parts saved
    have added := congrArg Tables.message_citations tables
    exact ⟨fun _ row stored => added ▸ List.mem_append_left _ stored,nofun⟩
  | none quiet _ => exact ⟨fun _ row stored => stored,fun _ _ wrote => nomatch quiet.symm.trans wrote⟩

-- The last transaction of an execution, on a document no committed citation
-- points into.
def Uncited (c : Config) (label : Nat × Label) : Prop :=
  ∀ run batch now, c.locals label.1 = .ingest (.indexed run batch) → label.2 = .ingest (.persist now) →
    ∀ row ∈ c.shared.db.message_citations, ¬ Cites c.shared.db.toTables row run.document_id

-- A deletion of the cited document has committed in between.
def Deleted (deployment : Deployment) (b : Config) (labels : List (Nat × Label)) (row : MessageCitation) : Prop :=
  ∃ earlier i later m document version, labels = earlier ++ (i,.delete .commit) :: later ∧ Runs (Step deployment) b earlier m ∧
    m.locals i = .delete (.invalidated document version) ∧ Cites m.shared.db.toTables row document.id

theorem Deleted.snoc (deleted : Deleted deployment b labels row) : Deleted deployment b (labels ++ [label]) row := by
  obtain ⟨earlier,i,later,m,document,version,rfl,rest⟩ := deleted
  exact ⟨earlier,i,later ++ [label],m,document,version,by simp,rest⟩

theorem rowsWrite_cases (wrote : rowsWrite a label = some (document_id,rows)) :
    (∃ run batch now, a = .ingest (.indexed run batch) ∧ label = .ingest (.persist now) ∧ document_id = run.document_id) ∨
      ∃ document version, a = .delete (.invalidated document version) ∧ label = .delete .commit ∧ document_id = document.id := by
  unfold rowsWrite at wrote
  split at wrote
  · rename_i run batch now
    cases wrote
    exact .inl ⟨run,batch,now,rfl,rfl,rfl⟩
  · rename_i document version
    cases wrote
    exact .inr ⟨document,version,rfl,rfl,rfl⟩
  · cases wrote

-- Whatever the run, a committed citation outlives every step but the deletion
-- of its document, as long as no execution replaces chunks that are cited.
theorem citations_permanent (deployment : Deployment) (b : Config) (row : MessageCitation) (stored : row ∈ b.shared.db.message_citations) :
    (∀ c labels, Runs (within Uncited (Step deployment)) b labels c →
      row ∈ c.shared.db.message_citations ∨ Deleted deployment b labels row) ∧
    (∀ label next, Step deployment b label next → ¬ Uncited b label →
      ∃ lost ∈ b.shared.db.message_citations, lost ∉ next.shared.db.message_citations) := by
  constructor
  · intro c labels path
    refine path.history (fun labels c => row ∈ c.shared.db.message_citations ∨ Deleted deployment b labels row) (.inl stored) ?_
    intro labels s label next prior kept moved
    rcases kept with kept | deleted
    · obtain ⟨uncited,step⟩ := moved
      obtain ⟨calm,replaced⟩ := commit_citations (act_commit (Interleave.step_parts step).1)
      cases wrote : rowsWrite (s.locals label.1) label.2 with
      | none => exact .inl (calm wrote row kept)
      | some pair =>
        obtain ⟨document_id,rows⟩ := pair
        by_cases cited : Cites s.shared.db.toTables row document_id
        · rcases rowsWrite_cases wrote with ⟨run,batch,now,here,commit,rfl⟩ | ⟨document,version,here,commit,rfl⟩
          · exact absurd cited (uncited run batch now here commit row kept)
          · obtain ⟨i,action⟩ := label
            cases commit
            exact .inr ⟨labels,i,[],s,document,version,rfl,prior.unguarded,here,cited⟩
        · exact .inl ((replaced document_id rows wrote row).mpr ⟨kept,cited⟩)
    · exact .inr deleted.snoc
  · intro label next step cited
    simp only [Uncited,not_forall,not_not] at cited
    obtain ⟨run,batch,now,here,commit,lost,held,cites⟩ := cited
    obtain ⟨_,replaced⟩ := commit_citations (act_commit (Interleave.step_parts step).1)
    have wrote : rowsWrite (b.locals label.1) label.2 = some (run.document_id,batch.chunk_rows) := by
      rw [here,commit]; rfl
    exact ⟨lost,held,fun kept => ((replaced _ _ wrote lost).mp kept).2 cites⟩

-- A turn cites chunk 12 of document 10; a second document is uploaded and
-- ingested; document 10 is ingested again.
def archive : Config where
  shared := vacant
  locals := fun
    | 0 => .upload (.requested memo)
    | 1 => .ingest (.received ⟨10⟩ none)
    | 2 => .turn (.requested ⟨⟨1⟩,⟨3⟩,none,"alpha".toList⟩ 0)
    | 3 => .upload (.requested memo)
    | 4 => .ingest (.received ⟨30⟩ none)
    | 5 => .reingest (.requested ⟨1⟩ ⟨10⟩)
    | 6 => .ingest (.received ⟨10⟩ none)
    | _ => .idle

def answerSteps : List (Nat × Label) :=
  TenantIsolation.demoSteps ++
    [(2,.turn (.generate ["See [1]".toList] ⟨[],[],⟨0,0,0,0⟩⟩)),(2,.turn (.persist ⟨22⟩ 4))]

def secondSteps : List (Nat × Label) := uploadSteps 3 ⟨30⟩ ⟨31⟩ ++ ingestSteps 4 ⟨34⟩ ⟨32⟩ ⟨33⟩

def againSteps : List (Nat × Label) := (5,.reingest (.insert ⟨41⟩ 5)) :: ingestSteps 6 ⟨44⟩ ⟨42⟩ ⟨43⟩

def reference : MessageCitation := ⟨⟨22⟩,⟨12⟩,1,1⟩

theorem archive_fresh (i : Nat) : (archive.locals i).fresh = true := by
  unfold archive; dsimp only; split <;> rfl

-- The reader of the answer loses its reference although nothing was deleted.
theorem reingestion_drops_citation : ¬ ∀ (deployment : Deployment) (start b c : Config) (earlier later : List (Nat × Label)),
    Provenance.Opening start.shared → (∀ i, (start.locals i).fresh = true) →
    Runs (Step deployment) start earlier b → Runs (Step deployment) b later c → (∀ label ∈ later, label.2 ≠ .delete .commit) →
    ∀ row ∈ b.shared.db.message_citations, row ∈ c.shared.db.message_citations := by
  intro permanent
  obtain ⟨c,path,gone⟩ := run_any (Interleave.advance (act plain)) archive (answerSteps ++ againSteps)
    (fun c => decide (reference ∉ c.shared.db.message_citations)) (by decide +kernel)
  obtain ⟨b,before,after⟩ := path.split answerSteps againSteps rfl
  have stored := before.checked (fun c => decide (reference ∈ c.shared.db.message_citations)) (by decide +kernel)
  refine of_decide_eq_true gone (permanent plain archive b c answerSteps againSteps Provenance.vacant_opening archive_fresh before after ?_
    reference (of_decide_eq_true stored))
  intro label member
  simp only [againSteps,ingestSteps,List.mem_cons,List.not_mem_nil,or_false] at member
  rcases member with rfl | rfl | rfl | rfl | rfl | rfl | rfl <;> nofun

-- The step is not the last transaction of an execution whose chunks are cited.
def uncited (c : Config) (label : Nat × Label) : Bool :=
  match c.locals label.1,label.2 with
  | .ingest (.indexed run _),.ingest (.persist _) =>
    decide (∀ row ∈ c.shared.db.message_citations, ∀ chunk ∈ c.shared.db.document_chunks,
      chunk.id = row.chunk_id → chunk.document_id ≠ run.document_id)
  | _,_ => true

theorem uncited_sound (passed : uncited c label = true) : Uncited c label := by
  intro run batch now here commit row stored ⟨chunk,present,same,inside⟩
  unfold uncited at passed
  rw [here,commit] at passed
  exact of_decide_eq_true passed row stored chunk present same inside

theorem citation_outlives_upload : ∃ b c, Runs (Step plain) archive answerSteps b ∧ reference ∈ b.shared.db.message_citations ∧
    Runs (within Uncited (Step plain)) b secondSteps c ∧
      (reference ∈ c.shared.db.message_citations ∨ Deleted plain b secondSteps reference) := by
  obtain ⟨c,path,_⟩ := run_within (Interleave.advance (act plain)) archive (answerSteps ++ secondSteps) uncited Uncited
    (fun _ => true) (by decide +kernel) fun _ _ _ _ passed => uncited_sound passed
  obtain ⟨b,before,after⟩ := path.split answerSteps secondSteps rfl
  have stored := of_decide_eq_true
    (before.unguarded.checked (fun c => decide (reference ∈ c.shared.db.message_citations)) (by decide +kernel))
  exact ⟨b,c,before.unguarded,stored,after,(citations_permanent plain b reference stored).1 c secondSteps after⟩

end RagForge.CitationLifetime
