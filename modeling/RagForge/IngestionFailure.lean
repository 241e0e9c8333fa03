import RagForge.ChunkAccounts

namespace RagForge.IngestionFailure
open RagForge Site Provenance Transition VectorLedger ChunkAccounts

-- What the writes of one execution come to, phase by phase, when no other
-- works on its document.
def Fits (i : Nat) (writers rows : List (Option Nat)) : Ingestion.Phase → Prop
  | .received _ _ => writers = [none] ∧ rows = [none]
  | .loaded _ => writers = [none] ∧ rows = [none]
  | .embedded _ _ => writers = [none] ∧ rows = [none]
  | .cleared _ _ => writers = [] ∧ rows = [none]
  | .indexed _ _ => writers = [some i] ∧ rows = [none]
  | .persisted _ _ => writers = [some i] ∧ rows = [some i]
  | .failing _ _ => (writers = [none] ∨ writers = [] ∨ writers = [some i]) ∧ rows = [none]
  | .ended _ _ => (writers = [none] ∨ writers = [] ∨ writers = [some i]) ∧ rows = [none] ∨ writers = [some i] ∧ rows = [some i]

theorem fits_handle (writers_ : writers = [none] ∨ writers = [] ∨ writers = [some i]) (rows_ : rows = [none]) (d : Uuid) (error : Failure) :
    Fits i writers rows (Ingestion.handle d error) := by
  unfold Ingestion.handle
  split
  · exact .inl ⟨writers_,rows_⟩
  · exact ⟨writers_,rows_⟩

theorem fits_step (own : (who i).document_id = some d) (fits : Fits i writers rows phase)
    (acted : Ingestion.act deployment s phase label = some (s',phase')) :
    Fits i (note d who writers (i,.ingest label)) (noteRows d who rows (i,.ingest label)) phase' := by
  unfold Ingestion.act at acted
  split at acted
  all_goals simp only [note,noteRows,own,if_true]
  · split at acted
    · obtain ⟨after,_,equal⟩ := Option.map_eq_some_iff.mp acted
      cases equal; exact fits
    · cases acted; exact .inl ⟨.inl fits.1,fits.2⟩
    · cases acted
  · cases acted; exact .inl ⟨.inl fits.1,fits.2⟩
  · split at acted
    · split at acted
      · obtain ⟨after,_,equal⟩ := Option.map_eq_some_iff.mp acted
        cases equal; exact fits
      · cases acted
    · cases acted; exact fits_handle (.inl fits.1) fits.2 _ _
  · rename_i reply
    cases reply with
    | ok => cases acted; exact ⟨rfl,fits.2⟩
    | failed error landed =>
      cases landed <;> cases acted
      · exact fits_handle (.inl fits.1) fits.2 _ _
      · exact fits_handle (.inr (.inl rfl)) fits.2 _ _
  · rename_i reply
    obtain ⟨rfl,rfl⟩ := fits
    cases reply with
    | ok => cases acted; exact ⟨rfl,rfl⟩
    | failed error landed =>
      cases landed <;> cases acted
      · exact fits_handle (.inr (.inl rfl)) rfl _ _
      · exact fits_handle (.inr (.inr rfl)) rfl _ _
  · obtain ⟨db,_,equal⟩ := Option.map_eq_some_iff.mp acted
    cases equal; exact ⟨fits.1,rfl⟩
  · cases acted; exact .inl ⟨.inr (.inr fits.1),fits.2⟩
  · cases acted; exact .inr fits
  · cases acted; exact .inr fits
  · cases acted; exact .inl fits
  · cases acted; exact .inl fits
  · cases acted; exact .inl ⟨.inl fits.1,fits.2⟩
  · cases acted; exact .inl ⟨.inl fits.1,fits.2⟩
  · cases acted; exact .inl ⟨.inl fits.1,fits.2⟩
  · cases acted; exact .inl ⟨.inr (.inl fits.1),fits.2⟩
  · cases acted; exact .inl ⟨.inr (.inr fits.1),fits.2⟩
  · cases acted; exact .inr fits
  · cases acted; exact .inl fits
  · cases acted

theorem runs_fits (path : Runs (Step deployment) b labels c) (waiting : b.locals i = .ingest (.received d task))
    (alone : ∀ label ∈ labels, (b.locals label.1).document_id = some d → label.1 = i) :
    ∃ phase, c.locals i = .ingest phase ∧ Fits i (uncleared d b.locals labels) (rowWriters d b.locals labels) phase := by
  have own : (b.locals i).document_id = some d := by rw [waiting]; rfl
  refine path.history (fun labels c => (∀ label ∈ labels, (b.locals label.1).document_id = some d → label.1 = i) →
    ∃ phase, c.locals i = .ingest phase ∧ Fits i (uncleared d b.locals labels) (rowWriters d b.locals labels) phase) ?_ ?_ alone
  · exact fun _ => ⟨_,waiting,rfl,rfl⟩
  · intro labels s label next prior kept moved alone
    obtain ⟨phase,now,fits⟩ := kept fun other member => alone other (List.mem_append_left _ member)
    obtain ⟨acted,same⟩ := Interleave.step_parts moved
    rw [uncleared_snoc,rowWriters_snoc]
    by_cases equal : i = label.1
    · obtain ⟨j,label⟩ := label
      cases (show i = j from equal)
      rw [now] at acted
      cases label with
      | ingest label =>
        obtain ⟨⟨t,phase'⟩,step,equal⟩ := Option.map_eq_some_iff.mp acted
        exact ⟨phase',(congrArg Prod.snd equal).symm,fits_step own fits step⟩
      | _ => cases acted
    · -- every other step is about another document
      have elsewhere : (b.locals label.1).document_id ≠ some d := fun clash =>
        equal (alone label (List.mem_append_right _ (List.mem_singleton.mpr rfl)) clash).symm
      refine ⟨phase,same i equal ▸ now,?_⟩
      simpa only [note,noteRows,elsewhere,if_false] using fits

-- The points and the rows of the document are those of an earlier state.
def SamePoints (base now : Stores) (d : Uuid) : Prop :=
  ∀ p, p ∈ now.vectors ∧ p.payload.document_id = d.str ↔ p ∈ base.vectors ∧ p.payload.document_id = d.str

def SameRows (base now : Stores) (d : Uuid) : Prop :=
  ∀ row, row ∈ now.db.document_chunks ∧ row.document_id = d ↔ row ∈ base.db.document_chunks ∧ row.document_id = d

-- What one execution leaves behind, by whose points stand uncleared and whose
-- rows are committed.
inductive Leaves (i : Nat) (d : Uuid) (base now : Stores) : List (Option Nat) → List (Option Nat) → Prop where
  | untouched : SamePoints base now d → SameRows base now d → Leaves i d base now [none] [none]
  | emptied : (∀ p ∈ now.vectors, p.payload.document_id ≠ d.str) → SameRows base now d → Leaves i d base now [] [none]
  | refilled (batch : Ingestion.Batch) : Paired d batch →
      (∀ p, p ∈ now.vectors ∧ p.payload.document_id = d.str ↔ p ∈ batch.vector_points) → SameRows base now d →
      Leaves i d base now [some i] [none]
  | replaced (batch : Ingestion.Batch) : Paired d batch →
      (∀ p, p ∈ now.vectors ∧ p.payload.document_id = d.str ↔ p ∈ batch.vector_points) →
      (∀ row, row ∈ now.db.document_chunks ∧ row.document_id = d ↔ row ∈ batch.chunk_rows) →
      Leaves i d base now [some i] [some i]

theorem agrees_of_same (points : SamePoints base now d) (rows : SameRows base now d) (agrees : Agrees base d) : Agrees now d where
  points p stored mine := by
    obtain ⟨before,_⟩ := (points p).mp ⟨stored,mine⟩
    obtain ⟨row,present,home,named⟩ := agrees.points p before mine
    exact ⟨row,((rows row).mpr ⟨present,home⟩).1,home,named⟩
  rows row present home := by
    obtain ⟨before,_⟩ := (rows row).mp ⟨present,home⟩
    obtain ⟨p,stored,mine,named⟩ := agrees.rows row before home
    exact ⟨p,((points p).mpr ⟨stored,mine⟩).1,mine,named⟩

theorem agrees_of_batch (paired : Paired d batch)
    (points : ∀ p, p ∈ now.vectors ∧ p.payload.document_id = d.str ↔ p ∈ batch.vector_points)
    (rows : ∀ row, row ∈ now.db.document_chunks ∧ row.document_id = d ↔ row ∈ batch.chunk_rows) : Agrees now d where
  points p stored mine := by
    obtain ⟨row,inside,named⟩ := (paired.points p ((points p).mp ⟨stored,mine⟩)).2
    exact ⟨row,((rows row).mpr inside).1,((rows row).mpr inside).2,named⟩
  rows row present home := by
    obtain ⟨p,inside,named⟩ := (paired.rows row ((rows row).mp ⟨present,home⟩)).2
    exact ⟨p,((points p).mpr inside).1,((points p).mpr inside).2,named⟩

theorem Fits.values (fits : Fits i writers rows phase) :
    (writers = [none] ∨ writers = [] ∨ writers = [some i]) ∧ rows = [none] ∨ writers = [some i] ∧ rows = [some i] := by
  cases phase with
  | received => exact .inl ⟨.inl fits.1,fits.2⟩
  | loaded => exact .inl ⟨.inl fits.1,fits.2⟩
  | embedded => exact .inl ⟨.inl fits.1,fits.2⟩
  | cleared => exact .inl ⟨.inr (.inl fits.1),fits.2⟩
  | indexed => exact .inl ⟨.inr (.inr fits.1),fits.2⟩
  | persisted => exact .inr fits
  | failing => exact .inl fits
  | ended => exact fits

theorem account_leaves (account : Account d base built writers rows c)
    (values : (writers = [none] ∨ writers = [] ∨ writers = [some i]) ∧ rows = [none] ∨ writers = [some i] ∧ rows = [some i]) :
    Leaves i d base c.shared writers rows := by
  have batch_points (batch : Ingestion.Batch) (set : built i = some batch) (one : writers = [some i]) (p : VectorPoint) :
      p ∈ c.shared.vectors ∧ p.payload.document_id = d.str ↔ p ∈ batch.vector_points := by
    rw [account.points p,one]
    simp [set]
  rcases values with ⟨points,rfl⟩ | ⟨rfl,rfl⟩
  · have rows : SameRows base c.shared d := fun row => by rw [account.chunks row]; simp
    rcases points with rfl | rfl | rfl
    · exact .untouched (fun p => by rw [account.points p]; simp) rows
    · refine .emptied (fun p stored mine => ?_) rows
      simpa using (account.points p).mp ⟨stored,mine⟩
    · obtain ⟨batch,set,paired⟩ := account.owners i (.inl (List.mem_singleton.mpr rfl))
      exact .refilled batch paired (batch_points batch set rfl) rows
  · obtain ⟨batch,set,paired⟩ := account.owners i (.inl (List.mem_singleton.mpr rfl))
    refine .replaced batch paired (batch_points batch set rfl) fun row => ?_
    rw [account.chunks row]
    simp [set]

-- A run alone on its document leaves the stores corresponding until its
-- clearing takes effect and again from its last commit on. In between the rows
-- are the old ones and the points are gone or new.
theorem ingestion_leaves (deployment : Deployment) (start b c : Config) (earlier later : List (Nat × Label)) (i : Nat) (d : Uuid)
    (task : Option Str) (traced : Traced start.shared) (fresh : ∀ i, (start.locals i).fresh = true)
    (before : Runs (Step deployment) start earlier b) (corresponds : Agrees b.shared d)
    (waiting : b.locals i = .ingest (.received d task)) (after : Runs (Step deployment) b later c)
    (alone : ∀ label ∈ later, (b.locals label.1).document_id = some d → label.1 = i) :
    Leaves i d b.shared c.shared (uncleared d b.locals later) (rowWriters d b.locals later) ∧
      (none ∈ uncleared d b.locals later ∨ none ∉ rowWriters d b.locals later → Agrees c.shared d) := by
  obtain ⟨built,ghost,account⟩ := runs_account before after traced fresh d
  obtain ⟨phase,_,fits⟩ := runs_fits after waiting alone
  have left := account_leaves account fits.values
  refine ⟨left,fun standing => ?_⟩
  generalize uncleared d b.locals later = writers at left standing
  generalize rowWriters d b.locals later = rows at left standing
  cases left with
  | untouched points rows => exact agrees_of_same points rows corresponds
  | emptied => simp at standing
  | refilled => simp at standing
  | replaced batch paired points rows => exact agrees_of_batch paired points rows

def firstRun : List (Nat × Label) := uploadSteps 0 ⟨10⟩ ⟨11⟩ ++ ingestSteps 1 ⟨14⟩ ⟨12⟩ ⟨13⟩

-- The re-ingestion loses its upsert to an outage of the vector store.
def outage : List (Nat × Label) :=
  (ingestSteps 2 ⟨17⟩ ⟨15⟩ ⟨16⟩).take 3 ++ [(2,.ingest (.index (.failed ⟨true,"vector store unavailable".toList⟩ false)))]

-- The re-ingestion cannot read its file.
def unreadable : List (Nat × Label) :=
  [(2,.ingest (.load ⟨17⟩ 1)),(2,.ingest (.prepare {providers with read := some ⟨false,"I/O error".toList⟩} [])),(2,.ingest (.mark 2))]

-- The document of an execution that has ended without success.
def unsuccessful : Activity → Option Uuid
  | .ingest (.ended _ (.completed _ _)) => none
  | .ingest (.ended d _) => some d
  | _ => none

theorem unsuccessful_some (short : unsuccessful a = some d) :
    ∃ outcome, a = .ingest (.ended d outcome) ∧ ∀ run batch, outcome ≠ .completed run batch := by
  unfold unsuccessful at short
  split at short
  · cases short
  · rename_i outcome other
    cases short
    exact ⟨outcome,rfl,fun run batch => other run batch⟩
  · cases short

theorem unreadable_agrees : ∃ b c, Runs (Step plain) redelivery firstRun b ∧ Runs (Step plain) b unreadable c ∧
    unsuccessful (c.locals 2) = some ⟨10⟩ ∧ Agrees c.shared ⟨10⟩ := by
  obtain ⟨c,path,short⟩ := run_any (Interleave.advance (act plain)) redelivery (firstRun ++ unreadable)
    (fun c => unsuccessful (c.locals 2) = some ⟨10⟩) (by decide +kernel)
  obtain ⟨b,before,after⟩ := path.split firstRun unreadable rfl
  have corresponds := before.checked (fun b => Agrees b.shared ⟨10⟩) (by decide +kernel)
  have waiting := Interleave.Runs.untouched (i := 2) before (by decide)
  have mine : ∀ label ∈ unreadable, label.1 = 2 := by decide
  refine ⟨b,c,before,after,of_decide_eq_true short,?_⟩
  refine (ingestion_leaves plain redelivery b c firstRun unreadable 2 ⟨10⟩ none vacant_opening.traced redelivery_fresh before
    (of_decide_eq_true corresponds) waiting after fun label member _ => mine label member).2 (.inl ?_)
  simp [uncleared,unreadable,note]

theorem outage_empties : ¬ ∀ (deployment : Deployment) (start b c : Config) (earlier later : List (Nat × Label)) (i : Nat) (d : Uuid)
    (task : Option Str) (outcome : Ingestion.Outcome), Opening start.shared → (∀ i, (start.locals i).fresh = true) →
    Runs (Step deployment) start earlier b → Agrees b.shared d → b.locals i = .ingest (.received d task) →
    Runs (Step deployment) b later c → (∀ label ∈ later, (b.locals label.1).document_id = some d → label.1 = i) →
    c.locals i = .ingest (.ended d outcome) → (∀ run batch, outcome ≠ .completed run batch) → Agrees c.shared d := by
  intro all
  obtain ⟨c,path,passed⟩ := run_any (Interleave.advance (act plain)) redelivery (firstRun ++ outage)
    (fun c => unsuccessful (c.locals 2) = some ⟨10⟩ ∧ ¬ Agrees c.shared ⟨10⟩) (by decide +kernel)
  obtain ⟨short,apart⟩ := of_decide_eq_true passed
  obtain ⟨outcome,ended,other⟩ := unsuccessful_some short
  obtain ⟨b,before,after⟩ := path.split firstRun outage rfl
  have corresponds := before.checked (fun b => Agrees b.shared ⟨10⟩) (by decide +kernel)
  have waiting := Interleave.Runs.untouched (i := 2) before (by decide)
  have mine : ∀ label ∈ outage, label.1 = 2 := by decide
  exact apart (all plain redelivery b c firstRun outage 2 ⟨10⟩ none outcome vacant_opening redelivery_fresh before
    (of_decide_eq_true corresponds) waiting after (fun label member _ => mine label member) ended other)

end RagForge.IngestionFailure
