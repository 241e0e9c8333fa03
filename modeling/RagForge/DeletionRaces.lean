import RagForge.VectorLedger

namespace RagForge.DeletionRaces
open RagForge Site Provenance Transition VectorLedger

-- The account tells whether the document still has points: an upsert of a
-- nonempty batch leaves some, and only a clearing takes them away.
structure Tally (d : Uuid) (writers : List (Option Nat)) (c : Config) : Prop where
  gone : writers = [] → ∀ p ∈ c.shared.vectors, p.payload.document_id ≠ d.str
  kept : (∃ i, some i ∈ writers) → ∃ p ∈ c.shared.vectors, p.payload.document_id = d.str

theorem tally_step (ledgered : Ledgered c) (tally : Tally d writers c) (moved : Step deployment c label next)
    (who : ∀ i, (c.locals i).document_id = (start i).document_id) : Tally d (note d start writers label) next := by
  obtain ⟨acted,_⟩ := Interleave.step_parts moved
  have vectors := act_vectors acted
  rw [note_write acted (who label.1)]
  cases write : vectorWrite (c.locals label.1) label.2 with
  | none =>
    rw [write] at vectors
    exact ⟨vectors ▸ tally.gone,vectors ▸ tally.kept⟩
  | clear d' =>
    rw [write] at vectors
    by_cases mine : d' = d
    · subst mine
      refine ⟨fun _ p member => (VectorStore.mem_delete.mp (vectors ▸ member)).2,?_⟩
      rintro ⟨i,member⟩
      simp [VectorWrite.note] at member
    · simp only [VectorWrite.note,mine,if_false]
      refine ⟨fun none_ p member => tally.gone none_ p (VectorStore.mem_delete.mp (vectors ▸ member)).1,fun some_ => ?_⟩
      obtain ⟨p,member,same⟩ := tally.kept some_
      refine ⟨p,vectors ▸ VectorStore.mem_delete.mpr ⟨member,fun clash => mine ?_⟩,same⟩
      exact Uuid.str_injective (clash.symm.trans same)
  | upsert points =>
    rw [write] at vectors
    obtain ⟨run,batch,phase,sent⟩ := upsert_phase write
    subst sent
    obtain ⟨own,document,paired⟩ := ledgered.paired label.1 batch (phase ▸ rfl)
    have mem : ∀ p, p ∈ next.shared.vectors ↔ p ∈ c.shared.vectors ∨ p ∈ batch.vector_points := fun p =>
      vectors ▸ VectorStore.mem_upsert_fresh (ledgered.pending.points label.1 batch (phase ▸ rfl)) paired.distinct
    simp only [VectorWrite.note,document,Option.some.injEq]
    by_cases mine : own = d
    · subst mine
      simp only [if_true]
      refine ⟨fun none_ => by simp at none_,fun _ => ?_⟩
      obtain ⟨p,member⟩ := List.exists_mem_of_ne_nil _ paired.inhabited
      exact ⟨p,(mem p).mpr (.inr member),(paired.points p member).1⟩
    · simp only [mine,if_false]
      refine ⟨fun none_ p member => ?_,fun some_ => ?_⟩
      · rcases (mem p).mp member with old | new
        · exact tally.gone none_ p old
        · exact fun clash => mine (Uuid.str_injective ((paired.points p new).1.symm.trans clash))
      · obtain ⟨p,member,same⟩ := tally.kept some_
        exact ⟨p,(mem p).mpr (.inl member),same⟩

-- The document of a deletion that has found it.
def deleting : Activity → Option Uuid
  | .delete (.loaded document) => some document.id
  | .delete (.cleared document) => some document.id
  | .delete (.unlinked document) => some document.id
  | .delete (.invalidated document _) => some document.id
  | .delete (.deleted document) => some document.id
  | _ => none

-- The document of a deletion that has cleared its points.
def wiped : Activity → Option Uuid
  | .delete (.cleared document) => some document.id
  | .delete (.unlinked document) => some document.id
  | .delete (.invalidated document _) => some document.id
  | .delete (.deleted document) => some document.id
  | _ => none

-- No upload can still insert the document of a deletion that has found it.
def Settled (c : Config) : Prop :=
  ∀ k d, deleting (c.locals k) = some d → Drawn c.shared d ∧ ∀ i request, c.locals i ≠ .upload (.saved request d)

theorem act_deleting (acted : act deployment i s a label = some (s',a')) (found : deleting a' = some d) :
    deleting a = some d ∨ ∃ document ∈ s.db.documents, document.id = d := by
  cases act_change acted with
  | delete change =>
    cases change with
    | get stored _ _ => exact .inr ⟨_,stored,Option.some.inj found⟩
    | clear next => rcases next with rfl | ⟨error,rfl⟩; exacts [.inl found,nomatch found]
    | stop => cases found
    | _ => exact .inl found
  | _ => cases found

theorem settled_step (ledgered : Ledgered c) (settled : Settled c) (moved : Step deployment c label next) : Settled next := by
  obtain ⟨acted,same⟩ := Interleave.step_parts moved
  intro k d found
  -- the document was in the table or its deletion under way before the step
  have before : Drawn c.shared d ∧ ∀ i request, c.locals i ≠ .upload (.saved request d) := by
    by_cases equal : k = label.1
    · subst equal
      rcases act_deleting acted found with old | ⟨document,stored,rfl⟩
      · exact settled _ d old
      · refine ⟨List.mem_map.mpr ⟨_,ledgered.traced.tables.documents document stored,rfl⟩,fun i request saved => ?_⟩
        exact ledgered.pending.documents i request _ saved document stored rfl
    · exact settled k d (same k equal ▸ found)
  refine ⟨(act_held acted).1 d before.1,fun i request saved => ?_⟩
  by_cases equal : i = label.1
  · subst equal
    rw [saved] at acted
    exact (act_saved acted).2 before.1
  · exact before.2 i request (same i equal ▸ saved)

def Removed (c : Config) : Prop :=
  ∀ k document, c.locals k = .delete (.deleted document) → ∀ row ∈ c.shared.db.documents, row.id ≠ document.id

theorem act_deleted (acted : act deployment i s a label = some (s',.delete (.deleted document))) :
    ∀ row ∈ s'.db.documents, row.id ≠ document.id := by
  cases act_change acted with
  | delete change => cases change with
    | commit => exact fun row stored => of_decide_eq_true (List.mem_filter.mp stored).2
    | clear next => rcases next with absurd_ | ⟨_,absurd_⟩ <;> cases absurd_

theorem removed_step (settled : Settled c) (removed : Removed c) (moved : Step deployment c label next) : Removed next := by
  obtain ⟨acted,same⟩ := Interleave.step_parts moved
  intro k document deleted row stored
  by_cases equal : k = label.1
  · subst equal
    rw [deleted] at acted
    exact act_deleted acted row stored
  · rw [same k equal] at deleted
    rcases Commits.act_documents acted with descends | ⟨request,id',phase,documents⟩
    · obtain ⟨old,present,key,_⟩ := descends row stored
      rw [← key]
      exact removed k document deleted old present
    · rw [documents] at stored
      rcases List.mem_append.mp stored with old | new
      · exact removed k document deleted row old
      · rw [List.mem_singleton.mp new]
        intro clash
        obtain ⟨_,unsaved⟩ := settled k document.id (by rw [deleted]; rfl)
        exact unsaved label.1 request ((show id' = document.id from clash) ▸ phase)

theorem act_wiped (acted : act deployment i s a label = some (s',a')) (cleared : wiped a' = some d) :
    wiped a = some d ∨ vectorWrite a label = .clear d := by
  cases act_part acted with
  | delete moved =>
    unfold Documents.delete at moved
    split at moved
    · split at moved <;> cases moved <;> cases cleared
    · rename_i document reply
      cases reply with
      | ok => cases moved; cases cleared; exact .inr rfl
      | failed error landed => cases landed <;> cases moved <;> cases cleared
    · split at moved <;> cases moved <;> first | exact .inl cleared | cases cleared
    · cases moved; exact .inl cleared
    · cases moved; exact .inl cleared
    all_goals first | (cases moved; cases cleared) | cases moved
  | _ => cases cleared

theorem wiped_step (clear : ∀ k, wiped (c.locals k) = some d → none ∉ writers) (moved : Step deployment c label next)
    (who : ∀ i, (c.locals i).document_id = (start i).document_id) :
    ∀ k, wiped (next.locals k) = some d → none ∉ note d start writers label := by
  obtain ⟨acted,same⟩ := Interleave.step_parts moved
  intro k cleared member
  by_cases equal : k = label.1
  · subst equal
    rcases act_wiped acted cleared with before | write
    · exact clear _ before (mem_note member)
    · rw [note_write acted (who _),write] at member
      simp [VectorWrite.note] at member
  · exact clear k (same k equal ▸ cleared) (mem_note member)

structure Tracked (d : Uuid) (start : Nat → Activity) (labels : List (Nat × Label)) (c : Config) : Prop where
  tally : Tally d (uncleared d start labels) c
  settled : Settled c
  removed : Removed c
  clear : ∀ k, wiped (c.locals k) = some d → none ∉ uncleared d start labels

theorem runs_tracked (path : Runs (Step deployment) start labels c) (traced : Traced start.shared)
    (fresh : ∀ i, (start.locals i).fresh = true) (d : Uuid) : Tracked d start.locals labels c := by
  have idle (k : Nat) : deleting (start.locals k) = none ∧ wiped (start.locals k) = none := by
    have fresh := fresh k
    cases inside : start.locals k with
    | delete phase => rw [inside] at fresh; cases phase <;> first | exact ⟨rfl,rfl⟩ | cases fresh
    | _ => exact ⟨rfl,rfl⟩
  refine path.history (Tracked d start.locals) ⟨⟨?_,?_⟩,?_,?_,?_⟩ ?_
  · intro none_
    cases none_
  · rintro ⟨i,member⟩
    simp [uncleared] at member
  · intro k d found
    cases (idle k).1.symm.trans found
  · intro k document deleted
    have quiet := (idle k).1
    rw [deleted] at quiet
    cases quiet
  · intro k cleared
    cases (idle k).2.symm.trans cleared
  · intro labels s label next prior kept moved
    have ledgered := runs_ledgered prior traced fresh
    have who := runs_document_id prior
    refine ⟨?_,settled_step ledgered kept.settled moved,removed_step kept.settled kept.removed moved,?_⟩
    · rw [uncleared_snoc]; exact tally_step ledgered kept.tally moved who
    · rw [uncleared_snoc]; exact wiped_step kept.clear moved who

-- After the commit of a deletion the document is gone exactly if every landed
-- upsert of it has been cleared since.
theorem deletion_wins_iff (deployment : Deployment) (start c : Config) (labels : List (Nat × Label)) (k : Nat)
    (document : Document) (traced : Traced start.shared) (fresh : ∀ i, (start.locals i).fresh = true)
    (path : Runs (Step deployment) start labels c) (committed : c.locals k = .delete (.deleted document)) :
    Unindexed c.shared document.id ↔ uncleared document.id start.locals labels = [] := by
  have tracked := runs_tracked path traced fresh document.id
  have clear := tracked.clear k (by rw [committed]; rfl)
  constructor
  · rintro ⟨points,_⟩
    by_contra some_
    obtain ⟨writer,member⟩ := List.exists_mem_of_ne_nil _ some_
    cases writer with
    | none => exact clear member
    | some i =>
      obtain ⟨p,stored,same⟩ := tracked.tally.kept ⟨i,member⟩
      exact points p stored same
  · intro none_
    refine ⟨tracked.tally.gone none_,fun row stored mine => ?_⟩
    -- a row would need its document
    obtain ⟨parent,present,same⟩ := c.shared.db.keys.chunk_document row stored
    exact tracked.removed k document committed parent present (same.trans mine)

-- One upload, one ingestion of its document and one deletion of it.
def contest : Config where
  shared := vacant
  locals := fun
    | 0 => .upload (.requested memo)
    | 1 => .ingest (.received ⟨10⟩ none)
    | 2 => .delete (.requested ⟨1⟩ ⟨10⟩)
    | _ => .idle

theorem contest_fresh (i : Nat) : (contest.locals i).fresh = true := by
  unfold contest; dsimp only; split <;> rfl

def deletedDocument : Activity → Option Uuid
  | .delete (.deleted document) => some document.id
  | _ => none

theorem deletedDocument_some (deleted : deletedDocument a = some d) : ∃ document, a = .delete (.deleted document) ∧ document.id = d := by
  unfold deletedDocument at deleted
  split at deleted
  · exact ⟨_,rfl,Option.some.inj deleted⟩
  · cases deleted

def orderly : List (Nat × Label) := uploadSteps 0 ⟨10⟩ ⟨11⟩ ++ ingestSteps 1 ⟨14⟩ ⟨12⟩ ⟨13⟩ ++ deleteSteps 2

theorem orderly_deletion_wins : ∃ c, Runs (Step plain) contest orderly c ∧ Unindexed c.shared ⟨10⟩ := by
  obtain ⟨c,path,deleted⟩ := run_any (Interleave.advance (act plain)) contest orderly
    (fun c => deletedDocument (c.locals 2) = some ⟨10⟩) (by decide +kernel)
  obtain ⟨document,committed,same⟩ := deletedDocument_some (of_decide_eq_true deleted)
  have wins := deletion_wins_iff plain contest c orderly 2 document vacant_opening.traced contest_fresh path committed
  rw [same] at wins
  exact ⟨c,path,wins.mpr (by decide +kernel)⟩

-- The deletion runs between the worker's clearing and its upsert; the final
-- transaction then fails on the missing document, but the points stay.
def lateUpsert : List (Nat × Label) :=
  uploadSteps 0 ⟨10⟩ ⟨11⟩ ++
  [(1,.ingest (.load ⟨14⟩ 1)),(1,.ingest (.prepare providers [(⟨12⟩,⟨13⟩)])),(1,.ingest (.clear .ok))] ++ deleteSteps 2 ++
  [(1,.ingest (.index .ok)),(1,.ingest (.persistFails ⟨false,"IntegrityError".toList⟩))]

def halted : Activity → Bool
  | .ingest phase => phase.halted
  | _ => true

theorem late_upsert_survives : ¬ ∀ (deployment : Deployment) (start c : Config) (labels : List (Nat × Label)) (k : Nat)
    (document : Document), Opening start.shared → (∀ i, (start.locals i).fresh = true) →
    Runs (Step deployment) start labels c → c.locals k = .delete (.deleted document) →
    (∀ i, (c.locals i).document_id = some document.id → halted (c.locals i) = true) → Unindexed c.shared document.id := by
  intro all
  obtain ⟨c,path,passed⟩ := run_any (Interleave.advance (act plain)) contest lateUpsert
    (fun c => deletedDocument (c.locals 2) = some ⟨10⟩ ∧ halted (c.locals 1) = true ∧
      ∃ p ∈ c.shared.vectors, p.payload.document_id = Uuid.str ⟨10⟩) (by decide +kernel)
  obtain ⟨deleted,ended,p,stored,mine⟩ := of_decide_eq_true passed
  obtain ⟨document,committed,same⟩ := deletedDocument_some deleted
  refine (all plain contest c lateUpsert 2 document vacant_opening contest_fresh path committed fun i own => ?_).1 p stored
    (same ▸ mine)
  have kind := runs_document_id path i
  match i with
  | 0 => exact nomatch own.symm.trans kind
  | 1 => exact ended
  | 2 => rw [committed]; rfl
  | i + 3 => exact nomatch own.symm.trans kind

end RagForge.DeletionRaces
