import RagForge.Provenance

namespace RagForge.VectorLedger
open RagForge Site Provenance Transition

-- No point and no chunk row of the document is stored.
def Unindexed (s : Stores) (d : Uuid) : Prop :=
  (∀ p ∈ s.vectors, p.payload.document_id ≠ d.str) ∧ ∀ row ∈ s.db.document_chunks, row.document_id ≠ d

-- The rows and the points of one ingestion name each other.
structure Paired (document_id : Uuid) (batch : Ingestion.Batch) : Prop where
  rows : ∀ row ∈ batch.chunk_rows, row.document_id = document_id ∧
    ∃ p ∈ batch.vector_points, p.id = row.vector_id ∧ p.payload.chunk_id = row.id.str
  points : ∀ p ∈ batch.vector_points, p.payload.document_id = document_id.str ∧
    ∃ row ∈ batch.chunk_rows, row.vector_id = p.id ∧ p.payload.chunk_id = row.id.str
  inhabited : batch.vector_points ≠ []
  distinct : (batch.vector_points.map (·.id)).Nodup

theorem mem_zipWith_right {f : α → β → γ} {xs : List α} {ys : List β} (same : xs.length = ys.length) (member : y ∈ ys) :
    ∃ x ∈ xs, f x y ∈ xs.zipWith f ys := by
  obtain ⟨k,bound,rfl⟩ := List.mem_iff_getElem.mp member
  refine ⟨xs[k],List.getElem_mem _,List.mem_iff_getElem.mpr ⟨k,?_,List.getElem_zipWith⟩⟩
  rw [List.length_zipWith,same,Nat.min_self]
  exact bound

theorem build_ids (run : Ingestion.RunContext) (chunks : List Chunk) (same : embed_result.vectors.length = ids.length) :
    (Ingestion.build run chunks embed_result ids).vector_points.map (·.id) = ids.map Prod.snd := by
  have each : ∀ (vectors : List (List ℚ)) (ids : List (Uuid × Uuid)), vectors.length = ids.length →
      (vectors.zipWith (Ingestion.vectorPoint run) ids).map (·.id) = ids.map Prod.snd := by
    intro vectors ids
    induction ids generalizing vectors with
    | nil => simp
    | cons pair rest ih =>
      cases vectors with
      | nil => exact fun absurd_ => nomatch absurd_
      | cons vector others => exact fun same => congrArg (pair.2 :: ·) (ih others (Nat.succ.inj same))
  exact each _ _ same

theorem build_paired {run : Ingestion.RunContext} (vectors : embed_result.vectors.length = ids.length) (rows : chunks.length = ids.length)
    (inhabited : ids ≠ []) (distinct : (ids.map Prod.snd).Nodup) :
    Paired run.document_id (Ingestion.build run chunks embed_result ids) where
  rows row member := by
    obtain ⟨chunk,_,pair,inside,rfl⟩ := Ingestion.mem_build_rows member
    obtain ⟨vector,_,zipped⟩ := mem_zipWith_right (f := Ingestion.vectorPoint run) vectors inside
    exact ⟨rfl,_,zipped,rfl,rfl⟩
  points p member := by
    obtain ⟨vector,pair,inside,rfl⟩ := Ingestion.mem_build_points member
    obtain ⟨chunk,_,zipped⟩ := mem_zipWith_right (f := Ingestion.chunkRow run) rows inside
    exact ⟨rfl,_,zipped,rfl,rfl⟩
  inhabited none_ := by
    have ids_eq := build_ids run chunks vectors
    rw [none_] at ids_eq
    exact inhabited (List.map_eq_nil_iff.mp ids_eq.symm)
  distinct := by rw [build_ids _ _ vectors]; exact distinct

def batchOf : Activity → Option Ingestion.Batch
  | .ingest phase => phase.batch
  | _ => none

-- A batch whose points have not been sent to the vector store.
def unsent : Activity → Option Ingestion.Batch
  | .ingest (.embedded _ batch) => some batch
  | .ingest (.cleared _ batch) => some batch
  | _ => none

-- The identifiers a process has drawn for a document row or for points.
def held : Activity → List Uuid
  | .upload (.saved _ document_id) => [document_id]
  | .upload (.uploaded _ document_id) => [document_id]
  | a => (batchOf a).elim [] fun batch => batch.vector_points.map (·.id)

theorem failed_batch {phase : Ingestion.Phase} (failed : phase.failed = true) : phase.batch = none := by
  cases phase with
  | failing => rfl
  | ended d outcome => cases outcome <;> first | rfl | cases failed
  | _ => cases failed

-- A batch is built once, and then kept or given up.
theorem ingest_batch (change : Ingestion.Change deployment s phase s' phase') (some_ : phase'.batch = some batch) :
    phase.batch = some batch ∨ phase.batch = none ∧ ∃ run chunks embed_result ids,
      phase = .loaded run ∧ phase' = .embedded run batch ∧ batch = Ingestion.build run chunks embed_result ids ∧
      Paired run.document_id batch ∧ s.draw run.workspace_id (ids.map Prod.fst ++ ids.map Prod.snd) = some s' ∧
      batch.vector_points.map (·.id) = ids.map Prod.snd := by
  cases change with
  | load => cases some_
  | skip => cases some_
  | @prepare run providers chunks embed_result after ids prepared one drawn =>
    cases Option.some.inj some_
    obtain ⟨nonempty,vectors⟩ := Ingestion.prepare_parts prepared
    have same : embed_result.vectors.length = ids.length := vectors.trans one.symm
    have inhabited : ids ≠ [] := fun none_ => nonempty (List.eq_nil_of_length_eq_zero (by rw [← one,none_]; rfl))
    have distinct := (List.nodup_append.mp (Stores.draw_parts drawn).1).2.1
    exact .inr ⟨rfl,run,chunks,embed_result,ids,rfl,rfl,rfl,build_paired same one.symm inhabited distinct,drawn,build_ids _ _ same⟩
  | clear next => rcases next with rfl | ⟨failed,_⟩; exacts [.inl some_,nomatch (failed_batch failed).symm.trans some_]
  | index next => rcases next with rfl | ⟨failed,_⟩; exacts [.inl some_,nomatch (failed_batch failed).symm.trans some_]
  | persist => exact .inl some_
  | invalidate => exact .inl some_
  | mark => cases some_
  | stop failed => exact nomatch (failed_batch failed).symm.trans some_

def Drawn (s : Stores) (key : Uuid) : Prop := key ∈ s.issued.map Prod.fst

theorem drawn_new {s : Stores} (drawn : s.draw w ids = some after) (member : key ∈ ids) :
    ¬ Drawn s key ∧ Drawn after key :=
  ⟨(Stores.draw_parts drawn).2.1 key member,List.mem_map.mpr ⟨_,issued_of_draw drawn member,rfl⟩⟩

-- What a process holds after a step it held before, or it has just drawn it.
theorem act_held (acted : act deployment i s a label = some (s',a')) :
    (∀ key, Drawn s key → Drawn s' key) ∧ ∀ key ∈ held a', key ∈ held a ∨ ¬ Drawn s key ∧ Drawn s' key := by
  constructor
  · intro key drawn
    obtain ⟨entry,member,same⟩ := List.mem_map.mp drawn
    exact List.mem_map.mpr ⟨entry,act_issued acted member,same⟩
  · intro key member
    cases act_change acted with
    | upload change =>
      cases change with
      | save drawn _ => exact .inr (drawn_new drawn member :)
      | insert => exact .inl member
      | torn => cases member
      | stop => cases member
    | ingest change =>
      rename_i phase phase'
      cases built : phase'.batch with
      | none => simp [held,batchOf,built] at member
      | some batch =>
        simp only [held,batchOf,built,Option.elim_some] at member
        rcases ingest_batch change built with before | ⟨_,run,chunks,embed_result,ids,_,_,_,_,drawn,same⟩
        · exact .inl (by simpa only [held,batchOf,before,Option.elim_some] using member)
        · rw [same] at member
          exact .inr (drawn_new drawn (List.mem_append_right _ member))
    | _ => cases member

-- Nothing a process still has to write is in the stores.
structure Pending (c : Config) : Prop where
  points : ∀ i, ∀ batch ∈ unsent (c.locals i), ∀ p ∈ batch.vector_points, ∀ q ∈ c.shared.vectors, q.id ≠ p.id
  documents : ∀ i request document_id, c.locals i = .upload (.saved request document_id) →
    ∀ row ∈ c.shared.db.documents, row.id ≠ document_id

structure Ledgered (c : Config) : Prop where
  traced : Traced c.shared
  drawn : ∀ i, ∀ key ∈ held (c.locals i), Drawn c.shared key
  apart : ∀ i j, i ≠ j → ∀ key ∈ held (c.locals i), key ∉ held (c.locals j)
  paired : ∀ i, ∀ batch ∈ batchOf (c.locals i), ∃ d, (c.locals i).document_id = some d ∧ Paired d batch
  pending : Pending c

theorem upsert_phase (write : vectorWrite a label = .upsert points) :
    ∃ run batch, a = .ingest (.cleared run batch) ∧ points = batch.vector_points := by
  unfold vectorWrite at write
  split at write
  · split at write <;> cases write
  · split at write <;> cases write
    exact ⟨_,_,rfl,rfl⟩
  · split at write <;> cases write
  · cases write

-- A point of the store was there before, or an execution has just sent it.
theorem mem_vectors (acted : act deployment i s a label = some (s',a')) (member : q ∈ s'.vectors) :
    q ∈ s.vectors ∨ ∃ run batch, a = .ingest (.cleared run batch) ∧ q ∈ batch.vector_points := by
  rw [act_vectors acted] at member
  cases write : vectorWrite a label with
  | none => rw [write] at member; exact .inl member
  | clear d => rw [write] at member; exact .inl (VectorStore.mem_delete.mp member).1
  | upsert points =>
    obtain ⟨run,batch,phase,rfl⟩ := upsert_phase write
    rw [write] at member
    exact (VectorStore.mem_upsert member).imp_right fun new => ⟨run,batch,phase,new⟩

-- A batch is unsent because it was before, or because it has just been built.
theorem act_unsent (acted : act deployment i s a label = some (s',a')) (some_ : unsent a' = some batch) :
    (unsent a = some batch ∧ s'.vectors ⊆ s.vectors) ∨
      (∀ p ∈ batch.vector_points, ¬ Drawn s p.id) ∧ s'.vectors ⊆ s.vectors := by
  cases act_change acted with
  | ingest change =>
    cases change with
    | @prepare run providers chunks embed_result after ids prepared one drawn =>
      cases Option.some.inj some_
      have vectors := (Stores.draw_same drawn).vectors
      refine .inr ⟨fun p member => ?_,vectors ▸ List.Subset.refl _⟩
      obtain ⟨vector,pair,inside,rfl⟩ := Ingestion.mem_build_points member
      exact (drawn_new drawn (List.mem_append_right _ (List.mem_map.mpr ⟨pair,inside,rfl⟩))).1
    | clear next =>
      rcases next with rfl | ⟨failed,_⟩
      · exact .inl ⟨some_,List.filter_subset_self _⟩
      · unfold unsent at some_
        split at some_ <;> cases some_ <;> rename_i equal <;> cases equal <;> cases failed
    | index next =>
      rcases next with rfl | ⟨failed,_⟩
      · cases some_
      · unfold unsent at some_
        split at some_ <;> cases some_ <;> rename_i equal <;> cases equal <;> cases failed
    | stop failed =>
      unfold unsent at some_
      split at some_ <;> cases some_ <;> rename_i equal <;> cases equal <;> cases failed
    | _ => cases some_
  | _ => cases some_

theorem unsent_batch (some_ : unsent a = some batch) : batchOf a = some batch := by
  unfold unsent at some_
  split at some_ <;> cases some_ <;> rfl

theorem held_of_batch (built : batchOf a = some batch) (member : p ∈ batch.vector_points) : p.id ∈ held a := by
  cases a with
  | ingest phase =>
    rw [show held (.ingest phase) = (batchOf (.ingest phase)).elim [] _ from rfl,built]
    exact List.mem_map.mpr ⟨p,member,rfl⟩
  | _ => cases built

-- An upload enters `saved` by drawing its document's identifier.
theorem act_saved (acted : act deployment i s a label = some (s',.upload (.saved request document_id))) :
    a = .upload (.requested request) ∧ ¬ Drawn s document_id := by
  cases act_change acted with
  | upload change => cases change with
    | save drawn _ => exact ⟨rfl,(drawn_new drawn (List.mem_singleton.mpr rfl)).1⟩

theorem pending_step (ledgered : Ledgered c) (moved : Step deployment c label next) : Pending next := by
  obtain ⟨acted,same⟩ := Interleave.step_parts moved
  constructor
  · intro j batch some_ p member q stored
    by_cases equal : j = label.1
    · subst equal
      rcases act_unsent acted some_ with ⟨before,vectors⟩ | ⟨fresh,vectors⟩
      · exact ledgered.pending.points _ batch before p member q (vectors stored)
      · intro clash
        obtain ⟨_,w,_,_,_,drawn⟩ := ledgered.traced.points q (vectors stored)
        exact fresh p member (clash ▸ List.mem_map.mpr ⟨_,drawn,rfl⟩)
    · rw [same j equal] at some_
      rcases mem_vectors acted stored with old | ⟨run,other,phase,sent⟩
      · exact ledgered.pending.points j batch some_ p member q old
      · intro clash
        have mine := held_of_batch (unsent_batch some_) member
        have theirs : q.id ∈ held (c.locals label.1) := phase ▸ held_of_batch rfl sent
        exact ledgered.apart _ _ (Ne.symm equal) _ theirs (clash ▸ mine)
  · intro j request document_id saved row stored
    rcases Commits.act_documents acted with descends | ⟨other,id',phase,documents⟩
    · obtain ⟨old,present,key,_⟩ := descends row stored
      rw [← key]
      by_cases equal : j = label.1
      · subst equal
        intro clash
        rw [saved] at acted
        exact (act_saved acted).2 (clash ▸ List.mem_map.mpr ⟨_,ledgered.traced.tables.documents old present,rfl⟩)
      · exact ledgered.pending.documents j request document_id (same j equal ▸ saved) old present
    · have elsewhere : j ≠ label.1 := by
        rintro rfl
        rw [saved] at acted
        exact nomatch phase.symm.trans (act_saved acted).1
      rw [documents] at stored
      rw [same j elsewhere] at saved
      rcases List.mem_append.mp stored with old | new
      · exact ledgered.pending.documents j request document_id saved row old
      · rw [List.mem_singleton.mp new]
        intro clash
        have theirs : id' ∈ held (c.locals label.1) := phase ▸ List.mem_singleton.mpr rfl
        have mine : document_id ∈ held (c.locals j) := saved ▸ List.mem_singleton.mpr rfl
        exact ledgered.apart _ _ (Ne.symm elsewhere) id' theirs ((show id' = document_id from clash) ▸ mine)

theorem held_fresh (fresh : a.fresh = true) : held a = [] ∧ batchOf a = none := by
  cases a with
  | upload phase => cases phase <;> first | exact ⟨rfl,rfl⟩ | cases fresh
  | ingest phase => cases phase <;> first | exact ⟨rfl,rfl⟩ | cases fresh
  | _ => exact ⟨rfl,rfl⟩

theorem paired_step (paired : ∀ i, ∀ batch ∈ batchOf (c.locals i), ∃ d, (c.locals i).document_id = some d ∧ Paired d batch)
    (moved : Step deployment c label next) :
    ∀ i, ∀ batch ∈ batchOf (next.locals i), ∃ d, (next.locals i).document_id = some d ∧ Paired d batch := by
  obtain ⟨acted,same⟩ := Interleave.step_parts moved
  intro i batch built
  by_cases equal : i = label.1
  · subst equal
    rw [act_document_id acted]
    generalize next.locals label.1 = a' at acted built
    have mine := paired label.1
    generalize c.locals label.1 = a at acted mine ⊢
    cases act_change acted with
    | ingest change =>
      rcases ingest_batch change built with before | ⟨_,run,_,_,_,rfl,_,_,one,_⟩
      · exact mine batch before
      · exact ⟨run.document_id,rfl,one⟩
    | _ => cases built
  · rw [same i equal] at built ⊢
    exact paired i batch built

theorem runs_ledgered (path : Runs (Step deployment) start labels c) (traced : Traced start.shared)
    (fresh : ∀ i, (start.locals i).fresh = true) : Ledgered c := by
  have none_held (i : Nat) (key : Uuid) (member : key ∈ held (start.locals i)) : False := by
    rw [(held_fresh (fresh i)).1] at member
    cases member
  refine path.history (fun _ c => Ledgered c) ?_ ?_
  · refine ⟨traced,fun i key member => (none_held i key member).elim,fun i _ _ key member => (none_held i key member).elim,?_,?_,?_⟩
    · intro i batch built
      rw [(held_fresh (fresh i)).2] at built
      cases built
    · intro i batch some_
      exact nomatch (held_fresh (fresh i)).2.symm.trans (unsent_batch some_)
    · intro i request document_id saved
      have fresh := fresh i
      rw [saved] at fresh
      cases fresh
  · intro labels s label next prior kept moved
    obtain ⟨drawn,apart⟩ := Interleave.Runs.apart held Drawn
      (fun _ _ _ _ _ _ acted => act_held acted) (prior.snoc moved)
      (fun i key member => (none_held i key member).elim) (fun i _ _ key member => (none_held i key member).elim)
    exact ⟨(runs_traced (prior.snoc moved) traced fresh).1,drawn,apart,paired_step kept.paired moved,pending_step kept moved⟩

-- Which writers of a document's points have not been cleared since, read off
-- the schedule. `none` stands for whatever was stored at the start.
def note (d : Uuid) (who : Nat → Activity) (writers : List (Option Nat)) (label : Nat × Label) : List (Option Nat) :=
  if (who label.1).document_id = some d then
    match label.2 with
    | .ingest (.clear reply) => if reply.landed then [] else writers
    | .delete (.clear reply) => if reply.landed then [] else writers
    | .ingest (.index reply) => if reply.landed then writers ++ [some label.1] else writers
    | _ => writers
  else writers

def uncleared (d : Uuid) (who : Nat → Activity) (labels : List (Nat × Label)) : List (Option Nat) :=
  labels.foldl (note d who) [none]

theorem uncleared_snoc : uncleared d who (labels ++ [label]) = note d who (uncleared d who labels) label := by
  simp [uncleared]

theorem mem_note (member : none ∈ note d who writers label) : none ∈ writers := by
  unfold note at member
  split at member
  · split at member
    · split at member <;> first | exact member | cases member
    · split at member <;> first | exact member | cases member
    · split at member
      · simpa using member
      · exact member
    · exact member
  · exact member

-- The schedule's account follows the writes themselves.
def VectorWrite.note (d : Uuid) (i : Nat) (own : Option Uuid) (writers : List (Option Nat)) : VectorWrite → List (Option Nat)
  | .none => writers
  | .clear document_id => if document_id = d then [] else writers
  | .upsert _ => if own = some d then writers ++ [some i] else writers

theorem note_write (acted : act deployment i s a label = some (s',a')) (same : a.document_id = (who i).document_id) :
    note d who writers (i,label) = VectorWrite.note d i a.document_id writers (vectorWrite a label) := by
  unfold note
  rw [← same]
  cases label with
  | ingest label =>
    cases a with
    | ingest phase =>
      cases label with
      | clear reply =>
        cases phase with
        | embedded run batch =>
          by_cases mine : run.document_id = d <;> cases landed : reply.landed <;>
            simp [Activity.document_id,Ingestion.Phase.document_id,vectorWrite,VectorWrite.note,mine,landed]
        | _ => cases acted
      | index reply =>
        cases phase with
        | cleared run batch =>
          cases landed : reply.landed <;> simp [vectorWrite,VectorWrite.note,landed]
        | _ => cases acted
      | _ => cases phase <;> simp [vectorWrite,VectorWrite.note]
    | _ => cases acted
  | delete label =>
    cases a with
    | delete phase =>
      cases label with
      | clear reply =>
        cases phase with
        | loaded document =>
          by_cases mine : document.id = d <;> cases landed : reply.landed <;>
            simp [Activity.document_id,Documents.DeletePhase.document_id,vectorWrite,VectorWrite.note,mine,landed]
        | _ => cases acted
      | _ => cases phase <;> simp [vectorWrite,VectorWrite.note]
    | _ => cases acted
  | _ => cases a <;> simp [vectorWrite,VectorWrite.note]

end RagForge.VectorLedger
