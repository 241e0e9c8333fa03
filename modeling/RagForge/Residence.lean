import RagForge.TenantIsolation

namespace RagForge.Residence
open RagForge Site Provenance TenantIsolation Transition

-- A point carries the workspace its document was uploaded to.
def Lodged (issued : Register) (p : VectorPoint) : Prop :=
  ∃ d w, p.payload.document_id = d.str ∧ p.payload.workspace_id = w.str ∧ (d,w) ∈ issued

structure Housed (s : Stores) : Prop where
  chunks : ∀ row ∈ s.db.document_chunks, (row.document_id,row.workspace_id) ∈ s.issued
  points : ∀ p ∈ s.vectors, Lodged s.issued p

def BatchHoused (issued : Register) (batch : Ingestion.Batch) : Prop :=
  (∀ row ∈ batch.chunk_rows, (row.document_id,row.workspace_id) ∈ issued) ∧ ∀ p ∈ batch.vector_points, Lodged issued p

-- What an ingestion still has to write.
def Settled (issued : Register) : Activity → Prop
  | .ingest (.loaded run) => (run.document_id,run.workspace_id) ∈ issued
  | .ingest (.embedded _ batch) => BatchHoused issued batch
  | .ingest (.cleared _ batch) => BatchHoused issued batch
  | .ingest (.indexed _ batch) => BatchHoused issued batch
  | _ => True

section Growing
variable {issued later : Register} (grows : issued ⊆ later)
include grows

theorem Lodged.mono (lodged : Lodged issued p) : Lodged later p := by
  obtain ⟨d,w,document,workspace,named⟩ := lodged
  exact ⟨d,w,document,workspace,grows named⟩

theorem BatchHoused.mono (housed : BatchHoused issued batch) : BatchHoused later batch :=
  ⟨fun row member => grows (housed.1 row member),fun p member => (housed.2 p member).mono grows⟩

theorem Settled.mono (settled : Settled issued a) : Settled later a := by
  cases a with
  | ingest phase =>
    cases phase with
    | loaded => exact grows settled
    | embedded => exact BatchHoused.mono grows settled
    | cleared => exact BatchHoused.mono grows settled
    | indexed => exact BatchHoused.mono grows settled
    | _ => trivial
  | _ => trivial

end Growing

theorem Settled.of_failed (failed : phase.failed = true) : Settled issued (.ingest phase) := by
  cases phase with
  | failing => trivial
  | ended => trivial
  | _ => cases failed

theorem build_housed {run : Ingestion.RunContext} (named : (run.document_id,run.workspace_id) ∈ issued) :
    BatchHoused issued (Ingestion.build run chunks embed_result ids) := by
  constructor
  · intro row member
    obtain ⟨chunk,_,pair,_,rfl⟩ := Ingestion.mem_build_rows member
    exact named
  · intro p member
    obtain ⟨vector,pair,_,rfl⟩ := Ingestion.mem_build_points member
    exact ⟨run.document_id,run.workspace_id,rfl,rfl,named⟩

theorem act_settled (traced : Traced s) (settled : Settled s.issued a) (acted : act deployment i s a label = some (s',a')) :
    Settled s'.issued a' := by
  have grows : s.issued ⊆ s'.issued := fun _ member => act_issued acted member
  cases act_change acted with
  | ingest change =>
    cases change with
    | load loaded _ =>
      obtain ⟨document,_,found,_,rfl,_⟩ := Commits.load_tables loaded
      obtain ⟨stored,rfl⟩ := Database.getDocument_mem found
      exact grows (traced.tables.documents document stored)
    | prepare _ _ _ => exact build_housed (grows settled)
    | clear next =>
      rcases next with rfl | ⟨failed,_⟩
      · exact BatchHoused.mono grows settled
      · exact .of_failed failed
    | index next =>
      rcases next with rfl | ⟨failed,_⟩
      · exact BatchHoused.mono grows settled
      · exact .of_failed failed
    | stop failed => exact .of_failed failed
    | _ => trivial
  | _ => trivial

-- The rows a commit replaces and the points it writes come from the batch.
theorem act_housed (housed : Housed s) (settled : Settled s.issued a) (acted : act deployment i s a label = some (s',a')) :
    Housed s' := by
  have grows : s.issued ⊆ s'.issued := fun _ member => act_issued acted member
  constructor
  · intro row member
    rw [Commits.act_chunks acted] at member
    unfold rowsWrite at member
    split at member
    · rcases List.mem_append.mp member with old | new
      · exact grows (housed.chunks row (List.mem_filter.mp old).1)
      · exact grows (settled.1 row new)
    · rcases List.mem_append.mp member with old | new
      · exact grows (housed.chunks row (List.mem_filter.mp old).1)
      · cases new
    · exact grows (housed.chunks row member)
  · intro p member
    rw [act_vectors acted] at member
    unfold vectorWrite at member
    split at member
    · split at member
      · exact (housed.points p (VectorStore.mem_delete.mp member).1).mono grows
      · exact (housed.points p member).mono grows
    · split at member
      · rcases VectorStore.mem_upsert member with old | new
        · exact (housed.points p old).mono grows
        · exact (settled.2 p new).mono grows
      · exact (housed.points p member).mono grows
    · split at member
      · exact (housed.points p (VectorStore.mem_delete.mp member).1).mono grows
      · exact (housed.points p member).mono grows
    · exact (housed.points p member).mono grows

-- Every name is stored under one workspace: its own, its document's and the one
-- its point is filtered by.
structure Coherent (s : Stores) : Prop where
  traced : Traced s
  housed : Housed s

theorem outline (deployment : Deployment) :
    Interleave.Outline (act deployment) Coherent fun s _ a => Known s.issued a ∧ Settled s.issued a where
  own _ _ _ _ _ _ coherent both acted :=
    have ⟨traced,known⟩ := act_traced coherent.traced both.1 acted
    ⟨⟨traced,act_housed coherent.housed both.2 acted⟩,known,act_settled coherent.traced both.2 acted⟩
  others _ _ _ _ _ _ _ _ _ _ _ both acted :=
    ⟨both.1.mono fun _ member => act_issued acted member,both.2.mono fun _ member => act_issued acted member⟩

theorem Settled.of_fresh (fresh : a.fresh = true) : Settled issued a := by
  cases a with
  | ingest phase => cases phase <;> trivial
  | _ => trivial

theorem coherent_of_opening (opening : Opening s) : Coherent s where
  traced := opening.traced
  housed := by
    constructor
    · intro row member
      obtain ⟨document,present,_⟩ := s.db.keys.chunk_document row member
      rw [opening.documents] at present
      cases present
    · intro p member
      rw [opening.vectors] at member
      cases member

end RagForge.Residence
