import RagForge.VectorLedger

namespace RagForge.ChunkAccounts
open RagForge Site Provenance Transition VectorLedger

-- The two stores describe one chunk set of the document.
structure Agrees (s : Stores) (d : Uuid) : Prop where
  points : ∀ p ∈ s.vectors, p.payload.document_id = d.str →
    ∃ row ∈ s.db.document_chunks, row.document_id = d ∧ row.vector_id = p.id ∧ p.payload.chunk_id = row.id.str
  rows : ∀ row ∈ s.db.document_chunks, row.document_id = d →
    ∃ p ∈ s.vectors, p.payload.document_id = d.str ∧ p.id = row.vector_id ∧ p.payload.chunk_id = row.id.str

instance (s : Stores) (d : Uuid) : Decidable (Agrees s d) :=
  decidable_of_iff
    ((∀ p ∈ s.vectors, p.payload.document_id = d.str →
      ∃ row ∈ s.db.document_chunks, row.document_id = d ∧ row.vector_id = p.id ∧ p.payload.chunk_id = row.id.str) ∧
    ∀ row ∈ s.db.document_chunks, row.document_id = d →
      ∃ p ∈ s.vectors, p.payload.document_id = d.str ∧ p.id = row.vector_id ∧ p.payload.chunk_id = row.id.str)
    ⟨fun both => ⟨both.1,both.2⟩,fun agrees => ⟨agrees.points,agrees.rows⟩⟩

-- Whose rows are committed, read off the schedule. `none` stands for the rows
-- of the start.
def noteRows (d : Uuid) (who : Nat → Activity) (rows : List (Option Nat)) (label : Nat × Label) : List (Option Nat) :=
  if (who label.1).document_id = some d then
    match label.2 with
    | .ingest (.persist _) => [some label.1]
    | .delete .commit => []
    | _ => rows
  else rows

def rowWriters (d : Uuid) (who : Nat → Activity) (labels : List (Nat × Label)) : List (Option Nat) :=
  labels.foldl (noteRows d who) [none]

theorem rowWriters_snoc : rowWriters d who (labels ++ [label]) = noteRows d who (rowWriters d who labels) label := by
  simp [rowWriters]

-- The account of the rows follows the two commits that replace rows.
theorem note_rows (rows : List (Option Nat)) (acted : act deployment i s a label = some (s',a')) (same : a.document_id = (who i).document_id) :
    (rowsWrite a label = none ∧ noteRows d who rows (i,label) = rows) ∨
    (∃ run batch, a = .ingest (.indexed run batch) ∧ rowsWrite a label = some (run.document_id,batch.chunk_rows) ∧
      noteRows d who rows (i,label) = if run.document_id = d then [some i] else rows) ∨
    ∃ document version, a = .delete (.invalidated document version) ∧ rowsWrite a label = some (document.id,[]) ∧
      noteRows d who rows (i,label) = if document.id = d then [] else rows := by
  unfold noteRows
  rw [← same]
  cases label with
  | ingest label =>
    cases a with
    | ingest phase =>
      cases label with
      | persist now =>
        cases phase with
        | indexed run batch =>
          refine .inr (.inl ⟨run,batch,rfl,rfl,?_⟩)
          simp [Activity.document_id,Ingestion.Phase.document_id]
        | _ => cases acted
      | _ => cases phase <;> exact .inl ⟨rfl,ite_self _⟩
    | _ => cases acted
  | delete label =>
    cases a with
    | delete phase =>
      cases label with
      | commit =>
        cases phase with
        | invalidated document version =>
          refine .inr (.inr ⟨document,version,rfl,rfl,?_⟩)
          simp [Activity.document_id,Documents.DeletePhase.document_id]
        | _ => cases acted
      | _ => cases phase <;> exact .inl ⟨rfl,ite_self _⟩
    | _ => cases acted
  | _ => cases a <;> first | cases acted | exact .inl ⟨rfl,ite_self _⟩

-- The execution has met an error.
def broken : Activity → Bool
  | .ingest phase => phase.failed
  | _ => false

theorem act_broken (acted : act deployment i s a label = some (s',a')) (before : broken a = true) : broken a' = true := by
  cases act_change acted with
  | ingest change =>
    cases change with
    | mark => rfl
    | stop failed => exact failed
    | _ => cases before
  | _ => cases before

-- A batch is kept to the end or lost by an error.
theorem act_batch (acted : act deployment i s a label = some (s',a')) (built : batchOf a = some batch) :
    batchOf a' = some batch ∨ broken a' = true := by
  cases act_change acted with
  | ingest change =>
    cases change with
    | clear next => exact next.imp (fun same => by rw [same]; exact built) fun failed => failed.1
    | index next => exact next.imp (fun same => by rw [same]; exact built) fun failed => failed.1
    | persist => exact .inl built
    | invalidate => exact .inl built
    | stop failed => exact .inr failed
    | _ => cases built
  | _ => cases built

-- The batches the executions have built so far, those of failed ones included.
structure Built (built : Nat → Option Ingestion.Batch) (c : Config) : Prop where
  current : ∀ i batch, batchOf (c.locals i) = some batch → built i = some batch
  past : ∀ i batch, built i = some batch → batchOf (c.locals i) = some batch ∨ broken (c.locals i) = true
  paired : ∀ i batch, built i = some batch → ∃ d, (c.locals i).document_id = some d ∧ Paired d batch
  drawn : ∀ i batch, built i = some batch → ∀ p ∈ batch.vector_points, Drawn c.shared p.id
  apart : ∀ i j batch other, built i = some batch → built j = some other →
    ∀ p ∈ batch.vector_points, ∀ q ∈ other.vector_points, p.id = q.id → i = j

theorem ledgered_built (ledgered : Ledgered c) : Built (fun i => batchOf (c.locals i)) c where
  current _ _ some_ := some_
  past _ _ some_ := .inl some_
  paired i batch some_ := ledgered.paired i batch some_
  drawn i batch some_ p inside := ledgered.drawn i p.id (held_of_batch some_ inside)
  apart i j batch other left right p mine q theirs same := by
    by_contra different
    exact ledgered.apart i j different p.id (held_of_batch left mine) (same ▸ held_of_batch right theirs)

theorem broken_batch (failed : broken a = true) : batchOf a = none := by
  cases a with
  | ingest phase => exact failed_batch failed
  | _ => rfl

theorem Built.kept (ghost : Built built c) (moved : Step deployment c label next)
    (old : ∀ batch, batchOf (next.locals label.1) = some batch → batchOf (c.locals label.1) = some batch) : Built built next := by
  obtain ⟨acted,same⟩ := Interleave.step_parts moved
  refine ⟨fun i batch some_ => ?_,fun i batch some_ => ?_,fun i batch some_ => ?_,fun i batch some_ p inside => ?_,ghost.apart⟩
  · by_cases equal : i = label.1
    · subst equal
      exact ghost.current _ batch (old batch some_)
    · exact ghost.current i batch (same i equal ▸ some_)
  · by_cases equal : i = label.1
    · subst equal
      exact (ghost.past _ batch some_).elim (act_batch acted) fun before => .inr (act_broken acted before)
    · rw [same i equal]
      exact ghost.past i batch some_
  · obtain ⟨d,own,paired⟩ := ghost.paired i batch some_
    refine ⟨d,?_,paired⟩
    by_cases equal : i = label.1
    · subst equal
      exact (act_document_id acted).trans own
    · rw [same i equal,own]
  · exact (act_held acted).1 _ (ghost.drawn i batch some_ p inside)

theorem act_builds (acted : act deployment i s a label = some (s',a')) (none_ : batchOf a = none) (some_ : batchOf a' = some batch) :
    broken a = false ∧ (∃ d, a.document_id = some d ∧ Paired d batch) ∧
      ∀ p ∈ batch.vector_points, ¬ Drawn s p.id ∧ Drawn s' p.id := by
  cases act_change acted with
  | ingest change =>
    rcases ingest_batch change some_ with before | ⟨_,run,_,_,ids,rfl,_,_,paired,drawn,same⟩
    · exact nomatch none_.symm.trans before
    · refine ⟨rfl,⟨run.document_id,rfl,paired⟩,fun p inside => drawn_new drawn (List.mem_append_right _ ?_)⟩
      rw [← same]
      exact List.mem_map.mpr ⟨p,inside,rfl⟩
  | _ => cases some_

theorem Built.extended (ghost : Built built c) (moved : Step deployment c label next)
    (now : batchOf (next.locals label.1) = some batch) (paired : ∃ d, (c.locals label.1).document_id = some d ∧ Paired d batch)
    (fresh : ∀ p ∈ batch.vector_points, ¬ Drawn c.shared p.id ∧ Drawn next.shared p.id) :
    Built (Function.update built label.1 (some batch)) next := by
  obtain ⟨acted,same⟩ := Interleave.step_parts moved
  have cases_ {i : Nat} {other : Ingestion.Batch} (set : Function.update built label.1 (some batch) i = some other) :
      i = label.1 ∧ other = batch ∨ i ≠ label.1 ∧ built i = some other := by
    by_cases equal : i = label.1
    · subst equal
      rw [Function.update_self] at set
      exact .inl ⟨rfl,(Option.some.inj set).symm⟩
    · rw [Function.update_of_ne equal] at set
      exact .inr ⟨equal,set⟩
  refine ⟨fun i other some_ => ?_,fun i other set => ?_,fun i other set => ?_,fun i other set p inside => ?_,?_⟩
  · by_cases equal : i = label.1
    · subst equal
      rw [Function.update_self,← now,some_]
    · rw [Function.update_of_ne equal]
      exact ghost.current i other (same i equal ▸ some_)
  · rcases cases_ set with ⟨rfl,rfl⟩ | ⟨different,old⟩
    · exact .inl now
    · rw [same i different]
      exact ghost.past i other old
  · rcases cases_ set with ⟨rfl,rfl⟩ | ⟨different,old⟩
    · rw [act_document_id acted]
      exact paired
    · rw [same i different]
      exact ghost.paired i other old
  · rcases cases_ set with ⟨rfl,rfl⟩ | ⟨different,old⟩
    · exact (fresh p inside).2
    · exact (act_held acted).1 _ (ghost.drawn i other old p inside)
  · -- a new point's id is drawn now, every other was drawn before
    intro i j left right mine theirs p first q second clash
    rcases cases_ mine with ⟨rfl,rfl⟩ | ⟨_,old⟩
    · rcases cases_ theirs with ⟨rfl,rfl⟩ | ⟨_,other⟩
      · rfl
      · exact absurd (clash ▸ ghost.drawn j right other q second) (fresh p first).1
    · rcases cases_ theirs with ⟨rfl,rfl⟩ | ⟨_,other⟩
      · exact absurd (clash ▸ ghost.drawn i left old p first) (fresh q second).1
      · exact ghost.apart i j left right old other p first q second clash

-- The ghost account grows with the one step that builds a batch.
theorem built_step (ghost : Built built c) (moved : Step deployment c label next) :
    ∃ later, Built later next ∧ ∀ i batch, built i = some batch → later i = some batch := by
  obtain ⟨acted,same⟩ := Interleave.step_parts moved
  cases now : batchOf (next.locals label.1) with
  | none => exact ⟨built,ghost.kept moved fun batch some_ => (nomatch now.symm.trans some_),fun _ _ same => same⟩
  | some batch =>
    cases before : batchOf (c.locals label.1) with
    | some old =>
      refine ⟨built,ghost.kept moved fun other some_ => ?_,fun _ _ same => same⟩
      rcases act_batch acted before with kept | failed
      · exact before.trans (kept.symm.trans some_)
      · exact nomatch (broken_batch failed).symm.trans now
    | none =>
      obtain ⟨sound,paired,fresh⟩ := act_builds acted before now
      have unset : built label.1 = none := by
        cases set : built label.1 with
        | none => rfl
        | some other =>
          rcases ghost.past _ other set with current | failed
          · exact nomatch before.symm.trans current
          · exact nomatch sound.symm.trans failed
      refine ⟨Function.update built label.1 (some batch),?_,?_⟩
      · exact ghost.extended moved now paired fresh
      · intro i other set
        rw [Function.update_of_ne fun equal => nomatch (equal ▸ unset).symm.trans set]
        exact set

-- What the stores hold of the document, told by writers: `none` has what the
-- base state held.
structure Account (d : Uuid) (base : Stores) (built : Nat → Option Ingestion.Batch) (writers rows : List (Option Nat))
    (c : Config) : Prop where
  points : ∀ p, p ∈ c.shared.vectors ∧ p.payload.document_id = d.str ↔
    none ∈ writers ∧ p ∈ base.vectors ∧ p.payload.document_id = d.str ∨
      ∃ i batch, some i ∈ writers ∧ built i = some batch ∧ p ∈ batch.vector_points
  chunks : ∀ row, row ∈ c.shared.db.document_chunks ∧ row.document_id = d ↔
    none ∈ rows ∧ row ∈ base.db.document_chunks ∧ row.document_id = d ∨
      ∃ i batch, some i ∈ rows ∧ built i = some batch ∧ row ∈ batch.chunk_rows
  owners : ∀ i, some i ∈ writers ∨ some i ∈ rows → ∃ batch, built i = some batch ∧ Paired d batch

theorem points_step (ledgered : Ledgered c) (ghost : Built built c) (account : Account d base built writers rows c)
    (moved : Step deployment c label next) (who : ∀ i, (c.locals i).document_id = (start i).document_id) (p : VectorPoint) :
    p ∈ next.shared.vectors ∧ p.payload.document_id = d.str ↔
      none ∈ note d start writers label ∧ p ∈ base.vectors ∧ p.payload.document_id = d.str ∨
        ∃ i batch, some i ∈ note d start writers label ∧ built i = some batch ∧ p ∈ batch.vector_points := by
  obtain ⟨acted,_⟩ := Interleave.step_parts moved
  have vectors := act_vectors acted
  rw [note_write acted (who label.1)]
  cases write : vectorWrite (c.locals label.1) label.2 with
  | none =>
    rw [write] at vectors
    rw [vectors]
    exact account.points p
  | clear d' =>
    rw [write] at vectors
    rw [vectors,show VectorWrite.apply c.shared.vectors (.clear d') = c.shared.vectors.deleteByDocument d' from rfl,
      VectorStore.mem_delete]
    by_cases mine : d' = d
    · subst mine
      simp only [VectorWrite.note,if_true,List.not_mem_nil,false_and,exists_false,or_false,iff_false]
      exact fun both => both.1.2 both.2
    · simp only [VectorWrite.note,mine,if_false,← account.points p]
      refine ⟨fun both => ⟨both.1.1,both.2⟩,fun both => ⟨⟨both.1,fun clash => mine ?_⟩,both.2⟩⟩
      exact Uuid.str_injective (clash.symm.trans both.2)
  | upsert points =>
    rw [write] at vectors
    obtain ⟨run,batch,phase,rfl⟩ := upsert_phase write
    obtain ⟨own,document,paired⟩ := ledgered.paired label.1 batch (phase ▸ rfl)
    have mem : p ∈ next.shared.vectors ↔ p ∈ c.shared.vectors ∨ p ∈ batch.vector_points :=
      vectors ▸ VectorStore.mem_upsert_fresh (ledgered.pending.points label.1 batch (phase ▸ rfl)) paired.distinct
    have current : built label.1 = some batch := ghost.current _ batch (phase ▸ rfl)
    simp only [VectorWrite.note,document,Option.some.injEq]
    by_cases mine : own = d
    · subst mine
      simp only [if_true,List.mem_append,List.mem_singleton,Option.some.injEq,reduceCtorEq,or_false,mem]
      constructor
      · rintro ⟨old | new,same⟩
        · rcases (account.points p).mp ⟨old,same⟩ with base_ | ⟨i,other,counted,rest⟩
          · exact .inl base_
          · exact .inr ⟨i,other,.inl counted,rest⟩
        · exact .inr ⟨label.1,batch,.inr rfl,current,new⟩
      · rintro (base_ | ⟨i,other,counted | rfl,set,inside⟩)
        · exact ((account.points p).mpr (.inl base_)).imp_left .inl
        · exact ((account.points p).mpr (.inr ⟨i,other,counted,set,inside⟩)).imp_left .inl
        · cases current.symm.trans set
          exact ⟨.inr inside,(paired.points p inside).1⟩
    · simp only [mine,if_false,mem,← account.points p]
      refine ⟨?_,fun both => ⟨.inl both.1,both.2⟩⟩
      rintro ⟨old | new,same⟩
      · exact ⟨old,same⟩
      · exact absurd (Uuid.str_injective ((paired.points p new).1.symm.trans same)) mine

theorem rows_step (ledgered : Ledgered c) (ghost : Built built c) (account : Account d base built writers rows c)
    (moved : Step deployment c label next) (who : ∀ i, (c.locals i).document_id = (start i).document_id) (row : DocumentChunk) :
    row ∈ next.shared.db.document_chunks ∧ row.document_id = d ↔
      none ∈ noteRows d start rows label ∧ row ∈ base.db.document_chunks ∧ row.document_id = d ∨
        ∃ i batch, some i ∈ noteRows d start rows label ∧ built i = some batch ∧ row ∈ batch.chunk_rows := by
  obtain ⟨acted,_⟩ := Interleave.step_parts moved
  have chunks := Commits.act_chunks acted
  rcases note_rows rows acted (who label.1) with ⟨write,noted⟩ | ⟨run,batch,phase,write,noted⟩ | ⟨document,version,phase,write,noted⟩
  all_goals rw [noted]; rw [write] at chunks; simp only [rewriteRows] at chunks; rw [chunks]
  · exact account.chunks row
  · obtain ⟨own,document,paired⟩ := ledgered.paired label.1 batch (phase ▸ rfl)
    have key : run.document_id = own := by rw [phase] at document; exact Option.some.inj document
    have current : built label.1 = some batch := ghost.current _ batch (phase ▸ rfl)
    simp only [List.mem_append,List.mem_filter,decide_eq_true_eq]
    by_cases mine : run.document_id = d
    · simp only [mine,if_true,List.mem_singleton,reduceCtorEq,false_and,false_or,Option.some.injEq]
      constructor
      · rintro ⟨⟨_,other⟩ | new,same⟩
        · exact absurd same other
        · exact ⟨label.1,batch,rfl,current,new⟩
      · rintro ⟨i,other,rfl,set,inside⟩
        cases current.symm.trans set
        exact ⟨.inr inside,(paired.rows row inside).1.trans (key.symm.trans mine)⟩
    · simp only [mine,if_false,← account.chunks row]
      constructor
      · rintro ⟨⟨old,_⟩ | new,same⟩
        · exact ⟨old,same⟩
        · exact absurd (key.trans ((paired.rows row new).1.symm.trans same)) mine
      · exact fun both => ⟨.inl ⟨both.1,fun clash => mine (clash.symm.trans both.2)⟩,both.2⟩
  · simp only [List.append_nil,List.mem_filter,decide_eq_true_eq]
    by_cases mine : document.id = d
    · simp only [mine,if_true,List.not_mem_nil,false_and,exists_false,or_false,iff_false]
      exact fun both => both.1.2 both.2
    · simp only [mine,if_false,← account.chunks row]
      exact ⟨fun both => ⟨both.1.1,both.2⟩,fun both => ⟨⟨both.1,fun clash => mine (clash.symm.trans both.2)⟩,both.2⟩⟩

-- Whoever a step adds to the account has its batch at hand.
theorem owners_step (ledgered : Ledgered c) (ghost : Built built c) (account : Account d base built writers rows c)
    (moved : Step deployment c label next) (who : ∀ i, (c.locals i).document_id = (start i).document_id)
    (member : some i ∈ note d start writers label ∨ some i ∈ noteRows d start rows label) :
    ∃ batch, built i = some batch ∧ Paired d batch := by
  obtain ⟨acted,_⟩ := Interleave.step_parts moved
  have mine (batch : Ingestion.Batch) (built_ : batchOf (c.locals label.1) = some batch)
      (own : (c.locals label.1).document_id = some d) : ∃ batch, built label.1 = some batch ∧ Paired d batch := by
    obtain ⟨d',document,paired⟩ := ledgered.paired label.1 batch built_
    cases own.symm.trans document
    exact ⟨batch,ghost.current _ batch built_,paired⟩
  rcases member with noted | noted
  · rw [note_write acted (who _)] at noted
    cases write : vectorWrite (c.locals label.1) label.2 with
    | none => rw [write] at noted; exact account.owners i (.inl noted)
    | clear d' =>
      rw [write] at noted
      simp only [VectorWrite.note] at noted
      split at noted
      · cases noted
      · exact account.owners i (.inl noted)
    | upsert points =>
      obtain ⟨run,batch,phase,_⟩ := upsert_phase write
      rw [write] at noted
      simp only [VectorWrite.note] at noted
      split at noted
      · rename_i own
        rcases List.mem_append.mp noted with old | new
        · exact account.owners i (.inl old)
        · cases List.mem_singleton.mp new
          exact mine batch (phase ▸ rfl) own
      · exact account.owners i (.inl noted)
  · rcases note_rows rows acted (who label.1) with ⟨_,kept⟩ | ⟨run,batch,phase,_,kept⟩ | ⟨_,_,_,_,kept⟩
    · exact account.owners i (.inr (kept ▸ noted))
    · rw [kept] at noted
      split at noted
      · rename_i own
        cases List.mem_singleton.mp noted
        exact mine batch (phase ▸ rfl) (phase ▸ congrArg some own)
      · exact account.owners i (.inr noted)
    · rw [kept] at noted
      split at noted
      · cases noted
      · exact account.owners i (.inr noted)

-- A longer ghost account tells the same story.
theorem Account.extend (account : Account d base built writers rows c) (more : ∀ i batch, built i = some batch → later i = some batch) :
    Account d base later writers rows c := by
  have same (i : Nat) (member : some i ∈ writers ∨ some i ∈ rows) : later i = built i := by
    obtain ⟨batch,set,_⟩ := account.owners i member
    rw [set,more i batch set]
  refine ⟨fun p => ?_,fun row => ?_,fun i member => same i member ▸ account.owners i member⟩
  · rw [account.points p]
    exact or_congr_right (exists_congr fun i => exists_congr fun batch => and_congr_right fun member => by rw [same i (.inl member)])
  · rw [account.chunks row]
    exact or_congr_right (exists_congr fun i => exists_congr fun batch => and_congr_right fun member => by rw [same i (.inr member)])

theorem account_step (ledgered : Ledgered c) (ghost : Built built c) (account : Account d base built writers rows c)
    (moved : Step deployment c label next) (who : ∀ i, (c.locals i).document_id = (start i).document_id) :
    Account d base built (note d start writers label) (noteRows d start rows label) next where
  points := points_step ledgered ghost account moved who
  chunks := rows_step ledgered ghost account moved who
  owners _ := owners_step ledgered ghost account moved who

-- From any reachable state on, the account of a document can be kept.
theorem runs_account (before : Runs (Step deployment) start earlier b) (after : Runs (Step deployment) b later c)
    (traced : Traced start.shared) (fresh : ∀ i, (start.locals i).fresh = true) (d : Uuid) : ∃ built, Built built c ∧
    Account d b.shared built (uncleared d b.locals later) (rowWriters d b.locals later) c := by
  refine after.history (fun later c => ∃ built, Built built c ∧
    Account d b.shared built (uncleared d b.locals later) (rowWriters d b.locals later) c) ?_ ?_
  · refine ⟨_,ledgered_built (runs_ledgered before traced fresh),fun p => ?_,fun row => ?_,fun i member => ?_⟩
    · simp [uncleared]
    · simp [rowWriters]
    · simp [uncleared,rowWriters] at member
  · rintro labels s label next prior ⟨built,ghost,account⟩ moved
    have ledgered := runs_ledgered (before.append prior) traced fresh
    obtain ⟨later,grown,more⟩ := built_step ghost moved
    rw [uncleared_snoc,rowWriters_snoc]
    exact ⟨later,grown,(account_step ledgered ghost account moved (runs_document_id prior)).extend more⟩

-- An upload and two executions of the task for its document.
def redelivery : Config where
  shared := vacant
  locals := fun
    | 0 => .upload (.requested memo)
    | 1 => .ingest (.received ⟨10⟩ none)
    | 2 => .ingest (.received ⟨10⟩ none)
    | _ => .idle

theorem redelivery_fresh (i : Nat) : (redelivery.locals i).fresh = true := by
  unfold redelivery; dsimp only; split <;> rfl

end RagForge.ChunkAccounts
