import RagForge.TaskQueue

namespace RagForge.JobLedger
open RagForge Database Transition TaskQueue Commits
variable {run : Ingestion.RunContext}

def closed (job : IngestionJob) : Bool := job.status = .completed || job.status = .failed

def finished (status : DocumentStatus) : Bool := status = .completed || status = .failed

-- What a step does to the job rows and to the documents' statuses.
inductive JobWrite (db : Database) : Slot → Label → Database → Prop where
  | none : TaskQueue.inserts db slot label = .none → after.documents = db.documents →
      after.ingestion_jobs = db.ingestion_jobs → JobWrite db slot label after
  | uploaded : after.documents = db.documents ++ [request.row document_id] →
      after.ingestion_jobs = db.ingestion_jobs ++ [Documents.pendingJob document_id job_id now] →
      JobWrite db (.upload (.saved request document_id)) (.upload (.insert job_id now)) after
  | begun : TaskQueue.inserts db slot label = some job → closed job = false → finished status = false →
      after.documents = (db.toTables.setStatus job.document_id status none).documents →
      after.ingestion_jobs = db.ingestion_jobs ++ [job] → JobWrite db slot label after
  | ended : TaskQueue.inserts db slot label = .none → (outcome = .completed ∨ outcome = .failed) →
      after.documents = (db.toTables.setStatus d status error).documents →
      after.ingestion_jobs = closeLatest db d outcome stage note now → JobWrite db slot label after

theorem upload_write (acted : Documents.upload deployment s phase label = some (s',phase')) :
    JobWrite s.db (.upload phase) (.upload label) s'.db := by
  generalize found : s'.db = after
  have commit := found ▸ upload_commit acted
  cases commit with
  | upload enforced =>
    have tables := Database.enforce_tables enforced
    exact .uploaded (congrArg Tables.documents tables) (congrArg Tables.ingestion_jobs tables)
  | none _ quiet => exact .none quiet rfl rfl

theorem reingest_write (acted : Documents.reingest s phase label = some (s',phase')) :
    JobWrite s.db (.reingest phase) (.reingest label) s'.db := by
  generalize found : s'.db = after
  have commit := found ▸ reingest_commit acted
  cases commit with
  | reingest stored enforced =>
    have tables := Database.enforce_tables enforced
    refine .begun ?_ ?_ ?_ (congrArg Tables.documents tables :) (congrArg Tables.ingestion_jobs tables)
    · simp only [TaskQueue.inserts,Commits.inserts,stored,Option.map_some,Documents.pendingJob]
    · rfl
    · rfl
  | none _ quiet => exact .none quiet rfl rfl

theorem mark_write {db : Database} {d : Uuid} {message : Str} {now : Nat} (quiet : TaskQueue.inserts db slot label = none) :
    JobWrite db slot label (Ingestion.markFailed db d message now) := by
  have tables := markFailed_tables db d message now
  exact .ended quiet (.inr rfl) (congrArg Tables.documents tables :) (congrArg Tables.ingestion_jobs tables)

theorem ingest_write (acted : Ingestion.act deployment s phase label = some (s',phase')) :
    JobWrite s.db (.executing task phase) (.execute label) s'.db := by
  generalize found : s'.db = after
  have commit := found ▸ ingest_commit acted
  cases commit with
  | load loaded =>
    obtain ⟨document,_,stored,_,_,tables⟩ := load_tables loaded
    refine .begun ?_ ?_ ?_ (congrArg Tables.documents tables :) (congrArg Tables.ingestion_jobs tables)
    · simp only [TaskQueue.inserts,Commits.inserts,stored,Option.map_some]
    · rfl
    · rfl
  | persist persisted =>
    have tables := persist_tables persisted
    exact .ended rfl (.inl rfl) (congrArg Tables.documents tables :) (congrArg Tables.ingestion_jobs tables)
  | mark => exact mark_write rfl
  | none _ quiet => exact .none quiet rfl rfl

theorem act_write (acted : act deployment s slot label = some (s',slot')) :
    JobWrite s.stores.db slot label s'.stores.db := by
  cases act_change acted with
  | upload moved => exact upload_write moved
  | reingest moved => exact reingest_write moved
  | execute moved => exact ingest_write moved
  | giveUp => exact mark_write rfl
  | message same _ quiet =>
    rw [same]
    exact .none (quiet _) rfl rfl

-- Closing the latest row moves no row to another document or time.
theorem mem_closeLatest {db : Database} (outcome_ : outcome = .completed ∨ outcome = .failed)
    (member : row ∈ closeLatest db d outcome stage note now) :
    ∃ old ∈ db.ingestion_jobs, old.document_id = row.document_id ∧ old.created_at = row.created_at ∧
      ((∃ best, db.latestJob d = some best ∧ old.id = best.id) ∧ closed row = true ∨
        row = old ∧ ∀ best, db.latestJob d = some best → old.id ≠ best.id) := by
  unfold closeLatest at member
  split at member
  · rename_i best latest
    obtain ⟨old,stored,rfl⟩ := List.mem_map.mp member
    refine ⟨old,stored,?_⟩
    split
    · rename_i own
      exact ⟨rfl,rfl,.inl ⟨⟨best,latest,own⟩,by rcases outcome_ with rfl | rfl <;> rfl⟩⟩
    · rename_i other
      exact ⟨rfl,rfl,.inr ⟨rfl,fun _ same => Option.some.inj (latest.symm.trans same) ▸ other⟩⟩
  · rename_i none_
    exact ⟨row,member,rfl,rfl,.inr ⟨rfl,fun best some_ => by rw [none_] at some_; cases some_⟩⟩

-- An open row of the new list is an old one that was not the latest.
theorem open_closeLatest {db : Database} (outcome_ : outcome = .completed ∨ outcome = .failed)
    (member : job ∈ closeLatest db d outcome stage note now) (opened : closed job = false) :
    job ∈ db.ingestion_jobs ∧ ∀ best, db.latestJob d = some best → job.id ≠ best.id := by
  obtain ⟨old,stored,_,_,⟨_,shut⟩ | ⟨rfl,apart⟩⟩ := mem_closeLatest outcome_ member
  · rw [opened] at shut
    cases shut
  · exact ⟨stored,apart⟩

-- An open row is its document's newest, and the document is not done.
structure Ledger (db : Database) : Prop where
  newest : ∀ job ∈ db.ingestion_jobs, closed job = false → ∀ other ∈ db.ingestion_jobs, other.document_id = job.document_id →
    other = job ∨ other.created_at < job.created_at
  waiting : ∀ job ∈ db.ingestion_jobs, closed job = false → ∀ document ∈ db.documents, document.id = job.document_id →
    finished document.status = false

-- A row is added only after all rows of its document have been closed, and
-- with a later clock.
def Orderly (db : Database) (slot : Slot) (label : TaskQueue.Label) : Prop :=
  ∀ job, TaskQueue.inserts db slot label = some job → ∀ other ∈ db.ingestion_jobs, other.document_id = job.document_id →
    closed other = true ∧ other.created_at < job.created_at

theorem newest_append {db : Database} (ledger : Ledger db)
    (orderly : ∀ other ∈ db.ingestion_jobs, other.document_id = fresh.document_id → closed other = true ∧ other.created_at < fresh.created_at)
    (member : job ∈ db.ingestion_jobs ++ [fresh]) (opened : closed job = false) :
    (job = fresh ∨ job ∈ db.ingestion_jobs ∧ job.document_id ≠ fresh.document_id) ∧
      ∀ other ∈ db.ingestion_jobs ++ [fresh], other.document_id = job.document_id → other = job ∨ other.created_at < job.created_at := by
  rcases List.mem_append.mp member with old | new
  · have elsewhere : job.document_id ≠ fresh.document_id := fun same => by
      rw [(orderly job old same).1] at opened; cases opened
    refine ⟨.inr ⟨old,elsewhere⟩,fun other inside same => ?_⟩
    rcases List.mem_append.mp inside with earlier | last
    · exact ledger.newest job old opened other earlier same
    · rw [List.mem_singleton.mp last] at same
      exact absurd same.symm elsewhere
  · cases List.mem_singleton.mp new
    refine ⟨.inl rfl,fun other inside same => ?_⟩
    rcases List.mem_append.mp inside with earlier | last
    · exact .inr (orderly other earlier same).2
    · exact .inl (List.mem_singleton.mp last)

theorem Ledger.write (ledger : Ledger db) (write : JobWrite db slot label after) (orderly : Orderly db slot label)
    (new : ∀ request d, slot = .upload (.saved request d) → ∀ document ∈ db.documents, document.id ≠ d) : Ledger after := by
  cases write with
  | none _ documents jobs =>
    exact ⟨by rw [jobs]; exact ledger.newest,by rw [documents,jobs]; exact ledger.waiting⟩
  | @uploaded document_id job_id now request _ documents jobs =>
    have apart := orderly _ rfl
    constructor
    · rw [jobs]
      exact fun job member opened => (newest_append ledger apart member opened).2
    · rw [jobs,documents]
      intro job member opened document stored same
      rcases (newest_append ledger apart member opened).1,List.mem_append.mp stored with ⟨rfl | ⟨old,elsewhere⟩,earlier | last⟩
      · exact absurd same (new request document_id rfl document earlier)
      · rw [List.mem_singleton.mp last]; rfl
      · exact ledger.waiting job old opened document earlier same
      · rw [List.mem_singleton.mp last] at same
        exact absurd same.symm elsewhere
  | begun inserted _ unfinished documents jobs =>
    have apart := orderly _ inserted
    constructor
    · rw [jobs]
      exact fun job member opened => (newest_append ledger apart member opened).2
    · rw [jobs,documents]
      intro job member opened document stored same
      rcases Tables.mem_setStatus_cases stored with ⟨_,status⟩ | ⟨other,earlier⟩
      · exact status ▸ unfinished
      · rcases (newest_append ledger apart member opened).1 with rfl | ⟨old,_⟩
        · exact absurd same other
        · exact ledger.waiting job old opened document earlier same
  | ended quiet outcome_ documents jobs =>
    constructor
    · rw [jobs]
      intro job member opened other inside same
      obtain ⟨stored,apart⟩ := open_closeLatest outcome_ member opened
      obtain ⟨old,earlier,home,time,image⟩ := mem_closeLatest outcome_ inside
      rcases ledger.newest job stored opened old earlier (home.trans same) with rfl | before
      · rcases image with ⟨⟨best,latest,own⟩,_⟩ | ⟨equal,_⟩
        · exact absurd own (apart best latest)
        · exact .inl equal
      · exact .inr (time ▸ before)
    · rw [jobs,documents]
      intro job member opened document present same
      obtain ⟨stored,apart⟩ := open_closeLatest outcome_ member opened
      rcases Tables.mem_setStatus_cases present with ⟨own,_⟩ | ⟨_,earlier⟩
      · -- the document's only open row would have been the latest
        have home := own.symm.trans same
        subst home
        obtain ⟨best,latest⟩ := latestJob_some stored
        obtain ⟨inside,mine,most⟩ := latestJob_newest latest
        have bound := most job stored rfl
        rcases ledger.newest job stored opened best inside mine with rfl | before
        · exact absurd rfl (apart best latest)
        · omega
      · exact ledger.waiting job stored opened document earlier same

-- A row that is not the first of the latest ones, and still open.
def Shadowed (jobs : List IngestionJob) (job : IngestionJob) : Prop :=
  closed job = false ∧ ∃ front back, jobs = front ++ job :: back ∧
    ((∃ other ∈ front, other.document_id = job.document_id ∧ job.created_at ≤ other.created_at) ∨
      ∃ other ∈ back, other.document_id = job.document_id ∧ job.created_at < other.created_at)

theorem Shadowed.mem (shadowed : Shadowed jobs job) : job ∈ jobs := by
  obtain ⟨_,front,back,rfl,_⟩ := shadowed
  simp

theorem Shadowed.append (shadowed : Shadowed jobs job) (fresh : List IngestionJob) : Shadowed (jobs ++ fresh) job := by
  obtain ⟨opened,front,back,rfl,before | after⟩ := shadowed
  · exact ⟨opened,front,back ++ fresh,by simp,.inl before⟩
  · obtain ⟨other,member,rest⟩ := after
    exact ⟨opened,front,back ++ fresh,by simp,.inr ⟨other,List.mem_append_left _ member,rest⟩⟩

theorem Shadowed.map {f : IngestionJob → IngestionJob} (shadowed : Shadowed jobs job) (still : f job = job)
    (same : ∀ row, (f row).document_id = row.document_id ∧ (f row).created_at = row.created_at) : Shadowed (jobs.map f) job := by
  have image (other : IngestionJob) (rows : List IngestionJob) (member : other ∈ rows) : f other ∈ rows.map f :=
    List.mem_map.mpr ⟨other,member,rfl⟩
  obtain ⟨opened,front,back,rfl,⟨other,member,home,time⟩ | ⟨other,member,home,time⟩⟩ := shadowed
  · refine ⟨opened,front.map f,back.map f,by simp [still],.inl ⟨f other,image other front member,?_,?_⟩⟩
    · rw [(same other).1]; exact home
    · rw [(same other).2]; exact time
  · refine ⟨opened,front.map f,back.map f,by simp [still],.inr ⟨f other,image other back member,?_,?_⟩⟩
    · rw [(same other).1]; exact home
    · rw [(same other).2]; exact time

theorem Shadowed.not_latest {db : Database} (shadowed : Shadowed db.ingestion_jobs job)
    (unique : (db.ingestion_jobs.map (·.id)).Nodup) (latest : db.latestJob d = some best) : job.id ≠ best.id := by
  intro same
  obtain ⟨stored,home,most⟩ := latestJob_newest latest
  obtain rfl : job = best := List.inj_on_of_nodup_map unique shadowed.mem stored same
  obtain ⟨_,front,back,rows,shade⟩ := shadowed
  have split := latestJob_split db d
  rw [latest] at split
  obtain ⟨front',back',filtered,before,after⟩ := split
  have once : job ∉ front ∧ job ∉ back := by
    have nodup := unique.of_map
    rw [rows,List.nodup_append] at nodup
    exact ⟨fun member => nodup.2.2 job member job List.mem_cons_self rfl,(List.nodup_cons.mp nodup.2.1).1⟩
  have mine : decide (job.document_id = d) = true := decide_eq_true home
  rw [rows,List.filter_append,List.filter_cons,if_pos mine] at filtered
  have apart := (List.append_cons_inj_of_notMem (fun member => once.1 (List.mem_filter.mp member).1)
    (fun member => once.2 (List.mem_filter.mp member).1)).mp filtered
  obtain ⟨rfl,_,rfl⟩ := apart
  rcases shade with ⟨other,member,mine,time⟩ | ⟨other,member,mine,time⟩
  · have less := before other (List.mem_filter.mpr ⟨member,decide_eq_true (mine.trans home)⟩)
    omega
  · have bound := after other (List.mem_filter.mpr ⟨member,decide_eq_true (mine.trans home)⟩)
    omega

theorem Shadowed.write (shadowed : Shadowed db.ingestion_jobs job) (unique : (db.ingestion_jobs.map (·.id)).Nodup)
    (write : JobWrite db slot label after) : Shadowed after.ingestion_jobs job := by
  cases write with
  | none _ _ jobs => rw [jobs]; exact shadowed
  | uploaded _ jobs => rw [jobs]; exact shadowed.append _
  | begun _ _ _ _ jobs => rw [jobs]; exact shadowed.append _
  | ended _ _ _ jobs =>
    rw [jobs]
    unfold closeLatest
    split
    · rename_i best latest
      refine shadowed.map (if_neg (shadowed.not_latest unique latest)) fun row => ?_
      split <;> exact ⟨rfl,rfl⟩
    · exact shadowed

-- A step out of order leaves such a row: the new one, or one before it.
theorem shadowed_of_disorder (write : JobWrite db slot label after) (disorder : ¬ Orderly db slot label) :
    ∃ job, Shadowed after.ingestion_jobs job := by
  simp only [Orderly,not_forall] at disorder
  obtain ⟨fresh,inserted,other,member,home,late⟩ := disorder
  have added (opened : closed fresh = false) (jobs : after.ingestion_jobs = db.ingestion_jobs ++ [fresh]) :
      ∃ job, Shadowed after.ingestion_jobs job := by
    rw [jobs]
    by_cases newest : other.created_at < fresh.created_at
    · have standing : closed other = false := by
        cases shut : closed other with
        | false => rfl
        | true => exact absurd ⟨shut,newest⟩ late
      obtain ⟨front,back,rows⟩ := List.append_of_mem member
      exact ⟨other,standing,front,back ++ [fresh],by rw [rows]; simp,.inr ⟨fresh,by simp,home.symm,newest⟩⟩
    · exact ⟨fresh,opened,db.ingestion_jobs,[],rfl,.inl ⟨other,member,home,Nat.le_of_not_lt newest⟩⟩
  cases write with
  | none quiet => rw [quiet] at inserted; cases inserted
  | uploaded _ jobs =>
    cases inserted
    exact added rfl jobs
  | begun inserted' opened _ _ jobs =>
    cases inserted.symm.trans inserted'
    exact added opened jobs
  | ended quiet => rw [quiet] at inserted; cases inserted

def known (s : Stores) (key : Uuid) : Prop := key ∈ s.issued.map Prod.fst

-- What is known of drawn ids: every row and every saved upload has its own.
structure Named (c : Config) : Prop where
  documents : ∀ document ∈ c.shared.stores.db.documents, known c.shared.stores document.id
  jobs : ∀ job ∈ c.shared.stores.db.ingestion_jobs, known c.shared.stores job.id
  unique : (c.shared.stores.db.ingestion_jobs.map (·.id)).Nodup
  saved : ∀ i request d, c.locals i = .upload (.saved request d) →
    known c.shared.stores d ∧ ∀ document ∈ c.shared.stores.db.documents, document.id ≠ d
  apart : ∀ i j request request' d, c.locals i = .upload (.saved request d) → c.locals j = .upload (.saved request' d) → i = j

theorem known_grows {s s' : Stores} (grows : s.issued ⊆ s'.issued) (named : known s key) : known s' key :=
  List.map_subset _ grows named

-- Only a save enters the phase that holds a document id, and draws it.
theorem act_saves (acted : act deployment s slot label = some (s',.upload (.saved request d))) :
    ¬ known s.stores d ∧ known s'.stores d ∧ s'.stores.db = s.stores.db := by
  generalize equal : Slot.upload (.saved request d) = slot' at acted
  cases act_change acted with
  | upload moved =>
    cases equal
    cases Documents.upload_change moved with
    | save drawn _ => exact ⟨(Stores.draw_one drawn).1,(Stores.draw_one drawn).2,(Stores.draw_same drawn).db⟩
  | reingest => cases equal
  | execute => cases equal
  | giveUp => cases equal
  | message _ elsewhere => exact absurd equal.symm (elsewhere _)

theorem write_documents (write : JobWrite db slot label after) (member : document ∈ after.documents) :
    (∃ old ∈ db.documents, old.id = document.id) ∨ ∃ request, slot = .upload (.saved request document.id) := by
  cases write with
  | none _ documents => exact .inl ⟨document,documents ▸ member,rfl⟩
  | @uploaded document_id job_id now request _ documents =>
    rw [documents] at member
    rcases List.mem_append.mp member with old | new
    · exact .inl ⟨document,old,rfl⟩
    · rw [List.mem_singleton.mp new]
      exact .inr ⟨request,rfl⟩
  | begun _ _ _ documents =>
    rw [documents] at member
    obtain ⟨old,stored,same,_⟩ := Tables.mem_setStatus member
    exact .inl ⟨old,stored,same⟩
  | ended _ _ documents =>
    rw [documents] at member
    obtain ⟨old,stored,same,_⟩ := Tables.mem_setStatus member
    exact .inl ⟨old,stored,same⟩

theorem write_jobs (write : JobWrite db slot label after) :
    after.ingestion_jobs.map (·.id) = db.ingestion_jobs.map (·.id) ++ ((TaskQueue.inserts db slot label).map (·.id)).toList := by
  cases write with
  | none quiet _ jobs => rw [jobs,quiet]; simp
  | uploaded _ jobs => rw [jobs]; simp [TaskQueue.inserts,Commits.inserts]
  | begun inserted _ _ _ jobs => rw [jobs,inserted]; simp
  | ended quiet _ _ jobs =>
    rw [jobs,quiet]
    unfold closeLatest
    split
    · simp only [Tables.updateJob,List.map_map,Option.map_none,Option.toList_none,List.append_nil]
      refine List.map_congr_left fun row _ => ?_
      simp only [Function.comp_apply]
      split <;> rfl
    · simp

theorem Named.step (named : Named c) (moved : Step deployment c label next) : Named next := by
  obtain ⟨acted,same⟩ := Interleave.step_parts moved
  have write := act_write acted
  have grows {key : Uuid} (old : known c.shared.stores key) : known next.shared.stores key := known_grows (act_issued acted) old
  have ids := write_jobs write
  -- an upload that holds an id was there before, or has drawn it right now
  have held (i : Nat) (request : Documents.Upload) (d : Uuid) (now : next.locals i = .upload (.saved request d)) :
      i ≠ label.1 ∧ c.locals i = .upload (.saved request d) ∨ i = label.1 ∧ ¬ known c.shared.stores d ∧ known next.shared.stores d ∧
        next.shared.stores.db = c.shared.stores.db := by
    by_cases own : i = label.1
    · subst own
      rw [now] at acted
      exact .inr ⟨rfl,act_saves acted⟩
    · exact .inl ⟨own,same i own ▸ now⟩
  refine ⟨?_,?_,?_,?_,?_⟩
  · intro document member
    rcases write_documents write member with ⟨old,stored,key⟩ | ⟨request,here⟩
    · exact key ▸ grows (named.documents old stored)
    · exact grows (named.saved _ request _ here).1
  · intro job member
    have inside := List.mem_map_of_mem (f := (·.id)) member
    rw [ids,List.mem_append] at inside
    rcases inside with old | new
    · obtain ⟨row,stored,key⟩ := List.mem_map.mp old
      exact key ▸ grows (named.jobs row stored)
    · obtain ⟨row,inserted,key⟩ := Option.map_eq_some_iff.mp (Option.mem_toList.mp new)
      exact key ▸ (act_inserts acted inserted).2
  · rw [ids,List.nodup_append]
    refine ⟨named.unique,by cases TaskQueue.inserts c.shared.stores.db (c.locals label.1) label.2 <;> simp,?_⟩
    intro key old key' new equal
    obtain ⟨row,stored,rfl⟩ := List.mem_map.mp old
    obtain ⟨fresh,inserted,rfl⟩ := Option.map_eq_some_iff.mp (Option.mem_toList.mp new)
    exact (act_inserts acted inserted).1 (equal ▸ named.jobs row stored)
  · intro i request d now
    rcases held i request d now with ⟨other,before⟩ | ⟨_,fresh,drawn,unchanged⟩
    · obtain ⟨old,apart⟩ := named.saved i request d before
      refine ⟨grows old,fun document member clash => ?_⟩
      rcases write_documents write member with ⟨row,stored,key⟩ | ⟨request',here⟩
      · exact apart row stored (key.trans clash)
      · exact other (named.apart i label.1 request request' d before (clash ▸ here))
    · refine ⟨drawn,fun document member clash => fresh ?_⟩
      rw [unchanged] at member
      exact clash ▸ named.documents document member
  · intro i j request request' d first second
    rcases held i request d first,held j request' d second with ⟨⟨_,before⟩ | ⟨here,fresh,_⟩,⟨_,before'⟩ | ⟨here',fresh',_⟩⟩
    · exact named.apart i j request request' d before before'
    · exact absurd (named.saved i request d before).1 fresh'
    · exact absurd (named.saved j request' d before').1 fresh
    · exact here.trans here'.symm

theorem Named.opening (opening : c.shared.stores.db.documents = []) (fresh : ∀ i, (c.locals i).fresh = true) : Named c := by
  have no_job (job : IngestionJob) (member : job ∈ c.shared.stores.db.ingestion_jobs) : False := by
    obtain ⟨document,present,_⟩ := c.shared.stores.db.keys.job_document job member
    rw [opening] at present
    cases present
  have no_upload (i : Nat) (request : Documents.Upload) (d : Uuid) (here : c.locals i = .upload (.saved request d)) : False := by
    have first := fresh i
    rw [here] at first
    cases first
  refine ⟨?_,fun job member => (no_job job member).elim,?_,fun i request d here => (no_upload i request d here).elim,
    fun i _ request _ d here _ => (no_upload i request d here).elim⟩
  · rw [opening]; exact nofun
  · rw [List.eq_nil_iff_forall_not_mem.mpr no_job]; exact List.nodup_nil

theorem Ledger.opening {db : Database} (opening : db.documents = []) : Ledger db := by
  have no_job (job : IngestionJob) (member : job ∈ db.ingestion_jobs) : False := by
    obtain ⟨document,present,_⟩ := db.keys.job_document job member
    rw [opening] at present
    cases present
  exact ⟨fun job member => (no_job job member).elim,fun job member => (no_job job member).elim⟩

theorem runs_named (path : Runs (Step deployment) start labels c) (named : Named start) : Named c :=
  path.preserves named fun _ _ _ named moved => named.step moved

-- Every step that adds a job row finds its document's rows closed and older.
def Settled (c : Config) (label : Nat × TaskQueue.Label) : Prop := Orderly c.shared.stores.db (c.locals label.1) label.2

theorem runs_ledger (path : Runs (within Settled (Step deployment)) start labels c) (named : Named start)
    (ledger : Ledger start.shared.stores.db) : Ledger c.shared.stores.db := by
  refine path.history (fun _ c => Ledger c.shared.stores.db) ledger ?_
  intro labels s label next prior ledger moved
  have before := runs_named prior.unguarded named
  have acted := (Interleave.step_parts moved.2).1
  refine ledger.write (act_write acted) moved.1 fun request d here => ?_
  exact (before.saved label.1 request d here).2

theorem runs_shadowed (path : Runs (Step deployment) start labels c) (named : Named start)
    (shadowed : Shadowed start.shared.stores.db.ingestion_jobs job) : Shadowed c.shared.stores.db.ingestion_jobs job := by
  refine path.history (fun _ c => Shadowed c.shared.stores.db.ingestion_jobs job) shadowed ?_
  intro labels s label next prior shadowed moved
  exact shadowed.write (runs_named prior named).unique (act_write (Interleave.step_parts moved).1)

-- Job rows are closed with their document as long as none is added beside an
-- open one; a row added so leaves an open row behind for good.
theorem jobs_closed (deployment : Deployment) (start : Config) (opening : start.shared.stores.db.documents = [])
    (fresh : ∀ i, (start.locals i).fresh = true) :
    (∀ labels c, Runs (within Settled (Step deployment)) start labels c →
      ∀ document ∈ c.shared.stores.db.documents, finished document.status = true → Idle c document.id →
        ∀ job ∈ c.shared.stores.db.ingestion_jobs, job.document_id = document.id → closed job = true) ∧
    ∀ labels b label next, Runs (Step deployment) start labels b → Step deployment b label next → ¬ Settled b label →
      ∃ job, closed job = false ∧ ∀ later c, Runs (Step deployment) next later c → job ∈ c.shared.stores.db.ingestion_jobs := by
  have named := Named.opening opening fresh
  constructor
  · intro labels c path document stored done _ job member home
    have ledger := runs_ledger path named (.opening opening)
    by_contra opened
    have waiting := ledger.waiting job member (Bool.eq_false_iff.mpr opened) document stored home.symm
    rw [done] at waiting
    cases waiting
  · intro labels b label next before moved disorder
    obtain ⟨job,shadowed⟩ := shadowed_of_disorder (act_write (Interleave.step_parts moved).1) disorder
    have after := (runs_named before named).step moved
    exact ⟨job,shadowed.1,fun later c path => (runs_shadowed path after shadowed).mem⟩

-- One upload and one worker.
def factory : Config where
  shared := ⟨Site.vacant,[]⟩
  locals := fun
    | 0 => .upload (.requested Site.memo)
    | _ => .worker

theorem factory_fresh (i : Nat) : (factory.locals i).fresh = true := by
  unfold factory; dsimp only; split <;> rfl

def letter : Task := ⟨"task".toList,⟨10⟩,0⟩

def acceptSteps : List (Nat × TaskQueue.Label) :=
  [(0,.upload (.save ⟨10⟩)),(0,.upload (.insert ⟨11⟩ 0)),(0,.enqueue "task".toList .ok),(1,.take letter)]

def successSteps : List (Nat × TaskQueue.Label) :=
  [(1,.execute (.load ⟨14⟩ 1)),(1,.execute (.prepare Site.providers [(⟨12⟩,⟨13⟩)])),(1,.execute (.clear .ok)),
   (1,.execute (.index .ok)),(1,.execute (.persist 2)),(1,.execute .invalidate),(1,.acknowledge)]

def outageSteps : List (Nat × TaskQueue.Label) :=
  [(1,.execute (.loadFails ⟨false,"database unavailable".toList⟩)),(1,.giveUp 5)]

-- Nothing is left to do for any document.
def atRest (c : Config) : Bool :=
  c.shared.broker.isEmpty && (match c.locals 0,c.locals 1 with
    | .accepted _,.worker => true
    | _,_ => false)

theorem atRest_idle (path : Runs (Step deployment) factory labels c) (two : ∀ label ∈ labels, label.1 < 2)
    (rest : atRest c = true) (d : Uuid) : Idle c d := by
  obtain ⟨empty,slots⟩ := Bool.and_eq_true_iff.mp rest
  refine ⟨fun task member => ?_,fun i task phase here => ?_⟩
  · rw [List.isEmpty_iff.mp empty] at member
    cases member
  · match i with
    | 0 => rw [here] at slots; cases slots
    | 1 =>
      rw [here] at slots
      split at slots
      · rename_i clash; cases clash
      · cases slots
    | n + 2 =>
      have untouched := Interleave.Runs.untouched (i := n + 2) path fun label member => by have := two label member; omega
      rw [untouched] at here
      cases here

-- The row of the upload stays pending beside the closed row of its execution.
theorem upload_job_pending : ¬ ∀ (deployment : Deployment) (start c : Config) (labels : List (Nat × TaskQueue.Label)),
    start.shared.stores.db.documents = [] → (∀ i, (start.locals i).fresh = true) → Runs (Step deployment) start labels c →
    ∀ document ∈ c.shared.stores.db.documents, finished document.status = true → Idle c document.id →
      ∀ job ∈ c.shared.stores.db.ingestion_jobs, job.document_id = document.id → closed job = true := by
  intro all
  obtain ⟨c,path,passed⟩ := run_any (Interleave.advance fun _ => act Site.plain) factory (acceptSteps ++ successSteps)
    (fun c => atRest c && decide (∃ document ∈ c.shared.stores.db.documents, finished document.status = true ∧
      ∃ job ∈ c.shared.stores.db.ingestion_jobs, job.document_id = document.id ∧ closed job = false)) (by decide +kernel)
  obtain ⟨rest,standing⟩ := Bool.and_eq_true_iff.mp passed
  obtain ⟨document,stored,done,job,member,home,opened⟩ := of_decide_eq_true standing
  have idle := atRest_idle path (by decide) rest document.id
  have shut := all Site.plain factory c _ rfl factory_fresh path document stored done idle job member home
  rw [opened] at shut
  cases shut

def settled (c : Config) (label : Nat × TaskQueue.Label) : Bool :=
  match TaskQueue.inserts c.shared.stores.db (c.locals label.1) label.2 with
  | some job => decide (∀ other ∈ c.shared.stores.db.ingestion_jobs, other.document_id = job.document_id →
      closed other = true ∧ other.created_at < job.created_at)
  | none => true

theorem settled_sound (passed : settled c label = true) : Settled c label := by
  intro job inserted
  unfold settled at passed
  rw [inserted] at passed
  exact of_decide_eq_true passed

theorem outage_closed : ∃ c, Runs (within Settled (Step Site.plain)) factory (acceptSteps ++ outageSteps) c ∧
    ∃ document ∈ c.shared.stores.db.documents, finished document.status = true ∧
      ∀ job ∈ c.shared.stores.db.ingestion_jobs, job.document_id = document.id → closed job = true := by
  obtain ⟨c,path,passed⟩ := run_within (Interleave.advance fun _ => act Site.plain) factory (acceptSteps ++ outageSteps) settled Settled
    (fun c => atRest c && decide (∃ document ∈ c.shared.stores.db.documents, finished document.status = true)) (by decide +kernel)
    fun _ _ _ _ passed => settled_sound passed
  obtain ⟨rest,standing⟩ := Bool.and_eq_true_iff.mp passed
  obtain ⟨document,stored,done⟩ := of_decide_eq_true standing
  have idle := atRest_idle path.unguarded (by decide) rest document.id
  exact ⟨c,path,document,stored,done,(jobs_closed Site.plain factory rfl factory_fresh).1 _ c path document stored done idle⟩

end RagForge.JobLedger
