import RagForge.TaskQueue

namespace RagForge.RequestFailures
open RagForge Transition Interleave

-- What an unfinished deletion has taken away. There is no step back: the
-- rollback of the session restores Postgres alone.
inductive Removed (deployment : Deployment) (s t : Stores) (document : Document) : Prop where
  | nothing : t.vectors = s.vectors → t.storage = s.storage → Removed deployment s t document
  | points : t.vectors = s.vectors.deleteByDocument document.id → t.storage = s.storage → Removed deployment s t document
  | file : t.vectors = s.vectors.deleteByDocument document.id →
      deployment.storage.delete s.storage document.storage_path = some t.storage → Removed deployment s t document

-- Where a deletion can be, and what it has done to the state it found.
def Along (deployment : Deployment) (s : Stores) (workspace_id document_id : Uuid) (c : Stores × Documents.DeletePhase) : Prop :=
  let found := Documents.getDocument s.db workspace_id document_id
  match c with
  | (t,.requested w d) => t = s ∧ w = workspace_id ∧ d = document_id
  | (t,.loaded document) => found = some document ∧ t = s
  | (t,.cleared document) => found = some document ∧ t.db = s.db ∧
      t.vectors = s.vectors.deleteByDocument document.id ∧ t.storage = s.storage
  | (t,.unlinked document) => found = some document ∧ t.db = s.db ∧
      t.vectors = s.vectors.deleteByDocument document.id ∧
      deployment.storage.delete s.storage document.storage_path = some t.storage
  | (t,.invalidated document _) => found = some document ∧ t.db = s.db ∧
      t.vectors = s.vectors.deleteByDocument document.id ∧
      deployment.storage.delete s.storage document.storage_path = some t.storage
  | (t,.deleted document) => found = some document ∧ t.db.toTables = s.db.deleteDocument document.id ∧
      t.vectors = s.vectors.deleteByDocument document.id ∧
      deployment.storage.delete s.storage document.storage_path = some t.storage
  | (t,.failed _ _) => t.db = s.db ∧ match found with
      | some document => Removed deployment s t document
      | none => t.vectors = s.vectors ∧ t.storage = s.storage

theorem along_step (along : Along deployment s workspace_id document_id (t,phase))
    (acted : Documents.delete deployment t phase label = some next) : Along deployment s workspace_id document_id next := by
  unfold Documents.delete at acted
  split at acted
  · obtain ⟨rfl,rfl,rfl⟩ := along
    split at acted
    · rename_i document found
      cases acted
      exact ⟨found,rfl⟩
    · rename_i absent
      cases acted
      exact ⟨rfl,by rw [absent]; exact ⟨rfl,rfl⟩⟩
  · rename_i document reply
    obtain ⟨found,rfl⟩ := along
    cases reply with
    | ok => cases acted; exact ⟨found,rfl,rfl,rfl⟩
    | failed error landed =>
      cases landed <;> cases acted
      · exact ⟨rfl,by rw [found]; exact .nothing rfl rfl⟩
      · exact ⟨rfl,by rw [found]; exact .points rfl rfl⟩
  · obtain ⟨found,db,vectors,storage⟩ := along
    split at acted
    · rename_i removed
      cases acted
      exact ⟨found,db,vectors,storage ▸ removed⟩
    · cases acted
      exact ⟨db,by rw [found]; exact .points vectors storage⟩
  · cases acted; exact along
  · obtain ⟨found,db,vectors,removed⟩ := along
    cases acted
    exact ⟨found,congrArg (fun db : Database => db.deleteDocument _) db,vectors,removed⟩
  · obtain ⟨rfl,rfl,rfl⟩ := along
    cases acted
    refine ⟨rfl,?_⟩
    split
    · exact .nothing rfl rfl
    · exact ⟨rfl,rfl⟩
  · obtain ⟨found,rfl⟩ := along
    cases acted
    exact ⟨rfl,by rw [found]; exact .nothing rfl rfl⟩
  · obtain ⟨found,db,vectors,storage⟩ := along
    cases acted
    exact ⟨db,by rw [found]; exact .points vectors storage⟩
  · obtain ⟨found,db,vectors,removed⟩ := along
    cases acted
    exact ⟨db,by rw [found]; exact .file vectors removed⟩
  · obtain ⟨found,db,vectors,removed⟩ := along
    cases acted
    exact ⟨db,by rw [found]; exact .file vectors removed⟩
  · cases acted

theorem runs_along (path : Runs (taken (solo (Documents.delete deployment))) (s,.requested workspace_id document_id) labels c) :
    Along deployment s workspace_id document_id c :=
  path.history (fun _ c => Along deployment s workspace_id document_id c) ⟨rfl,rfl,rfl⟩ fun _ _ _ _ _ along moved => along_step along moved

-- A deletion that succeeds leaves nothing of the document. One that fails
-- leaves its rows, and takes the points before the file.
theorem deletion_leaves (deployment : Deployment) (s t : Stores) (workspace_id document_id : Uuid)
    (labels : List Documents.DeleteLabel) (phase : Documents.DeletePhase)
    (path : Runs (taken (solo (Documents.delete deployment))) (s,.requested workspace_id document_id) labels (t,phase)) :
    (∀ key error, phase = .failed key error → t.db = s.db ∧
      (t.vectors = s.vectors ∧ t.storage = s.storage ∨
        ∃ document, Documents.getDocument s.db workspace_id document_id = some document ∧ Removed deployment s t document)) ∧
    ∀ document, phase = .deleted document → Documents.getDocument s.db workspace_id document_id = some document ∧
      (∀ row ∈ t.db.documents, row.id ≠ document_id) ∧ (∀ row ∈ t.db.document_chunks, row.document_id ≠ document_id) ∧
      (∀ p ∈ t.vectors, p.payload.document_id ≠ document_id.str) ∧
      ∃ file, deployment.storage.resolve document.storage_path = some file ∧ t.storage.files file = none := by
  have along := runs_along path
  constructor
  · rintro key error rfl
    obtain ⟨db,left⟩ := along
    refine ⟨db,?_⟩
    split at left
    · rename_i document found
      exact .inr ⟨document,found,left⟩
    · exact .inl left
  · rintro document rfl
    obtain ⟨found,tables,vectors,removed⟩ := along
    have same := (Documents.getDocument_parts found).2.1
    obtain ⟨file,resolved,files⟩ := LocalStorageBackend.delete_parts removed
    rw [same] at tables vectors
    refine ⟨found,?_,?_,?_,file,resolved,?_⟩
    · intro row member
      rw [congrArg Tables.documents tables] at member
      exact of_decide_eq_true (List.mem_filter.mp member).2
    · intro row member
      rw [congrArg Tables.document_chunks tables] at member
      exact of_decide_eq_true (List.mem_filter.mp member).2
    · intro p member
      rw [vectors] at member
      exact (VectorStore.mem_delete.mp member).2
    · rw [files,Function.update_self]

-- A document with its file, its row, a chunk and its point.
def stock : Stores :=
  {Site.vacant with
    db := ⟨⟨[⟨⟨1⟩,⟨2⟩⟩],[Site.memo.row ⟨10⟩],[⟨⟨12⟩,⟨10⟩,⟨1⟩,0,"Alpha".toList,1,⟨13⟩,none⟩],[],[],[],[],[]⟩,by decide⟩
    vectors := [⟨⟨13⟩,[1],⟨Uuid.str ⟨12⟩,Uuid.str ⟨10⟩,Uuid.str ⟨1⟩,Uuid.str ⟨2⟩⟩⟩]
    storage := ⟨fun _ => some Site.memo.content,fun _ => false⟩
    issued := [(⟨10⟩,⟨1⟩),(⟨12⟩,⟨1⟩),(⟨13⟩,⟨1⟩)]}

def refusedCommit : List Documents.DeleteLabel :=
  [.get,.clear .ok,.unlink,.invalidate,.fails ⟨false,"could not serialize access".toList⟩]

def failedOn : Documents.DeletePhase → Bool
  | .failed _ _ => true
  | _ => false

theorem failedOn_sound (failing : failedOn phase = true) : ∃ key error, phase = .failed key error := by
  unfold failedOn at failing
  split at failing
  · exact ⟨_,_,rfl⟩
  · cases failing

-- The rows come back with the rollback; the points do not.
theorem deletion_not_undone : ¬ ∀ (deployment : Deployment) (s t : Stores) (workspace_id document_id key : Uuid)
    (labels : List Documents.DeleteLabel) (error : Failure),
    Runs (taken (solo (Documents.delete deployment))) (s,.requested workspace_id document_id) labels (t,.failed key error) →
    t.db = s.db ∧ t.vectors = s.vectors ∧ t.storage = s.storage := by
  intro undone
  obtain ⟨⟨t,phase⟩,path,passed⟩ := run_any (solo (Documents.delete Site.plain)) (stock,.requested ⟨1⟩ ⟨10⟩) refusedCommit
    (fun c => failedOn c.2 && decide (c.1.vectors ≠ stock.vectors)) (by decide +kernel)
  obtain ⟨failing,gone⟩ := Bool.and_eq_true_iff.mp passed
  obtain ⟨key,error,rfl⟩ := failedOn_sound failing
  exact of_decide_eq_true gone (undone Site.plain stock t ⟨1⟩ ⟨10⟩ key refusedCommit error path).2.1

theorem refused_commit_leaves : ∃ t key error,
    Runs (taken (solo (Documents.delete Site.plain))) (stock,.requested ⟨1⟩ ⟨10⟩) refusedCommit (t,.failed key error) ∧
    t.db = stock.db ∧ (t.vectors = stock.vectors ∧ t.storage = stock.storage ∨
      ∃ document, Documents.getDocument stock.db ⟨1⟩ ⟨10⟩ = some document ∧ Removed Site.plain stock t document) := by
  obtain ⟨⟨t,phase⟩,path,failing⟩ := run_any (solo (Documents.delete Site.plain)) (stock,.requested ⟨1⟩ ⟨10⟩) refusedCommit
    (fun c => failedOn c.2) (by decide +kernel)
  obtain ⟨key,error,rfl⟩ := failedOn_sound failing
  exact ⟨t,key,error,path,(deletion_leaves Site.plain stock t ⟨1⟩ ⟨10⟩ refusedCommit _ path).1 key error rfl⟩

section Uploads
open TaskQueue

-- The file of an upload, whole or as far as a torn save came.
def Wrote (deployment : Deployment) (s t : Stores) (request : Documents.Upload) (document_id : Uuid) (content : Bytes) : Prop :=
  document_id ∉ s.issued.map Prod.fst ∧ deployment.storage.save s.storage (request.storageKey document_id) content = some t.storage

-- The commit of an upload.
def Committed (s t : Stores) (request : Documents.Upload) (document_id : Uuid) : Prop :=
  ∃ job_id now, t.db.toTables = {s.db.toTables with
    documents := s.db.documents ++ [request.row document_id]
    ingestion_jobs := s.db.ingestion_jobs ++ [Documents.pendingJob document_id job_id now]}

-- Where an upload can be, and what it has done to the state it found.
def Uploading (deployment : Deployment) (s : Plant) (request : Documents.Upload) (c : Plant × Slot) : Prop :=
  match c with
  | (t,.upload (.requested r)) => t = s ∧ r = request
  | (t,.upload (.saved r d)) => r = request ∧ t.broker = s.broker ∧ t.stores.db = s.stores.db ∧
      Wrote deployment s.stores t.stores request d request.content
  | (t,.upload (.uploaded r d)) => r = request ∧ t.broker = s.broker ∧ Committed s.stores t.stores request d ∧
      Wrote deployment s.stores t.stores request d request.content
  | (t,.upload (.failed _)) => t.broker = s.broker ∧ t.stores.db = s.stores.db ∧
      (t.stores.storage = s.stores.storage ∨ ∃ d content, Wrote deployment s.stores t.stores request d content)
  | (t,.accepted d) => (∃ id, t.broker = s.broker ++ [⟨id,d,0⟩]) ∧ Committed s.stores t.stores request d ∧
      Wrote deployment s.stores t.stores request d request.content
  | (t,.refused d _) => (t.broker = s.broker ∨ ∃ id, t.broker = s.broker ++ [⟨id,d,0⟩]) ∧ Committed s.stores t.stores request d ∧
      Wrote deployment s.stores t.stores request d request.content
  | _ => False

theorem upload_step (along : Uploading deployment s request (t,.upload phase))
    (acted : Documents.upload deployment t.stores phase label = some (stores,phase')) :
    Uploading deployment s request ({t with stores := stores},.upload phase') := by
  unfold Documents.upload at acted
  split at acted
  · obtain ⟨rfl,rfl⟩ := along
    split at acted
    · cases acted
      exact ⟨rfl,rfl,.inl rfl⟩
    · obtain ⟨after,drawn,rest⟩ := Option.bind_eq_some_iff.mp acted
      obtain ⟨storage,saved,equal⟩ := Option.bind_eq_some_iff.mp rest
      cases equal
      have untouched := Stores.draw_same drawn
      exact ⟨rfl,rfl,untouched.db,(Stores.draw_one drawn).1,untouched.storage ▸ saved⟩
  · obtain ⟨rfl,rfl⟩ := along
    obtain ⟨after,drawn,rest⟩ := Option.bind_eq_some_iff.mp acted
    have untouched := Stores.draw_same drawn
    split at rest
    · cases rest
      exact ⟨rfl,untouched.db,.inl untouched.storage⟩
    · rename_i document_id _ _ content
      obtain ⟨storage,saved,equal⟩ := Option.bind_eq_some_iff.mp rest
      cases equal
      exact ⟨rfl,untouched.db,.inr ⟨document_id,content,(Stores.draw_one drawn).1,untouched.storage ▸ saved⟩⟩
  · obtain ⟨rfl,rfl⟩ := along
    cases acted
    exact ⟨rfl,rfl,.inl rfl⟩
  · rename_i job_id now
    obtain ⟨rfl,broker,db,wrote⟩ := along
    obtain ⟨after,drawn,rest⟩ := Option.bind_eq_some_iff.mp acted
    obtain ⟨after',enforced,equal⟩ := Option.bind_eq_some_iff.mp rest
    cases equal
    have untouched := Stores.draw_same drawn
    refine ⟨rfl,broker,⟨job_id,now,?_⟩,wrote.1,wrote.2.trans (congrArg some untouched.storage.symm)⟩
    rw [Database.enforce_tables enforced,untouched.db,db]
  · obtain ⟨rfl,broker,db,wrote⟩ := along
    cases acted
    exact ⟨broker,db,.inr ⟨_,_,wrote⟩⟩
  · cases acted

theorem plant_step (along : Uploading deployment s request c) (moved : taken (solo (act deployment)) c label next) :
    Uploading deployment s request next := by
  obtain ⟨t,slot⟩ := c
  obtain ⟨t',slot'⟩ := next
  change act deployment t slot label = some (t',slot') at moved
  unfold act at moved
  split at moved
  · obtain ⟨out,step,equal⟩ := Option.map_eq_some_iff.mp moved
    cases equal
    exact upload_step along step
  · exact along.elim
  · rename_i request' document_id id reply
    obtain ⟨rfl,broker,committed,wrote⟩ := along
    have sent := Option.some.inj moved
    unfold enqueueIngestion at sent
    cases reply with
    | ok =>
      cases sent
      exact ⟨⟨id,congrArg (· ++ _) broker⟩,committed,wrote⟩
    | failed error landed =>
      cases landed <;> cases sent
      · exact ⟨.inl broker,committed,wrote⟩
      · exact ⟨.inr ⟨id,congrArg (· ++ _) broker⟩,committed,wrote⟩
  all_goals first | exact along.elim | cases moved

-- An upload commits its row after the file and before the message; what it has
-- done stays done whatever fails next.
theorem upload_leaves (deployment : Deployment) (s t : Plant) (request : Documents.Upload) (labels : List Label) (slot : Slot)
    (path : Runs (taken (solo (act deployment))) (s,.upload (.requested request)) labels (t,slot)) :
    (∀ error, slot = .upload (.failed error) → t.broker = s.broker ∧ t.stores.db = s.stores.db ∧
      (t.stores.storage = s.stores.storage ∨ ∃ document_id content, Wrote deployment s.stores t.stores request document_id content)) ∧
    (∀ document_id error, slot = .refused document_id error →
      (t.broker = s.broker ∨ ∃ id, t.broker = s.broker ++ [⟨id,document_id,0⟩]) ∧
        Committed s.stores t.stores request document_id ∧ Wrote deployment s.stores t.stores request document_id request.content) ∧
    ∀ document_id, slot = .accepted document_id → (∃ id, t.broker = s.broker ++ [⟨id,document_id,0⟩]) ∧
      Committed s.stores t.stores request document_id ∧ Wrote deployment s.stores t.stores request document_id request.content := by
  have along : Uploading deployment s request (t,slot) :=
    path.history (fun _ c => Uploading deployment s request c) ⟨rfl,rfl⟩ fun _ _ _ _ _ along moved => plant_step along moved
  refine ⟨?_,?_,?_⟩
  · rintro error rfl
    exact along
  · rintro document_id error rfl
    exact along
  · rintro document_id rfl
    exact along

def emptyPlant : Plant := ⟨Site.vacant,[]⟩

def brokerDown : List Label :=
  [.upload (.save ⟨10⟩),.upload (.insert ⟨11⟩ 0),.enqueue "task".toList (.failed ⟨false,"broker unreachable".toList⟩ false)]

def databaseDown : List Label :=
  [.upload (.save ⟨10⟩),.upload (.fails ⟨false,"connection closed".toList⟩)]

def refusedSlot : Slot → Bool
  | .upload (.failed _) => true
  | .refused _ _ => true
  | _ => false

-- A pending row that no task will pick up, and a file that no row names.
theorem upload_left_half_done :
    (¬ ∀ (deployment : Deployment) (s t : Plant) (request : Documents.Upload) (labels : List Label) (slot : Slot),
      Runs (taken (solo (act deployment))) (s,.upload (.requested request)) labels (t,slot) → refusedSlot slot = true →
      ∀ document ∈ t.stores.db.documents, document ∉ s.stores.db.documents → document.status = .pending →
        ∃ task ∈ t.broker, task.document_id = document.id) ∧
    ¬ ∀ (deployment : Deployment) (s t : Plant) (request : Documents.Upload) (labels : List Label) (slot : Slot),
      Runs (taken (solo (act deployment))) (s,.upload (.requested request)) labels (t,slot) → refusedSlot slot = true →
      ∀ file, t.stores.storage.files file ≠ s.stores.storage.files file →
        ∃ document ∈ t.stores.db.documents, deployment.storage.resolve document.storage_path = some file := by
  constructor
  · intro whole
    obtain ⟨⟨t,slot⟩,path,passed⟩ := run_any (solo (act Site.plain)) (emptyPlant,.upload (.requested Site.memo)) brokerDown
      (fun c => refusedSlot c.2 && decide (c.1.broker = [] ∧ ∃ document ∈ c.1.stores.db.documents,
        document ∉ emptyPlant.stores.db.documents ∧ document.status = .pending)) (by decide +kernel)
    obtain ⟨refused,left⟩ := Bool.and_eq_true_iff.mp passed
    obtain ⟨silent,document,stored,fresh,pending⟩ := of_decide_eq_true left
    obtain ⟨task,queued,_⟩ := whole Site.plain emptyPlant t Site.memo brokerDown slot path refused document stored fresh pending
    rw [silent] at queued
    cases queued
  · intro whole
    let file := lexical [] (Site.memo.storageKey ⟨10⟩)
    obtain ⟨⟨t,slot⟩,path,passed⟩ := run_any (solo (act Site.plain)) (emptyPlant,.upload (.requested Site.memo)) databaseDown
      (fun c => refusedSlot c.2 && decide (c.1.stores.db.documents = [] ∧
        c.1.stores.storage.files file ≠ emptyPlant.stores.storage.files file)) (by decide +kernel)
    obtain ⟨refused,left⟩ := Bool.and_eq_true_iff.mp passed
    obtain ⟨none_,written⟩ := of_decide_eq_true left
    obtain ⟨document,stored,_⟩ := whole Site.plain emptyPlant t Site.memo databaseDown slot path refused file written
    rw [none_] at stored
    cases stored

theorem broker_down_leaves : ∃ t slot, Runs (taken (solo (act Site.plain))) (emptyPlant,.upload (.requested Site.memo)) brokerDown (t,slot) ∧
    ∃ document_id error, slot = .refused document_id error ∧
      (t.broker = [] ∨ ∃ id, t.broker = [] ++ [⟨id,document_id,0⟩]) ∧
        Committed emptyPlant.stores t.stores Site.memo document_id ∧
        Wrote Site.plain emptyPlant.stores t.stores Site.memo document_id Site.memo.content := by
  obtain ⟨⟨t,slot⟩,path,passed⟩ := run_any (solo (act Site.plain)) (emptyPlant,.upload (.requested Site.memo)) brokerDown
    (fun c => match c.2 with
      | .refused _ _ => true
      | _ => false) (by decide +kernel)
  dsimp only at passed
  split at passed
  · rename_i document_id error
    obtain ⟨_,refused,_⟩ := upload_leaves Site.plain emptyPlant t Site.memo brokerDown _ path
    exact ⟨t,_,path,document_id,error,rfl,refused document_id error rfl⟩
  · cases passed

end Uploads

end RagForge.RequestFailures
