import RagForge.Commits

namespace RagForge.TaskQueue
open RagForge Transition

-- One message of `process_document_task`. Its id stays the same when Celery
-- publishes it again.
structure Task where
  id : Str
  document_id : Uuid
  retries : Nat
  deriving DecidableEq

def maxRetries : Nat := 3

-- The stores beside the broker, which also keeps the messages that wait for
-- their countdown.
structure Plant where
  stores : Stores
  broker : List Task

inductive Slot where
  | upload (phase : Documents.UploadPhase)
  | reingest (phase : Documents.ReingestPhase)
  | accepted (document_id : Uuid)
  | refused (document_id : Uuid) (error : Failure)
  | worker
  | executing (task : Task) (phase : Ingestion.Phase)

inductive Label where
  | upload (label : Documents.UploadLabel)
  | reingest (label : Documents.ReingestLabel)
  | enqueue (id : Str) (reply : Reply)
  | take (task : Task)
  | execute (label : Ingestion.Label)
  | acknowledge
  | retry
  | giveUp (now : Nat)
  | giveUpFails
  | redeliver

def Plant.send (s : Plant) (task : Task) : Plant := {s with broker := s.broker ++ [task]}

-- `enqueue_ingestion` after the commit, and the answer of the endpoint.
def enqueueIngestion (s : Plant) (document_id : Uuid) (id : Str) (reply : Reply) : Plant × Slot :=
  let s' := if reply.landed then s.send ⟨id,document_id,0⟩ else s
  match reply with
  | .ok => (s',.accepted document_id)
  | .failed error _ => (s',.refused document_id error)

theorem enqueue_parts {id : Str} (sent : enqueueIngestion s document_id id reply = (s',slot')) :
    s'.stores = s.stores ∧ ∀ phase, slot' ≠ .upload phase := by
  unfold enqueueIngestion at sent
  cases reply with
  | ok => cases sent; exact ⟨rfl,nofun⟩
  | failed error landed => cases landed <;> cases sent <;> exact ⟨rfl,nofun⟩

-- `autoretry_for=(UpstreamProviderError,)` with retries left.
def retried (task : Task) (error : Failure) : Bool := error.upstream && task.retries < maxRetries

-- Uploads, re-ingestions and workers. A raised error is retried or handed to
-- `on_failure`; a message whose worker died comes back (`task_acks_late`).
def act (deployment : Deployment) (s : Plant) : Slot → Label → Option (Plant × Slot)
  | .upload phase,.upload label =>
    (Documents.upload deployment s.stores phase label).map fun out => ({s with stores := out.1},.upload out.2)
  | .reingest phase,.reingest label =>
    (Documents.reingest s.stores phase label).map fun out => ({s with stores := out.1},.reingest out.2)
  | .upload (.uploaded _ document_id),.enqueue id reply => some (enqueueIngestion s document_id id reply)
  | .reingest (.queued document_id),.enqueue id reply => some (enqueueIngestion s document_id id reply)
  | .worker,.take task =>
    if task ∈ s.broker then
      some ({s with broker := s.broker.erase task},.executing task (.received task.document_id (some task.id)))
    else none
  | .executing task phase,.execute label =>
    (Ingestion.act deployment s.stores phase label).map fun out => ({s with stores := out.1},.executing task out.2)
  | .executing _ (.ended _ outcome),.acknowledge => if outcome.returned then some (s,.worker) else none
  | .executing task (.ended _ (.raised error)),.retry =>
    if retried task error then some (s.send {task with retries := task.retries + 1},.worker) else none
  | .executing task (.ended _ (.raised error)),.giveUp now =>
    if retried task error then none
    else some ({s with stores := {s.stores with db := Ingestion.markFailed s.stores.db task.document_id error.message now}},.worker)
  | .executing task (.ended _ (.raised error)),.giveUpFails => if retried task error then none else some (s,.worker)
  | .executing task (.ended _ .killed),.redeliver => some (s.send task,.worker)
  | _,_ => none

abbrev Config := Interleave.Config Plant Slot
abbrev Step (deployment : Deployment) : Config → Nat × Label → Config → Prop := Interleave.Step fun _ => act deployment

-- Nothing of a request has been done yet and no worker holds a message.
def Slot.fresh : Slot → Bool
  | .upload (.requested _) => true
  | .reingest (.requested _ _) => true
  | .worker => true
  | _ => false

-- No message of the document is queued, waits for a retry or is in the hands
-- of a worker.
def Idle (c : Config) (d : Uuid) : Prop :=
  (∀ task ∈ c.shared.broker, task.document_id ≠ d) ∧ ∀ i task phase, c.locals i = .executing task phase → task.document_id ≠ d

-- The job row a step adds.
def inserts (db : Database) : Slot → Label → Option IngestionJob
  | .upload phase,.upload label => Commits.inserts db (.upload phase) (.upload label)
  | .reingest phase,.reingest label => Commits.inserts db (.reingest phase) (.reingest label)
  | .executing _ phase,.execute label => Commits.inserts db (.ingest phase) (.ingest label)
  | _,_ => none

-- Everything a step can do. All but four kinds move messages alone.
inductive Change (deployment : Deployment) (s : Plant) : Slot → Label → Plant → Slot → Prop where
  | upload : Documents.upload deployment s.stores phase label = some (stores,phase') →
      Change deployment s (.upload phase) (.upload label) {s with stores := stores} (.upload phase')
  | reingest : Documents.reingest s.stores phase label = some (stores,phase') →
      Change deployment s (.reingest phase) (.reingest label) {s with stores := stores} (.reingest phase')
  | execute : Ingestion.act deployment s.stores phase label = some (stores,phase') →
      Change deployment s (.executing task phase) (.execute label) {s with stores := stores} (.executing task phase')
  | giveUp : retried task error = false → Change deployment s (.executing task (.ended d (.raised error))) (.giveUp now)
      {s with stores := {s.stores with db := Ingestion.markFailed s.stores.db task.document_id error.message now}} .worker
  | message : s'.stores = s.stores → (∀ phase, slot' ≠ .upload phase) → (∀ db, inserts db slot label = none) →
      Change deployment s slot label s' slot'

theorem act_change (acted : act deployment s slot label = some (s',slot')) : Change deployment s slot label s' slot' := by
  unfold act at acted
  split at acted
  · obtain ⟨⟨stores,phase'⟩,moved,equal⟩ := Option.map_eq_some_iff.mp acted
    cases equal
    exact .upload moved
  · obtain ⟨⟨stores,phase'⟩,moved,equal⟩ := Option.map_eq_some_iff.mp acted
    cases equal
    exact .reingest moved
  · obtain ⟨same,elsewhere⟩ := enqueue_parts (Option.some.inj acted)
    exact .message same elsewhere fun _ => rfl
  · obtain ⟨same,elsewhere⟩ := enqueue_parts (Option.some.inj acted)
    exact .message same elsewhere fun _ => rfl
  · split at acted <;> cases acted
    exact .message rfl nofun fun _ => rfl
  · obtain ⟨⟨stores,phase'⟩,moved,equal⟩ := Option.map_eq_some_iff.mp acted
    cases equal
    exact .execute moved
  · split at acted <;> cases acted
    exact .message rfl nofun fun _ => rfl
  · split at acted <;> cases acted
    exact .message rfl nofun fun _ => rfl
  · split at acted
    · cases acted
    · rename_i last
      cases acted
      exact .giveUp (Bool.eq_false_iff.mpr last)
  · split at acted <;> cases acted
    exact .message rfl nofun fun _ => rfl
  · cases acted
    exact .message rfl nofun fun _ => rfl
  · cases acted

-- A step draws ids and adds a job row as a step of the site, or does neither.
theorem act_site (acted : act deployment s slot label = some (s',slot')) :
    (∃ a l a', Site.act deployment 0 s.stores a l = some (s'.stores,a') ∧ ∀ db, inserts db slot label = Commits.inserts db a l) ∨
      s'.stores.issued = s.stores.issued ∧ ∀ db, inserts db slot label = none := by
  cases act_change acted with
  | @upload phase label stores phase' moved => exact .inl ⟨.upload phase,.upload label,.upload phase',by rw [Site.act,moved]; rfl,fun _ => rfl⟩
  | @reingest phase label stores phase' moved =>
    exact .inl ⟨.reingest phase,.reingest label,.reingest phase',by rw [Site.act,moved]; rfl,fun _ => rfl⟩
  | @execute phase label stores phase' task moved =>
    exact .inl ⟨.ingest phase,.ingest label,.ingest phase',by rw [Site.act,moved]; rfl,fun _ => rfl⟩
  | giveUp => exact .inr ⟨rfl,fun _ => rfl⟩
  | message same _ quiet => exact .inr ⟨congrArg Stores.issued same,quiet⟩

theorem act_issued (acted : act deployment s slot label = some (s',slot')) : s.stores.issued ⊆ s'.stores.issued := by
  rcases act_site acted with ⟨_,_,_,moved,_⟩ | ⟨same,_⟩
  · exact fun entry member => Site.act_issued moved member
  · exact same ▸ List.Subset.refl _

theorem act_inserts (acted : act deployment s slot label = some (s',slot')) (inserted : inserts s.stores.db slot label = some job) :
    job.id ∉ s.stores.issued.map Prod.fst ∧ job.id ∈ s'.stores.issued.map Prod.fst := by
  rcases act_site acted with ⟨_,_,_,moved,same⟩ | ⟨_,quiet⟩
  · exact Commits.act_inserts moved ((same _).symm.trans inserted)
  · rw [quiet] at inserted; cases inserted

end RagForge.TaskQueue
