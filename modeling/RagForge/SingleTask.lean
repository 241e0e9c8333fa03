import RagForge.Handover
import RagForge.JobLedger

namespace RagForge.SingleTask
open RagForge Transition TaskQueue
open Handover (Places Out Single)
open RagForge.JobLedger (finished known)

-- The requests that feed the queue, the workers, and deletions beside them.
inductive Slot where
  | queue (slot : TaskQueue.Slot)
  | delete (phase : Documents.DeletePhase)

inductive Label where
  | queue (label : TaskQueue.Label)
  | delete (label : Documents.DeleteLabel)

def act (deployment : Deployment) (s : Plant) : Slot → Label → Option (Plant × Slot)
  | .queue slot,.queue label => (TaskQueue.act deployment s slot label).map fun out => (out.1,.queue out.2)
  | .delete phase,.delete label =>
    (Documents.delete deployment s.stores phase label).map fun out => ({s with stores := out.1},.delete out.2)
  | _,_ => none

abbrev Config := Interleave.Config Plant Slot
abbrev Step (deployment : Deployment) : Config → Nat × Label → Config → Prop := Interleave.Step fun _ => act deployment

def Slot.fresh : Slot → Bool
  | .queue slot => slot.fresh
  | .delete (.requested _ _) => true
  | _ => false

-- The execution can still write to its document, or will be run again.
def unsettled : Ingestion.Phase → Bool
  | .persisted _ _ => false
  | .ended _ .missing => false
  | .ended _ (.completed _ _) => false
  | .ended _ (.recorded _) => false
  | _ => true

-- The document whose ingestion a request has still to order, or a worker to
-- bring to its end.
def Slot.charge : Slot → Option Uuid
  | .queue (.upload (.saved _ d)) => some d
  | .queue (.upload (.uploaded _ d)) => some d
  | .queue (.reingest (.queued d)) => some d
  | .queue (.executing task phase) => if unsettled phase then some task.document_id else none
  | _ => none

def places (c : Config) : Places Uuid := ⟨c.shared.broker.map (·.document_id),fun i => (c.locals i).charge⟩

-- A document has one task at most, and shows as pending or processing while it
-- has one.
structure OneTask (c : Config) : Prop where
  single : Single (places c)
  active : ∀ document ∈ c.shared.stores.db.documents, Out (places c) document.id → finished document.status = false

-- What is known of ids in any run.
structure Named (c : Config) : Prop where
  rows : ∀ document ∈ c.shared.stores.db.documents, known c.shared.stores document.id
  out : ∀ d, Out (places c) d → known c.shared.stores d
  executing : ∀ i task phase, c.locals i = .queue (.executing task phase) →
    phase.document_id = task.document_id ∧ known c.shared.stores task.document_id

-- The document a step gives one more task, which may have one already: by a
-- re-ingestion, or by a failure after the last commit.
def renews (db : Database) : Slot → Label → Option Uuid
  | .queue (.reingest (.requested workspace_id document_id)),.queue (.reingest (.insert _ _)) =>
    (Documents.getDocument db workspace_id document_id).map (·.id)
  | .queue (.executing _ (.persisted _ _)),.queue (.execute .invalidate) => none
  | .queue (.executing task (.persisted _ _)),.queue (.execute _) => some task.document_id
  | _,_ => none

def executes : Label → Bool
  | .queue (.execute _) => true
  | _ => false

-- It has none, and if it is to be executed again it does not count as done.
def Tidy (c : Config) (label : Nat × Label) : Prop :=
  ∀ d, renews c.shared.stores.db (c.locals label.1) label.2 = some d → ¬ Out (places c) d ∧
    (executes label.2 = true → ∀ document ∈ c.shared.stores.db.documents, document.id = d → finished document.status = false)

-- The rows a step leaves are those it found, but for the row of its charge.
def Rows (before after : Plant) (slot slot' : Slot) : Prop :=
  ∀ document ∈ after.stores.db.documents, document ∈ before.stores.db.documents ∨
    slot.charge = some document.id ∧ (slot'.charge = some document.id → finished document.status = false)

-- Everything a step does to the tasks.
inductive Move (s : Plant) : Slot → Label → Plant → Slot → Prop where
  | keep : renews s.stores.db slot label = none → s'.broker = s.broker → slot'.charge = slot.charge ∨ slot'.charge = none →
      Rows s s' slot slot' → Move s slot label s' slot'
  | draw : renews s.stores.db slot label = none → s'.broker = s.broker → slot.charge = none → slot'.charge = some d →
      ¬ known s.stores d → known s'.stores d → s'.stores.db = s.stores.db → Move s slot label s' slot'
  | again : Documents.getDocument s.stores.db workspace_id document_id = some document → s'.broker = s.broker →
      s'.stores.db.documents = (s.stores.db.setStatus document.id .pending none).documents →
      Move s (.queue (.reingest (.requested workspace_id document_id))) (.queue (.reingest (.insert job_id now))) s'
        (.queue (.reingest (.queued document.id)))
  | revive : label ≠ .invalidate → unsettled phase' = true → s' = s →
      Move s (.queue (.executing task (.persisted context batch))) (.queue (.execute label)) s' (.queue (.executing task phase'))
  | take : s.broker.Perm (task :: s'.broker) → s'.stores = s.stores →
      Move s (.queue .worker) label s' (.queue (.executing task (.received task.document_id (some task.id))))
  | send : renews s.stores.db slot label = none → s'.broker = s.broker ++ [task] → s'.stores = s.stores →
      slot.charge = some task.document_id → slot'.charge = none → Move s slot label s' slot'

theorem rows_same (same : s'.stores.db = s.stores.db) : Rows s s' slot slot' := fun _ member => .inl (same ▸ member)

theorem rows_status (charge : slot.charge = some d) (documents : s'.stores.db.documents = (s.stores.db.setStatus d status error).documents)
    (settled : slot'.charge = none ∨ finished status = false) : Rows s s' slot slot' := by
  intro document member
  rw [documents] at member
  rcases Tables.mem_setStatus_cases member with ⟨own,now⟩ | ⟨_,old⟩
  · refine .inr ⟨own ▸ charge,fun still => ?_⟩
    rcases settled with done | busy
    · rw [done] at still
      cases still
    · exact now ▸ busy
  · exact .inl old

theorem charge_executing (task : Task) (phase : Ingestion.Phase) :
    (Slot.queue (.executing task phase)).charge = some task.document_id ∨ (Slot.queue (.executing task phase)).charge = none := by
  unfold Slot.charge
  dsimp only
  split
  · exact .inl rfl
  · exact .inr rfl

theorem execute_move {s : Plant} (own : phase.document_id = task.document_id)
    (acted : Ingestion.act deployment s.stores phase label = some (stores,phase')) :
    Move s (.queue (.executing task phase)) (.queue (.execute label)) {s with stores := stores} (.queue (.executing task phase')) := by
  by_cases busy : unsettled phase = true
  · have mine : (Slot.queue (.executing task phase)).charge = some task.document_id := if_pos busy
    have charge : (Slot.queue (.executing task phase)).charge = some phase.document_id := mine.trans (congrArg some own.symm)
    have silent : renews s.stores.db (.queue (.executing task phase)) (.queue (.execute label)) = none := by
      cases phase with
      | persisted => cases busy
      | _ => rfl
    refine .keep silent rfl ((charge_executing task phase').imp (·.trans mine.symm) id) ?_
    cases Ingestion.act_change acted with
    | load loaded _ =>
      obtain ⟨_,_,_,_,_,tables⟩ := Commits.load_tables loaded
      exact rows_status charge (congrArg Tables.documents tables :) (.inr rfl)
    | prepare _ _ drawn => exact rows_same (Stores.draw_same drawn).db
    | persist persisted => exact rows_status charge (congrArg Tables.documents (Commits.persist_tables persisted) :) (.inl rfl)
    | mark => exact rows_status charge (congrArg Tables.documents (Commits.markFailed_tables _ _ _ _) :) (.inl rfl)
    | _ => exact rows_same rfl
  · cases phase with
    | persisted context batch => cases label with
      | invalidate => cases acted; exact .keep rfl rfl (.inr rfl) (rows_same rfl)
      | invalidateFails error => cases acted; exact .revive nofun rfl rfl
      | crash => cases acted; exact .revive nofun rfl rfl
      | _ => cases acted
    | ended d outcome => cases acted
    | _ => exact absurd rfl busy

-- Requests in charge of a document hand its task over, or drop it.
theorem enqueue_move {s : Plant} {key : Str} (silent : renews s.stores.db slot label = none)
    (sent : enqueueIngestion s d key reply = (s',slot')) (charge : slot.charge = some d) :
    Move s slot label s' (.queue slot') := by
  unfold enqueueIngestion at sent
  cases reply with
  | ok => cases sent; exact .send silent rfl rfl charge rfl
  | failed error landed =>
    cases landed <;> cases sent
    · exact .keep silent rfl (.inr rfl) (rows_same rfl)
    · exact .send silent rfl rfl charge rfl

theorem upload_move {s : Plant} (acted : Documents.upload deployment s.stores phase label = some (stores,phase')) :
    Move s (.queue (.upload phase)) (.queue (.upload label)) {s with stores := stores} (.queue (.upload phase')) := by
  cases Documents.upload_change acted with
  | save drawn _ => exact .draw rfl rfl rfl rfl (Stores.draw_one drawn).1 (Stores.draw_one drawn).2 (Stores.draw_same drawn).db
  | torn drawn _ => exact .keep rfl rfl (.inr rfl) (rows_same (Stores.draw_same drawn).db)
  | @insert _ _ _ _ document_id _ _ enforced =>
    refine .keep rfl rfl (.inl rfl) fun document member => ?_
    have documents := congrArg Tables.documents (Database.enforce_tables enforced)
    rw [documents] at member
    rcases List.mem_append.mp member with old | new
    · exact .inl old
    · cases List.mem_singleton.mp new
      exact .inr ⟨rfl,fun _ => rfl⟩
  | stop => exact .keep rfl rfl (.inr rfl) (rows_same rfl)

theorem reingest_move {s : Plant} (acted : Documents.reingest s.stores phase label = some (stores,phase')) :
    Move s (.queue (.reingest phase)) (.queue (.reingest label)) {s with stores := stores} (.queue (.reingest phase')) := by
  unfold Documents.reingest at acted
  split at acted
  · split at acted
    · rename_i missing
      cases acted
      exact .keep (by rw [renews,missing]; rfl) rfl (.inr rfl) (rows_same rfl)
    · rename_i document found
      obtain ⟨after,drawn,rest⟩ := Option.bind_eq_some_iff.mp acted
      obtain ⟨db,enforced,equal⟩ := Option.bind_eq_some_iff.mp rest
      cases equal
      have documents := congrArg Tables.documents (Database.enforce_tables enforced)
      rw [(Stores.draw_same drawn).db] at documents
      exact .again found rfl documents
  · cases acted; exact .keep rfl rfl (.inr rfl) (rows_same rfl)
  · cases acted

theorem delete_move {s : Plant} (acted : Documents.delete deployment s.stores phase label = some (stores,phase')) :
    Move s (.delete phase) (.delete label) {s with stores := stores} (.delete phase') := by
  refine .keep rfl rfl (.inr rfl) fun document member => .inl ?_
  cases Documents.delete_change acted with
  | commit => exact List.mem_of_mem_filter member
  | _ => exact member

theorem act_move (executing : ∀ task phase, slot = .queue (.executing task phase) → phase.document_id = task.document_id)
    (acted : act deployment s slot label = some (s',slot')) : Move s slot label s' slot' := by
  unfold act at acted
  split at acted
  · obtain ⟨⟨after,next⟩,moved,equal⟩ := Option.map_eq_some_iff.mp acted
    cases equal
    unfold TaskQueue.act at moved
    split at moved
    · obtain ⟨out,stepped,equal⟩ := Option.map_eq_some_iff.mp moved
      cases equal
      exact upload_move stepped
    · obtain ⟨out,stepped,equal⟩ := Option.map_eq_some_iff.mp moved
      cases equal
      exact reingest_move stepped
    · exact enqueue_move rfl (Option.some.inj moved) rfl
    · exact enqueue_move rfl (Option.some.inj moved) rfl
    · split at moved
      · rename_i waiting
        cases moved
        exact .take (List.perm_cons_erase waiting) rfl
      · cases moved
    · obtain ⟨out,stepped,equal⟩ := Option.map_eq_some_iff.mp moved
      cases equal
      exact execute_move (executing _ _ rfl) stepped
    · split at moved
      · cases moved; exact .keep rfl rfl (.inr rfl) (rows_same rfl)
      · cases moved
    · split at moved
      · cases moved; exact .send rfl rfl rfl rfl rfl
      · cases moved
    · split at moved
      · cases moved
      · cases moved
        exact .keep rfl rfl (.inr rfl) (rows_status rfl (congrArg Tables.documents (Commits.markFailed_tables _ _ _ _) :) (.inl rfl))
    · split at moved
      · cases moved
      · cases moved; exact .keep rfl rfl (.inr rfl) (rows_same rfl)
    · cases moved; exact .send rfl rfl rfl rfl rfl
    · cases moved
  · obtain ⟨out,stepped,equal⟩ := Option.map_eq_some_iff.mp acted
    cases equal
    exact delete_move stepped
  · cases acted

theorem act_issued (acted : act deployment s slot label = some (s',slot')) : s.stores.issued ⊆ s'.stores.issued := by
  unfold act at acted
  split at acted
  · obtain ⟨out,moved,equal⟩ := Option.map_eq_some_iff.mp acted
    cases equal
    exact TaskQueue.act_issued moved
  · obtain ⟨⟨stores,next⟩,moved,equal⟩ := Option.map_eq_some_iff.mp acted
    cases equal
    cases Documents.delete_change moved <;> exact List.Subset.refl _
  · cases acted

-- A worker's task comes from the queue, and its execution stays with it.
theorem act_executing (acted : act deployment s slot label = some (s',.queue (.executing task phase'))) :
    (∃ phase, slot = .queue (.executing task phase) ∧ phase'.document_id = phase.document_id) ∨
      task ∈ s.broker ∧ phase'.document_id = task.document_id := by
  unfold act at acted
  split at acted
  · obtain ⟨⟨after,next⟩,moved,equal⟩ := Option.map_eq_some_iff.mp acted
    cases equal
    have enqueued {t : Plant} {reply : Reply} {key : Str} {d : Uuid} (sent : enqueueIngestion s d key reply = (t,.executing task phase')) : False := by
      unfold enqueueIngestion at sent
      cases reply <;> cases sent
    unfold TaskQueue.act at moved
    split at moved
    · obtain ⟨out,_,equal⟩ := Option.map_eq_some_iff.mp moved
      cases equal
    · obtain ⟨out,_,equal⟩ := Option.map_eq_some_iff.mp moved
      cases equal
    · exact (enqueued (Option.some.inj moved)).elim
    · exact (enqueued (Option.some.inj moved)).elim
    · split at moved
      · rename_i waiting
        cases moved
        exact .inr ⟨waiting,rfl⟩
      · cases moved
    · obtain ⟨out,stepped,equal⟩ := Option.map_eq_some_iff.mp moved
      cases equal
      exact .inl ⟨_,rfl,Ingestion.act_document_id stepped⟩
    all_goals first | (split at moved <;> cases moved) | cases moved
  · obtain ⟨out,moved,equal⟩ := Option.map_eq_some_iff.mp acted
    cases equal
  · cases acted

theorem step_move (named : Named c) (moved : Step deployment c (i,label) next) :
    Move c.shared (c.locals i) label next.shared (next.locals i) ∧ ∀ j, j ≠ i → (places next).hands j = (places c).hands j := by
  obtain ⟨acted,same⟩ := Interleave.step_parts moved
  exact ⟨act_move (fun task phase here => (named.executing _ task phase here).1) acted,fun j other => congrArg Slot.charge (same j other)⟩

theorem Named.step (named : Named c) (moved : Step deployment c label next) : Named next := by
  obtain ⟨i,label⟩ := label
  obtain ⟨acted,same⟩ := Interleave.step_parts moved
  obtain ⟨move,others⟩ := step_move named moved
  dsimp only at acted same
  have grows {key : Uuid} (old : known c.shared.stores key) : known next.shared.stores key := JobLedger.known_grows (act_issued acted) old
  generalize before : c.locals i = slot at move
  generalize after : next.locals i = slot' at move
  have hand : (places c).hands i = slot.charge := congrArg Slot.charge before
  have hand' : (places next).hands i = slot'.charge := congrArg Slot.charge after
  have executing (j : Nat) (task : Task) (phase : Ingestion.Phase) (here : next.locals j = .queue (.executing task phase)) :
      phase.document_id = task.document_id ∧ known next.shared.stores task.document_id := by
    by_cases own : j = i
    · subst own
      rw [here] at acted
      rcases act_executing acted with ⟨earlier,there,stays⟩ | ⟨waiting,fresh⟩
      · obtain ⟨owned,drawn⟩ := named.executing _ task earlier there
        exact ⟨stays.trans owned,grows drawn⟩
      · exact ⟨fresh,grows (named.out _ (.inl (List.mem_map_of_mem waiting)))⟩
    · obtain ⟨owned,drawn⟩ := named.executing j task phase (same j own ▸ here)
      exact ⟨owned,grows drawn⟩
  have stored {document : Document} (member : document ∈ c.shared.stores.db.documents) : known next.shared.stores document.id :=
    grows (named.rows document member)
  cases move with
  | keep _ broker charge rows =>
    have queue : (places next).queue = (places c).queue := congrArg (List.map Task.document_id) broker
    have less := charge.imp (fun kept => hand'.trans (kept.trans hand.symm)) (fun gone => hand'.trans gone)
    refine ⟨fun document member => ?_,fun d out => grows (named.out d (Handover.out_keep others queue less out)),executing⟩
    rcases rows document member with old | ⟨mine,_⟩
    · exact stored old
    · exact grows (named.out _ (.inr ⟨i,hand.trans mine⟩))
  | draw _ broker empty gained _ drawn db =>
    have queue : (places next).queue = (places c).queue := congrArg (List.map Task.document_id) broker
    refine ⟨fun document member => stored (db ▸ member),fun d out => ?_,executing⟩
    rcases Handover.out_gain others queue (hand'.trans gained) out with old | rfl
    · exact grows (named.out d old)
    · exact drawn
  | again found broker documents =>
    have queue : (places next).queue = (places c).queue := congrArg (List.map Task.document_id) broker
    have home := stored (Documents.getDocument_parts found).1
    refine ⟨fun document member => ?_,fun d out => ?_,executing⟩
    · rw [documents] at member
      obtain ⟨old,present,key,_⟩ := Tables.mem_setStatus member
      exact key ▸ stored present
    · rcases Handover.out_gain others queue hand' out with old | rfl
      · exact grows (named.out d old)
      · exact home
  | @revive _ phase' _ task _ _ other busy plant =>
    have queue : (places next).queue = (places c).queue := congrArg (fun s => s.broker.map Task.document_id) plant
    have gained : (places next).hands i = some task.document_id := hand'.trans (if_pos busy)
    refine ⟨fun document member => stored (plant ▸ member),fun d out => ?_,executing⟩
    rcases Handover.out_gain others queue gained out with old | rfl
    · exact grows (named.out d old)
    · exact grows (named.executing _ task _ before).2
  | take broker stores =>
    have queue := broker.map Task.document_id
    refine ⟨fun document member => stored (stores ▸ member),fun d out => ?_,executing⟩
    exact grows (named.out d (Handover.out_take others queue hand' out))
  | send _ broker stores held sent =>
    have queue : (places next).queue = (places c).queue ++ [_] := (congrArg (List.map Task.document_id) broker).trans List.map_append
    refine ⟨fun document member => stored (stores ▸ member),fun d out => ?_,executing⟩
    exact grows (named.out d (Handover.out_send others queue (hand.trans held) (hand'.trans sent) out))

-- A step keeps every document at one task exactly if it is tidy.
theorem one_task_step (named : Named c) (one : OneTask c) (moved : Step deployment c label next) : OneTask next ↔ Tidy c label := by
  obtain ⟨i,label⟩ := label
  obtain ⟨move,others⟩ := step_move named moved
  unfold Tidy
  dsimp only
  generalize before : c.locals i = slot at move
  generalize after : next.locals i = slot' at move
  have hand : (places c).hands i = slot.charge := congrArg Slot.charge before
  have hand' : (places next).hands i = slot'.charge := congrArg Slot.charge after
  have lists (broker : next.shared.broker = c.shared.broker) : (places next).queue = (places c).queue := congrArg (List.map Task.document_id) broker
  cases move with
  | keep silent broker charge rows =>
    have queue := lists broker
    have less := charge.imp (fun kept => hand'.trans (kept.trans hand.symm)) (fun gone => hand'.trans gone)
    refine iff_of_true ⟨one.single.keep others queue less,fun document member out => ?_⟩ fun d renewed => ?_
    · have earlier := Handover.out_keep others queue less out
      rcases rows document member with old | ⟨mine,busy⟩
      · exact one.active document old earlier
      · exact busy (hand'.symm.trans (Handover.still_held others one.single queue (hand.trans mine) out))
    · rw [silent] at renewed
      cases renewed
  | draw silent broker empty gained new _ db =>
    have queue := lists broker
    have single := Handover.single_gain_iff others one.single queue (hand.trans empty) (hand'.trans gained)
    refine iff_of_true ⟨single.mpr fun out => new (named.out _ out),fun document member out => ?_⟩ fun d renewed => ?_
    · rw [db] at member
      rcases Handover.out_gain others queue (hand'.trans gained) out with old | same
      · exact one.active document member old
      · exact absurd (same ▸ named.rows document member) new
    · rw [silent] at renewed
      cases renewed
  | @again workspace_id document_id document _ _ _ found broker documents =>
    have queue := lists broker
    have renewed (job_id : Uuid) (now : Nat) : renews c.shared.stores.db (.queue (.reingest (.requested workspace_id document_id)))
        (.queue (.reingest (.insert job_id now))) = some document.id := by rw [renews,found]; rfl
    have single := Handover.single_gain_iff others one.single queue hand hand'
    constructor
    · intro kept d same
      cases (renewed _ _).symm.trans same
      exact ⟨single.mp kept.single,nofun⟩
    · intro tidy
      refine ⟨single.mpr (tidy _ (renewed _ _)).1,fun row member out => ?_⟩
      rw [documents] at member
      rcases Tables.mem_setStatus_cases member with ⟨_,pending⟩ | ⟨apart,old⟩
      · rw [pending]; rfl
      · rcases Handover.out_gain others queue hand' out with earlier | same
        · exact one.active row old earlier
        · exact absurd same apart
  | @revive label phase' _ task context batch other busy plant =>
    have queue := lists (congrArg Plant.broker plant)
    have gained : (places next).hands i = some task.document_id := hand'.trans (if_pos busy)
    have renewed : renews c.shared.stores.db (.queue (.executing task (.persisted context batch))) (.queue (.execute label)) =
        some task.document_id := by
      cases label with
      | invalidate => exact absurd rfl other
      | _ => rfl
    have single := Handover.single_gain_iff others one.single queue hand gained
    constructor
    · intro kept d same
      cases renewed.symm.trans same
      refine ⟨single.mp kept.single,fun _ document member own => kept.active document (plant ▸ member) (.inr ⟨i,own ▸ gained⟩)⟩
    · intro tidy
      obtain ⟨free,open_⟩ := tidy _ renewed
      refine ⟨single.mpr free,fun row member out => ?_⟩
      rw [plant] at member
      rcases Handover.out_gain others queue gained out with earlier | same
      · exact one.active row member earlier
      · exact open_ rfl row member same
  | take broker stores =>
    have queue := broker.map Task.document_id
    refine iff_of_true ⟨one.single.take others queue hand',fun document member out => ?_⟩ fun d renewed => nomatch renewed
    exact one.active document (stores ▸ member) (Handover.out_take others queue hand' out)
  | send silent broker stores held sent =>
    have queue : (places next).queue = (places c).queue ++ [_] := (congrArg (List.map Task.document_id) broker).trans List.map_append
    refine iff_of_true ⟨one.single.send others queue (hand.trans held) (hand'.trans sent),fun document member out => ?_⟩ fun d renewed => ?_
    · exact one.active document (stores ▸ member) (Handover.out_send others queue (hand.trans held) (hand'.trans sent) out)
    · rw [silent] at renewed
      cases renewed

theorem Named.opening (opening : c.shared.stores.db.documents = []) (idle : c.shared.broker = []) (fresh : ∀ i, (c.locals i).fresh = true) :
    Named c ∧ OneTask c := by
  have none_ (d : Uuid) : ¬ Out (places c) d := by
    rintro (waits | ⟨i,held⟩)
    · simp [places,idle] at waits
    · have first := fresh i
      change (c.locals i).charge = some d at held
      generalize c.locals i = slot at first held
      unfold Slot.charge at held
      split at held <;> first | cases first | cases held
  have vacant : (places c).queue = [] := congrArg (List.map Task.document_id) idle
  refine ⟨⟨by rw [opening]; exact nofun,fun d out => absurd out (none_ d),fun i task phase here => ?_⟩,⟨⟨?_,?_,?_⟩,?_⟩⟩
  · have first := fresh i
    rw [here] at first
    cases first
  · rw [vacant]; exact List.nodup_nil
  · exact fun i k held => absurd (.inr ⟨i,held⟩) (none_ k)
  · exact fun i j k held _ => absurd (.inr ⟨i,held⟩) (none_ k)
  · rw [opening]; exact nofun

theorem runs_named (path : Runs (Step deployment) start labels c) (named : Named start) : Named c :=
  path.preserves named fun _ _ _ named moved => named.step moved

-- Two workers never have the same document in hand, no message for it waits
-- meanwhile, and the document says that it is in the works, at every moment of
-- exactly those runs whose steps are tidy.
theorem one_task_iff (deployment : Deployment) (start c : Config) (labels : List (Nat × Label)) (path : Runs (Step deployment) start labels c)
    (opening : start.shared.stores.db.documents = []) (idle : start.shared.broker = []) (fresh : ∀ i, (start.locals i).fresh = true) :
    (∀ m, Passes (Step deployment) start labels c m → OneTask m) ↔ Runs (within Tidy (Step deployment)) start labels c := by
  obtain ⟨named,one⟩ := Named.opening opening idle fresh
  have exactly : (∀ m, Passes (Step deployment) start labels c m → Named m ∧ OneTask m) ↔
      Runs (within Tidy (Step deployment)) start labels c :=
    path.kept_iff _ ⟨named,one⟩ fun s label next held moved =>
      (and_iff_right (held.1.step moved)).trans (one_task_step held.1 held.2 moved)
  refine Iff.trans ⟨fun all m passed => ⟨?_,all m passed⟩,fun all m passed => (all m passed).2⟩ exactly
  obtain ⟨_,_,_,before,_⟩ := passed
  exact runs_named before named

-- An upload whose document is sent for re-ingestion while its task still waits.
def hurried : Config where
  shared := ⟨Site.vacant,[]⟩
  locals := fun
    | 0 => .queue (.upload (.requested Site.memo))
    | 1 => .queue (.reingest (.requested ⟨1⟩ ⟨10⟩))
    | _ => .queue .worker

def hurriedSteps : List (Nat × Label) :=
  [(0,.queue (.upload (.save ⟨10⟩))),(0,.queue (.upload (.insert ⟨11⟩ 0))),(0,.queue (.enqueue "task".toList .ok)),
   (1,.queue (.reingest (.insert ⟨12⟩ 1)))]

theorem hurried_untidy : ∃ c, Runs (Step Site.plain) hurried hurriedSteps c ∧ ¬ Runs (within Tidy (Step Site.plain)) hurried hurriedSteps c := by
  obtain ⟨c,path,both⟩ := run_any (Interleave.advance fun _ => act Site.plain) hurried hurriedSteps
    (fun c => (c.shared.broker.map (·.document_id)).contains ⟨10⟩ && (c.locals 1).charge == some ⟨10⟩) (by decide +kernel)
  have fresh (i : Nat) : (hurried.locals i).fresh = true := by
    unfold hurried; dsimp only; split <;> rfl
  obtain ⟨waits,held⟩ := Bool.and_eq_true_iff.mp both
  refine ⟨c,path,fun tidy => ?_⟩
  have one := (one_task_iff Site.plain hurried c hurriedSteps path rfl rfl fresh).mpr tidy c (Passes.here path)
  exact one.single.apart 1 ⟨10⟩ (beq_iff_eq.mp held) (List.contains_iff_mem.mp waits)

end RagForge.SingleTask
