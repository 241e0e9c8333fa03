import RagForge.Analytics
import RagForge.Commits

namespace RagForge.UsageScopes
open RagForge Site Analytics Transition Grouping

-- The workspace a usage row is charged to belongs to the organization it is
-- charged to.
def Charged (workspaces : List Workspace) (row : UsageRecord) : Prop :=
  ∃ w ∈ workspaces, row.workspace_id = some w.id ∧ row.organization_id = w.organization_id

structure Billed (workspaces : List Workspace) (s : Stores) : Prop where
  same : s.db.workspaces = workspaces
  charged : ∀ row ∈ s.db.usage_records, Charged workspaces row

-- What an ingestion will charge.
def Owes (workspaces : List Workspace) (run : Ingestion.RunContext) : Prop :=
  ∃ w ∈ workspaces, w.id = run.workspace_id ∧ w.organization_id = run.organization_id

def Pending (workspaces : List Workspace) : Activity → Prop
  | .ingest (.loaded run) => Owes workspaces run
  | .ingest (.embedded run _) => Owes workspaces run
  | .ingest (.cleared run _) => Owes workspaces run
  | .ingest (.indexed run _) => Owes workspaces run
  | _ => True

theorem pending_failed (failed : phase.failed = true) : Pending workspaces (.ingest phase) := by
  cases phase with
  | failing => trivial
  | ended => trivial
  | _ => cases failed

theorem act_pending (billed : Billed workspaces s) (pending : Pending workspaces a) (acted : act deployment i s a label = some (s',a')) :
    Pending workspaces a' := by
  cases act_change acted with
  | ingest change =>
    cases change with
    | load loaded _ =>
      obtain ⟨document,w,_,home,rfl,_⟩ := Commits.load_tables loaded
      obtain ⟨stored,same⟩ := Database.getWorkspace_mem home
      exact ⟨w,billed.same ▸ stored,same,rfl⟩
    | prepare _ _ _ => exact pending
    | clear next =>
      rcases next with rfl | ⟨failed,_⟩
      · exact pending
      · exact pending_failed failed
    | index next =>
      rcases next with rfl | ⟨failed,_⟩
      · exact pending
      · exact pending_failed failed
    | stop failed => exact pending_failed failed
    | _ => trivial
  | _ => trivial

theorem billed_same {after : Database} (billed : Billed workspaces s) (homes : after.workspaces = s.db.workspaces)
    (rows : after.usage_records = s.db.usage_records) : Billed workspaces {s with db := after} :=
  ⟨homes.trans billed.same,fun row member => billed.charged row (rows ▸ member)⟩

theorem billed_more {after : Database} (billed : Billed workspaces s) (homes : after.workspaces = s.db.workspaces)
    (rows : after.usage_records = s.db.usage_records ++ fresh) (charged : ∀ row ∈ fresh, Charged workspaces row) :
    Billed workspaces {s with db := after} := by
  refine ⟨homes.trans billed.same,fun row member => ?_⟩
  rcases List.mem_append.mp (rows ▸ member) with old | new
  · exact billed.charged row old
  · exact charged row new

theorem act_billed (billed : Billed workspaces s) (pending : Pending workspaces a) (acted : act deployment i s a label = some (s',a')) :
    Billed workspaces s' := by
  suffices Billed workspaces {s with db := s'.db} from ⟨this.same,this.charged⟩
  generalize found : s'.db = after
  have commit := found ▸ Commits.act_commit acted
  cases commit with
  | upload enforced =>
    have tables := Database.enforce_tables enforced
    exact billed_same billed (congrArg Tables.workspaces tables :) (congrArg Tables.usage_records tables :)
  | reingest _ enforced =>
    have tables := Database.enforce_tables enforced
    exact billed_same billed (congrArg Tables.workspaces tables :) (congrArg Tables.usage_records tables :)
  | delete => exact billed_same billed rfl rfl
  | load loaded =>
    obtain ⟨_,_,_,_,_,tables⟩ := Commits.load_tables loaded
    exact billed_same billed (congrArg Tables.workspaces tables :) (congrArg Tables.usage_records tables :)
  | persist persisted =>
    have tables := Commits.persist_tables persisted
    obtain ⟨w,stored,home,owner⟩ := pending
    refine billed_more billed (congrArg Tables.workspaces tables :) (congrArg Tables.usage_records tables :) fun row member => ?_
    cases List.mem_singleton.mp member
    exact ⟨w,stored,congrArg some home.symm,owner.symm⟩
  | mark =>
    exact billed_same billed (congrArg Tables.workspaces (Commits.markFailed_tables _ _ _ _) :)
      (congrArg Tables.usage_records (Commits.markFailed_tables _ _ _ _) :)
  | open_ opened =>
    obtain ⟨_,_,_,_,tables⟩ := ChatService.openTurn_parts opened
    exact billed_same billed (congrArg Tables.workspaces tables :) (congrArg Tables.usage_records tables :)
  | save persisted =>
    obtain ⟨_,_,tables⟩ := ChatService.persistTurn_parts persisted
    refine billed_more billed (congrArg Tables.workspaces tables :) (congrArg Tables.usage_records tables :) fun row member => ?_
    obtain ⟨workspace,home,rfl⟩ := List.mem_map.mp member
    exact ⟨workspace,billed.same ▸ (Database.getWorkspace_mem (Option.mem_toList.mp home)).1,rfl,rfl⟩
  | none => exact billed_same billed rfl rfl

theorem outline (deployment : Deployment) (workspaces : List Workspace) :
    Interleave.Outline (act deployment) (Billed workspaces) fun _ _ a => Pending workspaces a where
  own _ _ _ _ _ _ billed pending acted := ⟨act_billed billed pending acted,act_pending billed pending acted⟩
  others _ _ _ _ _ _ _ _ _ _ _ theirs _ := theirs

theorem pending_fresh (fresh : a.fresh = true) : Pending workspaces a := by
  cases a with
  | ingest phase => cases phase <;> trivial
  | _ => trivial

theorem runs_billed (path : Runs (Step deployment) start labels c) (fresh : ∀ i, (start.locals i).fresh = true)
    (charged : ∀ row ∈ start.shared.db.usage_records, Charged start.shared.db.workspaces row) :
    Billed start.shared.db.workspaces c.shared :=
  ((outline deployment start.shared.db.workspaces).runs ⟨⟨rfl,charged⟩,fun i => pending_fresh (fresh i)⟩ path).1

-- What a dashboard has under one day and event type, 0 where it has no point.
def shown {M : Type} [Zero M] (measure : UsageDailyPoint → M) (summary : UsageSummary) (key : Int × UsageEventType) : M :=
  (summary.points.find? fun point => point.key = key).elim 0 measure

-- One dashboard is the sum of others, entry by entry and in the totals.
structure AddsUp (whole : UsageSummary) (parts : List UsageSummary) : Prop where
  event_count : ∀ key, shown (·.event_count) whole key = (parts.map (shown (·.event_count) · key)).sum
  tokens_input : ∀ key, shown (·.tokens_input) whole key = (parts.map (shown (·.tokens_input) · key)).sum
  tokens_output : ∀ key, shown (·.tokens_output) whole key = (parts.map (shown (·.tokens_output) · key)).sum
  cost_usd : ∀ key, shown (·.cost_usd) whole key = (parts.map (shown (·.cost_usd) · key)).sum
  total_events : whole.total_events = (parts.map (·.total_events)).sum
  total_tokens_input : whole.total_tokens_input = (parts.map (·.total_tokens_input)).sum
  total_tokens_output : whole.total_tokens_output = (parts.map (·.total_tokens_output)).sum
  total_cost_usd : whole.total_cost_usd = (parts.map (·.total_cost_usd)).sum

-- The dashboard of the rows chosen.
def summary (db : DayOrder) (rows : List LedgerRow) : UsageSummary := summarize (db.order (groupBy LedgerRow.key aggregate rows))

section sums
variable {M : Type} [AddCommMonoid M] {measure : UsageDailyPoint → M} {f : LedgerRow → M}

theorem shown_rows (db : DayOrder) (rows : List LedgerRow) (summed : ∀ key rows, measure (aggregate key rows) = (rows.map f).sum)
    (key : Int × UsageEventType) : shown measure (summary db rows) key = ((group LedgerRow.key rows key).map f).sum := by
  have apart : ((summary db rows).points.map UsageDailyPoint.key).Nodup :=
    ((db.perm _).map _).nodup_iff.mpr (groupBy_apart fun _ _ => rfl)
  unfold shown
  rw [sum_first apart]
  have one := ((db.perm (groupBy LedgerRow.key aggregate rows)).filter fun point => decide (point.key = key)).map measure
  refine one.sum_eq.trans ?_
  rw [← group,group_groupBy fun _ _ => rfl]
  split
  · rw [List.map_singleton,List.sum_singleton,summed]
  · rename_i absent
    have none_ : group LedgerRow.key rows key = [] := List.filter_eq_nil_iff.mpr fun row member same =>
      absent (List.mem_map.mpr ⟨row,member,of_decide_eq_true same⟩)
    rw [none_,List.map_nil,List.map_nil]

variable {K : Type} [DecidableEq K] {part : LedgerRow → K} {rows : List LedgerRow} {ks : List K}

theorem sum_parts (apart : ks.Nodup) (all : ∀ row ∈ rows, part row ∈ ks) (f : LedgerRow → M) :
    (rows.map f).sum = (ks.map fun k => ((group part rows k).map f).sum).sum := by
  rw [sum_groups apart,among_all all]

theorem shown_parts (db : DayOrder) (apart : ks.Nodup) (all : ∀ row ∈ rows, part row ∈ ks)
    (summed : ∀ key rows, measure (aggregate key rows) = (rows.map f).sum) (key : Int × UsageEventType) :
    shown measure (summary db rows) key = ((ks.map fun k => summary db (group part rows k)).map (shown measure · key)).sum := by
  have each (k : K) : shown measure (summary db (group part rows k)) key = ((group part (group LedgerRow.key rows key) k).map f).sum := by
    rw [shown_rows db _ summed,group_group]
  have inside : ∀ row ∈ group LedgerRow.key rows key, part row ∈ ks := fun row member => all row (List.mem_of_mem_filter member)
  rw [shown_rows db _ summed,sum_parts apart inside f,List.map_map]
  exact congrArg List.sum (List.map_congr_left fun k _ => (each k).symm)

theorem total_parts (db : DayOrder) (apart : ks.Nodup) (all : ∀ row ∈ rows, part row ∈ ks) (total : UsageSummary → M)
    (totalled : ∀ rows, total (summary db rows) = (rows.map f).sum) :
    total (summary db rows) = ((ks.map fun k => summary db (group part rows k)).map total).sum := by
  rw [totalled,sum_parts apart all f,List.map_map]
  exact congrArg List.sum (List.map_congr_left fun k _ => (totalled _).symm)

end sums

theorem adds_up {K : Type} [DecidableEq K] (part : LedgerRow → K) (ks : List K) (db : DayOrder) (rows : List LedgerRow) (apart : ks.Nodup)
    (all : ∀ row ∈ rows, part row ∈ ks) : AddsUp (summary db rows) (ks.map fun k => summary db (group part rows k)) where
  event_count := shown_parts db apart all (f := fun _ => 1) fun _ rows => by simp [aggregate]
  tokens_input := shown_parts db apart all fun _ _ => rfl
  tokens_output := shown_parts db apart all fun _ _ => rfl
  cost_usd := shown_parts db apart all fun _ _ => rfl
  total_events := total_parts db apart all (f := fun _ => 1) (·.total_events) fun rows =>
    total_exact db rows (fun _ => 1) (·.event_count) fun _ rows => by simp [aggregate]
  total_tokens_input := total_parts db apart all (·.total_tokens_input) fun rows => total_exact db rows _ (·.tokens_input) fun _ _ => rfl
  total_tokens_output := total_parts db apart all (·.total_tokens_output) fun rows => total_exact db rows _ (·.tokens_output) fun _ _ => rfl
  total_cost_usd := total_parts db apart all (·.total_cost_usd) fun rows => total_exact db rows _ (·.cost_usd) fun _ _ => rfl

theorem selected_group {ledger : List LedgerRow} {scope : Scope} {K : Type} [DecidableEq K] {part : LedgerRow → K} {k : K} (narrow : Scope)
    (covers : ∀ row, narrow.covers row = (scope.covers row && part row = k)) :
    selected ledger narrow now lookback_days = group part (selected ledger scope now lookback_days) k := by
  unfold selected group
  rw [List.filter_filter]
  refine List.filter_congr fun row _ => ?_
  rw [covers,Bool.and_comm (scope.covers row),Bool.and_left_comm]

-- Whatever has been ingested and chatted, the dashboard of an organization is
-- the sum of those of its workspaces, that of the platform the sum of those of
-- the organizations, and a workspace's has every row of the workspace.
theorem scopes_add_up (deployment : Deployment) (start c : Config) (labels : List (Nat × Label)) (path : Runs (Step deployment) start labels c)
    (fresh : ∀ i, (start.locals i).fresh = true) (keys : (start.shared.db.workspaces.map (·.id)).Nodup)
    (charged : ∀ row ∈ start.shared.db.usage_records, Charged start.shared.db.workspaces row)
    (ledger : List LedgerRow) (dated : ledger.map (·.toUsageRecord) = c.shared.db.usage_records) (db : DayOrder) (now : Int) (lookback_days : Nat) :
    let usage scope := getUsageSummary db ledger scope now lookback_days
    let workspaces := c.shared.db.workspaces
    AddsUp (usage ⟨none,none⟩) ((workspaces.map (·.organization_id)).dedup.map fun o => usage ⟨some o,none⟩) ∧
      (∀ o, AddsUp (usage ⟨some o,none⟩) ((workspaces.filter (·.organization_id = o)).map fun w => usage ⟨some o,some w.id⟩)) ∧
      ∀ w ∈ workspaces, usage ⟨some w.organization_id,some w.id⟩ = usage ⟨none,some w.id⟩ := by
  obtain ⟨same,all⟩ := runs_billed path fresh charged
  have home (row : LedgerRow) (member : row ∈ ledger) : Charged c.shared.db.workspaces row.toUsageRecord := by
    rw [same]
    exact all _ (dated ▸ List.mem_map_of_mem member)
  rw [← same] at keys
  refine ⟨?_,fun o => ?_,fun w stored => ?_⟩
  · have narrow (o : Uuid) : getUsageSummary db ledger ⟨some o,none⟩ now lookback_days =
        summary db (group (·.organization_id) (selected ledger ⟨none,none⟩ now lookback_days) o) := by
      rw [← selected_group ⟨some o,none⟩ fun row => by simp [Scope.covers]]
      rfl
    simp only [narrow]
    refine adds_up (·.organization_id) _ db _ (List.nodup_dedup _) fun row member => ?_
    obtain ⟨w,stored,_,owner⟩ := home row (List.mem_of_mem_filter member)
    exact List.mem_dedup.mpr (List.mem_map.mpr ⟨w,stored,owner.symm⟩)
  · have narrow (w : Workspace) : getUsageSummary db ledger ⟨some o,some w.id⟩ now lookback_days =
        summary db (group (·.workspace_id) (selected ledger ⟨some o,none⟩ now lookback_days) (some w.id)) := by
      rw [← selected_group ⟨some o,some w.id⟩ fun row => by simp [Scope.covers]]
      rfl
    have parts := adds_up (·.workspace_id) ((c.shared.db.workspaces.filter (·.organization_id = o)).map fun w => some w.id)
      db (selected ledger ⟨some o,none⟩ now lookback_days)
    rw [List.map_map] at parts
    simp only [narrow]
    refine parts ?_ fun row member => ?_
    · have apart : ((c.shared.db.workspaces.filter (·.organization_id = o)).map (·.id)).Nodup := keys.sublist (List.filter_sublist.map _)
      have named := apart.map (Option.some_injective _)
      rwa [List.map_map] at named
    · obtain ⟨w,stored,there,owner⟩ := home row (List.mem_of_mem_filter member)
      have chosen := (List.mem_filter.mp member).2
      have mine : row.organization_id = o := by simpa [Scope.covers] using (Bool.and_eq_true_iff.mp chosen).2
      exact List.mem_map.mpr ⟨w,List.mem_filter.mpr ⟨stored,decide_eq_true (owner.symm.trans mine)⟩,there.symm⟩
  · suffices selected ledger ⟨some w.organization_id,some w.id⟩ now lookback_days = selected ledger ⟨none,some w.id⟩ now lookback_days by
      simp only [getUsageSummary,this]
    refine List.filter_congr fun row member => ?_
    obtain ⟨w',stored',there,owner⟩ := home row member
    by_cases own : row.workspace_id = some w.id
    · have equal : w' = w := List.inj_on_of_nodup_map keys stored' stored (Option.some.inj (there.symm.trans own))
      simp [Scope.covers,own,owner,equal]
    · simp [Scope.covers,own]

-- Two organizations, the first with two workspaces; a document is ingested in
-- each of the three.
def offices : Config where
  shared := {vacant with db := ⟨⟨[⟨⟨1⟩,⟨2⟩⟩,⟨⟨3⟩,⟨2⟩⟩,⟨⟨4⟩,⟨5⟩⟩],[],[],[],[],[],[],[]⟩,by decide⟩}
  locals := fun
    | 0 => .upload (.requested memo)
    | 1 => .ingest (.received ⟨10⟩ none)
    | 2 => .upload (.requested {memo with workspace_id := ⟨3⟩})
    | 3 => .ingest (.received ⟨20⟩ none)
    | 4 => .upload (.requested {memo with workspace_id := ⟨4⟩})
    | 5 => .ingest (.received ⟨30⟩ none)
    | _ => .idle

def officeSteps : List (Nat × Label) :=
  uploadSteps 0 ⟨10⟩ ⟨11⟩ ++ ingestSteps 1 ⟨14⟩ ⟨12⟩ ⟨13⟩ ++ uploadSteps 2 ⟨20⟩ ⟨21⟩ ++ ingestSteps 3 ⟨24⟩ ⟨22⟩ ⟨23⟩ ++
    uploadSteps 4 ⟨30⟩ ⟨31⟩ ++ ingestSteps 5 ⟨34⟩ ⟨32⟩ ⟨33⟩

theorem offices_add_up : ∃ c, Runs (Step plain) offices officeSteps c ∧ c.shared.db.usage_records.length = 3 ∧
    AddsUp (getUsageSummary stableOrder (c.shared.db.usage_records.map (⟨·,5⟩)) ⟨some ⟨2⟩,none⟩ 7 30)
      ((c.shared.db.workspaces.filter (·.organization_id = ⟨2⟩)).map fun w =>
        getUsageSummary stableOrder (c.shared.db.usage_records.map (⟨·,5⟩)) ⟨some ⟨2⟩,some w.id⟩ 7 30) := by
  obtain ⟨c,path,three⟩ := run_any (Interleave.advance (act plain)) offices officeSteps
    (fun c => c.shared.db.usage_records.length == 3) (by decide +kernel)
  have fresh (i : Nat) : (offices.locals i).fresh = true := by
    unfold offices; dsimp only; split <;> rfl
  have dated : (c.shared.db.usage_records.map (LedgerRow.mk · 5)).map (·.toUsageRecord) = c.shared.db.usage_records := by
    rw [List.map_map]
    exact List.map_id _
  exact ⟨c,path,beq_iff_eq.mp three,
    (scopes_add_up plain offices c officeSteps path fresh (by decide) nofun _ dated stableOrder 7 30).2.1 ⟨2⟩⟩

end RagForge.UsageScopes
