import RagForge.Ownership

namespace RagForge.Offboarding
open RagForge Directory MemberRequests Ownership Transition
open RagForge.Endpoints (WorkspaceRole)

theorem find?_of_nodup {rows : List α} {key : α → κ} [DecidableEq κ] (distinct : (rows.map key).Nodup) (k : κ) :
    rows.find? (key · = k) = some row ↔ row ∈ rows ∧ key row = k := by
  constructor
  · exact fun found => ⟨List.mem_of_find?_eq_some found,by simpa using List.find?_some found⟩
  · rintro ⟨member,same⟩
    cases found : rows.find? (key · = k) with
    | none => exact absurd (decide_eq_true same) (List.find?_eq_none.mp found row member)
    | some other =>
      have there : key other = k := by simpa using List.find?_some found
      exact congrArg some (List.inj_on_of_nodup_map distinct (List.mem_of_find?_eq_some found) member (there.trans same.symm))

-- The membership a guard finds is the one row of the user in the workspace.
theorem getWorkspaceMembership_iff {d : Directory} : d.getWorkspaceMembership workspace_id user_id = some row ↔
    row ∈ d.workspace_members ∧ row.workspace_id = workspace_id ∧ row.user_id = user_id := by
  have keyed : _ ↔ row ∈ d.workspace_members ∧ _ := find?_of_nodup d.constraints.uq_workspace_member (workspace_id,user_id)
  simp only [Prod.mk.injEq] at keyed
  exact keyed

theorem getMembership_none {d : Directory} : d.getMembership organization_id user_id = none ↔
    ∀ row ∈ d.organization_members, ¬ (row.organization_id = organization_id ∧ row.user_id = user_id) := by
  unfold getMembership
  simp only [List.find?_eq_none,decide_eq_true_eq]

theorem requireWorkspaceRole_iff {d : Directory} : d.requireWorkspaceRole workspace_id user_id minimumRole = some row ↔
    row ∈ d.workspace_members ∧ row.workspace_id = workspace_id ∧ row.user_id = user_id ∧
      Endpoints.roleSatisfies row.role minimumRole = true := by
  unfold requireWorkspaceRole
  rw [Option.filter_eq_some_iff,getWorkspaceMembership_iff]
  simp only [and_assoc]

def Departed (organization_id user_id : Uuid) (d : Directory) : Prop :=
  (∃ o ∈ d.organizations, o.id = organization_id) ∧ d.getMembership organization_id user_id = none

-- Only registration adds to an organization, and to a new one.
theorem departed_committed (departed : Departed organization_id user_id d) (committed : Committed d d' write) :
    Departed organization_id user_id d' := by
  obtain ⟨⟨o,stored,same⟩,absent⟩ := departed
  rw [getMembership_none] at absent
  cases committed with
  | account organizations members =>
    refine ⟨⟨o,organizations ▸ List.mem_append_left _ stored,same⟩,getMembership_none.mpr fun row member => ?_⟩
    rw [members] at member
    rcases List.mem_append.mp member with old | new
    · exact absent row old
    · rw [List.mem_singleton.mp new]
      rintro ⟨founded,_⟩
      have keys := d'.constraints.organizations_pkey
      rw [organizations,List.map_append] at keys
      exact (List.nodup_append.mp keys).2.2 o.id (List.mem_map.mpr ⟨o,stored,rfl⟩) _ (List.mem_singleton.mpr rfl)
        (same.trans founded.symm)
  | workspace organizations members =>
    exact ⟨⟨o,organizations ▸ stored,same⟩,getMembership_none.mpr fun row member => absent row (members ▸ member)⟩
  | workspaceMember organizations members =>
    exact ⟨⟨o,organizations ▸ stored,same⟩,getMembership_none.mpr fun row member => absent row (members ▸ member)⟩
  | deleteWorkspaceMember after => rw [after]; exact ⟨⟨o,stored,same⟩,getMembership_none.mpr absent⟩
  | deleteOrganizationMember after =>
    rw [after]
    exact ⟨⟨o,stored,same⟩,getMembership_none.mpr fun row member => absent row (mem_deleteOrganizationMember.mp member).1⟩
  | nothing after => rw [after]; exact ⟨⟨o,stored,same⟩,getMembership_none.mpr absent⟩

theorem departed_runs (path : Runs (Step lower) start labels c) (departed : Departed organization_id user_id start.shared) :
    Departed organization_id user_id c.shared := by
  refine path.history (fun _ c => Departed organization_id user_id c.shared) departed fun _ s label next _ before moved => ?_
  rcases step_change lower moved with ⟨same,_⟩ | ⟨write,_,_,_,_,_,committed⟩
  · rw [same]; exact before
  · exact departed_committed before (commit_parts committed)

def Leaves (row : WorkspaceMembership) (c : Config) (label : Nat × Label) : Prop :=
  ∀ gone first second third, c.locals label.1 = .writing (.deleteWorkspaceMember gone) → label.2 = .commit first second third →
    gone.id ≠ row.id

theorem member_committed (member : row ∈ d.workspace_members) (committed : Committed d d' write)
    (leaves : ∀ gone, write = .deleteWorkspaceMember gone → gone.id ≠ row.id) : row ∈ d'.workspace_members := by
  cases committed with
  | account _ _ _ workspace_members => exact workspace_members ▸ member
  | workspace _ _ _ workspace_members => exact workspace_members ▸ List.mem_append_left _ member
  | workspaceMember _ _ _ workspace_members => exact workspace_members ▸ List.mem_append_left _ member
  | deleteWorkspaceMember after =>
    rw [after]
    exact mem_deleteWorkspaceMember.mpr ⟨member,(leaves _ rfl).symm⟩
  | deleteOrganizationMember after => rw [after]; exact member
  | nothing after => rw [after]; exact member

theorem member_runs (path : Runs (within (Leaves row) (Step lower)) start labels c) (member : row ∈ start.shared.workspace_members) :
    row ∈ c.shared.workspace_members := by
  refine path.history (fun _ c => row ∈ c.shared.workspace_members) member fun _ s label next _ before moved => ?_
  rcases step_change lower moved.2 with ⟨same,_⟩ | ⟨write,first,second,third,writing,labelled,committed⟩
  · rw [same]; exact before
  · refine member_committed before (commit_parts committed) ?_
    rintro gone rfl
    exact moved.1 gone first second third writing labelled

theorem removal_next (moved : Step lower c label next) (writing : c.locals label.1 = .writing (.deleteOrganizationMember gone))
    (committing : label.2 = .commit first second third) : next.shared = c.shared.deleteOrganizationMember gone.id := by
  rcases step_change lower moved with ⟨_,refused⟩ | ⟨write,_,_,_,writing',_,committed⟩
  · cases refused _ _ _ _ writing committing
  · cases writing.symm.trans writing'
    exact (Option.some.inj committed).symm

theorem removal_departed {d : Directory} (stored : gone ∈ d.organization_members) :
    Departed gone.organization_id gone.user_id (d.deleteOrganizationMember gone.id) := by
  refine ⟨d.constraints.organization_member_organization gone stored,getMembership_none.mpr fun row left => ?_⟩
  obtain ⟨member,different⟩ := mem_deleteOrganizationMember.mp left
  rintro ⟨organization,user⟩
  have same := List.inj_on_of_nodup_map d.constraints.uq_org_member member stored (Prod.ext organization user)
  exact different (congrArg (·.id) same)

-- A removal ends the membership of the organization for good and touches no
-- membership of its workspaces; those end one by one, each by its own removal.
theorem memberships_independent (lower : Str → Str) (c next : Config) (label : Nat × Label) (gone : OrganizationMember)
    (first second third : Uuid) (moved : Step lower c label next)
    (writing : c.locals label.1 = .writing (.deleteOrganizationMember gone)) (committing : label.2 = .commit first second third)
    (stored : gone ∈ c.shared.organization_members) :
    (∀ labels later, Runs (Step lower) next labels later → later.shared.getMembership gone.organization_id gone.user_id = none) ∧
    (∀ workspace_id minimumRole, next.shared.requireWorkspaceRole workspace_id gone.user_id minimumRole =
      c.shared.requireWorkspaceRole workspace_id gone.user_id minimumRole) ∧
    ∀ workspace_id minimumRole membership,
      c.shared.requireWorkspaceRole workspace_id gone.user_id minimumRole = some membership →
      ∀ labels later, Runs (within (Leaves membership) (Step lower)) next labels later →
        later.shared.requireWorkspaceRole workspace_id gone.user_id minimumRole = some membership := by
  have after := removal_next moved writing committing
  refine ⟨fun labels later path => ?_,fun workspace_id minimumRole => ?_,fun workspace_id minimumRole membership passed labels later path => ?_⟩
  · exact (departed_runs path (after ▸ removal_departed stored)).2
  · rw [after]; rfl
  · obtain ⟨member,home,user,satisfied⟩ := requireWorkspaceRole_iff.mp passed
    refine requireWorkspaceRole_iff.mpr ⟨member_runs path ?_,home,user,satisfied⟩
    rw [after]
    exact member

def offboarded : List (Nat × Label) :=
  [(0,.read),(0,.commit ⟨1⟩ ⟨2⟩ ⟨3⟩),(2,.read),(2,.read),(2,.commit ⟨7⟩ ⟨8⟩ ⟨0⟩),(5,.read),(5,.read),(5,.read)]

-- The founder of workspace 7 is about to leave its organization.
def leaving (c : Config) : Bool :=
  match c.locals 5 with
  | .writing (.deleteOrganizationMember gone) =>
    decide (gone = ⟨⟨3⟩,⟨2⟩,⟨1⟩,OrgRole.owner.value⟩ ∧ gone ∈ c.shared.organization_members ∧
      (c.shared.workspaces.map fun w => (w.id,w.organization_id)) = [(⟨7⟩,⟨2⟩)] ∧
      c.shared.requireWorkspaceRole ⟨7⟩ ⟨1⟩ WorkspaceRole.owner.value = some ⟨⟨⟨7⟩,⟨1⟩,WorkspaceRole.owner.value⟩,⟨8⟩⟩)
  | _ => false

theorem leaving_parts (passed : leaving c = true) : ∃ gone, c.locals 5 = .writing (.deleteOrganizationMember gone) ∧
    gone.organization_id = ⟨2⟩ ∧ gone.user_id = ⟨1⟩ ∧ gone ∈ c.shared.organization_members ∧
    (c.shared.workspaces.map fun w => (w.id,w.organization_id)) = [(⟨7⟩,⟨2⟩)] ∧
    c.shared.requireWorkspaceRole ⟨7⟩ ⟨1⟩ WorkspaceRole.owner.value = some ⟨⟨⟨7⟩,⟨1⟩,WorkspaceRole.owner.value⟩,⟨8⟩⟩ := by
  unfold leaving at passed
  split at passed
  · rename_i gone writing
    obtain ⟨rfl,member,home,role⟩ := of_decide_eq_true passed
    exact ⟨_,writing,rfl,rfl,member,home,role⟩
  · cases passed

theorem departure (c : Config) (ready : leaving c = true) : ∃ next, Step id c (5,.commit ⟨0⟩ ⟨0⟩ ⟨0⟩) next := by
  obtain ⟨gone,writing,_⟩ := leaving_parts ready
  refine ⟨⟨c.shared.deleteOrganizationMember gone.id,Function.update c.locals 5 .answered⟩,?_⟩
  simp [taken,Interleave.advance,writing,act,MemberRequests.commit]

theorem founder_stays : ∃ c next, Step id c (5,.commit ⟨0⟩ ⟨0⟩ ⟨0⟩) next ∧ Runs (Step id) visitors offboarded c ∧
    next.shared.getMembership ⟨2⟩ ⟨1⟩ = none ∧
    next.shared.requireWorkspaceRole ⟨7⟩ ⟨1⟩ WorkspaceRole.owner.value = some ⟨⟨⟨7⟩,⟨1⟩,WorkspaceRole.owner.value⟩,⟨8⟩⟩ := by
  obtain ⟨c,path,ready⟩ := run_any (Interleave.advance (act id)) visitors offboarded leaving (by decide +kernel)
  obtain ⟨gone,writing,organization,user,member,_,passed⟩ := leaving_parts ready
  obtain ⟨next,moved⟩ := departure c ready
  obtain ⟨departed,_,stays⟩ := memberships_independent id c next _ gone ⟨0⟩ ⟨0⟩ ⟨0⟩ moved writing rfl member
  refine ⟨c,next,moved,path,?_,?_⟩
  · have absent := departed [] next .nil
    rw [organization,user] at absent
    exact absent
  · rw [user] at stays
    exact stays _ _ _ passed [] next .nil

theorem offboarded_founder_admitted : ¬ ∀ (lower : Str → Str) (start c next : Config) (labels : List (Nat × Label))
    (label : Nat × Label) (gone : OrganizationMember) (first second third : Uuid) (w : Workspace) (minimumRole : WorkspaceRole),
    start.shared = Directory.empty → (∀ i, starting (start.locals i) = true) → Runs (Step lower) start labels c →
    Step lower c label next → c.locals label.1 = .writing (.deleteOrganizationMember gone) →
    label.2 = .commit first second third → gone ∈ c.shared.organization_members → w ∈ next.shared.workspaces →
    w.organization_id = gone.organization_id →
    next.shared.requireWorkspaceRole w.id gone.user_id minimumRole.value = none := by
  intro all
  obtain ⟨c,path,ready⟩ := run_any (Interleave.advance (act id)) visitors offboarded leaving (by decide +kernel)
  obtain ⟨gone,writing,organization,user,member,home,passed⟩ := leaving_parts ready
  obtain ⟨next,moved⟩ := departure c ready
  have after := removal_next moved writing rfl
  obtain ⟨w,stored,keyed⟩ : ∃ w ∈ c.shared.workspaces, (w.id,w.organization_id) = ((⟨7⟩,⟨2⟩) : Uuid × Uuid) :=
    List.mem_map.mp (home ▸ List.mem_singleton.mpr rfl)
  have refused := all id visitors c next offboarded _ gone ⟨0⟩ ⟨0⟩ ⟨0⟩ w .owner rfl visitors_starting path moved writing rfl
    member (by rw [after]; exact stored) ((congrArg Prod.snd keyed).trans organization.symm)
  rw [after,user,show w.id = ⟨7⟩ from congrArg Prod.fst keyed] at refused
  cases refused.symm.trans passed

end RagForge.Offboarding
