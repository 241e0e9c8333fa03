import RagForge.MemberRequests

namespace RagForge.Ownership
open RagForge Directory MemberRequests Transition
open RagForge.Endpoints (WorkspaceRole)

-- Every organization and every workspace has an owner among its members.
structure Owned (d : Directory) : Prop where
  organizations : ∀ o ∈ d.organizations, ∃ row ∈ d.organization_members,
    row.organization_id = o.id ∧ row.role = OrgRole.owner.value
  workspaces : ∀ w ∈ d.workspaces, ∃ row ∈ d.workspace_members,
    row.workspace_id = w.id ∧ row.role = WorkspaceRole.owner.value

-- A removal spares the last owner: where it deletes an owner's row, another
-- owner's row of the same organization or workspace stays.
def Spares (d : Directory) : Write → Prop
  | .deleteOrganizationMember gone => ∀ row ∈ d.organization_members, row.id = gone.id → row.role = OrgRole.owner.value →
      ∃ other ∈ d.organization_members, other.id ≠ gone.id ∧ other.organization_id = row.organization_id ∧
        other.role = OrgRole.owner.value
  | .deleteWorkspaceMember gone => ∀ row ∈ d.workspace_members, row.id = gone.id → row.role = WorkspaceRole.owner.value →
      ∃ other ∈ d.workspace_members, other.id ≠ gone.id ∧ other.workspace_id = row.workspace_id ∧
        other.role = WorkspaceRole.owner.value
  | _ => True

theorem mem_deleteOrganizationMember {d : Directory} {id : Uuid} :
    row ∈ (d.deleteOrganizationMember id).organization_members ↔ row ∈ d.organization_members ∧ row.id ≠ id := by
  simp [deleteOrganizationMember]

theorem mem_deleteWorkspaceMember {d : Directory} {id : Uuid} :
    row ∈ (d.deleteWorkspaceMember id).workspace_members ↔ row ∈ d.workspace_members ∧ row.id ≠ id := by
  simp [deleteWorkspaceMember]

section covered
variable {H R : Type} {named : H → Uuid} {home key : R → Uuid} {owner : R → Prop} {homes : List H} {rows : List R}

-- Every home has an owner among the rows.
def Covered (named : H → Uuid) (home : R → Uuid) (owner : R → Prop) (homes : List H) (rows : List R) : Prop :=
  ∀ h ∈ homes, ∃ row ∈ rows, home row = named h ∧ owner row

theorem Covered.append (covered : Covered named home owner homes rows) (row : R) : Covered named home owner homes (rows ++ [row]) := by
  intro h stored
  obtain ⟨other,member,led⟩ := covered h stored
  exact ⟨other,List.mem_append_left _ member,led⟩

-- A home comes with a row of its owner.
theorem Covered.found (covered : Covered named home owner homes rows) (led : home row = named h ∧ owner row) :
    Covered named home owner (homes ++ [h]) (rows ++ [row]) := by
  intro other stored
  rcases List.mem_append.mp stored with old | new
  · exact covered.append row other old
  · rw [List.mem_singleton.mp new]
    exact ⟨row,List.mem_append_right _ (List.mem_singleton.mpr rfl),led⟩

-- Deleting a row leaves an owner everywhere exactly when it spares the last one.
theorem Covered.delete_iff (covered : Covered named home owner homes rows) (housed : ∀ row ∈ rows, ∃ h ∈ homes, named h = home row) (gone : Uuid) :
    Covered named home owner homes (rows.filter (key · ≠ gone)) ↔
      ∀ row ∈ rows, key row = gone → owner row → ∃ other ∈ rows, key other ≠ gone ∧ home other = home row ∧ owner other := by
  constructor
  · intro after row member _ _
    obtain ⟨h,stored,here⟩ := housed row member
    obtain ⟨other,left,there,role⟩ := after h stored
    obtain ⟨present,different⟩ := List.mem_filter.mp left
    exact ⟨other,present,of_decide_eq_true different,there.trans here,role⟩
  · intro spares h stored
    obtain ⟨row,member,here,role⟩ := covered h stored
    by_cases same : key row = gone
    · obtain ⟨other,present,different,there,led⟩ := spares row member same role
      exact ⟨other,List.mem_filter.mpr ⟨present,decide_eq_true different⟩,there.trans here,led⟩
    · exact ⟨row,List.mem_filter.mpr ⟨member,decide_eq_true same⟩,here,role⟩

end covered

theorem owned_deleteOrganizationMember (owned : Owned d) :
    Owned (d.deleteOrganizationMember gone.id) ↔ Spares d (.deleteOrganizationMember gone) := by
  have covered : Covered Organization.id OrganizationMember.organization_id (fun row => row.role = OrgRole.owner.value)
    d.organizations d.organization_members := owned.organizations
  refine Iff.trans ⟨fun after => after.organizations,fun organizations => ⟨organizations,owned.workspaces⟩⟩
    (covered.delete_iff d.constraints.organization_member_organization gone.id)

theorem owned_deleteWorkspaceMember (owned : Owned d) :
    Owned (d.deleteWorkspaceMember gone.id) ↔ Spares d (.deleteWorkspaceMember gone) := by
  have covered : Covered Workspace.id (fun row : WorkspaceMembership => row.workspace_id) (fun row => row.role = WorkspaceRole.owner.value)
    d.workspaces d.workspace_members := owned.workspaces
  refine Iff.trans ⟨fun after => after.workspaces,fun workspaces => ⟨owned.organizations,workspaces⟩⟩
    (covered.delete_iff d.constraints.workspace_member_workspace gone.id)

-- Whatever creates an organization or a workspace creates its owner with it.
theorem owned_committed (owned : Owned d) (committed : Committed d d' write) : Owned d' ↔ Spares d write := by
  have organizations_led : Covered Organization.id OrganizationMember.organization_id (fun row => row.role = OrgRole.owner.value)
    d.organizations d.organization_members := owned.organizations
  have workspaces_led : Covered Workspace.id (fun row : WorkspaceMembership => row.workspace_id) (fun row => row.role = WorkspaceRole.owner.value)
    d.workspaces d.workspace_members := owned.workspaces
  cases committed with
  | account organizations members workspaces workspace_members =>
    refine iff_of_true ⟨?_,?_⟩ trivial
    · rw [organizations,members]
      exact organizations_led.found ⟨rfl,rfl⟩
    · rw [workspaces,workspace_members]
      exact workspaces_led
  | workspace organizations members workspaces workspace_members =>
    refine iff_of_true ⟨?_,?_⟩ trivial
    · rw [organizations,members]
      exact organizations_led
    · rw [workspaces,workspace_members]
      exact workspaces_led.found ⟨rfl,rfl⟩
  | workspaceMember organizations members workspaces workspace_members =>
    refine iff_of_true ⟨?_,?_⟩ trivial
    · rw [organizations,members]
      exact organizations_led
    · rw [workspaces,workspace_members]
      exact workspaces_led.append _
  | deleteWorkspaceMember after => rw [after]; exact owned_deleteWorkspaceMember owned
  | deleteOrganizationMember after => rw [after]; exact owned_deleteOrganizationMember owned
  | nothing after => rw [after]; exact iff_of_true owned trivial

def Prudent (c : Config) (label : Nat × Label) : Prop :=
  ∀ write first second third, c.locals label.1 = .writing write → label.2 = .commit first second third →
    (MemberRequests.commit c.shared first second third write).isSome → Spares c.shared write

theorem owned_step (lower : Str → Str) (owned : Owned c.shared) (moved : Step lower c label next) :
    Owned next.shared ↔ Prudent c label := by
  rcases step_change lower moved with ⟨same,quiet⟩ | ⟨write,first,second,third,writing,labelled,committed⟩
  · rw [same]
    refine iff_of_true owned fun write first second third writing labelled some_ => ?_
    rw [quiet write first second third writing labelled] at some_
    cases some_
  · rw [owned_committed owned (commit_parts committed)]
    constructor
    · intro spares _ _ _ _ writing' labelled' _
      cases writing.symm.trans writing'
      exact spares
    · exact fun prudent => prudent write first second third writing labelled (committed ▸ rfl)

theorem owned_iff_prudent (lower : Str → Str) (start c : Config) (labels : List (Nat × Label)) (owned : Owned start.shared)
    (path : Runs (Step lower) start labels c) :
    (∀ middle, Passes (Step lower) start labels c middle → Owned middle.shared) ↔
      Runs (within Prudent (Step lower)) start labels c :=
  path.kept_iff (fun c => Owned c.shared) owned fun _ _ _ owned moved => owned_step lower owned moved

-- One visitor registers, then opens a workspace and asks a friend in as a second
-- owner, and then leaves the organization.
def visitors : Config where
  shared := Directory.empty
  locals
    | 0 => .registering "ada@example.com".toList []
    | 1 => .registering "bob@example.com".toList []
    | 2 => .received (some ⟨1⟩) (.createWorkspace ⟨2⟩)
    | 3 => .received (some ⟨1⟩) (.addMember ⟨7⟩ "bob@example.com".toList .owner)
    | 4 => .received (some ⟨1⟩) (.removeWorkspaceMember ⟨7⟩ ⟨8⟩)
    | 5 => .received (some ⟨1⟩) (.removeOrganizationMember ⟨2⟩ ⟨3⟩)
    | _ => .answered

def sharedWorkspace : List (Nat × Label) :=
  [(0,.read),(0,.commit ⟨1⟩ ⟨2⟩ ⟨3⟩),(1,.read),(1,.commit ⟨4⟩ ⟨5⟩ ⟨6⟩),
    (2,.read),(2,.read),(2,.commit ⟨7⟩ ⟨8⟩ ⟨0⟩),(3,.read),(3,.read),(3,.read),(3,.read),(3,.commit ⟨9⟩ ⟨0⟩ ⟨0⟩),
    (4,.read),(4,.read),(4,.read),(4,.commit ⟨0⟩ ⟨0⟩ ⟨0⟩)]

def selfRemoval : List (Nat × Label) :=
  [(0,.read),(0,.commit ⟨1⟩ ⟨2⟩ ⟨3⟩),(5,.read),(5,.read),(5,.read),(5,.commit ⟨0⟩ ⟨0⟩ ⟨0⟩)]

def spares (d : Directory) : Write → Bool
  | .deleteOrganizationMember gone => d.organization_members.all fun row => row.id != gone.id || row.role != OrgRole.owner.value ||
      d.organization_members.any fun other => other.id != gone.id && other.organization_id == row.organization_id &&
        other.role == OrgRole.owner.value
  | .deleteWorkspaceMember gone => d.workspace_members.all fun row => row.id != gone.id || row.role != WorkspaceRole.owner.value ||
      d.workspace_members.any fun other => other.id != gone.id && other.workspace_id == row.workspace_id &&
        other.role == WorkspaceRole.owner.value
  | _ => true

theorem spares_sound (passed : spares d write = true) : Spares d write := by
  cases write with
  | deleteOrganizationMember gone =>
    intro row member same owner
    have here := List.all_eq_true.mp passed row member
    simpa [same,owner,and_assoc] using here
  | deleteWorkspaceMember gone =>
    intro row member same owner
    have here := List.all_eq_true.mp passed row member
    simpa [same,owner,and_assoc] using here
  | _ => trivial

def prudent (c : Config) (label : Nat × Label) : Bool :=
  match c.locals label.1 with
  | .writing write => spares c.shared write
  | _ => true

theorem prudent_sound (passed : prudent c label = true) : Prudent c label := by
  intro write first second third writing _ _
  unfold prudent at passed
  rw [writing] at passed
  exact spares_sound passed

theorem owned_empty : Owned Directory.empty := ⟨nofun,nofun⟩

theorem second_owner_stays : ∃ c, Runs (Step id) visitors sharedWorkspace c ∧
    (∀ middle, Passes (Step id) visitors sharedWorkspace c middle → Owned middle.shared) ∧
    (c.shared.workspace_members.map (·.user_id)) = [⟨4⟩] := by
  obtain ⟨c,path,left⟩ := run_within (Interleave.advance (act id)) visitors sharedWorkspace prudent Prudent
    (fun c => decide (c.shared.workspace_members.map (·.user_id) = [⟨4⟩])) (by decide +kernel) fun _ _ _ _ passed => prudent_sound passed
  exact ⟨c,path.unguarded,(owned_iff_prudent id visitors c sharedWorkspace owned_empty path.unguarded).mpr path,of_decide_eq_true left⟩

-- A process that has not begun.
def starting : Phase → Bool
  | .registering _ _ => true
  | .received _ _ => true
  | .answered => true
  | _ => false

theorem visitors_starting : ∀ i, starting (visitors.locals i) = true := by
  intro i
  match i with
  | 0 | 1 | 2 | 3 | 4 | 5 => rfl
  | _ + 6 => rfl

theorem organization_orphaned : ¬ ∀ (lower : Str → Str) (start c : Config) (labels : List (Nat × Label)),
    start.shared = Directory.empty → (∀ i, starting (start.locals i) = true) → Runs (Step lower) start labels c → Owned c.shared := by
  intro all
  obtain ⟨c,path,deserted⟩ := run_any (Interleave.advance (act id)) visitors selfRemoval
    (fun c => decide (c.shared.organizations = [⟨⟨2⟩⟩] ∧ c.shared.organization_members = [])) (by decide +kernel)
  obtain ⟨founded,nobody⟩ := of_decide_eq_true deserted
  obtain ⟨row,member,_⟩ := (all id visitors c selfRemoval rfl visitors_starting path).organizations ⟨⟨2⟩⟩
    (by rw [founded]; exact List.mem_singleton.mpr rfl)
  rw [nobody] at member
  cases member

end RagForge.Ownership
