import Mathlib.Data.List.Nodup
import RagForge.Endpoints

namespace RagForge

inductive OrgRole where
  | owner | admin | member
  deriving DecidableEq

def OrgRole.value : OrgRole → Str
  | .owner => "owner".toList
  | .admin => "admin".toList
  | .member => "member".toList

structure Organization where
  id : Uuid
  deriving DecidableEq

structure OrganizationMember where
  id : Uuid
  organization_id : Uuid
  user_id : Uuid
  role : Str
  deriving DecidableEq

structure WorkspaceMembership extends Endpoints.WorkspaceMember where
  id : Uuid
  deriving DecidableEq

-- Who is who: the tables behind every guard.
structure Roster where
  users : List User
  organizations : List Organization
  organization_members : List OrganizationMember
  workspaces : List Workspace
  workspace_members : List WorkspaceMembership

-- Keys and unique constraints of these tables.
structure Roster.Constraints (t : Roster) : Prop where
  users_pkey : (t.users.map (·.id)).Nodup
  users_email : (t.users.map (·.email)).Nodup
  organizations_pkey : (t.organizations.map (·.id)).Nodup
  organization_members_pkey : (t.organization_members.map (·.id)).Nodup
  uq_org_member : (t.organization_members.map fun row => (row.organization_id,row.user_id)).Nodup
  organization_member_organization : ∀ row ∈ t.organization_members, ∃ o ∈ t.organizations, o.id = row.organization_id
  organization_member_user : ∀ row ∈ t.organization_members, ∃ u ∈ t.users, u.id = row.user_id
  workspaces_pkey : (t.workspaces.map (·.id)).Nodup
  workspace_organization : ∀ row ∈ t.workspaces, ∃ o ∈ t.organizations, o.id = row.organization_id
  workspace_members_pkey : (t.workspace_members.map (·.id)).Nodup
  uq_workspace_member : (t.workspace_members.map fun row => (row.workspace_id,row.user_id)).Nodup
  workspace_member_workspace : ∀ row ∈ t.workspace_members, ∃ w ∈ t.workspaces, w.id = row.workspace_id
  workspace_member_user : ∀ row ∈ t.workspace_members, ∃ u ∈ t.users, u.id = row.user_id

instance (t : Roster) : Decidable t.Constraints :=
  decidable_of_iff
    ((t.users.map (·.id)).Nodup ∧ (t.users.map (·.email)).Nodup ∧ (t.organizations.map (·.id)).Nodup ∧
      (t.organization_members.map (·.id)).Nodup ∧
      (t.organization_members.map fun row => (row.organization_id,row.user_id)).Nodup ∧
      (∀ row ∈ t.organization_members, ∃ o ∈ t.organizations, o.id = row.organization_id) ∧
      (∀ row ∈ t.organization_members, ∃ u ∈ t.users, u.id = row.user_id) ∧
      (t.workspaces.map (·.id)).Nodup ∧ (∀ row ∈ t.workspaces, ∃ o ∈ t.organizations, o.id = row.organization_id) ∧
      (t.workspace_members.map (·.id)).Nodup ∧
      (t.workspace_members.map fun row => (row.workspace_id,row.user_id)).Nodup ∧
      (∀ row ∈ t.workspace_members, ∃ w ∈ t.workspaces, w.id = row.workspace_id) ∧
      ∀ row ∈ t.workspace_members, ∃ u ∈ t.users, u.id = row.user_id)
    ⟨fun ⟨a,b,c,d,e,f,g,h,i,j,k,l,m⟩ => ⟨a,b,c,d,e,f,g,h,i,j,k,l,m⟩,
      fun ⟨a,b,c,d,e,f,g,h,i,j,k,l,m⟩ => ⟨a,b,c,d,e,f,g,h,i,j,k,l,m⟩⟩

structure Directory extends Roster where
  constraints : toRoster.Constraints

namespace Directory

-- A transaction that breaks a constraint is an IntegrityError.
def enforce (t : Roster) : Option Directory := if keys : t.Constraints then some ⟨t,keys⟩ else none

theorem enforce_roster (enforced : enforce t = some d) : d.toRoster = t := by
  unfold enforce at enforced
  split at enforced
  · cases enforced; rfl
  · cases enforced

def empty : Directory := ⟨⟨[],[],[],[],[]⟩,by decide⟩

def getUserById (d : Directory) (user_id : Uuid) : Option User := d.users.find? (·.id = user_id)

def getUserByEmail (lower : Str → Str) (d : Directory) (email : Str) : Option User := d.users.find? (·.email = lower email)

-- `get_membership` of either service. The unique constraints leave one row at
-- most, so that `scalar_one_or_none` never raises.
def getMembership (d : Directory) (organization_id user_id : Uuid) : Option OrganizationMember :=
  d.organization_members.find? fun row => row.organization_id = organization_id ∧ row.user_id = user_id

def getWorkspaceMembership (d : Directory) (workspace_id user_id : Uuid) : Option WorkspaceMembership :=
  d.workspace_members.find? fun row => row.workspace_id = workspace_id ∧ row.user_id = user_id

-- `none` is the PermissionDeniedError.
def requireWorkspaceRole (d : Directory) (workspace_id user_id : Uuid) (minimumRole : Str) : Option WorkspaceMembership :=
  (d.getWorkspaceMembership workspace_id user_id).filter fun membership =>
    Endpoints.roleSatisfies membership.role minimumRole

theorem filter_of_nodup {rows : List α} {key : α → κ} [DecidableEq κ] (distinct : (rows.map key).Nodup) (k : κ) :
    rows.filter (key · = k) = (rows.find? (key · = k)).toList := by
  induction rows with
  | nil => rfl
  | cons row rest ih =>
    obtain ⟨absent,others⟩ := List.nodup_cons.mp distinct
    by_cases here : key row = k
    · have none_left : rest.filter (key · = k) = [] :=
        List.filter_eq_nil_iff.mpr fun other member same => absent
          (List.mem_map.mpr ⟨other,member,(of_decide_eq_true same).trans here.symm⟩)
      simp [here,none_left]
    · simpa [here] using ih others

-- The guard of the routes below a workspace, on these tables.
theorem requireWorkspaceRole_guard (d : Directory) (workspace_id user_id : Uuid) (minimumRole : Str) :
    (Endpoints.requireWorkspaceRole (d.workspace_members.map (·.toWorkspaceMember)) workspace_id user_id minimumRole).toOption =
      (d.requireWorkspaceRole workspace_id user_id minimumRole).map (·.toWorkspaceMember) := by
  have rows := filter_of_nodup d.constraints.uq_workspace_member (workspace_id,user_id)
  simp only [Prod.mk.injEq] at rows
  have found : Endpoints.getWorkspaceMembership (d.workspace_members.map (·.toWorkspaceMember)) workspace_id user_id =
      .ok ((d.getWorkspaceMembership workspace_id user_id).map (·.toWorkspaceMember)) := by
    unfold Endpoints.getWorkspaceMembership getWorkspaceMembership
    rw [List.filter_map]
    simp only [Function.comp_def,rows]
    cases d.workspace_members.find? fun row => row.workspace_id = workspace_id ∧ row.user_id = user_id <;> rfl
  unfold Endpoints.requireWorkspaceRole requireWorkspaceRole
  rw [found]
  cases d.getWorkspaceMembership workspace_id user_id with
  | none => rfl
  | some membership =>
    cases satisfied : Endpoints.roleSatisfies membership.role minimumRole <;>
      simp [bind,Except.bind,satisfied,Except.toOption,throw,throwThe,MonadExceptOf.throw,pure,Except.pure,Option.filter]

theorem deleteOrganizationMember_constraints {t : Roster} (keys : t.Constraints) (id : Uuid) :
    ({t with organization_members := t.organization_members.filter (·.id ≠ id)} : Roster).Constraints :=
  {keys with
    organization_members_pkey := keys.organization_members_pkey.sublist (List.filter_sublist.map _)
    uq_org_member := keys.uq_org_member.sublist (List.filter_sublist.map _)
    organization_member_organization row member := keys.organization_member_organization row (List.mem_of_mem_filter member)
    organization_member_user row member := keys.organization_member_user row (List.mem_of_mem_filter member)}

theorem deleteWorkspaceMember_constraints {t : Roster} (keys : t.Constraints) (id : Uuid) :
    ({t with workspace_members := t.workspace_members.filter (·.id ≠ id)} : Roster).Constraints :=
  {keys with
    workspace_members_pkey := keys.workspace_members_pkey.sublist (List.filter_sublist.map _)
    uq_workspace_member := keys.uq_workspace_member.sublist (List.filter_sublist.map _)
    workspace_member_workspace row member := keys.workspace_member_workspace row (List.mem_of_mem_filter member)
    workspace_member_user row member := keys.workspace_member_user row (List.mem_of_mem_filter member)}

-- `DELETE ... WHERE id = ...`; a row that is gone already is no error.
def deleteOrganizationMember (d : Directory) (id : Uuid) : Directory :=
  ⟨{d.toRoster with organization_members := d.organization_members.filter (·.id ≠ id)},
    deleteOrganizationMember_constraints d.constraints id⟩

def deleteWorkspaceMember (d : Directory) (id : Uuid) : Directory :=
  ⟨{d.toRoster with workspace_members := d.workspace_members.filter (·.id ≠ id)},
    deleteWorkspaceMember_constraints d.constraints id⟩

-- The INSERTs of the three creating requests, with the uuid4 keys they draw.
def insertAccount (d : Directory) (email hashed_password : Str) (user_id organization_id member_id : Uuid) : Option Directory :=
  enforce {d.toRoster with
    users := d.users ++ [⟨user_id,email,hashed_password,true,false⟩]
    organizations := d.organizations ++ [⟨organization_id⟩]
    organization_members := d.organization_members ++ [⟨member_id,organization_id,user_id,OrgRole.owner.value⟩]}

def insertWorkspace (d : Directory) (organization_id owner_user_id workspace_id member_id : Uuid) : Option Directory :=
  enforce {d.toRoster with
    workspaces := d.workspaces ++ [⟨workspace_id,organization_id⟩]
    workspace_members := d.workspace_members ++ [⟨⟨workspace_id,owner_user_id,Endpoints.WorkspaceRole.owner.value⟩,member_id⟩]}

def insertWorkspaceMember (d : Directory) (workspace_id user_id : Uuid) (role : Str) (member_id : Uuid) : Option Directory :=
  enforce {d.toRoster with workspace_members := d.workspace_members ++ [⟨⟨workspace_id,user_id,role⟩,member_id⟩]}

end Directory
end RagForge
