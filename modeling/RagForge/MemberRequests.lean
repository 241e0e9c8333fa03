import RagForge.Directory
import RagForge.Interleave

namespace RagForge.MemberRequests
open RagForge Directory Transition
open RagForge.Endpoints (WorkspaceRole)

-- The requests of a signed-in caller that change who belongs where. A role in a
-- payload is one of the three by its pattern.
inductive Request where
  | createWorkspace (organization_id : Uuid)
  | addMember (workspace_id : Uuid) (user_email : Str) (role : WorkspaceRole)
  | removeWorkspaceMember (workspace_id member_id : Uuid)
  | removeOrganizationMember (organization_id member_id : Uuid)

-- What a request has added to its session when it commits.
inductive Write where
  | account (email hashed_password : Str)
  | workspace (organization_id owner_user_id : Uuid)
  | workspaceMember (workspace_id user_id : Uuid) (role : WorkspaceRole)
  | deleteWorkspaceMember (row : WorkspaceMembership)
  | deleteOrganizationMember (row : OrganizationMember)
  | nothing

-- `caller` is the subject of the access token, if there is a valid one.
-- Registration needs none.
inductive Phase where
  | registering (email hashed_password : Str)
  | received (caller : Option Uuid) (request : Request)
  | authenticated (current_user : User) (request : Request)
  | invited (workspace_id : Uuid) (target_user : User) (role : WorkspaceRole)
  | removingWorkspaceMember (membership : WorkspaceMembership) (workspace_id member_id : Uuid)
  | removingOrganizationMember (membership : OrganizationMember) (organization_id member_id : Uuid)
  | adding (workspace_id : Uuid) (user_email : Str) (role : WorkspaceRole)
  | writing (write : Write)
  | answered
  | failed (message : Str)

-- The keys of a commit are the uuid4 values it draws.
inductive Label where
  | read
  | commit (first second third : Uuid)
  | fails (message : Str)

variable (lower : Str → Str)

def getCurrentUser (d : Directory) (caller : Option Uuid) : Option User :=
  (caller.bind d.getUserById).filter (·.is_active)

def guard (d : Directory) (current_user : User) : Request → Phase
  | .createWorkspace organization_id =>
    match d.getMembership organization_id current_user.id with
    | none => .failed "You are not a member of this organization".toList
    | some _ => .writing (.workspace organization_id current_user.id)
  | .addMember workspace_id user_email role =>
    match d.requireWorkspaceRole workspace_id current_user.id WorkspaceRole.owner.value with
    | none => .failed "Insufficient permissions for this workspace".toList
    | some _ => .adding workspace_id user_email role
  | .removeWorkspaceMember workspace_id member_id =>
    match d.requireWorkspaceRole workspace_id current_user.id WorkspaceRole.owner.value with
    | none => .failed "Insufficient permissions for this workspace".toList
    | some membership => .removingWorkspaceMember membership workspace_id member_id
  | .removeOrganizationMember organization_id member_id =>
    match d.getMembership organization_id current_user.id with
    | none => .failed "You are not a member of this organization".toList
    | some membership =>
      if membership.role = OrgRole.owner.value ∨ membership.role = OrgRole.admin.value then
        .removingOrganizationMember membership organization_id member_id
      else .failed "Only owners/admins can remove members".toList

-- One statement of a request that reads. `db.get` answers a row the session has
-- loaded already without asking again.
def read (d : Directory) : Phase → Option Phase
  | .registering email hashed_password =>
    some (match d.getUserByEmail lower email with
    | some _ => .failed "An account with this email already exists".toList
    | none => .writing (.account (lower email) hashed_password))
  | .received caller request =>
    some (match getCurrentUser d caller with
    | none => .failed "User not found or inactive".toList
    | some current_user => .authenticated current_user request)
  | .authenticated current_user request => some (guard d current_user request)
  | .adding workspace_id user_email role =>
    some (match d.getUserByEmail lower user_email with
    | none => .failed "No user with that email".toList
    | some target_user => .invited workspace_id target_user role)
  | .invited workspace_id target_user role =>
    some (match d.getWorkspaceMembership workspace_id target_user.id with
    | some _ => .failed "User is already a member of this workspace".toList
    | none => .writing (.workspaceMember workspace_id target_user.id role))
  | .removingWorkspaceMember membership workspace_id member_id =>
    let member := if membership.id = member_id then some membership else d.workspace_members.find? (·.id = member_id)
    some (match member.filter (·.workspace_id = workspace_id) with
    | some row => .writing (.deleteWorkspaceMember row)
    | none => .writing .nothing)
  | .removingOrganizationMember membership organization_id member_id =>
    let member := if membership.id = member_id then some membership else d.organization_members.find? (·.id = member_id)
    some (match member.filter (·.organization_id = organization_id) with
    | some row => .writing (.deleteOrganizationMember row)
    | none => .writing .nothing)
  | _ => none

-- The transaction of a request, `none` being an IntegrityError.
def commit (d : Directory) (first second third : Uuid) : Write → Option Directory
  | .account email hashed_password => d.insertAccount email hashed_password first second third
  | .workspace organization_id owner_user_id => d.insertWorkspace organization_id owner_user_id first second
  | .workspaceMember workspace_id user_id role => d.insertWorkspaceMember workspace_id user_id role.value first
  | .deleteWorkspaceMember row => some (d.deleteWorkspaceMember row.id)
  | .deleteOrganizationMember row => some (d.deleteOrganizationMember row.id)
  | .nothing => some d

def act (_ : Nat) (d : Directory) : Phase → Label → Option (Directory × Phase)
  | phase,.read => (read lower d phase).map (d,·)
  | .writing write,.commit first second third =>
    match commit d first second third write with
    | some after => some (after,.answered)
    | none => some (d,.failed "IntegrityError".toList)
  | .answered,_ => none
  | .failed _,_ => none
  | _,.fails message => some (d,.failed message)
  | _,_ => none

abbrev Config := Interleave.Config Directory Phase
abbrev Step : Config → Nat × Label → Config → Prop := Interleave.Step (act lower)

theorem act_change (acted : act lower i d phase label = some (d',phase')) :
    (d' = d ∧ ∀ write first second third, phase = .writing write → label = .commit first second third →
        commit d first second third write = none) ∨
      ∃ write first second third, phase = .writing write ∧ label = .commit first second third ∧
        commit d first second third write = some d' := by
  unfold act at acted
  split at acted
  · obtain ⟨_,_,equal⟩ := Option.map_eq_some_iff.mp acted
    cases equal
    exact .inl ⟨rfl,nofun⟩
  · rename_i write first second third
    split at acted
    · rename_i committed
      cases acted
      exact .inr ⟨write,first,second,third,rfl,rfl,committed⟩
    · rename_i refused
      cases acted
      refine .inl ⟨rfl,?_⟩
      rintro _ _ _ _ ⟨⟩ ⟨⟩
      exact refused
  · cases acted
  · cases acted
  · cases acted
    exact .inl ⟨rfl,fun _ _ _ _ _ => nofun⟩
  · cases acted

theorem step_change (moved : Step lower c label next) :
    (next.shared = c.shared ∧ ∀ write first second third, c.locals label.1 = .writing write →
        label.2 = .commit first second third → commit c.shared first second third write = none) ∨
      ∃ write first second third, c.locals label.1 = .writing write ∧ label.2 = .commit first second third ∧
        commit c.shared first second third write = some next.shared :=
  act_change lower (Interleave.step_parts moved).1

-- What each transaction leaves in the membership tables.
inductive Committed (d d' : Directory) : Write → Prop where
  | account : d'.organizations = d.organizations ++ [⟨organization_id⟩] →
      d'.organization_members = d.organization_members ++ [⟨member_id,organization_id,user_id,OrgRole.owner.value⟩] →
      d'.workspaces = d.workspaces → d'.workspace_members = d.workspace_members →
      Committed d d' (.account email hashed_password)
  | workspace : d'.organizations = d.organizations → d'.organization_members = d.organization_members →
      d'.workspaces = d.workspaces ++ [⟨workspace_id,organization_id⟩] →
      d'.workspace_members = d.workspace_members ++ [⟨⟨workspace_id,owner_user_id,WorkspaceRole.owner.value⟩,member_id⟩] →
      Committed d d' (.workspace organization_id owner_user_id)
  | workspaceMember : d'.organizations = d.organizations → d'.organization_members = d.organization_members →
      d'.workspaces = d.workspaces →
      d'.workspace_members = d.workspace_members ++ [⟨⟨workspace_id,user_id,role.value⟩,member_id⟩] →
      Committed d d' (.workspaceMember workspace_id user_id role)
  | deleteWorkspaceMember : d' = d.deleteWorkspaceMember row.id → Committed d d' (.deleteWorkspaceMember row)
  | deleteOrganizationMember : d' = d.deleteOrganizationMember row.id → Committed d d' (.deleteOrganizationMember row)
  | nothing : d' = d → Committed d d' .nothing

theorem commit_parts (committed : commit d first second third write = some d') : Committed d d' write := by
  cases write with
  | account email hashed_password =>
    have rows := enforce_roster committed
    exact .account (congrArg (·.organizations) rows) (congrArg (·.organization_members) rows) (congrArg (·.workspaces) rows)
      (congrArg (·.workspace_members) rows)
  | workspace organization_id owner_user_id =>
    have rows := enforce_roster committed
    exact .workspace (congrArg (·.organizations) rows) (congrArg (·.organization_members) rows) (congrArg (·.workspaces) rows)
      (congrArg (·.workspace_members) rows)
  | workspaceMember workspace_id user_id role =>
    have rows := enforce_roster committed
    exact .workspaceMember (congrArg (·.organizations) rows) (congrArg (·.organization_members) rows)
      (congrArg (·.workspaces) rows) (congrArg (·.workspace_members) rows)
  | deleteWorkspaceMember row => exact .deleteWorkspaceMember (Option.some.inj committed).symm
  | deleteOrganizationMember row => exact .deleteOrganizationMember (Option.some.inj committed).symm
  | nothing => exact .nothing (Option.some.inj committed).symm

end RagForge.MemberRequests
