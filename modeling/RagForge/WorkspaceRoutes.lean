import RagForge.MemberRequests

namespace RagForge.WorkspaceRoutes
open RagForge Directory
open RagForge.Endpoints (WorkspaceRole)

-- The other columns of a workspace that these routes answer with or write.
structure Profile where
  name : Str
  slug : Str
  description : Str
  deriving DecidableEq

structure State extends Directory where
  profiles : Uuid → Profile

inductive Endpoint where
  | getWorkspace
  | updateWorkspace (name description : Option Str)
  | listMembers
  | addMember (user_email : Str) (role : WorkspaceRole)
  | removeMember (member_id : Uuid)

-- Both path ids, whether or not the endpoint declares the first.
structure Request where
  organization_id : Uuid
  workspace_id : Uuid
  endpoint : Endpoint

inductive Response where
  | workspace (row : Workspace) (profile : Profile)
  | members (rows : List (WorkspaceMembership × User))
  | member (row : WorkspaceMembership) (user : User)
  | noContent

inductive AppError where
  | AuthenticationError (message : Str)
  | PermissionDeniedError (message : Str)
  | NotFoundError (message : Str)
  | IntegrityError
  deriving DecidableEq

def Endpoint.minimumRole : Endpoint → WorkspaceRole
  | .getWorkspace => .viewer
  | .updateWorkspace _ _ => .editor
  | .listMembers => .viewer
  | .addMember _ _ => .owner
  | .removeMember _ => .owner

def orRaise (error : AppError) : Option α → Except AppError α
  | some x => .ok x
  | none => .error error

def getCurrentUser (s : State) (caller : Option Uuid) : Except AppError User :=
  orRaise (.AuthenticationError "User not found or inactive".toList) (MemberRequests.getCurrentUser s.toDirectory caller)

def requireWorkspaceRole (s : State) (workspace_id user_id : Uuid) (minimumRole : WorkspaceRole) : Except AppError WorkspaceMembership :=
  orRaise (.PermissionDeniedError "Insufficient permissions for this workspace".toList)
    (s.toDirectory.requireWorkspaceRole workspace_id user_id minimumRole.value)

-- The service's `get_workspace`.
def findWorkspace (s : State) (workspace_id : Uuid) : Except AppError Workspace :=
  orRaise (.NotFoundError "Workspace not found".toList) (s.workspaces.find? (·.id = workspace_id))

def getWorkspace (s : State) (organization_id workspace_id : Uuid) : Except AppError (State × Response) := do
  let workspace ← findWorkspace s workspace_id
  if workspace.organization_id ≠ organization_id then throw (.NotFoundError "Workspace not found".toList)
  return (s,.workspace workspace (s.profiles workspace.id))

def updateWorkspace (s : State) (organization_id workspace_id : Uuid) (name description : Option Str) :
    Except AppError (State × Response) := do
  let workspace ← findWorkspace s workspace_id
  if workspace.organization_id ≠ organization_id then throw (.NotFoundError "Workspace not found".toList)
  let old := s.profiles workspace.id
  let profile : Profile := ⟨name.getD old.name,old.slug,description.getD old.description⟩
  return ({s with profiles := Function.update s.profiles workspace.id profile},.workspace workspace profile)

def listMembers (s : State) (workspace_id : Uuid) : Except AppError (State × Response) :=
  .ok (s,.members ((s.workspace_members.filter (·.workspace_id = workspace_id)).filterMap fun row =>
    (s.toDirectory.getUserById row.user_id).map (row,·)))

-- `new_id` is the uuid4 key of the row.
def addMember (lower : Str → Str) (s : State) (workspace_id : Uuid) (user_email : Str) (role : WorkspaceRole) (new_id : Uuid) :
    Except AppError (State × Response) := do
  let target_user ← orRaise (.NotFoundError "No user with that email".toList) (s.toDirectory.getUserByEmail lower user_email)
  if (s.toDirectory.getWorkspaceMembership workspace_id target_user.id).isSome then
    throw (.PermissionDeniedError "User is already a member of this workspace".toList)
  let after ← orRaise .IntegrityError (s.toDirectory.insertWorkspaceMember workspace_id target_user.id role.value new_id)
  return ({s with toDirectory := after},.member ⟨⟨workspace_id,target_user.id,role.value⟩,new_id⟩ target_user)

def removeMember (s : State) (workspace_id member_id : Uuid) : Except AppError (State × Response) :=
  match (s.workspace_members.find? (·.id = member_id)).filter (·.workspace_id = workspace_id) with
  | some member => .ok ({s with toDirectory := s.toDirectory.deleteWorkspaceMember member.id},.noContent)
  | none => .ok (s,.noContent)

def handle (lower : Str → Str) (s : State) (caller : Option Uuid) (request : Request) (new_id : Uuid) :
    Except AppError (State × Response) := do
  let current_user ← getCurrentUser s caller
  let _membership ← requireWorkspaceRole s request.workspace_id current_user.id request.endpoint.minimumRole
  match request.endpoint with
  | .getWorkspace => getWorkspace s request.organization_id request.workspace_id
  | .updateWorkspace name description => updateWorkspace s request.organization_id request.workspace_id name description
  | .listMembers => listMembers s request.workspace_id
  | .addMember user_email role => addMember lower s request.workspace_id user_email role new_id
  | .removeMember member_id => removeMember s request.workspace_id member_id

def Belongs (s : State) (organization_id workspace_id : Uuid) : Prop :=
  ∃ workspace ∈ s.workspaces, workspace.id = workspace_id ∧ workspace.organization_id = organization_id

def HasRole (s : State) (caller : Option Uuid) (workspace_id : Uuid) (minimumRole : WorkspaceRole) : Prop :=
  ∃ current_user, MemberRequests.getCurrentUser s.toDirectory caller = some current_user ∧
    ∃ membership, s.toDirectory.requireWorkspaceRole workspace_id current_user.id minimumRole.value = some membership

-- The endpoints that declare the organization of their path.
def Endpoint.seesOrganization : Endpoint → Bool
  | .getWorkspace => true
  | .updateWorkspace _ _ => true
  | _ => false

-- An invitation that fails whatever the organization: of nobody, of a member,
-- or under a key in use.
def Refused (lower : Str → Str) (s : State) (workspace_id : Uuid) (new_id : Uuid) : Endpoint → Prop
  | .addMember user_email _ =>
    match s.toDirectory.getUserByEmail lower user_email with
    | none => True
    | some target_user => (s.toDirectory.getWorkspaceMembership workspace_id target_user.id).isSome ∨
        ∃ row ∈ s.workspace_members, row.id = new_id
  | _ => False

theorem orRaise_ok {error : AppError} {x : Option α} : orRaise error x = .ok a ↔ x = some a := by
  cases x <;> simp [orRaise]

theorem bind_ok {x : Except AppError α} {f : α → Except AppError β} :
    (∃ out, (x >>= f) = .ok out) ↔ ∃ a, x = .ok a ∧ ∃ out, f a = .ok out := by
  cases x <;> simp [bind,Except.bind]

theorem found_workspace {s : State} : findWorkspace s workspace_id = .ok workspace ↔ workspace ∈ s.workspaces ∧ workspace.id = workspace_id := by
  rw [findWorkspace,orRaise_ok]
  constructor
  · intro found
    exact ⟨List.mem_of_find?_eq_some found,by simpa using List.find?_some found⟩
  · rintro ⟨member,rfl⟩
    obtain ⟨other,found⟩ : ∃ other, s.workspaces.find? (·.id = workspace.id) = some other :=
      Option.isSome_iff_exists.mp (List.find?_isSome.mpr ⟨workspace,member,by simp⟩)
    have same : other.id = workspace.id := by simpa using List.find?_some found
    rw [found,List.inj_on_of_nodup_map s.constraints.workspaces_pkey (List.mem_of_find?_eq_some found) member same]

-- What the two declaring endpoints share: the row is found by its own id, then
-- compared with the path.
theorem declared_ok {s : State} {answer : Workspace → State × Response} :
    (∃ out, (do
      let workspace ← findWorkspace s workspace_id
      if workspace.organization_id ≠ organization_id then throw (.NotFoundError "Workspace not found".toList)
      return answer workspace : Except AppError (State × Response)) = .ok out) ↔ Belongs s organization_id workspace_id := by
  rw [bind_ok,Belongs]
  simp only [found_workspace,and_assoc]
  refine exists_congr fun workspace => and_congr_right fun _ => and_congr_right fun _ => ?_
  by_cases same : workspace.organization_id = organization_id <;>
    simp [same,bind,Except.bind,throw,throwThe,MonadExceptOf.throw,pure,Except.pure]

theorem getWorkspace_ok {s : State} : (∃ out, getWorkspace s organization_id workspace_id = .ok out) ↔ Belongs s organization_id workspace_id :=
  declared_ok

theorem updateWorkspace_ok {s : State} :
    (∃ out, updateWorkspace s organization_id workspace_id name description = .ok out) ↔ Belongs s organization_id workspace_id :=
  declared_ok

theorem insert_ok {d : Directory} (workspace : ∃ w ∈ d.workspaces, w.id = workspace_id) (user : target_user ∈ d.users)
    (absent : d.getWorkspaceMembership workspace_id target_user.id = none) (role : Str) (new_id : Uuid) :
    (∃ after, d.insertWorkspaceMember workspace_id target_user.id role new_id = some after) ↔
      ¬ ∃ row ∈ d.workspace_members, row.id = new_id := by
  rw [insertWorkspaceMember,enforce]
  constructor
  · rintro ⟨after,stored⟩ ⟨row,member,same⟩
    split at stored
    · rename_i keys
      have pkey := keys.workspace_members_pkey
      rw [List.map_append,List.nodup_append] at pkey
      exact pkey.2.2 row.id (List.mem_map.mpr ⟨row,member,rfl⟩) new_id (by simp) same
    · cases stored
  · intro free
    refine ⟨_,dif_pos ?_⟩
    have pair : (workspace_id,target_user.id) ∉ d.workspace_members.map fun row => (row.workspace_id,row.user_id) := by
      intro taken
      obtain ⟨row,member,same⟩ := List.mem_map.mp taken
      have none_ := List.find?_eq_none.mp absent row member
      simp [(Prod.mk.inj same).1,(Prod.mk.inj same).2] at none_
    have key : new_id ∉ d.workspace_members.map (·.id) := by
      intro taken
      obtain ⟨row,member,same⟩ := List.mem_map.mp taken
      exact free ⟨row,member,same⟩
    exact {d.constraints with
      workspace_members_pkey := by
        rw [List.map_append,List.map_singleton]
        exact d.constraints.workspace_members_pkey.append (List.nodup_singleton _) (by simpa using key)
      uq_workspace_member := by
        rw [List.map_append,List.map_singleton]
        exact d.constraints.uq_workspace_member.append (List.nodup_singleton _) (by simpa using pair)
      workspace_member_workspace := by
        simpa [or_imp,forall_and] using ⟨d.constraints.workspace_member_workspace,workspace⟩
      workspace_member_user := by
        simpa [or_imp,forall_and] using ⟨d.constraints.workspace_member_user,target_user,user,rfl⟩}

theorem addMember_ok {s : State} (role_held : HasRole s caller workspace_id .owner) :
    (∃ out, addMember lower s workspace_id user_email role new_id = .ok out) ↔
      ¬ Refused lower s workspace_id new_id (.addMember user_email role) := by
  obtain ⟨current_user,_,membership,held⟩ := role_held
  obtain ⟨row,_⟩ := Option.filter_eq_some_iff.mp held
  have present : ∃ w ∈ s.workspaces, w.id = workspace_id := by
    have place := List.find?_some row
    have same : membership.workspace_id = workspace_id := (of_decide_eq_true place).1
    exact same ▸ s.constraints.workspace_member_workspace membership (List.mem_of_find?_eq_some row)
  unfold addMember Refused
  simp only [bind_ok,orRaise_ok]
  cases invited : s.toDirectory.getUserByEmail lower user_email with
  | none => simp only [reduceCtorEq,false_and,exists_false,not_true_eq_false]
  | some target_user =>
    cases existing : s.toDirectory.getWorkspaceMembership workspace_id target_user.id with
    | some member =>
      simp only [existing,Option.some.injEq,exists_eq_left',Option.isSome_some,if_true,true_or,not_true_eq_false,iff_false]
      exact fun ⟨_,refused⟩ => nomatch refused
    | none =>
      have inserted := insert_ok present (List.mem_of_find?_eq_some invited) existing role.value new_id
      simp only [existing,Option.some.injEq,exists_eq_left',Option.isSome_none,Bool.false_eq_true,if_false,
        false_or,← inserted,bind_ok]
      refine exists_congr fun after => ?_
      rw [orRaise_ok]
      exact and_iff_left ⟨_,rfl⟩

-- What each request needs to succeed.
theorem handle_ok {s : State} {request : Request} : (∃ out, handle lower s caller request new_id = .ok out) ↔
    HasRole s caller request.workspace_id request.endpoint.minimumRole ∧
      (request.endpoint.seesOrganization = true → Belongs s request.organization_id request.workspace_id) ∧
      ¬ Refused lower s request.workspace_id new_id request.endpoint := by
  obtain ⟨organization_id,workspace_id,endpoint⟩ := request
  unfold handle
  rw [bind_ok]
  simp only [bind_ok,getCurrentUser,requireWorkspaceRole,orRaise_ok]
  have split_role (body : Prop) (rest : HasRole s caller workspace_id endpoint.minimumRole → (body ↔
      (endpoint.seesOrganization = true → Belongs s organization_id workspace_id) ∧ ¬ Refused lower s workspace_id new_id endpoint)) :
      (∃ current_user, MemberRequests.getCurrentUser s.toDirectory caller = some current_user ∧ ∃ membership,
        s.toDirectory.requireWorkspaceRole workspace_id current_user.id endpoint.minimumRole.value = some membership ∧ body) ↔
      HasRole s caller workspace_id endpoint.minimumRole ∧
        (endpoint.seesOrganization = true → Belongs s organization_id workspace_id) ∧ ¬ Refused lower s workspace_id new_id endpoint := by
    constructor
    · rintro ⟨current_user,known,membership,held,done⟩
      have role_held : HasRole s caller workspace_id endpoint.minimumRole := ⟨current_user,known,membership,held⟩
      exact ⟨role_held,(rest role_held).mp done⟩
    · rintro ⟨role_held,condition⟩
      have done := (rest role_held).mpr condition
      obtain ⟨current_user,known,membership,held⟩ := role_held
      exact ⟨current_user,known,membership,held,done⟩
  refine split_role _ fun role_held => ?_
  cases endpoint with
  | getWorkspace =>
    rw [getWorkspace_ok]
    simp [Endpoint.seesOrganization,Refused]
  | updateWorkspace name description =>
    rw [updateWorkspace_ok]
    simp [Endpoint.seesOrganization,Refused]
  | listMembers => simp [listMembers,Endpoint.seesOrganization,Refused]
  | addMember user_email role => simpa [Endpoint.seesOrganization] using addMember_ok role_held
  | removeMember member_id =>
    simp only [removeMember,Endpoint.seesOrganization,Refused]
    split <;> simp

-- Success means the right organization and role exactly for the requests that
-- look at it, stay in it, or fail for another reason.
theorem path_verified_iff (lower : Str → Str) (s : State) (caller : Option Uuid) (request : Request) (new_id : Uuid) :
    ((∃ out, handle lower s caller request new_id = .ok out) →
      Belongs s request.organization_id request.workspace_id ∧
        HasRole s caller request.workspace_id request.endpoint.minimumRole) ↔
    request.endpoint.seesOrganization = true ∨ Belongs s request.organization_id request.workspace_id ∨
      ¬ HasRole s caller request.workspace_id request.endpoint.minimumRole ∨
      Refused lower s request.workspace_id new_id request.endpoint := by
  rw [handle_ok]
  by_cases sees : request.endpoint.seesOrganization = true
  · simp only [sees,forall_const,true_or,iff_true]
    exact fun ⟨role_held,belongs,_⟩ => ⟨belongs,role_held⟩
  · simp only [sees,false_imp_iff,true_and,Bool.false_eq_true,false_or]
    tauto

-- Workspace 3 is of organization 1; its owner names organization 2.
def twoOrganizations : State where
  users := [⟨⟨4⟩,"a@x".toList,[],true,false⟩,⟨⟨5⟩,"b@x".toList,[],true,false⟩]
  organizations := [⟨⟨1⟩⟩,⟨⟨2⟩⟩]
  organization_members := []
  workspaces := [⟨⟨3⟩,⟨1⟩⟩]
  workspace_members := [⟨⟨⟨3⟩,⟨4⟩,WorkspaceRole.owner.value⟩,⟨6⟩⟩]
  constraints := by decide
  profiles := fun _ => ⟨"Library".toList,"library".toList,[]⟩

theorem foreign_path_accepted :
    (∃ out, handle id twoOrganizations (some ⟨4⟩) ⟨⟨2⟩,⟨3⟩,.addMember "b@x".toList .viewer⟩ ⟨7⟩ = .ok out) ∧
      ¬ Belongs twoOrganizations ⟨2⟩ ⟨3⟩ := by
  constructor
  · exact handle_ok.mpr ⟨⟨_,rfl,_,rfl⟩,nofun,by
      rintro (member | ⟨row,taken,key⟩)
      · revert member
        decide
      · revert row
        decide⟩
  · rintro ⟨workspace,member,_,same⟩
    revert workspace
    decide

end RagForge.WorkspaceRoutes
