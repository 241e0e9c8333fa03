import RagForge.Sessions

namespace RagForge.AuditTrail
open RagForge Transition Credentials
open RagForge.Accounts (Platform Security Flag AdminUpdate AdminPhase AdminLabel getCurrentUser)
open RagForge.Sessions (Realm RegisterPhase RegisterLabel ChangePhase ChangeLabel)

-- The texts the pattern of `AdminOrganizationPlanUpdate` admits.
inductive PlanTier where
  | free | pro | enterprise
  deriving DecidableEq

def PlanTier.value : PlanTier → Str
  | .free => "free".toList
  | .pro => "pro".toList
  | .enterprise => "enterprise".toList

structure OrganizationPlan where
  id : Uuid
  plan_tier : Str
  deriving DecidableEq

inductive AuditMetadata where
  | is_active (value : Bool)
  | is_superuser (value : Bool)
  | plan_tier (value : Str)
  deriving DecidableEq

structure AuditLog where
  id : Uuid
  organization_id : Option Uuid
  user_id : Option Uuid
  action : Str
  resource_type : Str
  resource_id : Option Uuid
  ip_address : Option Str
  audit_metadata : AuditMetadata
  created_at : Nat
  deriving DecidableEq

-- The flags of an account.
structure AccountFlags where
  id : Uuid
  is_active : Bool
  is_superuser : Bool
  deriving DecidableEq

def AccountFlags.of (user : User) : AccountFlags := ⟨user.id,user.is_active,user.is_superuser⟩

-- What a commit adds to the history: an account with its organization, or an
-- audit row.
inductive Entry where
  | registered (account : AccountFlags) (organization : OrganizationPlan)
  | audited (row : AuditLog)
  deriving DecidableEq

def Entry.row : Entry → Option AuditLog
  | .registered _ _ => none
  | .audited row => some row

-- `pending` are the open INSERTs of `users`. `journal` logs registrations beside
-- the audit rows, in the order of the commits; no service reads it.
structure Store where
  platform : Platform
  pending : List (Nat × User)
  organizations : List OrganizationPlan
  planLocks : Uuid → Option Nat
  audit_logs : List AuditLog
  journal : List Entry

namespace Store

def realm (s : Store) (now : Nat) : Realm := ⟨s.platform,s.pending,now,[],[]⟩

def withRealm (s : Store) (realm : Realm) : Store := {s with platform := realm.platform,pending := realm.pending}

def enter (s : Store) (entry : Option Entry) : Store :=
  {s with audit_logs := s.audit_logs ++ (entry.bind Entry.row).toList,journal := s.journal ++ entry.toList}

def getOrganization (s : Store) (organization_id : Uuid) : Option OrganizationPlan := s.organizations.find? (·.id = organization_id)

def lockPlan (s : Store) (organization_id : Uuid) (i : Nat) : Option Store :=
  match s.planLocks organization_id with
  | none => some {s with planLocks := Function.update s.planLocks organization_id (some i)}
  | some holder => if holder = i then some s else none

def release (s : Store) (i : Nat) : Store :=
  {s with planLocks := fun row => if s.planLocks row = some i then none else s.planLocks row}

end Store

-- `UPDATE organizations SET plan_tier = ... WHERE id = ...`
def setPlan (organization_id : Uuid) (plan_tier : Str) (row : OrganizationPlan) : OrganizationPlan :=
  if row.id = organization_id then {row with plan_tier := plan_tier} else row

inductive PlanPhase where
  | received (token : Option Str) (organization_id : Uuid) (plan_tier : PlanTier)
  | authenticated (admin : User) (organization_id : Uuid) (plan_tier : PlanTier)
  | loaded (admin : User) (organization : OrganizationPlan) (plan_tier : PlanTier)
  | flushed (admin : User) (organization_id : Uuid) (plan_tier : PlanTier) (written : Bool)
  | committed (admin : User) (organization_id : Uuid) (plan_tier : PlanTier)
  | failed (message : Str)

-- `update_organization_plan` up to its commit, but for the audit row.
def updatePlan (security : Security) (i : Nat) (s : Store) : PlanPhase → AdminLabel → Option (Store × PlanPhase)
  | .received token organization_id plan_tier,.authenticate now =>
    match getCurrentUser security s.platform token now with
    | .error message => some (s,.failed message)
    | .ok current_user =>
      if current_user.is_superuser then some (s,.authenticated current_user organization_id plan_tier)
      else some (s,.failed "Superuser access required".toList)
  | .authenticated admin organization_id plan_tier,.load =>
    match s.getOrganization organization_id with
    | none => some (s,.failed "Organization not found".toList)
    | some organization => some (s,.loaded admin organization plan_tier)
  | .loaded admin organization plan_tier,.flush =>
    if organization.plan_tier = plan_tier.value then some (s,.flushed admin organization.id plan_tier false)
    else (s.lockPlan organization.id i).map (·,.flushed admin organization.id plan_tier true)
  | .flushed admin organization_id plan_tier written,.commit =>
    some ((if written then {s with organizations := s.organizations.map (setPlan organization_id plan_tier.value)} else s).release i,
      .committed admin organization_id plan_tier)
  | .received _ _ _,.fails message => some (s,.failed message)
  | .authenticated _ _ _,.fails message => some (s,.failed message)
  | .loaded _ _ _,.fails message => some (s,.failed message)
  | .flushed _ _ _ _,.fails message => some (s.release i,.failed message)
  | _,_ => none

-- What the database fills into an audit row: its key, and the clock of its
-- transaction.
structure Stamp where
  id : Uuid
  created_at : Nat
  deriving DecidableEq

def auditAction : Flag → Str
  | .is_active => "admin.user.active_updated".toList
  | .is_superuser => "admin.user.superuser_updated".toList

def auditMetadata (update : AdminUpdate) : AuditMetadata :=
  match update.flag with
  | .is_active => .is_active update.value
  | .is_superuser => .is_superuser update.value

-- `record_audit_event`, as the three endpoints call it.
def userEvent (stamp : Stamp) (ip_address : Option Str) (admin : User) (update : AdminUpdate) : AuditLog :=
  ⟨stamp.id,none,some admin.id,auditAction update.flag,"user".toList,some update.user_id,ip_address,auditMetadata update,stamp.created_at⟩

def planEvent (stamp : Stamp) (ip_address : Option Str) (admin : User) (organization_id : Uuid) (plan_tier : PlanTier) : AuditLog :=
  ⟨stamp.id,some organization_id,some admin.id,"admin.organization.plan_updated".toList,"organization".toList,some organization_id,
    ip_address,.plan_tier plan_tier.value,stamp.created_at⟩

-- Requests of the admin panel with the client's address, beside all others. A
-- registration has drawn the key of its organization; `update_me` writes a column
-- that is not kept here, and is one of the requests of `Accounts`.
inductive Activity where
  | account (ip_address : Option Str) (activity : Accounts.Activity)
  | plan (ip_address : Option Str) (phase : PlanPhase)
  | register (phase : RegisterPhase) (organization_id : Uuid)
  | change (phase : ChangePhase)

inductive Label where
  | account (label : Accounts.Label) (stamp : Stamp)
  | plan (label : AdminLabel) (stamp : Stamp)
  | register (label : RegisterLabel)
  | change (label : ChangeLabel) (now : Nat)

-- The organization of a new account, under the default of its column.
def newOrganization (organization_id : Uuid) : OrganizationPlan := ⟨organization_id,PlanTier.free.value⟩

-- What a committed request has added in its transaction.
def Activity.entry : Label → Activity → Option Entry
  | .account _ stamp,.account ip_address (.admin (.committed admin update)) => some (.audited (userEvent stamp ip_address admin update))
  | .plan _ stamp,.plan ip_address (.committed admin organization_id plan_tier) =>
    some (.audited (planEvent stamp ip_address admin organization_id plan_tier))
  | .register _,.register (.created user) organization_id => some (.registered (.of user) (newOrganization organization_id))
  | _,_ => none

def opened (organization_id : Uuid) : RegisterPhase → List OrganizationPlan
  | .created _ => [newOrganization organization_id]
  | _ => []

variable (libraries : Libraries)

-- A drawn key is no key in use.
def act (i : Nat) (s : Store) : Activity → Label → Option (Store × Activity)
  | .account ip_address activity,.account label stamp =>
    (Accounts.act (security libraries) i s.platform activity label).map fun out =>
      ({s with platform := out.1}.enter (Activity.entry (.account label stamp) (.account ip_address out.2)),.account ip_address out.2)
  | .plan ip_address phase,.plan label stamp =>
    (updatePlan (security libraries) i s phase label).map fun out =>
      (out.1.enter (Activity.entry (.plan label stamp) (.plan ip_address out.2)),.plan ip_address out.2)
  | .register phase organization_id,.register label =>
    if (s.getOrganization organization_id).isSome then none else
    (Sessions.register libraries i (s.realm 0) phase label).map fun out =>
      ({s.withRealm out.1 with organizations := s.organizations ++ opened organization_id out.2}.enter
        (Activity.entry (.register label) (.register out.2 organization_id)),.register out.2 organization_id)
  | .change phase,.change label now =>
    (Sessions.changePassword libraries i (s.realm now) phase label).map fun out => (s.withRealm out.1,.change out.2)
  | _,_ => none

abbrev Config := Interleave.Config Store Activity
abbrev Step : Config → Nat × Label → Config → Prop := Interleave.Step (act libraries)

variable {libraries : Libraries}

-- What an audit row speaks of.
structure Governed where
  users : List AccountFlags
  organizations : List OrganizationPlan
  deriving DecidableEq

def Store.governed (s : Store) : Governed := ⟨s.platform.users.map .of,s.organizations⟩

-- What a row says has happened.
def replayRow (g : Governed) (row : AuditLog) : Governed :=
  match row.resource_id with
  | none => g
  | some id => match row.audit_metadata with
    | .is_active value => {g with users := g.users.map fun account => if account.id = id then {account with is_active := value} else account}
    | .is_superuser value =>
      {g with users := g.users.map fun account => if account.id = id then {account with is_superuser := value} else account}
    | .plan_tier value => {g with organizations := g.organizations.map (setPlan id value)}

def replayEntry (g : Governed) : Entry → Governed
  | .registered account organization => ⟨g.users ++ [account],g.organizations ++ [organization]⟩
  | .audited row => replayRow g row

def replay (g : Governed) (entries : List Entry) : Governed := entries.foldl replayEntry g

inductive PlanChange (security : Security) (i : Nat) (s : Store) : PlanPhase → AdminLabel → Store → PlanPhase → Prop where
  | authenticate : getCurrentUser security s.platform token now = .ok admin → admin.is_superuser = true →
      PlanChange security i s (.received token organization_id plan_tier) (.authenticate now) s (.authenticated admin organization_id plan_tier)
  | load : s.getOrganization organization_id = some organization →
      PlanChange security i s (.authenticated admin organization_id plan_tier) .load s (.loaded admin organization plan_tier)
  | skip : organization.plan_tier = plan_tier.value →
      PlanChange security i s (.loaded admin organization plan_tier) .flush s (.flushed admin organization.id plan_tier false)
  | flush : organization.plan_tier ≠ plan_tier.value → s.lockPlan organization.id i = some s' →
      PlanChange security i s (.loaded admin organization plan_tier) .flush s' (.flushed admin organization.id plan_tier true)
  | commit : PlanChange security i s (.flushed admin organization_id plan_tier written) .commit
      ((if written then {s with organizations := s.organizations.map (setPlan organization_id plan_tier.value)} else s).release i)
      (.committed admin organization_id plan_tier)
  | stop : label ≠ .commit → s' = s ∨ s' = s.release i → PlanChange security i s phase label s' (.failed message)

theorem updatePlan_change {security : Security} (acted : updatePlan security i s phase label = some (s',phase')) :
    PlanChange security i s phase label s' phase' := by
  unfold updatePlan at acted
  split at acted
  · split at acted
    · cases acted; exact .stop (by simp) (.inl rfl)
    · rename_i authenticated
      split at acted
      · rename_i superuser
        cases acted
        exact .authenticate authenticated superuser
      · cases acted; exact .stop (by simp) (.inl rfl)
  · split at acted
    · cases acted; exact .stop (by simp) (.inl rfl)
    · rename_i found
      cases acted
      exact .load found
  · split at acted
    · rename_i same
      cases acted
      exact .skip same
    · rename_i different
      obtain ⟨after,locked,equal⟩ := Option.map_eq_some_iff.mp acted
      cases equal
      exact .flush different locked
  · cases acted; exact .commit
  · cases acted; exact .stop (by simp) (.inl rfl)
  · cases acted; exact .stop (by simp) (.inl rfl)
  · cases acted; exact .stop (by simp) (.inl rfl)
  · cases acted; exact .stop (by simp) (.inr rfl)
  · cases acted

theorem lockPlan_rest {s : Store} (locked : s.lockPlan row i = some s') :
    s'.governed = s.governed ∧ s'.audit_logs = s.audit_logs ∧ s'.journal = s.journal := by
  unfold Store.lockPlan at locked
  split at locked
  · cases locked; exact ⟨rfl,rfl,rfl⟩
  · split at locked
    · cases locked; exact ⟨rfl,rfl,rfl⟩
    · cases locked

def Label.commits : Label → Bool
  | .account (.admin .commit) _ => true
  | .plan .commit _ => true
  | .register .commit => true
  | _ => false

-- What an open transaction is about to add, and whether it changes the tables
-- with it.
def Activity.closing : Label → Activity → Option (Entry × Bool)
  | .account _ stamp,.account ip_address (.admin (.flushed admin update written)) =>
    some (.audited (userEvent stamp ip_address admin update),written)
  | .plan _ stamp,.plan ip_address (.flushed admin organization_id plan_tier written) =>
    some (.audited (planEvent stamp ip_address admin organization_id plan_tier),written)
  | .register _,.register (.inserted user _) organization_id => some (.registered (.of user) (newOrganization organization_id),true)
  | _,_ => none

-- A step leaves the governed tables and the log alone, or it is a commit: one
-- entry, and with it the change the entry speaks of or none.
inductive Recorded (s : Store) (a : Activity) (label : Label) (s' : Store) (a' : Activity) : Prop where
  | quiet : label.commits = false → s'.governed = s.governed → s'.audit_logs = s.audit_logs → s'.journal = s.journal →
      Recorded s a label s' a'
  | closed (entry : Entry) (written : Bool) : label.commits = true → a.closing label = some (entry,written) →
      a'.entry label = some entry → s'.audit_logs = s.audit_logs ++ entry.row.toList → s'.journal = s.journal ++ [entry] →
      s'.governed = (if written then replayEntry s.governed entry else s.governed) → Recorded s a label s' a'

theorem enter_none (s : Store) : s.enter none = s := by simp [Store.enter]

-- The flags after an update are those its row tells.
theorem replayRow_user (stamp : Stamp) (ip_address : Option Str) (admin : User) (update : AdminUpdate) (users : List User)
    (organizations : List OrganizationPlan) :
    replayRow ⟨users.map .of,organizations⟩ (userEvent stamp ip_address admin update) = ⟨(users.map update.row).map .of,organizations⟩ := by
  have each (user : User) : AccountFlags.of (update.row user) = if user.id = update.user_id then
      (match update.flag with
        | .is_active => {AccountFlags.of user with is_active := update.value}
        | .is_superuser => {AccountFlags.of user with is_superuser := update.value}) else .of user := by
    unfold AdminUpdate.row
    split
    · cases update.flag <;> rfl
    · rfl
  obtain ⟨flag,user_id,value,refusal⟩ := update
  cases flag with
  | is_active =>
    refine congrArg (Governed.mk · organizations) ?_
    rw [List.map_map,List.map_map]
    exact List.map_congr_left fun user _ => (each user).symm
  | is_superuser =>
    refine congrArg (Governed.mk · organizations) ?_
    rw [List.map_map,List.map_map]
    exact List.map_congr_left fun user _ => (each user).symm

-- Only a flushed update can commit, and then it does.
theorem commit_flushed {security : Security} (acted : Accounts.updateUser security i p phase .commit = some (p',phase')) :
    ∃ admin update, phase' = .committed admin update := by
  cases phase with
  | flushed admin update written => cases acted; exact ⟨admin,update,rfl⟩
  | _ => cases acted

theorem account_recorded {security : Security} (acted : Accounts.act security i p activity label = some (p',activity')) :
    (p'.users = p.users ∧ label ≠ .admin .commit ∧ ∀ label ip_address, Activity.entry label (.account ip_address activity') = none) ∨
      ∃ admin update written, activity = .admin (.flushed admin update written) ∧ label = .admin .commit ∧
        activity' = .admin (.committed admin update) ∧ p'.users = if written then p.users.map update.row else p.users := by
  have silent {activity : Accounts.Activity} (open_ : ∀ admin update, activity ≠ .admin (.committed admin update)) (label : Label)
      (ip_address : Option Str) : Activity.entry label (.account ip_address activity) = none := by
    unfold Activity.entry
    split
    · rename_i committed
      cases committed
      exact absurd rfl (open_ _ _)
    · rename_i other
      cases other
    · rename_i other
      cases other
    · rfl
  cases Accounts.act_change acted with
  | login change => cases change <;> exact .inl ⟨rfl,by simp,silent (by simp)⟩
  | admin change =>
    cases change with
    | flush _ locked => exact .inl ⟨Accounts.lockFlags_users locked,by simp,silent (by simp)⟩
    | write => exact .inr ⟨_,_,true,rfl,rfl,rfl,rfl⟩
    | keep => exact .inr ⟨_,_,false,rfl,rfl,rfl,rfl⟩
    | @stop _ _ label _ same =>
      refine .inl ⟨same,fun committing => ?_,silent (by simp)⟩
      cases committing
      obtain ⟨phase,moved,equal⟩ := lifted acted
      obtain ⟨admin,update,done⟩ := commit_flushed moved
      rw [done] at equal
      cases equal
    | _ => exact .inl ⟨rfl,by simp,silent (by simp)⟩
  | _ => exact .inl ⟨rfl,by simp,silent (by simp)⟩

-- A registration changes the tables at its commit only.
theorem register_recorded {s s' : Realm} (moved : Sessions.register libraries i s phase label = some (s',phase')) :
    (s'.platform.users = s.platform.users ∧ label ≠ .commit ∧ ∀ user, phase' ≠ .created user) ∨
      ∃ user password, phase = .inserted user password ∧ label = .commit ∧ phase' = .created user ∧
        s'.platform.users = s.platform.users ++ [user] := by
  unfold Sessions.register at moved
  split at moved
  · split at moved <;> (cases moved; exact .inl ⟨rfl,by simp,by simp⟩)
  · simp only at moved
    split at moved
    · cases moved; exact .inl ⟨rfl,by simp,by simp⟩
    · obtain ⟨after,inserted,equal⟩ := Option.map_eq_some_iff.mp moved
      cases equal
      obtain ⟨rfl,_⟩ := Sessions.insert_parts inserted
      exact .inl ⟨rfl,by simp,by simp⟩
  · cases moved; exact .inr ⟨_,_,rfl,rfl,rfl,rfl⟩
  all_goals first | (cases moved; exact .inl ⟨rfl,by simp,by simp⟩) | cases moved

-- A new password leaves the flags as they are.
theorem change_flags {s s' : Realm} (moved : Sessions.changePassword libraries i s phase label = some (s',phase')) :
    s'.platform.users.map AccountFlags.of = s.platform.users.map .of := by
  unfold Sessions.changePassword at moved
  split at moved
  · split at moved <;> (cases moved; rfl)
  · split at moved <;> (cases moved; rfl)
  · obtain ⟨p,locked,equal⟩ := Option.map_eq_some_iff.mp moved
    cases equal
    exact congrArg (List.map AccountFlags.of) (Accounts.lockFlags_users locked)
  · rename_i setting hashed_password
    cases moved
    have same (user : User) : AccountFlags.of (Sessions.setPassword setting.user_id hashed_password user) = .of user := by
      unfold Sessions.setPassword
      split <;> rfl
    change (s.platform.users.map _).map AccountFlags.of = _
    rw [List.map_map]
    exact List.map_congr_left fun user _ => same user
  all_goals first | (cases moved; rfl) | cases moved

theorem flags_users {users users' : List User} (same : users = users') (organizations : List OrganizationPlan) :
    Governed.mk (users.map .of) organizations = .mk (users'.map .of) organizations := by rw [same]

theorem recorded_account (moved : Accounts.act (security libraries) i s.platform activity label = some (p',activity')) :
    Recorded s (.account ip_address activity) (.account label stamp)
      ({s with platform := p'}.enter (Activity.entry (.account label stamp) (.account ip_address activity'))) (.account ip_address activity') := by
  rcases account_recorded moved with ⟨users,other,silent⟩ | ⟨admin,update,written,rfl,rfl,rfl,users⟩
  · rw [silent,enter_none]
    refine .quiet ?_ (flags_users users _) rfl rfl
    unfold Label.commits
    split
    · rename_i same
      cases same
      exact absurd rfl other
    · rename_i same
      cases same
    · rename_i same
      cases same
    · rfl
  · refine .closed _ written rfl rfl rfl rfl rfl ((flags_users users _).trans ?_)
    cases written with
    | true => exact (replayRow_user stamp ip_address admin update s.platform.users s.organizations).symm
    | false => rfl

theorem recorded_plan (moved : updatePlan (security libraries) i s phase label = some (after,phase')) :
    Recorded s (.plan ip_address phase) (.plan label stamp) (after.enter (Activity.entry (.plan label stamp) (.plan ip_address phase')))
      (.plan ip_address phase') := by
  have quiet (other : label ≠ .commit) : (Label.plan label stamp).commits = false := by
    cases label <;> first | rfl | exact absurd rfl other
  cases updatePlan_change moved with
  | authenticate | load | skip => exact .quiet (quiet (by simp)) rfl (List.append_nil _) (List.append_nil _)
  | flush _ locked =>
    obtain ⟨same,logs,journal⟩ := lockPlan_rest locked
    exact .quiet (quiet (by simp)) same ((List.append_nil _).trans logs) ((List.append_nil _).trans journal)
  | stop other still =>
    rcases still with rfl | rfl <;> exact .quiet (quiet other) rfl (List.append_nil _) (List.append_nil _)
  | @commit admin organization_id plan_tier written =>
    refine .closed _ written rfl rfl rfl ?_ ?_ ?_
    · cases written <;> rfl
    · cases written <;> rfl
    · cases written <;> rfl

theorem recorded_register {realm : Realm} (moved : Sessions.register libraries i (s.realm 0) phase label = some (realm,phase')) :
    Recorded s (.register phase organization_id) (.register label)
      ({s.withRealm realm with organizations := s.organizations ++ opened organization_id phase'}.enter
        (Activity.entry (.register label) (.register phase' organization_id))) (.register phase' organization_id) := by
  rcases register_recorded moved with ⟨users,other,open_⟩ | ⟨user,password,rfl,rfl,rfl,users⟩
  · have none_ : opened organization_id phase' = [] ∧ Activity.entry (.register label) (.register phase' organization_id) = none := by
      cases phase' with
      | created user => exact absurd rfl (open_ user)
      | _ => exact ⟨rfl,rfl⟩
    rw [none_.2,enter_none,none_.1,List.append_nil]
    refine .quiet ?_ (flags_users users _) rfl rfl
    cases label <;> first | rfl | exact absurd rfl other
  · refine .closed _ true rfl rfl rfl rfl rfl ((flags_users users _).trans ?_)
    rw [List.map_append]
    rfl

theorem act_recorded (acted : act libraries i s a label = some (s',a')) : Recorded s a label s' a' := by
  unfold act at acted
  split at acted
  · obtain ⟨_,moved,equal⟩ := Option.map_eq_some_iff.mp acted
    cases equal
    exact recorded_account moved
  · obtain ⟨_,moved,equal⟩ := Option.map_eq_some_iff.mp acted
    cases equal
    exact recorded_plan moved
  · split at acted
    · cases acted
    obtain ⟨_,moved,equal⟩ := Option.map_eq_some_iff.mp acted
    cases equal
    exact recorded_register moved
  · obtain ⟨⟨realm,phase'⟩,moved,equal⟩ := Option.map_eq_some_iff.mp acted
    cases equal
    exact .quiet rfl (congrArg (Governed.mk · s.organizations) (change_flags moved)) rfl rfl
  · cases acted

def fresh : Activity → Bool
  | .account _ activity => AdminLockout.fresh activity
  | .plan _ (.received _ _ _) => true
  | .register (.requested _ _) _ => true
  | .change (.received _ _ _) => true
  | _ => false

-- Past its authentication an admin request has an active superuser behind it, and
-- an account comes in active and without powers.
def Vouched : Activity → Prop
  | .account _ (.admin (.authenticated admin _)) => admin.is_active = true ∧ admin.is_superuser = true
  | .account _ (.admin (.loaded admin _ _)) => admin.is_active = true ∧ admin.is_superuser = true
  | .account _ (.admin (.flushed admin _ _)) => admin.is_active = true ∧ admin.is_superuser = true
  | .account _ (.admin (.committed admin _)) => admin.is_active = true ∧ admin.is_superuser = true
  | .plan _ (.authenticated admin _ _) => admin.is_active = true ∧ admin.is_superuser = true
  | .plan _ (.loaded admin _ _) => admin.is_active = true ∧ admin.is_superuser = true
  | .plan _ (.flushed admin _ _ _) => admin.is_active = true ∧ admin.is_superuser = true
  | .plan _ (.committed admin _ _) => admin.is_active = true ∧ admin.is_superuser = true
  | .register (.inserted user _) _ => user.is_active = true ∧ user.is_superuser = false
  | .register (.created user) _ => user.is_active = true ∧ user.is_superuser = false
  | _ => True

-- Who or what an entry vouches for.
def Entry.Vouched : Entry → Prop
  | .registered account organization => account.is_active = true ∧ account.is_superuser = false ∧ organization.plan_tier = PlanTier.free.value
  | .audited row => ∃ admin : User, row.user_id = some admin.id ∧ admin.is_active = true ∧ admin.is_superuser = true

theorem replay_snoc (g : Governed) (entries : List Entry) (entry : Entry) :
    replay g (entries ++ [entry]) = replayEntry (replay g entries) entry := by
  rw [replay,replay,List.foldl_append]
  rfl

-- The log, read from its first new row to its last with the registrations in
-- between, tells the tables.
def Agrees (start c : Config) : Prop :=
  ∃ added, c.shared.journal = start.shared.journal ++ added ∧
    c.shared.audit_logs = start.shared.audit_logs ++ added.filterMap Entry.row ∧
    c.shared.governed = replay start.shared.governed added

-- A commit whose request found nothing to change when it looked still has
-- nothing to change.
def Current (c : Config) (label : Nat × Label) : Prop :=
  ∀ entry, label.2.commits = true → (c.locals label.1).closing label.2 = some (entry,false) →
    replayEntry c.shared.governed entry = c.shared.governed

theorem agrees_step (agrees : Agrees start s) (moved : Step libraries s label next) : Agrees start next ↔ Current s label := by
  obtain ⟨added,journal,appended,tables⟩ := agrees
  obtain ⟨acted,_⟩ := Interleave.step_parts moved
  cases act_recorded acted with
  | quiet other same logs entered =>
    refine iff_of_true ⟨added,entered.trans journal,logs.trans appended,same.trans tables⟩ fun entry committing => ?_
    rw [other] at committing
    cases committing
  | closed entry written committing closing _ logs entered after =>
    have grown : next.shared.journal = start.shared.journal ++ (added ++ [entry]) := by
      rw [entered,journal,List.append_assoc]
    have logged : next.shared.audit_logs = start.shared.audit_logs ++ (added ++ [entry]).filterMap Entry.row := by
      rw [logs,appended,List.append_assoc,List.filterMap_append]
      cases entry <;> rfl
    have told : replay start.shared.governed (added ++ [entry]) = replayEntry s.shared.governed entry := by
      rw [tables,replay_snoc]
    cases written with
    | true =>
      refine iff_of_true ⟨added ++ [entry],grown,logged,after.trans told.symm⟩ fun other _ here => ?_
      rw [closing] at here
      cases here
    | false =>
      constructor
      · rintro ⟨later,added',_,governed⟩ other _ here
        rw [closing] at here
        cases here
        cases List.append_cancel_left (grown.symm.trans added')
        rw [told] at governed
        exact governed.symm.trans after
      · intro current
        exact ⟨added ++ [entry],grown,logged,by rw [told,current entry committing closing]; exact after⟩

-- So the log tells the tables throughout a run exactly when no request commits
-- a row about a change that somebody else has undone in between.
theorem log_tells_iff (libraries : Libraries) (start c : Config) (labels : List (Nat × Label)) (path : Runs (Step libraries) start labels c) :
    (∀ m, Passes (Step libraries) start labels c m → Agrees start m) ↔ Runs (within Current (Step libraries)) start labels c :=
  path.kept_iff (Agrees start) ⟨[],(List.append_nil _).symm,(List.append_nil _).symm,rfl⟩ fun _ _ _ agrees moved => agrees_step agrees moved

-- Ada deactivates Bob, Carol registers, and Ada moves an organization to another
-- plan.
def adasToken : Str := createAccessToken Sessions.readable (Uuid.str ⟨1⟩) none 0 []

def office : Config where
  shared := {
    platform := AdminLockout.panel.shared
    pending := []
    organizations := [⟨⟨40⟩,"free".toList⟩]
    planLocks := fun _ => none
    audit_logs := []
    journal := []}
  locals
    | 0 => .account none (.admin (.received (some adasToken) (Accounts.updateUserActive ⟨2⟩ false)))
    | 1 => .register (.requested "Carol@example.com".toList "pw".toList) ⟨41⟩
    | 2 => .plan none (.received (some adasToken) ⟨40⟩ .pro)
    | _ => .account none .idle

theorem office_fresh : ∀ i, fresh (office.locals i) = true := by
  intro i
  match i with
  | 0 | 1 | 2 | 3 => rfl
  | _ + 4 => rfl

def accountSteps (i : Nat) (labels : List AdminLabel) : List (Nat × Label) :=
  labels.map fun label => (i,.account (.admin label) ⟨⟨100 + i⟩,i⟩)

def planSteps (i : Nat) : List (Nat × Label) :=
  [.authenticate 0,.load,.flush,.commit].map fun label => (i,.plan label ⟨⟨100 + i⟩,i⟩)

def registerSteps (i : Nat) : List (Nat × Label) := [.check,.insert ⟨3⟩ [],.commit].map fun label => (i,.register label)

def inTurn : List (Nat × Label) := accountSteps 0 [.authenticate 0,.load,.flush,.commit] ++ registerSteps 1 ++ planSteps 2

def current (c : Config) (label : Nat × Label) : Bool :=
  !label.2.commits || match (c.locals label.1).closing label.2 with
    | some (entry,false) => decide (replayEntry c.shared.governed entry = c.shared.governed)
    | _ => true

theorem current_sound (passed : current c label = true) : Current c label := by
  intro entry committing closing
  unfold current at passed
  rw [committing,closing] at passed
  simpa using passed

theorem office_told : ∃ c, Runs (Step Sessions.readable) office inTurn c ∧ Agrees office c := by
  obtain ⟨c,path,_⟩ := run_within (Interleave.advance (act Sessions.readable)) office inTurn current Current (fun _ => true)
    (by decide +kernel) fun _ _ _ _ passed => current_sound passed
  have all := (log_tells_iff Sessions.readable office c inTurn path.unguarded).mpr path
  exact ⟨c,path.unguarded,all c (.here path.unguarded)⟩

end RagForge.AuditTrail
