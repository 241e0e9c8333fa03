import RagForge.AdminLockout

namespace RagForge.Deactivation
open Accounts AdminLockout Transition
open RagForge.AuthService (RefreshPhase RefreshLabel)

def Inactive (u : Uuid) (p : Platform) : Prop := ∀ user ∈ p.users, user.id = u → user.is_active = false

-- The account a request has been let in to, if any.
def servedAs : Activity → Option Uuid
  | .login (.authenticated user _ _) => some user.id
  | .login (.inserted user _ _) => some user.id
  | .login (.returned user _) => some user.id
  | .refresh _ account => account
  | .admin (.authenticated admin _) => some admin.id
  | .admin (.loaded admin _ _) => some admin.id
  | .admin (.flushed admin _ _) => some admin.id
  | .admin (.committed admin _) => some admin.id
  | .request (.authenticated current_user) => some current_user.id
  | _ => none

-- A token pair handed out, by password or by refresh token.
def Obtained (u : Uuid) : Activity → Prop
  | .login (.returned user _) => user.id = u
  | .refresh (.exchanged _ _) account => account = some u
  | _ => False

-- A caller known to an endpoint.
def AuthenticatedAs (u : Uuid) : Activity → Prop
  | .request (.authenticated current_user) => current_user.id = u
  | .admin (.authenticated admin _) => admin.id = u
  | _ => False

theorem obtained_served (obtained : Obtained u a) : servedAs a = some u := by
  unfold Obtained at obtained
  split at obtained
  · exact congrArg some obtained
  · exact obtained
  · cases obtained

theorem authenticated_served (authenticated : AuthenticatedAs u a) : servedAs a = some u := by
  unfold AuthenticatedAs at authenticated
  split at authenticated
  · exact congrArg some authenticated
  · exact congrArg some authenticated
  · cases authenticated

theorem fresh_unserved (begun : fresh a = true) : servedAs a = none := by
  unfold fresh at begun
  split at begun <;> first | rfl | cases begun

theorem getCurrentUser_active (found : getCurrentUser security p token now = .ok user) :
    user ∈ p.users ∧ user.is_active = true := by
  unfold getCurrentUser at found
  split at found
  · cases found
  · split at found
    · cases found
    · cases found
    · split at found
      · cases found
      · split at found
        · cases found
        · split at found
          · cases found
          · split at found
            · cases found
            · rename_i looked
              split at found
              · rename_i active
                cases found
                exact ⟨List.mem_of_find?_eq_some looked,active⟩
              · cases found

theorem authenticateUser_active (found : authenticateUser security p email password = .ok user) :
    user ∈ p.users ∧ user.is_active = true := by
  unfold authenticateUser at found
  split at found
  · cases found
  · rename_i looked
    split at found
    · cases found
    · split at found
      · rename_i active
        cases found
        exact ⟨List.mem_of_find?_eq_some looked,active⟩
      · cases found

-- A refresh finds out about the account in one step, by an active row.
theorem refresh_account {p : Platform} (moved : AuthService.refresh security i p.store phase label = some (s,phase')) :
    accountAfter account phase' = account ∨
      ∃ user ∈ p.users, user.is_active = true ∧ accountAfter account phase' = some user.id := by
  cases phase' with
  | authorized request row found =>
    refine .inr ?_
    cases phase with
    | checked request' row' =>
      cases label with
      | user =>
        simp only [AuthService.refresh] at moved
        split at moved
        · cases moved
        · rename_i other looked
          split at moved
          · rename_i active
            cases moved
            exact ⟨found,List.mem_of_find?_eq_some looked,active,rfl⟩
          · cases moved
      | _ => cases moved
    | _ =>
      have change := AuthService.refresh_change moved
      cases change
  | _ => exact .inl rfl

-- Nobody is let in to an account but through an active row of it.
theorem act_served (acted : act security i p a label = some (p',a')) : servedAs a' = servedAs a ∨ servedAs a' = none ∨
    ∃ user ∈ p.users, user.is_active = true ∧ servedAs a' = some user.id := by
  cases act_change acted with
  | login change =>
    cases change with
    | authenticate found =>
      obtain ⟨member,active⟩ := authenticateUser_active found
      exact .inr (.inr ⟨_,member,active,rfl⟩)
    | stop => exact .inr (.inl rfl)
    | _ => exact .inl rfl
  | refresh moved => exact (refresh_account moved).imp id .inr
  | logout => exact .inl rfl
  | admin change =>
    cases change with
    | authenticate found _ =>
      obtain ⟨member,active⟩ := getCurrentUser_active found
      exact .inr (.inr ⟨_,member,active,rfl⟩)
    | stop => exact .inr (.inl rfl)
    | _ => exact .inl rfl
  | request found =>
    obtain ⟨member,active⟩ := getCurrentUser_active found
    exact .inr (.inr ⟨_,member,active,rfl⟩)
  | refuse => exact .inr (.inl rfl)

-- The commit of a `set_user_active(u, true)` that writes.
def Activates (u : Uuid) (c : Config) (label : Nat × Label) : Prop :=
  ∃ admin update, c.locals label.1 = .admin (.flushed admin update true) ∧ label.2 = .admin .commit ∧
    update.flag = .is_active ∧ update.user_id = u ∧ update.value = true

theorem inactive_step (inactive : Inactive u c.shared) (moved : Step security c label next) (quiet : ¬ Activates u c label) :
    Inactive u next.shared := by
  rcases act_users (Interleave.step_parts moved).1 with same | ⟨admin,update,writing,committing,written⟩
  · intro user member
    exact inactive user (same ▸ member)
  · intro after member named
    rw [written] at member
    obtain ⟨user,stored,rfl⟩ := List.mem_map.mp member
    by_cases target : user.id = update.user_id
    · rw [AdminUpdate.row,if_pos target] at named ⊢
      cases flag : update.flag with
      | is_superuser => rw [flag] at named; exact inactive user stored named
      | is_active =>
        rw [flag] at named
        have same : update.user_id = u := target.symm.trans named
        cases value : update.value with
        | false => rfl
        | true => exact absurd ⟨admin,update,writing,committing,flag,same,value⟩ quiet
    · rw [AdminUpdate.row,if_neg target] at named ⊢
      exact inactive user stored named

theorem interval_unserved (path : Runs (within (fun c label => ¬ Activates u c label) (Step security)) start labels c)
    (inactive : Inactive u start.shared) (unserved : servedAs (start.locals j) ≠ some u) :
    Inactive u c.shared ∧ servedAs (c.locals j) ≠ some u := by
  refine path.history (fun _ c => Inactive u c.shared ∧ servedAs (c.locals j) ≠ some u) ⟨inactive,unserved⟩ ?_
  intro _ s label next _ before moved
  obtain ⟨acted,same⟩ := Interleave.step_parts moved.2
  refine ⟨inactive_step before.1 moved.2 moved.1,?_⟩
  by_cases mine : j = label.1
  · subst mine
    rcases act_served acted with kept | refused | ⟨user,member,active,account⟩
    · rw [kept]; exact before.2
    · rw [refused]; nofun
    · rw [account]
      intro named
      cases active.symm.trans (before.1 user member (Option.some.inj named))
  · rw [same j mine]; exact before.2

-- The commit of a `set_user_active(u, false)`, with what its flush has done.
def Deactivates (u : Uuid) (written : Bool) (c : Config) (label : Nat × Label) : Prop :=
  ∃ admin, c.locals label.1 = .admin (.flushed admin (updateUserActive u false) written) ∧ label.2 = .admin .commit

theorem deactivated_row (named : ((updateUserActive u false).row user).id = u) :
    ((updateUserActive u false).row user).is_active = false := by
  unfold AdminUpdate.row at named ⊢
  by_cases target : user.id = (updateUserActive u false).user_id
  · rw [if_pos target]; rfl
  · rw [if_neg target] at named
    exact absurd named target

theorem deactivated (moved : Step security c label next) (commits : Deactivates u written c label)
    (effective : written = true ∨ Inactive u c.shared) : Inactive u next.shared := by
  obtain ⟨admin,writing,committing⟩ := commits
  have acted := (Interleave.step_parts moved).1
  rw [writing,committing] at acted
  have users := congrArg (fun out : Platform × Activity => out.1.users) (Option.some.inj acted)
  cases written with
  | true =>
    intro after member named
    have rows : c.shared.users.map (updateUserActive u false).row = next.shared.users := users
    rw [← rows] at member
    obtain ⟨user,_,rfl⟩ := List.mem_map.mp member
    exact deactivated_row named
  | false =>
    have rows : c.shared.users = next.shared.users := users
    intro user member
    exact effective.resolve_left Bool.false_ne_true user (rows ▸ member)

theorem deactivation_total (security : Security) (u : Uuid) (written : Bool) (c next later : Config) (label : Nat × Label)
    (labels : List (Nat × Label)) (j : Nat) (moved : Step security c label next) (commits : Deactivates u written c label)
    (effective : written = true ∨ Inactive u c.shared)
    (interval : Runs (within (fun c label => ¬ Activates u c label) (Step security)) next labels later)
    (begun : fresh (next.locals j) = true) : ¬ Obtained u (later.locals j) ∧ ¬ AuthenticatedAs u (later.locals j) := by
  have unserved : servedAs (next.locals j) ≠ some u := by rw [fresh_unserved begun]; nofun
  have closed := (interval_unserved interval (deactivated moved commits effective) unserved).2
  exact ⟨fun obtained => closed (obtained_served obtained),fun authenticated => closed (authenticated_served authenticated)⟩

-- Two admins, an account, and requests that come with its access token and with
-- its password. `active` is the flag the account starts with.
def office (active : Bool) : Config where
  shared := ⟨[⟨⟨1⟩,"ada@example.com".toList,"pw".toList,true,true⟩,⟨⟨2⟩,"bob@example.com".toList,"pw".toList,active,false⟩,
    ⟨⟨3⟩,"eve@example.com".toList,"pw".toList,true,true⟩],fun _ => none,[],fun _ => none,[],[]⟩
  locals
    | 0 => .admin (.received (some (Uuid.str ⟨1⟩)) (updateUserActive ⟨2⟩ false))
    | 1 => .admin (.received (some (Uuid.str ⟨3⟩)) (updateUserActive ⟨2⟩ true))
    | 2 => .request (.received (some (Uuid.str ⟨2⟩)))
    | 3 => .login (.requested "bob@example.com".toList "pw".toList none none)
    | _ => .idle

theorem office_fresh (active : Bool) : ∀ i, fresh ((office active).locals i) = true := by
  intro i
  match i with
  | 0 | 1 | 2 | 3 => rfl
  | _ + 4 => rfl

def prepared : List (Nat × Label) := [(0,.admin (.authenticate 0)),(0,.admin .load),(0,.admin .flush)]

-- The account is switched on between the read and the commit of a request that
-- found it switched off.
def overtaken : List (Nat × Label) := prepared ++ updateSteps 1

def committing (written : Bool) (c : Config) : Bool :=
  (match c.locals 0 with
  | .admin (.flushed _ update flag) => decide (update.flag = .is_active ∧ update.user_id = ⟨2⟩ ∧ update.value = false ∧
      update.refusal = (updateUserActive ⟨2⟩ false).refusal) && flag == written
  | _ => false) &&
  (fresh (c.locals 2) && fresh (c.locals 3))

theorem committing_parts (passed : committing written c = true) : Deactivates ⟨2⟩ written c (0,.admin .commit) ∧
    fresh (c.locals 2) = true ∧ fresh (c.locals 3) = true := by
  obtain ⟨phase,others⟩ := Bool.and_eq_true_iff.mp passed
  split at phase
  · rename_i admin update flag writing
    obtain ⟨named,same⟩ := Bool.and_eq_true_iff.mp phase
    obtain ⟨column,target,value,refusal⟩ := of_decide_eq_true named
    obtain ⟨_,_,_,_⟩ := update
    dsimp only at column target value refusal
    subst column target value refusal
    rw [eq_of_beq same] at writing
    exact ⟨⟨admin,writing,rfl⟩,Bool.and_eq_true_iff.mp others⟩
  · cases phase

def quietly (u : Uuid) (c : Config) (label : Nat × Label) : Bool :=
  match c.locals label.1 with
  | .admin (.flushed _ update true) => !(decide (update.flag = .is_active ∧ update.user_id = u ∧ update.value = true))
  | _ => true

theorem quietly_sound (passed : quietly u c label = true) : ¬ Activates u c label := by
  rintro ⟨admin,update,writing,_,column,target,value⟩
  unfold quietly at passed
  rw [writing] at passed
  simp [column,target,value] at passed

def entrances : List (Nat × Label) := [(2,.authenticate 0),(3,.login .authenticate)]

-- The commit is next, and after it the requests of the interval can run.
def followed (written : Bool) (labels : List (Nat × Label)) (check : Config → Bool) (c : Config) : Bool :=
  committing written c && (Interleave.advance (act plain) c (0,.admin .commit)).any fun next =>
    (run (guarded (quietly ⟨2⟩) (Interleave.advance (act plain))) next labels).any check

theorem followed_parts (passed : followed written labels check c = true) : Deactivates ⟨2⟩ written c (0,.admin .commit) ∧
    ∃ next later, Step plain c (0,.admin .commit) next ∧ fresh (next.locals 2) = true ∧ fresh (next.locals 3) = true ∧
      Runs (within (fun c label => ¬ Activates ⟨2⟩ c label) (Step plain)) next labels later ∧ check later = true := by
  obtain ⟨phase,follows⟩ := Bool.and_eq_true_iff.mp passed
  obtain ⟨commits,waiting,unlogged⟩ := committing_parts phase
  cases moved : Interleave.advance (act plain) c (0,.admin .commit) with
  | none => rw [moved] at follows; cases follows
  | some next =>
    rw [moved] at follows
    obtain ⟨later,interval,checked⟩ := run_within (Interleave.advance (act plain)) next labels (quietly ⟨2⟩)
      (fun c label => ¬ Activates ⟨2⟩ c label) check follows fun _ _ _ _ quiet => quietly_sound quiet
    have same := (Interleave.step_parts moved).2
    exact ⟨commits,next,later,moved,(same 2 (by decide)).symm ▸ waiting,(same 3 (by decide)).symm ▸ unlogged,interval,checked⟩

theorem entrances_shut : ∃ c next later, Runs (Step plain) (office true) prepared c ∧ Step plain c (0,.admin .commit) next ∧
    Runs (within (fun c label => ¬ Activates ⟨2⟩ c label) (Step plain)) next entrances later ∧
    ¬ AuthenticatedAs ⟨2⟩ (later.locals 2) ∧ ¬ Obtained ⟨2⟩ (later.locals 3) := by
  obtain ⟨c,path,ready⟩ := run_any (Interleave.advance (act plain)) (office true) prepared
    (followed true entrances fun _ => true) (by decide +kernel)
  obtain ⟨commits,next,later,moved,waiting,unlogged,interval,_⟩ := followed_parts ready
  exact ⟨c,next,later,path,moved,interval,
    (deactivation_total plain ⟨2⟩ true c next later _ entrances 2 moved commits (.inl rfl) interval waiting).2,
    (deactivation_total plain ⟨2⟩ true c next later _ entrances 3 moved commits (.inl rfl) interval unlogged).1⟩

def letIn (c : Config) : Bool :=
  match c.locals 2 with
  | .request (.authenticated current_user) => current_user.id == ⟨2⟩
  | _ => false

theorem letIn_sound (passed : letIn c = true) : AuthenticatedAs ⟨2⟩ (c.locals 2) := by
  unfold letIn at passed
  split at passed
  · rename_i current_user known
    rw [known]
    exact eq_of_beq passed
  · cases passed

theorem deactivation_overtaken : ¬ ∀ (security : Security) (u : Uuid) (written : Bool) (start c next later : Config)
    (earlier : List (Nat × Label)) (label : Nat × Label) (labels : List (Nat × Label)) (j : Nat),
    (∀ i, fresh (start.locals i) = true) → Runs (Step security) start earlier c → Step security c label next →
    Deactivates u written c label → Runs (within (fun c label => ¬ Activates u c label) (Step security)) next labels later →
    fresh (next.locals j) = true → ¬ Obtained u (later.locals j) ∧ ¬ AuthenticatedAs u (later.locals j) := by
  intro all
  obtain ⟨c,path,ready⟩ := run_any (Interleave.advance (act plain)) (office false) overtaken
    (followed false [(2,.authenticate 0)] letIn) (by decide +kernel)
  obtain ⟨commits,next,later,moved,waiting,_,interval,passed⟩ := followed_parts ready
  exact (all plain ⟨2⟩ false (office false) c next later overtaken _ _ 2 (office_fresh false) path moved commits interval waiting).2
    (letIn_sound passed)

end RagForge.Deactivation
