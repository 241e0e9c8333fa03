import RagForge.AuthService
import RagForge.Directory

namespace RagForge.Accounts
open Transition
open RagForge.AuthService (RefreshToken TokenPair RefreshPhase RefreshLabel LogoutPhase LogoutLabel)

structure Claims where
  type_ : Option Str
  sub : Option Str

inductive JwtError where
  | expired | invalid

-- Passwords, tokens and clocks, with the functions of the libraries behind them.
structure Security extends AuthService.Security where
  lower : Str → Str
  verifyPassword : Str → Str → Bool
  decodeToken : Str → Nat → Except JwtError Claims

-- The `users` rows and what `AuthService` keeps. `flag_locks` are the locks of
-- open UPDATEs of a user row; a read waits for none.
structure Platform where
  users : List User
  flagLocks : Uuid → Option Nat
  refresh_tokens : List RefreshToken
  locks : Uuid → Option Nat
  generated : List Str
  presented : List Str

namespace Platform

def store (p : Platform) : AuthService.Store := ⟨p.users,p.refresh_tokens,p.locks,p.generated,p.presented⟩

def withStore (p : Platform) (s : AuthService.Store) : Platform :=
  {p with refresh_tokens := s.refresh_tokens, locks := s.locks, generated := s.generated, presented := s.presented}

def getUserById (p : Platform) (user_id : Uuid) : Option User := p.users.find? (·.id = user_id)

def lockFlags (p : Platform) (user_id : Uuid) (i : Nat) : Option Platform :=
  match p.flagLocks user_id with
  | none => some {p with flagLocks := Function.update p.flagLocks user_id (some i)}
  | some holder => if holder = i then some p else none

def release (p : Platform) (i : Nat) : Platform :=
  {p with flagLocks := fun row => if p.flagLocks row = some i then none else p.flagLocks row}

end Platform

-- The two columns of the admin panel.
inductive Flag where
  | is_active | is_superuser
  deriving DecidableEq

def Flag.get : Flag → User → Bool
  | .is_active => User.is_active
  | .is_superuser => User.is_superuser

def Flag.set (value : Bool) (user : User) : Flag → User
  | .is_active => {user with is_active := value}
  | .is_superuser => {user with is_superuser := value}

structure AdminUpdate where
  flag : Flag
  user_id : Uuid
  value : Bool
  refusal : Str

def updateUserActive (user_id : Uuid) (is_active : Bool) : AdminUpdate :=
  ⟨.is_active,user_id,is_active,"You cannot deactivate your own account".toList⟩

def updateUserSuperuser (user_id : Uuid) (is_superuser : Bool) : AdminUpdate :=
  ⟨.is_superuser,user_id,is_superuser,"You cannot revoke your own superuser access".toList⟩

-- `UPDATE users SET flag = value WHERE id = ...`
def AdminUpdate.row (update : AdminUpdate) (user : User) : User :=
  if user.id = update.user_id then update.flag.set update.value user else user

def Platform.apply (p : Platform) (update : AdminUpdate) : Platform := {p with users := p.users.map update.row}

-- `get_current_user` on the bearer token of a request.
def getCurrentUser (security : Security) (p : Platform) (token : Option Str) (now : Nat) : Except Str User :=
  match token with
  | none => .error "Not authenticated".toList
  | some token => match security.decodeToken token now with
    | .error .expired => .error "Access token has expired".toList
    | .error .invalid => .error "Could not validate credentials".toList
    | .ok payload =>
      if payload.type_ ≠ some "access".toList then .error "Wrong token type".toList else
      match payload.sub with
      | none => .error "Malformed token".toList
      | some subject => match Uuid.parse subject with
        | none => .error "Invalid token subject".toList
        | some user_id => match p.getUserById user_id with
          | none => .error "User not found or inactive".toList
          | some user => if user.is_active then .ok user else .error "User not found or inactive".toList

def authenticateUser (security : Security) (p : Platform) (email password : Str) : Except Str User :=
  match p.users.find? (·.email = security.lower email) with
  | none => .error "Incorrect email or password".toList
  | some user =>
    if !security.verifyPassword password user.hashed_password then .error "Incorrect email or password".toList
    else if user.is_active then .ok user
    else .error "This account has been deactivated".toList

inductive LoginPhase where
  | requested (email password : Str) (user_agent ip_address : Option Str)
  | authenticated (user : User) (user_agent ip_address : Option Str)
  | inserted (user : User) (issued : RefreshToken) (tokens : TokenPair)
  | returned (user : User) (tokens : TokenPair)
  | failed (message : Str)

inductive LoginLabel where
  | authenticate
  | insert (row_id : Uuid) (raw_refresh access_token : Str) (now : Nat)
  | commit
  | fails (message : Str)

-- `/auth/login`
def login (security : Security) (p : Platform) : LoginPhase → LoginLabel → Option (Platform × LoginPhase)
  | .requested email password user_agent ip_address,.authenticate =>
    match authenticateUser security p email password with
    | .error message => some (p,.failed message)
    | .ok user => some (p,.authenticated user user_agent ip_address)
  | .authenticated user user_agent ip_address,.insert row_id raw_refresh access_token now =>
    let issued : RefreshToken := ⟨row_id,user.id,security.hashOpaqueToken raw_refresh,user_agent,ip_address,
      now + security.REFRESH_TOKEN_EXPIRE_DAYS * 86400,none⟩
    (p.store.generate issued.token_hash).map fun s => (p.withStore s,.inserted user issued ⟨access_token,raw_refresh⟩)
  | .inserted user issued tokens,.commit =>
    some ({p with refresh_tokens := p.refresh_tokens ++ [issued]},.returned user tokens)
  | .requested _ _ _ _,.fails message => some (p,.failed message)
  | .authenticated _ _ _,.fails message => some (p,.failed message)
  | .inserted _ _ _,.fails message => some (p,.failed message)
  | _,_ => none

inductive AdminPhase where
  | received (token : Option Str) (update : AdminUpdate)
  | authenticated (admin : User) (update : AdminUpdate)
  | loaded (admin : User) (update : AdminUpdate) (target : User)
  | flushed (admin : User) (update : AdminUpdate) (written : Bool)
  | committed (admin : User) (update : AdminUpdate)
  | failed (message : Str)

inductive AdminLabel where
  | authenticate (now : Nat)
  | load
  | flush
  | commit
  | fails (message : Str)

-- `update_user_active` and `update_user_superuser`. The target is the admin's own
-- loaded row when the ids agree, and an assignment that changes nothing emits no
-- UPDATE.
def updateUser (security : Security) (i : Nat) (p : Platform) : AdminPhase → AdminLabel → Option (Platform × AdminPhase)
  | .received token update,.authenticate now =>
    match getCurrentUser security p token now with
    | .error message => some (p,.failed message)
    | .ok current_user =>
      if current_user.is_superuser then some (p,.authenticated current_user update)
      else some (p,.failed "Superuser access required".toList)
  | .authenticated admin update,.load =>
    if update.user_id = admin.id ∧ update.value = false then some (p,.failed update.refusal) else
    match if update.user_id = admin.id then some admin else p.getUserById update.user_id with
    | none => some (p,.failed "User not found".toList)
    | some target => some (p,.loaded admin update target)
  | .loaded admin update target,.flush =>
    if update.flag.get target = update.value then some (p,.flushed admin update false)
    else (p.lockFlags update.user_id i).map (·,.flushed admin update true)
  | .flushed admin update written,.commit =>
    some ((if written then p.apply update else p).release i,.committed admin update)
  | .received _ _,.fails message => some (p,.failed message)
  | .authenticated _ _,.fails message => some (p,.failed message)
  | .loaded _ _ _,.fails message => some (p,.failed message)
  | .flushed _ _ _,.fails message => some (p.release i,.failed message)
  | _,_ => none

-- Any other request behind `get_current_user`.
inductive RequestPhase where
  | received (token : Option Str)
  | authenticated (current_user : User)
  | failed (message : Str)

-- `account` notes whose row a refresh has found active; no service reads it.
inductive Activity where
  | idle
  | login (phase : LoginPhase)
  | refresh (phase : RefreshPhase) (account : Option Uuid)
  | logout (phase : LogoutPhase)
  | admin (phase : AdminPhase)
  | request (phase : RequestPhase)

inductive Label where
  | login (label : LoginLabel)
  | refresh (label : RefreshLabel)
  | logout (label : LogoutLabel)
  | admin (label : AdminLabel)
  | authenticate (now : Nat)

def accountAfter (account : Option Uuid) : RefreshPhase → Option Uuid
  | .authorized _ _ user => some user.id
  | _ => account

def act (security : Security) (i : Nat) (p : Platform) : Activity → Label → Option (Platform × Activity)
  | .login phase,.login label => (login security p phase label).map (Prod.map id .login)
  | .refresh phase account,.refresh label =>
    (AuthService.refresh security.toSecurity i p.store phase label).map fun out =>
      (p.withStore out.1,.refresh out.2 (accountAfter account out.2))
  | .logout phase,.logout label =>
    (AuthService.logout security.toSecurity i p.store phase label).map fun out => (p.withStore out.1,.logout out.2)
  | .admin phase,.admin label => (updateUser security i p phase label).map (Prod.map id .admin)
  | .request (.received token),.authenticate now =>
    match getCurrentUser security p token now with
    | .error message => some (p,.request (.failed message))
    | .ok current_user => some (p,.request (.authenticated current_user))
  | _,_ => none

abbrev Config := Interleave.Config Platform Activity
abbrev Step (security : Security) : Config → Nat × Label → Config → Prop := Interleave.Step (act security)

inductive LoginChange (security : Security) (p : Platform) : LoginPhase → Platform → LoginPhase → Prop where
  | authenticate : authenticateUser security p email password = .ok user →
      LoginChange security p (.requested email password user_agent ip_address) p (.authenticated user user_agent ip_address)
  | insert : p.store.generate issued.token_hash = some s → issued.user_id = user.id →
      LoginChange security p (.authenticated user user_agent ip_address) (p.withStore s) (.inserted user issued tokens)
  | commit : LoginChange security p (.inserted user issued tokens) {p with refresh_tokens := p.refresh_tokens ++ [issued]}
      (.returned user tokens)
  | stop : LoginChange security p phase p (.failed message)

theorem login_change (acted : login security p phase label = some (p',phase')) : LoginChange security p phase p' phase' := by
  unfold login at acted
  split at acted
  · split at acted
    · cases acted; exact .stop
    · rename_i authenticated
      cases acted
      exact .authenticate authenticated
  · obtain ⟨s,generated,equal⟩ := Option.map_eq_some_iff.mp acted
    cases equal
    exact .insert generated rfl
  · cases acted; exact .commit
  all_goals first | (cases acted; exact .stop) | cases acted

inductive AdminChange (security : Security) (i : Nat) (p : Platform) : AdminPhase → AdminLabel → Platform → AdminPhase → Prop where
  | authenticate : getCurrentUser security p token now = .ok admin → admin.is_superuser = true →
      AdminChange security i p (.received token update) (.authenticate now) p (.authenticated admin update)
  | load : ¬ (update.user_id = admin.id ∧ update.value = false) →
      (if update.user_id = admin.id then some admin else p.getUserById update.user_id) = some target →
      AdminChange security i p (.authenticated admin update) .load p (.loaded admin update target)
  | skip : update.flag.get target = update.value →
      AdminChange security i p (.loaded admin update target) .flush p (.flushed admin update false)
  | flush : update.flag.get target ≠ update.value → p.lockFlags update.user_id i = some p' →
      AdminChange security i p (.loaded admin update target) .flush p' (.flushed admin update true)
  | write : AdminChange security i p (.flushed admin update true) .commit ((p.apply update).release i) (.committed admin update)
  | keep : AdminChange security i p (.flushed admin update false) .commit (p.release i) (.committed admin update)
  | stop : p'.users = p.users → AdminChange security i p phase label p' (.failed message)

theorem updateUser_change (acted : updateUser security i p phase label = some (p',phase')) :
    AdminChange security i p phase label p' phase' := by
  unfold updateUser at acted
  split at acted
  · split at acted
    · cases acted; exact .stop rfl
    · rename_i authenticated
      split at acted
      · rename_i superuser
        cases acted
        exact .authenticate authenticated superuser
      · cases acted; exact .stop rfl
  · split at acted
    · cases acted; exact .stop rfl
    · rename_i other
      split at acted
      · cases acted; exact .stop rfl
      · rename_i found
        cases acted
        exact .load other found
  · split at acted
    · rename_i same
      cases acted
      exact .skip same
    · rename_i different
      obtain ⟨after,locked,equal⟩ := Option.map_eq_some_iff.mp acted
      cases equal
      exact .flush different locked
  · rename_i admin update written
    cases acted
    cases written with
    | true => exact .write
    | false => exact .keep
  all_goals first | (cases acted; exact .stop rfl) | cases acted

-- Everything a step can do.
inductive Change (security : Security) (i : Nat) (p : Platform) : Activity → Label → Platform → Activity → Prop where
  | login : LoginChange security p phase p' phase' → Change security i p (.login phase) (.login label) p' (.login phase')
  | refresh : AuthService.refresh security.toSecurity i p.store phase label = some (s,phase') →
      Change security i p (.refresh phase account) (.refresh label) (p.withStore s) (.refresh phase' (accountAfter account phase'))
  | logout : AuthService.logout security.toSecurity i p.store phase label = some (s,phase') →
      Change security i p (.logout phase) (.logout label) (p.withStore s) (.logout phase')
  | admin : AdminChange security i p phase label p' phase' → Change security i p (.admin phase) (.admin label) p' (.admin phase')
  | request : getCurrentUser security p token now = .ok user →
      Change security i p (.request (.received token)) (.authenticate now) p (.request (.authenticated user))
  | refuse : Change security i p (.request (.received token)) (.authenticate now) p (.request (.failed message))

theorem act_change (acted : act security i p a label = some (p',a')) : Change security i p a label p' a' := by
  unfold act at acted
  split at acted
  · obtain ⟨phase,moved,rfl⟩ := lifted acted
    exact .login (login_change moved)
  · obtain ⟨⟨after,phase⟩,moved,equal⟩ := Option.map_eq_some_iff.mp acted
    cases equal
    exact .refresh moved
  · obtain ⟨⟨after,phase⟩,moved,equal⟩ := Option.map_eq_some_iff.mp acted
    cases equal
    exact .logout moved
  · obtain ⟨phase,moved,rfl⟩ := lifted acted
    exact .admin (updateUser_change moved)
  · split at acted
    · cases acted; exact .refuse
    · rename_i authenticated
      cases acted
      exact .request authenticated
  · cases acted

theorem lockFlags_users {p : Platform} (locked : p.lockFlags row i = some p') : p'.users = p.users := by
  unfold Platform.lockFlags at locked
  split at locked
  · cases locked; rfl
  · split at locked
    · cases locked; rfl
    · cases locked

-- User rows change only at the commit of an admin request that has issued its
-- UPDATE.
theorem act_users (acted : act security i p a label = some (p',a')) :
    p'.users = p.users ∨ ∃ admin update, a = .admin (.flushed admin update true) ∧ label = .admin .commit ∧
      p'.users = p.users.map update.row := by
  cases act_change acted with
  | login change => cases change <;> exact .inl rfl
  | admin change =>
    cases change with
    | flush _ locked => exact .inl (lockFlags_users locked)
    | write => exact .inr ⟨_,_,rfl,rfl,rfl⟩
    | stop same => exact .inl same
    | _ => exact .inl rfl
  | _ => exact .inl rfl

end RagForge.Accounts
