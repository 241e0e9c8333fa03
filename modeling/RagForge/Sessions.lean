import RagForge.Credentials
import RagForge.Deactivation
import RagForge.Keyed

namespace RagForge.Sessions
open RagForge Transition Credentials
open RagForge.Accounts (Platform AdminPhase LoginPhase RequestPhase getCurrentUser authenticateUser)
open RagForge.AuthService (RefreshToken RefreshPhase TokenPair)

-- Where a password of an account comes from: the account is created with it,
-- or a caller with an access token and the current password has set it.
inductive Setter where
  | given
  | changed (access_token current_password : Str) (now : Nat)

structure Setting where
  user_id : Uuid
  password : Str
  setter : Setter

-- Where a pair of tokens comes from.
inductive Origin where
  | password (email password : Str) (user : User)
  | refresh (token_hash : Str) (checked_at : Nat)

structure Handout where
  user_id : Uuid
  token_hash : Str
  access_token : Str
  issued_at : Nat
  origin : Origin

-- The tables with the open INSERTs of `users`, and the clock. `handed` and
-- `settings` log what has been committed, newest setting first; no service reads
-- them.
structure Realm where
  platform : Platform
  pending : List (Nat × User)
  clock : Nat
  handed : List Handout
  settings : List Setting

-- `POST /auth/register`, up to the organization it creates.
inductive RegisterPhase where
  | requested (email password : Str)
  | checked (email password : Str)
  | inserted (user : User) (password : Str)
  | created (user : User)
  | failed (message : Str)

inductive RegisterLabel where
  | check
  | insert (user_id : Uuid) (salt : Str)
  | commit
  | fails (message : Str)

-- `POST /users/me/change-password`
inductive ChangePhase where
  | received (token : Option Str) (current_password new_password : Str)
  | authenticated (current_user : User) (setting : Setting) (current_password : Str)
  | verified (current_user : User) (setting : Setting)
  | flushed (setting : Setting) (hashed_password : Str)
  | committed (setting : Setting)
  | failed (message : Str)

inductive ChangeLabel where
  | authenticate
  | verify
  | flush (salt : Str)
  | commit
  | fails (message : Str)

-- What a request has seen on its way; no service reads it.
structure Note where
  shown : Option (Str × Str)
  checked_at : Nat
  issued_at : Nat

inductive Activity where
  | account (note : Note) (activity : Accounts.Activity)
  | register (phase : RegisterPhase)
  | change (phase : ChangePhase)

inductive Label where
  | account (label : Accounts.Label) (organization_id : Option Str) (jti : Str)
  | register (label : RegisterLabel)
  | change (label : ChangeLabel)

namespace Realm

def withUsers (s : Realm) (users : List User) : Realm := {s with platform := {s.platform with users := users}}

def drop (s : Realm) (i : Nat) : Realm := {s with pending := s.pending.filter (·.1 ≠ i)}

-- The unique index on `email`: an INSERT waits for one of the same email that is
-- open. Fresh keys are no key in use.
def insert (s : Realm) (i : Nat) (user : User) : Option Realm :=
  if user.id ∈ s.platform.users.map (·.id) ∨ user.id ∈ s.pending.map (·.2.id) ∨ s.pending.any (·.2.email = user.email) then none
  else some {s with pending := (i,user) :: s.pending}

end Realm

variable (libraries : Libraries)

def register (i : Nat) (s : Realm) : RegisterPhase → RegisterLabel → Option (Realm × RegisterPhase)
  | .requested email password,.check =>
    match s.platform.users.find? (·.email = libraries.lower email) with
    | some _ => some (s,.failed "An account with this email already exists".toList)
    | none => some (s,.checked email password)
  | .checked email password,.insert user_id salt =>
    let user : User := ⟨user_id,libraries.lower email,hashPassword libraries password salt,true,false⟩
    if s.platform.users.any (·.email = user.email) then some (s,.failed "An unexpected error occurred.".toList)
    else (s.insert i user).map (·,.inserted user password)
  | .inserted user password,.commit =>
    some ({(s.drop i).withUsers (s.platform.users ++ [user]) with settings := ⟨user.id,password,.given⟩ :: s.settings},.created user)
  | .requested _ _,.fails message => some (s,.failed message)
  | .checked _ _,.fails message => some (s,.failed message)
  | .inserted _ _,.fails message => some (s.drop i,.failed message)
  | _,_ => none

-- `UPDATE users SET hashed_password = ... WHERE id = ...`
def setPassword (user_id : Uuid) (hashed_password : Str) (user : User) : User :=
  if user.id = user_id then {user with hashed_password := hashed_password} else user

def changePassword (i : Nat) (s : Realm) : ChangePhase → ChangeLabel → Option (Realm × ChangePhase)
  | .received token current_password new_password,.authenticate =>
    match getCurrentUser (security libraries) s.platform token s.clock with
    | .error message => some (s,.failed message)
    | .ok current_user =>
      some (s,.authenticated current_user
        ⟨current_user.id,new_password,.changed (token.getD []) current_password s.clock⟩ current_password)
  | .authenticated current_user setting current_password,.verify =>
    if verifyPassword libraries current_password current_user.hashed_password then some (s,.verified current_user setting)
    else some (s,.failed "Current password is incorrect".toList)
  | .verified current_user setting,.flush salt =>
    (s.platform.lockFlags current_user.id i).map fun p =>
      ({s with platform := p},.flushed setting (hashPassword libraries setting.password salt))
  | .flushed setting hashed_password,.commit =>
    some ({s with
      platform := {s.platform with users := s.platform.users.map (setPassword setting.user_id hashed_password)}.release i
      settings := setting :: s.settings},.committed setting)
  | .received _ _ _,.fails message => some (s,.failed message)
  | .authenticated _ _ _,.fails message => some (s,.failed message)
  | .verified _ _,.fails message => some (s,.failed message)
  | .flushed _ _,.fails message => some ({s with platform := s.platform.release i},.failed message)
  | _,_ => none

-- The reading of the clock a step of `Accounts` uses.
def timed (now : Nat) : Accounts.Label → Bool
  | .refresh (.check read) => read == now
  | .refresh (.update read) => read == now
  | .refresh (.insert _ _ _ read) => read == now
  | .logout (.update read) => read == now
  | .login (.insert _ _ _ read) => read == now
  | .admin (.authenticate read) => read == now
  | .authenticate read => read == now
  | _ => true

-- The access token of a new pair.
def minted (organization_id : Option Str) (jti : Str) (now : Nat) : Accounts.Activity → Accounts.Label → Bool
  | .login (.authenticated user _ _),.login (.insert _ _ access_token _) =>
    access_token == createAccessToken libraries user.id.str organization_id now jti
  | .refresh (.updated _ _ user _) _,.refresh (.insert _ _ access_token _) =>
    access_token == createAccessToken libraries user.id.str organization_id now jti
  | _,_ => true

-- The token a caller brings.
def bearer : Activity → Option Str
  | .account _ (.request (.received token)) => token
  | .account _ (.admin (.received token _)) => token
  | .change (.received token _ _) => token
  | _ => none

-- Nobody can make a token that the server reads: one it accepts has been handed
-- out.
def unforged (handed : List Handout) (now : Nat) (token : Option Str) : Bool :=
  match token with
  | none => true
  | some token => (handed.map (·.access_token)).contains token || !(libraries.decode token now).toOption.isSome

def Note.after (note : Note) (now : Nat) : Accounts.Activity → Accounts.Label → Note
  | .login (.requested email password _ _),.login .authenticate => {note with shown := some (email,password)}
  | _,.refresh (.check _) => {note with checked_at := now}
  | _,.login (.insert _ _ _ _) => {note with issued_at := now}
  | _,.refresh (.insert _ _ _ _) => {note with issued_at := now}
  | _,_ => note

-- The pair of tokens a committed request hands out.
def handout (note : Note) : Accounts.Activity → Accounts.Label → Option Handout
  | .login (.inserted user issued tokens),.login .commit =>
    note.shown.map fun shown => ⟨user.id,issued.token_hash,tokens.access_token,note.issued_at,.password shown.1 shown.2 user⟩
  | .refresh (.inserted _ row _ issued tokens) _,.refresh .commit =>
    some ⟨issued.user_id,issued.token_hash,tokens.access_token,note.issued_at,.refresh row.token_hash note.checked_at⟩
  | _,_ => none

-- Every step takes place at a time not before the last one.
def act (i : Nat) (earlier : Realm) (a : Activity) (label : Nat × Label) : Option (Realm × Activity) :=
  if earlier.clock ≤ label.1 then
    let s := {earlier with clock := label.1}
    match a,label.2 with
    | .account note activity,.account sent organization_id jti =>
      if timed label.1 sent && minted libraries organization_id jti label.1 activity sent && unforged libraries s.handed label.1 (bearer a) then
        (Accounts.act (security libraries) i s.platform activity sent).map fun out =>
          ({s with platform := out.1, handed := s.handed ++ (handout note activity sent).toList},
            .account (note.after label.1 activity sent) out.2)
      else none
    | .register phase,.register sent => (register libraries i s phase sent).map (Prod.map id .register)
    | .change phase,.change sent =>
      if unforged libraries s.handed label.1 (bearer a) then (changePassword libraries i s phase sent).map (Prod.map id .change) else none
    | _,_ => none
  else none

abbrev Config := Interleave.Config Realm Activity
abbrev Step : Config → Nat × Nat × Label → Config → Prop := Interleave.Step (act libraries)

variable {libraries : Libraries}

-- The setting that holds for an account is the newest one.
def current (settings : List Setting) (user_id : Uuid) : Option Setting := settings.find? (·.user_id = user_id)

def Known (libraries : Libraries) (settings : List Setting) (user : User) : Prop :=
  ∃ x salt, current settings user.id = some x ∧ user.hashed_password = hashPassword libraries x.password salt

-- Keys and emails are unique, open INSERTs included, and each account has a
-- hash of the password that holds for it.
structure Sound (libraries : Libraries) (s : Realm) : Prop where
  keys : (s.platform.users.map (·.id) ++ s.pending.map (·.2.id)).Nodup
  emails : (s.platform.users.map (·.email) ++ s.pending.map (·.2.email)).Nodup
  known : ∀ user ∈ s.platform.users, Known libraries s.settings user

def Writes (libraries : Libraries) (s : Realm) (i : Nat) : Activity → Prop
  | .register (.inserted user password) => (i,user) ∈ s.pending ∧ ∃ salt, user.hashed_password = hashPassword libraries password salt
  | .change (.flushed setting hashed_password) => ∃ salt, hashed_password = hashPassword libraries setting.password salt
  | _ => True

theorem current_cons (settings : List Setting) (x : Setting) : current (x :: settings) x.user_id = some x := by
  simp [current]

theorem current_other (different : x.user_id ≠ user_id) : current (x :: settings) user_id = current settings user_id := by
  simp [current,different]

-- A change of rows that leaves keys, emails and hashes alone.
theorem Sound.map {s : Realm} (sound : Sound libraries s) (row : User → User)
    (same : ∀ user, (row user).id = user.id ∧ (row user).email = user.email ∧ (row user).hashed_password = user.hashed_password) :
    (s.platform.users.map row).map (·.id) = s.platform.users.map (·.id) ∧
      (s.platform.users.map row).map (·.email) = s.platform.users.map (·.email) ∧
      ∀ user ∈ s.platform.users.map row, Known libraries s.settings user := by
  refine ⟨?_,?_,fun user member => ?_⟩
  · rw [List.map_map]
    exact List.map_congr_left fun user _ => (same user).1
  · rw [List.map_map]
    exact List.map_congr_left fun user _ => (same user).2.1
  · obtain ⟨old,inside,rfl⟩ := List.mem_map.mp member
    obtain ⟨x,salt,holds,hashed⟩ := sound.known old inside
    exact ⟨x,salt,by rw [(same old).1]; exact holds,by rw [(same old).2.2]; exact hashed⟩

theorem update_same (update : Accounts.AdminUpdate) (user : User) :
    (update.row user).id = user.id ∧ (update.row user).email = user.email ∧ (update.row user).hashed_password = user.hashed_password := by
  unfold Accounts.AdminUpdate.row Accounts.Flag.set
  split
  · split <;> exact ⟨rfl,rfl,rfl⟩
  · exact ⟨rfl,rfl,rfl⟩

theorem account_sound {s : Realm} (sound : Sound libraries s)
    (acted : Accounts.act (security libraries) i s.platform activity label = some (p',activity')) (handed : List Handout) :
    Sound libraries {s with platform := p', handed := handed} := by
  rcases Accounts.act_users acted with same | ⟨admin,update,_,_,changed⟩
  · refine ⟨?_,?_,?_⟩
    · simpa only [same] using sound.keys
    · simpa only [same] using sound.emails
    · simpa only [same] using sound.known
  · obtain ⟨keys,emails,known⟩ := sound.map update.row (update_same update)
    refine ⟨?_,?_,?_⟩
    · simpa only [changed,keys] using sound.keys
    · simpa only [changed,emails] using sound.emails
    · simpa only [changed] using known

theorem Sound.drop {s : Realm} (sound : Sound libraries s) (i : Nat) : Sound libraries (s.drop i) where
  keys := sound.keys.sublist ((List.filter_sublist.map _).append_left _)
  emails := sound.emails.sublist ((List.filter_sublist.map _).append_left _)
  known := sound.known

-- The commit of an open INSERT moves its row into the table.
theorem moved_nodup {pending : List (Nat × User)} {key : User → κ} (distinct : (users.map key ++ pending.map fun open_ => key open_.2).Nodup)
    (member : (i,user) ∈ pending) :
    ((users ++ [user]).map key ++ (pending.filter (·.1 ≠ i)).map fun open_ => key open_.2).Nodup := by
  obtain ⟨newer,older,rfl⟩ := List.append_of_mem member
  have rest : ((newer ++ (i,user) :: older).filter (·.1 ≠ i)).Sublist (newer ++ older) := by
    rw [List.filter_append,List.filter_cons_of_neg (by simp)]
    exact List.filter_sublist.append List.filter_sublist
  have front : (users.map key ++ key user :: (newer ++ older).map fun open_ => key open_.2).Nodup := by
    refine (List.Perm.nodup_iff ?_).mp distinct
    rw [List.map_append,List.map_cons,List.map_append]
    exact List.perm_middle.append_left _
  rw [List.map_append,List.append_assoc]
  exact front.sublist ((List.Sublist.cons_cons _ (rest.map _)).append_left _)

theorem any_absent {α κ : Type} [DecidableEq κ] {key : α → κ} {rows : List α} {k : κ} (free : ¬ (rows.any (key · = k)) = true) : k ∉ rows.map key := by
  intro member
  obtain ⟨row,present,same⟩ := List.mem_map.mp member
  exact free (List.any_eq_true.mpr ⟨row,present,decide_eq_true same⟩)

theorem insert_parts {s : Realm} (inserted : s.insert i user = some s') :
    s' = {s with pending := (i,user) :: s.pending} ∧ user.id ∉ s.platform.users.map (·.id) ∧ user.id ∉ s.pending.map (·.2.id) ∧
      user.email ∉ s.pending.map (·.2.email) := by
  unfold Realm.insert at inserted
  split at inserted
  · cases inserted
  · rename_i unused
    push Not at unused
    cases inserted
    exact ⟨rfl,unused.1,unused.2.1,any_absent unused.2.2⟩

theorem between_nodup {front back : List κ} (distinct : (front ++ back).Nodup) (left : k ∉ front) (right : k ∉ back) : (front ++ k :: back).Nodup := by
  refine (List.perm_middle.nodup_iff).mpr (List.nodup_cons.mpr ⟨fun inside => ?_,distinct⟩)
  rcases List.mem_append.mp inside with here | there
  · exact left here
  · exact right there

theorem register_sound {s : Realm} (sound : Sound libraries s) (writes : Writes libraries s i (.register phase))
    (moved : register libraries i s phase label = some (s',phase')) : Sound libraries s' ∧ Writes libraries s' i (.register phase') := by
  unfold register at moved
  split at moved
  · split at moved <;> (cases moved; exact ⟨sound,trivial⟩)
  · rename_i email password user_id salt
    simp only at moved
    split at moved
    · cases moved; exact ⟨sound,trivial⟩
    · rename_i free
      obtain ⟨after,inserted,equal⟩ := Option.map_eq_some_iff.mp moved
      cases equal
      obtain ⟨rfl,newId,notOpen,noEmail⟩ := insert_parts inserted
      exact ⟨⟨between_nodup sound.keys newId notOpen,between_nodup sound.emails (any_absent free) noEmail,sound.known⟩,List.mem_cons_self,salt,rfl⟩
  · rename_i user password
    cases moved
    obtain ⟨member,salt,hashed⟩ := writes
    refine ⟨⟨moved_nodup sound.keys member,moved_nodup sound.emails member,fun other inside => ?_⟩,trivial⟩
    rcases List.mem_append.mp inside with old | new
    · have apart : user.id ≠ other.id := fun same =>
        (List.nodup_append.mp sound.keys).2.2 _ (List.mem_map_of_mem old) _ (List.mem_map_of_mem member) same.symm
      obtain ⟨x,salt,holds,hashed⟩ := sound.known other old
      exact ⟨x,salt,(current_other apart).trans holds,hashed⟩
    · cases List.mem_singleton.mp new
      exact ⟨_,salt,current_cons _ _,hashed⟩
  · cases moved; exact ⟨sound,trivial⟩
  · cases moved; exact ⟨sound,trivial⟩
  · cases moved; exact ⟨sound.drop i,trivial⟩
  · cases moved

theorem setPassword_keys (user_id : Uuid) (hashed_password : Str) (user : User) :
    (setPassword user_id hashed_password user).id = user.id ∧ (setPassword user_id hashed_password user).email = user.email := by
  unfold setPassword
  split <;> exact ⟨rfl,rfl⟩

theorem change_sound {s : Realm} (sound : Sound libraries s) (writes : Writes libraries s i (.change phase))
    (moved : changePassword libraries i s phase label = some (s',phase')) : Sound libraries s' ∧ Writes libraries s' i (.change phase') := by
  unfold changePassword at moved
  split at moved
  · split at moved <;> (cases moved; exact ⟨sound,trivial⟩)
  · split at moved <;> (cases moved; exact ⟨sound,trivial⟩)
  · rename_i current_user setting salt
    obtain ⟨p,locked,equal⟩ := Option.map_eq_some_iff.mp moved
    cases equal
    have same := Accounts.lockFlags_users locked
    exact ⟨⟨by simpa only [same] using sound.keys,by simpa only [same] using sound.emails,by simpa only [same] using sound.known⟩,salt,rfl⟩
  · rename_i setting hashed_password
    cases moved
    obtain ⟨salt,hashed⟩ := writes
    have keys : (s.platform.users.map (setPassword setting.user_id hashed_password)).map (·.id) = s.platform.users.map (·.id) := by
      rw [List.map_map]
      exact List.map_congr_left fun user _ => (setPassword_keys _ _ user).1
    have emails : (s.platform.users.map (setPassword setting.user_id hashed_password)).map (·.email) = s.platform.users.map (·.email) := by
      rw [List.map_map]
      exact List.map_congr_left fun user _ => (setPassword_keys _ _ user).2
    refine ⟨⟨?_,?_,fun other inside => ?_⟩,trivial⟩
    · simpa only [Platform.release,keys] using sound.keys
    · simpa only [Platform.release,emails] using sound.emails
    · obtain ⟨old,member,rfl⟩ := List.mem_map.mp inside
      by_cases own : old.id = setting.user_id
      · refine ⟨setting,salt,?_,by rw [setPassword,if_pos own]; exact hashed⟩
        rw [(setPassword_keys _ _ old).1,own]
        exact current_cons _ _
      · obtain ⟨x,salt,holds,hashed⟩ := sound.known old member
        rw [setPassword,if_neg own]
        exact ⟨x,salt,(current_other (Ne.symm own)).trans holds,hashed⟩
  · cases moved; exact ⟨sound,trivial⟩
  · cases moved; exact ⟨sound,trivial⟩
  · cases moved; exact ⟨sound,trivial⟩
  · cases moved; exact ⟨⟨sound.keys,sound.emails,sound.known⟩,trivial⟩
  · cases moved

-- The parts of a step, at its time.
inductive Change (libraries : Libraries) (i : Nat) (s : Realm) : Activity → Label → Realm → Activity → Prop where
  | account : timed s.clock sent = true → minted libraries organization_id jti s.clock activity sent = true →
      unforged libraries s.handed s.clock (bearer (.account note activity)) = true →
      Accounts.act (security libraries) i s.platform activity sent = some (p,activity') →
      Change libraries i s (.account note activity) (.account sent organization_id jti)
        {s with platform := p, handed := s.handed ++ (handout note activity sent).toList} (.account (note.after s.clock activity sent) activity')
  | register : register libraries i s phase sent = some (s',phase') → Change libraries i s (.register phase) (.register sent) s' (.register phase')
  | change : unforged libraries s.handed s.clock (bearer (.change phase)) = true → changePassword libraries i s phase sent = some (s',phase') →
      Change libraries i s (.change phase) (.change sent) s' (.change phase')

def Realm.at (s : Realm) (now : Nat) : Realm := {s with clock := now}

theorem act_change {s : Realm} (acted : act libraries i s a label = some (s',a')) :
    s.clock ≤ label.1 ∧ Change libraries i (s.at label.1) a label.2 s' a' := by
  obtain ⟨now,label⟩ := label
  unfold act at acted
  split at acted
  · rename_i later
    refine ⟨later,?_⟩
    simp only at acted
    split at acted
    · split at acted
      · rename_i guards
        obtain ⟨⟨p,activity'⟩,moved,equal⟩ := Option.map_eq_some_iff.mp acted
        cases equal
        simp only [Bool.and_eq_true] at guards
        exact .account guards.1.1 guards.1.2 guards.2 moved
      · cases acted
    · obtain ⟨phase,moved,rfl⟩ := lifted acted
      exact .register moved
    · split at acted
      · rename_i genuine
        obtain ⟨phase,moved,rfl⟩ := lifted acted
        exact .change genuine moved
      · cases acted
    · cases acted
  · cases acted

theorem act_sound {s : Realm} (sound : Sound libraries s) (writes : Writes libraries s i a) (acted : act libraries i s a label = some (s',a')) :
    Sound libraries s' ∧ Writes libraries s' i a' := by
  have timely : Sound libraries (s.at label.1) := ⟨sound.keys,sound.emails,sound.known⟩
  obtain ⟨now,label⟩ := label
  obtain ⟨_,change⟩ := act_change acted
  cases change with
  | account _ _ _ moved => exact ⟨account_sound timely moved _,trivial⟩
  | register moved => exact register_sound timely writes moved
  | change _ moved => exact change_sound timely writes moved

-- Another request leaves an open INSERT alone.
theorem act_pending {s : Realm} (acted : act libraries i s a label = some (s',a')) (other : j ≠ i) (open_ : (j,user) ∈ s.pending) : (j,user) ∈ s'.pending := by
  have kept : (j,user) ∈ s.pending.filter (·.1 ≠ i) := List.mem_filter.mpr ⟨open_,by simpa using other⟩
  obtain ⟨now,label⟩ := label
  obtain ⟨_,change⟩ := act_change acted
  cases change with
  | account => exact open_
  | register moved =>
    unfold register at moved
    split at moved
    · split at moved <;> (cases moved; exact open_)
    · simp only at moved
      split at moved
      · cases moved; exact open_
      · obtain ⟨after,inserted,equal⟩ := Option.map_eq_some_iff.mp moved
        cases equal
        obtain ⟨rfl,_⟩ := insert_parts inserted
        exact List.mem_cons_of_mem _ open_
    · cases moved; exact kept
    · cases moved; exact open_
    · cases moved; exact open_
    · cases moved; exact kept
    · cases moved
  | change _ moved =>
    unfold changePassword at moved
    split at moved
    · split at moved <;> (cases moved; exact open_)
    · split at moved <;> (cases moved; exact open_)
    · obtain ⟨p,locked,equal⟩ := Option.map_eq_some_iff.mp moved
      cases equal
      exact open_
    · cases moved; exact open_
    · cases moved; exact open_
    · cases moved; exact open_
    · cases moved; exact open_
    · cases moved; exact open_
    · cases moved

theorem sound_outline : Interleave.Outline (act libraries) (Sound libraries) (Writes libraries) where
  own i s a label s' a' sound writes acted := act_sound sound writes acted
  others i j s a label s' a' b other _ _ theirs acted := by
    cases b with
    | account => trivial
    | register phase =>
      cases phase with
      | inserted user password => exact ⟨act_pending acted other theirs.1,theirs.2⟩
      | _ => trivial
    | change phase =>
      cases phase with
      | flushed => exact theirs
      | _ => trivial

def begun : Activity → Bool
  | .account _ .idle => true
  | .account _ (.login (.requested _ _ _ _)) => true
  | .account _ (.refresh (.requested _) _) => true
  | .account _ (.logout (.requested _)) => true
  | .account _ (.admin (.received _ _)) => true
  | .account _ (.request (.received _)) => true
  | .register (.requested _ _) => true
  | .change (.received _ _ _) => true
  | _ => false

-- A server that has handed out no tokens yet, with accounts whose passwords
-- somebody has been given.
structure Settled (libraries : Libraries) (c : Config) : Prop where
  sound : Sound libraries c.shared
  given : ∀ x ∈ c.shared.settings, x.setter = .given
  no_tokens : c.shared.platform.refresh_tokens = []
  none_handed : c.shared.handed = []
  fresh : ∀ i, begun (c.locals i) = true

theorem begun_writes (fresh : begun a = true) : Writes libraries s i a := by
  unfold begun at fresh
  split at fresh <;> trivial

-- Libraries with readable tokens and hashes: times are counted out in letters.
def plainToken (payload : TokenPayload) : Str :=
  List.replicate payload.iat 'i' ++ '.' :: (List.replicate payload.exp 'e' ++ '.' :: payload.sub)

def readToken (token : Str) (now : Nat) : Except Accounts.JwtError Accounts.Claims :=
  let iat := (token.takeWhile (· == 'i')).length
  let rest := token.drop (iat + 1)
  let exp := (rest.takeWhile (· == 'e')).length
  if exp ≤ now then .error .expired
  else if iat ≤ now then .ok ⟨some "access".toList,some (rest.drop (exp + 1))⟩ else .error .invalid

theorem counted_out {c : Char} (other : c ≠ '.') (n : Nat) (rest : Str) :
    ((List.replicate n c ++ '.' :: rest).takeWhile (· == c)).length = n ∧ (List.replicate n c ++ '.' :: rest).drop (n + 1) = rest := by
  induction n with
  | zero => simp [Ne.symm other]
  | succ n ih =>
    rw [List.replicate_succ,List.cons_append,List.takeWhile_cons_of_pos (by simp)]
    exact ⟨congrArg (· + 1) ih.1,ih.2⟩

theorem readToken_plain (payload : TokenPayload) (now : Nat) (claims : Accounts.Claims) (read : readToken (plainToken payload) now = .ok claims) :
    claims = ⟨some "access".toList,some payload.sub⟩ ∧ payload.iat ≤ now ∧ now < payload.exp := by
  obtain ⟨iat,rest⟩ := counted_out (c := 'i') (by decide) payload.iat (List.replicate payload.exp 'e' ++ '.' :: payload.sub)
  obtain ⟨exp,sub⟩ := counted_out (c := 'e') (by decide) payload.exp payload.sub
  simp only [readToken,plainToken,iat,rest,exp,sub] at read
  split at read
  · cases read
  · split at read
    · cases read
      exact ⟨rfl,by assumption,by omega⟩
    · cases read

def byteChars (bytes : Bytes) : Str := bytes.map fun byte => Char.ofNat byte.toNat

theorem byteChars_injective : Function.Injective byteChars := by
  refine List.map_injective_iff.mpr fun left right same => ?_
  have all : ∀ n < 256, (Char.ofNat n).toNat = n := by decide +kernel
  have small (byte : UInt8) : (Char.ofNat byte.toNat).toNat = byte.toNat := all _ byte.toNat_lt
  exact UInt8.toNat_inj.mp ((small left).symm.trans ((congrArg Char.toNat same).trans (small right)))

def readable : Libraries where
  lower := List.map Char.toLower
  sha256 token := token
  hashpw bytes _ := byteChars bytes
  checkpw bytes hashed := some (byteChars bytes == hashed)
  encode := plainToken
  decode := readToken
  checkpw_hashpw given stored _ := by
    rw [Option.getD_some,Bool.eq_iff_iff,beq_iff_eq,decide_eq_true_iff]
    exact byteChars_injective.eq_iff
  decode_encode := readToken_plain

def longPassword : Str := List.replicate 100 'a'

-- An account is created, somebody logs in to it, and the token comes back.
def signUp : Config where
  shared := ⟨⟨[],fun _ => none,[],fun _ => none,[],[]⟩,[],0,[],[]⟩
  locals
    | 0 => .register (.requested "Ada@example.com".toList longPassword)
    | 1 => .account ⟨none,0,0⟩ (.login (.requested "ADA@example.com".toList (List.replicate 72 'a' ++ "bcd".toList) none none))
    | 2 => .account ⟨none,0,0⟩ (.request (.received (some (createAccessToken readable (Uuid.str ⟨1⟩) none 5 []))))
    | _ => .account ⟨none,0,0⟩ .idle

theorem signUp_settled : Settled readable signUp where
  sound := ⟨.nil,.nil,nofun⟩
  given := nofun
  no_tokens := rfl
  none_handed := rfl
  fresh i := by
    match i with
    | 0 | 1 | 2 => rfl
    | _ + 3 => rfl

def loggedIn : List (Nat × Nat × Label) :=
  [(0,1,.register .check),(0,1,.register (.insert ⟨1⟩ [])),(0,2,.register .commit),
    (1,4,.account (.login .authenticate) none []),
    (1,5,.account (.login (.insert ⟨7⟩ "raw".toList (createAccessToken readable (Uuid.str ⟨1⟩) none 5 []) 5)) none []),
    (1,6,.account (.login .commit) none [])]

end RagForge.Sessions
