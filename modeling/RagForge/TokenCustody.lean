import RagForge.Sessions

namespace RagForge.TokenCustody
open RagForge Transition Credentials Sessions
open RagForge.Accounts (Platform getCurrentUser authenticateUser)
open RagForge.AuthService (RefreshToken RefreshPhase TokenPair)

variable {libraries : Libraries}

-- The chain of custody behind a password that holds for an account and behind
-- a pair of tokens.
inductive Custody (libraries : Libraries) (s : Realm) : Setting ⊕ Handout → Prop where
  | given : x ∈ s.settings → x.setter = .given → Custody libraries s (.inl x)
  | changed : x ∈ s.settings → x.setter = .changed h.access_token current_password now →
      Custody libraries s (.inr h) → h.user_id = x.user_id → h.issued_at ≤ now → now < h.issued_at + ACCESS_TOKEN_EXPIRE_MINUTES * 60 →
      Custody libraries s (.inl y) → y.user_id = x.user_id → bcryptBytes current_password = bcryptBytes y.password →
      Custody libraries s (.inl x)
  | login : h ∈ s.handed → h.origin = .password email password user → user.id = h.user_id → user.email = libraries.lower email →
      user.is_active = true → Custody libraries s (.inl x) → x.user_id = h.user_id → bcryptBytes password = bcryptBytes x.password →
      Custody libraries s (.inr h)
  | refresh : h ∈ s.handed → h.origin = .refresh g.token_hash checked_at → Custody libraries s (.inr g) → g.user_id = h.user_id →
      g.issued_at ≤ checked_at → checked_at < g.issued_at + REFRESH_TOKEN_EXPIRE_DAYS * 86400 → checked_at ≤ h.issued_at →
      Custody libraries s (.inr h)

-- Logs and clock go forward.
structure Grown (s s' : Realm) : Prop where
  settings : ∀ x ∈ s.settings, x ∈ s'.settings
  handed : ∀ h ∈ s.handed, h ∈ s'.handed
  clock : s.clock ≤ s'.clock

theorem Custody.grown (grown : Grown s s') (custody : Custody libraries s item) : Custody libraries s' item := by
  induction custody with
  | given member setter => exact .given (grown.settings _ member) setter
  | changed member setter _ owner begun unexpired _ same right session own =>
    exact .changed (grown.settings _ member) setter session owner begun unexpired own same right
  | login member origin user email active _ owner right own => exact .login (grown.handed _ member) origin user email active own owner right
  | refresh member origin _ owner begun unexpired later own => exact .refresh (grown.handed _ member) origin own owner begun unexpired later

-- Where an unspent or spent refresh token comes from.
def Backed (libraries : Libraries) (s : Realm) (row : RefreshToken) : Prop :=
  ∃ g, Custody libraries s (.inr g) ∧ g.user_id = row.user_id ∧ g.token_hash = row.token_hash ∧
    row.expires_at = g.issued_at + REFRESH_TOKEN_EXPIRE_DAYS * 86400 ∧ g.issued_at ≤ s.clock

-- What is known of a token that has been checked, of a password that has been
-- shown, of a pair that is about to be handed out, and of a password that is
-- about to be set.
def Checked (libraries : Libraries) (s : Realm) (note : Note) (row : RefreshToken) : Prop :=
  note.checked_at ≤ s.clock ∧ ∃ g, Custody libraries s (.inr g) ∧ g.user_id = row.user_id ∧ g.token_hash = row.token_hash ∧
    g.issued_at ≤ note.checked_at ∧ note.checked_at < g.issued_at + REFRESH_TOKEN_EXPIRE_DAYS * 86400

def ShownFor (libraries : Libraries) (s : Realm) (note : Note) (user : User) : Prop :=
  user.is_active = true ∧ ∃ email password x, note.shown = some (email,password) ∧ user.email = libraries.lower email ∧
    Custody libraries s (.inl x) ∧ x.user_id = user.id ∧ bcryptBytes password = bcryptBytes x.password

def Minted (libraries : Libraries) (user_id : Uuid) (issued_at : Nat) (access_token : Str) : Prop :=
  ∃ organization_id jti, access_token = createAccessToken libraries user_id.str organization_id issued_at jti

structure Fresh (libraries : Libraries) (s : Realm) (note : Note) (user_id : Uuid) (issued : RefreshToken) (tokens : TokenPair) : Prop where
  owner : issued.user_id = user_id
  expires : issued.expires_at = note.issued_at + REFRESH_TOKEN_EXPIRE_DAYS * 86400
  minted : Minted libraries user_id note.issued_at tokens.access_token
  past : note.issued_at ≤ s.clock

structure LetIn (libraries : Libraries) (s : Realm) (user_id : Uuid) (access_token : Str) (now : Nat) (h : Handout) : Prop where
  custody : Custody libraries s (.inr h)
  token : h.access_token = access_token
  owner : h.user_id = user_id
  begun : h.issued_at ≤ now
  unexpired : now < h.issued_at + ACCESS_TOKEN_EXPIRE_MINUTES * 60

def Permitted (libraries : Libraries) (s : Realm) (setting : Setting) : Prop :=
  ∃ h y access_token current_password now, setting.setter = .changed access_token current_password now ∧
    LetIn libraries s setting.user_id access_token now h ∧
    Custody libraries s (.inl y) ∧ y.user_id = setting.user_id ∧ bcryptBytes current_password = bcryptBytes y.password

-- Each request has what it needs for its next commit.
def Vouched (libraries : Libraries) (s : Realm) : Activity → Prop
  | .account note (.login (.authenticated user _ _)) => ShownFor libraries s note user
  | .account note (.login (.inserted user issued tokens)) => ShownFor libraries s note user ∧ Fresh libraries s note user.id issued tokens
  | .account _ (.refresh (.selected _ (some row)) _) => Backed libraries s row
  | .account note (.refresh (.checked _ row) _) => Checked libraries s note row
  | .account note (.refresh (.authorized _ row user) _) => Checked libraries s note row ∧ user.id = row.user_id
  | .account note (.refresh (.updated _ row user _) _) => Checked libraries s note row ∧ user.id = row.user_id
  | .account note (.refresh (.inserted _ row _ issued tokens) _) =>
    Checked libraries s note row ∧ Fresh libraries s note row.user_id issued tokens ∧ note.checked_at ≤ note.issued_at
  | .change (.authenticated user setting current_password) =>
    setting.user_id = user.id ∧ (∃ h y salt access_token now, setting.setter = .changed access_token current_password now ∧
      LetIn libraries s user.id access_token now h ∧ Custody libraries s (.inl y) ∧ y.user_id = user.id ∧
      user.hashed_password = hashPassword libraries y.password salt)
  | .change (.verified user setting) => setting.user_id = user.id ∧ Permitted libraries s setting
  | .change (.flushed setting _) => Permitted libraries s setting
  | _ => True

theorem Backed.grown (grown : Grown s s') (backed : Backed libraries s row) : Backed libraries s' row := by
  obtain ⟨g,custody,owner,same,expires,past⟩ := backed
  exact ⟨g,custody.grown grown,owner,same,expires,past.trans grown.clock⟩

theorem Checked.grown (grown : Grown s s') (checked : Checked libraries s note row) : Checked libraries s' note row := by
  obtain ⟨past,g,custody,rest⟩ := checked
  exact ⟨past.trans grown.clock,g,custody.grown grown,rest⟩

theorem ShownFor.grown (grown : Grown s s') (shown : ShownFor libraries s note user) : ShownFor libraries s' note user := by
  obtain ⟨active,email,password,x,noted,addressed,custody,rest⟩ := shown
  exact ⟨active,email,password,x,noted,addressed,custody.grown grown,rest⟩

theorem Fresh.grown (grown : Grown s s') (fresh : Fresh libraries s note user_id issued tokens) : Fresh libraries s' note user_id issued tokens :=
  ⟨fresh.owner,fresh.expires,fresh.minted,fresh.past.trans grown.clock⟩

theorem LetIn.grown (grown : Grown s s') (let_in : LetIn libraries s user_id access_token now h) : LetIn libraries s' user_id access_token now h :=
  ⟨let_in.custody.grown grown,let_in.token,let_in.owner,let_in.begun,let_in.unexpired⟩

theorem Permitted.grown (grown : Grown s s') (permitted : Permitted libraries s setting) : Permitted libraries s' setting := by
  obtain ⟨h,y,access_token,current_password,now,setter,let_in,custody,rest⟩ := permitted
  exact ⟨h,y,access_token,current_password,now,setter,let_in.grown grown,custody.grown grown,rest⟩

theorem Vouched.grown (grown : Grown s s') (vouched : Vouched libraries s a) : Vouched libraries s' a := by
  unfold Vouched at vouched ⊢
  split at vouched
  · exact vouched.grown grown
  · exact ⟨vouched.1.grown grown,vouched.2.grown grown⟩
  · exact vouched.grown grown
  · exact vouched.grown grown
  · exact ⟨vouched.1.grown grown,vouched.2⟩
  · exact ⟨vouched.1.grown grown,vouched.2⟩
  · exact ⟨vouched.1.grown grown,vouched.2.1.grown grown,vouched.2.2⟩
  · obtain ⟨same,h,y,salt,access_token,now,setter,let_in,custody,rest⟩ := vouched
    exact ⟨same,h,y,salt,access_token,now,setter,let_in.grown grown,custody.grown grown,rest⟩
  · exact ⟨vouched.1,vouched.2.grown grown⟩
  · exact vouched.grown grown
  · trivial

structure Traced (libraries : Libraries) (s : Realm) : Prop where
  settings : ∀ x ∈ s.settings, Custody libraries s (.inl x)
  handed : ∀ h ∈ s.handed, Custody libraries s (.inr h) ∧ Minted libraries h.user_id h.issued_at h.access_token
  rows : ∀ row ∈ s.platform.refresh_tokens, Backed libraries s row

-- A step of a refresh, with what it has looked at.
inductive RefreshMove (security : AuthService.Security) (i : Nat) (s : AuthService.Store) :
    RefreshPhase → AuthService.RefreshLabel → AuthService.Store → RefreshPhase → Prop where
  | select : s.byHash (security.presents request) = refresh_row → s'.refresh_tokens = s.refresh_tokens →
      RefreshMove security i s (.requested request) .select s' (.selected request refresh_row)
  | check : row.is_active now = true → RefreshMove security i s (.selected request (some row)) (.check now) s (.checked request row)
  | user : user.id = row.user_id → RefreshMove security i s (.checked request row) .user s (.authorized request row user)
  | update : s'.refresh_tokens = s.refresh_tokens →
      RefreshMove security i s (.authorized request row user) (.update now) s' (.updated request row user now)
  | insert : s'.refresh_tokens = s.refresh_tokens → issued.user_id = user.id →
      issued.expires_at = now + security.REFRESH_TOKEN_EXPIRE_DAYS * 86400 →
      RefreshMove security i s (.updated request row user revoked_at) (.insert row_id raw_refresh access_token now) s'
        (.inserted request row revoked_at issued ⟨access_token,raw_refresh⟩)
  | commit : RefreshMove security i s (.inserted request row revoked_at issued tokens) .commit
      ((s.commit row.id revoked_at [issued]).release i) (.exchanged request tokens)
  | stop : label ≠ .commit → RefreshMove security i s phase label (s.release i) (.failed message)

theorem refresh_move {security : AuthService.Security} {s : AuthService.Store} (moved : AuthService.refresh security i s phase label = some (s',phase')) :
    RefreshMove security i s phase label s' phase' := by
  unfold AuthService.refresh at moved
  split at moved
  · obtain ⟨after,presented,equal⟩ := Option.map_eq_some_iff.mp moved
    cases equal
    unfold AuthService.Store.present at presented
    split at presented
    · cases presented
    · cases presented; exact .select rfl rfl
  · split at moved
    · cases moved; exact .stop nofun
    · split at moved
      · rename_i active
        cases moved
        exact .check active
      · cases moved; exact .stop nofun
  · split at moved
    · cases moved; exact .stop nofun
    · rename_i user looked
      split at moved
      · cases moved
        exact .user (by simpa using List.find?_some looked)
      · cases moved; exact .stop nofun
  · obtain ⟨after,locked,equal⟩ := Option.map_eq_some_iff.mp moved
    cases equal
    exact .update (AuthService.same_lock locked).rows
  · obtain ⟨after,generated,equal⟩ := Option.map_eq_some_iff.mp moved
    cases equal
    unfold AuthService.Store.generate at generated
    split at generated
    · cases generated
    · cases generated; exact .insert rfl rfl rfl
  · cases moved; exact .commit
  all_goals first | (cases moved; exact .stop nofun) | cases moved

-- The row a commit appends.
def issuing : Accounts.Activity → Accounts.Label → Option RefreshToken
  | .login (.inserted _ issued _),.login .commit => some issued
  | .refresh (.inserted _ _ _ issued _) _,.refresh .commit => some issued
  | _,_ => none

structure Alike (row old : RefreshToken) : Prop where
  user_id : row.user_id = old.user_id
  token_hash : row.token_hash = old.token_hash
  expires_at : row.expires_at = old.expires_at

theorem revoke_alike (id : Uuid) (now : Nat) (old : RefreshToken) : Alike (AuthService.RefreshToken.revoke id now old) old := by
  unfold AuthService.RefreshToken.revoke
  split <;> exact ⟨rfl,rfl,rfl⟩

theorem commit_rows {s : AuthService.Store} (member : row ∈ (s.commit key revoked_at issued).refresh_tokens) :
    (∃ old ∈ s.refresh_tokens, Alike row old) ∨ row ∈ issued := by
  rcases List.mem_append.mp member with earlier | new
  · obtain ⟨old,inside,rfl⟩ := List.mem_map.mp earlier
    exact .inl ⟨old,inside,revoke_alike key revoked_at old⟩
  · exact .inr new

theorem login_rows {security : Accounts.Security} (moved : Accounts.login security p phase label = some (p',phase')) :
    p'.refresh_tokens = p.refresh_tokens ∨ ∃ user issued tokens, phase = .inserted user issued tokens ∧ label = .commit ∧
      p'.refresh_tokens = p.refresh_tokens ++ [issued] := by
  unfold Accounts.login at moved
  split at moved
  · split at moved <;> (cases moved; exact .inl rfl)
  · obtain ⟨after,generated,equal⟩ := Option.map_eq_some_iff.mp moved
    cases equal
    unfold AuthService.Store.generate at generated
    split at generated
    · cases generated
    · cases generated; exact .inl rfl
  · cases moved; exact .inr ⟨_,_,_,rfl,rfl,rfl⟩
  · cases moved; exact .inl rfl
  · cases moved; exact .inl rfl
  · cases moved; exact .inl rfl
  · cases moved

theorem updateUser_rows {security : Accounts.Security} (moved : Accounts.updateUser security i p phase label = some (p',phase')) :
    p'.refresh_tokens = p.refresh_tokens := by
  unfold Accounts.updateUser at moved
  split at moved
  · split at moved
    · cases moved; rfl
    · split at moved <;> (cases moved; rfl)
  · split at moved
    · cases moved; rfl
    · split at moved <;> (cases moved; rfl)
  · split at moved
    · cases moved; rfl
    · obtain ⟨after,locked,equal⟩ := Option.map_eq_some_iff.mp moved
      cases equal
      unfold Platform.lockFlags at locked
      split at locked
      · cases locked; rfl
      · split at locked <;> cases locked
        rfl
  · rename_i written
    cases moved
    cases written <;> rfl
  · cases moved; rfl
  · cases moved; rfl
  · cases moved; rfl
  · cases moved; rfl
  · cases moved

theorem account_rows {security : Accounts.Security} (acted : Accounts.act security i p activity label = some (p',activity')) :
    ∀ row ∈ p'.refresh_tokens, (∃ old ∈ p.refresh_tokens, Alike row old) ∨ issuing activity label = some row := by
  have same (unchanged : p'.refresh_tokens = p.refresh_tokens) : ∀ row ∈ p'.refresh_tokens,
      (∃ old ∈ p.refresh_tokens, Alike row old) ∨ issuing activity label = some row := fun row member =>
    .inl ⟨row,unchanged ▸ member,⟨rfl,rfl,rfl⟩⟩
  unfold Accounts.act at acted
  split at acted
  · obtain ⟨phase,moved,rfl⟩ := lifted acted
    rcases login_rows moved with unchanged | ⟨user,issued,tokens,rfl,rfl,grown⟩
    · exact same unchanged
    · intro row member
      rw [grown] at member
      rcases List.mem_append.mp member with old | new
      · exact .inl ⟨row,old,⟨rfl,rfl,rfl⟩⟩
      · exact .inr (congrArg some (List.mem_singleton.mp new).symm)
  · obtain ⟨⟨after,phase⟩,moved,equal⟩ := Option.map_eq_some_iff.mp acted
    cases equal
    cases refresh_move moved with
    | select _ unchanged => exact same unchanged
    | update unchanged => exact same unchanged
    | insert unchanged _ _ => exact same unchanged
    | commit =>
      intro row member
      rcases commit_rows member with old | new
      · exact .inl old
      · exact .inr (congrArg some (List.mem_singleton.mp new).symm)
    | _ => exact same rfl
  · obtain ⟨⟨after,phase⟩,moved,equal⟩ := Option.map_eq_some_iff.mp acted
    cases equal
    cases AuthService.logout_change moved with
    | select presented =>
      unfold AuthService.Store.present at presented
      split at presented
      · cases presented
      · cases presented; exact same rfl
    | update locked => exact same (AuthService.same_lock locked).rows
    | commit =>
      intro row member
      rcases commit_rows member with old | new
      · exact .inl old
      · cases new
    | _ => exact same rfl
  · obtain ⟨phase,moved,rfl⟩ := lifted acted
    exact same (updateUser_rows moved)
  · split at acted <;> (cases acted; exact same rfl)
  · cases acted

theorem Backed.alike (backed : Backed libraries s old) (alike : Alike row old) : Backed libraries s row := by
  obtain ⟨g,custody,owner,same,expires,past⟩ := backed
  exact ⟨g,custody,owner.trans alike.user_id.symm,same.trans alike.token_hash.symm,alike.expires_at.trans expires,past⟩

-- The pair a commit hands out has its chain, and so has the new row.
theorem handed_over (vouched : Vouched libraries s (.account note activity)) (issues : issuing activity label = some row) :
    ∃ h, handout note activity label = some h ∧ Minted libraries h.user_id h.issued_at h.access_token ∧
      ∀ t, Grown s t → h ∈ t.handed → Custody libraries t (.inr h) ∧ Backed libraries t row := by
  unfold issuing at issues
  split at issues
  · rename_i user issued tokens
    cases issues
    obtain ⟨⟨active,email,password,x,noted,addressed,custody,owner,right⟩,fresh⟩ := vouched
    refine ⟨⟨user.id,row.token_hash,tokens.access_token,note.issued_at,.password email password user⟩,?_,fresh.minted,fun t grown member => ?_⟩
    · rw [handout,noted]
      rfl
    · have chain := Custody.login member rfl rfl addressed active (custody.grown grown) owner right
      exact ⟨chain,_,chain,fresh.owner.symm,rfl,fresh.expires,fresh.past.trans grown.clock⟩
  · rename_i request checked_row revoked_at issued tokens account
    cases issues
    obtain ⟨⟨_,g,custody,owner,same,begun,unexpired⟩,fresh,later⟩ := vouched
    refine ⟨_,rfl,?_,fun t grown member => ?_⟩
    · rw [fresh.owner]
      exact fresh.minted
    · have chain := Custody.refresh member (by rw [same]) (custody.grown grown) (owner.trans fresh.owner.symm) begun unexpired later
      exact ⟨chain,_,chain,rfl,rfl,fresh.expires,fresh.past.trans grown.clock⟩
  · cases issues

theorem handout_issuing (hands : handout note activity label = some h) : ∃ row, issuing activity label = some row := by
  unfold handout at hands
  split at hands
  · exact ⟨_,rfl⟩
  · exact ⟨_,rfl⟩
  · cases hands

theorem account_grown (s : Realm) (p : Platform) (more : List Handout) : Grown s {s with platform := p, handed := s.handed ++ more} :=
  ⟨fun _ member => member,fun _ member => List.mem_append_left _ member,Nat.le_refl _⟩

theorem account_traced {s : Realm} (traced : Traced libraries s) (vouched : Vouched libraries s (.account note activity))
    (acted : Accounts.act (security libraries) i s.platform activity label = some (p,activity')) :
    Traced libraries {s with platform := p, handed := s.handed ++ (handout note activity label).toList} := by
  have grown := account_grown s p (handout note activity label).toList
  refine ⟨fun x member => (traced.settings x member).grown grown,fun h member => ?_,fun row member => ?_⟩
  · rcases List.mem_append.mp member with old | new
    · exact ⟨(traced.handed h old).1.grown grown,(traced.handed h old).2⟩
    · have hands : handout note activity label = some h := Option.mem_toList.mp new
      obtain ⟨row,issues⟩ := handout_issuing hands
      obtain ⟨_,same,minted,chain⟩ := handed_over vouched issues
      cases same.symm.trans hands
      exact ⟨(chain _ grown member).1,minted⟩
  · rcases account_rows acted row member with ⟨old,inside,alike⟩ | issues
    · exact ((traced.rows old inside).grown grown).alike alike
    · obtain ⟨h,hands,_,chain⟩ := handed_over vouched issues
      refine (chain _ grown (List.mem_append_right _ ?_)).2
      rw [hands]
      exact List.mem_singleton.mpr rfl

-- A password that opens an account is the one that holds for it, up to its
-- first 72 bytes.
theorem authenticated_shown {s : Realm} (sound : Sound libraries s) (traced : Traced libraries s)
    (let_in : authenticateUser (security libraries) s.platform email password = .ok user) (note : Note) :
    ShownFor libraries s {note with shown := some (email,password)} user := by
  unfold authenticateUser at let_in
  split at let_in
  · cases let_in
  · rename_i row looked
    split at let_in
    · cases let_in
    · rename_i verified
      split at let_in
      · rename_i active
        cases let_in
        obtain ⟨x,salt,holds,hashed⟩ := sound.known user (List.mem_of_find?_eq_some looked)
        have right : (security libraries).verifyPassword password user.hashed_password = true := by simpa using verified
        have addressed : user.email = (security libraries).lower email := by simpa using List.find?_some looked
        have owner : x.user_id = user.id := by simpa using List.find?_some holds
        rw [hashed] at right
        exact ⟨active,email,password,x,rfl,addressed,traced.settings x (List.mem_of_find?_eq_some holds),owner,verify_hash.mp right⟩
      · cases let_in

theorem login_vouched {s : Realm} (sound : Sound libraries s) (traced : Traced libraries s) (vouched : Vouched libraries s (.account note (.login phase)))
    (clock : timed s.clock (.login label) = true) (made : minted libraries organization_id jti s.clock (.login phase) (.login label) = true)
    (moved : Accounts.login (security libraries) s.platform phase label = some (p,phase')) :
    Vouched libraries s (.account (note.after s.clock (.login phase) (.login label)) (.login phase')) := by
  unfold Accounts.login at moved
  split at moved
  · split at moved
    · cases moved; trivial
    · rename_i let_in
      cases moved
      exact authenticated_shown sound traced let_in note
  · rename_i user user_agent ip_address row_id raw_refresh access_token now
    obtain ⟨after,_,equal⟩ := Option.map_eq_some_iff.mp moved
    cases equal
    have read : now = s.clock := by simpa [timed] using clock
    have token : access_token = createAccessToken libraries user.id.str organization_id s.clock jti := by simpa [minted] using made
    subst read
    exact ⟨vouched,rfl,rfl,⟨organization_id,jti,token⟩,Nat.le_refl _⟩
  · cases moved; trivial
  · cases moved; trivial
  · cases moved; trivial
  · cases moved; trivial
  · cases moved

theorem refresh_vouched {s : Realm} (traced : Traced libraries s) (vouched : Vouched libraries s (.account note (.refresh phase account)))
    (clock : timed s.clock (.refresh label) = true) (made : minted libraries organization_id jti s.clock (.refresh phase account) (.refresh label) = true)
    (moved : RefreshMove (security libraries).toSecurity i s.platform.store phase label after phase') (account' : Option Uuid) :
    Vouched libraries s (.account (note.after s.clock (.refresh phase account) (.refresh label)) (.refresh phase' account')) := by
  cases moved with
  | @select request refresh_row _ found _ =>
    cases refresh_row with
    | none => trivial
    | some row => exact traced.rows row (List.mem_of_find?_eq_some found)
  | @check request row now active =>
    have read : now = s.clock := by simpa [timed] using clock
    subst read
    obtain ⟨g,custody,owner,same,expires,past⟩ := vouched
    have unexpired : s.clock < row.expires_at := of_decide_eq_true (Bool.and_eq_true_iff.mp active).2
    exact ⟨Nat.le_refl _,g,custody,owner,same,past,expires ▸ unexpired⟩
  | user owner => exact ⟨vouched,owner⟩
  | update => exact vouched
  | @insert now request row user revoked_at row_id raw_refresh access_token _ _ _ owner expires =>
    have read : now = s.clock := by simpa [timed] using clock
    have token : access_token = createAccessToken libraries user.id.str organization_id s.clock jti := by simpa [minted] using made
    subst read
    obtain ⟨checked,same⟩ := vouched
    rw [same] at owner token
    exact ⟨checked,⟨owner,expires,⟨organization_id,jti,token⟩,Nat.le_refl _⟩,checked.1⟩
  | commit => trivial
  | stop => trivial

theorem account_vouched {s : Realm} (sound : Sound libraries s) (traced : Traced libraries s) (vouched : Vouched libraries s (.account note activity))
    (clock : timed s.clock label = true) (made : minted libraries organization_id jti s.clock activity label = true)
    (acted : Accounts.act (security libraries) i s.platform activity label = some (p,activity')) :
    Vouched libraries s (.account (note.after s.clock activity label) activity') := by
  unfold Accounts.act at acted
  split at acted
  · obtain ⟨phase,moved,rfl⟩ := lifted acted
    exact login_vouched sound traced vouched clock made moved
  · obtain ⟨⟨after,phase⟩,moved,equal⟩ := Option.map_eq_some_iff.mp acted
    cases equal
    exact refresh_vouched traced vouched clock made (refresh_move moved) _
  · obtain ⟨⟨after,phase⟩,moved,equal⟩ := Option.map_eq_some_iff.mp acted
    cases equal
    trivial
  · obtain ⟨phase,moved,rfl⟩ := lifted acted
    trivial
  · split at acted <;> (cases acted; trivial)
  · cases acted

-- Who brings a token the server reads is its owner.
theorem bearer_let_in {s : Realm} (traced : Traced libraries s) (genuine : unforged libraries s.handed now token = true)
    (found : getCurrentUser (security libraries) s.platform token now = .ok user) :
    ∃ access_token h, token = some access_token ∧ LetIn libraries s user.id access_token now h := by
  cases token with
  | none => cases found
  | some access_token =>
    have read : (libraries.decode access_token now).toOption.isSome = true := by
      cases decoded : libraries.decode access_token now with
      | ok payload => rfl
      | error reason =>
        unfold getCurrentUser at found
        simp only [security,decoded] at found
        cases reason <;> cases found
    unfold unforged at genuine
    simp only [read,Bool.not_true,Bool.or_false,List.contains_iff_mem] at genuine
    obtain ⟨h,member,same⟩ := List.mem_map.mp genuine
    obtain ⟨custody,organization_id,jti,made⟩ := traced.handed h member
    rw [← same,made] at found
    obtain ⟨owner,_,_,begun,unexpired⟩ := access_subject found
    exact ⟨access_token,h,rfl,custody,same,owner.symm,begun,unexpired⟩

theorem Traced.settled {s s' : Realm} (traced : Traced libraries s) (grown : Grown s s') (handed : s'.handed = s.handed)
    (rows : s'.platform.refresh_tokens = s.platform.refresh_tokens) (settings : ∀ x ∈ s'.settings, x ∈ s.settings ∨ Custody libraries s' (.inl x)) :
    Traced libraries s' where
  settings x member := (settings x member).elim (fun old => (traced.settings x old).grown grown) id
  handed h member := ((traced.handed h (handed ▸ member)).imp_left (·.grown grown))
  rows row member := (traced.rows row (rows ▸ member)).grown grown

theorem register_traced {s : Realm} (traced : Traced libraries s) (moved : register libraries i s phase label = some (s',phase')) :
    Grown s s' ∧ Traced libraries s' := by
  have still {t : Realm} (settings : t.settings = s.settings) (handed : t.handed = s.handed) (rows : t.platform.refresh_tokens = s.platform.refresh_tokens)
      (clock : t.clock = s.clock) : Grown s t ∧ Traced libraries t := by
    have grown : Grown s t := ⟨fun _ member => settings ▸ member,fun _ member => handed ▸ member,Nat.le_of_eq clock.symm⟩
    exact ⟨grown,traced.settled grown handed rows fun x member => .inl (settings ▸ member)⟩
  unfold register at moved
  split at moved
  · split at moved <;> (cases moved; exact still rfl rfl rfl rfl)
  · simp only at moved
    split at moved
    · cases moved; exact still rfl rfl rfl rfl
    · obtain ⟨after,inserted,equal⟩ := Option.map_eq_some_iff.mp moved
      cases equal
      obtain ⟨rfl,_⟩ := insert_parts inserted
      exact still rfl rfl rfl rfl
  · rename_i user password
    cases moved
    have grown : Grown s {(s.drop i).withUsers (s.platform.users ++ [user]) with settings := ⟨user.id,password,.given⟩ :: s.settings} :=
      ⟨fun _ member => List.mem_cons_of_mem _ member,fun _ member => member,Nat.le_refl _⟩
    refine ⟨grown,traced.settled grown rfl rfl fun x member => ?_⟩
    rcases List.mem_cons.mp member with rfl | old
    · exact .inr (.given List.mem_cons_self rfl)
    · exact .inl old
  · cases moved; exact still rfl rfl rfl rfl
  · cases moved; exact still rfl rfl rfl rfl
  · cases moved; exact still rfl rfl rfl rfl
  · cases moved

theorem lockFlags_rows {p : Platform} (locked : p.lockFlags row i = some p') : p'.refresh_tokens = p.refresh_tokens := by
  unfold Platform.lockFlags at locked
  split at locked
  · cases locked; rfl
  · split at locked <;> cases locked
    rfl

theorem change_traced {s : Realm} (sound : Sound libraries s) (traced : Traced libraries s) (vouched : Vouched libraries s (.change phase))
    (genuine : unforged libraries s.handed s.clock (bearer (.change phase)) = true) (moved : changePassword libraries i s phase label = some (s',phase')) :
    Grown s s' ∧ Traced libraries s' ∧ Vouched libraries s' (.change phase') := by
  have same : Grown s s := ⟨fun _ member => member,fun _ member => member,Nat.le_refl _⟩
  unfold changePassword at moved
  split at moved
  · split at moved
    · cases moved; exact ⟨same,traced,trivial⟩
    · rename_i found
      cases moved
      obtain ⟨access_token,h,rfl,let_in⟩ := bearer_let_in traced genuine found
      obtain ⟨y,salt,holds,hashed⟩ := sound.known _ (Deactivation.getCurrentUser_active found).1
      have owner := List.find?_some holds
      rw [decide_eq_true_iff] at owner
      exact ⟨same,traced,rfl,h,y,salt,access_token,_,rfl,let_in,traced.settings y (List.mem_of_find?_eq_some holds),owner,hashed⟩
  · split at moved
    · rename_i verified
      cases moved
      obtain ⟨owns,h,y,salt,access_token,now,setter,let_in,custody,owner,hashed⟩ := vouched
      rw [hashed] at verified
      exact ⟨same,traced,owns,h,y,access_token,_,now,setter,owns ▸ let_in,custody,owner.trans owns.symm,verify_hash.mp verified⟩
    · cases moved; exact ⟨same,traced,trivial⟩
  · obtain ⟨p,locked,equal⟩ := Option.map_eq_some_iff.mp moved
    cases equal
    have grown : Grown s {s with platform := p} := ⟨fun _ member => member,fun _ member => member,Nat.le_refl _⟩
    exact ⟨grown,traced.settled grown rfl (lockFlags_rows locked) fun _ member => .inl member,vouched.2.grown grown⟩
  · rename_i setting hashed_password
    cases moved
    have grown : Grown s {s with
        platform := {s.platform with users := s.platform.users.map (setPassword setting.user_id hashed_password)}.release i
        settings := setting :: s.settings} :=
      ⟨fun _ member => List.mem_cons_of_mem _ member,fun _ member => member,Nat.le_refl _⟩
    refine ⟨grown,traced.settled grown rfl rfl fun x member => ?_,trivial⟩
    rcases List.mem_cons.mp member with rfl | old
    · obtain ⟨h,y,access_token,current_password,now,setter,let_in,custody,owner,right⟩ := vouched
      refine .inr (.changed List.mem_cons_self ?_ (let_in.custody.grown grown) let_in.owner let_in.begun let_in.unexpired
        (custody.grown grown) owner right)
      rw [setter,let_in.token]
    · exact .inl old
  · cases moved; exact ⟨same,traced,trivial⟩
  · cases moved; exact ⟨same,traced,trivial⟩
  · cases moved; exact ⟨same,traced,trivial⟩
  · cases moved
    have grown : Grown s {s with platform := s.platform.release i} := ⟨fun _ member => member,fun _ member => member,Nat.le_refl _⟩
    exact ⟨grown,traced.settled grown rfl rfl fun _ member => .inl member,trivial⟩
  · cases moved

theorem act_traced {s : Realm} (sound : Sound libraries s) (traced : Traced libraries s) (vouched : Vouched libraries s a)
    (acted : act libraries i s a label = some (s',a')) : Grown s s' ∧ Traced libraries s' ∧ Vouched libraries s' a' := by
  obtain ⟨now,label⟩ := label
  obtain ⟨later,change⟩ := act_change acted
  have sooner : Grown s (s.at now) := ⟨fun _ member => member,fun _ member => member,later⟩
  have timely : Sound libraries (s.at now) := ⟨sound.keys,sound.emails,sound.known⟩
  have before : Traced libraries (s.at now) := traced.settled sooner rfl rfl fun _ member => .inl member
  have vouched := vouched.grown sooner
  have through {t : Realm} (grown : Grown (s.at now) t) : Grown s t :=
    ⟨fun x member => grown.settings x member,fun h member => grown.handed h member,later.trans grown.clock⟩
  cases change with
  | @account sent _ _ activity note p _ clock made _ moved =>
    have grown := account_grown (s.at now) p (handout note activity sent).toList
    exact ⟨through grown,account_traced before vouched moved,(account_vouched timely before vouched clock made moved).grown grown⟩
  | register moved =>
    obtain ⟨grown,after⟩ := register_traced before moved
    exact ⟨through grown,after,trivial⟩
  | change genuine moved =>
    obtain ⟨grown,after,still⟩ := change_traced timely before vouched genuine moved
    exact ⟨through grown,after,still⟩

theorem traced_outline : Interleave.Outline (act libraries) (fun s => Sound libraries s ∧ Traced libraries s)
    (fun s i a => Writes libraries s i a ∧ Vouched libraries s a) where
  own i s a label s' a' store mine acted := by
    obtain ⟨sound,writes⟩ := act_sound store.1 mine.1 acted
    obtain ⟨_,traced,vouched⟩ := act_traced store.1 store.2 mine.2 acted
    exact ⟨⟨sound,traced⟩,writes,vouched⟩
  others i j s a label s' a' b other store mine theirs acted :=
    ⟨sound_outline.others i j s a label s' a' b other store.1 mine.1 theirs.1 acted,
      theirs.2.grown (act_traced store.1 store.2 mine.2 acted).1⟩

theorem begun_vouched (fresh : begun a = true) : Vouched libraries s a := by
  unfold begun at fresh
  split at fresh <;> trivial

theorem runs_traced (settled : Settled libraries start) (path : Runs (Step libraries) start labels c) :
    Sound libraries c.shared ∧ Traced libraries c.shared := by
  refine (traced_outline.runs ⟨⟨settled.sound,?_,?_,?_⟩,fun i => ⟨begun_writes (settled.fresh i),begun_vouched (settled.fresh i)⟩⟩ path).1
  · exact fun x member => .given member (settled.given x member)
  · intro h member
    rw [settled.none_handed] at member
    cases member
  · intro row member
    rw [settled.no_tokens] at member
    cases member

-- The account a request has just been let in to.
def caller : Activity → Option User
  | .account _ (.request (.authenticated current_user)) => some current_user
  | .account _ (.admin (.authenticated admin _)) => some admin
  | .change (.authenticated current_user _ _) => some current_user
  | _ => none

theorem caller_found {s : Realm} (acted : act libraries i s a label = some (s',a')) (served : caller a' = some user) :
    unforged libraries s.handed label.1 (bearer a) = true ∧ getCurrentUser (security libraries) s.platform (bearer a) label.1 = .ok user := by
  obtain ⟨now,label⟩ := label
  obtain ⟨_,change⟩ := act_change acted
  cases change with
  | account clock _ genuine moved =>
    cases Accounts.act_change moved with
    | admin change =>
      cases change with
      | @authenticate _ read _ _ found =>
        cases served
        have same : read = now := by simpa [timed,Realm.at] using clock
        exact ⟨genuine,same ▸ found⟩
      | _ => cases served
    | @request _ read _ found =>
      cases served
      have same : read = now := by simpa [timed,Realm.at] using clock
      exact ⟨genuine,same ▸ found⟩
    | _ => cases served
  | register => cases served
  | change genuine moved =>
    unfold changePassword at moved
    split at moved
    · split at moved
      · cases moved; cases served
      · rename_i found
        cases moved
        cases served
        exact ⟨genuine,found⟩
    · split at moved <;> (cases moved; cases served)
    · obtain ⟨p,_,equal⟩ := Option.map_eq_some_iff.mp moved
      cases equal
      cases served
    · cases moved; cases served
    · cases moved; cases served
    · cases moved; cases served
    · cases moved; cases served
    · cases moved; cases served
    · cases moved

-- Whoever is let in as a user, at any moment of any interleaving, holds an access
-- token younger than 15 minutes that the server has handed out; it goes back,
-- over refresh tokens none of them older than 30 days, to a login with a password
-- of this account, and that password to the one the account was created with.
theorem callers_vouched (libraries : Libraries) (start c next : Config) (labels : List (Nat × Nat × Label)) (label : Nat × Nat × Label) (user : User)
    (settled : Settled libraries start) (path : Runs (Step libraries) start labels c) (moved : Step libraries c label next)
    (served : caller (next.locals label.1) = some user) :
    ∃ access_token h, bearer (c.locals label.1) = some access_token ∧ LetIn libraries c.shared user.id access_token label.2.1 h := by
  obtain ⟨_,traced⟩ := runs_traced settled path
  obtain ⟨genuine,found⟩ := caller_found (Interleave.step_parts moved).1 served
  exact bearer_let_in traced genuine found

def comeBack : Nat × Nat × Label := (2,10,.account (.authenticate 10) none [])

theorem token_vouched : ∃ c user access_token h, Runs (Step readable) signUp loggedIn c ∧ LetIn readable c.shared user access_token 10 h := by
  obtain ⟨c,path,here⟩ := run_any (Interleave.advance (act readable)) signUp loggedIn
    (fun c => (Interleave.advance (act readable) c comeBack).any fun next => (caller (next.locals 2)).isSome) (by decide +kernel)
  obtain ⟨next,moved,served⟩ := (Option.any_eq_true _ _).mp here
  obtain ⟨user,served⟩ := Option.isSome_iff_exists.mp served
  obtain ⟨access_token,h,_,let_in⟩ := callers_vouched readable signUp c next loggedIn comeBack user signUp_settled path moved served
  exact ⟨c,user.id,access_token,h,path,let_in⟩

end RagForge.TokenCustody
