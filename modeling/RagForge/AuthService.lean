import RagForge.Interleave
import RagForge.Tables

namespace RagForge.AuthService
open RagForge Transition

structure RefreshToken where
  id : Uuid
  user_id : Uuid
  token_hash : Str
  user_agent : Option Str
  ip_address : Option Str
  expires_at : Nat
  revoked_at : Option Nat

def RefreshToken.is_active (row : RefreshToken) (now : Nat) : Bool := row.revoked_at.isNone && decide (now < row.expires_at)

-- `UPDATE refresh_tokens SET revoked_at = ... WHERE id = row`
def RefreshToken.revoke (row : Uuid) (now : Nat) (other : RefreshToken) : RefreshToken :=
  if other.id = row then {other with revoked_at := some now} else other

theorem RefreshToken.revoke_id : (RefreshToken.revoke row now other).id = other.id := by
  unfold RefreshToken.revoke; split <;> rfl

theorem RefreshToken.revoke_token_hash : (RefreshToken.revoke row now other).token_hash = other.token_hash := by
  unfold RefreshToken.revoke; split <;> rfl

theorem RefreshToken.revoke_revoked (revoked : other.id = row ∨ other.revoked_at.isSome) :
    (RefreshToken.revoke row now other).revoked_at.isSome := by
  unfold RefreshToken.revoke
  split
  · rfl
  · rename_i elsewhere
    exact revoked.resolve_left elsewhere

structure TokenPair where
  access_token : Str
  refresh_token : Str

-- The payload of a request and the two client fields a new row keeps.
structure RefreshRequest where
  refresh_token : Str
  user_agent : Option Str
  ip_address : Option Str

structure Security where
  hashOpaqueToken : Str → Str
  REFRESH_TOKEN_EXPIRE_DAYS : Nat := 30

def Security.presents (security : Security) (request : RefreshRequest) : Str := security.hashOpaqueToken request.refresh_token

-- Committed rows and the row locks of open transactions. `generated` and
-- `presented` log token hashes; no service reads them.
structure Store where
  users : List User
  refresh_tokens : List RefreshToken
  locks : Uuid → Option Nat
  generated : List Str
  presented : List Str

namespace Store

-- `select(RefreshToken).where(RefreshToken.token_hash == token_hash)`
def byHash (s : Store) (token_hash : Str) : Option RefreshToken := s.refresh_tokens.find? (·.token_hash = token_hash)

-- `generate_opaque_token` cannot be guessed: nobody presents a token that was
-- generated and whose row is not committed.
def present (s : Store) (token_hash : Str) : Option Store :=
  if token_hash ∈ s.generated ∧ (s.byHash token_hash).isNone then none
  else some {s with presented := token_hash :: s.presented}

-- Nor does it repeat: what was generated, presented or stored is refused.
def generate (s : Store) (token_hash : Str) : Option Store :=
  if token_hash ∈ s.generated ∨ token_hash ∈ s.presented ∨ (s.byHash token_hash).isSome then none
  else some {s with generated := token_hash :: s.generated}

-- The row lock an UPDATE takes; the holder keeps it to the end of its transaction.
def lock (s : Store) (row : Uuid) (i : Nat) : Option Store :=
  match s.locks row with
  | none => some {s with locks := Function.update s.locks row (some i)}
  | some holder => if holder = i then some s else none

def release (s : Store) (i : Nat) : Store :=
  {s with locks := fun row => if s.locks row = some i then none else s.locks row}

-- The commit of an UPDATE of `revoked_at` and of the inserted rows.
def commit (s : Store) (row : Uuid) (revoked_at : Nat) (issued : List RefreshToken) : Store :=
  {s with refresh_tokens := s.refresh_tokens.map (RefreshToken.revoke row revoked_at) ++ issued}

end Store

inductive RefreshPhase where
  | requested (request : RefreshRequest)
  | selected (request : RefreshRequest) (refresh_row : Option RefreshToken)
  | checked (request : RefreshRequest) (refresh_row : RefreshToken)
  | authorized (request : RefreshRequest) (refresh_row : RefreshToken) (user : User)
  | updated (request : RefreshRequest) (refresh_row : RefreshToken) (user : User) (revoked_at : Nat)
  | inserted (request : RefreshRequest) (refresh_row : RefreshToken) (revoked_at : Nat) (issued : RefreshToken) (tokens : TokenPair)
  | exchanged (request : RefreshRequest) (tokens : TokenPair)
  | failed (message : Str)

inductive RefreshLabel where
  | select
  | check (now : Nat)
  | user
  | update (now : Nat)
  | insert (row_id : Uuid) (raw_refresh access_token : Str) (now : Nat)
  | commit
  | fails (message : Str)

def revokedMessage : Str := "Refresh token expired or revoked".toList

def inactiveMessage : Str := "Account is inactive".toList

-- `/auth/refresh`: `rotate_refresh_token` with `issue_token_pair`, statement by
-- statement, and the commit of its endpoint.
def refresh (security : Security) (i : Nat) (s : Store) : RefreshPhase → RefreshLabel → Option (Store × RefreshPhase)
  | .requested request,.select =>
    (s.present (security.presents request)).map (·,.selected request (s.byHash (security.presents request)))
  | .selected request refresh_row,.check now => match refresh_row with
    | none => some (s.release i,.failed revokedMessage)
    | some row => if row.is_active now then some (s,.checked request row) else some (s.release i,.failed revokedMessage)
  | .checked request row,.user => match s.users.find? (·.id = row.user_id) with
    | none => some (s.release i,.failed inactiveMessage)
    | some user =>
      if user.is_active then some (s,.authorized request row user) else some (s.release i,.failed inactiveMessage)
  | .authorized request row user,.update now => (s.lock row.id i).map (·,.updated request row user now)
  | .updated request row user revoked_at,.insert row_id raw_refresh access_token now =>
    let issued : RefreshToken := ⟨row_id,user.id,security.hashOpaqueToken raw_refresh,request.user_agent,request.ip_address,
      now + security.REFRESH_TOKEN_EXPIRE_DAYS * 86400,none⟩
    (s.generate issued.token_hash).map (·,.inserted request row revoked_at issued ⟨access_token,raw_refresh⟩)
  | .inserted request row revoked_at issued tokens,.commit =>
    some ((s.commit row.id revoked_at [issued]).release i,.exchanged request tokens)
  | .requested _,.fails message => some (s.release i,.failed message)
  | .selected _ _,.fails message => some (s.release i,.failed message)
  | .checked _ _,.fails message => some (s.release i,.failed message)
  | .authorized _ _ _,.fails message => some (s.release i,.failed message)
  | .updated _ _ _ _,.fails message => some (s.release i,.failed message)
  | .inserted _ _ _ _ _,.fails message => some (s.release i,.failed message)
  | _,_ => none

inductive LogoutPhase where
  | requested (request : RefreshRequest)
  | selected (request : RefreshRequest) (refresh_row : Option RefreshToken)
  | updated (request : RefreshRequest) (refresh_row : RefreshToken) (revoked_at : Nat)
  | returned (request : RefreshRequest)
  | failed (message : Str)

inductive LogoutLabel where
  | select
  | update (now : Nat)
  | commit
  | fails (message : Str)

-- `/auth/logout`: a token that is unknown or revoked already is left alone.
def logout (security : Security) (i : Nat) (s : Store) : LogoutPhase → LogoutLabel → Option (Store × LogoutPhase)
  | .requested request,.select =>
    (s.present (security.presents request)).map (·,.selected request (s.byHash (security.presents request)))
  | .selected request refresh_row,.update now => match refresh_row with
    | none => none
    | some row => if row.revoked_at.isNone then (s.lock row.id i).map (·,.updated request row now) else none
  | .selected request refresh_row,.commit => match refresh_row with
    | none => some (s.release i,.returned request)
    | some row => if row.revoked_at.isNone then none else some (s.release i,.returned request)
  | .updated request row revoked_at,.commit => some ((s.commit row.id revoked_at []).release i,.returned request)
  | .requested _,.fails message => some (s.release i,.failed message)
  | .selected _ _,.fails message => some (s.release i,.failed message)
  | .updated _ _ _,.fails message => some (s.release i,.failed message)
  | _,_ => none

inductive Activity where
  | idle
  | refresh (phase : RefreshPhase)
  | logout (phase : LogoutPhase)

inductive Label where
  | refresh (label : RefreshLabel)
  | logout (label : LogoutLabel)

def act (security : Security) (i : Nat) (s : Store) : Activity → Label → Option (Store × Activity)
  | .refresh phase,.refresh label => (refresh security i s phase label).map (Prod.map id .refresh)
  | .logout phase,.logout label => (logout security i s phase label).map (Prod.map id .logout)
  | _,_ => none

abbrev Config := Interleave.Config Store Activity
abbrev Step (security : Security) : Config → Nat × Label → Config → Prop := Interleave.Step (act security)

-- What a step does to the rows and the logs; locks aside.
structure Same (s s' : Store) : Prop where
  rows : s'.refresh_tokens = s.refresh_tokens
  generated : s'.generated = s.generated
  presented : s'.presented = s.presented

theorem same_release (s : Store) (i : Nat) : Same s (s.release i) := ⟨rfl,rfl,rfl⟩

theorem same_lock {s : Store} (locked : s.lock row i = some s') : Same s s' := by
  unfold Store.lock at locked
  split at locked
  · cases locked; exact ⟨rfl,rfl,rfl⟩
  · split at locked
    · cases locked; exact ⟨rfl,rfl,rfl⟩
    · cases locked

-- Everything a step of a refresh can do.
inductive RefreshChange (security : Security) (i : Nat) (s : Store) : RefreshPhase → RefreshLabel → Store → RefreshPhase → Prop where
  | select : s.present (security.presents request) = some s' →
      RefreshChange security i s (.requested request) .select s' (.selected request (s.byHash (security.presents request)))
  | check : row.is_active now = true →
      RefreshChange security i s (.selected request (some row)) (.check now) s (.checked request row)
  | user : RefreshChange security i s (.checked request row) .user s (.authorized request row user)
  | update : s.lock row.id i = some s' →
      RefreshChange security i s (.authorized request row user) (.update now) s' (.updated request row user now)
  | insert : s.generate issued.token_hash = some s' → issued.token_hash = security.hashOpaqueToken tokens.refresh_token →
      RefreshChange security i s (.updated request row user revoked_at) (.insert row_id raw_refresh access_token now) s'
        (.inserted request row revoked_at issued tokens)
  | commit : RefreshChange security i s (.inserted request row revoked_at issued tokens) .commit
      ((s.commit row.id revoked_at [issued]).release i) (.exchanged request tokens)
  | stop : (∀ request tokens, phase ≠ .exchanged request tokens) →
      RefreshChange security i s phase label (s.release i) (.failed message)

theorem refresh_change (acted : refresh security i s phase label = some (s',phase')) :
    RefreshChange security i s phase label s' phase' := by
  unfold refresh at acted
  split at acted
  · obtain ⟨after,presented,equal⟩ := Option.map_eq_some_iff.mp acted
    cases equal
    exact .select presented
  · split at acted
    · cases acted; exact .stop nofun
    · split at acted
      · rename_i active
        cases acted
        exact .check active
      · cases acted; exact .stop nofun
  · split at acted
    · cases acted; exact .stop nofun
    · split at acted
      · cases acted; exact .user
      · cases acted; exact .stop nofun
  · obtain ⟨after,locked,equal⟩ := Option.map_eq_some_iff.mp acted
    cases equal
    exact .update locked
  · obtain ⟨after,generated,equal⟩ := Option.map_eq_some_iff.mp acted
    cases equal
    exact .insert generated rfl
  · cases acted; exact .commit
  all_goals first | (cases acted; exact .stop nofun) | cases acted

inductive LogoutChange (security : Security) (i : Nat) (s : Store) : LogoutPhase → Store → LogoutPhase → Prop where
  | select : s.present (security.presents request) = some s' →
      LogoutChange security i s (.requested request) s' (.selected request (s.byHash (security.presents request)))
  | update : s.lock row.id i = some s' → LogoutChange security i s (.selected request (some row)) s' (.updated request row now)
  | skip : (∀ row ∈ refresh_row, row.revoked_at.isSome) →
      LogoutChange security i s (.selected request refresh_row) (s.release i) (.returned request)
  | commit : LogoutChange security i s (.updated request row revoked_at)
      ((s.commit row.id revoked_at []).release i) (.returned request)
  | stop : LogoutChange security i s phase (s.release i) (.failed message)

theorem logout_change (acted : logout security i s phase label = some (s',phase')) :
    LogoutChange security i s phase s' phase' := by
  unfold logout at acted
  split at acted
  · obtain ⟨after,presented,equal⟩ := Option.map_eq_some_iff.mp acted
    cases equal
    exact .select presented
  · split at acted
    · cases acted
    · split at acted
      · obtain ⟨after,locked,equal⟩ := Option.map_eq_some_iff.mp acted
        cases equal
        exact .update locked
      · cases acted
  · split at acted
    · cases acted; exact .skip nofun
    · split at acted
      · cases acted
      · rename_i revoked
        cases acted
        refine .skip fun row member => ?_
        cases Option.mem_some.mp member
        exact Option.isSome_iff_ne_none.mpr (by simpa using revoked)
  · cases acted; exact .commit
  all_goals first | (cases acted; exact .stop) | cases acted

inductive Change (security : Security) (i : Nat) (s : Store) : Activity → Label → Store → Activity → Prop where
  | refresh : RefreshChange security i s phase label s' phase' →
      Change security i s (.refresh phase) (.refresh label) s' (.refresh phase')
  | logout : LogoutChange security i s phase s' phase' →
      Change security i s (.logout phase) (.logout label) s' (.logout phase')

theorem act_change (acted : act security i s a label = some (s',a')) : Change security i s a label s' a' := by
  unfold act at acted
  split at acted
  · obtain ⟨phase,moved,rfl⟩ := lifted acted
    exact .refresh (refresh_change moved)
  · obtain ⟨phase,moved,rfl⟩ := lifted acted
    exact .logout (logout_change moved)
  · cases acted

end RagForge.AuthService
