import RagForge.Accounts

namespace RagForge.Credentials
open RagForge
open RagForge.Accounts (JwtError)

-- `str.encode("utf-8")`
def utf8 (text : Str) : Bytes := text.flatMap String.utf8EncodeChar

def _BCRYPT_MAX_BYTES : Nat := 72

def bcryptBytes (plain_password : Str) : Bytes := (utf8 plain_password).take _BCRYPT_MAX_BYTES

-- The claims `create_access_token` puts beside `type`; times are seconds.
structure TokenPayload where
  sub : Str
  org_id : Option Str
  exp : Nat
  iat : Nat
  jti : Str
  deriving DecidableEq

-- bcrypt, PyJWT under the server's key, SHA-256 and `str.lower`, with what is
-- relied on: a hash is that of no other bytes, and a token reads as it was
-- written until it expires. `none` is the ValueError of a hash bcrypt cannot read.
structure Libraries where
  lower : Str → Str
  sha256 : Str → Str
  hashpw : Bytes → Str → Str
  checkpw : Bytes → Str → Option Bool
  encode : TokenPayload → Str
  decode : Str → Nat → Except JwtError Accounts.Claims
  checkpw_hashpw : ∀ given stored salt, (checkpw given (hashpw stored salt)).getD false = decide (given = stored)
  decode_encode : ∀ payload now claims, decode (encode payload) now = .ok claims →
    claims = ⟨some "access".toList,some payload.sub⟩ ∧ payload.iat ≤ now ∧ now < payload.exp

variable (libraries : Libraries)

def hashPassword (plain_password salt : Str) : Str := libraries.hashpw (bcryptBytes plain_password) salt

def verifyPassword (plain_password hashed_password : Str) : Bool :=
  (libraries.checkpw (bcryptBytes plain_password) hashed_password).getD false

def ACCESS_TOKEN_EXPIRE_MINUTES : Nat := 15

def REFRESH_TOKEN_EXPIRE_DAYS : Nat := 30

-- The two readings of the clock are one.
def createAccessToken (subject : Str) (organization_id : Option Str) (now : Nat) (jti : Str) : Str :=
  libraries.encode ⟨subject,organization_id,now + ACCESS_TOKEN_EXPIRE_MINUTES * 60,now,jti⟩

def security : Accounts.Security where
  hashOpaqueToken := libraries.sha256
  REFRESH_TOKEN_EXPIRE_DAYS := REFRESH_TOKEN_EXPIRE_DAYS
  lower := libraries.lower
  verifyPassword := verifyPassword libraries
  decodeToken := libraries.decode

variable {libraries}

theorem verify_hash : verifyPassword libraries given (hashPassword libraries stored salt) = true ↔ bcryptBytes given = bcryptBytes stored := by
  unfold verifyPassword hashPassword
  rw [libraries.checkpw_hashpw]
  exact decide_eq_true_iff

theorem decode_access (accepted : libraries.decode (createAccessToken libraries subject organization_id issued_at jti) now = .ok claims) :
    claims = ⟨some "access".toList,some subject⟩ ∧ issued_at ≤ now ∧ now < issued_at + ACCESS_TOKEN_EXPIRE_MINUTES * 60 :=
  libraries.decode_encode _ _ _ accepted

-- A caller let in by a token of the server is the user the token was made for.
theorem access_subject {user_id : Uuid} (found : Accounts.getCurrentUser (security libraries) p
    (some (createAccessToken libraries user_id.str organization_id issued_at jti)) now = .ok user) :
    user.id = user_id ∧ user ∈ p.users ∧ user.is_active = true ∧ issued_at ≤ now ∧ now < issued_at + ACCESS_TOKEN_EXPIRE_MINUTES * 60 := by
  unfold Accounts.getCurrentUser at found
  simp only at found
  split at found
  · cases found
  · cases found
  · rename_i claims accepted
    obtain ⟨rfl,begun,unexpired⟩ := decode_access accepted
    simp only [ne_eq,not_true_eq_false,if_false,Uuid.parse_str] at found
    split at found
    · cases found
    · rename_i row looked
      split at found
      · rename_i active
        cases found
        exact ⟨by simpa using List.find?_some looked,List.mem_of_find?_eq_some looked,active,begun,unexpired⟩
      · cases found

end RagForge.Credentials
