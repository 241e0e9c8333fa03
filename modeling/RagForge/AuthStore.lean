import RagForge.PyText
import RagForge.Transition

namespace RagForge

-- The auth store. Tokens are never empty, so `!token` tests for null.
structure AuthState where
  accessToken : Option Str
  refreshToken : Option Str
  deriving DecidableEq

def EXPIRY_BUFFER_MS : Int := 30000

def expiring (decodeJwtExpiry : Str → Option Int) (now : Int) (accessToken : Str) : Bool :=
  (decodeJwtExpiry accessToken).any fun expiresAt => expiresAt - now < EXPIRY_BUFFER_MS

-- A promise has a number.
inductive Awaited where
  | value (token : Option Str)
  | promise (refreshPromise : Nat)

namespace AuthState

def setTokens (_ : AuthState) (accessToken refreshToken : Str) : AuthState := ⟨some accessToken,some refreshToken⟩

def logout (_ : AuthState) : AuthState := ⟨none,none⟩

-- Up to its first await the body of a promise runs in one go with the test of
-- `refreshPromise`. `post` sends the refresh token and numbers the promise.
variable {σ : Type} (store : AuthState) (refreshPromise : Option Nat) (s : σ) (post : Str → Option (σ × Nat))

def refreshAccessToken : Option (σ × Awaited) :=
  match store.refreshToken with
  | none => some (s,.value none)
  | some refreshToken => match refreshPromise with
    | some pending => some (s,.promise pending)
    | none => (post refreshToken).map (Prod.map id .promise)

def getValidAccessToken (decodeJwtExpiry : Str → Option Int) (now : Int) : Option (σ × Awaited) :=
  match store.accessToken with
  | none => some (s,.value none)
  | some accessToken =>
    if expiring decodeJwtExpiry now accessToken then store.refreshAccessToken refreshPromise s post
    else some (s,.value (some accessToken))

variable {store refreshPromise s post} {s' : σ}

theorem refreshAccessToken_parts (ran : store.refreshAccessToken refreshPromise s post = some (s',awaited)) :
    s' = s ∧ awaited = .value none ∨ ∃ refreshToken pending, store.refreshToken = some refreshToken ∧ awaited = .promise pending ∧
      (s' = s ∧ refreshPromise = some pending ∨ refreshPromise = none ∧ post refreshToken = some (s',pending)) := by
  unfold refreshAccessToken at ran
  split at ran
  · cases ran; exact .inl ⟨rfl,rfl⟩
  · rename_i refreshToken stored
    split at ran
    · rename_i pending
      cases ran
      exact .inr ⟨refreshToken,pending,stored,rfl,.inl ⟨rfl,rfl⟩⟩
    · obtain ⟨pending,posted,rfl⟩ := Transition.lifted ran
      exact .inr ⟨refreshToken,pending,stored,rfl,.inr ⟨rfl,posted⟩⟩

theorem getValidAccessToken_parts (got : store.getValidAccessToken refreshPromise s post decodeJwtExpiry now = some (s',awaited)) :
    (s' = s ∧ ∃ token, awaited = .value token) ∨
      store.accessToken.any (expiring decodeJwtExpiry now) = true ∧
        store.refreshAccessToken refreshPromise s post = some (s',awaited) := by
  unfold getValidAccessToken at got
  split at got
  · cases got; exact .inl ⟨rfl,_,rfl⟩
  · rename_i accessToken stored
    split at got
    · rename_i soon
      exact .inr ⟨by rw [stored]; exact soon,got⟩
    · cases got; exact .inl ⟨rfl,_,rfl⟩

end AuthState

end RagForge
