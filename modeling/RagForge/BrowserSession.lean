import RagForge.AuthService
import RagForge.AuthStore

namespace RagForge.BrowserSession
open Transition
open AuthService (Security RefreshRequest Activity)

-- The server's token hash, the reading of `exp` in milliseconds, and what the
-- server records of this client.
structure Browser where
  security : Security
  decodeJwtExpiry : Str → Option Int
  user_agent : Option Str
  ip_address : Option Str

-- One `apiFetch`, between its awaits. A promise is named by the server slot its
-- request went to; so is the request of a logout.
inductive FetchPhase where
  | called
  | validating (refreshPromise : Nat)
  | sent (token : Option Str) (request : Option Nat)
  | refreshing (refreshPromise : Nat)
  | resent (token : Str) (request : Option Nat)
  | settled (status : Option Nat)

inductive Call where
  | idle
  | fetch (skipAuth : Bool) (phase : FetchPhase)
  | menu
  | handleLogout (refreshToken : Str) (phase : FetchPhase)
  | loggedOut

-- The page is not waiting for anything on behalf of this call.
def Call.answered : Call → Bool
  | .fetch _ .called => true
  | .fetch _ (.settled _) => true
  | .fetch _ _ => false
  | .handleLogout _ _ => false
  | _ => true

structure Session where
  store : AuthState
  refreshPromise : Option Nat
  resolved : Nat → Option (Option Str)
  calls : Nat → Call
  server : AuthService.Config

def Session.posted (s : Session) (slot : Nat) (activity : Activity) : Session :=
  {s with server := {s.server with locals := Function.update s.server.locals slot activity}}

-- A request arrives at a slot of the server that is not in use.
def Session.post (s : Session) (slot : Nat) (activity : Activity) : Option Session :=
  match s.server.locals slot with
  | .idle => some (s.posted slot activity)
  | _ => none

theorem post_parts {s : Session} (posted : s.post slot activity = some s') :
    s.server.locals slot = .idle ∧ s' = s.posted slot activity := by
  unfold Session.post at posted
  split at posted
  · rename_i idle
    exact ⟨idle,(Option.some.inj posted).symm⟩
  · cases posted

def Browser.request (browser : Browser) (refresh_token : Str) : RefreshRequest :=
  ⟨refresh_token,browser.user_agent,browser.ip_address⟩

def Session.refresh (browser : Browser) (s : Session) (slot : Nat) (refreshToken : Str) : Option (Session × Nat) :=
  (s.post slot (.refresh (.requested (browser.request refreshToken)))).map fun s => ({s with refreshPromise := some slot},slot)

def refreshAccessToken (browser : Browser) (s : Session) (slot : Nat) : Option (Session × Awaited) :=
  s.store.refreshAccessToken s.refreshPromise s (s.refresh browser slot)

def getValidAccessToken (browser : Browser) (s : Session) (now : Int) (slot : Nat) : Option (Session × Awaited) :=
  s.store.getValidAccessToken s.refreshPromise s (s.refresh browser slot) browser.decodeJwtExpiry now

-- A logout is carried out by the server; the answers of the other endpoints are
-- left open.
def doFetch (browser : Browser) (s : Session) (body : Option Str) (slot : Nat) : Option (Session × Option Nat) :=
  match body with
  | none => some (s,none)
  | some refresh_token => (s.post slot (.logout (.requested (browser.request refresh_token)))).map (·,some slot)

def answers (s : Session) (request : Option Nat) (status : Nat) : Bool :=
  match request with
  | none => true
  | some slot => match s.server.locals slot with
    | .logout (.returned _) => status = 204
    | .logout (.failed _) => 400 ≤ status
    | _ => false

inductive FetchLabel where
  | start (now : Int) (slot : Nat)
  | resume (slot : Nat)
  | respond (status slot : Nat)
  | lost

-- `body` is the refresh token in the body of `/auth/logout`, null for any other path.
def apiFetch (browser : Browser) (body : Option Str) (skipAuth : Bool) (s : Session) : FetchPhase → FetchLabel → Option (Session × FetchPhase)
  | .called,.start now slot =>
    (if skipAuth then some (s,.value none) else getValidAccessToken browser s now slot).bind fun got => match got.2 with
      | .value token => (doFetch browser got.1 body slot).map (Prod.map id (.sent token))
      | .promise pending => some (got.1,.validating pending)
  | .validating pending,.resume slot =>
    (s.resolved pending).bind fun token => (doFetch browser s body slot).map (Prod.map id (.sent token))
  | .sent _ request,.respond status slot =>
    if answers s request status then
      if status = 401 ∧ skipAuth = false then
        (refreshAccessToken browser s slot).map (Prod.map id fun awaited => match awaited with
          | .value _ => .settled (some status)
          | .promise pending => .refreshing pending)
      else some (s,.settled (some status))
    else none
  | .refreshing pending,.resume slot => (s.resolved pending).bind fun refreshed => match refreshed with
    | none => some (s,.settled (some 401))
    | some token => (doFetch browser s body slot).map (Prod.map id (.resent token))
  | .resent _ request,.respond status _ => if answers s request status then some (s,.settled (some status)) else none
  | .sent _ _,.lost => some (s,.settled none)
  | .resent _ _,.lost => some (s,.settled none)
  | _,_ => none

def Session.logout (s : Session) : Session := {s with store := s.store.logout}

inductive CallLabel where
  | select
  | fetch (label : FetchLabel)
  | clear

-- `handleLogout` has its refresh token from the render of the menu, which follows
-- the store, and goes on to `logout()` however `logoutRequest` has settled.
def act (browser : Browser) (s : Session) : Call → CallLabel → Option (Session × Call)
  | .fetch skipAuth phase,.fetch label => (apiFetch browser none skipAuth s phase label).map (Prod.map id (.fetch skipAuth))
  | .menu,.select => match s.store.refreshToken with
    | some refreshToken => some (s,.handleLogout refreshToken .called)
    | none => some (s.logout,.loggedOut)
  | .handleLogout refreshToken phase,.fetch label =>
    (apiFetch browser (some refreshToken) false s phase label).map (Prod.map id (.handleLogout refreshToken))
  | .handleLogout _ (.settled _),.clear => some (s.logout,.loggedOut)
  | _,_ => none

inductive Outcome where
  | answered
  | refused
  | lost

def Session.resolve (s : Session) (slot : Nat) (store : AuthState) (token : Option Str) : Session :=
  {s with store := store,refreshPromise := none,resolved := Function.update s.resolved slot (some token)}

-- The rest of `refreshAccessToken` once its `fetch` has an outcome.
def refreshed (s : Session) (outcome : Outcome) : Option Session :=
  match s.refreshPromise with
  | none => none
  | some slot => match outcome,s.server.locals slot with
    | .answered,.refresh (.exchanged _ tokens) =>
      some (s.resolve slot (s.store.setTokens tokens.access_token tokens.refresh_token) (some tokens.access_token))
    | .refused,.refresh (.failed _) => some (s.resolve slot s.store.logout none)
    | .lost,_ => some (s.resolve slot s.store.logout none)
    | _,_ => none

inductive Label where
  | call (i : Nat) (label : CallLabel)
  | refresh (outcome : Outcome)
  | server (slot : Nat) (label : AuthService.Label)

def advance (browser : Browser) (s : Session) : Label → Option Session
  | .call i label => (act browser s (s.calls i) label).map fun out => {out.1 with calls := Function.update out.1.calls i out.2}
  | .refresh outcome => refreshed s outcome
  | .server slot label => (Interleave.advance (AuthService.act browser.security) s.server (slot,label)).map fun server =>
      {s with server := server}

abbrev Step (browser : Browser) : Session → Label → Session → Prop := taken (advance browser)

-- The step runs `refreshAccessToken`: an access token about to expire, or a 401.
def asks (browser : Browser) (s : Session) (skipAuth : Bool) : FetchPhase → FetchLabel → Bool
  | .called,.start now _ => !skipAuth && s.store.accessToken.any (expiring browser.decodeJwtExpiry now)
  | .sent _ _,.respond status _ => status = 401 && !skipAuth
  | _,_ => false

-- Everything a step of a call can do.
inductive FetchChange (browser : Browser) (body : Option Str) (skipAuth : Bool) (s : Session) :
    FetchPhase → FetchLabel → Session → FetchPhase → Prop where
  | refresh : asks browser s skipAuth phase label = true → s.store.refreshToken = some refreshToken → s.refreshPromise = none →
      s.post slot (.refresh (.requested (browser.request refreshToken))) = some s' →
      FetchChange browser body skipAuth s phase label {s' with refreshPromise := some slot} phase'
  | join : asks browser s skipAuth phase label = true → s.store.refreshToken = some refreshToken →
      s.refreshPromise = some pending → FetchChange browser body skipAuth s phase label s phase'
  | send : doFetch browser s body slot = some (s',request) → FetchChange browser body skipAuth s phase label s' (.sent token request)
  | resend : doFetch browser s body slot = some (s',request) →
      FetchChange browser body skipAuth s (.refreshing pending) label s' (.resent token request)
  | answer : answers s request status = true →
      FetchChange browser body skipAuth s (.sent token request) (.respond status slot) s (.settled (some status))
  | answerAgain : answers s request status = true →
      FetchChange browser body skipAuth s (.resent token request) (.respond status slot) s (.settled (some status))
  | giveUp : FetchChange browser body skipAuth s (.refreshing pending) label s (.settled status)
  | lost : FetchChange browser body skipAuth s phase .lost s (.settled none)

theorem refreshAccessToken_parts (asked : asks browser s skipAuth phase label = true)
    (ran : refreshAccessToken browser s slot = some (s',awaited)) : s' = s ∧ awaited = .value none ∨
      ∃ pending, awaited = .promise pending ∧ ∀ phase', FetchChange browser body skipAuth s phase label s' phase' := by
  rcases AuthState.refreshAccessToken_parts ran with same | ⟨refreshToken,pending,stored,rfl,⟨rfl,flying⟩ | ⟨none_,sent⟩⟩
  · exact .inl same
  · exact .inr ⟨pending,rfl,fun _ => .join asked stored flying⟩
  · obtain ⟨after,posted,equal⟩ := Option.map_eq_some_iff.mp sent
    cases equal
    exact .inr ⟨slot,rfl,fun _ => .refresh asked stored none_ posted⟩

theorem getValidAccessToken_parts (got : getValidAccessToken browser s now slot = some (s',awaited)) :
    (s' = s ∧ ∃ token, awaited = .value token) ∨
      ∃ pending, awaited = .promise pending ∧ ∀ phase', FetchChange browser body false s .called (.start now slot) s' phase' := by
  rcases AuthState.getValidAccessToken_parts got with ⟨rfl,token,rfl⟩ | ⟨soon,ran⟩
  · exact .inl ⟨rfl,token,rfl⟩
  · have asked : asks browser s false .called (.start now slot) = true := by
      simp only [asks,soon,Bool.not_false,Bool.and_true]
    rcases refreshAccessToken_parts asked ran with ⟨rfl,rfl⟩ | ⟨pending,rfl,change⟩
    · exact .inl ⟨rfl,none,rfl⟩
    · exact .inr ⟨pending,rfl,change⟩

theorem fetch_change (acted : apiFetch browser body skipAuth s phase label = some (s',phase')) :
    FetchChange browser body skipAuth s phase label s' phase' := by
  have sends {before : FetchPhase} {given : FetchLabel} {slot : Nat} {token : Option Str}
      (goes : (doFetch browser s body slot).map (Prod.map id (FetchPhase.sent token)) = some (s',phase')) :
      FetchChange browser body skipAuth s before given s' phase' := by
    obtain ⟨request,sent,rfl⟩ := lifted goes
    exact .send sent
  unfold apiFetch at acted
  split at acted
  · obtain ⟨⟨t,awaited⟩,got,rest⟩ := Option.bind_eq_some_iff.mp acted
    split at got
    · cases got
      exact sends rest
    · rename_i authorized
      rw [Bool.eq_false_iff.mpr authorized]
      rcases getValidAccessToken_parts got with ⟨rfl,token,rfl⟩ | ⟨pending,rfl,change⟩
      · exact Bool.eq_false_iff.mpr authorized ▸ sends rest
      · cases rest
        exact change _
  · obtain ⟨token,_,rest⟩ := Option.bind_eq_some_iff.mp acted
    exact sends rest
  · rename_i token request status slot
    split at acted
    · rename_i answered
      split at acted
      · rename_i unauthorized
        obtain ⟨pending,ran,rfl⟩ := lifted acted
        have asked : asks browser s skipAuth (.sent token request) (.respond status slot) = true :=
          Bool.and_eq_true_iff.mpr ⟨decide_eq_true unauthorized.1,by rw [unauthorized.2]; rfl⟩
        rcases refreshAccessToken_parts asked ran with ⟨rfl,rfl⟩ | ⟨pending,rfl,change⟩
        · exact .answer answered
        · exact change _
      · cases acted
        exact .answer answered
    · cases acted
  · obtain ⟨refreshed,_,rest⟩ := Option.bind_eq_some_iff.mp acted
    split at rest
    · cases rest
      exact .giveUp
    · obtain ⟨request,sent,rfl⟩ := lifted rest
      exact .resend sent
  · split at acted
    · rename_i answered
      cases acted
      exact .answerAgain answered
    · cases acted
  · cases acted; exact .lost
  · cases acted; exact .lost
  · cases acted

theorem doFetch_calls (sent : doFetch browser s body slot = some (s',request)) : s'.calls = s.calls := by
  unfold doFetch at sent
  split at sent
  · cases sent; rfl
  · obtain ⟨after,posted,equal⟩ := Option.map_eq_some_iff.mp sent
    cases equal
    rw [(post_parts posted).2]
    rfl

theorem apiFetch_calls (acted : apiFetch browser body skipAuth s phase label = some (s',phase')) : s'.calls = s.calls := by
  cases fetch_change acted with
  | refresh _ _ _ posted => rw [(post_parts posted).2]; rfl
  | send sent => exact doFetch_calls sent
  | resend sent => exact doFetch_calls sent
  | _ => rfl

theorem act_calls (acted : act browser s call label = some (s',call')) : s'.calls = s.calls := by
  unfold act at acted
  split at acted
  · obtain ⟨phase,moved,rfl⟩ := lifted acted
    exact apiFetch_calls moved
  · split at acted <;> cases acted <;> rfl
  · obtain ⟨phase,moved,rfl⟩ := lifted acted
    exact apiFetch_calls moved
  · cases acted; rfl
  · cases acted

theorem refreshed_calls (moved : refreshed s outcome = some s') : s'.calls = s.calls := by
  unfold refreshed at moved
  split at moved
  · cases moved
  · split at moved <;> cases moved <;> rfl

-- A call that cannot act stays as it is.
def Still (browser : Browser) (call : Call) : Prop := ∀ s label, act browser s call label = none

theorem loggedOut_still : Still browser .loggedOut := fun _ _ => rfl

theorem idle_still : Still browser .idle := fun _ _ => rfl

theorem runs_calls (path : Runs (Step browser) start labels s) (still : Still browser call) (initial : start.calls i = call) :
    s.calls i = call := by
  refine path.history (fun _ s => s.calls i = call) initial fun _ s label next _ kept moved => ?_
  cases label with
  | call j label =>
    obtain ⟨⟨t,changed⟩,acted,equal⟩ := Option.map_eq_some_iff.mp moved
    cases equal
    have other : i ≠ j := by
      rintro rfl
      rw [kept,still s label] at acted
      cases acted
    exact (Function.update_of_ne other _ _).trans ((congrFun (act_calls acted) i).trans kept)
  | refresh outcome => exact (congrFun (refreshed_calls moved) i).trans kept
  | server slot label =>
    obtain ⟨server,_,equal⟩ := Option.map_eq_some_iff.mp moved
    cases equal
    exact kept

end RagForge.BrowserSession
