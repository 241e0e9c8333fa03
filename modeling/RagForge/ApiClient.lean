import RagForge.AuthStore

namespace RagForge.ApiClient
open RagForge Transition

-- The JSON of a token response. A field that is missing or empty is null.
structure TokenPair where
  access_token : Option Str
  refresh_token : Option Str
  deriving DecidableEq

def setTokens (tokens : TokenPair) : AuthState := ⟨tokens.access_token,tokens.refresh_token⟩

-- The body of `refreshPromise`, between its awaits.
inductive RefreshPhase where
  | fetching
  | reading
  | settled (token : Option Str)
  deriving DecidableEq

structure Refresh where
  refreshToken : Str
  phase : RefreshPhase
  deriving DecidableEq

def Refresh.pending (refresh : Refresh) : Bool :=
  match refresh.phase with
  | .settled _ => false
  | _ => true

-- One page load of one tab. A promise is named by its place among all refreshes.
structure Tab where
  store : AuthState
  refreshPromise : Option Nat
  refreshes : List Refresh

-- What has been sent to `/auth/refresh`, in order.
def Tab.posted (tab : Tab) : List Str := tab.refreshes.map Refresh.refreshToken

def Tab.post (tab : Tab) (refreshToken : Str) : Tab :=
  {tab with refreshPromise := some tab.refreshes.length,refreshes := tab.refreshes ++ [⟨refreshToken,.fetching⟩]}

def Tab.refresh (tab : Tab) (refreshToken : Str) : Option (Tab × Nat) := some (tab.post refreshToken,tab.refreshes.length)

def refreshAccessToken (tab : Tab) : Option (Tab × Awaited) :=
  tab.store.refreshAccessToken tab.refreshPromise tab tab.refresh

def getValidAccessToken (decodeJwtExpiry : Str → Option Int) (tab : Tab) (now : Int) : Option (Tab × Awaited) :=
  tab.store.getValidAccessToken tab.refreshPromise tab tab.refresh decodeJwtExpiry now

def Tab.value (tab : Tab) : Awaited → Option (Option Str)
  | .value token => some token
  | .promise n => match tab.refreshes[n]? with
    | some ⟨_,.settled token⟩ => some token
    | _ => none

inductive Outcome where
  | ok
  | refused
  | tokens (tokens : TokenPair)
  | lost

def Tab.settle (tab : Tab) (n : Nat) (refreshToken : Str) (store : AuthState) (token : Option Str) : Tab :=
  ⟨store,none,tab.refreshes.set n ⟨refreshToken,.settled token⟩⟩

-- The rest of the body: what `fetch` and `res.json()` come to, with the catch and
-- the finally that follow in the same go.
def refreshed (tab : Tab) (n : Nat) (outcome : Outcome) : Option Tab :=
  match tab.refreshes[n]? with
  | some ⟨refreshToken,.fetching⟩ => match outcome with
    | .ok => some {tab with refreshes := tab.refreshes.set n ⟨refreshToken,.reading⟩}
    | .tokens _ => none
    | _ => some (tab.settle n refreshToken tab.store.logout none)
  | some ⟨refreshToken,.reading⟩ => match outcome with
    | .tokens tokens => some (tab.settle n refreshToken (setTokens tokens) tokens.access_token)
    | .lost => some (tab.settle n refreshToken tab.store.logout none)
    | _ => none
  | _ => none

inductive FetchPhase where
  | called
  | validating (awaited : Awaited)
  | sent (token : Option Str)
  | refreshing (awaited : Awaited)
  | resent (token : Str)
  | settled (status : Option Nat)

inductive LoginPhase where
  | submitted
  | answered
  | done (signedIn : Bool)

inductive CallLabel where
  | start (now : Int)
  | resume
  | respond (status : Nat)
  | tokens (tokens : TokenPair)
  | lost
  | select (refreshToken : Option Str)
  | clear

-- What other endpoints answer is left open.
def apiFetch (decodeJwtExpiry : Str → Option Int) (skipAuth : Bool) (tab : Tab) : FetchPhase → CallLabel → Option (Tab × FetchPhase)
  | .called,.start now =>
    if skipAuth then some (tab,.sent none) else (getValidAccessToken decodeJwtExpiry tab now).map (Prod.map id .validating)
  | .validating awaited,.resume => (tab.value awaited).map fun token => (tab,.sent token)
  | .sent _,.respond status =>
    if status = 401 ∧ skipAuth = false then (refreshAccessToken tab).map (Prod.map id .refreshing)
    else some (tab,.settled (some status))
  | .refreshing awaited,.resume => (tab.value awaited).map fun refreshed => (tab,refreshed.elim (.settled (some 401)) .resent)
  | .resent _,.respond status => some (tab,.settled (some status))
  | .sent _,.lost => some (tab,.settled none)
  | .resent _,.lost => some (tab,.settled none)
  | _,_ => none

def streamChat (decodeJwtExpiry : Str → Option Int) (tab : Tab) : FetchPhase → CallLabel → Option (Tab × FetchPhase)
  | .called,.start now => (getValidAccessToken decodeJwtExpiry tab now).map (Prod.map id .validating)
  | .validating awaited,.resume => (tab.value awaited).map fun token => (tab,.sent token)
  | .sent _,.respond status => some (tab,.settled (some status))
  | .sent _,.lost => some (tab,.settled none)
  | _,_ => none

-- `login` and the `setTokens` its page goes on with.
def login (tab : Tab) : LoginPhase → CallLabel → Option (Tab × LoginPhase)
  | .submitted,.respond status => some (tab,if 200 ≤ status ∧ status < 300 then .answered else .done false)
  | .answered,.tokens tokens => some ({tab with store := setTokens tokens},.done true)
  | .submitted,.lost => some (tab,.done false)
  | .answered,.lost => some (tab,.done false)
  | _,_ => none

inductive Call where
  | fetch (skipAuth : Bool) (phase : FetchPhase)
  | stream (phase : FetchPhase)
  | login (phase : LoginPhase)
  | menu
  | handleLogout (phase : FetchPhase)
  | loggedOut

def Tab.logout (tab : Tab) : Tab := {tab with store := tab.store.logout}

-- The menu selects with the token of its last render. `handleLogout` goes on to
-- `logout()` however its request has settled.
def act (decodeJwtExpiry : Str → Option Int) (tab : Tab) : Call → CallLabel → Option (Tab × Call)
  | .fetch skipAuth phase,label => (apiFetch decodeJwtExpiry skipAuth tab phase label).map (Prod.map id (.fetch skipAuth))
  | .stream phase,label => (streamChat decodeJwtExpiry tab phase label).map (Prod.map id .stream)
  | .login phase,label => (login tab phase label).map (Prod.map id .login)
  | .menu,.select refreshToken =>
    if refreshToken.isSome then some (tab,.handleLogout .called) else some (tab.logout,.loggedOut)
  | .handleLogout (.settled _),.clear => some (tab.logout,.loggedOut)
  | .handleLogout phase,label => (apiFetch decodeJwtExpiry false tab phase label).map (Prod.map id .handleLogout)
  | _,_ => none

structure Client where
  tab : Tab
  calls : Nat → Call

inductive Label where
  | call (i : Nat) (label : CallLabel)
  | refresh (n : Nat) (outcome : Outcome)

def advance (decodeJwtExpiry : Str → Option Int) (c : Client) : Label → Option Client
  | .call i label => (act decodeJwtExpiry c.tab (c.calls i) label).map fun out => ⟨out.1,Function.update c.calls i out.2⟩
  | .refresh n outcome => (refreshed c.tab n outcome).map fun tab => {c with tab := tab}

abbrev Step (decodeJwtExpiry : Str → Option Int) : Client → Label → Client → Prop := taken (advance decodeJwtExpiry)

def Label.tokens : Label → Option TokenPair
  | .call _ (.tokens tokens) => some tokens
  | .refresh _ (.tokens tokens) => some tokens
  | _ => none

-- The refresh token the server issues with a step.
def Label.issued (label : Label) : Option Str := label.tokens.bind TokenPair.refresh_token

-- Everything a step can do to the tab.
inductive Change (tab : Tab) (label : Label) : Tab → Prop where
  | same : Change tab label tab
  | post : tab.store.refreshToken = some refreshToken → tab.refreshPromise = none → Change tab label (tab.post refreshToken)
  | read : tab.refreshes[n]? = some ⟨refreshToken,.fetching⟩ →
      Change tab label {tab with refreshes := tab.refreshes.set n ⟨refreshToken,.reading⟩}
  | settle : tab.refreshes[n]? = some refresh → refresh.pending = true →
      (store = tab.store.logout ∨ ∃ tokens, label.tokens = some tokens ∧ store = setTokens tokens) →
      Change tab label (tab.settle n refresh.refreshToken store token)
  | setTokens : label.tokens = some tokens → Change tab label {tab with store := setTokens tokens}
  | logout : Change tab label tab.logout

theorem refreshAccessToken_change (label : Label) (ran : refreshAccessToken tab = some (tab',awaited)) : Change tab label tab' := by
  rcases AuthState.refreshAccessToken_parts ran with ⟨rfl,_⟩ | ⟨refreshToken,pending,stored,_,⟨rfl,_⟩ | ⟨none_,posted⟩⟩
  · exact .same
  · exact .same
  · cases posted
    exact .post stored none_

theorem getValidAccessToken_change (label : Label) (got : getValidAccessToken decodeJwtExpiry tab now = some (tab',awaited)) :
    Change tab label tab' := by
  rcases AuthState.getValidAccessToken_parts got with ⟨rfl,_⟩ | ⟨_,ran⟩
  · exact .same
  · exact refreshAccessToken_change label ran

theorem apiFetch_change (label : Label) (acted : apiFetch decodeJwtExpiry skipAuth tab phase given = some (tab',phase')) :
    Change tab label tab' := by
  unfold apiFetch at acted
  split at acted
  · split at acted
    · cases acted; exact .same
    · obtain ⟨awaited,got,_⟩ := lifted acted
      exact getValidAccessToken_change label got
  · obtain ⟨token,_,equal⟩ := Option.map_eq_some_iff.mp acted
    cases equal; exact .same
  · split at acted
    · obtain ⟨awaited,ran,_⟩ := lifted acted
      exact refreshAccessToken_change label ran
    · cases acted; exact .same
  · obtain ⟨refreshed,_,equal⟩ := Option.map_eq_some_iff.mp acted
    cases equal; exact .same
  · cases acted; exact .same
  · cases acted; exact .same
  · cases acted; exact .same
  · cases acted

theorem streamChat_change (label : Label) (acted : streamChat decodeJwtExpiry tab phase given = some (tab',phase')) :
    Change tab label tab' := by
  unfold streamChat at acted
  split at acted
  · obtain ⟨awaited,got,_⟩ := lifted acted
    exact getValidAccessToken_change label got
  · obtain ⟨token,_,equal⟩ := Option.map_eq_some_iff.mp acted
    cases equal; exact .same
  · cases acted; exact .same
  · cases acted; exact .same
  · cases acted

theorem login_change (acted : login tab phase given = some (tab',phase')) : Change tab (.call i given) tab' := by
  unfold login at acted
  split at acted
  · cases acted; exact .same
  · cases acted; exact .setTokens rfl
  · cases acted; exact .same
  · cases acted; exact .same
  · cases acted

theorem act_change (acted : act decodeJwtExpiry tab call given = some (tab',call')) : Change tab (.call i given) tab' := by
  unfold act at acted
  split at acted
  · obtain ⟨phase,moved,rfl⟩ := lifted acted
    exact apiFetch_change _ moved
  · obtain ⟨phase,moved,rfl⟩ := lifted acted
    exact streamChat_change _ moved
  · obtain ⟨phase,moved,rfl⟩ := lifted acted
    exact login_change moved
  · split at acted
    · cases acted; exact .same
    · cases acted; exact .logout
  · cases acted; exact .logout
  · obtain ⟨phase,moved,rfl⟩ := lifted acted
    exact apiFetch_change _ moved
  · cases acted

theorem refreshed_change (moved : refreshed tab n outcome = some tab') : Change tab (.refresh n outcome) tab' := by
  unfold refreshed at moved
  split at moved
  · rename_i refreshToken found
    split at moved
    · cases moved; exact .read found
    · cases moved
    · cases moved; exact .settle found rfl (.inl rfl)
  · rename_i refreshToken found
    split at moved
    · rename_i tokens
      cases moved; exact .settle found rfl (.inr ⟨tokens,rfl,rfl⟩)
    · cases moved; exact .settle found rfl (.inl rfl)
    · cases moved
  · cases moved

theorem step_change (moved : Step decodeJwtExpiry c label next) : Change c.tab label next.tab := by
  cases label with
  | call i given =>
    obtain ⟨⟨tab,call⟩,acted,equal⟩ := Option.map_eq_some_iff.mp moved
    cases equal
    exact act_change acted
  | refresh n outcome =>
    obtain ⟨tab,acted,equal⟩ := Option.map_eq_some_iff.mp moved
    cases equal
    exact refreshed_change acted

end RagForge.ApiClient
