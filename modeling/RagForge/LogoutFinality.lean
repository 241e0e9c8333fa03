import RagForge.BrowserSession
import RagForge.TokenRaces

namespace RagForge.LogoutFinality
open BrowserSession TokenRaces Transition
open AuthService (Security Store Activity TokenPair)

def Live (s : Store) (h : Str) : Prop := ∃ found, s.byHash h = some found ∧ found.revoked_at = none

theorem live_same {s s' : Store} (rows : s'.refresh_tokens = s.refresh_tokens) (live : Live s' h) : Live s h := by
  unfold Live at live ⊢
  rwa [byHash_same rows] at live

theorem retired_dead (retired : Retired s h) : ¬ Live s h := by
  rintro ⟨found,there,unrevoked⟩
  rcases retired with ⟨found',there',revoked⟩ | ⟨absent,_⟩
  · cases Option.some.inj (there.symm.trans there')
    rw [unrevoked] at revoked
    cases revoked
  · cases there.symm.trans absent

-- What a commit leaves live was live and not the row it revokes, or is new.
theorem live_commit {s : Store} (live : Live ((s.commit row revoked_at issued).release i) h) :
    Live s h ∧ ¬ Located s h row ∨ ∃ new ∈ issued, new.token_hash = h := by
  obtain ⟨found,there,unrevoked⟩ := live
  have looked : (s.commit row revoked_at issued).byHash h = some found := there
  rw [byHash_commit] at looked
  cases before : s.byHash h with
  | none =>
    rw [before] at looked
    exact .inr ⟨found,List.mem_of_find?_eq_some looked,of_decide_eq_true (List.find?_some looked :)⟩
  | some old =>
    rw [before] at looked
    cases Option.some.inj looked
    refine .inl ⟨⟨old,before,?_⟩,?_⟩
    · rw [AuthService.RefreshToken.revoke] at unrevoked
      split at unrevoked
      · cases unrevoked
      · exact unrevoked
    · rintro ⟨old',before',same⟩
      cases Option.some.inj (before.symm.trans before')
      have revoked : (AuthService.RefreshToken.revoke row revoked_at old).revoked_at.isSome :=
        AuthService.RefreshToken.revoke_revoked (.inl same)
      rw [unrevoked] at revoked
      cases revoked

-- The token of a refresh that has been neither exchanged nor refused.
def pendingToken : Activity → Option Str
  | .refresh (.requested request) => some request.refresh_token
  | .refresh (.selected request _) => some request.refresh_token
  | .refresh (.checked request _) => some request.refresh_token
  | .refresh (.authorized request _ _) => some request.refresh_token
  | .refresh (.updated request _ _ _) => some request.refresh_token
  | .refresh (.inserted request _ _ _ _) => some request.refresh_token
  | _ => none

def issuedPair : Activity → Option TokenPair
  | .refresh (.exchanged _ tokens) => some tokens
  | _ => none

def Logs (token : Str) : Activity → Prop
  | .logout (.requested request) => request.refresh_token = token
  | .logout (.selected request _) => request.refresh_token = token
  | .logout (.updated request _ _) => request.refresh_token = token
  | .logout (.returned request) => request.refresh_token = token
  | .logout (.failed _) => True
  | _ => False

theorem act_pending (acted : AuthService.act security i s a label = some (s',a')) (pending : pendingToken a' = some token) :
    pendingToken a = some token := by
  cases AuthService.act_change acted with
  | refresh change =>
    cases change with
    | commit => cases pending
    | stop => cases pending
    | _ => exact pending
  | logout => cases pending

theorem act_logs (acted : AuthService.act security i s a label = some (s',a')) (logs : Logs token a) : Logs token a' := by
  cases AuthService.act_change acted with
  | refresh => cases logs
  | logout change =>
    cases change with
    | stop => trivial
    | _ => exact logs

theorem logout_live (change : AuthService.LogoutChange security i s phase s' phase') (live : Live s' h) :
    Live s h ∧ (h ∈ s'.generated → h ∈ s.generated) := by
  cases change with
  | select presented =>
    rw [(present_parts presented).1] at live ⊢
    exact ⟨live,id⟩
  | update locked =>
    have same := AuthService.same_lock locked
    exact ⟨live_same same.rows live,fun member => same.generated ▸ member⟩
  | commit =>
    rcases live_commit live with ⟨before,_⟩ | ⟨_,member,_⟩
    · exact ⟨before,id⟩
    · cases member
  | skip => exact ⟨live,id⟩
  | stop => exact ⟨live,id⟩

-- A step keeps live only what was live, except that a refresh trades the token
-- presented for the one it hands out.
theorem act_live (knows : Knows security s a) (acted : AuthService.act security i s a label = some (s',a')) :
    (issuedPair a' = issuedPair a ∧ ∀ h, Live s' h → Live s h ∧ (h ∈ s'.generated → h ∈ s.generated)) ∨
      ∃ token tokens, pendingToken a = some token ∧ issuedPair a = none ∧ issuedPair a' = some tokens ∧
        s'.generated = s.generated ∧ ∀ h, Live s' h → Live s h ∧ h ≠ security.hashOpaqueToken token ∨
          security.hashOpaqueToken tokens.refresh_token = h := by
  cases AuthService.act_change acted with
  | @refresh phase _ _ _ change =>
    cases change with
    | select presented =>
      rw [(present_parts presented).1]
      exact .inl ⟨rfl,fun _ live => ⟨live,id⟩⟩
    | check => exact .inl ⟨rfl,fun _ live => ⟨live,id⟩⟩
    | user => exact .inl ⟨rfl,fun _ live => ⟨live,id⟩⟩
    | update locked =>
      have same := AuthService.same_lock locked
      exact .inl ⟨rfl,fun _ live => ⟨live_same same.rows live,fun member => same.generated ▸ member⟩⟩
    | insert generated _ =>
      obtain ⟨after,_,absent⟩ := generate_parts generated
      rw [after]
      refine .inl ⟨rfl,fun h live => ⟨live,fun member => ?_⟩⟩
      rcases List.mem_cons.mp member with rfl | old
      · obtain ⟨found,there,_⟩ := live
        cases absent.symm.trans there
      · exact old
    | @commit request row _ issued tokens =>
      refine .inr ⟨_,tokens,rfl,rfl,rfl,rfl,fun h live => ?_⟩
      rcases live_commit live with ⟨before,elsewhere⟩ | ⟨new,member,same⟩
      · refine .inl ⟨before,?_⟩
        rintro rfl
        exact elsewhere knows.1
      · rw [List.mem_singleton.mp member] at same
        exact .inr (knows.2.2.symm.trans same)
    | stop unexchanged =>
      cases phase with
      | exchanged request tokens => exact absurd rfl (unexchanged request tokens)
      | _ => exact .inl ⟨rfl,fun _ live => ⟨live,id⟩⟩
  | logout change => exact .inl ⟨rfl,fun _ live => logout_live change live⟩

-- The refresh token the session goes on with: the stored one, or the one in the
-- answer of the refresh in flight once the server has exchanged it.
def current (s : Session) : Option Str :=
  match s.refreshPromise.bind fun slot => issuedPair (s.server.locals slot) with
  | some tokens => some tokens.refresh_token
  | none => s.store.refreshToken

-- The refresh tokens of the session by their hashes.
def Issued (browser : Browser) (start s : Session) (h : Str) : Prop :=
  h ∈ s.server.shared.generated ∨ ∃ token, start.store.refreshToken = some token ∧ browser.security.hashOpaqueToken token = h

structure Linked (browser : Browser) (start s : Session) : Prop where
  knows : ∀ k, Knows browser.security s.server.shared (s.server.locals k)
  alone : ∀ k token, pendingToken (s.server.locals k) = some token →
    s.refreshPromise = some k ∧ s.store.refreshToken = some token
  chain : ∀ h, Issued browser start s h → Live s.server.shared h →
    ∃ token, current s = some token ∧ browser.security.hashOpaqueToken token = h

-- A `handleLogout` on its way, as far as it has come.
def Leaving (browser : Browser) (s : Session) (token : Str) : FetchPhase → Prop
  | .called => True
  | .sent _ (some slot) => Logs token (s.server.locals slot)
  | .settled _ => Retired s.server.shared (browser.security.hashOpaqueToken token)
  | _ => False

def Fits (browser : Browser) (s : Session) : Call → Prop
  | .handleLogout token phase => s.refreshPromise = none ∧ (∀ other, s.store.refreshToken = some other → other = token) ∧
      Leaving browser s token phase
  | .loggedOut => s.refreshPromise = none ∧ s.store = ⟨none,none⟩
  | _ => True

structure Coupled (browser : Browser) (start s : Session) : Prop where
  linked : Linked browser start s
  fits : ∀ i, Fits browser s (s.calls i)

theorem posted_locals {s : Session} : (s.posted slot activity).server.locals k = if k = slot then activity else s.server.locals k :=
  Function.update_apply _ _ _ _

theorem current_posted {s : Session} (idle : s.server.locals slot = .idle) (silent : issuedPair activity = none) :
    current (s.posted slot activity) = current s := by
  have same (k : Nat) : issuedPair ((s.posted slot activity).server.locals k) = issuedPair (s.server.locals k) := by
    rw [posted_locals]
    split
    · rename_i equal
      rw [equal,idle,silent]
      rfl
    · rfl
  unfold current
  simp only [same]
  rfl

theorem leaving_posted {s : Session} (idle : s.server.locals slot = .idle) (leaving : Leaving browser s token phase) :
    Leaving browser (s.posted slot activity) token phase := by
  unfold Leaving at leaving ⊢
  split at leaving
  · trivial
  · rw [posted_locals]
    split
    · rename_i equal
      rw [equal,idle] at leaving
      cases leaving
    · exact leaving
  · exact leaving
  · exact leaving

theorem fits_posted {s : Session} (idle : s.server.locals slot = .idle) (fits : Fits browser s call) :
    Fits browser (s.posted slot activity) call := by
  unfold Fits at fits ⊢
  split at fits
  · exact ⟨fits.1,fits.2.1,leaving_posted idle fits.2.2⟩
  · exact fits
  · trivial

theorem knows_posted {s : Session} (linked : Linked browser start s) (new : Knows browser.security s.server.shared activity) (k : Nat) :
    Knows browser.security (s.posted slot activity).server.shared ((s.posted slot activity).server.locals k) := by
  rw [posted_locals]
  split
  · exact new
  · exact linked.knows k

-- A logout on its way to the server.
theorem linked_posted_logout {s : Session} (linked : Linked browser start s) (idle : s.server.locals slot = .idle) :
    Linked browser start (s.posted slot (.logout (.requested request))) where
  knows := knows_posted linked trivial
  alone k token pending := by
    rw [posted_locals] at pending
    split at pending
    · cases pending
    · exact linked.alone k token pending
  chain h issued live := by
    rw [current_posted idle rfl]
    exact linked.chain h issued live

-- A refresh on its way to the server, with the promise of it in place.
theorem linked_posted_refresh {s : Session} (linked : Linked browser start s)
    (none_ : s.refreshPromise = none) (stored : s.store.refreshToken = some token) :
    Linked browser start {s.posted slot (.refresh (.requested (browser.request token))) with refreshPromise := some slot} where
  knows := knows_posted linked trivial
  alone k other pending := by
    have pending : pendingToken ((s.posted slot (.refresh (.requested (browser.request token)))).server.locals k) = some other := pending
    rw [posted_locals] at pending
    split at pending
    · rename_i equal
      cases pending
      exact ⟨congrArg some equal.symm,stored⟩
    · cases none_.symm.trans (linked.alone k other pending).1
  chain h issued live := by
    obtain ⟨known,same,hashes⟩ := linked.chain h issued live
    refine ⟨known,?_,hashes⟩
    have before : current s = s.store.refreshToken := by
      unfold current
      rw [none_]
      rfl
    unfold current
    simp only [Option.bind_some,posted_locals,if_true,issuedPair]
    exact before.symm.trans same

-- The store is cleared when no token of the session is live.
theorem linked_logout {s : Session} (linked : Linked browser start s) (none_ : s.refreshPromise = none)
    (dead : ∀ h, Issued browser start s h → ¬ Live s.server.shared h) : Linked browser start s.logout where
  knows := linked.knows
  alone k token pending := by cases none_.symm.trans (linked.alone k token pending).1
  chain h issued live := absurd live (dead h issued)

theorem fits_logout {s : Session} (fits : Fits browser s call) : Fits browser s.logout call := by
  unfold Fits at fits ⊢
  split at fits
  · exact ⟨fits.1,nofun,fits.2.2⟩
  · exact ⟨fits.1,rfl⟩
  · trivial

theorem current_flying {s : Session} (flying : s.refreshPromise = some slot) :
    current s = ((issuedPair (s.server.locals slot)).map TokenPair.refresh_token).or s.store.refreshToken := by
  unfold current
  rw [flying]
  cases same : issuedPair (s.server.locals slot) with
  | none => simp only [Option.bind_some,same,Option.map_none,Option.none_or]
  | some tokens => simp only [Option.bind_some,same,Option.map_some,Option.some_or]

theorem linked_server {s : Session} (linked : Linked browser start s)
    (moved : Interleave.Step (AuthService.act browser.security) s.server label server) :
    Linked browser start {s with server := server} := by
  obtain ⟨acted,same⟩ := Interleave.step_parts moved
  refine ⟨(knows_outline.step ⟨trivial,linked.knows⟩ moved).2,fun k token pending => ?_,fun h issued live => ?_⟩
  · by_cases equal : k = label.1
    · subst equal
      exact linked.alone _ token (act_pending acted pending)
    · exact linked.alone k token (same k equal ▸ pending)
  · rcases act_live (linked.knows label.1) acted with ⟨kept,lives⟩ | ⟨token,tokens,pending,before,after,generated,lives⟩
    · obtain ⟨known,now,hashes⟩ := linked.chain h (issued.imp (lives h live).2 id) (lives h live).1
      refine ⟨known,?_,hashes⟩
      have pairs (k : Nat) : issuedPair (server.locals k) = issuedPair (s.server.locals k) := by
        by_cases equal : k = label.1
        · rw [equal]; exact kept
        · rw [same k equal]
      unfold current at now ⊢
      simp only [pairs]
      exact now
    · -- the refresh in flight has been exchanged
      obtain ⟨flying,stored⟩ := linked.alone label.1 token pending
      rcases lives h live with ⟨old,other⟩ | hashes
      · obtain ⟨known,now,hashes⟩ := linked.chain h (issued.imp (generated ▸ ·) id) old
        rw [current_flying flying,before,stored] at now
        cases Option.some.inj now
        exact absurd hashes.symm other
      · refine ⟨tokens.refresh_token,?_,hashes⟩
        rw [current_flying (s := {s with server := server}) flying,after]
        rfl

theorem fits_server {s : Session} (linked : Linked browser start s) (fits : Fits browser s call)
    (moved : Interleave.Step (AuthService.act browser.security) s.server label server) :
    Fits browser {s with server := server} call := by
  obtain ⟨acted,same⟩ := Interleave.step_parts moved
  have grows := (act_knows (linked.knows label.1) acted).1
  unfold Fits at fits ⊢
  split at fits
  · refine ⟨fits.1,fits.2.1,?_⟩
    have leaving := fits.2.2
    unfold Leaving at leaving ⊢
    split at leaving
    · trivial
    · rename_i slot
      by_cases equal : slot = label.1
      · subst equal
        exact act_logs acted leaving
      · exact (congrArg (Logs _) (same slot equal)).mpr leaving
    · exact leaving.imp (grows.spent _) (grows.unknown _)
    · exact leaving
  · exact fits
  · trivial

-- The answer of a refresh: the pair it carries is stored.
theorem linked_answered {s : Session} (linked : Linked browser start s) (flying : s.refreshPromise = some slot)
    (exchanged : s.server.locals slot = .refresh (.exchanged request tokens)) :
    Linked browser start (s.resolve slot (s.store.setTokens tokens.access_token tokens.refresh_token) token) where
  knows := linked.knows
  alone k other pending := by
    obtain ⟨same,_⟩ := linked.alone k other pending
    cases Option.some.inj (flying.symm.trans same)
    have pending : pendingToken (s.server.locals slot) = some other := pending
    rw [exchanged] at pending
    cases pending
  chain h issued live := by
    obtain ⟨known,now,hashes⟩ := linked.chain h issued live
    rw [current_flying flying,exchanged] at now
    cases now
    exact ⟨_,rfl,hashes⟩

-- While a refresh is in flight nobody is logging out or logged out.
theorem fits_flying {s t : Session} (fits : Fits browser s call) (flying : s.refreshPromise = some slot) : Fits browser t call := by
  unfold Fits at fits ⊢
  split at fits
  · cases flying.symm.trans fits.1
  · cases flying.symm.trans fits.1
  · trivial

def asksRefresh (browser : Browser) (s : Session) : Label → Bool
  | .call i (.fetch label) => match s.calls i with
    | .fetch skipAuth phase => asks browser s skipAuth phase label
    | .handleLogout _ phase => asks browser s false phase label
    | _ => false
  | _ => false

-- `handleLogout` is entered with no refresh in flight, and none is asked for until
-- it has cleared the store.
structure Undisturbed (browser : Browser) (s : Session) (label : Label) : Prop where
  entered : ∀ i, label = .call i .select → s.refreshPromise = none
  unasked : asksRefresh browser s label = true → s.store.refreshToken.isSome → ∀ i token phase, s.calls i ≠ .handleLogout token phase

-- The server answers a refresh with a token pair and a logout with 204; what it
-- answers to other requests is left open.
def successful (s : Session) : Label → Bool
  | .refresh .answered => true
  | .refresh _ => false
  | .call _ (.fetch .lost) => false
  | .call i (.fetch (.respond status _)) => match s.calls i with
    | .handleLogout _ _ => status = 204
    | _ => true
  | _ => true

-- A call starts its refresh: its own step is the only one that can be logging out.
theorem fits_started {s t : Session} (fits : Fits browser s call) (stored : s.store.refreshToken = some token)
    (other : ∀ token phase, call ≠ .handleLogout token phase) : Fits browser t call := by
  unfold Fits at fits ⊢
  split at fits
  · exact absurd rfl (other _ _)
  · rw [fits.2] at stored
    cases stored
  · trivial

theorem coupled_set {s t : Session} (linked : Linked browser start t) (calls : t.calls = s.calls)
    (others : ∀ j, j ≠ i → Fits browser t (s.calls j)) (own : Fits browser t call) :
    Coupled browser start {t with calls := Function.update t.calls i call} where
  linked := ⟨linked.knows,linked.alone,linked.chain⟩
  fits j := by
    change Fits browser t (Function.update t.calls i call j)
    by_cases equal : j = i
    · subst equal
      rw [Function.update_self]
      exact own
    · rw [Function.update_of_ne equal,calls]
      exact others j equal

-- The answer of the logout request: the token it has presented is retired.
theorem answered_retired {s : Session} (linked : Linked browser start s) (logs : Logs token (s.server.locals slot))
    (answered : answers s (some slot) 204 = true) : Retired s.server.shared (browser.security.hashOpaqueToken token) := by
  have knows := linked.knows slot
  simp only [answers] at answered
  split at answered
  · rename_i returned
    rw [returned] at knows logs
    rw [← logs]
    exact knows
  · cases answered
  · cases answered

theorem coupled_fetch (coupled : Coupled browser start s) (mine : s.calls i = .fetch skipAuth phase)
    (undisturbed : Undisturbed browser s (.call i (.fetch label)))
    (acted : apiFetch browser none skipAuth s phase label = some (t,phase')) :
    Coupled browser start {t with calls := Function.update t.calls i (.fetch skipAuth phase')} := by
  cases fetch_change acted with
  | refresh asked stored none_ posted =>
    obtain ⟨_,rfl⟩ := post_parts posted
    have alone := undisturbed.unasked (by simp only [asksRefresh,mine,asked]) (by rw [stored]; rfl)
    exact coupled_set (linked_posted_refresh coupled.linked none_ stored) rfl
      (fun j _ => fits_started (coupled.fits j) stored (alone j)) trivial
  | send sent => cases sent; exact coupled_set coupled.linked rfl (fun j _ => coupled.fits j) trivial
  | resend sent => cases sent; exact coupled_set coupled.linked rfl (fun j _ => coupled.fits j) trivial
  | _ => exact coupled_set coupled.linked rfl (fun j _ => coupled.fits j) trivial

theorem coupled_logging_out (coupled : Coupled browser start s) (mine : s.calls i = .handleLogout token phase)
    (undisturbed : Undisturbed browser s (.call i (.fetch label))) (success : successful s (.call i (.fetch label)) = true)
    (acted : apiFetch browser (some token) false s phase label = some (t,phase')) :
    Coupled browser start {t with calls := Function.update t.calls i (.handleLogout token phase')} := by
  have fits := coupled.fits i
  rw [mine] at fits
  obtain ⟨none_,same,leaving⟩ := fits
  cases fetch_change acted with
  | refresh asked stored =>
    exact absurd mine (undisturbed.unasked (by simp only [asksRefresh,mine,asked]) (by rw [stored]; rfl) i token phase)
  | join _ _ flying => cases none_.symm.trans flying
  | send sent =>
    obtain ⟨after,posted,equal⟩ := Option.map_eq_some_iff.mp sent
    cases equal
    obtain ⟨idle,rfl⟩ := post_parts posted
    refine coupled_set (linked_posted_logout coupled.linked idle) rfl (fun j _ => fits_posted idle (coupled.fits j)) ⟨none_,same,?_⟩
    rw [Leaving,posted_locals,if_pos rfl]
    rfl
  | resend => cases leaving
  | @answer request status _ _ answered =>
    refine coupled_set coupled.linked rfl (fun j _ => coupled.fits j) ⟨none_,same,?_⟩
    cases request with
    | none => cases leaving
    | some slot =>
      simp only [successful,mine,decide_eq_true_eq] at success
      exact answered_retired coupled.linked leaving (success ▸ answered)
  | answerAgain => cases leaving
  | giveUp => cases leaving
  | lost => cases success

theorem coupled_call (coupled : Coupled browser start s) (undisturbed : Undisturbed browser s (.call i label))
    (success : successful s (.call i label) = true) (acted : act browser s (s.calls i) label = some (t,call)) :
    Coupled browser start {t with calls := Function.update t.calls i call} := by
  unfold act at acted
  split at acted
  · rename_i mine
    obtain ⟨phase,moved,rfl⟩ := lifted acted
    exact coupled_fetch coupled mine undisturbed moved
  · have none_ := undisturbed.entered i rfl
    split at acted
    · rename_i token stored
      cases acted
      refine coupled_set coupled.linked rfl (fun j _ => coupled.fits j) ⟨none_,fun other stored' => ?_,trivial⟩
      exact Option.some.inj (stored'.symm.trans stored)
    · rename_i empty
      cases acted
      refine coupled_set (linked_logout coupled.linked none_ fun h issued live => ?_) rfl
        (fun j _ => fits_logout (coupled.fits j)) ⟨none_,rfl⟩
      obtain ⟨known,now,_⟩ := coupled.linked.chain h issued live
      unfold current at now
      rw [none_,Option.bind_none,empty] at now
      cases now
  · rename_i mine
    obtain ⟨phase,moved,rfl⟩ := lifted acted
    exact coupled_logging_out coupled mine undisturbed success moved
  · rename_i token status mine
    cases acted
    have fits := coupled.fits i
    rw [mine] at fits
    obtain ⟨none_,same,retired⟩ := fits
    refine coupled_set (linked_logout coupled.linked none_ fun h issued live => ?_) rfl
      (fun j _ => fits_logout (coupled.fits j)) ⟨none_,rfl⟩
    -- what is live would be the token the logout has retired
    obtain ⟨known,now,hashes⟩ := coupled.linked.chain h issued live
    unfold current at now
    rw [none_,Option.bind_none] at now
    rw [← hashes,same known now] at live
    exact retired_dead retired live
  · cases acted

theorem refreshed_answered (moved : refreshed s .answered = some next) : ∃ slot request tokens, s.refreshPromise = some slot ∧
    s.server.locals slot = .refresh (.exchanged request tokens) ∧
      next = s.resolve slot (s.store.setTokens tokens.access_token tokens.refresh_token) (some tokens.access_token) := by
  unfold refreshed at moved
  split at moved
  · cases moved
  · rename_i slot flying
    cases phase : s.server.locals slot with
    | refresh done =>
      cases done with
      | exchanged request tokens =>
        simp only [phase,Option.some.injEq] at moved
        exact ⟨slot,request,tokens,flying,phase,moved.symm⟩
      | _ => simp only [phase,reduceCtorEq] at moved
    | _ => simp only [phase,reduceCtorEq] at moved

theorem coupled_step (coupled : Coupled browser start s) (undisturbed : Undisturbed browser s label)
    (success : successful s label = true) (moved : Step browser s label next) : Coupled browser start next := by
  cases label with
  | call i label =>
    obtain ⟨⟨t,call⟩,acted,equal⟩ := Option.map_eq_some_iff.mp moved
    cases equal
    exact coupled_call coupled undisturbed success acted
  | refresh outcome =>
    cases outcome with
    | answered =>
      obtain ⟨slot,request,tokens,flying,exchanged,rfl⟩ := refreshed_answered moved
      exact ⟨linked_answered coupled.linked flying exchanged,fun i => fits_flying (coupled.fits i) flying⟩
    | _ => cases success
  | server slot label =>
    obtain ⟨server,served,equal⟩ := Option.map_eq_some_iff.mp moved
    cases equal
    exact ⟨linked_server coupled.linked served,fun i => fits_server coupled.linked (coupled.fits i) served⟩

def fresh : Call → Bool
  | .idle => true
  | .fetch _ .called => true
  | .menu => true
  | _ => false

-- A signed-in page: nothing in flight and nothing issued yet.
structure Opening (s : Session) : Prop where
  generated : s.server.shared.generated = []
  slots : ∀ k, s.server.locals k = .idle
  promise : s.refreshPromise = none
  calls : ∀ i, fresh (s.calls i) = true

theorem fresh_fits (begins : fresh call = true) : Fits browser s call := by
  unfold fresh at begins
  split at begins
  · trivial
  · trivial
  · trivial
  · cases begins

theorem opening_coupled (opening : Opening s) : Coupled browser s s := by
  refine ⟨⟨fun k => ?_,fun k token pending => ?_,fun h issued live => ?_⟩,fun i => fresh_fits (opening.calls i)⟩
  · rw [opening.slots k]
    trivial
  · rw [opening.slots k] at pending
    cases pending
  · rcases issued with member | ⟨token,stored,hashes⟩
    · rw [opening.generated] at member
      cases member
    · refine ⟨token,?_,hashes⟩
      unfold current
      rw [opening.promise]
      exact stored

abbrev Successful (browser : Browser) : Session → Label → Session → Prop := within (successful · · = true) (Step browser)

theorem runs_coupled (path : Runs (within (Undisturbed browser) (Successful browser)) start labels s) (opening : Opening start) :
    Coupled browser start s :=
  path.preserves (opening_coupled opening) fun _ _ _ coupled moved => coupled_step coupled moved.1 moved.2.1 moved.2.2

-- No request of the page is without its answer.
structure Quiesced (s : Session) : Prop where
  promise : s.refreshPromise = none
  calls : ∀ i, (s.calls i).answered = true

-- Once `handleLogout` has finished and the requests in flight have been answered,
-- no refresh token of the session is active and the store stays empty.
structure LogoutFinal (browser : Browser) (start : Session) (labels : List Label) (s : Session) : Prop where
  revoked : ∀ b i h row now, Passes (Step browser) start labels s b → b.calls i = .loggedOut → Quiesced b →
    Issued browser start s h → s.server.shared.byHash h = some row → row.is_active now = false
  cleared : ∀ b i, Passes (Step browser) start labels s b → b.calls i = .loggedOut → Quiesced b → s.store = ⟨none,none⟩

theorem coupled_final (coupled : Coupled browser start s) (out : s.calls i = .loggedOut) :
    s.store = ⟨none,none⟩ ∧ ∀ h, Issued browser start s h → ¬ Live s.server.shared h := by
  have fits := coupled.fits i
  rw [out] at fits
  refine ⟨fits.2,fun h issued live => ?_⟩
  obtain ⟨known,now,_⟩ := coupled.linked.chain h issued live
  unfold current at now
  rw [fits.1,fits.2] at now
  cases now

theorem undisturbed_logout_final (browser : Browser) (start s : Session) (labels : List Label) (opening : Opening start)
    (path : Runs (within (Undisturbed browser) (Successful browser)) start labels s) : LogoutFinal browser start labels s where
  revoked b i h row now passed out _ issued there := by
    obtain ⟨_,_,_,_,after⟩ := passed
    obtain ⟨_,dead⟩ := coupled_final (runs_coupled path opening) (runs_calls after loggedOut_still out)
    -- a row that is active would be live
    by_contra active
    have unrevoked := (Bool.and_eq_true_iff.mp (Bool.not_eq_false _ ▸ active :)).1
    exact dead h issued ⟨row,there,Option.isNone_iff_eq_none.mp unrevoked⟩
  cleared b i passed out _ := by
    obtain ⟨_,_,_,_,after⟩ := passed
    exact (coupled_final (runs_coupled path opening) (runs_calls after loggedOut_still out)).1

-- A page that asks for one thing and has a menu. The access token of the login
-- lasts 15 minutes, the one of the first refresh 30.
def page : Session where
  store := ⟨some "login jwt".toList,some "first".toList⟩
  refreshPromise := none
  resolved := fun _ => none
  calls := fun
    | 0 => .fetch false .called
    | 1 => .menu
    | _ => .idle
  server := ⟨TokenRaces.signedIn.shared,fun _ => .idle⟩

def chrome : Browser where
  security := TokenRaces.sha256
  decodeJwtExpiry token :=
    if token = "login jwt".toList then some 900000 else if token = "jwt".toList then some 1800000 else none
  user_agent := some "Mozilla/5.0".toList
  ip_address := none

theorem page_opening : Opening page where
  generated := rfl
  slots _ := rfl
  promise := rfl
  calls i := by unfold page; dsimp only; split <;> rfl

def served (steps : List (Nat × AuthService.Label)) : List Label := steps.map fun step => .server step.1 step.2

def loggingOut : Call → Bool
  | .handleLogout _ _ => true
  | _ => false

def undisturbedUpTo (bound : Nat) (browser : Browser) (s : Session) (label : Label) : Bool :=
  (match label with
  | .call _ .select => s.refreshPromise.isNone
  | _ => true) &&
  (!(asksRefresh browser s label && s.store.refreshToken.isSome) || (List.range bound).all fun i => !loggingOut (s.calls i))

theorem undisturbedUpTo_sound (tested : undisturbedUpTo bound browser s label = true) (idle : ∀ i, bound ≤ i → s.calls i = .idle) :
    Undisturbed browser s label := by
  obtain ⟨enters,asked⟩ := Bool.and_eq_true_iff.mp tested
  constructor
  · rintro i rfl
    exact Option.isNone_iff_eq_none.mp enters
  · intro asks stored i token phase mine
    rw [asks,stored] at asked
    have inside : i < bound := by
      by_contra outside
      cases (idle i (Nat.not_lt.mp outside)).symm.trans mine
    have one := List.all_eq_true.mp asked i (List.mem_range.mpr inside)
    rw [mine] at one
    cases one

theorem page_idle (path : Runs (Step browser) page labels s) (outside : 2 ≤ i) : s.calls i = .idle := by
  refine runs_calls path idle_still ?_
  match i,outside with
  | i + 2,_ => rfl

def out : Call → Bool
  | .loggedOut => true
  | _ => false

theorem out_loggedOut (is_ : out call = true) : call = .loggedOut := by
  cases call <;> first | rfl | cases is_

-- The call refreshes first; the logout has a new access token and the new refresh token.
def refreshedLogout : List Label := [.call 0 (.fetch (.start 890000 0))] ++
  served (TokenRaces.checkSteps 0 ++ TokenRaces.rotateSteps 0 ⟨3⟩ "second") ++
  [.refresh .answered,.call 0 (.fetch (.resume 1)),.call 0 (.fetch (.respond 200 1)),.call 1 .select,.call 1 (.fetch (.start 895000 1))] ++
  served [(1,.logout .select),(1,.logout (.update 895)),(1,.logout .commit)] ++ [.call 1 (.fetch (.respond 204 2)),.call 1 .clear]

theorem refreshed_logout_final : ∃ s, Runs (within (Undisturbed chrome) (Successful chrome)) page refreshedLogout s ∧
    s.calls 1 = .loggedOut ∧ LogoutFinal chrome page refreshedLogout s := by
  obtain ⟨s,path,passed⟩ := run_within (advance chrome) page refreshedLogout
    (fun s label => undisturbedUpTo 2 chrome s label && successful s label)
    (fun s label => Undisturbed chrome s label ∧ successful s label = true) (fun s => out (s.calls 1)) (by decide +kernel)
    fun _ s label before tested => by
      obtain ⟨undisturbed,success⟩ := Bool.and_eq_true_iff.mp tested
      exact ⟨undisturbedUpTo_sound undisturbed fun i outside => page_idle before outside,success⟩
  have path : Runs (within (Undisturbed chrome) (Successful chrome)) page refreshedLogout s :=
    path.mono fun _ _ _ both => ⟨both.1.1,both.1.2,both.2⟩
  exact ⟨s,path,out_loggedOut passed,undisturbed_logout_final chrome page s refreshedLogout page_opening path⟩

-- The access token is about to expire when the menu is used: the logout request
-- waits for a refresh and then presents the token that refresh has traded in.
def staleLogout : List Label := [.call 1 .select,.call 1 (.fetch (.start 890000 0))] ++
  served (TokenRaces.checkSteps 0 ++ TokenRaces.rotateSteps 0 ⟨3⟩ "second") ++
  [.refresh .answered,.call 1 (.fetch (.resume 1))] ++ served [(1,.logout .select),(1,.logout .commit)] ++
  [.call 1 (.fetch (.respond 204 2)),.call 1 .clear]

theorem stale_logout_leaves_active : ¬ ∀ (browser : Browser) (start s : Session) (labels : List Label), Opening start →
    Runs (Successful browser) start labels s → LogoutFinal browser start labels s := by
  intro all
  obtain ⟨s,path,passed⟩ := run_within (advance chrome) page staleLogout successful (successful · · = true)
    (fun s => out (s.calls 1) && s.refreshPromise.isNone && (s.calls 0).answered &&
      decide (TokenRaces.sha256.hashOpaqueToken "second".toList ∈ s.server.shared.generated) &&
      (s.server.shared.byHash (TokenRaces.sha256.hashOpaqueToken "second".toList)).any (·.is_active 900)) (by decide +kernel)
    fun _ _ _ _ tested => tested
  simp only [Bool.and_eq_true,decide_eq_true_eq,Option.isNone_iff_eq_none,Option.any_eq_true] at passed
  obtain ⟨⟨⟨⟨ended,none_⟩,answered⟩,issued⟩,row,there,active⟩ := passed
  have quiet : Quiesced s := by
    refine ⟨none_,fun i => ?_⟩
    match i with
    | 0 => exact answered
    | 1 => rw [out_loggedOut ended]; rfl
    | i + 2 => rw [page_idle path.unguarded (by omega)]; rfl
  have final := (all chrome page s staleLogout page_opening path).revoked s 1 _ row 900 (Passes.here path.unguarded)
    (out_loggedOut ended) quiet (.inl issued) there
  rw [active] at final
  cases final

end RagForge.LogoutFinality
