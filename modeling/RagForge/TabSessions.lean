import RagForge.LogoutFinality
import RagForge.Relay

namespace RagForge.TabSessions
open Transition BrowserSession TokenRaces LogoutFinality
open AuthService (Security Store Activity TokenPair)
open Relay (Race Fair)

-- The page in one tab; `Session` has the server beside it.
structure Tab where
  store : AuthState
  refreshPromise : Option Nat
  resolved : Nat → Option (Option Str)
  calls : Nat → Call

def Tab.session (tab : Tab) (server : AuthService.Config) : Session :=
  ⟨tab.store,tab.refreshPromise,tab.resolved,tab.calls,server⟩

def Tab.ofSession (s : Session) : Tab := ⟨s.store,s.refreshPromise,s.resolved,s.calls⟩

-- The tabs of one browser. Each has the auth store in its own memory; what
-- `persist` writes is shared, and read when a page is loaded.
structure Window where
  server : AuthService.Config
  localStorage : AuthState
  tabs : Nat → Tab

def Window.session (w : Window) (i : Nat) : Session := (w.tabs i).session w.server

-- What a page is going to do.
inductive Entry where
  | idle
  | fetch (skipAuth : Bool)
  | menu

def Entry.call : Entry → Call
  | .idle => .idle
  | .fetch skipAuth => .fetch skipAuth .called
  | .menu => .menu

inductive Label where
  | call (i n : Nat) (label : CallLabel)
  | refresh (i : Nat) (outcome : Outcome)
  | server (slot : Nat) (label : AuthService.Label)
  | setUser (i : Nat)
  | load (i : Nat) (entries : Nat → Entry)

-- The step of a call ends in `logout()` of the store.
def sets (s : Session) (n : Nat) : CallLabel → Bool
  | .select => (s.calls n matches .menu) && s.store.refreshToken.isNone
  | .clear => true
  | .fetch _ => false

def Window.resume (w : Window) (i : Nat) (persist : Bool) (s : Session) : Window where
  server := s.server
  localStorage := if persist then s.store else w.localStorage
  tabs := Function.update w.tabs i (.ofSession s)

-- Every `set` of the store is persisted whole, tokens included.
def advance (browser : Browser) (w : Window) : Label → Option Window
  | .call i n label => (BrowserSession.advance browser (w.session i) (.call n label)).map (w.resume i (sets (w.session i) n label))
  | .refresh i outcome => (refreshed (w.session i) outcome).map (w.resume i true)
  | .server slot label => (Interleave.advance (AuthService.act browser.security) w.server (slot,label)).map ({w with server := ·})
  | .setUser i => some {w with localStorage := (w.tabs i).store}
  | .load i entries => some {w with tabs := Function.update w.tabs i ⟨w.localStorage,none,fun _ => none,fun n => (entries n).call⟩}

abbrev Step (browser : Browser) : Window → Label → Window → Prop := taken (advance browser)

-- No refresh updates a row that another request has revoked since its check.
def Unraced (browser : Browser) (w : Window) : Label → Prop
  | .server slot label => Current browser.security w.server (slot,label)
  | _ => True

-- A refresh token that somebody can still present.
inductive Holds (w : Window) (token : Str) : Prop where
  | tab (i : Nat) : (w.tabs i).store.refreshToken = some token → Holds w token
  | persisted : w.localStorage.refreshToken = some token → Holds w token
  | request (k : Nat) : pendingToken (w.server.locals k) = some token → Holds w token

def race (browser : Browser) (w : Window) : Race Str Nat where
  live := Live w.server.shared
  known h := ∃ token, Holds w token ∧ browser.security.hashOpaqueToken token = h
  coming i h := ∃ k tokens, (w.tabs i).refreshPromise = some k ∧ issuedPair (w.server.locals k) = some tokens ∧
    browser.security.hashOpaqueToken tokens.refresh_token = h

-- A token hash that is inserted and not committed.
def minted : Activity → Option Str
  | .refresh (.inserted _ _ _ issued _) => some issued.token_hash
  | _ => none

-- What is known of the server in runs without races.
structure Sound (security : Security) (c : AuthService.Config) : Prop where
  knows : ∀ k, Knows security c.shared (c.locals k)
  locks : ∀ k, ∀ row ∈ updating (c.locals k), c.shared.locks row.id = some k
  exclusive : Exclusive security c
  unborn : ∀ k h, minted (c.locals k) = some h → c.shared.byHash h = none
  apart : ∀ j k h, minted (c.locals j) = some h → minted (c.locals k) = some h → j = k
  born : ∀ k tokens, issuedPair (c.locals k) = some tokens →
    (c.shared.byHash (security.hashOpaqueToken tokens.refresh_token)).isSome

theorem byHash_grows (grows : Grows s s') (there : (s.byHash h).isSome) : (s'.byHash h).isSome := by
  obtain ⟨row,found⟩ := Option.isSome_iff_exists.mp there
  obtain ⟨later,found',_⟩ := grows.located h row.id ⟨row,found,rfl⟩
  rw [found']
  rfl

-- A step mints a hash by its insert alone, and brings rows in by its commit alone.
theorem act_minted (acted : AuthService.act security i s a label = some (s',a')) :
    (minted a' = none ∨ ∃ h, minted a' = some h ∧ minted a = none ∧ s.byHash h = none ∧ h ∉ s.generated) ∧
      ∀ h, s.byHash h = none → minted a ≠ some h → s'.byHash h = none := by
  cases AuthService.act_change acted with
  | refresh change =>
    cases change with
    | select presented => rw [(present_parts presented).1]; exact ⟨.inl rfl,fun _ absent _ => absent⟩
    | check => exact ⟨.inl rfl,fun _ absent _ => absent⟩
    | user => exact ⟨.inl rfl,fun _ absent _ => absent⟩
    | update locked => exact ⟨.inl rfl,fun _ absent _ => (byHash_same (AuthService.same_lock locked).rows).trans absent⟩
    | insert generated _ =>
      obtain ⟨after,_,absent⟩ := generate_parts generated
      refine ⟨.inr ⟨_,rfl,rfl,absent,fun old => ?_⟩,fun h missing _ => by rw [after]; exact missing⟩
      unfold AuthService.Store.generate at generated
      rw [if_pos (.inl old)] at generated
      cases generated
    | @commit request row revoked_at issued tokens =>
      refine ⟨.inl rfl,fun h absent other => ?_⟩
      refine (byHash_commit (s := s)).trans ?_
      rw [absent]
      refine List.find?_eq_none.mpr fun new member => ?_
      rw [List.mem_singleton.mp member]
      simp only [decide_eq_true_eq]
      exact fun same => other (congrArg some same)
    | stop => exact ⟨.inl rfl,fun _ absent _ => absent⟩
  | logout change =>
    refine ⟨.inl rfl,fun h absent _ => ?_⟩
    cases change with
    | select presented => rw [(present_parts presented).1]; exact absent
    | update locked => exact (byHash_same (AuthService.same_lock locked).rows).trans absent
    | commit =>
      refine (byHash_commit (s := s)).trans ?_
      rw [absent]
      rfl
    | _ => exact absent

theorem act_born (knows : Knows security s a) (acted : AuthService.act security i s a label = some (s',a'))
    (issued : issuedPair a' = some tokens) : (s'.byHash (security.hashOpaqueToken tokens.refresh_token)).isSome := by
  cases AuthService.act_change acted with
  | refresh change =>
    cases change with
    | @commit _ row revoked_at new _ =>
      cases issued
      have here : new.token_hash = security.hashOpaqueToken _ := knows.2.2
      rw [← here]
      have looked : ((s.commit row.id revoked_at [new]).release i).byHash new.token_hash =
          ((s.byHash new.token_hash).map (AuthService.RefreshToken.revoke row.id revoked_at)).or
            ([new].find? (·.token_hash = new.token_hash)) := byHash_commit
      rw [looked,List.find?_cons_of_pos (by simp)]
      cases s.byHash new.token_hash <;> rfl
    | _ => cases issued
  | logout => cases issued

theorem Sound.step (sound : Sound security c) (current : Current security c label)
    (moved : Interleave.Step (AuthService.act security) c label next) : Sound security next := by
  obtain ⟨i,label⟩ := label
  obtain ⟨acted,same⟩ := Interleave.step_parts moved
  obtain ⟨mints,silent⟩ := act_minted acted
  have grows := (act_knows (sound.knows i) acted).1
  dsimp only at acted same mints silent grows
  have earlier {k : Nat} {h : Str} (here : minted (next.locals k) = some h) :
      k ≠ i ∧ minted (c.locals k) = some h ∨ k = i ∧ minted (c.locals k) = none ∧ c.shared.byHash h = none ∧ h ∉ c.shared.generated := by
    by_cases own : k = i
    · subst own
      rcases mints with gone | ⟨new,mine,fresh⟩
      · rw [gone] at here; cases here
      · cases mine.symm.trans here
        exact .inr ⟨rfl,fresh⟩
    · exact .inl ⟨own,same k own ▸ here⟩
  have drawn {k : Nat} {h : Str} (here : minted (c.locals k) = some h) : h ∈ c.shared.generated := by
    have known := sound.knows k
    generalize c.locals k = a at known here
    unfold minted at here
    split at here <;> cases here
    exact known.2.1
  refine ⟨(knows_outline.step ⟨trivial,sound.knows⟩ moved).2,(locks_outline.step ⟨trivial,sound.locks⟩ moved).2,
    exclusive_step sound.exclusive sound.knows sound.locks current moved,fun k h here => ?_,fun j k h left right => ?_,
    fun k tokens issued => ?_⟩
  · rcases earlier here with ⟨other,before⟩ | ⟨rfl,idle,absent,_⟩
    · exact silent h (sound.unborn k h before) fun mine => other (sound.apart k i h before mine)
    · exact silent h absent fun mine => by rw [idle] at mine; cases mine
  · rcases earlier left with ⟨_,first⟩ | ⟨rfl,_,_,fresh⟩ <;> rcases earlier right with ⟨_,second⟩ | ⟨rfl,_,_,fresh'⟩
    · exact sound.apart j k h first second
    · exact absurd (drawn first) fresh'
    · exact absurd (drawn second) fresh
    · rfl
  · by_cases own : k = i
    · subst own
      exact act_born (sound.knows k) acted issued
    · exact byHash_grows grows (sound.born k tokens (same k own ▸ issued))

theorem Sound.posted {s : Session} (sound : Sound security s.server)
    (fresh : Activity.fresh activity = true) : Sound security (s.posted slot activity).server := by
  obtain ⟨still,turning,done⟩ := fresh_quiet fresh
  have blank : minted activity = none ∧ issuedPair activity = none := by
    unfold Activity.fresh at fresh
    split at fresh <;> first | exact ⟨rfl,rfl⟩ | cases fresh
  have cases_ (k : Nat) : k = slot ∧ (s.posted slot activity).server.locals k = activity ∨
      (s.posted slot activity).server.locals k = s.server.locals k := by
    rw [posted_locals]
    by_cases own : k = slot
    · exact .inl ⟨own,if_pos own⟩
    · exact .inr (if_neg own)
  refine ⟨fun k => ?_,fun k row updates => ?_,⟨fun k request row rotates => ?_,fun i j left right first second => ?_⟩,
    fun k h here => ?_,fun j k h left right => ?_,fun k tokens issued => ?_⟩
  · rcases cases_ k with ⟨_,new⟩ | old
    · rw [new]; exact fresh_knows fresh
    · exact old ▸ sound.knows k
  · rcases cases_ k with ⟨_,new⟩ | old
    · rw [new,still] at updates; cases updates
    · exact sound.locks k row (old ▸ updates)
  · rcases cases_ k with ⟨_,new⟩ | old
    · rw [new,turning] at rotates; cases rotates
    · exact sound.exclusive.unspent k request row (old ▸ rotates)
  · rcases cases_ i with ⟨_,new⟩ | old
    · rw [new,done] at first; cases first
    · rcases cases_ j with ⟨_,new⟩ | old'
      · rw [new,done] at second; cases second
      · exact sound.exclusive.once i j left right (old ▸ first) (old' ▸ second)
  · rcases cases_ k with ⟨_,new⟩ | old
    · rw [new,blank.1] at here; cases here
    · exact sound.unborn k h (old ▸ here)
  · rcases cases_ j with ⟨_,new⟩ | old
    · rw [new,blank.1] at left; cases left
    · rcases cases_ k with ⟨_,new⟩ | old'
      · rw [new,blank.1] at right; cases right
      · exact sound.apart j k h (old ▸ left) (old' ▸ right)
  · rcases cases_ k with ⟨_,new⟩ | old
    · rw [new,blank.2] at issued; cases issued
    · exact sound.born k tokens (old ▸ issued)

-- A refresh that goes through had a token that counts, and hands out a new one.
theorem exchange_parts (sound : Sound security c) (acted : AuthService.act security i c.shared (c.locals i) label = some (s',a'))
    (issued : issuedPair a' = some tokens) (silent : issuedPair (c.locals i) = none) (pending : pendingToken (c.locals i) = some token) :
    Live c.shared (security.hashOpaqueToken token) ∧ minted (c.locals i) = some (security.hashOpaqueToken tokens.refresh_token) := by
  have knows := sound.knows i
  have unspent := sound.exclusive.unspent i
  generalize c.locals i = a at acted silent pending knows unspent
  cases AuthService.act_change acted with
  | refresh change =>
    cases change with
    | @commit request row _ _ _ =>
      cases issued
      cases pending
      obtain ⟨⟨found,there,_⟩,_,same⟩ := knows
      refine ⟨⟨found,there,?_⟩,congrArg some same⟩
      exact Option.not_isSome_iff_eq_none.mp fun revoked => unspent request row rfl ⟨found,there,revoked⟩
    | _ => cases issued
  | logout => cases issued

-- What a page can do to itself and the server, short of receiving new tokens.
structure Paged (browser : Browser) (s s' : Session) : Prop where
  shared : s'.server.shared = s.server.shared
  sound : Sound browser.security s.server → Sound browser.security s'.server
  slots : ∀ k, s'.server.locals k = s.server.locals k ∨ s.server.locals k = .idle ∧ issuedPair (s'.server.locals k) = none ∧
    ∀ token, pendingToken (s'.server.locals k) = some token → s.store.refreshToken = some token
  store : s'.store.refreshToken = s.store.refreshToken ∨ s'.store.refreshToken = none
  promise : ∀ k, s'.refreshPromise = some k → s.refreshPromise = some k ∨
    s.server.locals k = .idle ∧ ∃ phase, s'.server.locals k = .refresh phase

structure Received (s s' : Session) (tokens : TokenPair) : Prop where
  sent : ∃ slot, s.refreshPromise = some slot ∧ issuedPair (s.server.locals slot) = some tokens
  server : s'.server = s.server
  store : s'.store.refreshToken = some tokens.refresh_token
  promise : s'.refreshPromise = none

theorem paged_same {s s' : Session} (server : s'.server = s.server) (store : s'.store = s.store ∨ s'.store = ⟨none,none⟩)
    (promise : s'.refreshPromise = s.refreshPromise ∨ s'.refreshPromise = none) : Paged browser s s' where
  shared := congrArg _ server
  sound sound := server ▸ sound
  slots k := .inl (by rw [server])
  store := store.imp (congrArg _) (congrArg AuthState.refreshToken)
  promise k here := by
    rcases promise with same | gone
    · exact .inl (same ▸ here)
    · rw [gone] at here; cases here

theorem paged_logout {s : Session} (idle : s.server.locals slot = .idle) : Paged browser s (s.posted slot (.logout (.requested request))) where
  shared := rfl
  sound sound := sound.posted rfl
  slots k := by
    rw [posted_locals]
    split
    · rename_i own; exact .inr ⟨own ▸ idle,rfl,nofun⟩
    · exact .inl rfl
  store := .inl rfl
  promise k here := .inl here

theorem paged_refresh {s : Session} (idle : s.server.locals slot = .idle) (stored : s.store.refreshToken = some token) :
    Paged browser s {s.posted slot (.refresh (.requested (browser.request token))) with refreshPromise := some slot} where
  shared := rfl
  sound sound := sound.posted rfl
  slots k := by
    dsimp only
    rw [posted_locals]
    split
    · rename_i own
      refine .inr ⟨own ▸ idle,rfl,fun other pending => ?_⟩
      cases pending
      exact stored
    · exact .inl rfl
  store := .inl rfl
  promise k here := by
    cases here
    exact .inr ⟨idle,_,by dsimp only; rw [posted_locals,if_pos rfl]⟩

theorem doFetch_paged (sent : doFetch browser s body slot = some (s',request)) : Paged browser s s' := by
  unfold doFetch at sent
  split at sent
  · cases sent
    exact paged_same rfl (.inl rfl) (.inl rfl)
  · obtain ⟨after,posted,equal⟩ := Option.map_eq_some_iff.mp sent
    cases equal
    obtain ⟨idle,rfl⟩ := post_parts posted
    exact paged_logout idle

theorem apiFetch_paged (acted : apiFetch browser body skipAuth s phase label = some (s',phase')) : Paged browser s s' := by
  cases fetch_change acted with
  | refresh _ stored _ posted =>
    obtain ⟨idle,rfl⟩ := post_parts posted
    exact paged_refresh idle stored
  | send sent => exact doFetch_paged sent
  | resend sent => exact doFetch_paged sent
  | _ => exact paged_same rfl (.inl rfl) (.inl rfl)

theorem act_paged (acted : BrowserSession.act browser s call label = some (s',call')) : Paged browser s s' := by
  unfold BrowserSession.act at acted
  split at acted
  · obtain ⟨phase,moved,rfl⟩ := lifted acted
    exact apiFetch_paged moved
  · split at acted <;> cases acted
    · exact paged_same rfl (.inl rfl) (.inl rfl)
    · exact paged_same rfl (.inr rfl) (.inl rfl)
  · obtain ⟨phase,moved,rfl⟩ := lifted acted
    exact apiFetch_paged moved
  · cases acted
    exact paged_same rfl (.inr rfl) (.inl rfl)
  · cases acted

theorem call_paged (moved : BrowserSession.advance browser s (.call n label) = some s') : Paged browser s s' := by
  obtain ⟨⟨after,call'⟩,acted,equal⟩ := Option.map_eq_some_iff.mp moved
  cases equal
  obtain ⟨shared,sound,slots,store,promise⟩ := act_paged acted
  exact ⟨shared,sound,slots,store,promise⟩

theorem refreshed_cases (browser : Browser) (moved : refreshed s outcome = some s') :
    outcome ≠ .answered ∧ Paged browser s s' ∨ outcome = .answered ∧ ∃ tokens, Received s s' tokens := by
  unfold refreshed at moved
  split at moved
  · cases moved
  · rename_i slot flying
    split at moved
    · rename_i request tokens exchanged
      cases moved
      exact .inr ⟨rfl,tokens,⟨slot,flying,by rw [exchanged]; rfl⟩,rfl,rfl,rfl⟩
    · cases moved
      exact .inl ⟨nofun,paged_same rfl (.inr rfl) (.inr rfl)⟩
    · cases moved
      exact .inl ⟨nofun,paged_same rfl (.inr rfl) (.inr rfl)⟩
    · cases moved

structure Shared (browser : Browser) (w : Window) : Prop where
  sound : Sound browser.security w.server
  promised : ∀ i k, (w.tabs i).refreshPromise = some k → ∃ phase, w.server.locals k = .refresh phase
  own : ∀ i j k, (w.tabs i).refreshPromise = some k → (w.tabs j).refreshPromise = some k → i = j
  stored : ∀ token, Holds w token → (w.server.shared.byHash (browser.security.hashOpaqueToken token)).isSome
  fair : Fair (race browser w)

-- A tab that another one has overtaken: nothing it has can be exchanged.
structure Overtaken (browser : Browser) (w : Window) (i : Nat) : Prop where
  dead : ∀ token, (w.tabs i).store.refreshToken = some token → ¬ Live w.server.shared (browser.security.hashOpaqueToken token)
  asked : ∀ k token, (w.tabs i).refreshPromise = some k → pendingToken (w.server.locals k) = some token →
    ¬ Live w.server.shared (browser.security.hashOpaqueToken token)
  refused : ∀ k, (w.tabs i).refreshPromise = some k → issuedPair (w.server.locals k) = none

theorem resume_self {w : Window} : (w.resume i persist s).tabs i = .ofSession s := Function.update_self _ _ _

theorem resume_other {w : Window} (other : j ≠ i) : (w.resume i persist s).tabs j = w.tabs j := Function.update_of_ne other _ _

-- A request that a page has not just sent was there before.
theorem paged_pending {w : Window} (paged : Paged browser (w.session i) s') (pending : pendingToken (s'.server.locals k) = some token) : Holds w token := by
  rcases paged.slots k with same | ⟨_,_,own⟩
  · exact .request k (same ▸ pending)
  · exact .tab i (own token pending)

theorem paged_issued {w : Window} (paged : Paged browser (w.session i) s') (issued : issuedPair (s'.server.locals k) = some tokens) :
    issuedPair (w.server.locals k) = some tokens := by
  rcases paged.slots k with same | ⟨_,silent,_⟩
  · exact same ▸ issued
  · rw [silent] at issued; cases issued

theorem paged_holds {w : Window} (paged : Paged browser (w.session i) s') (holds : Holds (w.resume i persist s') token) : Holds w token := by
  have mine (here : s'.store.refreshToken = some token) : Holds w token := by
    rcases paged.store with same | gone
    · exact .tab i (same.symm.trans here)
    · rw [gone] at here; cases here
  cases holds with
  | tab j here =>
    by_cases own : j = i
    · subst own
      rw [resume_self] at here
      exact mine here
    · rw [resume_other own] at here
      exact .tab j here
  | persisted here =>
    cases persist with
    | false => exact .persisted here
    | true => exact mine here
  | request k pending => exact paged_pending paged pending

theorem shared_paged {w : Window} (shared : Shared browser w) (paged : Paged browser (w.session i) s') : Shared browser (w.resume i persist s') := by
  have promises {j k : Nat} (here : ((w.resume i persist s').tabs j).refreshPromise = some k) :
      (w.tabs j).refreshPromise = some k ∨ j = i ∧ w.server.locals k = .idle ∧ ∃ phase, s'.server.locals k = .refresh phase := by
    by_cases own : j = i
    · subst own
      rw [resume_self] at here
      exact (paged.promise k here).imp id fun new => ⟨rfl,new⟩
    · rw [resume_other own] at here
      exact .inl here
  have busy {j k : Nat} (here : (w.tabs j).refreshPromise = some k) (idle : w.server.locals k = .idle) : False := by
    obtain ⟨phase,there⟩ := shared.promised j k here
    cases idle.symm.trans there
  refine ⟨paged.sound shared.sound,fun j k here => ?_,fun j l k left right => ?_,fun token holds => ?_,?_⟩
  · rcases promises here with before | ⟨_,_,new⟩
    · rcases paged.slots k with same | ⟨idle,_⟩
      · exact same.symm ▸ shared.promised j k before
      · exact (busy before idle).elim
    · exact new
  · rcases promises left with first | ⟨rfl,idle,_⟩ <;> rcases promises right with second | ⟨rfl,idle',_⟩
    · exact shared.own j l k first second
    · exact (busy first idle').elim
    · exact (busy second idle).elim
    · rfl
  · exact (congrArg (fun s : Store => (s.byHash _).isSome) paged.shared).trans (shared.stored token (paged_holds paged holds))
  · refine shared.fair.fade (fun h _ live => (congrArg (Live · h) paged.shared).mp live) (fun h ⟨token,holds,same⟩ => ⟨token,paged_holds paged holds,same⟩)
      fun j h ⟨k,tokens,here,issued,same⟩ => ?_
    have before := paged_issued paged issued
    rcases promises here with promise | ⟨_,idle,_⟩
    · exact ⟨k,tokens,promise,before,same⟩
    · rw [idle] at before
      cases before

theorem overtaken_paged {w : Window} (shared : Shared browser w) (overtaken : Overtaken browser w j) (paged : Paged browser (w.session i) s') :
    Overtaken browser (w.resume i persist s') j := by
  have keeps {h : Str} (dead : ¬ Live w.server.shared h) : ¬ Live (w.resume i persist s').server.shared h := fun live => dead (paged.shared ▸ live)
  by_cases own : j = i
  · subst own
    have mine {token : Str} (here : (w.tabs j).store.refreshToken = some token) := keeps (overtaken.dead token here)
    refine ⟨fun token here => ?_,fun k token here pending => ?_,fun k here => ?_⟩ <;> rw [resume_self] at here
    · rcases paged.store with same | gone
      · exact mine (same.symm.trans here)
      · rw [show (Tab.ofSession s').store.refreshToken = none from gone] at here; cases here
    · rcases paged.slots k with same | ⟨_,_,sent⟩
      · rcases paged.promise k here with before | ⟨idle,_⟩
        · exact keeps (overtaken.asked k token before (same ▸ pending))
        · have blank : pendingToken (w.server.locals k) = some token := same ▸ pending
          rw [show w.server.locals k = .idle from idle] at blank
          cases blank
      · exact mine (sent token pending)
    · cases issued : issuedPair ((w.resume j persist s').server.locals k) with
      | none => rfl
      | some tokens =>
        have before := paged_issued paged issued
        rcases paged.promise k here with promise | ⟨idle,_⟩
        · exact before.symm.trans (overtaken.refused k promise)
        · rw [show w.server.locals k = .idle from idle] at before
          cases before
  · refine ⟨fun token here => ?_,fun k token here pending => ?_,fun k here => ?_⟩ <;> rw [resume_other own] at here
    · exact keeps (overtaken.dead token here)
    · rcases paged.slots k with same | ⟨idle,_⟩
      · exact keeps (overtaken.asked k token here (same ▸ pending))
      · obtain ⟨phase,there⟩ := shared.promised j k here
        cases idle.symm.trans there
    · cases issued : issuedPair ((w.resume i persist s').server.locals k) with
      | none => rfl
      | some tokens => exact (paged_issued paged issued).symm.trans (overtaken.refused k here)

theorem received_holds {w : Window} (received : Received (w.session i) s' tokens) (holds : Holds (w.resume i persist s') token) :
    Holds w token ∨ token = tokens.refresh_token := by
  have mine (here : s'.store.refreshToken = some token) : token = tokens.refresh_token := Option.some.inj (here.symm.trans received.store)
  cases holds with
  | tab j here =>
    by_cases own : j = i
    · subst own
      rw [resume_self] at here
      exact .inr (mine here)
    · rw [resume_other own] at here
      exact .inl (.tab j here)
  | persisted here =>
    cases persist with
    | false => exact .inl (.persisted here)
    | true => exact .inr (mine here)
  | request k pending => exact .inl (.request k (congrArg (fun c : AuthService.Config => pendingToken (c.locals k)) received.server ▸ pending))

-- A tab receives its new tokens: whatever the others have is worth nothing.
theorem shared_received {w : Window} (shared : Shared browser w) (received : Received (w.session i) s' tokens) :
    Shared browser (w.resume i persist s') ∧ ∀ j, j ≠ i → Overtaken browser (w.resume i persist s') j := by
  obtain ⟨slot,flying,issued⟩ := received.sent
  have server : (w.resume i persist s').server = w.server := received.server
  have promises {j k : Nat} (here : ((w.resume i persist s').tabs j).refreshPromise = some k) :
      j ≠ i ∧ (w.tabs j).refreshPromise = some k := by
    by_cases own : j = i
    · subst own
      rw [resume_self] at here
      cases received.promise.symm.trans here
    · rw [resume_other own] at here
      exact ⟨own,here⟩
  obtain ⟨fair,dead⟩ := shared.fair.take (q := race browser (w.resume i persist s')) ⟨slot,tokens,flying,issued,rfl⟩
    (fun h live => (congrArg (fun c : AuthService.Config => Live c.shared h) server).mp live)
    (fun h ⟨token,holds,same⟩ => (received_holds received holds).imp (fun old => ⟨token,old,same⟩) fun new => by rw [← same,new])
    fun j h ⟨k,others,here,there,same⟩ =>
      ⟨(promises here).1,k,others,(promises here).2,congrArg (fun c : AuthService.Config => issuedPair (c.locals k)) server ▸ there,same⟩
  refine ⟨⟨server.symm ▸ shared.sound,fun j k here => ?_,fun j l k left right => shared.own j l k (promises left).2 (promises right).2,
    fun token holds => ?_,fair⟩,fun j other => ⟨fun token here => dead _ ⟨token,?_,rfl⟩,fun k token _ pending => dead _ ⟨token,?_,rfl⟩,
    fun k here => ?_⟩⟩
  · rw [server]
    exact shared.promised j k (promises here).2
  · rw [server]
    rcases received_holds received holds with old | rfl
    · exact shared.stored token old
    · exact shared.sound.born slot tokens issued
  · rw [resume_other other] at here
    exact .tab j here
  · rw [server] at pending
    exact .request k pending
  · rw [server]
    cases there : issuedPair (w.server.locals k) with
    | none => rfl
    | some others => exact absurd (shared.fair.alone j i _ _ ⟨k,others,(promises here).2,there,rfl⟩ ⟨slot,tokens,flying,issued,rfl⟩) other

-- What a step of the server does to the race.
structure Served (browser : Browser) (w next : Window) : Prop where
  fair : Fair (race browser next)
  dead : ∀ h, (race browser w).known h → ¬ Live w.server.shared h → ¬ Live next.server.shared h
  issued : ∀ k tokens, issuedPair (next.server.locals k) = some tokens → issuedPair (w.server.locals k) = some tokens ∨
    ∃ token, pendingToken (w.server.locals k) = some token ∧ Live w.server.shared (browser.security.hashOpaqueToken token)

theorem server_holds {browser : Browser} {w : Window} (moved : Interleave.Step (AuthService.act browser.security) w.server label server)
    (holds : Holds {w with server := server} token) : Holds w token := by
  obtain ⟨acted,same⟩ := Interleave.step_parts moved
  cases holds with
  | tab i here => exact .tab i here
  | persisted here => exact .persisted here
  | request k pending =>
    by_cases own : k = label.1
    · subst own
      exact .request _ (act_pending acted pending)
    · exact .request k (same k own ▸ pending)

theorem server_served {browser : Browser} {w : Window} (shared : Shared browser w)
    (moved : Interleave.Step (AuthService.act browser.security) w.server label server) : Served browser w {w with server := server} := by
  obtain ⟨acted,same⟩ := Interleave.step_parts moved
  have known (h : Str) (here : (race browser {w with server := server}).known h) : (race browser w).known h :=
    here.imp fun token both => ⟨server_holds moved both.1,both.2⟩
  rcases act_live (shared.sound.knows label.1) acted with ⟨kept,lives⟩ | ⟨token,tokens,pending,before,after,_,lives⟩
  · have pairs (k : Nat) : issuedPair (server.locals k) = issuedPair (w.server.locals k) := by
      by_cases own : k = label.1
      · subst own; exact kept
      · rw [same k own]
    refine ⟨shared.fair.fade (fun h _ live => (lives h live).1) known fun i h ⟨k,tokens,here,issued,hashed⟩ => ?_,
      fun h _ dead live => dead (lives h live).1,fun k tokens issued => .inl (pairs k ▸ issued)⟩
    exact ⟨k,tokens,here,pairs k ▸ issued,hashed⟩
  · obtain ⟨counts,mint⟩ := exchange_parts shared.sound acted after before pending
    have fresh : ¬ (race browser w).known (browser.security.hashOpaqueToken tokens.refresh_token) := by
      intro ⟨other,holds,equal⟩
      have there := shared.stored other holds
      rw [equal,shared.sound.unborn _ _ mint] at there
      cases there
    have pairs (k : Nat) (other : k ≠ label.1) : issuedPair (server.locals k) = issuedPair (w.server.locals k) := by rw [same k other]
    classical
    obtain ⟨fair,dead⟩ := shared.fair.trade (q := race browser {w with server := server}) ⟨token,.request _ pending,rfl⟩ counts fresh lives known
      (if found : ∃ i, (w.tabs i).refreshPromise = some label.1 then some found.choose else none)
      fun i h ⟨k,others,here,issued,hashed⟩ => by
        by_cases own : k = label.1
        · subst own
          have found : ∃ i, (w.tabs i).refreshPromise = some label.1 := ⟨i,here⟩
          rw [dif_pos found]
          exact .inr (congrArg some (shared.own _ i _ found.choose_spec here))
        · exact .inl ⟨k,others,here,pairs k own ▸ issued,hashed⟩
    refine ⟨fair,fun h here _ => dead h here,fun k others issued => ?_⟩
    by_cases own : k = label.1
    · subst own
      exact .inr ⟨token,pending,counts⟩
    · exact .inl (pairs k own ▸ issued)

theorem shared_server {browser : Browser} {w : Window} (shared : Shared browser w) (current : Current browser.security w.server label)
    (moved : Interleave.Step (AuthService.act browser.security) w.server label server) : Shared browser {w with server := server} := by
  obtain ⟨acted,same⟩ := Interleave.step_parts moved
  refine ⟨shared.sound.step current moved,fun i k here => ?_,shared.own,fun token holds => ?_,(server_served shared moved).fair⟩
  · obtain ⟨phase,there⟩ := shared.promised i k here
    by_cases own : k = label.1
    · subst own
      rw [there] at acted
      cases acts : server.locals label.1 with
      | refresh phase' => exact ⟨phase',rfl⟩
      | _ =>
        rw [acts] at acted
        unfold AuthService.act at acted
        split at acted
        · obtain ⟨_,_,equal⟩ := lifted acted; cases equal
        · rename_i phase _ other _
          cases other
        · cases acted
    · exact ⟨phase,(same k own).trans there⟩
  · exact byHash_grows (act_knows (shared.sound.knows label.1) acted).1 (shared.stored token (server_holds moved holds))

theorem overtaken_server {browser : Browser} {w : Window} (shared : Shared browser w) (overtaken : Overtaken browser w i)
    (moved : Interleave.Step (AuthService.act browser.security) w.server label server) : Overtaken browser {w with server := server} i := by
  have served := server_served shared moved
  obtain ⟨acted,same⟩ := Interleave.step_parts moved
  have before {k : Nat} {token : Str} (pending : pendingToken (server.locals k) = some token) : pendingToken (w.server.locals k) = some token := by
    by_cases own : k = label.1
    · subst own; exact act_pending acted pending
    · exact same k own ▸ pending
  refine ⟨fun token here => served.dead _ ⟨token,.tab i here,rfl⟩ (overtaken.dead token here),fun k token here pending => ?_,fun k here => ?_⟩
  · exact served.dead _ ⟨token,.request k (before pending),rfl⟩ (overtaken.asked k token here (before pending))
  · cases issued : issuedPair (server.locals k) with
    | none => rfl
    | some tokens =>
      rcases served.issued k tokens issued with old | ⟨token,pending,counts⟩
      · exact old.symm.trans (overtaken.refused k here)
      · exact absurd counts (overtaken.asked k token here pending)

theorem load_holds {w : Window} (holds : Holds {w with tabs := Function.update w.tabs i ⟨w.localStorage,none,resolved,calls⟩} token) :
    Holds w token := by
  cases holds with
  | tab j here =>
    by_cases own : j = i
    · subst own
      dsimp only at here
      rw [Function.update_self] at here
      exact .persisted here
    · dsimp only at here
      rw [Function.update_of_ne own] at here
      exact .tab j here
  | persisted here => exact .persisted here
  | request k pending => exact .request k pending

theorem shared_load {w : Window} (shared : Shared browser w) :
    Shared browser {w with tabs := Function.update w.tabs i ⟨w.localStorage,none,resolved,calls⟩} := by
  have promises {j k : Nat} (here : (Function.update w.tabs i ⟨w.localStorage,none,resolved,calls⟩ j).refreshPromise = some k) :
      (w.tabs j).refreshPromise = some k := by
    by_cases own : j = i
    · subst own
      rw [Function.update_self] at here
      cases here
    · rw [Function.update_of_ne own] at here
      exact here
  refine ⟨shared.sound,fun j k here => shared.promised j k (promises here),fun j l k left right => shared.own j l k (promises left) (promises right),
    fun token holds => shared.stored token (load_holds holds),shared.fair.fade (fun _ _ live => live) ?_ ?_⟩
  · exact fun h ⟨token,holds,same⟩ => ⟨token,load_holds holds,same⟩
  · exact fun j h ⟨k,tokens,here,rest⟩ => ⟨k,tokens,promises here,rest⟩

theorem setUser_holds {w : Window} (holds : Holds {w with localStorage := (w.tabs i).store} token) : Holds w token := by
  cases holds with
  | tab j here => exact .tab j here
  | persisted here => exact .tab i here
  | request k pending => exact .request k pending

theorem shared_step (shared : Shared browser w) (moved : within (Unraced browser) (Step browser) w label next) : Shared browser next := by
  obtain ⟨unraced,moved⟩ := moved
  cases label with
  | call i n label =>
    obtain ⟨s',acted,rfl⟩ := Option.map_eq_some_iff.mp moved
    exact shared_paged shared (call_paged acted)
  | refresh i outcome =>
    obtain ⟨s',acted,rfl⟩ := Option.map_eq_some_iff.mp moved
    rcases refreshed_cases browser acted with ⟨_,paged⟩ | ⟨_,tokens,received⟩
    · exact shared_paged shared paged
    · exact (shared_received shared received).1
  | server slot label =>
    obtain ⟨server,stepped,rfl⟩ := Option.map_eq_some_iff.mp moved
    exact shared_server shared unraced stepped
  | setUser i =>
    cases moved
    exact ⟨shared.sound,shared.promised,shared.own,fun token holds => shared.stored token (setUser_holds holds),
      shared.fair.fade (fun _ _ live => live) (fun h ⟨token,holds,same⟩ => ⟨token,setUser_holds holds,same⟩) fun _ _ coming => coming⟩
  | load i entries =>
    cases moved
    exact shared_load shared

-- A tab that is overtaken stays so until its page is loaded again.
theorem overtaken_step (shared : Shared browser w) (overtaken : Overtaken browser w i)
    (moved : within (Unraced browser) (Step browser) w label next) (stays : ∀ entries, label ≠ .load i entries) : Overtaken browser next i := by
  obtain ⟨_,moved⟩ := moved
  cases label with
  | call j n label =>
    obtain ⟨s',acted,rfl⟩ := Option.map_eq_some_iff.mp moved
    exact overtaken_paged shared overtaken (call_paged acted)
  | refresh j outcome =>
    obtain ⟨s',acted,rfl⟩ := Option.map_eq_some_iff.mp moved
    rcases refreshed_cases browser acted with ⟨_,paged⟩ | ⟨_,tokens,received⟩
    · exact overtaken_paged shared overtaken paged
    · refine (shared_received shared received).2 i fun own => ?_
      subst own
      obtain ⟨slot,flying,issued⟩ := received.sent
      cases (overtaken.refused slot flying).symm.trans issued
  | server slot label =>
    obtain ⟨server,stepped,rfl⟩ := Option.map_eq_some_iff.mp moved
    exact overtaken_server shared overtaken stepped
  | setUser j =>
    cases moved
    exact ⟨overtaken.dead,overtaken.asked,overtaken.refused⟩
  | load j entries =>
    cases moved
    have other : i ≠ j := fun own => stays entries (own ▸ rfl)
    have same : Function.update w.tabs j ⟨w.localStorage,none,fun _ => none,fun n => (entries n).call⟩ i = w.tabs i := Function.update_of_ne other _ _
    exact ⟨fun token here => overtaken.dead token (same ▸ here),fun k token here => overtaken.asked k token (same ▸ here),
      fun k here => overtaken.refused k (same ▸ here)⟩

-- A signed-in browser with no request under way.
structure Opening (browser : Browser) (w : Window) : Prop where
  slots : ∀ k, w.server.locals k = .idle
  landed : ∀ i, (w.tabs i).refreshPromise = none
  session : ∃ token, (w.server.shared.byHash (browser.security.hashOpaqueToken token)).isSome ∧
    (∀ other, w.localStorage.refreshToken = some other → other = token) ∧ ∀ i other, (w.tabs i).store.refreshToken = some other → other = token

theorem opening_shared (opening : Opening browser w) : Shared browser w := by
  obtain ⟨slots,landed,token,there,persisted,tabs⟩ := opening
  have only (other : Str) (holds : Holds w other) : other = token := by
    cases holds with
    | tab i here => exact tabs i other here
    | persisted here => exact persisted other here
    | request k pending => rw [slots k] at pending; cases pending
  have fresh (k : Nat) : Activity.fresh (w.server.locals k) = true := by rw [slots k]; rfl
  refine ⟨⟨fun k => fresh_knows (fresh k),fun k row updates => ?_,⟨fun k request row rotates => ?_,fun i j left right done => ?_⟩,
    fun k h mints => ?_,fun j k h mints => ?_,fun k tokens issued => ?_⟩,fun i k here => ?_,fun i j k here => ?_,fun other holds => ?_,⟨?_,?_,?_⟩⟩
  · rw [slots k] at updates; cases updates
  · rw [slots k] at rotates; cases rotates
  · rw [slots i] at done; cases done
  · rw [slots k] at mints; cases mints
  · rw [slots j] at mints; cases mints
  · rw [slots k] at issued; cases issued
  · rw [landed i] at here; cases here
  · rw [landed i] at here; cases here
  · rw [only other holds]; exact there
  · rintro a b ⟨first,one,rfl⟩ ⟨second,two,rfl⟩ _ _
    rw [only first one,only second two]
  · rintro i a b ⟨k,tokens,here,_⟩
    rw [landed i] at here; cases here
  · rintro i j a b ⟨k,tokens,here,_⟩
    rw [landed i] at here; cases here

theorem runs_shared (path : Runs (within (Unraced browser) (Step browser)) start labels w) (opening : Opening browser start) : Shared browser w :=
  path.preserves (opening_shared opening) fun _ _ _ shared moved => shared_step shared moved

-- Once a tab has received new tokens, no other tab is served a refresh until its
-- page is loaded again, however their requests overlap.
theorem last_refresh_wins (browser : Browser) (start before after w : Window) (earlier later : List Label) (winner i : Nat)
    (opening : Opening browser start) (path : Runs (within (Unraced browser) (Step browser)) start earlier before)
    (received : Step browser before (.refresh winner .answered) after) (rest : Runs (within (Unraced browser) (Step browser)) after later w)
    (other : i ≠ winner) (stays : ∀ entries, .load i entries ∉ later) :
    (∀ token, (w.tabs i).store.refreshToken = some token → ¬ Live w.server.shared (browser.security.hashOpaqueToken token)) ∧
      ∀ next, ¬ Step browser w (.refresh i .answered) next := by
  have shared := runs_shared path opening
  obtain ⟨s',answered,rfl⟩ := Option.map_eq_some_iff.mp received
  rcases refreshed_cases browser answered with ⟨refused,_⟩ | ⟨_,tokens,arrived⟩
  · exact absurd rfl refused
  · obtain ⟨begun,others⟩ : Shared browser (before.resume winner true s') ∧
        ∀ j, j ≠ winner → Overtaken browser (before.resume winner true s') j := shared_received shared arrived
    have kept : Shared browser w ∧ Overtaken browser w i := by
      clear path received answered
      induction rest with
      | nil => exact ⟨begun,others i other⟩
      | snoc prior moved ih =>
        obtain ⟨held,behind⟩ := ih fun entries member => stays entries (List.mem_append_left _ member)
        refine ⟨shared_step held moved,overtaken_step held behind moved fun entries same => stays entries ?_⟩
        exact List.mem_append_right _ (same ▸ List.mem_singleton_self _)
    refine ⟨kept.2.dead,fun next again => ?_⟩
    obtain ⟨s'',served,rfl⟩ := Option.map_eq_some_iff.mp again
    rcases refreshed_cases browser served with ⟨refused,_⟩ | ⟨_,tokens,⟨slot,flying,issued⟩,_⟩
    · exact refused rfl
    · cases (kept.2.refused slot flying).symm.trans issued

-- Two tabs of one sign-in, each with an access token about to expire.
def twoTabs : Window where
  server := page.server
  localStorage := page.store
  tabs _ := .ofSession page

def atServer (steps : List (Nat × AuthService.Label)) : List Label := steps.map fun step => .server step.1 step.2

def bothAsk : List Label := [.call 0 0 (.fetch (.start 890000 0)),.call 1 0 (.fetch (.start 890000 1))] ++
  atServer (checkSteps 0 ++ rotateSteps 0 ⟨3⟩ "second")

def secondAsked : List Label := atServer [(1,.refresh .select),(1,.refresh (.check 61))]

def unracedTest (browser : Browser) (w : Window) : Label → Bool
  | .server slot label => currentTest browser.security w.server (slot,label)
  | _ => true

theorem unracedTest_sound (tested : unracedTest browser w label = true) : Unraced browser w label := by
  cases label with
  | server slot label => exact currentTest_sound tested
  | _ => trivial

theorem twoTabs_opening : Opening chrome twoTabs where
  slots _ := rfl
  landed _ := rfl
  session := ⟨"first".toList,by decide,fun _ here => (Option.some.inj here).symm,fun _ _ here => (Option.some.inj here).symm⟩

theorem second_tab_refused : ∃ w, (w.tabs 1).store.refreshToken = some "first".toList ∧
    ¬ Live w.server.shared (chrome.security.hashOpaqueToken "first".toList) ∧ ∀ next, ¬ Step chrome w (.refresh 1 .answered) next := by
  obtain ⟨w,path,stored⟩ := run_within (advance chrome) twoTabs (bothAsk ++ ([.refresh 0 .answered] ++ secondAsked)) (unracedTest chrome)
    (Unraced chrome) (fun w => (w.tabs 1).store.refreshToken == some "first".toList) (by decide +kernel) fun _ _ _ _ => unracedTest_sound
  obtain ⟨before,front,back⟩ := path.split _ _ rfl
  obtain ⟨after,answer,rest⟩ := back.split _ _ rfl
  have stays (entries : Nat → Entry) : Label.load 1 entries ∉ secondAsked := by simp [secondAsked,atServer]
  obtain ⟨dead,refused⟩ := last_refresh_wins chrome twoTabs before after w bothAsk secondAsked 0 1 twoTabs_opening front answer.of_single.2 rest nofun stays
  exact ⟨w,beq_iff_eq.mp stored,dead _ (beq_iff_eq.mp stored),refused⟩

end RagForge.TabSessions
