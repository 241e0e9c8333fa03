import RagForge.ApiClient

namespace RagForge.SingleFlight
open Transition ApiClient

-- `refreshPromise` names the one refresh that is under way, and while there is
-- none the stored token has not been sent yet. `known` are the tokens the server
-- has issued so far.
structure Inv (known : List Str) (tab : Tab) : Prop where
  sent_known : ∀ t ∈ tab.posted, t ∈ known
  stored_known : ∀ t ∈ tab.store.refreshToken, t ∈ known
  once : tab.posted.Nodup
  unsent : tab.refreshPromise = none → ∀ t ∈ tab.store.refreshToken, t ∉ tab.posted
  single : ∀ n refresh, tab.refreshes[n]? = some refresh → refresh.pending = true → tab.refreshPromise = some n

theorem Inv.widen (inv : Inv known tab) (more : known ⊆ known') : Inv known' tab :=
  {inv with sent_known := fun t member => more (inv.sent_known t member),stored_known := fun t member => more (inv.stored_known t member)}

-- Sending the stored token while nothing is under way.
theorem inv_post (inv : Inv known tab) (stored : tab.store.refreshToken = some refreshToken) (idle : tab.refreshPromise = none) :
    Inv known (tab.post refreshToken) := by
  have unsent := inv.unsent idle refreshToken stored
  have posted : (tab.post refreshToken).posted = tab.posted ++ [refreshToken] := List.map_append
  refine ⟨?_,inv.stored_known,?_,nofun,?_⟩
  · intro t member
    rcases List.mem_append.mp (posted ▸ member) with old | new
    · exact inv.sent_known t old
    · cases List.mem_singleton.mp new
      exact inv.stored_known refreshToken stored
  · rw [posted]
    exact List.nodup_append.mpr ⟨inv.once,List.pairwise_singleton _ _,fun a old b new equal => unsent (by
      rwa [← List.mem_singleton.mp new,← equal])⟩
  · intro n refresh found waiting
    by_cases old : n < tab.refreshes.length
    · have before : tab.refreshes[n]? = some refresh := (List.getElem?_append_left old).symm.trans found
      rw [inv.single n refresh before waiting] at idle
      cases idle
    · have bound := (List.getElem?_eq_some_iff.mp found).1
      rw [show (tab.post refreshToken).refreshes.length = tab.refreshes.length + 1 from List.length_append] at bound
      exact congrArg some (Nat.le_antisymm (Nat.le_of_not_lt old) (Nat.le_of_lt_succ bound))

-- A refresh keeps its token whatever becomes of it.
theorem map_set_same {refreshes : List Refresh} (found : refreshes[n]? = some refresh) (phase : RefreshPhase) :
    (refreshes.set n ⟨refresh.refreshToken,phase⟩).map Refresh.refreshToken = refreshes.map Refresh.refreshToken := by
  obtain ⟨bound,rfl⟩ := List.getElem?_eq_some_iff.mp found
  refine List.ext_getElem (by simp) fun i _ _ => ?_
  by_cases here : n = i
  · subst here
    simp
  · simp [List.getElem_set_ne here]

theorem inv_read (inv : Inv known tab) (found : tab.refreshes[n]? = some ⟨refreshToken,.fetching⟩) :
    Inv known {tab with refreshes := tab.refreshes.set n ⟨refreshToken,.reading⟩} := by
  have posted : Tab.posted {tab with refreshes := tab.refreshes.set n ⟨refreshToken,.reading⟩} = tab.posted := map_set_same found .reading
  refine ⟨posted ▸ inv.sent_known,inv.stored_known,posted ▸ inv.once,posted ▸ inv.unsent,?_⟩
  intro m refresh there waiting
  by_cases here : n = m
  · subst here
    exact inv.single n _ found rfl
  · exact inv.single m refresh ((List.getElem?_set_ne here).symm.trans there) waiting

-- The one refresh under way comes to its end, and with it the stored token changes.
theorem inv_settle (inv : Inv known tab) (found : tab.refreshes[n]? = some refresh) (waiting : refresh.pending = true)
    (fresh : ∀ t ∈ store.refreshToken, t ∈ known ∧ t ∉ tab.posted) : Inv known (tab.settle n refresh.refreshToken store token) := by
  have posted : (tab.settle n refresh.refreshToken store token).posted = tab.posted := map_set_same found (.settled token)
  refine ⟨posted ▸ inv.sent_known,fun t member => (fresh t member).1,posted ▸ inv.once,
    fun _ t member => posted ▸ (fresh t member).2,?_⟩
  intro m other there pending
  by_cases here : n = m
  · subst here
    obtain ⟨bound,_⟩ := List.getElem?_eq_some_iff.mp found
    cases (List.getElem?_set_self bound).symm.trans there
    cases pending
  · have first := inv.single n refresh found waiting
    rw [inv.single m other ((List.getElem?_set_ne here).symm.trans there) pending] at first
    exact absurd (Option.some.inj first).symm here

theorem inv_store (inv : Inv known tab) (fresh : ∀ t ∈ store.refreshToken, t ∈ known ∧ t ∉ tab.posted) :
    Inv known {tab with store := store} :=
  {inv with stored_known := fun t member => (fresh t member).1,unsent := fun _ t member => (fresh t member).2}

theorem inv_change (inv : Inv known tab) (change : Change tab label tab') (unissued : ∀ t ∈ label.issued, t ∉ known) :
    Inv (known ++ label.issued.toList) tab' := by
  have wide : Inv (known ++ label.issued.toList) tab := inv.widen (List.subset_append_left _ _)
  have fresh {tokens : TokenPair} (issues : label.tokens = some tokens) :
      ∀ t ∈ (setTokens tokens).refreshToken, t ∈ known ++ label.issued.toList ∧ t ∉ tab.posted := by
    intro t member
    have issued : label.issued = some t := by rw [Label.issued,issues]; exact member
    exact ⟨List.mem_append_right _ (issued ▸ List.mem_singleton_self t),fun sent => unissued t issued (inv.sent_known t sent)⟩
  cases change with
  | same => exact wide
  | post stored idle => exact inv_post wide stored idle
  | read found => exact inv_read wide found
  | settle found waiting stored =>
    refine inv_settle wide found waiting ?_
    rcases stored with rfl | ⟨tokens,issues,rfl⟩
    · nofun
    · exact fresh issues
  | setTokens issues => exact inv_store wide (fresh issues)
  | logout => exact inv_store wide nofun

-- The page has just been loaded: the store is what the browser has kept.
structure Opening (start : Client) : Prop where
  idle : start.tab.refreshPromise = none
  unsent : start.tab.refreshes = []

theorem Opening.inv (opening : Opening start) : Inv start.tab.store.refreshToken.toList start.tab := by
  obtain ⟨idle,unsent⟩ := opening
  have posted : start.tab.posted = [] := congrArg (List.map _) unsent
  refine ⟨?_,fun t member => Option.mem_toList.mpr member,?_,?_,?_⟩
  · rw [posted]; nofun
  · rw [posted]; exact .nil
  · rw [posted]; nofun
  · rw [unsent]; nofun

theorem runs_inv (path : Runs (Step decodeJwtExpiry) start labels c) (opening : Opening start)
    (distinct : (start.tab.store.refreshToken.toList ++ labels.filterMap Label.issued).Nodup) :
    Inv (start.tab.store.refreshToken.toList ++ labels.filterMap Label.issued) c.tab := by
  induction path with
  | nil => exact opening.inv.widen (List.subset_append_left _ _)
  | @snoc labels s label next prior moved ih =>
    have split : start.tab.store.refreshToken.toList ++ (labels ++ [label]).filterMap Label.issued =
        (start.tab.store.refreshToken.toList ++ labels.filterMap Label.issued) ++ label.issued.toList := by
      rw [List.filterMap_append,List.append_assoc]
      cases issued : label.issued <;> simp [issued]
    rw [split] at distinct ⊢
    obtain ⟨before,_,apart⟩ := List.nodup_append.mp distinct
    exact inv_change (ih before) (step_change moved) fun t issued member => apart t member t (Option.mem_toList.mpr issued) rfl

-- However the calls, the answers, the logins and the logouts fall, no refresh
-- token is sent a second time.
theorem posted_once (decodeJwtExpiry : Str → Option Int) (start c : Client) (labels : List Label) (opening : Opening start)
    (path : Runs (Step decodeJwtExpiry) start labels c)
    (distinct : (start.tab.store.refreshToken.toList ++ labels.filterMap Label.issued).Nodup) : c.tab.posted.Nodup :=
  (runs_inv path opening distinct).once

-- Two requests refused at once, and a stream that starts while the refresh they
-- share is still open.
def crowded : Client :=
  ⟨⟨⟨some "a0".toList,some "r0".toList⟩,none,[]⟩,fun i => if i = 2 then .stream .called else .fetch false .called⟩

def crowd : List Label :=
  [.call 0 (.start 0),.call 1 (.start 0),.call 0 .resume,.call 1 .resume,.call 1 (.respond 401),.call 0 (.respond 401),
    .refresh 0 .ok,.call 2 (.start 0),.refresh 0 (.tokens ⟨some "a1".toList,some "r1".toList⟩),.call 0 .resume,.call 1 .resume,
    .call 2 .resume,.call 3 (.start 0),.call 3 .resume,.call 3 (.respond 401)]

theorem crowd_posts_twice : ∃ c, Runs (Step fun _ => none) crowded crowd c ∧ c.tab.posted = ["r0".toList,"r1".toList] ∧
    c.tab.posted.Nodup := by
  obtain ⟨c,path,passed⟩ := run_any (advance fun _ => none) crowded crowd (fun c => c.tab.posted == ["r0".toList,"r1".toList]) (by decide +kernel)
  exact ⟨c,path,eq_of_beq passed,posted_once _ crowded c crowd ⟨rfl,rfl⟩ path (by decide +kernel)⟩

end RagForge.SingleFlight
