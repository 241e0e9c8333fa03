import RagForge.RateLimit

namespace RagForge.Quota
open RateLimit Transition

variable {hash : Nat → Str → Int}

-- The keys of a window outlive it, and a counter is at least at every value it
-- has handed out in its window.
structure Sound (s : Shared) : Prop where
  lasting : ∀ client_key window c, s.redis.counters (redisKey client_key window) = some c →
    ∀ e ∈ c.expires_at, (window + 1) * minute ≤ e
  held : ∀ r ∈ s.receipts, r.Punctual → s.redis.now < (r.window + 1) * minute →
    s.redis.Holds r.key r.current ((r.window + 1) * minute)
  positive : ∀ r ∈ s.receipts, 1 ≤ r.current
  apart : s.receipts.Pairwise fun a b => a.key = b.key → a.Punctual → b.Punctual → a.current ≠ b.current

-- What a process knows: its own receipt, counted under the key of its request.
def Owns (hash : Nat → Str → Int) (s : Shared) (i server : Nat) (request : Request) (receipt : Receipt) : Prop :=
  receipt ∈ s.receipts ∧ receipt.owner = i ∧ receipt.client_key = identifyClient (hash server) request ∧
    receipt.window * minute ≤ s.redis.now

def Knows (hash : Nat → Str → Int) (limit : Nat) (s : Shared) (i : Nat) : Phase → Prop
  | .timed server request client_key window =>
    client_key = identifyClient (hash server) request ∧ window * minute ≤ s.redis.now
  | .counted server request receipt => Owns hash s i server request receipt
  | .checked server request receipt => Owns hash s i server request receipt
  | .forwarded server request (some receipt) => Owns hash s i server request receipt ∧ receipt.current ≤ limit
  | _ => True

-- What other processes can do to it.
structure Grows (s s' : Shared) : Prop where
  receipts : s.receipts ⊆ s'.receipts
  now : s.redis.now ≤ s'.redis.now

theorem Owns.grows (owns : Owns hash s i server request receipt) (grows : Grows s s') : Owns hash s' i server request receipt :=
  ⟨grows.receipts owns.1,owns.2.1,owns.2.2.1,owns.2.2.2.trans grows.now⟩

theorem knows_grows (knows : Knows hash limit s i phase) (grows : Grows s s') : Knows hash limit s' i phase := by
  unfold Knows at knows ⊢
  split at knows
  · exact ⟨knows.1,knows.2.trans grows.now⟩
  · exact knows.grows grows
  · exact knows.grows grows
  · exact ⟨knows.1.grows grows,knows.2⟩
  · trivial

theorem sound_tick (sound : Sound s) : Sound {s with redis := s.redis.elapse ticks} where
  lasting := sound.lasting
  held r member punctual early := sound.held r member punctual (Nat.lt_of_le_of_lt (Nat.le_add_right _ ticks) early)
  positive := sound.positive
  apart := sound.apart

theorem sound_incr (sound : Sound s) (i : Nat) (client_key : Str) (window : Nat) :
    Sound ⟨(s.redis.incr (redisKey client_key window)).1,
      ⟨i,client_key,window,(s.redis.incr (redisKey client_key window)).2,s.redis.now⟩ :: s.receipts⟩ where
  lasting other_key other c stored e member := by
    obtain ⟨old,before,there⟩ := Redis.Server.incr_expiry stored member
    exact sound.lasting other_key other old before e there
  held r member punctual early := by
    rcases List.mem_cons.mp member with rfl | old
    · exact Redis.Server.holds_incr fun c stored => sound.lasting client_key window c stored
    · exact ((sound.held r old punctual early).incr early).1
  positive r member := by
    rcases List.mem_cons.mp member with rfl | old
    · exact Nat.succ_le_succ (Nat.zero_le _)
    · exact sound.positive r old
  apart := by
    refine List.pairwise_cons.mpr ⟨fun r member same punctual theirs => ?_,sound.apart⟩
    have now : window = r.window := redisKey_window same
    have early : s.redis.now < (r.window + 1) * minute := now ▸ punctual
    exact Nat.ne_of_gt (((sound.held r member theirs early).incr early).2 same.symm)

theorem sound_expire (sound : Sound s) (begun : window * minute ≤ s.redis.now) :
    Sound {s with redis := s.redis.expire (redisKey client_key window) minute} where
  lasting other_key other c stored e member := by
    rcases Redis.Server.expire_expiry stored member with ⟨old,before,there⟩ | ⟨same,set_⟩
    · exact sound.lasting other_key other old before e there
    · rw [set_,redisKey_window same,Nat.succ_mul]
      exact Nat.add_le_add_right begun minute
  held r member punctual early := by
    rw [Redis.Server.expire_now] at early
    refine (sound.held r member punctual early).expire fun same => ?_
    have now : r.window = window := redisKey_window same
    rw [now,Nat.succ_mul]
    exact Nat.add_le_add_right begun minute
  positive := sound.positive
  apart := sound.apart

theorem decision_knows (owns : Owns hash s i server request receipt) :
    Knows hash limit s i (decision limit server request receipt) := by
  unfold decision
  split
  · trivial
  · rename_i within_
    exact ⟨owns,Nat.le_of_not_lt within_⟩

theorem act_sound (sound : Sound s) (knows : Knows hash limit s i phase) (acted : act hash limit i s phase label = some (s',phase')) :
    Sound s' ∧ Grows s s' ∧ Knows hash limit s' i phase' := by
  have still : Grows s s := ⟨List.Subset.refl _,Nat.le_refl _⟩
  unfold act at acted
  split at acted
  · rename_i ticks
    cases acted
    have later : Grows s {s with redis := s.redis.elapse ticks} := ⟨List.Subset.refl _,Nat.le_add_right _ ticks⟩
    exact ⟨sound_tick sound,later,knows_grows knows later⟩
  · split at acted
    · cases acted; exact ⟨sound,still,trivial⟩
    · cases acted; exact ⟨sound,still,rfl,Nat.div_mul_le_self _ _⟩
  · rename_i server request client_key window
    cases acted
    exact ⟨sound_incr sound i client_key window,⟨List.subset_cons_self _ _,Nat.le_refl _⟩,List.mem_cons_self,rfl,knows.1,knows.2⟩
  · rename_i server request receipt
    split at acted
    · cases acted
      have later : Grows s {s with redis := s.redis.expire receipt.key minute} :=
        ⟨List.Subset.refl _,Nat.le_of_eq Redis.Server.expire_now.symm⟩
      exact ⟨sound_expire sound knows.2.2.2,later,Owns.grows knows later⟩
    · cases acted
  · split at acted
    · cases acted
    · cases acted; exact ⟨sound,still,decision_knows knows⟩
  · cases acted; exact ⟨sound,still,decision_knows knows⟩
  all_goals first | (cases acted; exact ⟨sound,still,trivial⟩) | cases acted

theorem outline (hash : Nat → Str → Int) (limit : Nat) : Interleave.Outline (act hash limit) Sound (fun s i => Knows hash limit s i) where
  own _ _ _ _ _ _ sound knows acted := ⟨(act_sound sound knows acted).1,(act_sound sound knows acted).2.2⟩
  others _ _ _ _ _ _ _ _ _ sound mine theirs acted := knows_grows theirs (act_sound sound mine acted).2.1

-- One place of a window is one INCR.
theorem Sound.one_place (sound : Sound s) (first : a ∈ s.receipts) (second : b ∈ s.receipts) (key : a.key = b.key)
    (punctual : a.Punctual) (punctual' : b.Punctual) (equal : a.current = b.current) : a = b := by
  have : Std.Symm fun a b : Receipt => a.key = b.key → a.Punctual → b.Punctual → a.current ≠ b.current :=
    ⟨fun _ _ related same first second => (related same.symm second first).symm⟩
  by_contra different
  exact sound.apart.forall first second different key punctual punctual' equal

-- No request read yet, and no counter of an earlier time.
structure Opening (start : Config) : Prop where
  unread : ∀ i, ∃ server request, start.locals i = .received server request
  uncounted : start.shared.receipts = []
  empty : ∀ key, start.shared.redis.counters key = none

theorem Opening.holds (opening : Opening start) (hash : Nat → Str → Int) (limit : Nat) :
    Interleave.Holds Sound (fun s i => Knows hash limit s i) start := by
  refine ⟨⟨?_,?_,?_,?_⟩,fun i => ?_⟩
  · intro client_key window c stored
    rw [opening.empty] at stored
    cases stored
  · rw [opening.uncounted]; nofun
  · rw [opening.uncounted]; nofun
  · rw [opening.uncounted]; exact .nil
  · obtain ⟨server,request,unread⟩ := opening.unread i
    rw [unread]
    trivial

-- One client to the middleware: the same API key up to its first 16 characters;
-- without a key the same bearer token, hashed alike; without both one address.
def SameClient (hash : Nat → Str → Int) (server : Nat) (request : Request) (server' : Nat) (request' : Request) : Prop :=
  match request.apiKey,request'.apiKey with
  | some apiKey,some apiKey' => apiKey.take 16 = apiKey'.take 16
  | none,none => match request.bearer,request'.bearer with
    | some auth_header,some auth_header' => auth_header = auth_header' ∧ hash server auth_header = hash server' auth_header
    | none,none => request.client_host = request'.client_host
    | _,_ => False
  | _,_ => False

theorem SameClient.identified (same : SameClient hash server request server' request') :
    identifyClient (hash server) request = identifyClient (hash server') request' := by
  unfold SameClient at same
  unfold identifyClient
  split at same
  · rename_i keyed keyed'
    rw [keyed,keyed']
    exact congrArg ("key:".toList ++ ·) same
  · rename_i keyless keyless'
    rw [keyless,keyless']
    split at same
    · rename_i carried carried'
      obtain ⟨rfl,hashed⟩ := same
      rw [carried,carried']
      exact congrArg (fun value : Int => "token:".toList ++ Nat.toDigits 10 (value % 2 ^ 32).toNat) hashed
    · rename_i bare bare'
      rw [bare,bare',same]
    · exact same.elim
  · exact same.elim

-- Gone to the application, on a place taken in time in this client's window.
def Admitted (hash : Nat → Str → Int) (server : Nat) (request : Request) (window : Nat) (c : Config) (i : Nat) : Prop :=
  ∃ server' request' receipt, c.locals i = .forwarded server' request' (some receipt) ∧
    SameClient hash server request server' request' ∧ receipt.window = window ∧ receipt.Punctual

-- A client's places in a window are numbered, and each is given once.
theorem window_bounded (hash : Nat → Str → Int) (RATE_LIMIT_PER_MINUTE : Nat) (start c : Config) (labels : List (Nat × Label))
    (server : Nat) (request : Request) (window : Nat) (served : Finset Nat) (opening : Opening start)
    (path : Runs (Step hash RATE_LIMIT_PER_MINUTE) start labels c)
    (admitted : ∀ i ∈ served, Admitted hash server request window c i) : served.card ≤ RATE_LIMIT_PER_MINUTE := by
  obtain ⟨sound,knows⟩ := (outline hash RATE_LIMIT_PER_MINUTE).runs (opening.holds hash RATE_LIMIT_PER_MINUTE) path
  have place (i : Nat) (member : i ∈ served) : ∃ receipt ∈ c.shared.receipts, receipt.owner = i ∧
      receipt.key = redisKey (identifyClient (hash server) request) window ∧ receipt.Punctual ∧
      receipt.current ≤ RATE_LIMIT_PER_MINUTE := by
    obtain ⟨server',request',receipt,gone,same,rfl,punctual⟩ := admitted i member
    have mine := knows i
    rw [gone] at mine
    obtain ⟨⟨logged,owner,client_key,_⟩,allowed⟩ := mine
    exact ⟨receipt,logged,owner,by rw [Receipt.key,client_key,same.identified],punctual,allowed⟩
  choose receipt logged owner key punctual allowed using place
  have apart (i j : Nat) (mi : i ∈ served) (mj : j ∈ served) (equal : (receipt i mi).current = (receipt j mj).current) : i = j := by
    have one := sound.one_place (logged i mi) (logged j mj) ((key i mi).trans (key j mj).symm) (punctual i mi) (punctual j mj) equal
    rw [← owner i mi,one,owner j mj]
  calc served.card = served.attach.card := Finset.card_attach.symm
    _ ≤ (Finset.Icc 1 RATE_LIMIT_PER_MINUTE).card := Finset.card_le_card_of_injOn (fun i => (receipt i.1 i.2).current)
        (fun i _ => Finset.mem_Icc.mpr ⟨sound.positive _ (logged i.1 i.2),allowed i.1 i.2⟩)
        (fun i _ j _ equal => Subtype.ext (apart i.1 j.1 i.2 j.2 equal))
    _ = RATE_LIMIT_PER_MINUTE := by rw [Nat.card_Icc,Nat.add_sub_cancel]

-- Requests of one user on one machine, all sent to one process.
def fromUser (x_api_key : Option Str) : Request :=
  ⟨"/api/v1/chat".toList,x_api_key,some "Bearer abc".toList,some "10.0.0.1".toList⟩

def arriving (requests : Nat → Request) : Config := ⟨⟨⟨0,fun _ => none⟩,[]⟩,fun i => .received 0 (requests i)⟩

theorem arriving_opening (requests : Nat → Request) : Opening (arriving requests) :=
  ⟨fun i => ⟨0,requests i,rfl⟩,rfl,fun _ => rfl⟩

def first (i : Nat) : List (Nat × Label) := [(i,.identify),(i,.incr),(i,.expire),(i,.decide)]

def further (i : Nat) : List (Nat × Label) := [(i,.identify),(i,.incr),(i,.decide)]

theorem forall_pair {p : Nat → Prop} (zero : p 0) (one : p 1) : ∀ i ∈ ({0,1} : Finset Nat), p i := by
  intro i member
  rcases Finset.mem_insert.mp member with rfl | last
  · exact zero
  · exact Finset.mem_singleton.mp last ▸ one

def place (i : Nat) (request : Request) (window current counted_at : Nat) : Phase :=
  .forwarded 0 request (some ⟨i,identifyClient (fun _ => 0) request,window,current,counted_at⟩)

-- The third of three requests is refused.
theorem two_within_two : ∃ c, Runs (Step (fun _ _ => 0) 2) (arriving fun _ => fromUser none) (first 0 ++ further 1 ++ further 2) c ∧
    c.locals 2 = .limited ∧ (∀ i ∈ ({0,1} : Finset Nat), Admitted (fun _ _ => 0) 0 (fromUser none) 0 c i) ∧ ({0,1} : Finset Nat).card ≤ 2 := by
  obtain ⟨c,path,passed⟩ := run_any (Interleave.advance (act (fun _ _ => 0) 2)) (arriving fun _ => fromUser none)
    (first 0 ++ further 1 ++ further 2) (fun c => decide (c.locals 2 = .limited ∧ c.locals 0 = place 0 (fromUser none) 0 1 0 ∧
      c.locals 1 = place 1 (fromUser none) 0 2 0)) (by decide +kernel)
  obtain ⟨refused,zero,one⟩ := of_decide_eq_true passed
  have admitted : ∀ i ∈ ({0,1} : Finset Nat), Admitted (fun _ _ => 0) 0 (fromUser none) 0 c i :=
    forall_pair ⟨0,_,_,zero,⟨rfl,rfl⟩,rfl,by decide⟩ ⟨0,_,_,one,⟨rfl,rfl⟩,rfl,by decide⟩
  exact ⟨c,path,refused,admitted,window_bounded _ 2 _ c _ 0 _ 0 {0,1} (arriving_opening _) path admitted⟩

def rotating (i : Nat) : Request := fromUser (some (Nat.toDigits 10 i))

-- A new API key header with each request is a new client each time. A request
-- counted after its key has expired is counted from 1 again.
theorem rotated_and_late :
    (¬ ∀ (hash : Nat → Str → Int) (RATE_LIMIT_PER_MINUTE : Nat) (start c : Config) (labels : List (Nat × Label))
      (authorization client_host : Str) (window : Nat) (served : Finset Nat), Opening start →
      Runs (Step hash RATE_LIMIT_PER_MINUTE) start labels c → c.shared.redis.now / minute = window →
      (∀ i ∈ served, ∃ server request receipt, c.locals i = .forwarded server request (some receipt) ∧
        request.bearer = some authorization ∧ request.client_host = some client_host ∧ receipt.window = window) →
      served.card ≤ RATE_LIMIT_PER_MINUTE) ∧
    ¬ ∀ (hash : Nat → Str → Int) (RATE_LIMIT_PER_MINUTE : Nat) (start c : Config) (labels : List (Nat × Label))
      (server : Nat) (request : Request) (window : Nat) (served : Finset Nat), Opening start →
      Runs (Step hash RATE_LIMIT_PER_MINUTE) start labels c →
      (∀ i ∈ served, ∃ receipt, c.locals i = .forwarded server request (some receipt) ∧ receipt.window = window) →
      served.card ≤ RATE_LIMIT_PER_MINUTE := by
  constructor
  · intro all
    obtain ⟨c,path,passed⟩ := run_any (Interleave.advance (act (fun _ _ => 0) 1)) (arriving rotating) (first 0 ++ first 1)
      (fun c => decide (c.shared.redis.now / minute = 0 ∧ c.locals 0 = place 0 (rotating 0) 0 1 0 ∧ c.locals 1 = place 1 (rotating 1) 0 1 0))
      (by decide +kernel)
    obtain ⟨soon,zero,one⟩ := of_decide_eq_true passed
    refine absurd (all _ 1 _ c _ "Bearer abc".toList "10.0.0.1".toList 0 {0,1} (arriving_opening _) path soon ?_) (by decide)
    exact forall_pair ⟨0,_,_,zero,rfl,rfl,rfl⟩ ⟨0,_,_,one,rfl,rfl,rfl⟩
  · intro all
    obtain ⟨c,path,passed⟩ := run_any (Interleave.advance (act (fun _ _ => 0) 1)) (arriving fun _ => fromUser none)
      ((1,.identify) :: first 0 ++ [(0,.tick minute),(1,.incr),(1,.expire),(1,.decide)])
      (fun c => decide (c.locals 0 = place 0 (fromUser none) 0 1 0 ∧ c.locals 1 = place 1 (fromUser none) 0 1 minute))
      (by decide +kernel)
    obtain ⟨zero,one⟩ := of_decide_eq_true passed
    exact absurd (all _ 1 _ c _ 0 (fromUser none) 0 {0,1} (arriving_opening _) path (forall_pair ⟨_,zero,rfl⟩ ⟨_,one,rfl⟩)) (by decide)

end RagForge.Quota
