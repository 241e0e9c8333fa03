import RagForge.AuthService

namespace RagForge.TokenRaces
open RagForge AuthService Transition

-- The row of a token hash, once committed, is the one found for it ever after.
def Located (s : Store) (h : Str) (row : Uuid) : Prop := ∃ found, s.byHash h = some found ∧ found.id = row

def Spent (s : Store) (h : Str) : Prop := ∃ found, s.byHash h = some found ∧ found.revoked_at.isSome

-- Presented without ever having been generated: no row of it can appear.
def Unknown (s : Store) (h : Str) : Prop := s.byHash h = none ∧ h ∈ s.presented ∧ h ∉ s.generated

theorem byHash_commit {s : Store} : (s.commit row revoked_at issued).byHash h =
    ((s.byHash h).map (RefreshToken.revoke row revoked_at)).or (issued.find? (·.token_hash = h)) := by
  have same : (fun other : RefreshToken => decide (other.token_hash = h)) ∘ RefreshToken.revoke row revoked_at =
      fun other => decide (other.token_hash = h) := by
    funext other
    simp only [Function.comp_apply,RefreshToken.revoke_token_hash]
  unfold Store.commit Store.byHash
  rw [List.find?_append,List.find?_map,same]

-- What later stores keep of an earlier one.
structure Grows (s s' : Store) : Prop where
  located : ∀ h row, Located s h row → Located s' h row
  spent : ∀ h, Spent s h → Spent s' h
  unknown : ∀ h, Unknown s h → Unknown s' h
  generated : ∀ h ∈ s.generated, h ∈ s'.generated

theorem byHash_same {s s' : Store} (rows : s'.refresh_tokens = s.refresh_tokens) : s'.byHash h = s.byHash h := by
  unfold Store.byHash
  rw [rows]

theorem grows_same (same : Same s s') : Grows s s' where
  located h row := by unfold Located; rw [byHash_same same.rows]; exact fun found => found
  spent h := by unfold Spent; rw [byHash_same same.rows]; exact fun found => found
  unknown h := by unfold Unknown; rw [byHash_same same.rows,same.generated,same.presented]; exact fun found => found
  generated h member := same.generated ▸ member

theorem present_parts {s : Store} (presented : s.present h = some s') : s' = {s with presented := h :: s.presented} ∧
    (s.byHash h = none → h ∉ s.generated) := by
  unfold Store.present at presented
  split at presented
  · cases presented
  · rename_i known
    refine ⟨(Option.some.inj presented).symm,fun absent generated => known ⟨generated,?_⟩⟩
    rw [absent]
    rfl

theorem grows_present {s : Store} (presented : s.present h = some s') : Grows s s' := by
  rw [(present_parts presented).1]
  exact ⟨fun _ _ found => found,fun _ found => found,fun _ unknown => ⟨unknown.1,List.mem_cons_of_mem _ unknown.2.1,unknown.2.2⟩,
    fun _ member => member⟩

theorem generate_parts {s : Store} (generated : s.generate h = some s') : s' = {s with generated := h :: s.generated} ∧
    h ∉ s.presented ∧ s.byHash h = none := by
  unfold Store.generate at generated
  split at generated
  · cases generated
  · rename_i new
    refine ⟨(Option.some.inj generated).symm,fun presented => new (.inr (.inl presented)),?_⟩
    exact Option.not_isSome_iff_eq_none.mp fun stored => new (.inr (.inr stored))

theorem grows_generate {s : Store} (generated : s.generate h = some s') : Grows s s' := by
  obtain ⟨after,new,_⟩ := generate_parts generated
  rw [after]
  refine ⟨fun _ _ found => found,fun _ found => found,fun other unknown => ⟨unknown.1,unknown.2.1,fun member => ?_⟩,
    fun _ member => List.mem_cons_of_mem _ member⟩
  rcases List.mem_cons.mp member with rfl | old
  · exact new unknown.2.1
  · exact unknown.2.2 old

theorem grows_commit {s : Store} (known : ∀ row ∈ issued, row.token_hash ∈ s.generated) :
    Grows s ((s.commit row revoked_at issued).release i) where
  located h id' found := by
    obtain ⟨old,there,same⟩ := found
    exact ⟨_,(byHash_commit (s := s)).trans (by rw [there]; rfl),RefreshToken.revoke_id.trans same⟩
  spent h found := by
    obtain ⟨old,there,revoked⟩ := found
    exact ⟨_,(byHash_commit (s := s)).trans (by rw [there]; rfl),RefreshToken.revoke_revoked (.inr revoked)⟩
  unknown h unknown := by
    refine ⟨(byHash_commit (s := s)).trans ?_,unknown.2⟩
    rw [unknown.1]
    refine List.find?_eq_none.mpr fun row member => ?_
    simp only [decide_eq_true_eq]
    rintro rfl
    exact unknown.2.2 (known row member)
  generated _ member := member

-- A commit that revokes the row of a hash spends it.
theorem spent_commit {s : Store} (found : Located s h row) : Spent ((s.commit row revoked_at issued).release i) h := by
  obtain ⟨old,there,same⟩ := found
  exact ⟨_,(byHash_commit (s := s)).trans (by rw [there]; rfl),RefreshToken.revoke_revoked (.inl same)⟩

-- What each process knows of the row it has read.
def Knows (security : Security) (s : Store) : Activity → Prop
  | .refresh (.selected request (some row)) => Located s (security.presents request) row.id
  | .refresh (.checked request row) => Located s (security.presents request) row.id
  | .refresh (.authorized request row _) => Located s (security.presents request) row.id
  | .refresh (.updated request row _ _) => Located s (security.presents request) row.id
  | .refresh (.inserted request row _ issued tokens) => Located s (security.presents request) row.id ∧
      issued.token_hash ∈ s.generated ∧ issued.token_hash = security.hashOpaqueToken tokens.refresh_token
  | .refresh (.exchanged request _) => Spent s (security.presents request)
  | .logout (.selected request none) => Unknown s (security.presents request)
  | .logout (.selected request (some row)) => Located s (security.presents request) row.id ∧
      (row.revoked_at.isSome → Spent s (security.presents request))
  | .logout (.updated request row _) => Located s (security.presents request) row.id
  | .logout (.returned request) => Spent s (security.presents request) ∨ Unknown s (security.presents request)
  | _ => True

theorem knows_grows (grows : Grows s s') (knows : Knows security s a) : Knows security s' a := by
  unfold Knows at knows ⊢
  split at knows
  · exact grows.located _ _ knows
  · exact grows.located _ _ knows
  · exact grows.located _ _ knows
  · exact grows.located _ _ knows
  · exact ⟨grows.located _ _ knows.1,grows.generated _ knows.2.1,knows.2.2⟩
  · exact grows.spent _ knows
  · exact grows.unknown _ knows
  · exact ⟨grows.located _ _ knows.1,fun revoked => grows.spent _ (knows.2 revoked)⟩
  · exact grows.located _ _ knows
  · exact knows.imp (grows.spent _) (grows.unknown _)
  · exact knows

theorem located_of_present {s : Store} (presented : s.present h = some s') (found : s.byHash h = some row) : Located s' h row.id :=
  (grows_present presented).located h row.id ⟨row,found,rfl⟩

theorem unknown_of_present {s : Store} (presented : s.present h = some s') (absent : s.byHash h = none) : Unknown s' h := by
  obtain ⟨after,quiet⟩ := present_parts presented
  rw [after]
  exact ⟨absent,List.mem_cons_self,quiet absent⟩

-- A step lets the store grow and leaves its process with what it knows.
theorem act_knows (knows : Knows security s a) (acted : act security i s a label = some (s',a')) :
    Grows s s' ∧ Knows security s' a' := by
  cases act_change acted with
  | refresh change =>
    cases change with
    | @select request _ presented =>
      refine ⟨grows_present presented,?_⟩
      cases found : s.byHash (security.presents request) with
      | none => trivial
      | some row => exact located_of_present presented found
    | check => exact ⟨grows_same ⟨rfl,rfl,rfl⟩,knows⟩
    | user => exact ⟨grows_same ⟨rfl,rfl,rfl⟩,knows⟩
    | update locked => exact ⟨grows_same (same_lock locked),(grows_same (same_lock locked)).located _ _ knows⟩
    | insert generated same =>
      refine ⟨grows_generate generated,(grows_generate generated).located _ _ knows,?_,same⟩
      rw [(generate_parts generated).1]
      exact List.mem_cons_self
    | commit =>
      refine ⟨grows_commit fun row member => ?_,spent_commit knows.1⟩
      rw [List.mem_singleton.mp member]
      exact knows.2.1
    | stop => exact ⟨grows_same (same_release _ _),trivial⟩
  | logout change =>
    cases change with
    | @select request _ presented =>
      refine ⟨grows_present presented,?_⟩
      cases found : s.byHash (security.presents request) with
      | none => exact unknown_of_present presented found
      | some row =>
        exact ⟨located_of_present presented found,fun revoked => (grows_present presented).spent _ ⟨row,found,revoked⟩⟩
    | update locked => exact ⟨grows_same (same_lock locked),(grows_same (same_lock locked)).located _ _ knows.1⟩
    | @skip refresh_row request revoked =>
      have grows := grows_same (same_release s i)
      refine ⟨grows,?_⟩
      cases refresh_row with
      | none => exact .inr (grows.unknown _ knows)
      | some row => exact .inl (grows.spent _ (knows.2 (revoked row rfl)))
    | commit => exact ⟨grows_commit nofun,.inl (spent_commit knows)⟩
    | stop => exact ⟨grows_same (same_release _ _),trivial⟩

theorem knows_outline : Interleave.Outline (act security) (fun _ => True) (fun s _ a => Knows security s a) where
  own _ _ _ _ _ _ _ knows acted := ⟨trivial,(act_knows knows acted).2⟩
  others _ _ _ _ _ _ _ _ _ _ mine theirs acted := knows_grows (act_knows mine acted).1 theirs

def Activity.fresh : Activity → Bool
  | .idle => true
  | .refresh (.requested _) => true
  | .logout (.requested _) => true
  | _ => false

theorem fresh_knows (fresh : Activity.fresh a = true) : Knows security s a := by
  unfold Activity.fresh at fresh
  split at fresh <;> trivial

theorem runs_knows (path : Runs (Step security) start labels c) (fresh : ∀ i, Activity.fresh (start.locals i) = true) (i : Nat) :
    Knows security c.shared (c.locals i) :=
  (knows_outline.runs ⟨trivial,fun i => fresh_knows (fresh i)⟩ path).2 i

-- The row a process has updated and not yet committed.
def updating : Activity → Option RefreshToken
  | .refresh (.updated _ row _ _) => some row
  | .refresh (.inserted _ row _ _ _) => some row
  | .logout (.updated _ row _) => some row
  | _ => none

-- A refresh between its UPDATE and its commit, with the token presented.
def rotating : Activity → Option (RefreshRequest × RefreshToken)
  | .refresh (.updated request row _ _) => some (request,row)
  | .refresh (.inserted request row _ _ _) => some (request,row)
  | _ => none

def exchanged : Activity → Option RefreshRequest
  | .refresh (.exchanged request _) => some request
  | _ => none

theorem fresh_quiet (fresh : Activity.fresh a = true) : updating a = none ∧ rotating a = none ∧ exchanged a = none := by
  unfold Activity.fresh at fresh
  split at fresh
  · exact ⟨rfl,rfl,rfl⟩
  · exact ⟨rfl,rfl,rfl⟩
  · exact ⟨rfl,rfl,rfl⟩
  · cases fresh

theorem lock_parts {s : Store} (locked : s.lock row i = some s') :
    s'.locks row = some i ∧ ∀ other k, s.locks other = some k → s'.locks other = some k := by
  unfold Store.lock at locked
  split at locked
  · rename_i free
    cases locked
    refine ⟨Function.update_self _ _ _,fun other k held => ?_⟩
    refine (Function.update_of_ne ?_ _ _).trans held
    rintro rfl
    rw [free] at held
    cases held
  · rename_i holder held
    split at locked
    · rename_i mine
      cases locked
      exact ⟨mine ▸ held,fun _ _ held => held⟩
    · cases locked

theorem release_locks {s : Store} (other : k ≠ i) (held : s.locks row = some k) : (s.release i).locks row = some k := by
  unfold Store.release
  simp only [held,Option.some.injEq,other,if_false]

-- A step takes no lock away from another process, and has the lock of whatever
-- it goes on updating.
theorem act_locks (mine : ∀ row ∈ updating a, s.locks row.id = some i) (acted : act security i s a label = some (s',a')) :
    (∀ row k, k ≠ i → s.locks row = some k → s'.locks row = some k) ∧ ∀ row ∈ updating a', s'.locks row.id = some i := by
  cases act_change acted with
  | refresh change =>
    cases change with
    | select presented =>
      rw [(present_parts presented).1]
      exact ⟨fun _ _ _ held => held,nofun⟩
    | check => exact ⟨fun _ _ _ held => held,nofun⟩
    | user => exact ⟨fun _ _ _ held => held,nofun⟩
    | update locked =>
      refine ⟨fun other k _ held => (lock_parts locked).2 other k held,fun row updates => ?_⟩
      cases updates
      exact (lock_parts locked).1
    | insert generated _ =>
      rw [(generate_parts generated).1]
      exact ⟨fun _ _ _ held => held,mine⟩
    | commit => exact ⟨fun _ _ other held => release_locks other held,nofun⟩
    | stop => exact ⟨fun _ _ other held => release_locks other held,nofun⟩
  | logout change =>
    cases change with
    | select presented =>
      rw [(present_parts presented).1]
      exact ⟨fun _ _ _ held => held,nofun⟩
    | update locked =>
      refine ⟨fun other k _ held => (lock_parts locked).2 other k held,fun row updates => ?_⟩
      cases updates
      exact (lock_parts locked).1
    | skip => exact ⟨fun _ _ other held => release_locks other held,nofun⟩
    | commit => exact ⟨fun _ _ other held => release_locks other held,nofun⟩
    | stop => exact ⟨fun _ _ other held => release_locks other held,nofun⟩

theorem locks_outline : Interleave.Outline (act security) (fun _ => True) (fun s i a => ∀ row ∈ updating a, s.locks row.id = some i) where
  own _ _ _ _ _ _ _ mine acted := ⟨trivial,(act_locks mine acted).2⟩
  others _ j _ _ _ _ _ _ other _ mine theirs acted row updates := (act_locks mine acted).1 row.id j other (theirs row updates)

theorem runs_locks (path : Runs (Step security) start labels c) (fresh : ∀ i, Activity.fresh (start.locals i) = true) (i : Nat) :
    ∀ row ∈ updating (c.locals i), c.shared.locks row.id = some i := by
  refine (locks_outline.runs ⟨trivial,fun i row updates => ?_⟩ path).2 i
  rw [(fresh_quiet (fresh i)).1] at updates
  cases updates

-- Only a commit changes rows, and it revokes the row its process has updated.
theorem act_rows (acted : act security i s a label = some (s',a')) : s'.refresh_tokens = s.refresh_tokens ∨
    ∃ row ∈ updating a, ∃ revoked_at issued, s' = (s.commit row.id revoked_at issued).release i := by
  cases act_change acted with
  | refresh change =>
    cases change with
    | select presented => rw [(present_parts presented).1]; exact .inl rfl
    | update locked => exact .inl (same_lock locked).rows
    | insert generated _ => rw [(generate_parts generated).1]; exact .inl rfl
    | commit => exact .inr ⟨_,rfl,_,_,rfl⟩
    | _ => exact .inl rfl
  | logout change =>
    cases change with
    | select presented => rw [(present_parts presented).1]; exact .inl rfl
    | update locked => exact .inl (same_lock locked).rows
    | commit => exact .inr ⟨_,rfl,_,_,rfl⟩
    | _ => exact .inl rfl

-- Revoking one row leaves the row of a hash as it was when that is another one.
theorem unspent_commit {s : Store} (found : Located s h row) (other : row ≠ revoked) (unspent : ¬ Spent s h) :
    ¬ Spent ((s.commit revoked revoked_at issued).release i) h := by
  obtain ⟨old,there,same⟩ := found
  rintro ⟨now,there',spent⟩
  have kept : (s.commit revoked revoked_at issued).byHash h = some old := by
    rw [byHash_commit,there,Option.map_some,RefreshToken.revoke,if_neg (same ▸ other)]
    rfl
  cases Option.some.inj (kept.symm.trans there')
  exact unspent ⟨old,there,spent⟩

theorem rotating_updating (rotates : rotating a = some (request,row)) : row ∈ updating a := by
  unfold rotating at rotates
  split at rotates <;> cases rotates <;> rfl

theorem rotating_located (knows : Knows security s a) (rotates : rotating a = some (request,row)) :
    Located s (security.presents request) row.id := by
  unfold rotating at rotates
  split at rotates <;> cases rotates
  · exact knows
  · exact knows.1

theorem exchanged_spent (knows : Knows security s a) (done : exchanged a = some request) : Spent s (security.presents request) := by
  unfold exchanged at done
  split at done <;> cases done
  exact knows

-- A refresh comes to rotate a token by its UPDATE, and to exchange it only by
-- the commit after that.
theorem act_rotating (acted : act security i s a label = some (s',a')) (rotates : rotating a' = some (request,row)) :
    s'.refresh_tokens = s.refresh_tokens ∧ (rotating a = some (request,row) ∨
      ∃ user now, a = .refresh (.authorized request row user) ∧ label = .refresh (.update now)) := by
  cases act_change acted with
  | refresh change =>
    cases change with
    | update locked =>
      cases rotates
      exact ⟨(same_lock locked).rows,.inr ⟨_,_,rfl,rfl⟩⟩
    | insert generated _ =>
      rw [(generate_parts generated).1]
      exact ⟨rfl,.inl rotates⟩
    | _ => cases rotates
  | logout => cases rotates

theorem act_exchanged (acted : act security i s a label = some (s',a')) (done : exchanged a' = some request) :
    ∃ row, rotating a = some (request,row) := by
  cases act_change acted with
  | refresh change =>
    cases change with
    | commit => cases done; exact ⟨_,rfl⟩
    | _ => cases done
  | logout => cases done

-- The UPDATE of a refresh finds the row as the check saw it: no commit has
-- revoked it in between.
def Current (security : Security) (c : Config) (label : Nat × Label) : Prop :=
  ∀ request row user now, c.locals label.1 = .refresh (.authorized request row user) → label.2 = .refresh (.update now) →
    ¬ Spent c.shared (security.presents request)

structure Exclusive (security : Security) (c : Config) : Prop where
  unspent : ∀ i request row, rotating (c.locals i) = some (request,row) → ¬ Spent c.shared (security.presents request)
  once : ∀ i j left right, exchanged (c.locals i) = some left → exchanged (c.locals j) = some right →
    security.presents left = security.presents right → i = j

theorem exclusive_step (exclusive : Exclusive security c) (knows : ∀ i, Knows security c.shared (c.locals i))
    (locks : ∀ i, ∀ row ∈ updating (c.locals i), c.shared.locks row.id = some i)
    (current : Current security c label) (moved : Step security c label next) : Exclusive security next := by
  obtain ⟨acted,same⟩ := Interleave.step_parts moved
  have done {j : Nat} {request : RefreshRequest} (finished : exchanged (next.locals j) = some request) :
      exchanged (c.locals j) = some request ∨ j = label.1 ∧ ∃ row, rotating (c.locals j) = some (request,row) := by
    by_cases equal : j = label.1
    · subst equal
      exact .inr ⟨rfl,act_exchanged acted finished⟩
    · exact .inl (same j equal ▸ finished)
  -- the process that commits had the only lock on an unrevoked row
  have clash {i j : Nat} {left right : RefreshRequest} {row : RefreshToken} (first : rotating (c.locals i) = some (left,row))
      (second : exchanged (c.locals j) = some right) : security.presents left ≠ security.presents right :=
    fun equal => exclusive.unspent i left row first (equal ▸ exchanged_spent (knows j) second)
  constructor
  · intro j request row rotates
    by_cases equal : j = label.1
    · subst equal
      obtain ⟨rows,before | ⟨user,now,phase,updates⟩⟩ := act_rotating acted rotates
      · unfold Spent
        rw [byHash_same rows]
        exact exclusive.unspent _ request row before
      · unfold Spent
        rw [byHash_same rows]
        exact current request row user now phase updates
    · rw [same j equal] at rotates
      have before := exclusive.unspent j request row rotates
      rcases act_rows acted with rows | ⟨revoked,updates,revoked_at,issued,after⟩
      · unfold Spent
        rw [byHash_same rows]
        exact before
      · rw [after]
        refine unspent_commit (rotating_located (knows j) rotates) (fun shared => equal ?_) before
        have mine := locks j row (rotating_updating rotates)
        rw [shared,locks label.1 revoked updates] at mine
        exact (Option.some.inj mine).symm
  · intro i j left right first second equal
    rcases done first with one | ⟨rfl,row,one⟩
    · rcases done second with two | ⟨rfl,row,two⟩
      · exact exclusive.once i j left right one two equal
      · exact absurd equal.symm (clash two one)
    · rcases done second with two | ⟨rfl,_⟩
      · exact absurd equal (clash one two)
      · rfl

theorem runs_exclusive (path : Runs (within (Current security) (Step security)) start labels c)
    (fresh : ∀ i, Activity.fresh (start.locals i) = true) : Exclusive security c := by
  refine path.history (fun _ c => Exclusive security c) ⟨fun i request row rotates => ?_,fun i j left right done => ?_⟩ ?_
  · rw [(fresh_quiet (fresh i)).2.1] at rotates
    cases rotates
  · rw [(fresh_quiet (fresh i)).2.2] at done
    cases done
  · intro labels c label next prior exclusive moved
    exact exclusive_step exclusive (runs_knows prior.unguarded fresh) (runs_locks prior.unguarded fresh) moved.1 moved.2

-- What a returned logout leaves of the token it presented.
def Retired (s : Store) (h : Str) : Prop := Spent s h ∨ Unknown s h

-- A refresh of a retired token from its request on.
def Blocked (security : Security) (h : Str) : Activity → Prop
  | .refresh (.requested request) => security.presents request = h
  | .refresh (.selected _ refresh_row) => ∀ row ∈ refresh_row, row.revoked_at.isSome
  | .refresh (.failed _) => True
  | _ => False

theorem act_blocked (retired : Retired s h) (blocked : Blocked security h a) (acted : act security i s a label = some (s',a')) :
    Blocked security h a' := by
  cases act_change acted with
  | refresh change =>
    cases change with
    | select =>
      intro row found
      rcases retired with ⟨spent,found',revoked⟩ | ⟨absent,_⟩
      · rw [← blocked,found] at found'
        cases found'
        exact revoked
      · rw [← blocked,found] at absent
        cases absent
    | check active =>
      have revoked := blocked _ rfl
      rw [Option.isNone_iff_eq_none.mp (Bool.and_eq_true_iff.mp active).1] at revoked
      cases revoked
    | stop => trivial
    | _ => cases blocked
  | logout => cases blocked

theorem blocked_outline : Interleave.Outline (act security) (fun s => Retired s h)
    (fun s j a => Knows security s a ∧ (j = i → Blocked security h a)) where
  own _ _ _ _ _ _ retired mine acted :=
    have learnt := act_knows mine.1 acted
    ⟨retired.imp (learnt.1.spent h) (learnt.1.unknown h),learnt.2,fun equal => act_blocked retired (mine.2 equal) acted⟩
  others _ _ _ _ _ _ _ _ _ _ mine theirs acted := ⟨knows_grows (act_knows mine.1 acted).1 theirs.1,theirs.2⟩

-- A refresh that has not begun when the logout has returned never exchanges.
theorem runs_after_logout (before : Runs (Step security) start earlier b) (fresh : ∀ i, Activity.fresh (start.locals i) = true)
    (after : Runs (Step security) b later c) (returned : b.locals k = .logout (.returned gone))
    (waiting : b.locals i = .refresh (.requested request)) (same : request.refresh_token = gone.refresh_token) :
    exchanged (c.locals i) = none := by
  have knows := runs_knows before fresh
  have retired : Retired b.shared (security.presents gone) := by
    have left := knows k
    rw [returned] at left
    exact left
  have blocked : Blocked security (security.presents gone) (b.locals i) := by
    rw [waiting]
    exact congrArg security.hashOpaqueToken same
  have ends := ((blocked_outline (i := i)).runs ⟨retired,fun j => ⟨knows j,fun equal => equal ▸ blocked⟩⟩ after).2 i
  unfold exchanged
  split
  · rename_i phase
    exact absurd (ends.2 rfl) (by rw [phase]; exact id)
  · rfl

-- Every refresh token is exchanged at most once, and never by a request that
-- starts after a logout presenting it has returned.
structure SingleUse (security : Security) (start : Config) (labels : List (Nat × Label)) (c : Config) : Prop where
  once : ∀ i j left right, exchanged (c.locals i) = some left → exchanged (c.locals j) = some right →
    left.refresh_token = right.refresh_token → i = j
  logged_out : ∀ b k i gone request, Passes (Step security) start labels c b → b.locals k = .logout (.returned gone) →
    b.locals i = .refresh (.requested request) → request.refresh_token = gone.refresh_token → exchanged (c.locals i) = none

theorem current_runs_single_use (security : Security) (start c : Config) (labels : List (Nat × Label))
    (fresh : ∀ i, Activity.fresh (start.locals i) = true)
    (path : Runs (within (Current security) (Step security)) start labels c) : SingleUse security start labels c where
  once i j left right first second same :=
    (runs_exclusive path fresh).once i j left right first second (congrArg security.hashOpaqueToken same)
  logged_out b k i gone request passed returned waiting same := by
    obtain ⟨earlier,later,_,before,after⟩ := passed
    exact runs_after_logout before fresh after returned waiting same

def sha256 : Security where
  hashOpaqueToken raw :=
    if raw = "first".toList then "a7937b64b8caa58f03721bb6bacf5c78cb235febe0e70b1b84cd99541461a08e".toList
    else if raw = "second".toList then "16367aacb67a4a017c8da8ab95682ccb390863780f7114dda0a0e0c55644c7c4".toList
    else if raw = "third".toList then "b1e99324505bd32da0e1f85dcf5e19a09db0481e8a15f62c41eb320304a8e927".toList
    else raw

def presenting (raw : String) : RefreshRequest := ⟨raw.toList,none,none⟩

-- One signed-in user, three requests for the token of the login and a logout
-- and a refresh for the token of the first rotation.
def signedIn : Config where
  shared := {
    users := [⟨⟨1⟩,"a@b.c".toList,"hash".toList,true,false⟩],
    refresh_tokens := [⟨⟨2⟩,⟨1⟩,sha256.hashOpaqueToken "first".toList,none,none,2592000,none⟩],
    locks := fun _ => none,generated := [],presented := []}
  locals := fun
    | 0 => .refresh (.requested (presenting "first"))
    | 1 => .refresh (.requested (presenting "first"))
    | 2 => .refresh (.requested (presenting "first"))
    | 3 => .logout (.requested (presenting "second"))
    | 4 => .refresh (.requested (presenting "second"))
    | _ => .idle

theorem signedIn_fresh (i : Nat) : Activity.fresh (signedIn.locals i) = true := by
  unfold signedIn; dsimp only; split <;> rfl

def checkSteps (i : Nat) : List (Nat × Label) := [(i,.refresh .select),(i,.refresh (.check 60)),(i,.refresh .user)]

def rotateSteps (i : Nat) (row_id : Uuid) (raw_refresh : String) : List (Nat × Label) :=
  [(i,.refresh (.update 60)),(i,.refresh (.insert row_id raw_refresh.toList "jwt".toList 60)),(i,.refresh .commit)]

def currentTest (security : Security) (c : Config) (label : Nat × Label) : Bool :=
  match c.locals label.1 with
  | .refresh (.authorized request _ _) => (c.shared.byHash (security.presents request)).all (·.revoked_at.isNone)
  | _ => true

theorem currentTest_sound (tested : currentTest security c label = true) : Current security c label := by
  rintro request row user now phase _ ⟨found,there,revoked⟩
  unfold currentTest at tested
  rw [phase] at tested
  simp only [there,Option.all_some,Option.isNone_iff_eq_none] at tested
  rw [tested] at revoked
  cases revoked

-- Two refreshes pass the check together, but the second one gives up; a replay
-- and a refresh after the logout are refused.
def oneRotation : List (Nat × Label) := checkSteps 0 ++ checkSteps 1 ++ [(1,.refresh (.fails "OperationalError".toList))] ++
  rotateSteps 0 ⟨3⟩ "second" ++ [(2,.refresh .select),(2,.refresh (.check 61)),(3,.logout .select),(3,.logout (.update 62)),
    (3,.logout .commit),(4,.refresh .select),(4,.refresh (.check 63))]

theorem one_rotation_single_use : ∃ c, Runs (within (Current sha256) (Step sha256)) signedIn oneRotation c ∧
    (exchanged (c.locals 0)).isSome ∧ SingleUse sha256 signedIn oneRotation c := by
  obtain ⟨c,path,passed⟩ := run_within (Interleave.advance (act sha256)) signedIn oneRotation (currentTest sha256) (Current sha256)
    (fun c => (exchanged (c.locals 0)).isSome) (by decide +kernel) fun _ _ _ _ tested => currentTest_sound tested
  exact ⟨c,path,passed,current_runs_single_use sha256 signedIn c oneRotation signedIn_fresh path⟩

-- Both have passed the check when the first UPDATE takes the row lock; the second
-- waits for that commit and then revokes the row once more.
def twoRotations : List (Nat × Label) := checkSteps 0 ++ checkSteps 1 ++ rotateSteps 0 ⟨3⟩ "second" ++ rotateSteps 1 ⟨4⟩ "third"

theorem two_rotations_of_one_token : ¬ ∀ (security : Security) (start c : Config) (labels : List (Nat × Label)),
    (∀ i, Activity.fresh (start.locals i) = true) → Runs (Step security) start labels c → SingleUse security start labels c := by
  intro all
  obtain ⟨c,path,passed⟩ := run_any (Interleave.advance (act sha256)) signedIn twoRotations
    (fun c => (exchanged (c.locals 0)).any (·.refresh_token = "first".toList) &&
      (exchanged (c.locals 1)).any (·.refresh_token = "first".toList)) (by decide +kernel)
  obtain ⟨first,second⟩ := Bool.and_eq_true_iff.mp passed
  obtain ⟨left,one,leftToken⟩ := (Option.any_eq_true _ _).mp first
  obtain ⟨right,two,rightToken⟩ := (Option.any_eq_true _ _).mp second
  have same := (of_decide_eq_true leftToken).trans (of_decide_eq_true rightToken).symm
  cases (all sha256 signedIn c twoRotations signedIn_fresh path).once 0 1 left right one two same

end RagForge.TokenRaces
