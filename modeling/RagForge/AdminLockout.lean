import RagForge.Accounts

namespace RagForge.AdminLockout
open Accounts Transition

-- Someone can use the admin panel.
def Governed (p : Platform) : Prop := ∃ user ∈ p.users, user.is_active = true ∧ user.is_superuser = true

-- A request past the check of its target does not take a flag from its caller.
def Guarded : Activity → Prop
  | .admin (.loaded admin update _) => ¬ (update.user_id = admin.id ∧ update.value = false)
  | .admin (.flushed admin update _) => ¬ (update.user_id = admin.id ∧ update.value = false)
  | _ => True

theorem act_guarded (guarded : Guarded a) (acted : act security i p a label = some (p',a')) : Guarded a' := by
  cases act_change acted with
  | admin change =>
    cases change with
    | load other _ => exact other
    | skip _ => exact guarded
    | flush _ _ => exact guarded
    | _ => trivial
  | _ => trivial

def fresh : Activity → Bool
  | .idle => true
  | .login (.requested _ _ _ _) => true
  | .refresh (.requested _) none => true
  | .logout (.requested _) => true
  | .admin (.received _ _) => true
  | .request (.received _) => true
  | _ => false

theorem fresh_guarded (begun : fresh a = true) : Guarded a := by
  unfold fresh at begun
  split at begun <;> trivial

-- A commit that takes a flag away has a caller who is, at that moment, still
-- active and superuser.
def Confirmed (c : Config) (label : Nat × Label) : Prop :=
  ∀ admin update, c.locals label.1 = .admin (.flushed admin update true) → label.2 = .admin .commit → update.value = false →
    ∃ row ∈ c.shared.users, row.id = admin.id ∧ row.is_active = true ∧ row.is_superuser = true

theorem row_grants {update : AdminUpdate} (grants : update.value = true) (active : user.is_active = true)
    (superuser : user.is_superuser = true) : (update.row user).is_active = true ∧ (update.row user).is_superuser = true := by
  unfold AdminUpdate.row
  split
  · cases flag : update.flag <;> simp [Flag.set,grants,active,superuser]
  · exact ⟨active,superuser⟩

theorem governed_step (governed : Governed c.shared) (guarded : Guarded (c.locals label.1))
    (moved : within Confirmed (Step security) c label next) : Governed next.shared := by
  obtain ⟨confirmed,moved⟩ := moved
  rcases act_users (Interleave.step_parts moved).1 with same | ⟨admin,update,writing,committing,written⟩
  · unfold Governed
    rw [same]
    exact governed
  · unfold Governed
    rw [written]
    cases value : update.value with
    | true =>
      obtain ⟨user,member,active,superuser⟩ := governed
      exact ⟨_,List.mem_map.mpr ⟨user,member,rfl⟩,row_grants value active superuser⟩
    | false =>
      obtain ⟨row,member,caller,active,superuser⟩ := confirmed admin update writing committing value
      rw [writing] at guarded
      -- the caller's own row is another one than the row written
      have other : row.id ≠ update.user_id := fun same => guarded ⟨same.symm.trans caller,value⟩
      refine ⟨update.row row,List.mem_map.mpr ⟨row,member,rfl⟩,?_⟩
      rw [AdminUpdate.row,if_neg other]
      exact ⟨active,superuser⟩

theorem panel_governed (security : Security) (start c : Config) (labels : List (Nat × Label))
    (governed : Governed start.shared) (begun : ∀ i, fresh (start.locals i) = true)
    (path : Runs (within Confirmed (Step security)) start labels c) : Governed c.shared := by
  refine path.history (fun _ c => Governed c.shared) governed fun _ s label next prior before moved => ?_
  have guarded := Interleave.Runs.local_stays label.1 Guarded (fun _ _ _ _ _ kept acted => act_guarded kept acted)
    prior.unguarded (fresh_guarded (begun label.1))
  exact governed_step before guarded moved

-- Two superusers, and a token that is its own payload.
def plain : Security where
  hashOpaqueToken token := token
  lower email := email
  verifyPassword password hashed := password = hashed
  decodeToken token _ := .ok ⟨some "access".toList,some token⟩

def panel : Config where
  shared := ⟨[⟨⟨1⟩,"ada@example.com".toList,"pw".toList,true,true⟩,⟨⟨2⟩,"bob@example.com".toList,"pw".toList,true,true⟩],
    fun _ => none,[],fun _ => none,[],[]⟩
  locals
    | 0 => .admin (.received (some (Uuid.str ⟨1⟩)) (updateUserActive ⟨2⟩ false))
    | 1 => .admin (.received (some (Uuid.str ⟨2⟩)) (updateUserSuperuser ⟨1⟩ false))
    | _ => .idle

theorem panel_fresh : ∀ i, fresh (panel.locals i) = true := by
  intro i
  match i with
  | 0 | 1 => rfl
  | _ + 2 => rfl

def updateSteps (i : Nat) : List (Nat × Label) :=
  [(i,.admin (.authenticate 0)),(i,.admin .load),(i,.admin .flush),(i,.admin .commit)]

-- Both are let in before either writes.
def crossing : List (Nat × Label) :=
  [(0,.admin (.authenticate 0)),(1,.admin (.authenticate 0)),(0,.admin .load),(1,.admin .load),
    (0,.admin .flush),(1,.admin .flush),(0,.admin .commit),(1,.admin .commit)]

def confirmed (c : Config) (label : Nat × Label) : Bool :=
  match c.locals label.1 with
  | .admin (.flushed admin _ true) => c.shared.users.any fun row => row.id == admin.id && row.is_active && row.is_superuser
  | _ => true

theorem confirmed_sound (passed : confirmed c label = true) : Confirmed c label := by
  intro admin update writing _ _
  unfold confirmed at passed
  rw [writing] at passed
  simpa [and_assoc] using passed

def powers (c : Config) : List (Bool × Bool) := c.shared.users.map fun user => (user.is_active,user.is_superuser)

theorem one_admin_left : ∃ c, Runs (within Confirmed (Step plain)) panel (updateSteps 0) c ∧ Governed c.shared ∧
    powers c = [(true,true),(false,true)] := by
  obtain ⟨c,path,left⟩ := run_within (Interleave.advance (act plain)) panel (updateSteps 0) confirmed Confirmed
    (fun c => decide (powers c = [(true,true),(false,true)])) (by decide +kernel) fun _ _ _ _ passed => confirmed_sound passed
  exact ⟨c,path,panel_governed plain panel c (updateSteps 0) ⟨_,List.mem_cons_self,rfl,rfl⟩ panel_fresh path,of_decide_eq_true left⟩

theorem admins_locked_out : ¬ ∀ (security : Security) (start c : Config) (labels : List (Nat × Label)),
    Governed start.shared → (∀ i, fresh (start.locals i) = true) → Runs (Step security) start labels c → Governed c.shared := by
  intro all
  obtain ⟨c,path,left⟩ := run_any (Interleave.advance (act plain)) panel crossing
    (fun c => decide (∀ user ∈ c.shared.users, ¬ (user.is_active = true ∧ user.is_superuser = true))) (by decide +kernel)
  obtain ⟨user,member,powerful⟩ := all plain panel c crossing ⟨_,List.mem_cons_self,rfl,rfl⟩ panel_fresh path
  exact of_decide_eq_true left user member powerful

end RagForge.AdminLockout
