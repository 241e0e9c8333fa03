import Mathlib.Logic.Function.Basic

namespace Redis

-- Integer keys with a time to live, on one clock. A key whose time is over is
-- gone for every command.
structure Counter where
  value : Nat
  expires_at : Option Nat
  deriving DecidableEq

structure Server (K : Type) where
  now : Nat
  counters : K → Option Counter

variable {K : Type} {s : Server K}

def Counter.Live (c : Counter) (now : Nat) : Prop := ∀ e ∈ c.expires_at, now < e

instance (c : Counter) (now : Nat) : Decidable (c.Live now) := by
  unfold Counter.Live
  infer_instance

def Server.get (s : Server K) (key : K) : Option Counter := (s.counters key).filter fun c => c.Live s.now

def Server.elapse (s : Server K) (ticks : Nat) : Server K := {s with now := s.now + ticks}

-- The counter stands at n or above and is still there at any time before t.
def Server.Holds (s : Server K) (key : K) (n t : Nat) : Prop :=
  ∃ c, s.counters key = some c ∧ n ≤ c.value ∧ ∀ e ∈ c.expires_at, t ≤ e

theorem Server.Holds.get (held : s.Holds key n t) (early : s.now < t) : ∃ c, s.get key = some c ∧ n ≤ c.value ∧ ∀ e ∈ c.expires_at, t ≤ e := by
  obtain ⟨c,stored,reached,late⟩ := held
  have live : c.Live s.now := fun e member => Nat.lt_of_lt_of_le early (late e member)
  exact ⟨c,by simp [Server.get,stored,live],reached,late⟩

variable [DecidableEq K]

-- INCR: a key that is not there counts as 0 and gets no time to live.
def Server.incr (s : Server K) (key : K) : Server K × Nat :=
  let c := (s.get key).getD ⟨0,none⟩
  ({s with counters := Function.update s.counters key (some {c with value := c.value + 1})},c.value + 1)

-- EXPIRE with a time to live in clock ticks.
def Server.expire (s : Server K) (key : K) (ttl : Nat) : Server K :=
  match s.get key with
  | none => s
  | some c => {s with counters := Function.update s.counters key (some {c with expires_at := some (s.now + ttl)})}

@[simp] theorem Server.incr_now : (s.incr key).1.now = s.now := rfl

@[simp] theorem Server.expire_now : (s.expire key ttl).now = s.now := by
  unfold Server.expire; split <;> rfl

-- INCR leaves every time to live as it was; EXPIRE sets one.
theorem Server.incr_expiry (stored : (s.incr key).1.counters other = some c) (member : e ∈ c.expires_at) :
    ∃ old, s.counters other = some old ∧ e ∈ old.expires_at := by
  unfold Server.incr at stored
  by_cases same : other = key
  · subst same
    simp only [Function.update_self,Option.some.injEq] at stored
    subst stored
    cases found : s.get other with
    | none => rw [found] at member; cases member
    | some old =>
      rw [found] at member
      exact ⟨old,Option.eq_some_of_filter_eq_some found,member⟩
  · exact ⟨c,(Function.update_of_ne same _ _).symm.trans stored,member⟩

theorem Server.expire_expiry (stored : (s.expire key ttl).counters other = some c) (member : e ∈ c.expires_at) :
    (∃ old, s.counters other = some old ∧ e ∈ old.expires_at) ∨ other = key ∧ e = s.now + ttl := by
  unfold Server.expire at stored
  split at stored
  · exact .inl ⟨c,stored,member⟩
  · by_cases same : other = key
    · subst same
      simp only [Function.update_self,Option.some.injEq] at stored
      subst stored
      exact .inr ⟨rfl,(Option.mem_some.mp member).symm⟩
    · exact .inl ⟨c,(Function.update_of_ne same _ _).symm.trans stored,member⟩

-- Before t a counter only goes up: the next value is above every value held.
theorem Server.Holds.incr (held : s.Holds other n t) (early : s.now < t) : (s.incr key).1.Holds other n t ∧
    (other = key → n < (s.incr key).2) := by
  obtain ⟨c,found,reached,late⟩ := held.get early
  by_cases same : other = key
  · subst same
    refine ⟨⟨_,Function.update_self _ _ _,?_,?_⟩,fun _ => ?_⟩
    · rw [found]; exact Nat.le_succ_of_le reached
    · rw [found]; exact late
    · unfold Server.incr; rw [found]; exact Nat.lt_succ_of_le reached
  · obtain ⟨c,stored,reached,late⟩ := held
    exact ⟨⟨c,(Function.update_of_ne same _ _).trans stored,reached,late⟩,fun equal => absurd equal same⟩

theorem Server.Holds.expire (held : s.Holds other n t) (long : other = key → t ≤ s.now + ttl) : (s.expire key ttl).Holds other n t := by
  unfold Server.expire
  split
  · exact held
  · rename_i c found
    by_cases same : other = key
    · subst same
      obtain ⟨c',stored,reached,late⟩ := held
      have equal : c' = c := Option.some.inj (stored.symm.trans (Option.eq_some_of_filter_eq_some found))
      subst equal
      exact ⟨_,Function.update_self _ _ _,reached,fun e member => Option.mem_some.mp member ▸ long rfl⟩
    · obtain ⟨c',stored,reached,late⟩ := held
      exact ⟨c',(Function.update_of_ne same _ _).trans stored,reached,late⟩

-- What INCR returns is held from then on, if what was there stays long enough.
theorem Server.holds_incr (late : ∀ c, s.counters key = some c → ∀ e ∈ c.expires_at, t ≤ e) :
    (s.incr key).1.Holds key (s.incr key).2 t := by
  refine ⟨_,Function.update_self _ _ _,Nat.le_refl _,?_⟩
  cases found : s.get key with
  | none => nofun
  | some c => exact late c (Option.eq_some_of_filter_eq_some found)

end Redis
