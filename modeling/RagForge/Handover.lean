import Mathlib.Data.List.Nodup

-- Keys that wait in a queue or are in somebody's hands, each hand holding one
-- at most.
namespace Handover

structure Places (K : Type) where
  queue : List K
  hands : Nat → Option K

variable {K : Type} {p q : Places K} {i : Nat} {k : K}

def Out (p : Places K) (k : K) : Prop := k ∈ p.queue ∨ ∃ i, p.hands i = some k

-- Every key is out in one place at most.
structure Single (p : Places K) : Prop where
  queued : p.queue.Nodup
  apart : ∀ i k, p.hands i = some k → k ∉ p.queue
  alone : ∀ i j k, p.hands i = some k → p.hands j = some k → i = j

section moves
variable (others : ∀ j, j ≠ i → q.hands j = p.hands j)
include others

theorem back (free : q.hands i = none) (held : q.hands j = some k) : p.hands j = some k := by
  by_cases own : j = i
  · rw [own,free] at held
    cases held
  · rw [← others j own]
    exact held

-- A hand keeps what it holds or lets go of it.
theorem Single.keep (single : Single p) (queue : q.queue = p.queue) (less : q.hands i = p.hands i ∨ q.hands i = none) : Single q := by
  have before {j : Nat} {k : K} (held : q.hands j = some k) : p.hands j = some k := by
    rcases less with same | free
    · by_cases own : j = i
      · rw [own] at held ⊢
        rw [← same]
        exact held
      · rw [← others j own]
        exact held
    · exact back others free held
  exact ⟨queue ▸ single.queued,fun j k held => queue ▸ single.apart j k (before held),
    fun j l k left right => single.alone j l k (before left) (before right)⟩

-- A key that is still out has not left the hand.
theorem still_held (single : Single p) (queue : q.queue = p.queue) (held : p.hands i = some k) (out : Out q k) : q.hands i = some k := by
  rcases out with waits | ⟨j,mine⟩
  · exact absurd (queue ▸ waits) (single.apart i k held)
  · by_cases own : j = i
    · exact own ▸ mine
    · exact absurd (single.alone j i k ((others j own).symm.trans mine) held) own

theorem out_keep (queue : q.queue = p.queue) (less : q.hands i = p.hands i ∨ q.hands i = none) (out : Out q k) : Out p k := by
  rcases out with waits | ⟨j,held⟩
  · exact .inl (queue ▸ waits)
  · rcases less with same | free
    · by_cases own : j = i
      · exact .inr ⟨i,by rw [← same,← own]; exact held⟩
      · exact .inr ⟨j,by rw [← others j own]; exact held⟩
    · exact .inr ⟨j,back others free held⟩

theorem out_gain (queue : q.queue = p.queue) (gained : q.hands i = some k) (out : Out q other) : Out p other ∨ other = k := by
  rcases out with waits | ⟨j,held⟩
  · exact .inl (.inl (queue ▸ waits))
  · by_cases own : j = i
    · rw [own,gained] at held
      exact .inr (Option.some.inj held).symm
    · exact .inl (.inr ⟨j,by rw [← others j own]; exact held⟩)

-- What comes into a hand from outside must not be out already.
theorem single_gain_iff (single : Single p) (queue : q.queue = p.queue) (empty : p.hands i = none) (gained : q.hands i = some k) :
    Single q ↔ ¬ Out p k := by
  constructor
  · rintro after (waits | ⟨j,held⟩)
    · exact after.apart i k gained (queue ▸ waits)
    · have other : j ≠ i := fun own => by rw [own,empty] at held; cases held
      exact other (after.alone j i k ((others j other).trans held) gained)
  · intro fresh
    refine ⟨queue ▸ single.queued,fun j other held => ?_,fun j l other left right => ?_⟩
    · rw [queue]
      by_cases own : j = i
      · rw [own,gained] at held
        exact Option.some.inj held ▸ fun waits => fresh (.inl waits)
      · exact single.apart j other ((others j own).symm.trans held)
    · by_cases first : j = i
      · by_cases second : l = i
        · exact first.trans second.symm
        · rw [first,gained] at left
          exact absurd (.inr ⟨l,(others l second).symm.trans (right.trans left.symm)⟩) fresh
      · by_cases second : l = i
        · rw [second,gained] at right
          exact absurd (.inr ⟨j,(others j first).symm.trans (left.trans right.symm)⟩) fresh
        · exact single.alone j l other ((others j first).symm.trans left) ((others l second).symm.trans right)

-- From the queue into a hand.
theorem Single.take (single : Single p) (queue : p.queue.Perm (k :: q.queue)) (taken : q.hands i = some k) :
    Single q := by
  obtain ⟨gone,rest⟩ := List.nodup_cons.mp (queue.nodup_iff.mp single.queued)
  have waited : k ∈ p.queue := queue.mem_iff.mpr List.mem_cons_self
  have apart {j : Nat} (held : p.hands j = some k) : False := single.apart j k held waited
  refine ⟨rest,fun j other held => ?_,fun j l other left right => ?_⟩
  · by_cases own : j = i
    · rw [own,taken] at held
      exact Option.some.inj held ▸ gone
    · exact fun waits => single.apart j other ((others j own).symm.trans held) (queue.mem_iff.mpr (List.mem_cons_of_mem _ waits))
  · by_cases first : j = i
    · by_cases second : l = i
      · exact first.trans second.symm
      · rw [first,taken] at left
        exact (apart ((others l second).symm.trans (right.trans left.symm))).elim
    · by_cases second : l = i
      · rw [second,taken] at right
        exact (apart ((others j first).symm.trans (left.trans right.symm))).elim
      · exact single.alone j l other ((others j first).symm.trans left) ((others l second).symm.trans right)

theorem out_take (queue : p.queue.Perm (k :: q.queue)) (taken : q.hands i = some k) (out : Out q other) : Out p other := by
  rcases out with waits | ⟨j,held⟩
  · exact .inl (queue.mem_iff.mpr (List.mem_cons_of_mem _ waits))
  · by_cases own : j = i
    · rw [own,taken] at held
      exact .inl (queue.mem_iff.mpr (Option.some.inj held ▸ List.mem_cons_self))
    · exact .inr ⟨j,(others j own).symm.trans held⟩

-- And from a hand into the queue.
theorem Single.send (single : Single p) (queue : q.queue = p.queue ++ [k]) (held : p.hands i = some k) (sent : q.hands i = none) :
    Single q := by
  refine ⟨?_,fun j other mine waits => ?_,fun j l other left right =>
    single.alone j l other (back others sent left) (back others sent right)⟩
  · rw [queue]
    exact (List.nodup_append.mpr ⟨single.queued,List.nodup_singleton k,fun a inside b last same => by
      cases List.mem_singleton.mp last
      exact single.apart i k held (same ▸ inside)⟩)
  · have before := back others sent mine
    rw [queue] at waits
    rcases List.mem_append.mp waits with old | last
    · exact single.apart j other before old
    · rw [List.mem_singleton.mp last] at before
      rw [single.alone j i k before held,sent] at mine
      cases mine

theorem out_send (queue : q.queue = p.queue ++ [k]) (held : p.hands i = some k) (sent : q.hands i = none) (out : Out q other) : Out p other := by
  rcases out with waits | ⟨j,mine⟩
  · rw [queue] at waits
    rcases List.mem_append.mp waits with old | last
    · exact .inl old
    · exact .inr ⟨i,List.mem_singleton.mp last ▸ held⟩
  · exact .inr ⟨j,back others sent mine⟩

end moves

end Handover
