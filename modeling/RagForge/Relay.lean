namespace Relay
variable {κ ι : Type}

-- Who may go on: the keys that count, those anybody can present, and the key
-- that has been handed out to a party and not reached it.
structure Race (κ ι : Type) where
  live : κ → Prop
  known : κ → Prop
  coming : ι → κ → Prop

-- One known key counts at most, and none while a new one is on its way.
structure Fair (r : Race κ ι) : Prop where
  single : ∀ a b, r.known a → r.known b → r.live a → r.live b → a = b
  behind : ∀ i a b, r.coming i b → r.known a → ¬ r.live a
  alone : ∀ i j a b, r.coming i a → r.coming j b → i = j

variable {r q : Race κ ι}

theorem Fair.fade (fair : Fair r) (live : ∀ h, q.known h → q.live h → r.live h) (known : ∀ h, q.known h → r.known h)
    (coming : ∀ i h, q.coming i h → r.coming i h) : Fair q where
  single a b here there first second := fair.single a b (known a here) (known b there) (live a here first) (live b there second)
  behind i a b sent here still := fair.behind i a b (coming i b sent) (known a here) (live a here still)
  alone i j a b left right := fair.alone i j a b (coming i a left) (coming j b right)

-- A known key that counts is traded for a new one: no known key counts now.
theorem Fair.trade (fair : Fair r) (mine : r.known a) (counts : r.live a) (new : ¬ r.known b)
    (live : ∀ h, q.live h → r.live h ∧ h ≠ a ∨ b = h) (known : ∀ h, q.known h → r.known h) (winner : Option ι)
    (coming : ∀ i h, q.coming i h → r.coming i h ∨ winner = some i) : Fair q ∧ ∀ h, r.known h → ¬ q.live h := by
  have dead (h : κ) (here : r.known h) (still : q.live h) : False := by
    rcases live h still with ⟨before,other⟩ | rfl
    · exact other (fair.single h a here mine before counts)
    · exact new here
  have won (i : ι) (h : κ) (sent : q.coming i h) : winner = some i := by
    rcases coming i h sent with before | wins
    · exact absurd counts (fair.behind i a h before mine)
    · exact wins
  refine ⟨⟨fun a b here _ first _ => (dead a (known a here) first).elim,fun i a b _ here still => dead a (known a here) still,
    fun i j a b left right => ?_⟩,dead⟩
  exact Option.some.inj ((won i a left).symm.trans (won j b right))

-- The new key arrives: whatever else is known counts for nothing.
theorem Fair.take (fair : Fair r) (sent : r.coming i b) (live : ∀ h, q.live h → r.live h) (known : ∀ h, q.known h → r.known h ∨ h = b)
    (coming : ∀ j h, q.coming j h → j ≠ i ∧ r.coming j h) : Fair q ∧ ∀ h, r.known h → ¬ q.live h := by
  have dead (h : κ) (here : r.known h) (still : q.live h) : False := fair.behind i h b sent here (live h still)
  have fresh (h : κ) (here : q.known h) (still : q.live h) : h = b := (known h here).resolve_left fun old => dead h old still
  have none_ (j : ι) (h : κ) (other : q.coming j h) : False := (coming j h other).1 (fair.alone j i h b (coming j h other).2 sent)
  exact ⟨⟨fun a c here there first second => (fresh a here first).trans (fresh c there second).symm,
    fun j a c other _ _ => none_ j c other,fun j k a c left _ => (none_ j a left).elim⟩,dead⟩

end Relay
