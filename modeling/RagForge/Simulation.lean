import Mathlib.Data.List.Basic

namespace Simulation

-- A service answers one request after the other.
variable {σ τ ρ α : Type}

def replies (serve : σ → ρ → σ × α) : σ → List ρ → List α
  | _,[] => []
  | s,request :: rest => (serve s request).2 :: replies serve (serve s request).1 rest

-- Two services that answer the same to the requests asked of them, and go on
-- doing so.
structure Simulates (left : σ → ρ → σ × α) (right : τ → ρ → τ × α) (asked : ρ → Prop) (related : σ → τ → Prop) : Prop where
  answer : ∀ s t request, related s t → asked request → (left s request).2 = (right t request).2
  onward : ∀ s t request, related s t → asked request → related (left s request).1 (right t request).1

theorem Simulates.replies {left : σ → ρ → σ × α} {right : τ → ρ → τ × α} {asked : ρ → Prop} {related : σ → τ → Prop}
    (simulates : Simulates left right asked related) (begun : related s t) (requests : List ρ) (all : ∀ request ∈ requests, asked request) :
    replies left s requests = replies right t requests := by
  induction requests generalizing s t with
  | nil => rfl
  | cons request rest ih =>
    have here := all request List.mem_cons_self
    rw [Simulation.replies,Simulation.replies,simulates.answer s t request begun here]
    exact congrArg _ (ih (simulates.onward s t request begun here) fun later member => all later (List.mem_cons_of_mem _ member))

end Simulation
