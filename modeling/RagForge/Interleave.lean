import Mathlib.Logic.Function.Basic
import RagForge.Transition

namespace Interleave
open Transition

-- Processes number 0, 1, 2, ... share one store and keep their own local state.
-- Every process has a slot from the start; one that never moves costs nothing.
structure Config (S L : Type) where
  shared : S
  locals : Nat → L

variable {S L A : Type} {act : Nat → S → L → A → Option (S × L)}

-- One atomic action of one process. The label names the process and its choice.
def advance (act : Nat → S → L → A → Option (S × L)) (c : Config S L) (label : Nat × A) :
    Option (Config S L) :=
  (act label.1 c.shared (c.locals label.1) label.2).map fun out =>
    ⟨out.1,Function.update c.locals label.1 out.2⟩

abbrev Step (act : Nat → S → L → A → Option (S × L)) : Config S L → Nat × A → Config S L → Prop :=
  taken (advance act)

theorem step_parts (moved : Step act c label next) :
    act label.1 c.shared (c.locals label.1) label.2 = some (next.shared,next.locals label.1) ∧
      ∀ j, j ≠ label.1 → next.locals j = c.locals j := by
  obtain ⟨out,acted,rfl⟩ := Option.map_eq_some_iff.mp moved
  refine ⟨?_,fun j other => Function.update_of_ne other _ _⟩
  simpa only [Function.update_self] using acted

-- One process that has the store to itself.
def solo (act : S → L → A → Option (S × L)) (c : S × L) (label : A) : Option (S × L) := act c.1 c.2 label

-- Local assertions beside one assertion on the shared store.
def Holds (store : S → Prop) (assertion : S → Nat → L → Prop) (c : Config S L) : Prop :=
  store c.shared ∧ ∀ i, assertion c.shared i (c.locals i)

-- Owicki-Gries: an action has to keep the store's assertion, establish its own
-- next assertion, and leave the assertion of every other process standing.
structure Outline (act : Nat → S → L → A → Option (S × L)) (store : S → Prop)
    (assertion : S → Nat → L → Prop) : Prop where
  own : ∀ i s l a s' l', store s → assertion s i l → act i s l a = some (s',l') →
    store s' ∧ assertion s' i l'
  others : ∀ i j s l a s' l' m, j ≠ i → store s → assertion s i l → assertion s j m →
    act i s l a = some (s',l') → assertion s' j m

theorem Outline.step {store : S → Prop} {assertion : S → Nat → L → Prop}
    (outline : Outline act store assertion) (held : Holds store assertion c)
    (moved : Step act c label next) : Holds store assertion next := by
  obtain ⟨acted,same⟩ := step_parts moved
  obtain ⟨kept,mine⟩ := outline.own _ _ _ _ _ _ held.1 (held.2 label.1) acted
  refine ⟨kept,fun j => ?_⟩
  by_cases equal : j = label.1
  · rw [equal]; exact mine
  · rw [same j equal]
    exact outline.others _ _ _ _ _ _ _ _ equal held.1 (held.2 label.1) (held.2 j) acted

theorem Outline.runs {store : S → Prop} {assertion : S → Nat → L → Prop}
    (outline : Outline act store assertion) (held : Holds store assertion start)
    (path : Runs (Step act) start labels c) : Holds store assertion c :=
  path.preserves held fun _ _ _ before moved => outline.step before moved

-- A local assertion no action of its own process can leave, whatever the store.
theorem Runs.local_stays (i : Nat) (stay : L → Prop)
    (each : ∀ s l a s' l', stay l → act i s l a = some (s',l') → stay l')
    (path : Runs (Step act) start labels c) (initial : stay (start.locals i)) : stay (c.locals i) := by
  induction path with
  | nil => exact initial
  | @snoc labels s label next prior moved ih =>
    obtain ⟨acted,same⟩ := step_parts moved
    by_cases equal : i = label.1
    · subst equal; exact each _ _ _ _ _ ih acted
    · rw [same i equal]; exact ih

theorem Runs.untouched (path : Runs (Step act) start labels c) (still : ∀ label ∈ labels, label.1 ≠ i) :
    c.locals i = start.locals i := by
  refine path.history (fun labels c => (∀ label ∈ labels, label.1 ≠ i) → c.locals i = start.locals i) (fun _ => rfl) ?_ still
  intro labels s label next prior kept moved still
  rw [(step_parts moved).2 i (still label (List.mem_append_right _ (List.mem_singleton.mpr rfl))).symm]
  exact kept fun other member => still other (List.mem_append_left _ member)

-- Names a process draws are new to the store, so no two processes ever hold
-- the same one.
theorem Runs.apart {K : Type} (held : L → List K) (drawn : S → K → Prop)
    (each : ∀ i s l a s' l', act i s l a = some (s',l') → (∀ k, drawn s k → drawn s' k) ∧
      ∀ k ∈ held l', k ∈ held l ∨ ¬ drawn s k ∧ drawn s' k)
    (path : Runs (Step act) start labels c) (known : ∀ i, ∀ k ∈ held (start.locals i), drawn start.shared k)
    (apart : ∀ i j, i ≠ j → ∀ k ∈ held (start.locals i), k ∉ held (start.locals j)) :
    (∀ i, ∀ k ∈ held (c.locals i), drawn c.shared k) ∧
      ∀ i j, i ≠ j → ∀ k ∈ held (c.locals i), k ∉ held (c.locals j) := by
  induction path with
  | nil => exact ⟨known,apart⟩
  | @snoc labels s label next prior moved ih =>
    obtain ⟨known,apart⟩ := ih
    obtain ⟨acted,same⟩ := step_parts moved
    obtain ⟨keeps,mine⟩ := each _ _ _ _ _ _ acted
    have others (j : Nat) (other : j ≠ label.1) (k : K) (member : k ∈ held (next.locals label.1)) :
        k ∉ held (next.locals j) := by
      rw [same j other]
      rcases mine k member with old | ⟨fresh,_⟩
      · exact apart _ _ (Ne.symm other) k old
      · exact fun theirs => fresh (known j k theirs)
    constructor
    · intro i k member
      by_cases equal : i = label.1
      · subst equal
        rcases mine k member with old | ⟨_,drawn⟩
        · exact keeps k (known _ k old)
        · exact drawn
      · exact keeps k (known i k (same i equal ▸ member))
    · intro i j different k member inside
      by_cases first : i = label.1
      · subst first
        exact others j (Ne.symm different) k member inside
      · by_cases second : j = label.1
        · subst second
          exact others i first k inside member
        · exact apart i j different k (same i first ▸ member) (same j second ▸ inside)

end Interleave
