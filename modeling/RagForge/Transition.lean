import Mathlib.Data.List.Basic

namespace Transition

-- A step relation reads: state before, label, state after. The label carries
-- every choice a step makes, so a list of labels is a complete schedule.
variable {σ α : Type}

inductive Runs (step : σ → α → σ → Prop) (start : σ) : List α → σ → Prop where
  | nil : Runs step start [] start
  | snoc : Runs step start labels s → step s label next → Runs step start (labels ++ [label]) next

theorem Runs.single {step : σ → α → σ → Prop} (taken : step s label next) : Runs step s [label] next :=
  .snoc .nil taken

theorem Runs.of_single {step : σ → α → σ → Prop} (path : Runs step s [label] next) : step s label next := by
  generalize only : [label] = labels at path
  cases path with
  | nil => cases only
  | @snoc earlier middle last _ prior moved =>
    have cut : [] ++ [label] = earlier ++ [last] := only
    obtain ⟨none_,same⟩ := List.append_inj' cut rfl
    cases same
    generalize earlier = front at prior none_
    cases prior with
    | nil => exact moved
    | snoc => exact absurd none_.symm (List.append_ne_nil_of_right_ne_nil _ nofun)

theorem Runs.append {step : σ → α → σ → Prop} (left : Runs step a earlier b)
    (right : Runs step b later c) : Runs step a (earlier ++ later) c := by
  induction right with
  | nil => simpa using left
  | snoc prior taken ih =>
    rw [← List.append_assoc]
    exact .snoc ih taken

theorem Runs.split {step : σ → α → σ → Prop} (path : Runs step a labels c) :
    ∀ earlier later, labels = earlier ++ later → ∃ b, Runs step a earlier b ∧ Runs step b later c := by
  induction path with
  | nil =>
    intro earlier later equal
    obtain ⟨rfl,rfl⟩ := List.append_eq_nil_iff.mp equal.symm
    exact ⟨_,.nil,.nil⟩
  | @snoc labels s label next prior taken ih =>
    intro earlier later equal
    rcases List.eq_nil_or_concat later with rfl | ⟨front,last,rfl⟩
    · rw [List.append_nil] at equal
      subst equal
      exact ⟨next,.snoc prior taken,.nil⟩
    · rw [List.concat_eq_append,← List.append_assoc] at equal
      obtain ⟨labelsEq,lastEq⟩ := List.append_inj' equal rfl
      cases lastEq
      obtain ⟨b,left,right⟩ := ih earlier front labelsEq
      exact ⟨b,left,by rw [List.concat_eq_append]; exact .snoc right taken⟩

-- An assertion kept by every step holds at the end of every run.
theorem Runs.preserves {step : σ → α → σ → Prop} {kept : σ → Prop} (path : Runs step start labels s)
    (initial : kept start) (step_keeps : ∀ s label next, kept s → step s label next → kept next) :
    kept s := by
  induction path with
  | nil => exact initial
  | snoc prior taken ih => exact step_keeps _ _ _ ih taken

-- The same rule for an assertion about the whole schedule so far.
theorem Runs.history {step : σ → α → σ → Prop} (kept : List α → σ → Prop)
    (path : Runs step start labels s) (initial : kept [] start)
    (step_keeps : ∀ labels s label next, Runs step start labels s → kept labels s →
      step s label next → kept (labels ++ [label]) next) : kept labels s := by
  induction path with
  | nil => exact initial
  | snoc prior taken ih => exact step_keeps _ _ _ _ prior ih taken

theorem Runs.mono {step wider : σ → α → σ → Prop} (path : Runs step start labels s)
    (weaker : ∀ s label next, step s label next → wider s label next) : Runs wider start labels s := by
  induction path with
  | nil => exact .nil
  | snoc prior taken ih => exact .snoc ih (weaker _ _ _ taken)

-- A machine answers a label with its next state or refuses the label.
def taken (advance : σ → α → Option σ) (s : σ) (label : α) (next : σ) : Prop :=
  advance s label = some next

-- A part's step, carried out inside the whole.
theorem lifted {β γ : Type} {f : β → γ} {out : Option (σ × β)} {s : σ} {whole : γ} (moved : out.map (Prod.map id f) = some (s,whole)) :
    ∃ part, out = some (s,part) ∧ whole = f part := by
  cases ran : out with
  | none => rw [ran] at moved; cases moved
  | some found =>
    rw [ran] at moved
    cases moved
    exact ⟨found.2,rfl,rfl⟩

-- Steps restricted to those that meet a condition on the state before them.
def within (ok : σ → α → Prop) (step : σ → α → σ → Prop) (s : σ) (label : α) (next : σ) : Prop :=
  ok s label ∧ step s label next

theorem Runs.unguarded {ok : σ → α → Prop} {step : σ → α → σ → Prop}
    (path : Runs (within ok step) start labels s) : Runs step start labels s :=
  path.mono fun _ _ _ both => both.2

def run (advance : σ → α → Option σ) : σ → List α → Option σ
  | s,[] => some s
  | s,label :: rest => (advance s label).bind (run advance · rest)

theorem run_sound {advance : σ → α → Option σ} (ran : run advance s labels = some next) :
    Runs (taken advance) s labels next := by
  induction labels generalizing s with
  | nil => cases Option.some.inj ran; exact .nil
  | cons label rest ih =>
    obtain ⟨middle,first,tail⟩ := Option.bind_eq_some_iff.mp ran
    exact (Runs.single (show taken advance s label middle from first)).append (ih tail)

theorem run_append {advance : σ → α → Option σ} :
    run advance s (earlier ++ later) = (run advance s earlier).bind (run advance · later) := by
  induction earlier generalizing s with
  | nil => rfl
  | cons label rest ih =>
    change (advance s label).bind (run advance · (rest ++ later)) = ((advance s label).bind (run advance · rest)).bind _
    rw [Option.bind_assoc]
    exact congrArg _ (funext fun _ => ih)

theorem run_exact {advance : σ → α → Option σ} : run advance s labels = some next ↔ Runs (taken advance) s labels next := by
  refine ⟨run_sound,fun path => ?_⟩
  induction path with
  | nil => rfl
  | snoc prior moved ih =>
    rw [run_append,ih]
    exact Option.bind_eq_some_iff.mpr ⟨_,rfl,Option.bind_eq_some_iff.mpr ⟨_,moved,rfl⟩⟩

-- A schedule carried out by evaluation gives a run to a state that passes a test.
theorem run_any (advance : σ → α → Option σ) (start : σ) (labels : List α) (check : σ → Bool)
    (passed : (run advance start labels).any check = true) : ∃ s, Runs (taken advance) start labels s ∧ check s = true := by
  cases ran : run advance start labels with
  | none => rw [ran] at passed; cases passed
  | some s => rw [ran] at passed; exact ⟨s,run_sound ran,passed⟩

theorem Runs.checked {advance : σ → α → Option σ} (check : σ → Bool) (path : Runs (taken advance) start labels s)
    (passed : (run advance start labels).any check = true) : check s = true := by
  rw [run_exact.mpr path] at passed
  exact passed

-- The machine that also refuses every label failing a test.
def guarded (test : σ → α → Bool) (advance : σ → α → Option σ) (s : σ) (label : α) : Option σ :=
  if test s label then advance s label else none

-- The same for a run whose steps have to meet a condition; the test may rely on
-- what is known of the states reached.
theorem run_within (advance : σ → α → Option σ) (start : σ) (labels : List α) (test : σ → α → Bool) (ok : σ → α → Prop) (check : σ → Bool)
    (passed : (run (guarded test advance) start labels).any check = true)
    (sound : ∀ earlier s label, Runs (taken advance) start earlier s → test s label = true → ok s label) :
    ∃ s, Runs (within ok (taken advance)) start labels s ∧ check s = true := by
  obtain ⟨s,path,fine⟩ := run_any _ _ _ _ passed
  refine ⟨s,?_,fine⟩
  clear passed fine
  induction path with
  | nil => exact .nil
  | snoc prior moved ih =>
    unfold taken guarded at moved
    split at moved
    · rename_i tested
      exact .snoc ih ⟨sound _ _ _ ih.unguarded tested,moved⟩
    · cases moved

-- A state the run has gone through, with the schedule cut at that point.
def Passes (step : σ → α → σ → Prop) (start : σ) (labels : List α) (s middle : σ) : Prop :=
  ∃ earlier later, labels = earlier ++ later ∧ Runs step start earlier middle ∧ Runs step middle later s

theorem Passes.here {step : σ → α → σ → Prop} (path : Runs step start labels s) :
    Passes step start labels s s := ⟨labels,[],by simp,path,.nil⟩

theorem Passes.snoc {step : σ → α → σ → Prop} (passed : Passes step start labels s middle)
    (taken : step s label next) : Passes step start (labels ++ [label]) next middle := by
  obtain ⟨earlier,later,rfl,before,after⟩ := passed
  exact ⟨earlier,later ++ [label],by rw [List.append_assoc],before,.snoc after taken⟩

-- A schedule of a machine goes through one sequence of states.
theorem Passes.total {advance : σ → α → Option σ} (first : Passes (taken advance) start labels s m)
    (second : Passes (taken advance) start labels s n) :
    (∃ between, Runs (taken advance) m between n) ∨ ∃ between, Runs (taken advance) n between m := by
  have continues {earlier between : List α} {m n : σ} (left : Runs (taken advance) start earlier m)
      (right : Runs (taken advance) start (earlier ++ between) n) : Runs (taken advance) m between n := by
    obtain ⟨b,before,after⟩ := right.split earlier between rfl
    cases Option.some.inj ((run_exact.mpr before).symm.trans (run_exact.mpr left))
    exact after
  obtain ⟨earlier,_,rfl,left,_⟩ := first
  obtain ⟨earlier',_,same,right,_⟩ := second
  rcases List.append_eq_append_iff.mp same with ⟨between,rfl,_⟩ | ⟨between,rfl,_⟩
  · exact .inl ⟨between,continues left right⟩
  · exact .inr ⟨between,continues right left⟩

-- What holds after every prefix of a schedule holds in every state passed.
theorem Passes.all {advance : σ → α → Option σ} (check : σ → Bool) (passed : Passes (taken advance) start labels s m)
    (each : (List.range (labels.length + 1)).all fun n => (run advance start (labels.take n)).all check) : check m = true := by
  obtain ⟨earlier,later,rfl,before,_⟩ := passed
  have inside := List.all_eq_true.mp each earlier.length (List.mem_range.mpr (by rw [List.length_append]; omega))
  rw [List.take_left,run_exact.mpr before] at inside
  exact inside

-- Where the condition on a step is exactly what keeps the assertion, a run
-- keeps the assertion throughout exactly when all its steps meet the condition.
theorem Runs.kept_iff {advance : σ → α → Option σ} {ok : σ → α → Prop} (kept : σ → Prop)
    (path : Runs (taken advance) start labels s) (initial : kept start)
    (exact_step : ∀ s label next, kept s → taken advance s label next → (kept next ↔ ok s label)) :
    (∀ m, Passes (taken advance) start labels s m → kept m) ↔ Runs (within ok (taken advance)) start labels s := by
  constructor
  · intro all
    induction path with
    | nil => exact .nil
    | @snoc labels s label next prior moved ih =>
      have before := ih fun m passed => all m (passed.snoc moved)
      have here := all s ((Passes.here prior).snoc moved)
      have after := all next (Passes.here (.snoc prior moved))
      exact .snoc before ⟨(exact_step s label next here moved).mp after,moved⟩
  · rintro guarded m ⟨earlier,later,rfl,before,_⟩
    obtain ⟨b,front,_⟩ := guarded.split earlier later rfl
    have same : m = b := Option.some.inj ((run_exact.mpr before).symm.trans (run_exact.mpr front.unguarded))
    rw [same]
    exact front.preserves initial fun s label next held both => (exact_step s label next held both.2).mpr both.1

end Transition
