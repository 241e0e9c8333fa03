import RagForge.Evaluator

namespace RagForge.Tokenizers
open RagForge PyText
open RagForge.Evaluator (isTokenChar)

section Runs
variable {α : Type} (keep : α → Bool)

-- The maximal runs of kept elements, `run` being the one that is open.
def runs : List α → List α → List (List α)
  | run,[] => if run.isEmpty then [] else [run]
  | run,c :: rest =>
    if keep c then runs (run ++ [c]) rest
    else if run.isEmpty then runs [] rest else run :: runs [] rest

theorem modifyHead_same (pieces : List (List α)) : pieces.modifyHead ([] ++ ·) = pieces := by cases pieces <;> rfl

-- Splitting at what is not kept leaves the runs, and empty pieces.
theorem runs_split (run text : List α) :
    runs keep run text = ((text.splitOnP fun c => !keep c).modifyHead (run ++ ·)).filter fun piece => !piece.isEmpty := by
  induction text generalizing run with
  | nil => cases run <;> simp [runs]
  | cons c rest ih =>
    rw [runs,List.splitOnP_cons_eq_if_modifyHead]
    by_cases kept : keep c = true
    · simp only [kept,if_true,Bool.not_true,Bool.false_eq_true,if_false,ih,List.modifyHead_modifyHead]
      simp [Function.comp_def]
    · rw [if_neg kept,ih [],modifyHead_same]
      cases run <;> simp [kept]

theorem runs_flatten (run text : List α) : (runs keep run text).flatten = run ++ text.filter keep := by
  induction text generalizing run with
  | nil => cases run <;> simp [runs]
  | cons c rest ih =>
    rw [runs]
    by_cases kept : keep c = true
    · rw [if_pos kept,ih,List.filter_cons_of_pos kept,List.append_assoc]
      rfl
    · rw [if_neg kept,List.filter_cons_of_neg kept]
      cases run <;> simp [ih]

variable {keep}

theorem runs_close {run : List α} (between : keep c = false) (rest : List α) :
    runs keep run (c :: rest) = (if run.isEmpty then [] else [run]) ++ runs keep [] rest := by
  rw [runs,if_neg (by simp [between])]
  split <;> rfl

theorem runs_skip {run gap : List α} (some_ : gap ≠ []) (between : ∀ c ∈ gap, keep c = false) (rest : List α) :
    runs keep run (gap ++ rest) = (if run.isEmpty then [] else [run]) ++ runs keep [] rest := by
  induction gap generalizing run with
  | nil => exact absurd rfl some_
  | cons c gap ih =>
    obtain ⟨here,later⟩ := List.forall_mem_cons.mp between
    rw [List.cons_append,runs_close here]
    cases gap with
    | nil => rfl
    | cons d gap => rw [ih (List.cons_ne_nil _ _) later]; rfl

end Runs

theorem asciiRuns_runs (run text : Str) : asciiRuns run text = runs isAsciiAlnum run text := by
  induction text generalizing run with
  | nil => rfl
  | cons c rest ih => simp only [asciiRuns,runs,ih]

theorem benchmark_runs (text : Str) : Evaluator.tokenize text = runs isTokenChar [] (lower (fun _ _ => false) text) := by
  rw [runs_split,modifyHead_same]
  rfl

theorem production_runs (text : Str) : RagForge.tokenize text = (runs isAsciiAlnum [] text).map (·.map Char.toLower) := by
  rw [RagForge.tokenize,asciiRuns_runs]

def kelvin : Char := Char.ofNat 0x212A
def dottedI : Char := Char.ofNat 0x130

-- What the benchmark takes for part of a token and production does not: the
-- underscore, and the two characters beyond ASCII whose lowercase is an ASCII letter.
def crosses (c : Char) : Bool := c == '_' || c == kelvin || c == dottedI

theorem tokenChar_low (token : isTokenChar c = true) : c.toNat < 0x80 := by
  simp only [isTokenChar,isAsciiAlnum,Bool.or_eq_true,Bool.and_eq_true,decide_eq_true_eq,beq_iff_eq] at token
  rcases token with ((⟨_,high⟩ | ⟨_,high⟩) | ⟨_,high⟩) | rfl
  · exact Nat.lt_of_le_of_lt (Char.le_def.mp high) (by decide)
  · exact Nat.lt_of_le_of_lt (Char.le_def.mp high) (by decide)
  · exact Nat.lt_of_le_of_lt (Char.le_def.mp high) (by decide)
  · decide

theorem ascii_lower : ∀ n < 0x80, isTokenChar (Char.ofNat n).toLower = (isAsciiAlnum (Char.ofNat n) || Char.ofNat n == '_') := by decide

-- What one character becomes in `text.lower()`.
def lowered (c : Char) : Str := if c = 'Σ' then ['σ'] else lowerChar c

theorem lowered_some (c : Char) : lowered c ≠ [] := by
  unfold lowered lowerChar
  split
  · exact List.cons_ne_nil _ _
  · split
    · exact List.cons_ne_nil _ _
    · split <;> exact List.cons_ne_nil _ _

theorem lower_flatMap (text : Str) : lower (fun _ _ => false) text = text.flatMap lowered := by
  have from_ (before : Str) : lowerFrom (fun _ _ => false) before text = text.flatMap lowered := by
    induction text generalizing before with
    | nil => rfl
    | cons c rest ih => rw [lowerFrom,ih]; rfl
  exact from_ []

theorem alnum_low (plain : isAsciiAlnum c = true) : c.toNat < 0x80 := by
  apply tokenChar_low
  rw [isTokenChar,plain]
  rfl

theorem lowered_ascii (low : c.toNat < 0x80) : lowered c = [c.toLower] := by
  have other : c ≠ 'Σ' := by rintro rfl; exact absurd low (by decide)
  rw [lowered,if_neg other,lowerChar,if_pos low]

theorem lowered_alnum (plain : isAsciiAlnum c = true) : lowered c = [c.toLower] ∧ isTokenChar c.toLower = true := by
  have low := alnum_low plain
  have token := ascii_lower c.toNat low
  rw [Char.ofNat_toNat,plain] at token
  exact ⟨lowered_ascii low,token⟩

theorem lowered_other (plain : isAsciiAlnum c = false) (inside : crosses c = false) : ∀ d ∈ lowered c, isTokenChar d = false := by
  simp only [crosses,Bool.or_eq_false_iff,beq_eq_false_iff_ne] at inside
  obtain ⟨⟨underscore,kelvin_⟩,dotted⟩ := inside
  intro d member
  by_cases low : c.toNat < 0x80
  · have token := ascii_lower c.toNat low
    rw [Char.ofNat_toNat,plain,beq_false_of_ne underscore] at token
    rw [lowered_ascii low,List.mem_singleton] at member
    exact member ▸ token
  · have code (n : Nat) (same : c.toNat = n) : c = Char.ofNat n := by rw [← same,Char.ofNat_toNat]
    have not_dotted : c.toNat ≠ 0x130 := fun same => dotted (code _ same)
    have not_kelvin : c.toNat ≠ 0x212A := fun same => kelvin_ (code _ same)
    unfold lowered lowerChar at member
    rw [if_neg low,if_neg not_dotted] at member
    split at member
    · rw [List.mem_singleton.mp member]
      decide
    · rw [List.mem_singleton.mp member]
      exact ofNat_high (fun _ => tokenChar_low) (by decide) (lowerCode_high (Nat.le_of_not_lt low) not_kelvin)

theorem lowered_crossing (crossing : crosses c = true) : (lowered c).countP isTokenChar = 1 ∧ isAsciiAlnum c = false := by
  simp only [crosses,Bool.or_eq_true,beq_iff_eq] at crossing
  rcases crossing with (rfl | rfl) | rfl <;> decide

theorem count_lowered (text : Str) :
    (text.flatMap lowered).countP isTokenChar = text.countP isAsciiAlnum + text.countP crosses := by
  induction text with
  | nil => rfl
  | cons c rest ih =>
    rw [List.flatMap_cons,List.countP_append,ih,List.countP_cons,List.countP_cons]
    cases crossing : crosses c with
    | true =>
      obtain ⟨one,plain⟩ := lowered_crossing crossing
      rw [one,plain]
      simp only [Bool.false_eq_true,if_false,if_true]
      omega
    | false =>
      cases plain : isAsciiAlnum c with
      | true =>
        obtain ⟨single,token⟩ := lowered_alnum plain
        rw [single,List.countP_singleton,token]
        simp only [Bool.false_eq_true,if_false,if_true]
        omega
      | false =>
        rw [List.countP_eq_zero.mpr fun d member => by simp [lowered_other plain crossing d member]]
        simp

-- Without a crossing the two read the same runs.
theorem runs_lowered {text : Str} (inside : ∀ c ∈ text, crosses c = false) (run : Str) :
    runs isTokenChar (run.map Char.toLower) (text.flatMap lowered) = (runs isAsciiAlnum run text).map (·.map Char.toLower) := by
  induction text generalizing run with
  | nil => cases run <;> rfl
  | cons c rest ih =>
    obtain ⟨here,later⟩ := List.forall_mem_cons.mp inside
    rw [List.flatMap_cons,runs]
    cases plain : isAsciiAlnum c with
    | true =>
      obtain ⟨single,token⟩ := lowered_alnum plain
      have step := ih later (run ++ [c])
      rw [List.map_append] at step
      rw [single,List.singleton_append,runs,if_pos token,if_pos rfl]
      exact step
    | false =>
      have rest_ := ih later []
      rw [runs_skip (lowered_some c) (lowered_other plain here),if_neg Bool.false_ne_true]
      cases run with
      | nil => exact rest_
      | cons d run => exact congrArg (_ :: ·) rest_

theorem tokenizers_agree_iff (text : Str) : Evaluator.tokenize text = RagForge.tokenize text ↔ ∀ c ∈ text, crosses c = false := by
  rw [benchmark_runs,production_runs,lower_flatMap]
  constructor
  · intro same
    have sizes := congrArg (fun tokens : List Str => tokens.flatten.length) same
    simp only [← List.map_flatten,runs_flatten,List.nil_append,List.length_map,← List.countP_eq_length_filter,count_lowered] at sizes
    have none_ : text.countP crosses = 0 := by omega
    exact fun c member => Bool.eq_false_iff.mpr (List.countP_eq_zero.mp none_ c member)
  · exact fun inside => runs_lowered inside []

-- The identifiers of technical documents: one token here, two there.
theorem underscore_splits : ¬ ∀ text : Str, Evaluator.tokenize text = RagForge.tokenize text := by
  intro all
  exact absurd (all "Foo-Bar_123".toList) (by decide)

end RagForge.Tokenizers
