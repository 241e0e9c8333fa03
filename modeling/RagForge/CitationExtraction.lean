import Mathlib.Data.List.Infix
import RagForge.ChatService
import RagForge.OrderedDict

namespace RagForge.CitationExtraction
open RagForge PyText ChatService OrderedDict

-- The number that a run of digits denotes, however long the run is.
def numeral (digits : Str) : Nat := digits.foldl (fun value c => 10 * value + decimalValue c) 0

-- A bracketed run of decimal digits starts here.
def Bracketed (text : Str) (place : Nat) (digits : Str) : Prop :=
  ∃ after, text.drop place = '[' :: (digits ++ ']' :: after) ∧ digits ≠ [] ∧ ∀ c ∈ digits, isDecimal c = true

def Denotes (text : Str) (place i : Nat) : Prop := ∃ digits, Bracketed text place digits ∧ numeral digits = i

-- What a complete answer about a text looks like: the numbers in range that it
-- denotes, each once and in order of their first places, all of them positions
-- of the context list.
structure Extracted (text : Str) (n : Nat) (cited : List Nat) : Prop where
  answer : extractCitedIndices text n = .ok cited
  distinct : cited.Nodup
  exact_ : ∀ i, i ∈ cited ↔ (1 ≤ i ∧ i ≤ n) ∧ ∃ place, Denotes text place i
  ordered : cited.Pairwise fun a b => ∃ place, Denotes text place a ∧ ∀ later, Denotes text later b → place < later
  inside : ∀ context_chunks : List ContextChunk, context_chunks.length = n →
    ∀ i ∈ cited, ∃ chunk, getItem context_chunks ((i : Int) - 1) = some chunk

theorem bracketed_iff : Bracketed text place digits ↔ markerAt (text.drop place) = some digits := markerAt_iff.symm

theorem mem_markers : digits ∈ markers text ↔ ∃ place, Bracketed text place digits := by
  simp only [bracketed_iff]
  unfold markers
  rw [List.mem_filterMap]
  constructor
  · rintro ⟨suffix,member,matched⟩
    obtain ⟨front,rfl⟩ := (List.mem_tails _ _).mp member
    exact ⟨front.length,by rw [List.drop_left]; exact matched⟩
  · rintro ⟨place,matched⟩
    exact ⟨_,(List.mem_tails _ _).mpr (List.drop_suffix place text),matched⟩

-- Within the limit on digits `int` reads what they denote.
theorem int_numeral (short : digits.length ≤ maxStrDigits) : int digits = some (numeral digits) := if_pos short

-- The position of the context list that a marker names, if it names one.
def position (n : Nat) (digits : Str) : Option Nat :=
  if 1 ≤ numeral digits ∧ numeral digits ≤ n then some (numeral digits) else none

def positions (n : Nat) (text : Str) : List Nat := (markers text).filterMap (position n)

theorem extractLoop_notes (short : ∀ digits ∈ found, digits.length ≤ maxStrDigits) (before : List Nat) :
    extractLoop n found before = .ok ((found.filterMap (position n)).foldl note before) := by
  induction found generalizing before with
  | nil => rfl
  | cons digits rest ih =>
    obtain ⟨here,later⟩ := List.forall_mem_cons.mp short
    unfold extractLoop
    rw [int_numeral here]
    dsimp only
    rw [ih later,List.filterMap_cons,position]
    by_cases within_ : 1 ≤ numeral digits ∧ numeral digits ≤ n
    · have same : (if 1 ≤ numeral digits ∧ numeral digits ≤ n ∧ numeral digits ∉ before then before ++ [numeral digits] else before) =
          note before (numeral digits) := by
        unfold note
        by_cases known : numeral digits ∈ before <;> simp [known,within_.1,within_.2]
      rw [same,if_pos within_]
      rfl
    · have skipped : ¬ (1 ≤ numeral digits ∧ numeral digits ≤ n ∧ numeral digits ∉ before) :=
        fun all => within_ ⟨all.1,all.2.1⟩
      rw [if_neg skipped,if_neg within_]

theorem positions_cons (n : Nat) (c : Char) (rest : Str) :
    positions n (c :: rest) = ((markerAt (c :: rest)).bind (position n)).toList ++ positions n rest := by
  unfold positions
  rw [markers_cons,List.filterMap_append]
  cases matched : markerAt (c :: rest) with
  | none => rfl
  | some digits =>
    cases named : position n digits <;> simp [named]

theorem denotes_zero : Denotes (c :: rest) 0 i ↔ ∃ digits, markerAt (c :: rest) = some digits ∧ numeral digits = i := by
  simp only [Denotes,bracketed_iff,List.drop_zero]

-- What is named first among the positions is denoted first in the text.
theorem earlier_place {text : Str} (named : a ∈ positions n text) (inside : 1 ≤ b ∧ b ≤ n)
    (before : (positions n text).idxOf a < (positions n text).idxOf b) :
    ∃ place, Denotes text place a ∧ ∀ later, Denotes text later b → place < later := by
  induction text with
  | nil => cases named
  | cons c rest ih =>
    rw [positions_cons] at named before
    cases here : (markerAt (c :: rest)).bind (position n) with
    | none =>
      rw [here] at named before
      obtain ⟨place,denoted,first⟩ := ih named before
      refine ⟨place + 1,denoted,fun later at_ => ?_⟩
      cases later with
      | zero =>
        obtain ⟨digits,matched,number⟩ := denotes_zero.mp at_
        rw [matched,Option.bind_some,position,number,if_pos inside] at here
        cases here
      | succ later => exact Nat.succ_lt_succ (first later at_)
    | some m =>
      rw [here] at named before
      obtain ⟨digits,matched,number⟩ := Option.bind_eq_some_iff.mp here
      have value : numeral digits = m := by
        unfold position at number
        split at number <;> cases number
        rfl
      simp only [Option.toList_some,List.singleton_append,List.idxOf_cons,List.mem_cons] at named before
      by_cases same : m = a
      · subst same
        refine ⟨0,denotes_zero.mpr ⟨digits,matched,value⟩,fun later at_ => Nat.pos_of_ne_zero ?_⟩
        rintro rfl
        obtain ⟨other,matched',number'⟩ := denotes_zero.mp at_
        rw [matched] at matched'
        cases matched'
        rw [← number',value] at before
        simp at before
      · have away : m ≠ b := by
          rintro rfl
          simp at before
        simp only [beq_eq_false_iff_ne.mpr same,beq_eq_false_iff_ne.mpr away,cond_false,Nat.add_lt_add_iff_right] at before
        obtain ⟨place,denoted,first⟩ := ih (named.resolve_left (Ne.symm same)) before
        refine ⟨place + 1,denoted,fun later at_ => ?_⟩
        cases later with
        | zero =>
          obtain ⟨other,matched',number'⟩ := denotes_zero.mp at_
          rw [matched] at matched'
          cases matched'
          exact absurd (value.symm.trans number') away
        | succ later => exact Nat.succ_lt_succ (first later at_)

theorem extracted_of_short {text : Str} (short : ∀ digits ∈ markers text, digits.length ≤ maxStrDigits) (n : Nat) :
    ∃ cited, Extracted text n cited := by
  have ran : extractCitedIndices text n = .ok ((positions n text).foldl note []) := extractLoop_notes short []
  obtain ⟨distinct,bounds⟩ := extractCitedIndices_bounds ran
  refine ⟨_,ran,distinct,fun i => ?_,?_,fun context_chunks size i member => ?_⟩
  · rw [mem_extractCitedIndices ran]
    refine and_congr_right fun _ => ⟨?_,?_⟩
    · rintro ⟨digits,marked,read⟩
      obtain ⟨place,bracketed⟩ := mem_markers.mp marked
      rw [int_numeral (short digits marked)] at read
      exact ⟨place,digits,bracketed,Option.some.inj read⟩
    · rintro ⟨place,digits,bracketed,number⟩
      have marked := mem_markers.mpr ⟨place,bracketed⟩
      exact ⟨digits,marked,by rw [int_numeral (short digits marked),number]⟩
  · refine (notes_order (positions n text)).imp_of_mem fun first second before => ?_
    have named := ((mem_notes []).mp first).resolve_left List.not_mem_nil
    exact earlier_place named (bounds _ second) before
  · obtain ⟨low,high⟩ := bounds i member
    unfold getItem
    rw [if_pos (by omega),show ((i : Int) - 1).toNat = i - 1 by omega]
    exact ⟨_,List.getElem?_eq_getElem (by omega)⟩

theorem cited_exactly_iff (text : Str) (n : Nat) :
    (∃ cited, Extracted text n cited) ↔ ∀ place digits, Bracketed text place digits → digits.length ≤ maxStrDigits := by
  constructor
  · rintro ⟨cited,extracted⟩ place digits bracketed
    exact extractCitedIndices_ok.mp ⟨cited,extracted.answer⟩ digits (mem_markers.mpr ⟨place,bracketed⟩)
  · intro short
    refine extracted_of_short (fun digits marked => ?_) n
    obtain ⟨place,bracketed⟩ := mem_markers.mp marked
    exact short place digits bracketed

-- An answer that cites excerpt 1 in 4301 digits.
theorem long_marker_raises : ¬ ∀ (text : Str) (n : Nat), ∃ cited, Extracted text n cited := by
  intro all
  let digits : Str := List.replicate maxStrDigits '0' ++ ['1']
  have decimal : ∀ c ∈ digits, isDecimal c = true := by
    intro c member
    rcases List.mem_append.mp member with zero | one
    · rw [List.eq_of_mem_replicate zero]; decide
    · rw [List.mem_singleton.mp one]; decide
  have nonempty : digits ≠ [] := List.append_ne_nil_of_right_ne_nil _ (List.cons_ne_nil _ _)
  have bracketed : Bracketed ('[' :: (digits ++ [']'])) 0 digits := ⟨[],rfl,nonempty,decimal⟩
  obtain ⟨cited,extracted⟩ := all ('[' :: (digits ++ [']'])) 1
  have short := extractCitedIndices_ok.mp ⟨cited,extracted.answer⟩ digits (mem_markers.mpr ⟨0,bracketed⟩)
  have size : digits.length = maxStrDigits + 1 := by
    rw [List.length_append,List.length_replicate,List.length_singleton]
  rw [size] at short
  exact Nat.not_succ_le_self _ short

end RagForge.CitationExtraction
