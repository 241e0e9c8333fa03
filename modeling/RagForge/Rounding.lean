import Mathlib.Algebra.Order.Field.Basic
import Mathlib.Algebra.Order.Floor.Ring

-- Rounding to a number of decimal digits, a tie to the even last digit.
namespace Rounding
variable {R : Type} [Field R] [LinearOrder R] [IsStrictOrderedRing R] [FloorRing R]

def halfEven (x : R) : Int :=
  if Int.fract x < 1 - Int.fract x then ⌊x⌋
  else if 1 - Int.fract x < Int.fract x then ⌊x⌋ + 1
  else if Even ⌊x⌋ then ⌊x⌋ else ⌊x⌋ + 1

def roundTo (digits : Nat) (x : R) : R :=
  let scale : R := ((10 ^ digits : Nat) : R)
  (halfEven (x * scale) : R) / scale

omit [IsStrictOrderedRing R] in
theorem halfEven_near (x : R) : ⌊x⌋ ≤ halfEven x ∧ halfEven x ≤ ⌊x⌋ + 1 := by
  unfold halfEven
  split
  · omega
  · split
    · omega
    · split <;> omega

theorem halfEven_mono {x y : R} (le : x ≤ y) : halfEven x ≤ halfEven y := by
  rcases (Int.floor_mono le).lt_or_eq with less | same
  · exact (halfEven_near x).2.trans (le_trans less (halfEven_near y).1)
  · have parts : Int.fract x ≤ Int.fract y := by
      rw [Int.fract,Int.fract,same]
      exact sub_le_sub_right le _
    have rests : 1 - Int.fract y ≤ 1 - Int.fract x := sub_le_sub_left parts 1
    unfold halfEven
    rw [same]
    by_cases low : Int.fract y < 1 - Int.fract y
    · rw [if_pos low,if_pos (parts.trans_lt (low.trans_le rests))]
    · rw [if_neg low]
      by_cases high : 1 - Int.fract y < Int.fract y
      · rw [if_pos high,← same]
        exact (halfEven_near x).2
      · -- a tie above: the other is a tie too or goes down
        rw [if_neg high]
        have away : ¬ 1 - Int.fract x < Int.fract x := fun above => high ((rests.trans_lt above).trans_le parts)
        rw [if_neg away]
        split <;> split <;> omega

theorem halfEven_int (n : Int) : halfEven (n : R) = n := by
  rw [halfEven,Int.fract_intCast,sub_zero,if_pos zero_lt_one,Int.floor_intCast]

theorem roundTo_unit (digits : Nat) {x : R} (nonneg : 0 ≤ x) (le : x ≤ 1) : 0 ≤ roundTo digits x ∧ roundTo digits x ≤ 1 := by
  have scale : (0 : R) < ((10 ^ digits : Nat) : R) := Nat.cast_pos.mpr (Nat.pow_pos (by omega))
  have low : halfEven (0 : R) = 0 := by simpa using halfEven_int (R := R) 0
  have high : halfEven ((10 ^ digits : Nat) : R) = (10 ^ digits : Nat) := by
    simpa using halfEven_int (R := R) (10 ^ digits : Nat)
  constructor
  · apply div_nonneg _ scale.le
    rw [Int.cast_nonneg_iff,← low]
    exact halfEven_mono (mul_nonneg nonneg scale.le)
  · rw [roundTo,div_le_one scale]
    have bound : halfEven (x * ((10 ^ digits : Nat) : R)) ≤ (10 ^ digits : Nat) := by
      rw [← high]
      exact halfEven_mono (mul_le_of_le_one_left scale.le le)
    exact_mod_cast bound

end Rounding
