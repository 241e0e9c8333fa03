import Mathlib.Algebra.Order.Archimedean.Real.Basic
import Mathlib.Analysis.SpecialFunctions.Log.Base
import Mathlib.Analysis.SpecialFunctions.Pow.Real
import Mathlib.Data.Int.Log
import Mathlib.Data.Rat.Cast.Order
import RagForge.Rounding

-- Arithmetic that rounds each result to a grid of numbers, the doubles among such
-- grids, and the laws of order it shares with an ordered field.
namespace Floating
open Rounding

section Laws
variable (R : Type) [Zero R] [One R] [Add R] [Sub R] [Mul R] [Div R] [NatCast R] [IntCast R] [RatCast R] [LinearOrder R]

-- Laws that survive rounding: no sum of parts is smaller than a part, and signs
-- and bounds by one are those of the exact result.
class OrderedArithmetic : Prop where
  zero_lt_one : (0 : R) < 1
  le_add_left : ∀ {a b : R}, 0 ≤ a → b ≤ a + b
  le_add_right : ∀ {a b : R}, 0 ≤ b → a ≤ a + b
  sub_nonneg : ∀ {a b : R}, b ≤ a → 0 ≤ a - b
  mul_nonneg : ∀ {a b : R}, 0 ≤ a → 0 ≤ b → 0 ≤ a * b
  mul_pos : ∀ {a b : R}, 0 < a → 0 < b → 0 < a * b
  div_nonneg : ∀ {a b : R}, 0 ≤ a → 0 < b → 0 ≤ a / b
  div_pos : ∀ {a b : R}, 0 < a → 0 < b → 0 < a / b
  div_le_one : ∀ {a b : R}, a ≤ b → 0 < b → a / b ≤ 1
  natCast_ratCast : ∀ n : Nat, (n : R) = ((n : ℚ) : R)
  intCast_ratCast : ∀ z : Int, (z : R) = ((z : ℚ) : R)
  ratCast_zero : ((0 : ℚ) : R) = 0
  ratCast_one : ((1 : ℚ) : R) = 1
  ratCast_mono : ∀ {p q : ℚ}, p ≤ q → (p : R) ≤ (q : R)
  ratCast_pos : ∀ {q : ℚ}, 0 < q → 0 < (q : R)

end Laws

namespace OrderedArithmetic
variable {R : Type} [Zero R] [One R] [Add R] [Sub R] [Mul R] [Div R] [NatCast R] [IntCast R] [RatCast R] [LinearOrder R]
variable [OrderedArithmetic R]

theorem natCast_zero : ((0 : Nat) : R) = 0 := by
  have rational : ((0 : Nat) : ℚ) = 0 := Nat.cast_zero
  rw [natCast_ratCast (R := R),rational,ratCast_zero]

theorem natCast_one : ((1 : Nat) : R) = 1 := by
  have rational : ((1 : Nat) : ℚ) = 1 := Nat.cast_one
  rw [natCast_ratCast (R := R),rational,ratCast_one]

theorem natCast_le {m n : Nat} (le : m ≤ n) : (m : R) ≤ (n : R) :=
  (natCast_ratCast m).trans_le ((ratCast_mono (Nat.cast_le.mpr le)).trans_eq (natCast_ratCast n).symm)

theorem natCast_pos {n : Nat} (positive : 0 < n) : (0 : R) < (n : R) := by
  rw [natCast_ratCast]
  exact ratCast_pos (Nat.cast_pos.mpr positive)

theorem natCast_nonneg (n : Nat) : (0 : R) ≤ (n : R) := natCast_zero (R := R) ▸ natCast_le (Nat.zero_le n)

theorem one_le_natCast {n : Nat} (positive : 0 < n) : (1 : R) ≤ (n : R) := natCast_one (R := R) ▸ natCast_le positive

theorem intCast_pos {z : Int} (positive : 0 < z) : (0 : R) < (z : R) := by
  rw [intCast_ratCast]
  exact ratCast_pos (Int.cast_pos.mpr positive)

theorem intCast_nonneg {z : Int} (nonneg : 0 ≤ z) : (0 : R) ≤ (z : R) := by
  rw [intCast_ratCast,← ratCast_zero]
  exact ratCast_mono (Int.cast_nonneg_iff.mpr nonneg)

theorem natCast_le_intCast {n : Nat} {z : Int} (le : (n : Int) ≤ z) : (n : R) ≤ (z : R) := by
  rw [natCast_ratCast,intCast_ratCast]
  exact ratCast_mono (by exact_mod_cast le)

theorem ratCast_nonneg {q : ℚ} (nonneg : 0 ≤ q) : (0 : R) ≤ (q : R) := ratCast_zero (R := R) ▸ ratCast_mono nonneg

theorem ratCast_le_one {q : ℚ} (le : q ≤ 1) : (q : R) ≤ 1 := (ratCast_mono le).trans_eq ratCast_one

theorem add_pos_left {a b : R} (positive : 0 < a) (nonneg : 0 ≤ b) : 0 < a + b := positive.trans_le (le_add_right nonneg)

theorem add_pos_right {a b : R} (nonneg : 0 ≤ a) (positive : 0 < b) : 0 < a + b := positive.trans_le (le_add_left nonneg)

theorem add_nonneg {a b : R} (left : 0 ≤ a) (right : 0 ≤ b) : 0 ≤ a + b := right.trans (le_add_left left)

end OrderedArithmetic

instance (R : Type) [Field R] [LinearOrder R] [IsStrictOrderedRing R] : OrderedArithmetic R where
  zero_lt_one := zero_lt_one
  le_add_left := le_add_of_nonneg_left
  le_add_right := le_add_of_nonneg_right
  sub_nonneg le := sub_nonneg.mpr le
  mul_nonneg := mul_nonneg
  mul_pos := mul_pos
  div_nonneg left right := div_nonneg left right.le
  div_pos := div_pos
  div_le_one le positive := (div_le_one positive).mpr le
  natCast_ratCast n := (Rat.cast_natCast n).symm
  intCast_ratCast z := (Rat.cast_intCast z).symm
  ratCast_zero := Rat.cast_zero
  ratCast_one := Rat.cast_one
  ratCast_mono le := Rat.cast_le.mpr le
  ratCast_pos positive := Rat.cast_pos.mpr positive

-- Rounding to a grid keeps the order and the numbers of the grid, and takes no
-- positive number to zero.
structure Grid where
  round : ℝ → ℝ
  mono : ∀ {x y}, x ≤ y → round x ≤ round y
  idem : ∀ x, round (round x) = round x
  zero : round 0 = 0
  one : round 1 = 1
  pos : ∀ {x}, 0 < x → 0 < round x

-- A number of the grid; the result of an operation is rounded to the grid again.
structure Number (g : Grid) where
  value : ℝ
  on_grid : g.round value = value

namespace Number
variable {g : Grid}

def of (g : Grid) (x : ℝ) : Number g := ⟨g.round x,g.idem x⟩

theorem value_injective : Function.Injective (value (g := g)) := by
  rintro ⟨x,_⟩ ⟨y,_⟩ rfl
  rfl

noncomputable instance : LinearOrder (Number g) := LinearOrder.lift' value value_injective

instance : Zero (Number g) := ⟨⟨0,g.zero⟩⟩
instance : One (Number g) := ⟨⟨1,g.one⟩⟩
noncomputable instance : Add (Number g) := ⟨fun a b => of g (a.value + b.value)⟩
noncomputable instance : Sub (Number g) := ⟨fun a b => of g (a.value - b.value)⟩
noncomputable instance : Mul (Number g) := ⟨fun a b => of g (a.value * b.value)⟩
noncomputable instance : Div (Number g) := ⟨fun a b => of g (a.value / b.value)⟩
noncomputable instance : NatCast (Number g) := ⟨fun n => of g n⟩
noncomputable instance : IntCast (Number g) := ⟨fun z => of g z⟩
noncomputable instance : RatCast (Number g) := ⟨fun q => of g q⟩

theorem of_value (a : Number g) : of g a.value = a := value_injective a.on_grid

theorem of_mono {x y : ℝ} (le : x ≤ y) : of g x ≤ of g y := g.mono le

theorem of_nonneg {x : ℝ} (nonneg : 0 ≤ x) : 0 ≤ of g x := (of_value (0 : Number g)).symm.trans_le (of_mono nonneg)

theorem of_le {x : ℝ} {a : Number g} (le : x ≤ a.value) : of g x ≤ a := (of_mono le).trans_eq (of_value a)

theorem le_of {x : ℝ} {a : Number g} (le : a.value ≤ x) : a ≤ of g x := (of_value a).symm.trans_le (of_mono le)

instance : OrderedArithmetic (Number g) where
  zero_lt_one := (zero_lt_one : (0 : ℝ) < 1)
  le_add_left nonneg := le_of (le_add_of_nonneg_left nonneg)
  le_add_right nonneg := le_of (le_add_of_nonneg_right nonneg)
  sub_nonneg le := of_nonneg (sub_nonneg.mpr le)
  mul_nonneg left right := of_nonneg (mul_nonneg left right)
  mul_pos left right := g.pos (mul_pos left right)
  div_nonneg left right := of_nonneg (div_nonneg left right.le)
  div_pos left right := g.pos (div_pos left right)
  div_le_one le positive := of_le ((div_le_one positive).mpr le)
  natCast_ratCast n := congrArg (of g) (Rat.cast_natCast n).symm
  intCast_ratCast z := congrArg (of g) (Rat.cast_intCast z).symm
  ratCast_zero := (congrArg (of g) Rat.cast_zero).trans (of_value 0)
  ratCast_one := (congrArg (of g) Rat.cast_one).trans (of_value 1)
  ratCast_mono le := of_mono (Rat.cast_le.mpr le)
  ratCast_pos positive := g.pos (Rat.cast_pos.mpr positive)

-- The number of the grid nearest to the one with so many decimal digits.
noncomputable def roundTo (digits : Nat) (a : Number g) : Number g := of g (Rounding.roundTo digits a.value)

theorem roundTo_unit (digits : Nat) {a : Number g} (nonneg : 0 ≤ a) (le : a ≤ 1) : 0 ≤ roundTo digits a ∧ roundTo digits a ≤ 1 := by
  obtain ⟨low,high⟩ := Rounding.roundTo_unit digits (x := a.value) nonneg le
  exact ⟨of_nonneg low,of_le high⟩

end Number

noncomputable def exp2 (x : ℝ) : ℝ := 2 ^ x

noncomputable def log2 (x : ℝ) : ℝ := Real.logb 2 x

section Binary64

-- The last place of a double around `x`, with 53 binary digits from the first one on.
noncomputable def lastPlace (x : ℝ) : ℝ := 2 ^ (Int.log 2 x - 52)

noncomputable def nearestAbove (x : ℝ) : ℝ := (halfEven (x / lastPlace x) : ℝ) * lastPlace x

-- The nearest double, of two the one with the even last digit. The exponent has
-- no bounds.
noncomputable def nearest (x : ℝ) : ℝ := if x < 0 then -nearestAbove (-x) else nearestAbove x

theorem lastPlace_pos (x : ℝ) : 0 < lastPlace x := zpow_pos two_pos _

-- The places of one binade: from 2^52 of them up to twice as many.
theorem binade (x : ℝ) (n : Nat) : (2 : ℝ) ^ (Int.log 2 x + n) = ((2 ^ (52 + n) : Int) : ℝ) * lastPlace x := by
  have places : ((2 ^ (52 + n) : Int) : ℝ) = (2 : ℝ) ^ ((52 + n : Nat) : Int) := by
    rw [zpow_natCast]
    norm_cast
  rw [places,lastPlace,← zpow_add₀ two_ne_zero]
  congr 1
  push_cast
  ring

theorem significand {x : ℝ} (positive : 0 < x) :
    2 ^ 52 ≤ halfEven (x / lastPlace x) ∧ halfEven (x / lastPlace x) ≤ 2 ^ 53 := by
  have low : ((2 ^ 52 : Int) : ℝ) ≤ x / lastPlace x := by
    rw [le_div_iff₀ (lastPlace_pos x),← binade x 0,Nat.cast_zero,add_zero]
    exact_mod_cast Int.zpow_log_le_self one_lt_two positive
  have high : x / lastPlace x ≤ ((2 ^ 53 : Int) : ℝ) := by
    rw [div_le_iff₀ (lastPlace_pos x),← binade x 1]
    exact_mod_cast (Int.lt_zpow_succ_log_self one_lt_two x).le
  constructor
  · rw [← halfEven_int (R := ℝ) (2 ^ 52)]
    exact halfEven_mono low
  · rw [← halfEven_int (R := ℝ) (2 ^ 53)]
    exact halfEven_mono high

theorem nearestAbove_bounds {x : ℝ} (positive : 0 < x) :
    (2 : ℝ) ^ Int.log 2 x ≤ nearestAbove x ∧ nearestAbove x ≤ (2 : ℝ) ^ (Int.log 2 x + 1) := by
  obtain ⟨low,high⟩ := significand positive
  have first := binade x 0
  have second := binade x 1
  rw [Nat.cast_zero,add_zero] at first
  rw [Nat.cast_one] at second
  rw [first,second]
  exact ⟨mul_le_mul_of_nonneg_right (Int.cast_le.mpr low) (lastPlace_pos x).le,
    mul_le_mul_of_nonneg_right (Int.cast_le.mpr high) (lastPlace_pos x).le⟩

theorem nearestAbove_pos {x : ℝ} (positive : 0 < x) : 0 < nearestAbove x :=
  (zpow_pos two_pos _).trans_le (nearestAbove_bounds positive).1

theorem nearestAbove_zero : nearestAbove 0 = 0 := by
  have zero : halfEven (0 : ℝ) = 0 := by simpa using halfEven_int (R := ℝ) 0
  rw [nearestAbove,zero_div,zero,Int.cast_zero,zero_mul]

theorem nearestAbove_nonneg {x : ℝ} (nonneg : 0 ≤ x) : 0 ≤ nearestAbove x := by
  rcases nonneg.lt_or_eq with positive | rfl
  · exact (nearestAbove_pos positive).le
  · exact nearestAbove_zero.ge

-- In one binade the places are the same, and a power of two parts two binades.
theorem nearestAbove_mono {x y : ℝ} (nonneg : 0 ≤ x) (le : x ≤ y) : nearestAbove x ≤ nearestAbove y := by
  rcases nonneg.lt_or_eq with positive | rfl
  · rcases (Int.log_mono_right (b := 2) positive le).lt_or_eq with less | same
    · have apart : (2 : ℝ) ^ (Int.log 2 x + 1) ≤ 2 ^ Int.log 2 y := zpow_le_zpow_right₀ one_le_two less
      exact (nearestAbove_bounds positive).2.trans (apart.trans (nearestAbove_bounds (positive.trans_le le)).1)
    · have place : lastPlace x = lastPlace y := by rw [lastPlace,lastPlace,same]
      rw [nearestAbove,nearestAbove,place]
      apply mul_le_mul_of_nonneg_right _ (lastPlace_pos y).le
      exact Int.cast_le.mpr (halfEven_mono (div_le_div_of_nonneg_right le (lastPlace_pos y).le))
  · rw [nearestAbove_zero]
    exact nearestAbove_nonneg le

-- A number with 53 binary digits is a double already.
theorem nearestAbove_digits {n : Int} (low : 2 ^ 52 ≤ n) (high : n < 2 ^ 53) (z : Int) : nearestAbove (n * 2 ^ z) = n * 2 ^ z := by
  have place : 0 < (2 : ℝ) ^ z := zpow_pos two_pos z
  have digits : (0 : ℝ) < n := Int.cast_pos.mpr (by omega)
  have shifted (k : Nat) : ((2 : Nat) : ℝ) ^ ((k : Int) + z) = ((2 ^ k : Int) : ℝ) * 2 ^ z := by
    rw [Nat.cast_ofNat,zpow_add₀ two_ne_zero,zpow_natCast]
    norm_cast
  have above : (52 : Nat) + z ≤ Int.log 2 ((n : ℝ) * 2 ^ z) := by
    rw [← Int.zpow_le_iff_le_log one_lt_two (mul_pos digits place),shifted]
    exact mul_le_mul_of_nonneg_right (Int.cast_le.mpr low) place.le
  have below : Int.log 2 ((n : ℝ) * 2 ^ z) < (53 : Nat) + z := by
    rw [← Int.lt_zpow_iff_log_lt one_lt_two (mul_pos digits place),shifted]
    exact mul_lt_mul_of_pos_right (Int.cast_lt.mpr high) place
  have last : lastPlace ((n : ℝ) * 2 ^ z) = 2 ^ z := by
    rw [lastPlace]
    congr 1
    omega
  rw [nearestAbove,last,mul_div_cancel_right₀ _ place.ne',halfEven_int]

theorem nearestAbove_grid {n : Int} (low : 2 ^ 52 ≤ n) (high : n ≤ 2 ^ 53) (z : Int) : nearestAbove (n * 2 ^ z) = n * 2 ^ z := by
  rcases high.lt_or_eq with below | rfl
  · exact nearestAbove_digits low below z
  · have carried : ((2 ^ 53 : Int) : ℝ) * 2 ^ z = ((2 ^ 52 : Int) : ℝ) * 2 ^ (z + 1) := by
      rw [zpow_add_one₀ two_ne_zero]
      push_cast
      ring
    rw [carried]
    exact nearestAbove_digits le_rfl (by decide) (z + 1)

theorem nearestAbove_idem {x : ℝ} (nonneg : 0 ≤ x) : nearestAbove (nearestAbove x) = nearestAbove x := by
  rcases nonneg.lt_or_eq with positive | rfl
  · obtain ⟨low,high⟩ := significand positive
    exact nearestAbove_grid low high _
  · rw [nearestAbove_zero,nearestAbove_zero]

theorem nearest_above {x : ℝ} (nonneg : 0 ≤ x) : nearest x = nearestAbove x := if_neg (not_lt.mpr nonneg)

theorem nearest_below {x : ℝ} (negative : x < 0) : nearest x = -nearestAbove (-x) := if_pos negative

theorem nearest_mono {x y : ℝ} (le : x ≤ y) : nearest x ≤ nearest y := by
  rcases lt_or_ge x 0 with negative | nonneg
  · rw [nearest_below negative]
    rcases lt_or_ge y 0 with low | high
    · rw [nearest_below low]
      exact neg_le_neg (nearestAbove_mono (neg_nonneg.mpr low.le) (neg_le_neg le))
    · rw [nearest_above high]
      exact (neg_nonpos.mpr (nearestAbove_nonneg (neg_nonneg.mpr negative.le))).trans (nearestAbove_nonneg high)
  · rw [nearest_above nonneg,nearest_above (nonneg.trans le)]
    exact nearestAbove_mono nonneg le

theorem nearest_idem (x : ℝ) : nearest (nearest x) = nearest x := by
  rcases lt_or_ge x 0 with negative | nonneg
  · have above : 0 < -x := neg_pos.mpr negative
    rw [nearest_below negative,nearest_below (neg_neg_of_pos (nearestAbove_pos above)),neg_neg,nearestAbove_idem above.le]
  · rw [nearest_above nonneg,nearest_above (nearestAbove_nonneg nonneg),nearestAbove_idem nonneg]

theorem nearest_grid {n : Int} (low : 2 ^ 52 ≤ n) (high : n ≤ 2 ^ 53) (z : Int) : nearest (n * 2 ^ z) = n * 2 ^ z := by
  have nonneg : (0 : ℝ) ≤ n * 2 ^ z := mul_nonneg (Int.cast_nonneg (by omega)) (zpow_pos two_pos z).le
  rw [nearest_above nonneg,nearestAbove_grid low high]

-- The integers that 53 digits hold.
theorem nearest_integer {n : Int} (low : 2 ^ 52 ≤ n * 2 ^ k) (high : n * 2 ^ k ≤ 2 ^ 53) : nearest n = n := by
  have scaled : (n : ℝ) = ((n * 2 ^ k : Int) : ℝ) * 2 ^ (-(k : Int)) := by
    rw [zpow_neg,zpow_natCast]
    push_cast
    rw [mul_inv_cancel_right₀]
    positivity
  rw [scaled]
  exact nearest_grid low high _

noncomputable def binary64 : Grid where
  round := nearest
  mono := nearest_mono
  idem := nearest_idem
  zero := (nearest_above le_rfl).trans nearestAbove_zero
  one := by simpa using nearest_integer (n := 1) (k := 52) (by decide) (by decide)
  pos positive := (nearestAbove_pos positive).trans_eq (nearest_above positive.le).symm

end Binary64
end Floating
