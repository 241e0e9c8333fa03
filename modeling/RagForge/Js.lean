import Mathlib.Algebra.Group.Nat.Defs
import Mathlib.Data.Nat.Log
import Mathlib.Data.List.Basic

namespace Js

-- A string is a sequence of UTF-16 code units.
abbrev JsString := List UInt16

def encodeChar (c : Char) : JsString :=
  if c.toNat < 0x10000 then [c.toNat.toUInt16]
  else [(0xD800 + (c.toNat - 0x10000) / 0x400).toUInt16,(0xDC00 + (c.toNat - 0x10000) % 0x400).toUInt16]

def encode (text : List Char) : JsString := text.flatMap encodeChar

-- An ASCII unit stands for itself; no other character's encoding holds one.
theorem encodeChar_ascii (low : c.toNat < 0x80) : encodeChar c = [c.toNat.toUInt16] := by
  unfold encodeChar
  rw [if_pos (by omega)]

theorem encodeChar_units (high : 0x80 ≤ c.toNat) : encodeChar c ≠ [] ∧ ∀ u ∈ encodeChar c, 0x80 ≤ u.toNat := by
  have bound : c.toNat < 0x110000 := by
    rcases c.valid with low | high <;> simp only [Char.toNat] <;> omega
  unfold encodeChar
  split
  · rename_i bmp
    refine ⟨List.cons_ne_nil _ _,fun u member => ?_⟩
    rw [List.mem_singleton.mp member,Nat.toUInt16_eq,UInt16.toNat_ofNat_of_lt' (by simpa using bmp)]
    exact high
  · refine ⟨List.cons_ne_nil _ _,fun u member => ?_⟩
    rcases List.mem_cons.mp member with rfl | second
    · rw [Nat.toUInt16_eq,UInt16.toNat_ofNat_of_lt' (by simp only [UInt16.size]; omega)]
      omega
    · rw [List.mem_singleton.mp second,Nat.toUInt16_eq,UInt16.toNat_ofNat_of_lt' (by simp only [UInt16.size]; omega)]
      omega

-- The multiple of `scale` nearest to `n`, ties to the even quotient.
def nearest (n scale : Nat) : Nat :=
  (if scale < 2 * (n % scale) ∨ scale = 2 * (n % scale) ∧ n / scale % 2 = 1 then n / scale + 1 else n / scale) * scale

theorem nearest_ge (n scale : Nat) : n / scale * scale ≤ nearest n scale := by
  refine Nat.mul_le_mul_right scale ?_
  split <;> omega

-- `Number` of a natural number: the nearest double, and `none` for Infinity.
-- Integers below 2^53 are doubles.
def number (n : Nat) : Option Nat :=
  if n < 2 ^ 53 then some n
  else
    let value := nearest n (2 ^ (Nat.log2 n - 52))
    if Nat.log2 value < 1024 then some value else none

theorem number_small (read : number n = some value) (small : value < 2 ^ 53) : value = n := by
  unfold number at read
  split at read
  · exact (Option.some.inj read).symm
  · rename_i large
    dsimp only at read
    split at read
    · have size : 53 ≤ Nat.log2 n := (Nat.le_log2 (by omega)).mpr (by omega)
      have whole : 2 ^ 52 * 2 ^ (Nat.log2 n - 52) ≤ n := by
        rw [← Nat.pow_add,show 52 + (Nat.log2 n - 52) = Nat.log2 n by omega]
        exact Nat.log2_self_le (by omega)
      have quotient : 2 ^ 52 ≤ n / 2 ^ (Nat.log2 n - 52) := (Nat.le_div_iff_mul_le (Nat.two_pow_pos _)).mpr whole
      have double : 2 ^ 1 ≤ 2 ^ (Nat.log2 n - 52) := Nat.pow_le_pow_right (by omega) (by omega)
      have product := (Nat.mul_le_mul quotient double).trans (nearest_ge n _)
      rw [Option.some.inj read] at product
      omega
    · cases read

theorem number_exact (small : n < 2 ^ 53) : number n = some n := if_pos small

-- An array has fewer than 2^32 elements; reading at any other index is undefined.
structure JsArray (α : Type) where
  items : List α
  short : items.length < 2 ^ 32

def JsArray.get (array : JsArray α) (index : Int) : Option α := if 0 ≤ index then array.items[index.toNat]? else none

theorem JsArray.get_pred {array : JsArray α} {n : Nat} (low : 1 ≤ n) (high : n ≤ array.items.length) :
    ∃ item, array.get ((n : Int) - 1) = some item := by
  unfold JsArray.get
  rw [if_pos (by omega),show ((n : Int) - 1).toNat = n - 1 by omega]
  exact ⟨_,List.getElem?_eq_getElem (by omega)⟩

-- The characters in front of an ASCII unit are ASCII characters themselves.
theorem encode_cons (start : encode text = u :: units) (low : u.toNat < 0x80) :
    ∃ c rest, text = c :: rest ∧ c.toNat = u.toNat ∧ encode rest = units := by
  cases text with
  | nil => cases start
  | cons c rest =>
    have whole : encodeChar c ++ encode rest = u :: units := start
    by_cases ascii : c.toNat < 0x80
    · rw [encodeChar_ascii ascii] at whole
      obtain ⟨same,later⟩ := List.cons.inj whole
      refine ⟨c,rest,rfl,?_,later⟩
      rw [← same,Nat.toUInt16_eq,UInt16.toNat_ofNat_of_lt' (by simp only [UInt16.size]; omega)]
    · obtain ⟨some_,high⟩ := encodeChar_units (Nat.le_of_not_lt ascii)
      cases shape : encodeChar c with
      | nil => exact absurd shape some_
      | cons first others =>
        rw [shape] at whole
        have large := high first (shape ▸ List.mem_cons_self)
        rw [(List.cons.inj whole).1] at large
        omega

end Js
