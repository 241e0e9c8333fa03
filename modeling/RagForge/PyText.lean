import Mathlib.Data.List.Basic

namespace RagForge

-- Python's `str`: a sequence of code points. Fixed texts stay `String`.
abbrev Str := List Char
abbrev Bytes := List UInt8

namespace PyText

-- `str.isspace` for one code point.
def isSpace (c : Char) : Bool :=
  let n := c.toNat
  (9 ≤ n && n ≤ 13) || (28 ≤ n && n ≤ 32) || n == 0x85 || n == 0xA0 || n == 0x1680 ||
    (0x2000 ≤ n && n ≤ 0x200A) || n == 0x2028 || n == 0x2029 || n == 0x202F || n == 0x205F || n == 0x3000

-- `str.strip()`
def strip (text : Str) : Str := ((text.dropWhile isSpace).reverse.dropWhile isSpace).reverse

-- `sep.join(parts)`
def join (sep : Str) : List Str → Str
  | [] => []
  | [part] => part
  | part :: rest => part ++ sep ++ join sep rest

theorem join_intercalate (sep : Str) (parts : List Str) : join sep parts = sep.intercalate parts := by
  induction parts with
  | nil => rfl
  | cons part rest ih =>
    cases rest with
    | nil => simp [join]
    | cons other rest => rw [join,ih,List.intercalate_cons_cons]; exact List.cons_ne_nil _ _

-- The first code point of each block of ten decimal digits (general category
-- Nd, Unicode 15.0): what `\d` matches in a `str` pattern and `int()` reads.
def decimalZeros : List Nat :=
  [0x30, 0x660, 0x6F0, 0x7C0, 0x966, 0x9E6, 0xA66, 0xAE6, 0xB66, 0xBE6, 0xC66, 0xCE6, 0xD66,
   0xDE6, 0xE50, 0xED0, 0xF20, 0x1040, 0x1090, 0x17E0, 0x1810, 0x1946, 0x19D0, 0x1A80, 0x1A90,
   0x1B50, 0x1BB0, 0x1C40, 0x1C50, 0xA620, 0xA8D0, 0xA900, 0xA9D0, 0xA9F0, 0xAA50, 0xABF0,
   0xFF10, 0x104A0, 0x10D30, 0x11066, 0x110F0, 0x11136, 0x111D0, 0x112F0, 0x11450, 0x114D0,
   0x11650, 0x116C0, 0x11730, 0x118E0, 0x11950, 0x11C50, 0x11D50, 0x11DA0, 0x11F50, 0x16A60,
   0x16AC0, 0x16B50, 0x1D7CE, 0x1D7D8, 0x1D7E2, 0x1D7EC, 0x1D7F6, 0x1E140, 0x1E2F0, 0x1E4F0,
   0x1E950, 0x1FBF0]

def decimalZero (c : Char) : Option Nat :=
  decimalZeros.find? fun first => first ≤ c.toNat && c.toNat < first + 10

def isDecimal (c : Char) : Bool := (decimalZero c).isSome

def decimalValue (c : Char) : Nat := c.toNat - (decimalZero c).getD c.toNat

-- `int(text)` on a run of decimal digits. Since CPython 3.11 a run of more than
-- 4300 digits is refused with ValueError, leading zeros counted.
def maxStrDigits : Nat := 4300

def int (digits : Str) : Option Nat :=
  if digits.length ≤ maxStrDigits then
    some (digits.foldl (fun value c => 10 * value + decimalValue c) 0)
  else none

theorem int_none (digits : Str) : int digits = none ↔ maxStrDigits < digits.length := by
  unfold int
  split <;> simp <;> omega

end PyText
end RagForge
