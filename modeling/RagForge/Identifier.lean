import Mathlib.Algebra.Group.Nat.Defs
import RagForge.PyText

namespace RagForge

-- `uuid.UUID`: a 128-bit number. `uuid4()` draws one; the callers' logs of drawn
-- values keep the draws apart.
structure Uuid where
  int : BitVec 128
  deriving DecidableEq, Repr

namespace Uuid

def hexDigits : Nat → Nat → Str
  | 0,_ => []
  | k+1,n => hexDigits k (n / 16) ++ [Nat.digitChar (n % 16)]

def hex (u : Uuid) : Str := hexDigits 32 u.int.toNat

-- `str(u)`: groups of 8, 4, 4, 4 and 12 hexadecimal digits.
def groups (hex : Str) : Str :=
  hex.take 8 ++ '-' :: ((hex.drop 8).take 4 ++ '-' :: ((hex.drop 12).take 4 ++
    '-' :: ((hex.drop 16).take 4 ++ '-' :: hex.drop 20)))

def str (u : Uuid) : Str := groups u.hex

def hexValue (c : Char) : Option Nat := (List.range 16).find? fun d => Nat.digitChar d == c

def readHex (digits : Str) : Option Nat :=
  digits.foldlM (fun value c => (hexValue c).map (16 * value + ·)) 0

-- `uuid.UUID(text)` up to letter case and the optional braces and urn prefix,
-- which no stored identifier carries.
def parse (text : Str) : Option Uuid :=
  let digits := text.filter (· ≠ '-')
  if digits.length = 32 then (readHex digits).map (⟨BitVec.ofNat 128 ·⟩) else none

theorem hexDigits_length (k n : Nat) : (hexDigits k n).length = k := by
  induction k generalizing n with
  | zero => rfl
  | succ k ih => simp [hexDigits,ih]

theorem hex_length (u : Uuid) : u.hex.length = 32 := hexDigits_length _ _

theorem digitChar_plain : ∀ d < 16, Nat.digitChar d ≠ '-' ∧ Nat.digitChar d ≠ '/' ∧ Nat.digitChar d ≠ '.' := by
  decide

theorem hexValue_digitChar : ∀ d < 16, hexValue (Nat.digitChar d) = some d := by decide

theorem hexDigits_plain (k n : Nat) : ∀ c ∈ hexDigits k n, c ≠ '-' ∧ c ≠ '/' ∧ c ≠ '.' := by
  induction k generalizing n with
  | zero => intro c member; cases member
  | succ k ih =>
    intro c member
    rcases List.mem_append.mp member with front | last
    · exact ih _ c front
    · rw [List.mem_singleton.mp last]
      exact digitChar_plain _ (Nat.mod_lt _ (by decide))

theorem readHex_hexDigits (k n : Nat) : readHex (hexDigits k n) = some (n % 16 ^ k) := by
  induction k generalizing n with
  | zero => simp [hexDigits,readHex,Nat.mod_one]
  | succ k ih =>
    have front := ih (n / 16)
    unfold readHex at front ⊢
    rw [hexDigits,List.foldlM_append,front]
    have last := hexValue_digitChar (n % 16) (Nat.mod_lt _ (by decide))
    simp only [List.foldlM_cons,List.foldlM_nil,last,Option.map_some,Option.bind_eq_bind,Option.bind_some,
      Option.pure_def,Option.some.injEq]
    have shift := Nat.mod_mul (x := n) (a := 16) (b := 16 ^ k)
    rw [Nat.pow_succ,Nat.mul_comm (16 ^ k) 16,shift]
    omega

theorem regroup (hex : Str) : hex.take 8 ++ ((hex.drop 8).take 4 ++ ((hex.drop 12).take 4 ++
    ((hex.drop 16).take 4 ++ hex.drop 20))) = hex := by
  have one (k n : Nat) : (hex.drop k).take n ++ hex.drop (k + n) = hex.drop k := by
    rw [← List.drop_drop,List.take_append_drop]
  rw [one 16 4,one 12 4,one 8 4,List.take_append_drop]

theorem filter_groups (hex : Str) (plain : ∀ c ∈ hex, c ≠ '-') :
    (groups hex).filter (· ≠ '-') = hex := by
  have keep (part : Str) (inside : ∀ c ∈ part, c ∈ hex) : part.filter (· ≠ '-') = part :=
    List.filter_eq_self.mpr fun c member => by simpa using plain c (inside c member)
  have dropped (k : Nat) : ∀ c ∈ hex.drop k, c ∈ hex := fun c => List.mem_of_mem_drop
  have taken (k n : Nat) : ∀ c ∈ (hex.drop k).take n, c ∈ hex :=
    fun c member => List.mem_of_mem_drop (List.mem_of_mem_take member)
  have dash (rest : Str) : List.filter (· ≠ '-') ('-' :: rest) = rest.filter (· ≠ '-') := rfl
  simp only [groups,List.filter_append,dash]
  rw [keep _ (fun c => List.mem_of_mem_take),keep _ (taken 8 4),keep _ (taken 12 4),keep _ (taken 16 4),
    keep _ (dropped 20)]
  exact regroup hex

theorem filter_str (u : Uuid) : u.str.filter (· ≠ '-') = u.hex :=
  filter_groups _ fun c member => (hexDigits_plain 32 u.int.toNat c member).1

theorem str_plain (u : Uuid) : u.str ≠ [] ∧ ∀ c ∈ u.str, c ≠ '/' ∧ c ≠ '.' := by
  constructor
  · intro none_
    have digits := congrArg List.length (filter_str u)
    rw [none_,hex_length] at digits
    cases digits
  · intro c member
    by_cases dash : c = '-'
    · subst dash
      decide
    · have digit : c ∈ u.hex := filter_str u ▸ List.mem_filter.mpr ⟨member,decide_eq_true dash⟩
      exact (hexDigits_plain 32 u.int.toNat c digit).2

-- The text form names the identifier: the stores compare texts, the service
-- parses them back.
theorem parse_str (u : Uuid) : parse u.str = some u := by
  have value := readHex_hexDigits 32 u.int.toNat
  have small : u.int.toNat % 16 ^ 32 = u.int.toNat := Nat.mod_eq_of_lt (by simpa using u.int.isLt)
  rw [small] at value
  simp only [parse,filter_str,hex_length,if_true]
  rw [show u.hex = hexDigits 32 u.int.toNat from rfl,value]
  simp

theorem str_injective {u v : Uuid} (same : u.str = v.str) : u = v := by
  have parsed := parse_str u
  rw [same,parse_str v] at parsed
  exact (Option.some.inj parsed).symm

end Uuid
end RagForge
