import FactoryThing.Lib.DecimalNumerals
import Mathlib.Data.Nat.Digits.Defs

/-!
# Formatted text

Texts as lists of bytes, and how the conversions `%d`, `%lu` and `%f` print numbers: decimal digits,
and the exact decimal fraction of a binary floating-point number rounded to six digits.
-/

namespace FormattedText

abbrev Text := List UInt8

def ascii (s : String) : Text := s.toList.map fun c => UInt8.ofNat c.toNat

def upToNul (bytes : List UInt8) : Text := bytes.takeWhile (· ≠ 0)

/-- `%lu`. -/
def decimal (n : Nat) : Text := (Nat.toDigits 10 n).map fun c => UInt8.ofNat c.toNat

/-- `%ld`. -/
def signedDecimal (z : Int) : Text :=
  if z < 0 then ascii "-" ++ decimal z.natAbs else decimal z.natAbs

/-- The signed integer with the same `w` bits. -/
def wrap (w : Nat) (n : Nat) : Int := if n < 2 ^ (w - 1) then n else n - 2 ^ w

/-- A floating-point number: `mantissa * 2 ^ exponent` up to its sign. -/
inductive FloatValue where
  | finite (negative : Bool) (mantissa : Nat) (exponent : Int)
  | infinite (negative : Bool)
  | nan (negative : Bool)
  deriving DecidableEq

/-- A number of the binary interchange format with `e` bits for the exponent and `m` for the
fraction. -/
def FloatValue.ofBits (e m : Nat) (bits : Nat) : FloatValue :=
  let negative := bits.testBit (e + m)
  let exponent := bits / 2 ^ m % 2 ^ e
  let fraction := bits % 2 ^ m
  let bias : Int := 2 ^ (e - 1) - 1
  if exponent = 2 ^ e - 1 then
    if fraction = 0 then .infinite negative else .nan negative
  else if exponent = 0 then .finite negative fraction (1 - bias - m)
  else .finite negative (2 ^ m + fraction) (exponent - bias - m)

/-- The quotient rounded to the nearest integer, and to the even one of two. -/
def divideRounded (n d : Nat) : Nat :=
  let q := n / d
  let r := n % d
  if 2 * r < d then q else if d < 2 * r then q + 1 else if q % 2 = 0 then q else q + 1

/-- The number in units of the sixth digit behind the point. -/
def millionths (mantissa : Nat) : Int → Nat
  | .ofNat k => mantissa * 2 ^ k * 10 ^ 6
  | .negSucc k => divideRounded (mantissa * 10 ^ 6) (2 ^ (k + 1))

/-- `%f`. -/
def fixedPoint (value : FloatValue) : Text :=
  let sign (negative : Bool) := if negative then ascii "-" else []
  match value with
  | .finite negative mantissa exponent =>
      let n := millionths mantissa exponent
      let digits := decimal (n % 10 ^ 6)
      sign negative ++ decimal (n / 10 ^ 6) ++ ascii "." ++
        List.replicate (6 - digits.length) 48 ++ digits
  | .infinite negative => sign negative ++ ascii "inf"
  | .nan negative => sign negative ++ ascii "nan"

example : fixedPoint (.ofBits 11 52 0xC004000000000000) = ascii "-2.500000" := by decide +kernel

theorem length_decimal_le {n k : Nat} (hk : 0 < k) (h : n < 10 ^ k) : (decimal n).length ≤ k := by
  rw [decimal, List.length_map]
  exact (Nat.length_toDigits_le_iff (by decide) hk).mpr h

theorem length_signedDecimal_le {z : Int} {k : Nat} (hk : 0 < k) (h : z.natAbs < 10 ^ k) :
    (signedDecimal z).length ≤ k + 1 := by
  have hdigits := length_decimal_le hk h
  unfold signedDecimal
  split
  · rw [List.length_append]
    exact (Nat.add_comm _ _).trans_le (Nat.add_le_add hdigits (by decide))
  · omega

theorem digitChar_toUInt8 {d : Nat} (h : d < 10) :
    UInt8.ofNat (Nat.digitChar d).toNat = UInt8.ofNat (48 + d) := by
  revert d
  decide

theorem decimal_of_lt {d : Nat} (h : d < 10) : decimal d = [UInt8.ofNat (48 + d)] := by
  rw [decimal, Nat.toDigits_of_lt_base h, List.map_singleton, digitChar_toUInt8 h]

theorem decimal_of_le {n : Nat} (h : 10 ≤ n) :
    decimal n = decimal (n / 10) ++ [UInt8.ofNat (48 + n % 10)] := by
  rw [decimal, Nat.toDigits_of_base_le (by decide) h, List.map_append, List.map_singleton,
    digitChar_toUInt8 (Nat.mod_lt n (by decide))]
  rfl

open DecimalNumerals in
theorem push_digit {m d : Nat} (h : d < 10) : push m (UInt8.ofNat (48 + d)) = m * 10 + d := by
  have hsmall : 48 + d < 2 ^ 8 := by omega
  rw [push, UInt8.toNat_ofNat', Nat.mod_eq_of_lt hsmall, Nat.add_sub_cancel_left]

open DecimalNumerals in
theorem decimal_spec (n : Nat) : IsNumeral (decimal n) ∧ value (decimal n) = n := by
  have hdigit : ∀ {d : Nat}, d < 10 → IsDigit (UInt8.ofNat (48 + d)) := by
    intro d hd
    revert d
    decide
  induction n using Nat.strongRecOn with
  | ind n ih =>
    by_cases hlt : n < 10
    · rw [decimal_of_lt hlt]
      refine ⟨⟨List.cons_ne_nil _ _, ?_⟩, ?_⟩
      · intro c hc
        rw [List.mem_singleton.mp hc]
        exact hdigit hlt
      · show push 0 _ = n
        rw [push_digit hlt, Nat.zero_mul, Nat.zero_add]
    · have hle : 10 ≤ n := Nat.not_lt.mp hlt
      have hlast : n % 10 < 10 := Nat.mod_lt n (by decide)
      obtain ⟨hnumeral, hvalue⟩ := ih (n / 10) (by omega)
      rw [decimal_of_le hle]
      refine ⟨⟨by simp, ?_⟩, ?_⟩
      · intro c hc
        obtain hc | hc := List.mem_append.mp hc
        · exact hnumeral.digits c hc
        · rw [List.mem_singleton.mp hc]
          exact hdigit hlast
      · rw [value, valueFrom, List.foldl_append]
        show push (value (decimal (n / 10))) _ = n
        rw [hvalue, push_digit hlast]
        omega

theorem wrap_eq_iff {w n : Nat} : wrap w n = n ↔ n < 2 ^ (w - 1) := by
  have hpos : (0 : Int) < 2 ^ w := by positivity
  unfold wrap
  split
  · rename_i h
    exact iff_of_true rfl h
  · rename_i h
    exact iff_of_false (by omega) h

theorem upToNul_of_not_mem {bytes : List UInt8} (h : 0 ∉ bytes) : upToNul bytes = bytes := by
  rw [upToNul, List.takeWhile_eq_self_iff]
  intro b hb
  simpa using ne_of_mem_of_not_mem hb h

end FormattedText
