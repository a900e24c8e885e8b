import Mathlib.Data.Nat.Basic
import Mathlib.Tactic.Ring

/-!
# Little-endian numbers

A natural number as a fixed number of bytes, least significant byte first, and back.
-/

namespace LittleEndian

/-- The `k` least significant bytes of `n`. -/
def toBytes : Nat → Nat → List UInt8
  | 0, _ => []
  | k + 1, n => UInt8.ofNat n :: toBytes k (n / 256)

def toNat : List UInt8 → Nat
  | [] => 0
  | b :: bs => b.toNat + 256 * toNat bs

@[simp] theorem length_toBytes (k n : Nat) : (toBytes k n).length = k := by
  induction k generalizing n with
  | zero => rfl
  | succ k ih => simp [toBytes, ih]

theorem toNat_lt (bs : List UInt8) : toNat bs < 256 ^ bs.length := by
  induction bs with
  | nil => simp [toNat]
  | cons b bs ih =>
    have hb : b.toNat < 256 := b.toNat_lt
    simp only [toNat, List.length_cons, pow_succ]
    omega

theorem toNat_toBytes (k n : Nat) : toNat (toBytes k n) = n % 256 ^ k := by
  induction k generalizing n with
  | zero => simp [toBytes, toNat, Nat.mod_one]
  | succ k ih =>
    rw [toBytes, toNat, ih, pow_succ, Nat.mul_comm (256 ^ k) 256, Nat.mod_mul]
    simp

theorem toNat_toBytes_of_lt {k n : Nat} (h : n < 256 ^ k) : toNat (toBytes k n) = n := by
  rw [toNat_toBytes, Nat.mod_eq_of_lt h]

theorem toBytes_toNat (bs : List UInt8) : toBytes bs.length (toNat bs) = bs := by
  induction bs with
  | nil => rfl
  | cons b bs ih =>
    have hb : b.toNat < 256 := b.toNat_lt
    have hdiv : (b.toNat + 256 * toNat bs) / 256 = toNat bs := by omega
    have hhead : UInt8.ofNat (b.toNat + 256 * toNat bs) = b := by
      apply UInt8.toNat.inj
      simp
    simp only [List.length_cons, toNat, toBytes, hdiv, hhead, ih]

end LittleEndian
