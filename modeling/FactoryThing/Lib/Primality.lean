import Mathlib.NumberTheory.LucasPrimality
import Mathlib.Tactic

/-!
# Checking primality by Lucas' criterion

`p` is prime when some `a` has order `p - 1` modulo `p`. With the prime factors of `p - 1` at hand
this takes a few modular powers, which the kernel evaluates at once also for large `p`.
-/

namespace Primality

/-- `a ^ e % m` by repeated squaring; `e < 2 ^ fuel`. -/
def powMod (m a : Nat) : Nat → Nat → Nat
  | 0, _ => 1 % m
  | fuel + 1, e =>
      let half := powMod m a fuel (e / 2)
      if e % 2 = 1 then half * half % m * a % m else half * half % m

theorem powMod_eq (m a : Nat) :
    ∀ (fuel e : Nat), e < 2 ^ fuel → powMod m a fuel e = a ^ e % m := by
  intro fuel
  induction fuel with
  | zero => intro e he; obtain rfl : e = 0 := by omega
            rfl
  | succ fuel ih =>
    intro e he
    have hhalf := ih (e / 2) (by omega)
    simp only [powMod, hhalf]
    split
    · conv_rhs => rw [show e = e / 2 + e / 2 + 1 by omega, pow_succ, pow_add]
      simp [Nat.mul_mod]
    · conv_rhs => rw [show e = e / 2 + e / 2 by omega, pow_add]
      simp [Nat.mul_mod]

/-- The equations of Lucas' criterion for `p` with base `a`, where `qs` lists the prime factors of
`p - 1`. -/
def lucasCheck (p a : Nat) (qs : List Nat) : Bool :=
  powMod p a 32 (p - 1) == 1 && qs.all fun q => powMod p a 32 ((p - 1) / q) != 1

theorem cast_pow_eq_one_iff {p a e : Nat} (hp : 1 < p) (he : e < 2 ^ 32) :
    ((a : ZMod p) ^ e = 1) ↔ powMod p a 32 e = 1 := by
  rw [powMod_eq p a 32 e he, ← Nat.cast_pow]
  have h1 : ((1 : Nat) : ZMod p) = 1 := by simp
  rw [← h1, ZMod.natCast_eq_natCast_iff', Nat.mod_eq_of_lt hp]

theorem prime_of_lucasCheck {p : Nat} (a : Nat) (qs : List Nat) (hp : 1 < p) (hlt : p ≤ 2 ^ 32)
    (hprod : p - 1 = qs.prod) (hqs : ∀ q ∈ qs, q.Prime)
    (hcheck : lucasCheck p a qs = true) : p.Prime := by
  simp only [lucasCheck, Bool.and_eq_true, beq_iff_eq, List.all_eq_true, bne_iff_ne] at hcheck
  apply lucas_primality p (a : ZMod p)
  · exact (cast_pow_eq_one_iff hp (by omega)).2 hcheck.1
  · intro q hq hdvd heq
    have hmem : q ∈ qs := by
      rw [hprod] at hdvd
      obtain ⟨r, hr, hqr⟩ := (Prime.dvd_prod_iff hq.prime).1 hdvd
      rwa [(Nat.prime_dvd_prime_iff_eq hq (hqs r hr)).1 hqr]
    have hbound : (p - 1) / q < 2 ^ 32 := lt_of_le_of_lt (Nat.div_le_self _ _) (by omega)
    exact hcheck.2 q hmem ((cast_pow_eq_one_iff hp hbound).1 heq)

end Primality
