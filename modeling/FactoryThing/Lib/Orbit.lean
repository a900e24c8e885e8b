import Mathlib.Data.Fintype.Pigeonhole
import Mathlib.Data.Fintype.EquivFin
import Mathlib.Logic.Function.Iterate

/-!
# Orbits in a finite range

A loop whose state is a number below a bound and which goes on by a function has seen all that it
will ever see after as many steps as there are numbers.
-/

namespace Orbit

variable {f : Nat → Nat} {n x : Nat}

theorem iterate_lt (hf : ∀ i < n, f i < n) (hx : x < n) (k : Nat) : f^[k] x < n := by
  induction k with
  | zero => exact hx
  | succ k ih =>
    rw [Function.iterate_succ_apply']
    exact hf _ ih

/-- What an orbit meets at all, it meets within the first `n` steps. -/
theorem first_lt {P : Nat → Prop} (hf : ∀ i < n, f i < n) (hx : x < n) {k : Nat} (hk : P (f^[k] x))
    (hfirst : ∀ m < k, ¬ P (f^[m] x)) : k < n := by
  by_contra hle
  have hcard : Fintype.card (Fin n) < Fintype.card (Fin (n + 1)) := by
    simp
  obtain ⟨i, j, hne, hsame⟩ := Fintype.exists_ne_map_eq_of_card_lt
    (fun m : Fin (n + 1) => (⟨f^[m] x, iterate_lt hf hx m⟩ : Fin n)) hcard
  -- two steps at which the orbit is at the same place
  have hrepeats : ∃ i j : Nat, i < j ∧ j ≤ n ∧ f^[i] x = f^[j] x := by
    have heq := Fin.mk.inj_iff.mp hsame
    rcases Nat.lt_or_gt_of_ne fun h => hne (Fin.ext h) with hlt | hlt
    · exact ⟨i, j, hlt, Nat.le_of_lt_succ j.2, heq⟩
    · exact ⟨j, i, hlt, Nat.le_of_lt_succ i.2, heq.symm⟩
  obtain ⟨i, j, hlt, hj, heq⟩ := hrepeats
  have hback : f^[k - (j - i)] x = f^[k] x := by
    have hleft : k - (j - i) = (k - j) + i := by omega
    have hright : k = (k - j) + j := by omega
    rw [hleft, Function.iterate_add_apply, heq, ← Function.iterate_add_apply, ← hright]
  exact hfirst (k - (j - i)) (by omega) (hback ▸ hk)

end Orbit
