import Mathlib.Data.Nat.Prime.Basic
import Mathlib.Data.Nat.ModEq
import Mathlib.Data.Fintype.EquivFin
import Mathlib.Tactic

/-!
# Double-hash probing

The slots probed from a start index with a fixed stride, and the fact that in a table of prime
size every slot lies on every probe path.
-/

namespace Probe

/-- The index probed at step `k` from `start` with stride `stride` in a table of `size` slots. -/
def index (size start stride k : Nat) : Nat := (start + k * stride) % size

theorem index_lt {size start stride k : Nat} (hsize : 0 < size) :
    index size start stride k < size :=
  Nat.mod_lt _ hsize

@[simp] theorem index_zero {size start stride : Nat} (h : start < size) :
    index size start stride 0 = start := by
  simp [index, Nat.mod_eq_of_lt h]

theorem index_succ {size start stride k : Nat} (hsize : 0 < size) (hstride : stride < size) :
    index size start stride (k + 1) =
      if index size start stride k + stride ≥ size
      then index size start stride k + stride - size
      else index size start stride k + stride := by
  have hlt : index size start stride k < size := index_lt hsize
  have heq : index size start stride (k + 1) = (index size start stride k + stride) % size := by
    simp only [index, Nat.mod_add_mod]
    congr 1; ring
  rw [heq]
  split
  · rename_i hge
    rw [Nat.mod_eq_sub_mod hge, Nat.mod_eq_of_lt (by omega)]
  · exact Nat.mod_eq_of_lt (by omega)

theorem index_injOn {size start stride : Nat} (hprime : size.Prime) (hpos : 0 < stride)
    (hstride : stride < size) {i j : Nat} (hi : i < size) (hj : j < size)
    (h : index size start stride i = index size start stride j) : i = j := by
  have hcop : Nat.Coprime size stride :=
    (Nat.Prime.coprime_iff_not_dvd hprime).2 (Nat.not_dvd_of_pos_of_lt hpos hstride)
  have hmod : i * stride ≡ j * stride [MOD size] := Nat.ModEq.add_left_cancel' start h
  have hij : i ≡ j [MOD size] := Nat.ModEq.cancel_right_of_coprime hcop hmod
  exact Nat.ModEq.eq_of_lt_of_lt hij hi hj

theorem index_surj {size start stride : Nat} (hprime : size.Prime) (hpos : 0 < stride)
    (hstride : stride < size) {target : Nat} (ht : target < size) :
    ∃ k < size, index size start stride k = target := by
  have hsize := hprime.pos
  let f : Fin size → Fin size := fun k => ⟨index size start stride k, index_lt hsize⟩
  have hinj : Function.Injective f := by
    intro i j hij
    exact Fin.ext (index_injOn hprime hpos hstride i.2 j.2 (Fin.mk.inj_iff.mp hij))
  obtain ⟨k, hk⟩ := (Finite.injective_iff_surjective.mp hinj) ⟨target, ht⟩
  exact ⟨k, k.2, Fin.mk.inj_iff.mp hk⟩

end Probe
