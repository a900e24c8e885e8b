import Mathlib.Data.List.Nodup
import Mathlib.Data.List.Perm.Subperm
import Mathlib.Logic.Relation

/-!
# Closing a list under successors

A list is walked from its front, while the successors of what is met are put behind its end, each of
them once. Given as many rounds as there can be elements, the walk ends with all that can be reached
from what was there at first.
-/

namespace Worklist

open Relation

variable {K : Type} [DecidableEq K]

/-- What is not there yet is put behind the end. -/
def addNew : List K → List K → List K
  | [], results => results
  | x :: xs, results => if x ∈ results then addNew xs results else addNew xs (results ++ [x])

/-- The walk from the index `idx` on. -/
def closeFrom (next : K → List K) : Nat → Nat → List K → List K
  | 0, _, results => results
  | fuel + 1, idx, results =>
      match results[idx]? with
      | none => results
      | some x => closeFrom next fuel (idx + 1) (addNew (next x) results)

variable {next : K → List K} {roots results xs : List K} {x : K}

omit [DecidableEq K] in
variable (next roots) in
def Reached (x : K) : Prop := ∃ root ∈ roots, ReflTransGen (fun x y => y ∈ next x) root x

theorem mem_addNew : x ∈ addNew xs results ↔ x ∈ results ∨ x ∈ xs := by
  induction xs generalizing results with
  | nil => simp [addNew]
  | cons y xs ih =>
    unfold addNew
    split
    · rename_i hy
      rw [ih, List.mem_cons]
      constructor
      · rintro (hx | hx)
        · exact Or.inl hx
        · exact Or.inr (Or.inr hx)
      · rintro (hx | rfl | hx)
        · exact Or.inl hx
        · exact Or.inl hy
        · exact Or.inr hx
    · rw [ih, List.mem_append, List.mem_singleton, List.mem_cons, or_assoc]

theorem nodup_addNew (h : results.Nodup) : (addNew xs results).Nodup := by
  induction xs generalizing results with
  | nil => exact h
  | cons y xs ih =>
    unfold addNew
    split
    · exact ih h
    · rename_i hy
      exact ih (List.nodup_append.mpr ⟨h, List.nodup_singleton y, fun a ha b hb heq =>
        hy (List.mem_singleton.mp hb ▸ heq ▸ ha)⟩)

theorem prefix_addNew : results <+: addNew xs results := by
  induction xs generalizing results with
  | nil => exact List.prefix_rfl
  | cons y xs ih =>
    unfold addNew
    split
    · exact ih
    · exact (List.prefix_append results [y]).trans ih

omit [DecidableEq K] in
/-- A walk that has come to the index `idx`. -/
structure Closing (next : K → List K) (roots : List K) (idx : Nat) (results : List K) : Prop where
  nodup : results.Nodup
  begins : ∀ x ∈ roots, x ∈ results
  sound : ∀ x ∈ results, Reached next roots x
  closed : ∀ i < idx, ∀ x, results[i]? = some x → ∀ y ∈ next x, y ∈ results

omit [DecidableEq K] in
theorem Closing.mem_iff {idx : Nat} (h : Closing next roots idx results)
    (hend : results.length ≤ idx) : x ∈ results ↔ Reached next roots x := by
  refine ⟨h.sound x, ?_⟩
  rintro ⟨root, hroot, hreach⟩
  induction hreach with
  | refl => exact h.begins root hroot
  | @tail y z _ hz ih =>
    obtain ⟨i, hi⟩ := List.mem_iff_getElem?.mp ih
    have hlt : i < results.length := (List.getElem?_eq_some_iff.mp hi).1
    exact h.closed i (Nat.lt_of_lt_of_le hlt hend) y hi z hz

theorem Closing.step {idx : Nat} (h : Closing next roots idx results)
    (hx : results[idx]? = some x) : Closing next roots (idx + 1) (addNew (next x) results) where
  nodup := nodup_addNew h.nodup
  begins y hy := mem_addNew.mpr (Or.inl (h.begins y hy))
  sound y hy := by
    obtain hy | hy := mem_addNew.mp hy
    · exact h.sound y hy
    · obtain ⟨root, hroot, hreach⟩ := h.sound x (List.mem_of_getElem? hx)
      exact ⟨root, hroot, hreach.tail hy⟩
  closed i hi y hy z hz := by
    have hidx : idx < results.length := (List.getElem?_eq_some_iff.mp hx).1
    have hold : results[i]? = some y := by
      obtain ⟨rest, hrest⟩ := @prefix_addNew _ _ results (next x)
      rwa [← hrest, List.getElem?_append_left (by omega)] at hy
    obtain hlt | rfl := Nat.lt_or_eq_of_le (Nat.le_of_lt_succ hi)
    · exact mem_addNew.mpr (Or.inl (h.closed i hlt y hold z hz))
    · cases hx.symm.trans hold
      exact mem_addNew.mpr (Or.inr hz)

theorem mem_closeFrom {possible : List K} (hnext : ∀ x, next x ⊆ possible) {fuel : Nat} :
    ∀ {idx : Nat} {results : List K}, Closing next roots idx results → results ⊆ possible →
      possible.length < idx + fuel →
        (x ∈ closeFrom next fuel idx results ↔ Reached next roots x) := by
  have hlength : ∀ {results : List K}, results.Nodup → results ⊆ possible →
      results.length ≤ possible.length := fun hnodup hsub =>
    (List.subperm_of_subset hnodup hsub).length_le
  induction fuel with
  | zero =>
    intro idx results h hsub hfuel
    exact h.mem_iff (by have := hlength h.nodup hsub; omega)
  | succ fuel ih =>
    intro idx results h hsub hfuel
    unfold closeFrom
    split
    · rename_i hnone
      exact h.mem_iff (List.getElem?_eq_none_iff.mp hnone)
    · rename_i y hy
      refine ih (h.step hy) (fun z hz => ?_) (by omega)
      obtain hz | hz := mem_addNew.mp hz
      · exact hsub hz
      · exact hnext y hz

end Worklist
