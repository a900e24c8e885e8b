import Mathlib.Data.List.Induction
import Mathlib.Data.List.Sort

/-!
# Messages kept until they are acknowledged

A sender keeps the messages it has sent, the newest first, until they are acknowledged by number.
Where it has room for a limited number of them only, the oldest one goes when another is sent.
-/

namespace Retention

variable {M K : Type} [DecidableEq K] (number : M → K) (max : Nat)

inductive Note (M K : Type) where
  | sent (m : M)
  | acked (k : K)

/-- Room for one more message; without a limit (0) there always is. -/
def evict (kept : List M) : List M :=
  if 0 < max ∧ max ≤ kept.length then kept.dropLast else kept

/-- The messages kept after one more event. -/
def next (kept : List M) : Note M K → List M
  | .sent m => m :: evict max kept
  | .acked k => kept.filter fun m => number m ≠ k

def retained (notes : List (Note M K)) : List M := notes.foldl (next number max) []

def sents : List (Note M K) → List M
  | [] => []
  | .sent m :: notes => m :: sents notes
  | .acked _ :: notes => sents notes

variable {number max} (notes notes' : List (Note M K))

omit [DecidableEq K] in
@[simp] theorem sents_append : sents (notes ++ notes') = sents notes ++ sents notes' := by
  induction notes with
  | nil => rfl
  | cons note notes ih => cases note <;> simp [sents, ih]

@[simp] theorem retained_concat (note : Note M K) :
    retained number max (notes ++ [note]) = next number max (retained number max notes) note := by
  simp [retained]

omit [DecidableEq K] in
theorem evict_sublist (kept : List M) : (evict max kept).Sublist kept := by
  unfold evict
  split
  · exact List.dropLast_sublist kept
  · exact .refl kept

omit [DecidableEq K] in
theorem length_evict_lt (hmax : max ≠ 0) {kept : List M} (h : kept.length ≤ max) :
    (evict max kept).length < max := by
  unfold evict
  split
  · rw [List.length_dropLast]
    omega
  · omega

theorem length_retained_le (hmax : max ≠ 0) : (retained number max notes).length ≤ max := by
  induction notes using List.reverseRecOn with
  | nil => exact Nat.zero_le _
  | append_singleton notes note ih =>
    rw [retained_concat]
    cases note with
    | sent m => exact length_evict_lt hmax ih
    | acked k => exact Nat.le_trans (List.length_filter_le _ _) ih

theorem retained_sublist : (retained number max notes).Sublist (sents notes).reverse := by
  induction notes using List.reverseRecOn with
  | nil => exact .refl _
  | append_singleton notes note ih =>
    rw [retained_concat, sents_append, List.reverse_append]
    cases note with
    | sent m => exact ((evict_sublist _).trans ih).cons_cons m
    | acked k => exact List.filter_sublist.trans ih

theorem retained_pairwise [LT K] (h : (sents notes).Pairwise fun m m' => number m < number m') :
    (retained number max notes).Pairwise fun m m' => number m' < number m :=
  (List.pairwise_reverse.mpr h).sublist (retained_sublist notes)

end Retention
