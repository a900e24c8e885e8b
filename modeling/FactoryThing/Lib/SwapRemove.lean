import Mathlib.Data.List.Induction
import Mathlib.Data.List.Perm.Basic

/-!
# Arrays whose entries are removed by a swap

An array without order in which an entry is searched from the end and taken out by moving the last
entry to its place. What is left is the rest of the array up to order, and nothing moves in front
of the place.
-/

namespace SwapRemove

variable {α : Type} (p : α → Bool)

/-- The last index at which `p` holds. -/
def lastIndex : List α → Option Nat
  | [] => none
  | a :: l =>
      match lastIndex l with
      | some i => some (i + 1)
      | none => if p a then some 0 else none

/-- The last entry overrides the one at the index. -/
def removeAt (l : List α) (i : Nat) : List α :=
  match l.getLast? with
  | none => []
  | some last => (l.set i last).dropLast

/-- The array without the last entry of which `p` holds. -/
def removeLast (l : List α) : Option (List α) := (lastIndex p l).map (removeAt l)

variable {p} {l : List α} {i k : Nat}

theorem lastIndex_eq_none (h : lastIndex p l = none) : ∀ a ∈ l, p a = false := by
  induction l with
  | nil => exact nofun
  | cons a l ih =>
    unfold lastIndex at h
    split at h
    · cases h
    · rename_i hrest
      split at h
      · cases h
      · rename_i ha
        intro b hb
        obtain rfl | hb := List.mem_cons.mp hb
        · simpa using ha
        · exact ih hrest b hb

theorem lastIndex_lt (h : lastIndex p l = some i) : i < l.length := by
  induction l generalizing i with
  | nil => cases h
  | cons a l ih =>
    unfold lastIndex at h
    split at h
    · rename_i j hj
      cases h
      exact Nat.succ_lt_succ (ih hj)
    · split at h <;> cases h
      exact Nat.zero_lt_succ _

theorem lastIndex_holds (h : lastIndex p l = some i) : ∃ a, l[i]? = some a ∧ p a = true := by
  induction l generalizing i with
  | nil => cases h
  | cons a l ih =>
    unfold lastIndex at h
    split at h
    · rename_i j hj
      cases h
      exact ih hj
    · split at h <;> cases h
      rename_i ha
      exact ⟨a, rfl, ha⟩

theorem le_lastIndex (hany : ∃ a ∈ l.drop k, p a = true) : ∃ i, lastIndex p l = some i ∧ k ≤ i := by
  induction l generalizing k with
  | nil => simp at hany
  | cons a l ih =>
    cases k with
    | zero =>
      obtain ⟨b, hb, hpb⟩ := hany
      cases h : lastIndex p (a :: l) with
      | some i => exact ⟨i, rfl, Nat.zero_le i⟩
      | none =>
        have hnot := lastIndex_eq_none h b hb
        rw [hnot] at hpb
        cases hpb
    | succ k =>
      obtain ⟨i, hi, hle⟩ := ih hany
      exact ⟨i + 1, by simp only [lastIndex, hi], Nat.succ_le_succ hle⟩

theorem lastIndex_append (a : α) (ha : p a = true) : lastIndex p (l ++ [a]) = some l.length := by
  induction l with
  | nil => simp [lastIndex, ha]
  | cons b l ih => simp only [List.cons_append, lastIndex, ih, List.length_cons]

theorem removeAt_append (a : α) : removeAt (l ++ [a]) l.length = l := by
  simp [removeAt]

theorem removeAt_cons (a : α) (h : i < l.length) : removeAt (a :: l) (i + 1) =
    a :: removeAt l i := by
  cases l with
  | nil => cases h
  | cons b l =>
    simp only [removeAt, List.getLast?_cons_cons, List.set_cons_succ]
    cases hlast : (b :: l).getLast? with
    | none => simp at hlast
    | some last =>
      dsimp only
      rw [List.dropLast_cons_of_ne_nil]
      simp [List.set_eq_nil_iff]

theorem removeAt_zero (a : α) : (removeAt (a :: l) 0).Perm l := by
  cases l using List.reverseRecOn with
  | nil => simp [removeAt]
  | append_singleton l last =>
    have hlast : (a :: (l ++ [last])).getLast? = some last := by
      rw [← List.cons_append, List.getLast?_append]
      rfl
    simp only [removeAt, hlast, List.set_cons_zero]
    rw [← List.cons_append, List.dropLast_concat]
    exact (List.perm_append_singleton last l).symm

theorem drop_removeAt {a : α} (ha : l[i]? = some a) (hk : k ≤ i) :
    (l.drop k).Perm (a :: (removeAt l i).drop k) := by
  induction l generalizing i k with
  | nil => cases ha
  | cons b l ih =>
    cases i with
    | zero =>
      obtain rfl : b = a := by simpa using ha
      obtain rfl : k = 0 := Nat.le_zero.mp hk
      exact (removeAt_zero b).symm.cons b
    | succ i =>
      have hlt : i < l.length := Nat.lt_of_succ_lt_succ (List.getElem?_eq_some_iff.mp ha).1
      rw [removeAt_cons b hlt]
      cases k with
      | zero => exact ((ih ha (Nat.zero_le i)).cons b).trans (List.Perm.swap a b _)
      | succ k => exact ih ha (Nat.le_of_succ_le_succ hk)

theorem getElem?_removeAt (h : k < i) (hi : i < l.length) : (removeAt l i)[k]? = l[k]? := by
  induction l generalizing i k with
  | nil => cases hi
  | cons b l ih =>
    cases i with
    | zero => cases h
    | succ i =>
      have hlt := Nat.lt_of_succ_lt_succ hi
      rw [removeAt_cons b hlt]
      cases k with
      | zero => rfl
      | succ k => exact ih (Nat.lt_of_succ_lt_succ h) hlt

theorem removeLast_perm {l' : List α} (h : removeLast p l = some l') :
    ∃ a, p a = true ∧ l.Perm (a :: l') := by
  obtain ⟨i, hi, rfl⟩ := Option.map_eq_some_iff.mp h
  obtain ⟨a, ha, hpa⟩ := lastIndex_holds hi
  exact ⟨a, hpa, drop_removeAt ha (Nat.zero_le i)⟩

theorem removeLast_eq_none (h : removeLast p l = none) : ∀ a ∈ l, p a = false :=
  lastIndex_eq_none (Option.map_eq_none_iff.mp h)

theorem removeLast_append (a : α) (ha : p a = true) : removeLast p (l ++ [a]) = some l := by
  rw [removeLast, lastIndex_append a ha, Option.map_some, removeAt_append]

theorem removeLast_behind (hany : ∃ a ∈ l.drop k, p a = true) :
    ∃ l' a, removeLast p l = some l' ∧ p a = true ∧ (l.drop k).Perm (a :: l'.drop k) ∧
      ∀ j < k, l'[j]? = l[j]? := by
  obtain ⟨i, hi, hle⟩ := le_lastIndex hany
  obtain ⟨a, ha, hpa⟩ := lastIndex_holds hi
  refine ⟨removeAt l i, a, by rw [removeLast, hi]; rfl, hpa, drop_removeAt ha hle, fun j hj => ?_⟩
  exact getElem?_removeAt (Nat.lt_of_lt_of_le hj hle) (lastIndex_lt hi)

end SwapRemove
