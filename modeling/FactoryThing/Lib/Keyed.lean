import Mathlib.Data.List.Nodup

/-!
# Linked lists searched by key

A linked list of records that a program searches from the front for the record with a given key,
to read it, change it or take it out. With every key occurring once the list is a finite map.
-/

namespace Keyed

variable {A K : Type} [DecidableEq K] (key : A → K)

def find (l : List A) (k : K) : Option A := l.find? fun a => key a == k

/-- The list without the first record with the key. -/
def remove (l : List A) (k : K) : List A := l.eraseP fun a => key a == k

/-- The list with the first record with the key changed. -/
def modify (f : A → A) (k : K) : List A → List A
  | [] => []
  | a :: l => if key a = k then f a :: l else a :: modify f k l

variable {key} {l : List A} {k k' : K} {f g : A → A}

theorem key_of_find {a : A} (h : find key l k = some a) : key a = k := by
  simpa using List.find?_some h

theorem find_cons_self {a : A} (h : key a = k) : find key (a :: l) k = some a := by
  simp [find, h]

theorem find_cons_ne {a : A} (h : key a ≠ k) : find key (a :: l) k = find key l k := by
  simp [find, List.find?_cons_of_neg, h]

theorem find_eq_none_iff : find key l k = none ↔ k ∉ l.map key := by
  simp [find]

theorem map_key_remove (l : List A) (k : K) :
    (remove key l k).map key = (l.map key).erase k := by
  induction l with
  | nil => rfl
  | cons a l ih =>
    unfold remove at *
    by_cases h : key a = k
    · simp [h]
    · simp [h, ih]

theorem find_remove_self (hnodup : (l.map key).Nodup) : find key (remove key l k) k = none := by
  rw [find_eq_none_iff, map_key_remove]
  exact hnodup.not_mem_erase

theorem find_remove_ne (h : k' ≠ k) : find key (remove key l k) k' = find key l k' := by
  induction l with
  | nil => rfl
  | cons a l ih =>
    by_cases ha : key a = k
    · rw [find_cons_ne (l := l) (fun heq => h (heq.symm.trans ha))]
      simp [remove, ha]
    · have hcons : remove key (a :: l) k = a :: remove key l k := by simp [remove, ha]
      rw [hcons]
      by_cases ha' : key a = k'
      · rw [find_cons_self ha', find_cons_self ha']
      · rw [find_cons_ne ha', find_cons_ne ha', ih]

theorem perm_remove {a : A} (h : find key l k = some a) : l.Perm (a :: remove key l k) := by
  induction l with
  | nil => cases h
  | cons b l ih =>
    by_cases hb : key b = k
    · rw [find_cons_self hb, Option.some.injEq] at h
      subst h
      have hremove : remove key (b :: l) k = l := by simp [remove, hb]
      rw [hremove]
    · rw [find_cons_ne hb] at h
      have hremove : remove key (b :: l) k = b :: remove key l k := by simp [remove, hb]
      rw [hremove]
      exact ((ih h).cons b).trans (List.Perm.swap a b _)

theorem mem_of_find {a : A} (h : find key l k = some a) : a ∈ l := List.mem_of_find?_eq_some h

theorem find_of_mem {a : A} (hnodup : (l.map key).Nodup) (ha : a ∈ l) :
    find key l (key a) = some a := by
  induction l with
  | nil => cases ha
  | cons b l ih =>
    rw [List.map_cons, List.nodup_cons] at hnodup
    obtain rfl | ha := List.mem_cons.mp ha
    · exact find_cons_self rfl
    · have hne : key b ≠ key a := fun heq => hnodup.1 (heq ▸ List.mem_map_of_mem ha)
      rw [find_cons_ne hne]
      exact ih hnodup.2 ha

theorem find_eraseP_ne {p : A → Bool} {b : A} (hb : l.find? p = some b) (hne : key b ≠ k) :
    find key (l.eraseP p) k = find key l k := by
  induction l with
  | nil => rfl
  | cons a l ih =>
    by_cases hp : p a = true
    · rw [List.find?_cons_of_pos hp, Option.some.injEq] at hb
      subst hb
      rw [List.eraseP_cons_of_pos hp, find_cons_ne hne]
    · rw [List.find?_cons_of_neg hp] at hb
      rw [List.eraseP_cons_of_neg hp]
      by_cases ha : key a = k
      · rw [find_cons_self ha, find_cons_self ha]
      · rw [find_cons_ne ha, find_cons_ne ha, ih hb]

theorem find_eraseP_self {p : A → Bool} {b : A} (hnodup : (l.map key).Nodup)
    (hb : l.find? p = some b) : find key (l.eraseP p) (key b) = none := by
  induction l with
  | nil => cases hb
  | cons a l ih =>
    rw [List.map_cons, List.nodup_cons] at hnodup
    by_cases hp : p a = true
    · rw [List.find?_cons_of_pos hp, Option.some.injEq] at hb
      subst hb
      rw [List.eraseP_cons_of_pos hp, find_eq_none_iff]
      exact hnodup.1
    · rw [List.find?_cons_of_neg hp] at hb
      have hne : key a ≠ key b := fun heq =>
        hnodup.1 (heq ▸ List.mem_map_of_mem (List.mem_of_find?_eq_some hb))
      rw [List.eraseP_cons_of_neg hp, find_cons_ne hne]
      exact ih hnodup.2 hb

theorem map_key_modify (hf : ∀ a, key a = k → key (f a) = k) (l : List A) :
    (modify key f k l).map key = l.map key := by
  induction l with
  | nil => rfl
  | cons a l ih =>
    unfold modify
    split
    · rename_i ha
      simp [hf a ha, ha]
    · simp [ih]

theorem find_modify_self (hf : ∀ a, key a = k → key (f a) = k) (l : List A) :
    find key (modify key f k l) k = (find key l k).map f := by
  induction l with
  | nil => rfl
  | cons a l ih =>
    unfold modify
    split
    · rename_i ha
      rw [find_cons_self (hf a ha), find_cons_self ha]
      rfl
    · rename_i ha
      rw [find_cons_ne ha, find_cons_ne ha, ih]

theorem find_modify_ne (hf : ∀ a, key a = k → key (f a) = k) (h : k' ≠ k) (l : List A) :
    find key (modify key f k l) k' = find key l k' := by
  induction l with
  | nil => rfl
  | cons a l ih =>
    unfold modify
    split
    · rename_i ha
      have hne : key a ≠ k' := fun heq => h (heq.symm.trans ha)
      rw [find_cons_ne (fun heq => h (heq.symm.trans (hf a ha))), find_cons_ne hne]
    · by_cases ha' : key a = k'
      · rw [find_cons_self ha', find_cons_self ha']
      · rw [find_cons_ne ha', find_cons_ne ha', ih]

theorem modify_congr (h : ∀ a, find key l k = some a → f a = g a) :
    modify key f k l = modify key g k l := by
  induction l with
  | nil => rfl
  | cons a l ih =>
    unfold modify
    split
    · rename_i ha
      rw [h a (find_cons_self ha)]
    · rename_i ha
      rw [ih fun b hb => h b (by rw [find_cons_ne ha, hb])]

theorem modify_self (h : ∀ a, find key l k = some a → f a = a) : modify key f k l = l := by
  induction l with
  | nil => rfl
  | cons a l ih =>
    by_cases ha : key a = k
    · rw [modify, if_pos ha, h a (find_cons_self ha)]
    · rw [modify, if_neg ha, ih fun b hb => h b ((find_cons_ne ha).trans hb)]

theorem modify_modify (hg : ∀ a, key a = k → key (g a) = k) (l : List A) :
    modify key f k (modify key g k l) = modify key (fun a => f (g a)) k l := by
  induction l with
  | nil => rfl
  | cons a l ih =>
    by_cases ha : key a = k
    · simp [modify, ha, hg a ha]
    · simp [modify, ha, ih]

theorem mem_modify {a : A} (h : a ∈ modify key f k l) :
    a ∈ l ∨ ∃ b, find key l k = some b ∧ a = f b := by
  induction l with
  | nil => cases h
  | cons b l ih =>
    unfold modify at h
    split at h
    · rename_i hb
      obtain rfl | h := List.mem_cons.mp h
      · exact Or.inr ⟨b, find_cons_self hb, rfl⟩
      · exact Or.inl (List.mem_cons_of_mem b h)
    · rename_i hb
      obtain rfl | h := List.mem_cons.mp h
      · exact Or.inl List.mem_cons_self
      · obtain h | ⟨c, hc, rfl⟩ := ih h
        · exact Or.inl (List.mem_cons_of_mem b h)
        · exact Or.inr ⟨c, by rw [find_cons_ne hb, hc], rfl⟩

end Keyed
