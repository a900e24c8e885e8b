import Mathlib.Logic.Function.Basic
import Mathlib.Tactic

/-!
# Open addressing

A table of cells with probe paths, over any entry type. A cell that was never used ends a search,
a tombstone does not. The two facts a table must keep are that no entry is hidden behind a
never-used cell (`Linked`) and that no key is stored twice (`Distinct`); with them the table
represents a finite map.
-/

namespace OpenAddressing

/-- One cell of a table: never used, given up, or in use. -/
inductive Cell (E : Type) where
  | null
  | tombstone
  | entry (e : E)
  deriving DecidableEq

/-- The keys of entries, when two keys are the same, and the cells a search for a key visits. -/
structure Hashing (K E : Type) where
  key : E → K
  same : K → K → Bool
  path : K → Nat → Nat
  same_refl : ∀ x, same x x = true
  same_symm : ∀ {x y}, same x y = true → same y x = true
  same_trans : ∀ {x y z}, same x y = true → same y z = true → same x z = true
  path_congr : ∀ {x y}, same x y = true → path x = path y

variable {K E : Type} (H : Hashing K E)

/-- Cell `i` stores an entry with key `x`. -/
def Holds (t : Nat → Cell E) (x : K) (i : Nat) : Prop :=
  ∃ e, t i = .entry e ∧ H.same (H.key e) x = true

/-- Every entry lies on the path of its key, with no never-used cell before it. -/
def Linked (t : Nat → Cell E) : Prop :=
  ∀ i e, t i = .entry e →
    ∃ k, H.path (H.key e) k = i ∧ ∀ m < k, t (H.path (H.key e) m) ≠ .null

def Distinct (t : Nat → Cell E) : Prop :=
  ∀ i j x, Holds H t x i → Holds H t x j → i = j

/-- The table stores exactly the entries of the map `m`, each under its own key. -/
structure Represents (t : Nat → Cell E) (m : K → Option E) : Prop where
  linked : Linked H t
  distinct : Distinct H t
  mem_iff : ∀ x e, m x = some e ↔ ∃ i, t i = .entry e ∧ H.same (H.key e) x = true

/-- The map with `e` stored under its key. -/
def put (m : K → Option E) (e : E) : K → Option E :=
  fun x => if H.same (H.key e) x then some e else m x

/-- The map without the key `x`. -/
def erase (m : K → Option E) (x : K) : K → Option E :=
  fun y => if H.same x y then none else m y

variable {H} {t : Nat → Cell E} {m : K → Option E} {x : K} {e : E} {i k : Nat}

theorem not_holds_of_null (hl : Linked H t) (hnull : t (H.path x k) = .null)
    (hpass : ∀ m < k, ¬ Holds H t x (H.path x m)) (i : Nat) : ¬ Holds H t x i := by
  rintro ⟨e, he, hsame⟩
  obtain ⟨k', hk', hbefore⟩ := hl i e he
  rw [H.path_congr hsame] at hk' hbefore
  rcases Nat.lt_or_ge k k' with hlt | hge
  · exact hbefore k hlt hnull
  · rcases Nat.lt_or_eq_of_le hge with hlt | rfl
    · exact hpass k' hlt (hk' ▸ ⟨e, he, hsame⟩)
    · rw [hk', he] at hnull
      exact absurd hnull (by simp)

namespace Represents

theorem eq_none_iff (h : Represents H t m) : m x = none ↔ ∀ i, ¬ Holds H t x i := by
  rw [Option.eq_none_iff_forall_ne_some]
  constructor
  · rintro hn i ⟨e, he, hs⟩
    exact hn e ((h.mem_iff x e).2 ⟨i, he, hs⟩)
  · intro hn e he
    obtain ⟨i, hi, hs⟩ := (h.mem_iff x e).1 he
    exact hn i ⟨e, hi, hs⟩

theorem eq_some (h : Represents H t m) (hi : t i = .entry e)
    (hs : H.same (H.key e) x = true) : m x = some e :=
  (h.mem_iff x e).2 ⟨i, hi, hs⟩

theorem index_unique (h : Represents H t m) {j : Nat} {e' : E} (hi : t i = .entry e)
    (hj : t j = .entry e') (hs : H.same (H.key e) (H.key e') = true) : i = j :=
  h.distinct i j (H.key e') ⟨e, hi, hs⟩ ⟨e', hj, H.same_refl _⟩

end Represents

theorem represents_empty : Represents H (fun _ => (.null : Cell E)) (fun _ => none) where
  linked := by intro i e he; cases he
  distinct := by rintro i j x ⟨e, he, -⟩; cases he
  mem_iff := by
    intro x e
    constructor
    · intro h; cases h
    · rintro ⟨i, hi, -⟩; cases hi

theorem linked_update (hl : Linked H t) {c : Cell E} (hc : c ≠ .null)
    (hown : ∀ e, c = .entry e →
      ∃ k, H.path (H.key e) k = i ∧ ∀ m < k, t (H.path (H.key e) m) ≠ .null) :
    Linked H (Function.update t i c) := by
  have hkeep : ∀ j, t j ≠ .null → Function.update t i c j ≠ .null := by
    intro j hj
    by_cases hji : j = i
    · subst hji; simpa using hc
    · simpa [Function.update_of_ne hji] using hj
  intro j e he
  by_cases hji : j = i
  · subst hji
    rw [Function.update_self] at he
    obtain ⟨k, hk, hbefore⟩ := hown e he
    exact ⟨k, hk, fun m hm => hkeep _ (hbefore m hm)⟩
  · rw [Function.update_of_ne hji] at he
    obtain ⟨k, hk, hbefore⟩ := hl j e he
    exact ⟨k, hk, fun m hm => hkeep _ (hbefore m hm)⟩

theorem represents_put (h : Represents H t m) (habsent : ∀ j, ¬ Holds H t (H.key e) j)
    (hfree : ∀ e', t i ≠ .entry e') (hpath : H.path (H.key e) k = i)
    (hbefore : ∀ m < k, t (H.path (H.key e) m) ≠ .null) :
    Represents H (Function.update t i (.entry e)) (put H m e) where
  linked := by
    refine linked_update h.linked (by simp) ?_
    rintro e' ⟨⟩
    exact ⟨k, hpath, hbefore⟩
  distinct := by
    have hother : ∀ j x, j ≠ i → Holds H (Function.update t i (.entry e)) x j → Holds H t x j := by
      rintro j x hj ⟨e', he', hs⟩
      exact ⟨e', by simpa [Function.update_of_ne hj] using he', hs⟩
    have hself : ∀ x, Holds H (Function.update t i (.entry e)) x i →
        H.same (H.key e) x = true := by
      rintro x ⟨e', he', hs⟩
      rw [Function.update_self] at he'
      cases he'
      exact hs
    have hclash : ∀ j x, j ≠ i → Holds H (Function.update t i (.entry e)) x j →
        Holds H (Function.update t i (.entry e)) x i → False := by
      intro j x hj hxj hxi
      obtain ⟨e', he', hs⟩ := hother j x hj hxj
      exact habsent j ⟨e', he', H.same_trans hs (H.same_symm (hself x hxi))⟩
    intro j j' x hxj hxj'
    by_cases hj : j = i <;> by_cases hj' : j' = i
    · rw [hj, hj']
    · subst hj; exact (hclash j' x hj' hxj' hxj).elim
    · subst hj'; exact (hclash j x hj hxj hxj').elim
    · exact h.distinct j j' x (hother j x hj hxj) (hother j' x hj' hxj')
  mem_iff := by
    intro x e'
    unfold put
    split
    · rename_i hs
      constructor
      · rintro ⟨⟩; exact ⟨i, by simp, hs⟩
      · rintro ⟨j, hj, hs'⟩
        by_cases hji : j = i
        · subst hji; rw [Function.update_self] at hj; cases hj; rfl
        · rw [Function.update_of_ne hji] at hj
          exact (habsent j ⟨e', hj, H.same_trans hs' (H.same_symm hs)⟩).elim
    · rename_i hs
      rw [h.mem_iff]
      constructor
      · rintro ⟨j, hj, hs'⟩
        have hji : j ≠ i := by rintro rfl; exact hfree e' hj
        exact ⟨j, by rwa [Function.update_of_ne hji], hs'⟩
      · rintro ⟨j, hj, hs'⟩
        by_cases hji : j = i
        · subst hji; rw [Function.update_self] at hj; cases hj; exact (hs hs').elim
        · exact ⟨j, by rwa [Function.update_of_ne hji] at hj, hs'⟩

theorem represents_replace (h : Represents H t m) {old : E} (hold : t i = .entry old)
    (hs : H.same (H.key e) (H.key old) = true) :
    Represents H (Function.update t i (.entry e)) (put H m e) where
  linked := by
    refine linked_update h.linked (by simp) ?_
    rintro e' ⟨⟩
    rw [H.path_congr hs]
    exact h.linked i old hold
  distinct := by
    have hback : ∀ j x, Holds H (Function.update t i (.entry e)) x j → Holds H t x j := by
      rintro j x ⟨e', he', hs'⟩
      by_cases hji : j = i
      · subst hji
        rw [Function.update_self] at he'
        cases he'
        exact ⟨old, hold, H.same_trans (H.same_symm hs) hs'⟩
      · exact ⟨e', by rwa [Function.update_of_ne hji] at he', hs'⟩
    exact fun j j' x hx hx' => h.distinct j j' x (hback j x hx) (hback j' x hx')
  mem_iff := by
    intro x e'
    unfold put
    split
    · rename_i hx
      constructor
      · rintro ⟨⟩; exact ⟨i, by simp, hx⟩
      · rintro ⟨j, hj, hs'⟩
        by_cases hji : j = i
        · subst hji; rw [Function.update_self] at hj; cases hj; rfl
        · rw [Function.update_of_ne hji] at hj
          have hsame : H.same (H.key e') (H.key old) = true :=
            H.same_trans hs' (H.same_trans (H.same_symm hx) hs)
          exact (hji (h.index_unique hj hold hsame)).elim
    · rename_i hx
      rw [h.mem_iff]
      constructor
      · rintro ⟨j, hj, hs'⟩
        by_cases hji : j = i
        · subst hji
          rw [hold] at hj
          cases hj
          exact (hx (H.same_trans hs hs')).elim
        · exact ⟨j, by rwa [Function.update_of_ne hji], hs'⟩
      · rintro ⟨j, hj, hs'⟩
        by_cases hji : j = i
        · subst hji; rw [Function.update_self] at hj; cases hj; exact (hx hs').elim
        · exact ⟨j, by rwa [Function.update_of_ne hji] at hj, hs'⟩

theorem represents_erase (h : Represents H t m) {old : E} (hold : t i = .entry old)
    (hs : H.same (H.key old) x = true) :
    Represents H (Function.update t i .tombstone) (erase H m x) where
  linked := linked_update h.linked (by simp) (by simp)
  distinct := by
    have hback : ∀ j y, Holds H (Function.update t i .tombstone) y j → Holds H t y j := by
      rintro j y ⟨e', he', hs'⟩
      by_cases hji : j = i
      · subst hji; simp at he'
      · exact ⟨e', by rwa [Function.update_of_ne hji] at he', hs'⟩
    exact fun j j' y hy hy' => h.distinct j j' y (hback j y hy) (hback j' y hy')
  mem_iff := by
    intro y e'
    unfold erase
    split
    · rename_i hxy
      constructor
      · intro hn; cases hn
      · rintro ⟨j, hj, hs'⟩
        by_cases hji : j = i
        · subst hji; simp at hj
        · rw [Function.update_of_ne hji] at hj
          have hsame : H.same (H.key e') (H.key old) = true :=
            H.same_trans hs' (H.same_symm (H.same_trans hs hxy))
          exact (hji (h.index_unique hj hold hsame)).elim
    · rename_i hxy
      rw [h.mem_iff]
      constructor
      · rintro ⟨j, hj, hs'⟩
        have hji : j ≠ i := by
          rintro rfl
          rw [hold] at hj
          cases hj
          exact hxy (H.same_trans (H.same_symm hs) hs')
        exact ⟨j, by rwa [Function.update_of_ne hji], hs'⟩
      · rintro ⟨j, hj, hs'⟩
        by_cases hji : j = i
        · subst hji; simp at hj
        · exact ⟨j, by rwa [Function.update_of_ne hji] at hj, hs'⟩

end OpenAddressing
