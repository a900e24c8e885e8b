import Mathlib.Logic.Function.Basic

/-!
# Partners

Two partial maps that point at each other, such as the pointer fields of two kinds of objects of
which each has at most one partner of the other kind.
-/

namespace Partners

variable {A B : Type} {f : A → Option B} {g : B → Option A}

/-- Whoever points to a partner is pointed to by it. -/
def Mutual (f : A → Option B) (g : B → Option A) : Prop :=
  ∀ a b, f a = some b ↔ g b = some a

theorem Mutual.left_unique (h : Mutual f g) {a a' : A} {b : B} (ha : f a = some b)
    (ha' : f a' = some b) : a = a' := by
  have hb := (h a b).mp ha
  have hb' := (h a' b).mp ha'
  rw [hb] at hb'
  exact Option.some.inj hb'

theorem Mutual.not_pointed (h : Mutual f g) {b : B} (hb : g b = none) (a : A) : f a ≠ some b := by
  intro ha
  rw [(h a b).mp ha] at hb
  cases hb

variable [DecidableEq A] [DecidableEq B]

theorem Mutual.part (h : Mutual f g) {a : A} {b : B} (hab : f a = some b) :
    Mutual (Function.update f a none) (Function.update g b none) := by
  intro x y
  by_cases hx : x = a
  · subst hx
    by_cases hy : y = b
    · subst hy
      simp
    · have hne : g y ≠ some x := by
        intro hg
        have hf := (h x y).mpr hg
        rw [hab] at hf
        exact hy (Option.some.inj hf).symm
      simpa [hy] using hne
  · by_cases hy : y = b
    · subst hy
      have hne : f x ≠ some y := fun hf => hx (h.left_unique hf hab)
      simpa [hx] using hne
    · simpa [hx, hy] using h x y

theorem Mutual.join_iff (h : Mutual f g) {a : A} {b : B} (ha : f a = none) :
    Mutual (Function.update f a (some b)) (Function.update g b (some a)) ↔ g b = none := by
  constructor
  · intro hjoined
    by_contra hb
    obtain ⟨a', ha'⟩ := Option.ne_none_iff_exists'.mp hb
    have hf : f a' = some b := (h a' b).mpr ha'
    have hne : a' ≠ a := by
      intro heq
      rw [heq, ha] at hf
      cases hf
    have hback := (hjoined a' b).mp (by simpa [hne] using hf)
    simp only [Function.update_self, Option.some.injEq] at hback
    exact hne hback.symm
  · intro hb x y
    by_cases hx : x = a
    · subst hx
      by_cases hy : y = b
      · subst hy
        simp
      · have hne : g y ≠ some x := by
          intro hg
          rw [(h x y).mpr hg] at ha
          cases ha
        simpa [hy, Ne.symm hy] using hne
    · by_cases hy : y = b
      · subst hy
        have hne := h.not_pointed hb x
        simpa [hx, Ne.symm hx] using hne
      · simpa [hx, hy] using h x y

end Partners
