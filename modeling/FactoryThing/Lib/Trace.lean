import Mathlib.Data.List.Basic

/-!
# Properties of traces

A safety property of a trace says of each observation that it is right given what was observed
before it. `Always` puts such a property together from runs that are composed one after the other.
-/

namespace Trace

variable {O : Type} {P : List O → O → Prop}

/-- Every observation of `obs`, which comes after `past`, is right given what comes before it. -/
def Always (P : List O → O → Prop) (past obs : List O) : Prop :=
  ∀ pre o post, obs = pre ++ o :: post → P (past ++ pre) o

@[simp] theorem always_nil (past : List O) : Always P past [] := by
  intro pre o post h
  simp at h

@[simp] theorem always_cons (past : List O) (o : O) (obs : List O) :
    Always P past (o :: obs) ↔ P past o ∧ Always P (past ++ [o]) obs := by
  constructor
  · intro h
    refine ⟨by simpa using h [] o obs rfl, ?_⟩
    intro pre o' post heq
    simpa using h (o :: pre) o' post (by rw [heq]; rfl)
  · rintro ⟨ho, h⟩ pre o' post heq
    cases pre with
    | nil =>
      cases heq
      simpa using ho
    | cons o₁ pre =>
      cases heq
      simpa using h pre o' post rfl

theorem always_append (past obs obs' : List O) :
    Always P past (obs ++ obs') ↔ Always P past obs ∧ Always P (past ++ obs) obs' := by
  induction obs generalizing past with
  | nil => simp
  | cons o obs ih => simp [ih, and_assoc]

theorem always_of_forall {obs : List O} (h : ∀ o ∈ obs, ∀ past, P past o) (past : List O) :
    Always P past obs := by
  rintro pre o post rfl
  exact h o (by simp) _

end Trace
