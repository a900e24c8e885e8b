import Mathlib.Logic.Basic

/-!
# Stateful computations that may fail

Running `StateT σ (Except ε)`: when a computation in sequence returns, and how its first step is
taken.
-/

namespace Stateful

variable {σ ε α β : Type}

variable {f : α → StateT σ (Except ε) β} {s s' : σ} {x : StateT σ (Except ε) α} {a : α} {c : Prop}
  {Q : α → Prop}

theorem run_bind_ok {b : β} :
    (x >>= f).run s = .ok (b, s') ↔
      ∃ a s1, x.run s = .ok (a, s1) ∧ (f a).run s1 = .ok (b, s') := by
  rw [StateT.run_bind]
  cases x.run s with
  | error e => simp [bind, Except.bind]
  | ok p =>
    constructor
    · intro h
      exact ⟨p.1, p.2, rfl, h⟩
    · rintro ⟨a, s1, hp, h⟩
      cases hp
      exact h

theorem run_pure_ok {b : α} :
    (pure a : StateT σ (Except ε) α).run s = .ok (b, s') ↔ b = a ∧ s' = s := by
  rw [StateT.run_pure]
  simp only [pure, Except.pure, Except.ok.injEq, Prod.mk.injEq, eq_comm]

theorem run_get_ok {s1 : σ} :
    (get : StateT σ (Except ε) σ).run s = .ok (s1, s') ↔ s1 = s ∧ s' = s :=
  run_pure_ok (σ := σ) (s := s)

theorem run_set_ok {t : σ} {u : PUnit} :
    (set t : StateT σ (Except ε) PUnit).run s = .ok (u, s') ↔ s' = t := by
  simp only [StateT.run_set, pure, Except.pure, Except.ok.injEq, Prod.mk.injEq, true_and, eq_comm]

theorem run_modify_ok {g : σ → σ} {u : PUnit} :
    (modify g : StateT σ (Except ε) PUnit).run s = .ok (u, s') ↔ s' = g s := by
  simp only [StateT.run_modify, pure, Except.pure, Except.ok.injEq, Prod.mk.injEq, true_and,
    eq_comm]

theorem run_throw_ok {e : ε} : (throw e : StateT σ (Except ε) α).run s = .ok (a, s') ↔ False := by
  simp [throw, throwThe, MonadExceptOf.throw, StateT.lift, StateT.run, bind, Except.bind]

theorem run_ite_ok [Decidable c] {y : StateT σ (Except ε) α} :
    (if c then x else y).run s = .ok (a, s') ↔
      if c then x.run s = .ok (a, s') else y.run s = .ok (a, s') := by
  split
  · rfl
  · rfl

theorem run_ite_cases [Decidable c] {y : StateT σ (Except ε) α} {r : α × σ}
    (h : (if c then x else y).run s = .ok r) : (c ∧ x.run s = .ok r) ∨ (¬ c ∧ y.run s = .ok r) := by
  split at h
  · rename_i hc
    exact .inl ⟨hc, h⟩
  · rename_i hc
    exact .inr ⟨hc, h⟩

theorem run_return_or [Decidable c] {b : α} {k : StateT σ (Except ε) α}
    (h : (if c then pure a else k).run s = .ok (b, s')) :
    b = a ∨ (¬ c ∧ k.run s = .ok (b, s')) := by
  obtain ⟨-, h⟩ | h := run_ite_cases h
  · exact .inl (run_pure_ok.mp h).1
  · exact .inr h

theorem run_bind_error {e : ε} (h : x.run s = .error e) : (x >>= f).run s = .error e := by
  rw [StateT.run_bind, h]
  rfl

theorem run_bind_of_ok {s1 : σ} (h : x.run s = .ok (a, s1)) : (x >>= f).run s = (f a).run s1 := by
  rw [StateT.run_bind, h]
  rfl

theorem run_get_bind (f : σ → StateT σ (Except ε) α) (s : σ) :
    (get >>= f).run s = (f s).run s := rfl

theorem run_set_bind (f : PUnit → StateT σ (Except ε) α) (s t : σ) :
    (set t >>= f).run s = (f ⟨⟩).run t := rfl

theorem run_modify_bind (f : PUnit → StateT σ (Except ε) α) (g : σ → σ) (s : σ) :
    (modify g >>= f).run s = (f ⟨⟩).run (g s) := rfl

/-- From every state the computation returns a result that `Q` holds of. -/
def Gives (x : StateT σ (Except ε) α) (Q : α → Prop) : Prop :=
  ∀ s, ∃ a s', x.run s = .ok (a, s') ∧ Q a

theorem gives_pure (h : Q a) : Gives (pure a : StateT σ (Except ε) α) Q :=
  fun s => ⟨a, s, rfl, h⟩

theorem Gives.bind {R : β → Prop} (hx : Gives x Q) (hf : ∀ a, Q a → Gives (f a) R) :
    Gives (x >>= f) R := by
  intro s
  obtain ⟨a, s1, hrun, hq⟩ := hx s
  obtain ⟨b, s2, hrun', hr⟩ := hf a hq s1
  exact ⟨b, s2, by rw [run_bind_of_ok hrun, hrun'], hr⟩

theorem Gives.mono {R : α → Prop} (h : Gives x Q) (himp : ∀ a, Q a → R a) : Gives x R := by
  intro s
  obtain ⟨a, s', hrun, hq⟩ := h s
  exact ⟨a, s', hrun, himp a hq⟩

/-- From every state the computation fails as `E` allows, or returns a result that `Q` holds of. -/
def Meets (E : ε → Prop) (x : StateT σ (Except ε) α) (Q : α → Prop) : Prop :=
  (∀ s e, x.run s = .error e → E e) ∧ ∀ s a s', x.run s = .ok (a, s') → Q a

section Meets

variable {E : ε → Prop} {x : StateT σ (Except ε) α} {f : α → StateT σ (Except ε) β} {Q : α → Prop}
  {R : β → Prop}

theorem meets_pure {a : α} (h : Q a) : Meets E (pure a : StateT σ (Except ε) α) Q := by
  refine ⟨fun s e he => (nomatch he), fun s b s' hb => ?_⟩
  rw [(run_pure_ok.mp hb).1]
  exact h

theorem Meets.bind (hx : Meets E x Q) (hf : ∀ a, Q a → Meets E (f a) R) : Meets E (x >>= f) R := by
  constructor
  · intro s e he
    cases hrun : x.run s with
    | error e' =>
      rw [run_bind_error hrun] at he
      cases he
      exact hx.1 s e hrun
    | ok p =>
      obtain ⟨a, s1⟩ := p
      rw [run_bind_of_ok hrun] at he
      exact (hf a (hx.2 s a s1 hrun)).1 s1 e he
  · intro s b s' hb
    obtain ⟨a, s1, hrun, hb⟩ := run_bind_ok.mp hb
    exact (hf a (hx.2 s a s1 hrun)).2 s1 b s' hb

theorem Meets.mono {Q' : α → Prop} (h : Meets E x Q) (himp : ∀ a, Q a → Q' a) : Meets E x Q' :=
  ⟨h.1, fun s a s' ha => himp a (h.2 s a s' ha)⟩

theorem meets_ite {c : Prop} [Decidable c] {y : StateT σ (Except ε) α} (hx : c → Meets E x Q)
    (hy : ¬ c → Meets E y Q) : Meets E (if c then x else y) Q := by
  split
  · rename_i hc
    exact hx hc
  · rename_i hc
    exact hy hc

theorem Gives.meets (h : Gives x Q) : Meets E x Q := by
  constructor
  · intro s e he
    obtain ⟨a, s', hrun, -⟩ := h s
    rw [hrun] at he
    cases he
  · intro s a s' ha
    obtain ⟨a', s'', hrun, hq⟩ := h s
    rw [hrun] at ha
    cases ha
    exact hq

end Meets

end Stateful
