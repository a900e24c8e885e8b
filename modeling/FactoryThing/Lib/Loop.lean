import Mathlib.Data.Nat.Basic

/-!
# Unbounded loops

`whileTrue body` runs the C statement `while(true) { body }`: an iteration either leaves the
loop with a result or passes a new loop state on. The iteration bound is explicit, so that
"the loop ends" is the statement that some bound gives a result, and "the loop never ends"
that none does.
-/

namespace Loop

variable {σ ρ : Type}

/-- `while(true)` with at most `fuel` iterations; `none` when the bound is used up. -/
def whileTrue (body : σ → ρ ⊕ σ) : Nat → σ → Option ρ
  | 0, _ => none
  | fuel + 1, s =>
      match body s with
      | .inl r => some r
      | .inr s' => whileTrue body fuel s'

/-- The loop leaves with a result from `s` after finitely many iterations. -/
def Ends (body : σ → ρ ⊕ σ) (s : σ) : Prop :=
  ∃ fuel, (whileTrue body fuel s).isSome

theorem whileTrue_mono {body : σ → ρ ⊕ σ} {r : ρ} :
    ∀ {fuel fuel' : Nat} {s : σ}, fuel ≤ fuel' → whileTrue body fuel s = some r →
      whileTrue body fuel' s = some r := by
  intro fuel
  induction fuel with
  | zero => intro _ _ _ h; simp [whileTrue] at h
  | succ fuel ih =>
    intro fuel' s hle h
    obtain ⟨fuel', rfl⟩ : ∃ k, fuel' = k + 1 := ⟨fuel' - 1, by omega⟩
    simp only [whileTrue] at h ⊢
    cases hb : body s with
    | inl r' => simpa [hb] using h
    | inr s' => rw [hb] at h; exact ih (by omega) h

theorem not_ends_of_invariant {body : σ → ρ ⊕ σ} {P : σ → Prop}
    (hstep : ∀ s, P s → ∃ s', body s = .inr s' ∧ P s') {s : σ} (hs : P s) : ¬ Ends body s := by
  rintro ⟨fuel, hend⟩
  induction fuel generalizing s with
  | zero => simp [whileTrue] at hend
  | succ fuel ih =>
    obtain ⟨s', hbody, hs'⟩ := hstep s hs
    simp only [whileTrue, hbody] at hend
    exact ih hs' hend

theorem whileTrue_of_variant {body : σ → ρ ⊕ σ} {P : σ → Prop} {Q : ρ → Prop} (variant : σ → Nat)
    (hstep : ∀ s, P s → (∃ r, body s = .inl r ∧ Q r) ∨
      ∃ s', body s = .inr s' ∧ P s' ∧ variant s' < variant s) :
    ∀ {s : σ}, P s → ∃ fuel r, whileTrue body fuel s = some r ∧ Q r := by
  intro s
  induction hn : variant s using Nat.strong_induction_on generalizing s with
  | _ n ih =>
    intro hs
    rcases hstep s hs with ⟨r, hbody, hr⟩ | ⟨s', hbody, hs', hless⟩
    · exact ⟨1, r, by simp [whileTrue, hbody], hr⟩
    · rcases ih (variant s') (hn ▸ hless) rfl hs' with ⟨fuel, r, hrun, hr⟩
      exact ⟨fuel + 1, r, by simp [whileTrue, hbody, hrun], hr⟩

section Path

/-! ## Loops whose state is a function of the iteration number

A probe loop visits `path 0`, `path 1`, … until the body leaves. -/

variable {body : σ → ρ ⊕ σ} {path : Nat → σ}

/-- The first `k` visited states only step forward along the path. -/
def Passes (body : σ → ρ ⊕ σ) (path : Nat → σ) (k : Nat) : Prop :=
  ∀ m < k, body (path m) = .inr (path (m + 1))

theorem whileTrue_of_passes (k : Nat) :
    ∀ start, (∀ m, start ≤ m → m < start + k → body (path m) = .inr (path (m + 1))) →
      ∀ fuel, whileTrue body (k + fuel) (path start) = whileTrue body fuel (path (start + k)) := by
  induction k with
  | zero => intro start _ fuel; simp
  | succ k ih =>
    intro start hpass fuel
    have hfirst : body (path start) = .inr (path (start + 1)) := hpass start le_rfl (by omega)
    have hrest := ih (start + 1) (fun m h1 h2 => hpass m (by omega) (by omega)) fuel
    rw [show k + 1 + fuel = (k + fuel) + 1 by omega, whileTrue, hfirst]
    simp only []
    rw [hrest, show start + 1 + k = start + (k + 1) by omega]

theorem whileTrue_exit {k fuel : Nat} {r : ρ} (hpass : Passes body path k)
    (hexit : body (path k) = .inl r) (hfuel : k < fuel) :
    whileTrue body fuel (path 0) = some r := by
  obtain ⟨extra, rfl⟩ : ∃ e, fuel = k + (e + 1) := ⟨fuel - k - 1, by omega⟩
  rw [whileTrue_of_passes k 0 (fun m _ h2 => hpass m (by omega)) (extra + 1)]
  simp [whileTrue, hexit]

end Path

/-- The converse of `whileTrue_exit` for any loop that moves along its path: a result was
found at some visited state, and every state before it was passed. -/
theorem exit_of_whileTrue {body : σ → ρ ⊕ σ} (path : Nat → σ)
    (hstep : ∀ k s', body (path k) = .inr s' → s' = path (k + 1)) {r : ρ} :
    ∀ {fuel : Nat} (start : Nat), whileTrue body fuel (path start) = some r →
      ∃ k < fuel, body (path (start + k)) = .inl r ∧
        ∀ m < k, body (path (start + m)) = .inr (path (start + m + 1)) := by
  intro fuel
  induction fuel with
  | zero => intro start h; simp [whileTrue] at h
  | succ fuel ih =>
    intro start h
    simp only [whileTrue] at h
    cases hb : body (path start) with
    | inl r' =>
      rw [hb] at h
      obtain rfl : r' = r := by simpa using h
      exact ⟨0, by omega, by simpa using hb, by omega⟩
    | inr s' =>
      rw [hb] at h
      obtain rfl := hstep start s' hb
      obtain ⟨k, hk, hexit, hpass⟩ := ih (start + 1) h
      refine ⟨k + 1, by omega, ?_, ?_⟩
      · rw [← hexit]; congr 2; omega
      · intro m hm
        cases m with
        | zero => simpa using hb
        | succ m =>
          have := hpass m (by omega)
          rw [show start + (m + 1) = start + 1 + m by omega, this]

end Loop
