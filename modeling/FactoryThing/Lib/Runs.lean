import Mathlib.Logic.Basic

/-!
# Runs of a machine

A machine takes events one after the other, replies to each, and may break down. `Guarded` says
that every event of a run meets a condition in the state it arrives in; the two rules carry an
invariant, or a simulation by an abstract machine, from one step to whole runs.
-/

namespace Runs

variable {S E R F T : Type}

variable {es : List E}

/-- The events of a run one after the other, with their replies. -/
def run (step : S → E → Except F (S × R)) (s : S) : List E → Except F (S × List R)
  | [] => .ok (s, [])
  | e :: es =>
      match step s e with
      | .error f => .error f
      | .ok (s', r) => (run step s' es).map fun (s'', rs) => (s'', r :: rs)

/-- The run ends well, in a state and with replies of which `P` holds. -/
def Reaches (step : S → E → Except F (S × R)) (s : S) (es : List E) (P : S → List R → Prop) :
    Prop :=
  ∃ s' rs, run step s es = .ok (s', rs) ∧ P s' rs

instance {step : S → E → Except F (S × R)} {s : S} {es : List E} {P : S → List R → Prop}
    [∀ s' rs, Decidable (P s' rs)] : Decidable (Reaches step s es P) :=
  match hrun : run step s es with
  | .ok (s', rs) =>
      decidable_of_iff (P s' rs)
        ⟨fun h => ⟨s', rs, hrun, h⟩, fun ⟨_, _, hrun', h⟩ => by
          rw [hrun] at hrun'
          cases hrun'
          exact h⟩
  | .error f => isFalse fun ⟨_, _, hrun', _⟩ => by
      rw [hrun] at hrun'
      cases hrun'

def Fails (step : S → E → Except F (S × R)) (s : S) (es : List E) (f : F) : Prop :=
  run step s es = .error f

instance [DecidableEq F] {step : S → E → Except F (S × R)} {s : S} {es : List E} {f : F} :
    Decidable (Fails step s es f) :=
  match hrun : run step s es with
  | .ok _ => isFalse fun h => by
      rw [Fails, hrun] at h
      cases h
  | .error f' => decidable_of_iff (f' = f) (by rw [Fails, hrun, Except.error.injEq])

/-- Every event of the run meets `guard` in the state it arrives in. -/
def Guarded (step : S → E → Except F (S × R)) (guard : S → E → Prop) (s : S) : List E → Prop
  | [] => True
  | e :: es =>
      guard s e ∧
        match step s e with
        | .error _ => True
        | .ok (s', _) => Guarded step guard s' es

instance decidableGuarded {step : S → E → Except F (S × R)} {guard : S → E → Prop}
    [∀ s e, Decidable (guard s e)] : ∀ (s : S) (es : List E), Decidable (Guarded step guard s es)
  | _, [] => isTrue trivial
  | s, e :: es =>
      @instDecidableAnd _ _ inferInstance
        (match step s e with
        | .error _ => isTrue trivial
        | .ok (s', _) => decidableGuarded s' es)

def states (step : S → E → Except F (S × R)) (s : S) : List E → List S
  | [] => [s]
  | e :: es =>
      s :: match step s e with
        | .error _ => []
        | .ok (s', _) => states step s' es

/-- A machine that always goes on and has nothing to reply. -/
def total (next : S → E → S) (s : S) (e : E) : Except Empty (S × Unit) := .ok (next s e, ())

/-- The run of an abstract machine that always answers. -/
def specRun (spec : T → E → T × R) (t : T) : List E → T × List R
  | [] => (t, [])
  | e :: es =>
      let (t', r) := spec t e
      let (t'', rs) := specRun spec t' es
      (t'', r :: rs)

variable {step : S → E → Except F (S × R)} {guard : S → E → Prop} {spec : T → E → T × R}

theorem run_nil_ok {s s' : S} {rs : List R} (h : run step s [] = .ok (s', rs)) :
    s' = s ∧ rs = [] := by
  simp only [run, Except.ok.injEq, Prod.mk.injEq] at h
  exact ⟨h.1.symm, h.2.symm⟩

theorem run_cons_ok {s s' : S} {e : E} {rs : List R}
    (h : run step s (e :: es) = .ok (s', rs)) :
    ∃ s₁ r rs₁, step s e = .ok (s₁, r) ∧ run step s₁ es = .ok (s', rs₁) ∧ rs = r :: rs₁ := by
  simp only [run] at h
  cases hse : step s e with
  | error f => rw [hse] at h; cases h
  | ok p =>
    simp only [hse] at h
    cases hrest : run step p.1 es with
    | error f => rw [hrest] at h; cases h
    | ok q =>
      simp only [hrest, Except.map, Except.ok.injEq, Prod.mk.injEq] at h
      exact ⟨p.1, p.2, q.2, rfl, h.1 ▸ hrest, h.2.symm⟩

theorem run_cons_error {s : S} {e : E} {f : F}
    (h : run step s (e :: es) = .error f) :
    step s e = .error f ∨ ∃ s₁ r, step s e = .ok (s₁, r) ∧ run step s₁ es = .error f := by
  simp only [run] at h
  cases hse : step s e with
  | error f' =>
    simp only [hse, Except.error.injEq] at h
    exact Or.inl (congrArg Except.error h)
  | ok p =>
    simp only [hse] at h
    cases hrest : run step p.1 es with
    | error f' =>
      simp only [hrest, Except.map, Except.error.injEq] at h
      exact Or.inr ⟨p.1, p.2, rfl, h ▸ hrest⟩
    | ok q => rw [hrest] at h; cases h

theorem guarded_cons_iff {s s' : S} {e : E} {r : R} (hse : step s e = .ok (s', r)) :
    Guarded step guard s (e :: es) ↔ guard s e ∧ Guarded step guard s' es := by
  simp only [Guarded, hse]

theorem history_of_guarded (Inv : S → List R → Prop)
    (hstep : ∀ s past e s' r, Inv s past → guard s e → step s e = .ok (s', r) →
      Inv s' (past ++ [r])) :
    ∀ (es : List E) (s s' : S) (past rs : List R), Inv s past → Guarded step guard s es →
      run step s es = .ok (s', rs) → Inv s' (past ++ rs) := by
  intro es
  induction es with
  | nil =>
    intro s s' past rs hinv _ hrun
    obtain ⟨rfl, rfl⟩ := run_nil_ok hrun
    rwa [List.append_nil]
  | cons e es ih =>
    intro s s' past rs hinv hguard hrun
    obtain ⟨s₁, r, rs₁, hse, hrest, rfl⟩ := run_cons_ok hrun
    have hguard' := (guarded_cons_iff hse).mp hguard
    have hnext := ih s₁ s' (past ++ [r]) rs₁ (hstep s past e s₁ r hinv hguard'.1 hse)
      hguard'.2 hrest
    rwa [List.append_assoc] at hnext

theorem invariant_of_guarded {Inv : S → Prop}
    (hstep : ∀ s e s' r, Inv s → guard s e → step s e = .ok (s', r) → Inv s')
    (es : List E) (s s' : S) (rs : List R) (hinv : Inv s) (hguard : Guarded step guard s es)
    (hrun : run step s es = .ok (s', rs)) : Inv s' :=
  history_of_guarded (fun s _ => Inv s) (fun s _ e s' r => hstep s e s' r) es s s' [] rs hinv
    hguard hrun

theorem replies_of_guarded {Inv : S → Prop} {Right : R → Prop}
    (hstep : ∀ s e s' r, Inv s → guard s e → step s e = .ok (s', r) → Inv s' ∧ Right r)
    (es : List E) (s s' : S) (rs : List R) (hinv : Inv s) (hguard : Guarded step guard s es)
    (hrun : run step s es = .ok (s', rs)) : ∀ r ∈ rs, Right r := by
  refine (history_of_guarded (fun s past => Inv s ∧ ∀ r ∈ past, Right r) ?_ es s s' [] rs
    ⟨hinv, by simp⟩ hguard hrun).2
  intro s past e s' r hpast hguard hse
  obtain ⟨hinv', hright⟩ := hstep s e s' r hpast.1 hguard hse
  refine ⟨hinv', fun r' hr' => ?_⟩
  obtain hr' | hr' := List.mem_append.mp hr'
  · exact hpast.2 r' hr'
  · exact List.mem_singleton.mp hr' ▸ hright

theorem error_of_guarded {Inv : S → Prop} {Expected : F → Prop}
    (hkeep : ∀ s e s' r, Inv s → guard s e → step s e = .ok (s', r) → Inv s')
    (hfail : ∀ s e f, Inv s → guard s e → step s e = .error f → Expected f) :
    ∀ (es : List E) (s : S) (f : F), Inv s → Guarded step guard s es →
      run step s es = .error f → Expected f := by
  intro es
  induction es with
  | nil =>
    intro s f _ _ hrun
    cases hrun
  | cons e es ih =>
    intro s f hinv hguard hrun
    obtain hse | ⟨s₁, r, hse, hrest⟩ := run_cons_error hrun
    · exact hfail s e f hinv hguard.1 hse
    · have hguard' := (guarded_cons_iff hse).mp hguard
      exact ih s₁ f (hkeep s e s₁ r hinv hguard'.1 hse) hguard'.2 hrest

theorem simulates_of_guarded {Rel : S → T → Prop}
    (hstep : ∀ s t e, Rel s t → guard s e →
      ∃ s', step s e = .ok (s', (spec t e).2) ∧ Rel s' (spec t e).1) :
    ∀ (es : List E) (s : S) (t : T), Rel s t → Guarded step guard s es →
      ∃ s', run step s es = .ok (s', (specRun spec t es).2) ∧ Rel s' (specRun spec t es).1 := by
  intro es
  induction es with
  | nil => intro s t hrel _; exact ⟨s, rfl, hrel⟩
  | cons e es ih =>
    intro s t hrel hguard
    simp only [Guarded] at hguard
    obtain ⟨s₁, hse, hrel₁⟩ := hstep s t e hrel hguard.1
    rw [hse] at hguard
    obtain ⟨s₂, hrest, hrel₂⟩ := ih s₁ (spec t e).1 hrel₁ hguard.2
    exact ⟨s₂, by simp only [run, hse, hrest, specRun]; rfl, hrel₂⟩

theorem run_ne_error {f : F} (hstep : ∀ s e, guard s e → step s e ≠ .error f) (es : List E)
    {s : S} (hguard : Guarded step guard s es) : run step s es ≠ .error f :=
  fun hrun => @error_of_guarded _ _ _ _ _ _ (fun _ => True) (· ≠ f) (fun _ _ _ _ _ _ _ => trivial)
    (fun s e _ _ hguard hse heq => hstep s e hguard (heq ▸ hse)) es s f trivial hguard hrun rfl

theorem ok_of_guarded (Inv : S → List R → Prop)
    (hstep : ∀ s past e, Inv s past → guard s e →
      ∃ s' r, step s e = .ok (s', r) ∧ Inv s' (past ++ [r])) :
    ∀ (es : List E) (s : S) (past : List R), Inv s past → Guarded step guard s es →
      ∃ s' rs, run step s es = .ok (s', rs) ∧ Inv s' (past ++ rs) := by
  intro es
  induction es with
  | nil => exact fun s past hinv _ => ⟨s, [], rfl, (List.append_nil past).symm ▸ hinv⟩
  | cons e es ih =>
    intro s past hinv hguard
    obtain ⟨s₁, r, hse, hinv₁⟩ := hstep s past e hinv hguard.1
    have hrest := hguard.2
    rw [hse] at hrest
    obtain ⟨s₂, rs, hrun, hinv₂⟩ := ih s₁ (past ++ [r]) hinv₁ hrest
    refine ⟨s₂, r :: rs, by simp only [run, hse, hrun]; rfl, ?_⟩
    rwa [List.append_assoc] at hinv₂

theorem guarded_of_ok (hstep : ∀ s e, ¬ guard s e → ∃ f, step s e = .error f) :
    ∀ (es : List E) (s s' : S) (rs : List R), run step s es = .ok (s', rs) →
      Guarded step guard s es := by
  intro es
  induction es with
  | nil => exact fun _ _ _ _ => trivial
  | cons e es ih =>
    intro s s' rs hrun
    obtain ⟨s₁, r, rs₁, hse, hrest, -⟩ := run_cons_ok hrun
    refine (guarded_cons_iff hse).mpr ⟨Classical.byContradiction fun hguard =>
      ?_, ih s₁ s' rs₁ hrest⟩
    obtain ⟨f, hf⟩ := hstep s e hguard
    rw [hse] at hf
    cases hf

theorem guarded_cons {s : S} {e : E} (s' : S) (r : R) (hguard : guard s e)
    (hstep : step s e = .ok (s', r)) (hrest : Guarded step guard s' es) :
    Guarded step guard s (e :: es) :=
  (guarded_cons_iff hstep).mpr ⟨hguard, hrest⟩

theorem guarded_imp {guard' : S → E → Prop} (himp : ∀ s e, guard s e → guard' s e) :
    ∀ {es : List E} {s : S}, Guarded step guard s es → Guarded step guard' s es := by
  intro es
  induction es with
  | nil => exact fun _ => trivial
  | cons e es ih =>
    rintro s ⟨hguard, hrest⟩
    refine ⟨himp s e hguard, ?_⟩
    cases hse : step s e with
    | error f => exact trivial
    | ok p =>
      rw [hse] at hrest
      exact ih hrest

theorem guarded_true (s : S) (es : List E) : Guarded step (fun _ _ => True) s es := by
  induction es generalizing s with
  | nil => exact trivial
  | cons e es ih =>
    refine ⟨trivial, ?_⟩
    cases step s e with
    | error f => exact trivial
    | ok p => exact ih p.1

theorem run_append_of_ok {s s' : S} {rs : List R} (h : run step s es = .ok (s', rs))
    (es' : List E) :
    run step s (es ++ es') = (run step s' es').map fun (s'', rs') => (s'', rs ++ rs') := by
  induction es generalizing s rs with
  | nil =>
    obtain ⟨rfl, rfl⟩ := run_nil_ok h
    cases hes : run step s' es' with
    | error f => simp [hes, Except.map]
    | ok q => simp [hes, Except.map]
  | cons e es ih =>
    obtain ⟨s₁, r, rs₁, hse, hrest, rfl⟩ := run_cons_ok h
    simp only [run, List.cons_append, hse, ih hrest]
    cases run step s' es' with
    | error f => rfl
    | ok q => rfl

theorem run_append {s s' s'' : S} {es es' : List E} {rs rs' : List R}
    (h : run step s es = .ok (s', rs)) (h' : run step s' es' = .ok (s'', rs')) :
    run step s (es ++ es') = .ok (s'', rs ++ rs') := by
  rw [run_append_of_ok h, h']
  rfl

theorem run_append_error {s : S} {f : F} (h : run step s es = .error f)
    (es' : List E) : run step s (es ++ es') = .error f := by
  induction es generalizing s with
  | nil => cases h
  | cons e es ih =>
    obtain hse | ⟨s₁, r, hse, hrest⟩ := run_cons_error h
    · simp only [run, List.cons_append, hse]
    · simp only [run, List.cons_append, hse, ih hrest]
      rfl

theorem guarded_append {s : S} {es es' : List E} (h : Guarded step guard s (es ++ es')) :
    Guarded step guard s es ∧
      ∀ s' rs, run step s es = .ok (s', rs) → Guarded step guard s' es' := by
  induction es generalizing s with
  | nil =>
    refine ⟨trivial, fun s' rs hrun => ?_⟩
    exact (run_nil_ok hrun).1 ▸ h
  | cons e es ih =>
    constructor
    · simp only [Guarded, List.cons_append] at h ⊢
      cases hse : step s e with
      | error f => exact ⟨h.1, trivial⟩
      | ok p =>
        simp only [hse] at h
        exact ⟨h.1, (ih h.2).1⟩
    · intro s' rs hrun
      obtain ⟨s₁, r, rs₁, hse, hrest, -⟩ := run_cons_ok hrun
      exact (ih ((guarded_cons_iff hse).mp h).2).2 s' rs₁ hrest

theorem run_map {E' : Type} {step' : S → E' → Except F (S × R)} (f : E → E')
    (hstep : ∀ s e, step' s (f e) = step s e) (s : S) (es : List E) :
    run step' s (es.map f) = run step s es := by
  induction es generalizing s with
  | nil => rfl
  | cons e es ih => simp only [List.map_cons, run, hstep, ih]

theorem good_iff_guarded (Inv Good : S → Prop)
    (hstep : ∀ s e s' r, Inv s → step s e = .ok (s', r) →
      Inv s' ∧ (Good s' ↔ Good s ∧ guard s e)) :
    ∀ (es : List E) (s s' : S) (rs : List R), Inv s → run step s es = .ok (s', rs) →
      Inv s' ∧ (Good s' ↔ Good s ∧ Guarded step guard s es) := by
  intro es
  induction es with
  | nil =>
    intro s s' rs hinv hrun
    obtain ⟨rfl, -⟩ := run_nil_ok hrun
    exact ⟨hinv, by simp [Guarded]⟩
  | cons e es ih =>
    intro s s' rs hinv hrun
    obtain ⟨s₁, r, rs₁, hse, hrest, -⟩ := run_cons_ok hrun
    obtain ⟨hinv₁, hgood₁⟩ := hstep s e s₁ r hinv hse
    obtain ⟨hinv₂, hgood₂⟩ := ih s₁ s' rs₁ hinv₁ hrest
    exact ⟨hinv₂, by rw [hgood₂, hgood₁, guarded_cons_iff hse, and_assoc]⟩

theorem lost_of_not_guarded {Inv Lost : S → Prop}
    (hkeep : ∀ s e s' r, Inv s → guard s e → step s e = .ok (s', r) → Inv s')
    (hlose : ∀ s e s' r, Inv s → ¬ guard s e → step s e = .ok (s', r) → Lost s')
    (hlost : ∀ s e s' r, Lost s → step s e = .ok (s', r) → Lost s') :
    ∀ (es : List E) (s s' : S) (rs : List R), Inv s → ¬ Guarded step guard s es →
      run step s es = .ok (s', rs) → Lost s' := by
  intro es
  induction es with
  | nil => exact fun _ _ _ _ hnot _ => absurd trivial hnot
  | cons e es ih =>
    intro s s' rs hinv hnot hrun
    obtain ⟨s₁, r, rs₁, hse, hrest, -⟩ := run_cons_ok hrun
    rw [guarded_cons_iff hse, not_and] at hnot
    by_cases hguard : guard s e
    · exact ih s₁ s' rs₁ (hkeep s e s₁ r hinv hguard hse) (hnot hguard) hrest
    · exact @invariant_of_guarded _ _ _ _ _ (fun _ _ => True) _
        (fun s e s' r hs _ hstep => hlost s e s' r hs hstep) es s₁ s' rs₁
        (hlose s e s₁ r hinv hguard hse) (guarded_true s₁ es) hrest

theorem foldl_mem_states {next : S → E → S} (s : S) (es : List E) :
    es.foldl next s ∈ states (total next) s es := by
  induction es generalizing s with
  | nil => exact List.mem_singleton_self s
  | cons e es ih => exact List.mem_cons_of_mem s (ih (next s e))

theorem states_iff_guarded {next : S → E → S} (Inv Good : S → Prop)
    (hstep : ∀ s e, Inv s → Good s → Inv (next s e) ∧ (Good (next s e) ↔ guard s e)) :
    ∀ (es : List E) (s : S), Inv s → Good s →
      ((∀ s' ∈ states (total next) s es, Good s') ↔ Guarded (total next) guard s es) := by
  intro es
  induction es with
  | nil =>
    intro s _ hgood
    simpa [states, Guarded] using hgood
  | cons e es ih =>
    intro s hinv hgood
    obtain ⟨hinv', hgood'⟩ := hstep s e hinv hgood
    have hself : next s e ∈ states (total next) (next s e) es := by
      cases es <;> simp [states]
    simp only [states, Guarded, total, List.mem_cons, forall_eq_or_imp]
    constructor
    · intro hall
      have hnext := hall.2 (next s e) hself
      exact ⟨hgood'.mp hnext, (ih _ hinv' hnext).mp hall.2⟩
    · intro hguard
      exact ⟨hgood, (ih _ hinv' (hgood'.mpr hguard.1)).mpr hguard.2⟩

end Runs
