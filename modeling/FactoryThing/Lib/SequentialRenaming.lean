import Mathlib.Data.List.Induction
import Mathlib.Data.List.Nodup
import Mathlib.Data.List.Pairwise

/-!
# Renaming one after the other

Names are replaced in steps, one name in each. That is the simultaneous substitution just if no name
that has been put in is taken for one that is still to be replaced. The names of a list in the order
in which they come first.
-/

namespace SequentialRenaming

variable {α : Type} [DecidableEq α]

def rename (r : α × α) (x : α) : α := if x = r.1 then r.2 else x

/-- The names replaced one after the other. -/
def renameAll (steps : List (α × α)) (x : α) : α := steps.foldl (fun x r => rename r x) x

/-- A name that is put in is not replaced by another one later. -/
def NoCapture (steps : List (α × α)) : Prop :=
  steps.Pairwise fun r later => r.2 = later.1 → later.2 = later.1

instance (steps : List (α × α)) : Decidable (NoCapture steps) :=
  inferInstanceAs (Decidable (List.Pairwise _ steps))

variable {r : α × α} {steps : List (α × α)} {x : α}

@[simp] theorem renameAll_nil : renameAll [] x = x := rfl

@[simp] theorem renameAll_cons : renameAll (r :: steps) x = renameAll steps (rename r x) :=
  rfl

theorem rename_of_ne (h : x ≠ r.1) : rename r x = x := if_neg h

@[simp] theorem rename_self : rename r r.1 = r.2 := if_pos rfl

theorem renameAll_of_notMem (h : ∀ r ∈ steps, x ≠ r.1) : renameAll steps x = x := by
  induction steps with
  | nil => rfl
  | cons r steps ih =>
    obtain ⟨hne, hsteps⟩ := List.forall_mem_cons.mp h
    rw [renameAll_cons, rename_of_ne hne, ih hsteps]

theorem renameAll_iff (hnodup : (steps.map Prod.fst).Nodup) :
    (∀ r ∈ steps, renameAll steps r.1 = r.2) ↔ NoCapture steps := by
  induction steps with
  | nil => exact iff_of_true (fun r h => nomatch h) List.Pairwise.nil
  | cons r steps ih =>
    rw [List.map_cons, List.nodup_cons] at hnodup
    obtain ⟨hnew, hnodup⟩ := hnodup
    have hlater : ∀ later ∈ steps, renameAll (r :: steps) later.1 = renameAll steps later.1 := by
      intro later hmem
      have hne : later.1 ≠ r.1 := fun heq =>
        hnew (heq ▸ List.mem_map_of_mem hmem)
      rw [renameAll_cons, rename_of_ne hne]
    rw [NoCapture, List.pairwise_cons, List.forall_mem_cons, renameAll_cons, rename_self]
    constructor
    · rintro ⟨hfirst, hrest⟩
      have hrest : ∀ later ∈ steps, renameAll steps later.1 = later.2 := fun later hmem =>
        (hlater later hmem).symm.trans (hrest later hmem)
      refine ⟨fun later hmem heq => ?_, (ih hnodup).mp hrest⟩
      rw [heq, hrest later hmem] at hfirst
      exact hfirst
    · rintro ⟨hfirst, hpairs⟩
      have hrest := (ih hnodup).mpr hpairs
      refine ⟨?_, fun later hmem => (hlater later hmem).trans (hrest later hmem)⟩
      by_cases hkey : ∃ later ∈ steps, r.2 = later.1
      · obtain ⟨later, hmem, heq⟩ := hkey
        rw [heq, hrest later hmem, hfirst later hmem heq]
      · exact renameAll_of_notMem fun later hmem heq => hkey ⟨later, hmem, heq⟩

/-- The names of a list in the order in which they come first. -/
def firsts (l : List α) : List α :=
  l.foldl (fun seen x => if x ∈ seen then seen else seen ++ [x]) []

theorem firsts_append_singleton (l : List α) (x : α) :
    firsts (l ++ [x]) = if x ∈ firsts l then firsts l else firsts l ++ [x] := by
  rw [firsts, List.foldl_append]
  rfl

@[simp] theorem mem_firsts {l : List α} : x ∈ firsts l ↔ x ∈ l := by
  induction l using List.reverseRecOn with
  | nil => exact Iff.rfl
  | append_singleton l y ih =>
    rw [firsts_append_singleton, List.mem_append, List.mem_singleton]
    split
    next hy =>
      rw [ih]
      refine ⟨.inl, fun h => h.elim id ?_⟩
      rintro rfl
      exact ih.mp hy
    next hy => rw [List.mem_append, List.mem_singleton, ih]

theorem nodup_firsts (l : List α) : (firsts l).Nodup := by
  induction l using List.reverseRecOn with
  | nil => exact List.nodup_nil
  | append_singleton l y ih =>
    rw [firsts_append_singleton]
    split
    · exact ih
    next hy => exact List.nodup_append'.mpr ⟨ih, List.nodup_singleton y,
        List.disjoint_singleton.mpr hy⟩

theorem filter_firsts (p : α → Bool) (l : List α) : (firsts l).filter p = firsts (l.filter p) := by
  induction l using List.reverseRecOn with
  | nil => rfl
  | append_singleton l y ih =>
    rw [firsts_append_singleton, List.filter_append, apply_ite (List.filter p), List.filter_append,
      ih]
    by_cases hp : p y = true
    · rw [List.filter_cons_of_pos hp, List.filter_nil, firsts_append_singleton]
      simp only [mem_firsts, List.mem_filter, hp, and_true]
    · rw [List.filter_cons_of_neg hp, List.filter_nil, List.append_nil, List.append_nil, ite_self]

theorem exists_split_of_firsts {l front back : List α} (h : firsts l = front ++ x :: back) :
    ∃ before after, l = before ++ x :: after ∧ x ∉ before ∧ ∀ y ∈ before, y ∈ front := by
  induction l using List.reverseRecOn generalizing back with
  | nil => exact absurd h.symm (List.append_ne_nil_of_right_ne_nil _ (List.cons_ne_nil _ _))
  | append_singleton l y ih =>
    rw [firsts_append_singleton] at h
    split at h
    · obtain ⟨before, after, rfl, hx, hfront⟩ := ih h
      exact ⟨before, after ++ [y], by simp, hx, hfront⟩
    next hy =>
    obtain rfl | ⟨back, z, rfl⟩ := List.eq_nil_or_concat back
    · obtain ⟨hl, hyx⟩ := List.append_inj' h rfl
      obtain rfl := (List.cons.inj hyx).1
      rw [mem_firsts] at hy
      exact ⟨l, [], rfl, hy, fun z hz => hl ▸ mem_firsts.mpr hz⟩
    · rw [List.concat_eq_append, ← List.cons_append, ← List.append_assoc] at h
      obtain ⟨before, after, rfl, hx, hfront⟩ := ih (List.append_inj' h rfl).1
      exact ⟨before, after ++ [y], by simp, hx, hfront⟩

end SequentialRenaming
