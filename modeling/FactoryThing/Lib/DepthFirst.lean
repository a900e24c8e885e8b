import Mathlib.Data.Fintype.Card
import Mathlib.Data.Set.Finite.Basic
import Mathlib.Logic.Relation

/-!
# Depth-first search without a memory

A search that goes from a node to its successors in their order, stops at the first one that leads
to the goal, and remembers nothing of where it has been. It ends if and only if it does not come to
a cycle before it comes to the goal, and then its answer is right.
-/

namespace DepthFirst

open Relation

variable {α : Type}

/-- The first definite answer for the elements of a list, `none` if it is not known. -/
def anyOf (answer : α → Option Bool) : List α → Option Bool
  | [] => some false
  | x :: xs =>
      match answer x with
      | none => none
      | some true => some true
      | some false => anyOf answer xs

variable (succs : α → List α) (goal : α)

/-- The search, down to the depth `fuel`. -/
def search [DecidableEq α] : Nat → α → Option Bool
  | 0, _ => none
  | fuel + 1, x => if x = goal then some true else anyOf (search fuel) (succs x)

def Leads (x : α) : Prop := ReflTransGen (fun x y => y ∈ succs x) x goal

/-- The search of `x` comes to its successor `y`: none of those before it leads to the goal. -/
def Tries (x y : α) : Prop :=
  x ≠ goal ∧ ∃ before after, succs x = before ++ y :: after ∧ ∀ z ∈ before, ¬ Leads succs goal z

/-- The search of `x` comes to a cycle. -/
def Cycles (x : α) : Prop :=
  ∃ y, ReflTransGen (Tries succs goal) x y ∧ TransGen (Tries succs goal) y y

variable {succs goal}

theorem anyOf_eq_some {answer : α → Option Bool} {xs : List α} {found : Bool}
    (h : anyOf answer xs = some found) :
    (found = false ∧ ∀ x ∈ xs, answer x = some false) ∨
      found = true ∧ ∃ before x after, xs = before ++ x :: after ∧ answer x = some true ∧
        ∀ z ∈ before, answer z = some false := by
  induction xs with
  | nil => exact Or.inl ⟨(Option.some.inj h).symm, nofun⟩
  | cons x xs ih =>
    rw [anyOf] at h
    cases hx : answer x with
    | none =>
      rw [hx] at h
      cases h
    | some b =>
      rw [hx] at h
      cases b with
      | true => exact Or.inr ⟨(Option.some.inj h).symm, [], x, xs, rfl, hx, nofun⟩
      | false =>
        obtain ⟨hfound, hall⟩ | ⟨hfound, before, y, after, rfl, hy, hbefore⟩ := ih h
        · exact Or.inl ⟨hfound, List.forall_mem_cons.mpr ⟨hx, hall⟩⟩
        · exact Or.inr ⟨hfound, x :: before, y, after, rfl, hy,
            List.forall_mem_cons.mpr ⟨hx, hbefore⟩⟩

theorem anyOf_mono {answer answer' : α → Option Bool}
    (hmono : ∀ x found, answer x = some found → answer' x = some found) {xs : List α} {found : Bool}
    (h : anyOf answer xs = some found) : anyOf answer' xs = some found := by
  induction xs with
  | nil => exact h
  | cons x xs ih =>
    rw [anyOf] at h ⊢
    cases hx : answer x with
    | none =>
      rw [hx] at h
      cases h
    | some b =>
      rw [hx] at h
      rw [hmono x b hx]
      cases b with
      | true => exact h
      | false => exact ih h

theorem anyOf_reached {answer : α → Option Bool} {before : List α} {y : α} {after : List α}
    {found : Bool} (hbefore : ∀ z ∈ before, answer z ≠ some true)
    (h : anyOf answer (before ++ y :: after) = some found) : ∃ found', answer y = some found' := by
  induction before with
  | nil =>
    rw [List.nil_append, anyOf] at h
    cases hy : answer y with
    | none =>
      rw [hy] at h
      cases h
    | some found' => exact ⟨found', rfl⟩
  | cons x before ih =>
    obtain ⟨hx, hbefore⟩ := List.forall_mem_cons.mp hbefore
    rw [List.cons_append, anyOf] at h
    cases hans : answer x with
    | none =>
      rw [hans] at h
      cases h
    | some b =>
      cases b with
      | true => exact absurd hans hx
      | false =>
        rw [hans] at h
        exact ih hbefore h

theorem acc_of_no_cycle {r : α → α → Prop} {nodes : List α} (hnodes : ∀ x y, r x y → x ∈ nodes)
    {x : α} (h : ∀ y, ReflTransGen r x y → ¬ TransGen r y y) : Acc (fun y x => r x y) x := by
  let below : Type := { y : α // y ∈ nodes ∧ ReflTransGen r x y }
  have hfinite : Finite below := ((List.finite_toSet nodes).subset fun y hy => hy.1).to_subtype
  let after : below → below → Prop := fun z y => TransGen r y.1 z.1
  have hirrefl : Std.Irrefl after := ⟨fun y hy => h y.1 y.2.2 hy⟩
  have hwf : WellFounded after := Finite.wellFounded_of_trans_of_irrefl after
  have hacc : ∀ y : below, Acc (fun y x => r x y) y.1 := by
    intro y
    induction y using hwf.induction with
    | _ y ih =>
      refine Acc.intro y.1 fun z hz => ?_
      by_cases hmem : z ∈ nodes
      · exact ih ⟨z, hmem, y.2.2.tail hz⟩ (TransGen.single hz)
      · exact Acc.intro z fun z' hz' => absurd (hnodes z z' hz') hmem
  by_cases hmem : x ∈ nodes
  · exact hacc ⟨x, hmem, ReflTransGen.refl⟩
  · exact Acc.intro x fun y hy => absurd (hnodes x y hy) hmem

theorem leads_of_mem {x y : α} (hy : y ∈ succs x) (h : Leads succs goal y) : Leads succs goal x :=
  ReflTransGen.head hy h

theorem leads_cases {x : α} (h : Leads succs goal x) :
    x = goal ∨ ∃ y ∈ succs x, Leads succs goal y := by
  obtain rfl | ⟨y, hy, hrest⟩ := ReflTransGen.cases_head h
  · exact Or.inl rfl
  · exact Or.inr ⟨y, hy, hrest⟩

section Search

theorem acc_of_not_cycles {nodes : List α} (hnodes : ∀ x, succs x ≠ [] → x ∈ nodes) {x : α}
    (h : ¬ Cycles succs goal x) : Acc (fun y x => Tries succs goal x y) x := by
  refine @acc_of_no_cycle _ _ nodes ?_ x fun y hto hcycle => h ⟨y, hto, hcycle⟩
  rintro y z ⟨-, before, after, hsuccs, -⟩
  refine hnodes y ?_
  rw [hsuccs]
  exact List.append_ne_nil_of_right_ne_nil before (List.cons_ne_nil z after)

variable [DecidableEq α]

theorem search_sound {fuel : Nat} {x : α} {found : Bool}
    (h : search succs goal fuel x = some found) : found = true ↔ Leads succs goal x := by
  induction fuel generalizing x found with
  | zero => cases h
  | succ fuel ih =>
    rw [search] at h
    split at h
    · rename_i hx
      rw [← Option.some.inj h, hx]
      exact iff_of_true rfl ReflTransGen.refl
    · rename_i hx
      obtain ⟨rfl, hall⟩ | ⟨rfl, before, y, after, hsuccs, hy, -⟩ := anyOf_eq_some h
      · refine iff_of_false Bool.false_ne_true fun hleads => ?_
        obtain hgoal | ⟨y, hy, hrest⟩ := leads_cases hleads
        · exact hx hgoal
        · exact Bool.false_ne_true ((ih (hall y hy)).mpr hrest)
      · have hmem : y ∈ succs x := hsuccs ▸ List.mem_append_right _ List.mem_cons_self
        exact iff_of_true rfl (leads_of_mem hmem ((ih hy).mp rfl))

theorem search_mono {fuel more : Nat} (hle : fuel ≤ more) {x : α} {found : Bool}
    (h : search succs goal fuel x = some found) : search succs goal more x = some found := by
  induction fuel generalizing more x found with
  | zero => cases h
  | succ fuel ih =>
    obtain ⟨more, rfl⟩ := Nat.exists_eq_add_of_le' (Nat.zero_lt_of_lt hle)
    rw [search] at h ⊢
    by_cases hx : x = goal
    · rw [if_pos hx] at h ⊢
      exact h
    · rw [if_neg hx] at h ⊢
      exact anyOf_mono (fun y found hy => ih (Nat.le_of_succ_le_succ hle) hy) h

theorem search_tries {fuel : Nat} {x y : α} {found : Bool}
    (h : search succs goal (fuel + 1) x = some found) (htries : Tries succs goal x y) :
    ∃ found', search succs goal fuel y = some found' := by
  obtain ⟨hx, before, after, hsuccs, hbefore⟩ := htries
  rw [search, if_neg hx, hsuccs] at h
  exact anyOf_reached (fun z hz hfound => hbefore z hz ((search_sound hfound).mp rfl)) h

theorem not_cycles_of_search {fuel : Nat} {x : α} {found : Bool}
    (h : search succs goal fuel x = some found) : ¬ Cycles succs goal x := by
  induction fuel generalizing x found with
  | zero => cases h
  | succ fuel ih =>
    rintro ⟨y, hto, hcycle⟩
    have hlater : ∃ z, Tries succs goal x z ∧ ReflTransGen (Tries succs goal) z y := by
      obtain rfl | ⟨z, hz, hrest⟩ := ReflTransGen.cases_head hto
      · obtain ⟨z, hz, hrest⟩ := TransGen.head'_iff.mp hcycle
        exact ⟨z, hz, hrest⟩
      · exact ⟨z, hz, hrest⟩
    obtain ⟨z, hz, hrest⟩ := hlater
    obtain ⟨found', hfound'⟩ := search_tries h hz
    exact ih hfound' ⟨y, hrest, hcycle⟩

theorem anyOf_of_tries {x : α} (hx : x ≠ goal)
    (h : ∀ y, Tries succs goal x y → ∃ fuel found, search succs goal fuel y = some found)
    {before xs : List α} (hsuccs : succs x = before ++ xs)
    (hbefore : ∀ z ∈ before, ¬ Leads succs goal z) :
    ∃ fuel found, anyOf (search succs goal fuel) xs = some found := by
  induction xs generalizing before with
  | nil => exact ⟨0, false, rfl⟩
  | cons y xs ih =>
    obtain ⟨fuel, b, hy⟩ := h y ⟨hx, before, xs, hsuccs, hbefore⟩
    cases b with
    | true =>
      refine ⟨fuel, true, ?_⟩
      rw [anyOf, hy]
    | false =>
      have hnot : ¬ Leads succs goal y := fun hleads =>
        Bool.false_ne_true ((search_sound hy).mpr hleads)
      obtain ⟨fuel', found, hrest⟩ := @ih (before ++ [y]) (by rw [hsuccs, List.append_assoc]; rfl)
        fun z hz => by
          obtain hz | hz := List.mem_append.mp hz
          · exact hbefore z hz
          · exact List.mem_singleton.mp hz ▸ hnot
      refine ⟨max fuel fuel', found, ?_⟩
      rw [anyOf, search_mono (Nat.le_max_left fuel fuel') hy]
      exact anyOf_mono (fun z b hz => search_mono (Nat.le_max_right fuel fuel') hz) hrest

theorem search_of_acc {x : α} (h : Acc (fun y x => Tries succs goal x y) x) :
    ∃ fuel found, search succs goal fuel x = some found := by
  induction h with
  | intro x _ ih =>
    by_cases hx : x = goal
    · exact ⟨1, true, if_pos hx⟩
    · obtain ⟨fuel, found, hany⟩ := anyOf_of_tries hx ih (List.nil_append (succs x)).symm nofun
      exact ⟨fuel + 1, found, (if_neg hx).trans hany⟩

theorem search_iff {nodes : List α} (hnodes : ∀ x, succs x ≠ [] → x ∈ nodes) {x : α} :
    (∃ fuel found, search succs goal fuel x = some found) ↔ ¬ Cycles succs goal x := by
  constructor
  · rintro ⟨fuel, found, h⟩
    exact not_cycles_of_search h
  · exact fun h => search_of_acc (acc_of_not_cycles hnodes h)

end Search

end DepthFirst
