import Mathlib

/-!
# Greedy orders

An order of some items in which the next one is always the first of those with the least weight,
where the weight of an item depends on what has been taken before. Such an order takes every item
after those it depends on exactly when no item that still has to wait is lighter than the item that
a dependency order takes.
-/

namespace GreedyOrder

open Relation

section Order

variable {α ω : Type} [LinearOrder α] [LinearOrder ω]

/-- The weight, and behind it the item: the first one of equal weights is the least. -/
def key (w : List α → α → ω) (taken : List α) (a : α) : ω ×ₗ α := toLex (w taken a, a)

/-- The first of the lightest items that are not taken. -/
def next (w : List α → α → ω) (items taken : List α) : Option α :=
  (items.filter fun a => a ∉ taken).argmin (key w taken)

def order (w : List α → α → ω) (items : List α) : Nat → List α
  | 0 => []
  | k + 1 => order w items k ++ (next w items (order w items k)).toList

variable {w w' : List α → α → ω} {items taken : List α}

omit [LinearOrder α] [LinearOrder ω] in
theorem key_injective (taken : List α) {a b : α} (h : key w taken a = key w taken b) : a = b :=
  (Prod.mk.inj (toLex_inj.mp h)).2

theorem next_eq_some_iff {a : α} :
    next w items taken = some a ↔
      a ∈ items ∧ a ∉ taken ∧ ∀ b ∈ items, b ∉ taken → key w taken a ≤ key w taken b := by
  constructor
  · intro h
    have hmem := List.mem_filter.mp (List.argmin_mem h)
    refine ⟨hmem.1, by simpa using hmem.2, fun b hb hnot => ?_⟩
    exact List.le_of_mem_argmin (List.mem_filter.mpr ⟨hb, by simpa using hnot⟩) h
  · intro h
    rcases h with ⟨hmem, hnot, hle⟩
    have hin : a ∈ items.filter fun a => a ∉ taken :=
      List.mem_filter.mpr ⟨hmem, by simpa using hnot⟩
    cases hnext : next w items taken with
    | none => rw [List.argmin_eq_none.mp hnext] at hin; cases hin
    | some b =>
      have hb := List.mem_filter.mp (List.argmin_mem hnext)
      have hba := List.le_of_mem_argmin hin hnext
      have hab := hle b hb.1 (by simpa using hb.2)
      rw [key_injective taken (le_antisymm hba hab)]

theorem next_ne_none (h : ∃ a ∈ items, a ∉ taken) : next w items taken ≠ none := by
  rcases h with ⟨a, ha, hnot⟩
  intro hnone
  have hempty := List.argmin_eq_none.mp hnone
  have hin : a ∈ items.filter fun a => a ∉ taken := List.mem_filter.mpr ⟨ha, by simpa using hnot⟩
  rw [hempty] at hin
  cases hin

theorem order_nodup (k : Nat) : (order w items k).Nodup := by
  induction k with
  | zero => exact List.nodup_nil
  | succ k ih =>
    rw [order]
    cases hnext : next w items (order w items k) with
    | none => simpa using ih
    | some a =>
      have hnot := (next_eq_some_iff.mp hnext).2.1
      rw [Option.toList_some, List.nodup_append']
      exact ⟨ih, List.nodup_singleton a, by simpa using hnot⟩

theorem order_subset (k : Nat) : order w items k ⊆ items := by
  induction k with
  | zero => exact List.nil_subset _
  | succ k ih =>
    refine List.append_subset.mpr ⟨ih, fun a ha => ?_⟩
    exact (next_eq_some_iff.mp (Option.mem_toList.mp ha)).1

omit [LinearOrder α] in
theorem exists_not_mem (hnodup : items.Nodup) (h : taken.length < items.length) :
    ∃ a ∈ items, a ∉ taken := by
  by_contra hall
  have hsubset : items ⊆ taken := fun a ha => by
    by_contra hnot
    exact hall ⟨a, ha, hnot⟩
  exact absurd (hnodup.subperm hsubset).length_le (by omega)

theorem order_length (hnodup : items.Nodup) {k : Nat} (hk : k ≤ items.length) :
    (order w items k).length = k := by
  induction k with
  | zero => rfl
  | succ k ih =>
    have hlength := ih (by omega)
    have hleft : ∃ a ∈ items, a ∉ order w items k := exists_not_mem hnodup (by omega)
    rcases Option.ne_none_iff_exists'.mp (next_ne_none (w := w) hleft) with ⟨a, ha⟩
    simp [order, ha, hlength]

theorem exists_next (hnodup : items.Nodup) {k : Nat} (hk : k < items.length) :
    ∃ a, next w items (order w items k) = some a := by
  refine Option.ne_none_iff_exists'.mp (next_ne_none (exists_not_mem hnodup ?_))
  rw [order_length hnodup (Nat.le_of_lt hk)]
  exact hk

theorem order_perm (hnodup : items.Nodup) : (order w items items.length).Perm items :=
  ((order_nodup items.length).subperm (order_subset items.length)).perm_of_length_le
    (order_length hnodup le_rfl).ge

theorem order_split (hnodup : items.Nodup) {k : Nat} (hk : k ≤ items.length) {before after : List α}
    {a : α} (h : order w items k = before ++ a :: after) :
    before = order w items before.length ∧ next w items before = some a ∧ before.length < k := by
  induction k generalizing after with
  | zero => simp [order] at h
  | succ k ih =>
    rcases exists_next (w := w) hnodup (show k < items.length by omega) with ⟨b, hb⟩
    have hlength := order_length (w := w) hnodup (show k ≤ items.length by omega)
    rw [order, hb, Option.toList_some] at h
    rcases List.eq_nil_or_concat' after with rfl | ⟨after', c, rfl⟩
    · rcases List.append_inj' h rfl with ⟨hbefore, hlast⟩
      cases hlast
      rw [← hbefore, hlength]
      exact ⟨rfl, hb, Nat.lt_succ_self k⟩
    · rw [← List.cons_append, ← List.append_assoc] at h
      rcases List.append_inj' h rfl with ⟨hfirst, -⟩
      rcases ih (by omega) hfirst with ⟨hbefore, hnext, hlt⟩
      exact ⟨hbefore, hnext, Nat.lt_succ_of_lt hlt⟩

theorem order_prefix {j k : Nat} (h : j ≤ k) : order w items j <+: order w items k := by
  induction k, h using Nat.le_induction with
  | base => exact List.prefix_rfl
  | succ k _ ih => exact ih.trans (List.prefix_append _ _)

theorem exists_split {k : Nat} (hk : k < items.length) {a : α}
    (hnext : next w items (order w items k) = some a) :
    ∃ after, order w items items.length = order w items k ++ a :: after := by
  have hprefix : order w items (k + 1) <+: order w items items.length := order_prefix hk
  rcases hprefix with ⟨after, hafter⟩
  rw [order, hnext, Option.toList_some, List.append_assoc] at hafter
  exact ⟨after, hafter.symm⟩

end Order

section Dependencies

variable {α ω : Type} {dep : α → α → Prop}

/-- Every item comes behind all those that it depends on. -/
def Respects (dep : α → α → Prop) (l : List α) : Prop :=
  ∀ before a after, l = before ++ a :: after → ∀ b, dep a b → b ∈ before

/-- All that the item depends on is taken. -/
def Ready (dep : α → α → Prop) (taken : List α) (a : α) : Prop := ∀ b, dep a b → b ∈ taken

def Acyclic (dep : α → α → Prop) : Prop := ∀ a, ¬ TransGen dep a a

theorem acyclic_of_rank (rank : α → Nat) (h : ∀ a b, dep a b → rank b < rank a) : Acyclic dep := by
  intro a hcycle
  have hlt : ∀ b, TransGen dep a b → rank b < rank a := by
    intro b hab
    induction hab with
    | single hdep => exact h a _ hdep
    | tail _ hdep ih => exact (h _ _ hdep).trans ih
  exact Nat.lt_irrefl _ (hlt a hcycle)

theorem Acyclic.wellFounded [Finite α] (h : Acyclic dep) :
    WellFounded fun b a => TransGen dep a b := by
  have : Std.Irrefl fun b a => TransGen dep a b := ⟨fun a ha => h a ha⟩
  exact Finite.wellFounded_of_trans_of_irrefl _

theorem Acyclic.exists_ready [Finite α] (h : Acyclic dep) {taken : List α}
    (hleft : ∃ a, a ∉ taken) :
    ∃ a, a ∉ taken ∧ Ready dep taken a := by
  rcases h.wellFounded.has_min {a | a ∉ taken} hleft with ⟨a, ha, hmin⟩
  refine ⟨a, ha, fun b hab => ?_⟩
  by_contra hb
  exact hmin b hb (TransGen.single hab)

variable [LinearOrder α] [LinearOrder ω] {own : α → ω} {w : List α → α → ω} {items taken : List α}

open Classical in
/-- What is not ready weighs more than anything. -/
noncomputable def readyWeight (dep : α → α → Prop) (own : α → ω) (taken : List α) (a : α) :
    WithTop ω :=
  if Ready dep taken a then own a else ⊤

/-- The order that takes, of the items that are ready, the first of the lightest. -/
noncomputable def readyOrder (dep : α → α → Prop) (own : α → ω) (items : List α) (k : Nat) :
    List α :=
  order (readyWeight dep own) items k

/-- What that order takes is always in front of the items that still wait. -/
def NotOvertaken (dep : α → α → Prop) (own : α → ω) (w : List α → α → ω) (items : List α) : Prop :=
  ∀ k < items.length, ∀ a,
    next (readyWeight dep own) items (readyOrder dep own items k) = some a →
      ∀ b ∉ readyOrder dep own items k, ¬ Ready dep (readyOrder dep own items k) b →
        toLex (own a, a) < key w (readyOrder dep own items k) b

theorem key_readyWeight_of_ready {a b : α} (ha : Ready dep taken a) (hb : Ready dep taken b) :
    key (readyWeight dep own) taken a ≤ key (readyWeight dep own) taken b ↔
      toLex (own a, a) ≤ toLex (own b, b) := by
  simp [key, readyWeight, ha, hb, Prod.Lex.toLex_le_toLex]

theorem key_readyWeight_of_not_ready {a b : α} (ha : Ready dep taken a) (hb : ¬ Ready dep taken b) :
    key (readyWeight dep own) taken a < key (readyWeight dep own) taken b := by
  simp [key, readyWeight, ha, hb, Prod.Lex.toLex_lt_toLex]

theorem ready_of_next {a b : α} (hnext : next (readyWeight dep own) items taken = some a)
    (hb : b ∈ items) (hnot : b ∉ taken) (hready : Ready dep taken b) : Ready dep taken a := by
  by_contra hwait
  have hle := (next_eq_some_iff.mp hnext).2.2 b hb hnot
  exact absurd (key_readyWeight_of_not_ready hready hwait) (not_lt.mpr hle)

theorem next_of_not_overtaken {a : α} (hown : ∀ b, Ready dep taken b → w taken b = own b)
    (hready : Ready dep taken a) (hnext : next (readyWeight dep own) items taken = some a)
    (h : ∀ b ∉ taken, ¬ Ready dep taken b → toLex (own a, a) < key w taken b) :
    next w items taken = some a := by
  rcases next_eq_some_iff.mp hnext with ⟨hmem, hnot, hle⟩
  refine next_eq_some_iff.mpr ⟨hmem, hnot, fun b hb hb' => ?_⟩
  rw [key, hown a hready]
  by_cases hbready : Ready dep taken b
  · rw [key, hown b hbready]
    exact (key_readyWeight_of_ready hready hbready).mp (hle b hb hb')
  · exact le_of_lt (h b hb' hbready)

theorem next_of_ready {a : α} (hown : ∀ b, Ready dep taken b → w taken b = own b)
    (hready : Ready dep taken a) (hnext : next w items taken = some a) :
    next (readyWeight dep own) items taken = some a ∧
      ∀ b ∈ items, b ∉ taken → ¬ Ready dep taken b → toLex (own a, a) < key w taken b := by
  rcases next_eq_some_iff.mp hnext with ⟨hmem, hnot, hle⟩
  constructor
  · refine next_eq_some_iff.mpr ⟨hmem, hnot, fun b hb hb' => ?_⟩
    by_cases hbready : Ready dep taken b
    · have hkeys := hle b hb hb'
      rw [key, key, hown a hready, hown b hbready] at hkeys
      exact (key_readyWeight_of_ready hready hbready).mpr hkeys
    · exact le_of_lt (key_readyWeight_of_not_ready hready hbready)
  · intro b hb hb' hwait
    have hkeys := hle b hb hb'
    rw [key, hown a hready] at hkeys
    refine lt_of_le_of_ne hkeys fun heq => hwait ?_
    rw [← (Prod.mk.inj (toLex_inj.mp heq)).2]
    exact hready

theorem exists_ready_next [Finite α] (hnodup : items.Nodup) (hall : ∀ a, a ∈ items)
    (hacyclic : Acyclic dep) {k : Nat} (hk : k < items.length) :
    ∃ a, next (readyWeight dep own) items (readyOrder dep own items k) = some a ∧
      Ready dep (readyOrder dep own items k) a := by
  rcases exists_next (w := readyWeight dep own) hnodup hk with ⟨a, ha⟩
  have hlength := order_length (w := readyWeight dep own) hnodup (Nat.le_of_lt hk)
  rcases exists_not_mem hnodup (lt_of_eq_of_lt hlength hk) with ⟨c, -, hc⟩
  rcases hacyclic.exists_ready ⟨c, hc⟩ with ⟨b, hb, hready⟩
  exact ⟨a, ha, ready_of_next ha (hall b) hb hready⟩

/-- A greedy order whose weights are right for what is ready takes every item behind those it
depends on exactly when no waiting item overtakes. -/
theorem respects_iff [Finite α] (hnodup : items.Nodup) (hall : ∀ a, a ∈ items)
    (hacyclic : Acyclic dep) (hown : ∀ taken a, Ready dep taken a → w taken a = own a) :
    Respects dep (order w items items.length) ↔ NotOvertaken dep own w items := by
  constructor
  · intro h
    have hready : ∀ k < items.length, ∀ a, next w items (order w items k) = some a →
        Ready dep (order w items k) a := by
      intro k hk a hnext
      rcases exists_split hk hnext with ⟨after, hsplit⟩
      exact h _ a after hsplit
    have hsame : ∀ k ≤ items.length, order w items k = readyOrder dep own items k := by
      intro k hk
      induction k with
      | zero => rfl
      | succ k ih =>
        have heq := ih (by omega)
        rcases exists_next (w := w) hnodup (show k < items.length by omega) with ⟨a, ha⟩
        have hnext := (next_of_ready (hown _) (hready k (by omega) a ha) ha).1
        rw [heq] at hnext
        rw [order, ha, readyOrder, order, ← readyOrder, hnext, heq]
    intro k hk a hnext b hb hwait
    rcases exists_next (w := w) hnodup hk with ⟨a', ha'⟩
    have hgreedy := @next_of_ready _ _ _ _ _ own _ _ _ _ (hown _) (hready k hk a' ha') ha'
    rw [hsame k (by omega)] at hgreedy
    cases Option.some.inj (hgreedy.1.symm.trans hnext)
    exact hgreedy.2 b (hall b) hb hwait
  · intro h
    have hagree : ∀ k < items.length,
        next w items (readyOrder dep own items k) =
          next (readyWeight dep own) items (readyOrder dep own items k) := by
      intro k hk
      rcases @exists_ready_next _ _ _ _ _ own _ _ hnodup hall hacyclic _ hk with ⟨a, ha, hready⟩
      rw [ha]
      exact next_of_not_overtaken (hown _) hready ha (h k hk a ha)
    have hsame : ∀ k ≤ items.length, order w items k = readyOrder dep own items k := by
      intro k hk
      induction k with
      | zero => rfl
      | succ k ih =>
        rw [readyOrder, order, order, ← readyOrder, ih (by omega), hagree k (by omega)]
    intro before a after hsplit
    rcases order_split hnodup le_rfl hsplit with ⟨hbefore, hnext, hlt⟩
    rw [hsame _ (by omega)] at hbefore
    rcases @exists_ready_next _ _ _ _ _ own _ _ hnodup hall hacyclic _ hlt with ⟨a', ha', hready⟩
    rw [hbefore, hagree _ hlt, ha', Option.some.injEq] at hnext
    rw [hbefore, ← hnext]
    exact hready

end Dependencies

end GreedyOrder
