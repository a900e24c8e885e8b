import FactoryThing.Lib.SequentialRenaming
import Mathlib.Data.List.Count
import Mathlib.Order.Nat

/-!
# The most frequent name

How often the names of a list occur is counted in a dictionary that keeps the order in which the
names come first, and the first of the most frequent ones is picked. Renaming this one does not
change which one it is.
-/

namespace MostFrequent

open SequentialRenaming

variable {α : Type} [DecidableEq α]

def bump : List (α × Nat) → α → List (α × Nat)
  | [], x => [(x, 1)]
  | (y, n) :: dict, x => if y = x then (y, n + 1) :: dict else (y, n) :: bump dict x

def countAll (l : List α) : List (α × Nat) := l.foldl bump []

theorem bump_of_notMem {dict : List (α × Nat)} {x : α} (h : x ∉ dict.map Prod.fst) :
    bump dict x = dict ++ [(x, 1)] := by
  induction dict with
  | nil => rfl
  | cons entry dict ih =>
    rw [List.map_cons, List.mem_cons, not_or] at h
    rw [bump, if_neg (Ne.symm h.1), ih h.2, List.cons_append]

theorem bump_of_mem {keys : List α} {x : α} {n : α → Nat} (hnodup : keys.Nodup) (h : x ∈ keys) :
    bump (keys.map fun y => (y, n y)) x =
      keys.map fun y => (y, if y = x then n y + 1 else n y) := by
  induction keys with
  | nil => cases h
  | cons y keys ih =>
    obtain ⟨hy, hnodup⟩ := List.nodup_cons.mp hnodup
    rw [List.map_cons, List.map_cons, bump]
    by_cases hyx : y = x
    · subst hyx
      rw [if_pos rfl, if_pos rfl]
      refine congrArg _ (List.map_congr_left fun z hz => ?_)
      rw [if_neg (by rintro rfl; exact hy hz)]
    · rw [if_neg hyx, if_neg hyx, ih hnodup ((List.mem_cons.mp h).resolve_left (Ne.symm hyx))]

theorem countAll_eq (l : List α) : countAll l = (firsts l).map fun x => (x, l.count x) := by
  induction l using List.reverseRecOn with
  | nil => rfl
  | append_singleton l x ih =>
    rw [countAll, List.foldl_append, List.foldl_cons, List.foldl_nil, ← countAll, ih,
      firsts_append_singleton]
    split
    next hx =>
      rw [bump_of_mem (nodup_firsts l) hx]
      refine List.map_congr_left fun y _ => ?_
      by_cases hyx : y = x
      · simp [hyx]
      · simp [hyx, Ne.symm hyx]
    next hx =>
      rw [bump_of_notMem (by simpa [List.map_map, Function.comp_def] using hx), List.map_append]
      congr 1
      · refine List.map_congr_left fun y hy => ?_
        rw [List.count_append, List.count_singleton, if_neg (by
          simp only [beq_iff_eq]
          exact fun heq => hx (heq ▸ hy)), Nat.add_zero]
      · rw [mem_firsts] at hx
        rw [List.map_singleton, List.count_append, List.count_eq_zero_of_not_mem hx,
          List.count_singleton_self]

/-- The name of an entry that is greater than all before. -/
def pick (dict : List (α × Nat)) (none : α) : α :=
  (dict.foldl (fun best entry => if entry.2 > best.2 then entry else best) (none, 0)).1

/-- The first of the most frequent names, or `none` when there are no names. -/
def mostFrequent (none : α) (l : List α) : α := pick (countAll l) none

/-- A name comes more often than all that come before it, and none comes more often. -/
def IsMostFrequent (l : List α) (x : α) : Prop :=
  ∃ before after, l = before ++ x :: after ∧ x ∉ before ∧
    (∀ y ∈ before, l.count y < l.count x) ∧ ∀ y, l.count y ≤ l.count x

theorem IsMostFrequent.mem {l : List α} {x : α} (h : IsMostFrequent l x) : x ∈ l := by
  obtain ⟨before, after, rfl, -⟩ := h
  exact List.mem_append_right _ List.mem_cons_self

theorem IsMostFrequent.unique {l : List α} {x y : α} (hx : IsMostFrequent l x)
    (hy : IsMostFrequent l y) : x = y := by
  obtain ⟨before, after, hsplit, hnot, hbefore, hmost⟩ := hx
  obtain ⟨before', after', hsplit', hnot', hbefore', hmost'⟩ := hy
  have heq : l.count x = l.count y := Nat.le_antisymm (hmost' x) (hmost y)
  have hsame := hsplit.symm.trans hsplit'
  obtain ⟨between, rfl, hrest⟩ | ⟨between, rfl, hrest⟩ := List.append_eq_append_iff.mp hsame
  · cases between with
    | nil => exact (List.cons.inj hrest).1
    | cons z between =>
      obtain rfl := (List.cons.inj hrest).1
      exact absurd heq (hbefore' x (List.mem_append_right _ List.mem_cons_self)).ne
  · cases between with
    | nil => exact (List.cons.inj hrest).1.symm
    | cons z between =>
      obtain rfl := (List.cons.inj hrest).1
      exact absurd heq (hbefore y (List.mem_append_right _ List.mem_cons_self)).ne'

omit [DecidableEq α] in
theorem foldl_pick (n : α → Nat) (keys : List α) (start : α × Nat) :
    ((keys.map fun y => (y, n y)).foldl
        (fun best entry => if entry.2 > best.2 then entry else best) start = start ∧
      ∀ y ∈ keys, n y ≤ start.2) ∨
    ∃ front x back, keys = front ++ x :: back ∧
      (keys.map fun y => (y, n y)).foldl
        (fun best entry => if entry.2 > best.2 then entry else best) start = (x, n x) ∧
      start.2 < n x ∧ (∀ y ∈ front, n y < n x) ∧ ∀ y ∈ back, n y ≤ n x := by
  induction keys generalizing start with
  | nil => exact .inl ⟨rfl, fun y hy => nomatch hy⟩
  | cons z keys ih =>
    rw [List.map_cons, List.foldl_cons]
    by_cases hz : n z > start.2
    · rw [if_pos hz]
      obtain ⟨hbest, hle⟩ | ⟨front, x, back, rfl, hbest, hlt, hfront, hback⟩ := ih (z, n z)
      · exact .inr ⟨[], z, keys, rfl, hbest, hz, (fun y hy => nomatch hy), hle⟩
      · exact .inr ⟨z :: front, x, back, rfl, hbest, hz.trans hlt,
          List.forall_mem_cons.mpr ⟨hlt, hfront⟩, hback⟩
    · rw [if_neg hz]
      obtain ⟨hbest, hle⟩ | ⟨front, x, back, rfl, hbest, hlt, hfront, hback⟩ := ih start
      · exact .inl ⟨hbest, List.forall_mem_cons.mpr ⟨Nat.not_lt.mp hz, hle⟩⟩
      · exact .inr ⟨z :: front, x, back, rfl, hbest, hlt,
          List.forall_mem_cons.mpr ⟨Nat.lt_of_le_of_lt (Nat.not_lt.mp hz) hlt, hfront⟩, hback⟩

theorem mostFrequent_nil (none : α) : mostFrequent none [] = none := rfl

theorem isMostFrequent_mostFrequent (none : α) {l : List α} (h : l ≠ []) :
    IsMostFrequent l (mostFrequent none l) := by
  have hmem : ∀ y ∈ firsts l, 0 < l.count y := fun y hy =>
    List.count_pos_iff.mpr (mem_firsts.mp hy)
  rw [mostFrequent, pick, countAll_eq]
  obtain ⟨-, hle⟩ | ⟨front, x, back, hsplit, hbest, -, hfront, hback⟩ :=
    foldl_pick (fun y => l.count y) (firsts l) (none, 0)
  · obtain ⟨y, l, rfl⟩ := List.exists_cons_of_ne_nil h
    have hy : y ∈ firsts (y :: l) := mem_firsts.mpr List.mem_cons_self
    exact absurd (hmem y hy) (Nat.not_lt.mpr (hle y hy))
  · rw [hbest]
    obtain ⟨before, after, hl, hx, hin⟩ := exists_split_of_firsts hsplit
    refine ⟨before, after, hl, hx, fun y hy => hfront y (hin y hy), fun y => ?_⟩
    by_cases hy : y ∈ firsts l
    · rw [hsplit] at hy
      obtain hy | hy := List.mem_append.mp hy
      · exact (hfront y hy).le
      · obtain rfl | hy := List.mem_cons.mp hy
        · exact Nat.le_refl _
        · exact hback y hy
    · rw [List.count_eq_zero_of_not_mem fun hmem => hy (mem_firsts.mpr hmem)]
      exact Nat.zero_le _

theorem count_map_rename {l : List α} {x y z : α} (hy : z ≠ y) :
    (l.map (rename (x, y))).count z = if z = x then 0 else l.count z := by
  induction l with
  | nil => simp
  | cons w l ih =>
    rw [List.map_cons, List.count_cons, ih, List.count_cons]
    by_cases hw : w = x
    · subst hw
      have hrenamed : rename (w, y) w = y := rename_self
      rw [hrenamed]
      by_cases hz : z = w
      · simp [hz, hz ▸ Ne.symm hy]
      · simp [hz, Ne.symm hy, Ne.symm hz]
    · have hrenamed : rename (x, y) w = w := rename_of_ne hw
      rw [hrenamed]
      by_cases hz : z = x
      · simp [hz, hw]
      · simp [hz]

theorem count_le_count_map_rename (l : List α) (x y : α) :
    l.count x ≤ (l.map (rename (x, y))).count y := by
  induction l with
  | nil => exact Nat.le_refl _
  | cons w l ih =>
    rw [List.map_cons, List.count_cons, List.count_cons]
    by_cases hw : w = x
    · subst hw
      have hrenamed : rename (w, y) w = y := rename_self
      rw [hrenamed]
      simpa using ih
    · simp [hw]
      omega

theorem IsMostFrequent.rename {l : List α} {x : α} (h : IsMostFrequent l x) (y : α) :
    IsMostFrequent (l.map (rename (x, y))) y := by
  obtain rfl | hne := eq_or_ne x y
  · have hid : l.map (SequentialRenaming.rename (x, x)) = l := by
      conv_rhs => rw [← List.map_id l]
      refine List.map_congr_left fun z _ => ?_
      by_cases hz : z = x
      · subst hz
        exact rename_self
      · exact rename_of_ne hz
    rw [hid]
    exact h
  obtain ⟨before, after, rfl, hx, hbefore, hmost⟩ := h
  have hfront : before.map (SequentialRenaming.rename (x, y)) = before := by
    conv_rhs => rw [← List.map_id before]
    exact List.map_congr_left fun z hz => rename_of_ne (by rintro rfl; exact hx hz)
  have hle := count_le_count_map_rename (before ++ x :: after) x y
  have hother : ∀ z, z ≠ y → ((before ++ x :: after).map (SequentialRenaming.rename (x, y))).count z
      ≤ (before ++ x :: after).count z := by
    intro z hz
    rw [count_map_rename hz]
    split
    · exact Nat.zero_le _
    · exact Nat.le_refl _
  have hmost' : ∀ z, ((before ++ x :: after).map (SequentialRenaming.rename (x, y))).count z ≤
      ((before ++ x :: after).map (SequentialRenaming.rename (x, y))).count y := by
    intro z
    by_cases hz : z = y
    · rw [hz]
    · exact (hother z hz).trans ((hmost z).trans hle)
  have hless : ∀ z ∈ before, z ≠ y →
      ((before ++ x :: after).map (SequentialRenaming.rename (x, y))).count z <
        ((before ++ x :: after).map (SequentialRenaming.rename (x, y))).count y := fun z hz hzy =>
    Nat.lt_of_le_of_lt (hother z hzy) (Nat.lt_of_lt_of_le (hbefore z hz) hle)
  have hsplit : (before ++ x :: after).map (SequentialRenaming.rename (x, y)) =
      before ++ y :: after.map (SequentialRenaming.rename (x, y)) := by
    rw [List.map_append, List.map_cons, hfront, show SequentialRenaming.rename (x, y) x = y from
      rename_self]
  by_cases hy : y ∈ before
  · obtain ⟨front, between, rfl, hnot⟩ := List.eq_append_cons_of_mem hy
    refine ⟨front, between ++ y :: after.map (SequentialRenaming.rename (x, y)), ?_, hnot,
      fun z hz => hless z (List.mem_append_left _ hz) ?_, hmost'⟩
    · rw [hsplit, List.append_assoc, List.cons_append]
    · rintro rfl
      exact hnot hz
  · exact ⟨before, _, hsplit, hy, fun z hz => hless z hz fun heq => hy (heq ▸ hz), hmost'⟩

end MostFrequent
