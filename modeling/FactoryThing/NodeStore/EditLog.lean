import FactoryThing.NodeStore.Editing
import Mathlib.Data.List.Nodup

/-!
# Edits one at a time

What calls of `UA_Server_editNode` are for: a call applies its callback to the node at one moment,
or returns the reason why it does not.
-/

namespace FactoryThing.NodeStore

variable {α C T : Type} [DecidableEq T] {callback : C → α → StatusCode × α} {first : α}

/-- The node, the calls that have not returned, with whether their callbacks have been applied, the
calls whose callbacks have been applied, and what calls have returned. -/
structure EditLog (α C T : Type) where
  node : α
  pending : T → Option (EditCall C × Bool)
  calls : Nat
  applied : List (EditCall C)
  returned : List (EditCall C × StatusCode)

/-- The callbacks of calls one after the other. -/
def applyCalls (callback : C → α → StatusCode × α) (node : α) (calls : List (EditCall C)) : α :=
  calls.foldl (fun node call => (callback call.edit node).2) node

theorem applyCalls_append (node : α) (calls : List (EditCall C)) (call : EditCall C) :
    applyCalls callback node (calls ++ [call]) =
      (callback call.edit (applyCalls callback node calls)).2 :=
  List.foldl_append

namespace EditLog

variable {l l' : EditLog α C T} {t : T}

/-- The calls that succeeded, whether or not they have returned yet. -/
def Succeeds (l : EditLog α C T) (call : EditCall C) : Prop :=
  (call, StatusCode.good) ∈ l.returned ∨ ∃ t, l.pending t = some (call, true)

/-- A call begins, is applied, fails or ends. -/
inductive Step (callback : C → α → StatusCode × α) (l : EditLog α C T) : EditLog α C T → Prop
  | begin (t : T) (edit : C) : l.pending t = none → Step callback l
      { l with
        pending := Function.update l.pending t (some (⟨l.calls, edit⟩, false))
        calls := l.calls + 1 }
  | apply (t : T) (call : EditCall C) (node : α) : l.pending t = some (call, false) →
      callback call.edit l.node = (StatusCode.good, node) → Step callback l
      { l with
        node := node
        pending := Function.update l.pending t (some (call, true))
        applied := l.applied ++ [call] }
  | fail (t : T) (call : EditCall C) (retval : StatusCode) : l.pending t = some (call, false) →
      retval ≠ StatusCode.good → Step callback l
      { l with
        pending := Function.update l.pending t none
        returned := (call, retval) :: l.returned }
  | finish (t : T) (call : EditCall C) : l.pending t = some (call, true) → Step callback l
      { l with
        pending := Function.update l.pending t none
        returned := (call, StatusCode.good) :: l.returned }

/-- Calls have their own numbers, and the node is the first one with what has been applied. -/
structure Ok (callback : C → α → StatusCode × α) (first : α) (l : EditLog α C T) : Prop where
  pending : ∀ t, ∀ p ∈ l.pending t, p.1.id < l.calls
  distinct : ∀ t u, ∀ p ∈ l.pending t, ∀ q ∈ l.pending u, p.1.id = q.1.id → t = u
  returned : ∀ p ∈ l.returned, p.1.id < l.calls ∧ ∀ t, ∀ q ∈ l.pending t, q.1.id ≠ p.1.id
  applied : ∀ call, call ∈ l.applied ↔ l.Succeeds call
  nodup : (l.applied.map EditCall.id).Nodup
  node : l.node = applyCalls callback first l.applied

theorem mem_pending {x : Option (EditCall C × Bool)} {u : T} {p : EditCall C × Bool}
    (hp : p ∈ l'.pending u) (hpending : l'.pending = Function.update l.pending t x) :
    u = t ∧ p ∈ x ∨ u ≠ t ∧ p ∈ l.pending u := by
  rw [hpending, Function.update_apply] at hp
  split at hp
  · exact Or.inl ⟨‹_›, hp⟩
  · exact Or.inr ⟨‹_›, hp⟩

theorem Ok.begin (h : Ok callback first l) {edit : C} (hidle : l.pending t = none) :
    Ok callback first { l with
      pending := Function.update l.pending t (some (⟨l.calls, edit⟩, false))
      calls := l.calls + 1 } where
  pending u p hp := by
    obtain ⟨-, hnew⟩ | ⟨-, hold⟩ := mem_pending hp rfl
    · cases hnew
      exact Nat.lt_succ_self _
    · exact Nat.lt_succ_of_lt (h.pending u p hold)
  distinct u v p hp q hq heq := by
    obtain ⟨hu, hnew⟩ | ⟨-, hold⟩ := mem_pending hp rfl <;>
      obtain ⟨hv, hnew'⟩ | ⟨-, hold'⟩ := mem_pending hq rfl
    · exact hu.trans hv.symm
    · cases hnew
      exact absurd heq.symm (Nat.ne_of_lt (h.pending v q hold'))
    · cases hnew'
      exact absurd heq (Nat.ne_of_lt (h.pending u p hold))
    · exact h.distinct u v p hold q hold' heq
  returned p hp := by
    refine ⟨Nat.lt_succ_of_lt (h.returned p hp).1, fun u q hq heq => ?_⟩
    obtain ⟨-, hnew⟩ | ⟨-, hold⟩ := mem_pending hq rfl
    · cases hnew
      exact Nat.ne_of_lt (h.returned p hp).1 heq.symm
    · exact (h.returned p hp).2 u q hold heq
  applied call := by
    rw [h.applied call]
    refine or_congr_right ⟨fun ⟨u, hu⟩ => ⟨u, ?_⟩, fun ⟨u, hu⟩ => ⟨u, ?_⟩⟩
    · have hne : u ≠ t := by
        rintro rfl
        rw [hidle] at hu
        cases hu
      exact (Function.update_of_ne hne _ _).trans hu
    · obtain ⟨-, hp⟩ | ⟨-, hp⟩ := mem_pending hu rfl
      · cases hp
      · exact hp
  nodup := h.nodup
  node := h.node

theorem Ok.apply (h : Ok callback first l) {call : EditCall C} {node : α}
    (hcall : l.pending t = some (call, false))
    (hgood : callback call.edit l.node = (StatusCode.good, node)) :
    Ok callback first { l with
      node := node
      pending := Function.update l.pending t (some (call, true))
      applied := l.applied ++ [call] } where
  pending u p hp := by
    obtain ⟨-, hnew⟩ | ⟨-, hold⟩ := mem_pending hp rfl
    · cases hnew
      exact h.pending t (call, false) hcall
    · exact h.pending u p hold
  distinct u v p hp q hq heq := by
    obtain ⟨hu, hnew⟩ | ⟨-, hold⟩ := mem_pending hp rfl <;>
      obtain ⟨hv, hnew'⟩ | ⟨-, hold'⟩ := mem_pending hq rfl
    · exact hu.trans hv.symm
    · cases hnew
      exact hu.trans (h.distinct t v _ hcall q hold' heq)
    · cases hnew'
      exact (h.distinct u t p hold _ hcall heq).trans hv.symm
    · exact h.distinct u v p hold q hold' heq
  returned p hp := by
    refine ⟨(h.returned p hp).1, fun u q hq => ?_⟩
    obtain ⟨-, hnew⟩ | ⟨-, hold⟩ := mem_pending hq rfl
    · cases hnew
      exact (h.returned p hp).2 t (call, false) hcall
    · exact (h.returned p hp).2 u q hold
  applied other := by
    rw [List.mem_append, List.mem_singleton, h.applied other]
    constructor
    · rintro ((hreturned | ⟨u, hu⟩) | rfl)
      · exact Or.inl hreturned
      · have hne : u ≠ t := by
          rintro rfl
          rw [hcall] at hu
          cases hu
        exact Or.inr ⟨u, (Function.update_of_ne hne _ _).trans hu⟩
      · exact Or.inr ⟨t, Function.update_self _ _ _⟩
    · rintro (hreturned | ⟨u, hu⟩)
      · exact Or.inl (Or.inl hreturned)
      · obtain ⟨-, hp⟩ | ⟨-, hp⟩ := mem_pending hu rfl
        · cases hp
          exact Or.inr rfl
        · exact Or.inl (Or.inr ⟨u, hp⟩)
  nodup := by
    rw [List.map_append, List.map_singleton]
    refine List.nodup_append.mpr ⟨h.nodup, List.nodup_singleton _, ?_⟩
    intro id hid other hother heq
    obtain ⟨done, hdone, rfl⟩ := List.mem_map.mp hid
    have hsame : done.id = call.id := heq.trans (List.mem_singleton.mp hother)
    -- an applied call has returned, or its thread has nothing else to do
    obtain hreturned | ⟨u, hu⟩ := (h.applied done).mp hdone
    · exact (h.returned _ hreturned).2 t _ hcall hsame.symm
    · cases h.distinct u t _ hu _ hcall hsame
      rw [hcall] at hu
      cases hu
  node := by
    rw [applyCalls_append, ← h.node, hgood]

theorem Ok.return (h : Ok callback first l) {call : EditCall C} {retval : StatusCode} {b : Bool}
    (hcall : l.pending t = some (call, b)) (hb : b = true ↔ retval = StatusCode.good) :
    Ok callback first { l with
      pending := Function.update l.pending t none
      returned := (call, retval) :: l.returned } where
  pending u p hp := by
    obtain ⟨-, hp⟩ | ⟨-, hp⟩ := mem_pending hp rfl
    · cases hp
    · exact h.pending u p hp
  distinct u v p hp q hq heq := by
    obtain ⟨-, hp⟩ | ⟨-, hp⟩ := mem_pending hp rfl
    · cases hp
    obtain ⟨-, hq⟩ | ⟨-, hq⟩ := mem_pending hq rfl
    · cases hq
    exact h.distinct u v p hp q hq heq
  returned p hp := by
    obtain rfl | hp := List.mem_cons.mp hp
    · refine ⟨h.pending t _ hcall, fun u q hq heq => ?_⟩
      obtain ⟨-, hq⟩ | ⟨hne, hq⟩ := mem_pending hq rfl
      · cases hq
      · exact hne (h.distinct u t q hq _ hcall heq)
    · refine ⟨(h.returned p hp).1, fun u q hq => ?_⟩
      obtain ⟨-, hq⟩ | ⟨-, hq⟩ := mem_pending hq rfl
      · cases hq
      · exact (h.returned p hp).2 u q hq
  applied other := by
    rw [h.applied other]
    constructor
    · rintro (hreturned | ⟨u, hu⟩)
      · exact Or.inl (List.mem_cons_of_mem _ hreturned)
      · by_cases hne : u = t
        · rw [hne, hcall] at hu
          cases hu
          rw [hb.mp rfl]
          exact Or.inl List.mem_cons_self
        · exact Or.inr ⟨u, (Function.update_of_ne hne _ _).trans hu⟩
    · rintro (hreturned | ⟨u, hu⟩)
      · obtain heq | hreturned := List.mem_cons.mp hreturned
        · cases heq
          exact Or.inr ⟨t, hb.mpr rfl ▸ hcall⟩
        · exact Or.inl hreturned
      · obtain ⟨-, hp⟩ | ⟨-, hp⟩ := mem_pending hu rfl
        · cases hp
        · exact Or.inr ⟨u, hp⟩
  nodup := h.nodup
  node := h.node

theorem Ok.step (h : Ok callback first l) (hstep : Step callback l l') : Ok callback first l' := by
  cases hstep with
  | begin t edit hidle => exact h.begin hidle
  | apply t call node hcall hgood => exact h.apply hcall hgood
  | fail t call retval hcall hretval =>
      exact h.return hcall (iff_of_false Bool.false_ne_true hretval)
  | finish t call hcall => exact h.return hcall (iff_of_true rfl rfl)

end EditLog

end FactoryThing.NodeStore
