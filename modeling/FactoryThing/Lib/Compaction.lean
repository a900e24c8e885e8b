import FactoryThing.Lib.SwapRemove

/-!
# Compacting an array while it is scanned

An array is scanned from its front. An entry that is to go is overridden by the last one, and the
scan goes on behind the place: what has been moved there is not looked at. `Moved` says where the
entries that escape the scan have been.
-/

namespace Compaction

open SwapRemove

variable {α : Type} (p : α → Bool)

/-- The scan from the index `i` on, with what is left and what has gone, in this order. -/
def compactFrom : Nat → Nat → List α → List α × List α
  | 0, _, l => (l, [])
  | fuel + 1, i, l =>
      match l[i]? with
      | none => (l, [])
      | some a =>
          if p a then
            let (left, gone) := compactFrom fuel (i + 1) (removeAt l i)
            (left, a :: gone)
          else compactFrom fuel (i + 1) l

/-- The entry at the index `q` is moved to the place of an earlier one that goes: the entries that
go up to this one are as many as there are from `q` to the end. -/
def Moved (l : List α) (q : Nat) : Prop :=
  ∃ k < q, (∃ a, l[k]? = some a ∧ p a = true) ∧ q + (l.take (k + 1)).countP p = l.length

variable {p} {a last : α} {l mid : List α} {q : Nat}

theorem not_moved_zero : ¬ Moved p l 0 := fun ⟨_, hk, _⟩ => absurd hk (Nat.not_lt_zero _)

theorem moved_cons_of_neg (ha : p a = false) : Moved p (a :: l) (q + 1) ↔ Moved p l q := by
  constructor
  · rintro ⟨k, hk, ⟨b, hb, hpb⟩, hlength⟩
    cases k with
    | zero =>
      cases hb
      rw [ha] at hpb
      cases hpb
    | succ k =>
      rw [List.take_succ_cons, List.countP_cons_of_neg (by simp [ha]), List.length_cons] at hlength
      exact ⟨k, by omega, ⟨b, hb, hpb⟩, by omega⟩
  · rintro ⟨k, hk, hgoes, hlength⟩
    refine ⟨k + 1, by omega, hgoes, ?_⟩
    rw [List.take_succ_cons, List.countP_cons_of_neg (by simp [ha]), List.length_cons]
    omega

theorem moved_last (ha : p a = true) : Moved p (a :: (mid ++ [last])) (mid.length + 1) :=
  ⟨0, Nat.succ_pos _, ⟨a, rfl, ha⟩, by simp [ha]⟩

theorem moved_cons_of_pos (ha : p a = true) (hq : q < mid.length) :
    Moved p (a :: (mid ++ [last])) (q + 1) ↔ Moved p mid q := by
  constructor
  · rintro ⟨k, hk, ⟨b, hb, hpb⟩, hlength⟩
    cases k with
    | zero => simp [ha] at hlength; omega
    | succ k =>
      rw [List.take_succ_cons, List.countP_cons_of_pos ha, List.take_append_of_le_length (by omega),
        List.length_cons, List.length_append, List.length_singleton] at hlength
      rw [List.getElem?_cons_succ, List.getElem?_append_left (by omega)] at hb
      exact ⟨k, by omega, ⟨b, hb, hpb⟩, by omega⟩
  · rintro ⟨k, hk, ⟨b, hb, hpb⟩, hlength⟩
    refine ⟨k + 1, by omega, ⟨b, ?_, hpb⟩, ?_⟩
    · rw [List.getElem?_cons_succ, List.getElem?_append_left (by omega)]
      exact hb
    · rw [List.take_succ_cons, List.countP_cons_of_pos ha, List.take_append_of_le_length (by omega),
        List.length_cons, List.length_append, List.length_singleton]
      omega

/-- What the scan of the entries behind a prefix leaves: the entries that go are those that are not
moved, and those that are moved stay. -/
structure Compacted (p : α → Bool) (l left gone : List α) : Prop where
  perm : l.Perm (left ++ gone)
  gone : ∀ a ∈ gone, p a = true ∧ ∃ q, l[q]? = some a ∧ ¬ Moved p l q
  left : ∀ a ∈ left, p a = true → ∃ q, l[q]? = some a ∧ Moved p l q

theorem compactFrom_spec (fuel : Nat) :
    ∀ (before l : List α), l.length ≤ fuel →
      ∃ left gone, compactFrom p fuel before.length (before ++ l) = (before ++ left, gone) ∧
        Compacted p l left gone := by
  induction fuel with
  | zero =>
    intro before l hfuel
    obtain rfl : l = [] := List.length_eq_zero_iff.mp (Nat.le_zero.mp hfuel)
    exact ⟨[], [], rfl, .nil, nofun, nofun⟩
  | succ fuel ih =>
    intro before l hfuel
    obtain _ | ⟨a, l⟩ := l
    · refine ⟨[], [], ?_, .nil, nofun, nofun⟩
      simp [compactFrom]
    have hlength : l.length ≤ fuel := Nat.le_of_succ_le_succ hfuel
    have hat : (before ++ a :: l)[before.length]? = some a := by simp
    by_cases ha : p a = true
    · cases l using List.reverseRecOn with
      | nil =>
        refine ⟨[], [a], ?_, .refl _, ?_, nofun⟩
        · rw [compactFrom, hat]
          dsimp only
          rw [if_pos ha, removeAt_append, List.append_nil]
          cases fuel <;> simp [compactFrom]
        · intro b hb
          obtain rfl := List.mem_singleton.mp hb
          exact ⟨ha, 0, rfl, not_moved_zero⟩
      | append_singleton mid last =>
        rw [List.length_append, List.length_singleton] at hlength
        obtain ⟨left, gone, hscan, hspec⟩ := ih (before ++ [last]) mid (by omega)
        have hremove : removeAt (before ++ a :: (mid ++ [last])) before.length =
            (before ++ [last]) ++ mid := by
          have hassoc : before ++ a :: (mid ++ [last]) = (before ++ a :: mid) ++ [last] := by simp
          have hset : ((before ++ a :: mid) ++ [last]).set before.length last =
              (before ++ last :: mid) ++ [last] := by
            rw [List.set_append_left _ _ (by simp), List.set_append_right _ _ (Nat.le_refl _),
              Nat.sub_self, List.set_cons_zero]
          rw [removeAt, hassoc, List.getLast?_concat]
          dsimp only
          rw [hset, List.dropLast_concat, List.append_assoc, List.singleton_append]
        refine ⟨last :: left, a :: gone, ?_, ?_, ?_, ?_⟩
        · rw [compactFrom, hat]
          dsimp only
          rw [if_pos ha, hremove, show before.length + 1 = (before ++ [last]).length by simp, hscan]
          simp
        · have hmid : (mid ++ [last]).Perm (last :: (left ++ gone)) :=
            (List.perm_append_singleton last mid).trans (hspec.perm.cons last)
          exact (hmid.cons a).trans (@List.perm_middle _ a (last :: left) gone).symm
        · intro b hb
          obtain rfl | hb := List.mem_cons.mp hb
          · exact ⟨ha, 0, rfl, not_moved_zero⟩
          · obtain ⟨hpb, q, hq, hmoved⟩ := hspec.gone b hb
            have hlt : q < mid.length := (List.getElem?_eq_some_iff.mp hq).1
            refine ⟨hpb, q + 1, ?_, fun h => hmoved ((moved_cons_of_pos ha hlt).mp h)⟩
            rw [List.getElem?_cons_succ, List.getElem?_append_left hlt, hq]
        · intro b hb hpb
          obtain rfl | hb := List.mem_cons.mp hb
          · exact ⟨mid.length + 1, by simp, moved_last ha⟩
          · obtain ⟨q, hq, hmoved⟩ := hspec.left b hb hpb
            have hlt : q < mid.length := (List.getElem?_eq_some_iff.mp hq).1
            refine ⟨q + 1, ?_, (moved_cons_of_pos ha hlt).mpr hmoved⟩
            rw [List.getElem?_cons_succ, List.getElem?_append_left hlt, hq]
    · have ha' : p a = false := by simpa using ha
      obtain ⟨left, gone, hscan, hspec⟩ := ih (before ++ [a]) l hlength
      refine ⟨a :: left, gone, ?_, hspec.perm.cons a, ?_, ?_⟩
      · rw [compactFrom, hat]
        dsimp only
        rw [if_neg ha]
        simpa using hscan
      · intro b hb
        obtain ⟨hpb, q, hq, hmoved⟩ := hspec.gone b hb
        exact ⟨hpb, q + 1, hq, fun h => hmoved ((moved_cons_of_neg ha').mp h)⟩
      · intro b hb hpb
        obtain rfl | hb := List.mem_cons.mp hb
        · exact absurd hpb ha
        · obtain ⟨q, hq, hmoved⟩ := hspec.left b hb hpb
          exact ⟨q + 1, hq, (moved_cons_of_neg ha').mpr hmoved⟩

end Compaction
