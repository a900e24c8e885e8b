import Mathlib.Data.List.Infix

/-!
# Replacing a text in a text

All occurrences of a text that do not overlap are replaced, from the beginning to the end.
-/

namespace TextReplacement

variable {α : Type} [DecidableEq α]

/-- The replacement behind some letters that have been dealt with. -/
def replaceFrom (old new : List α) : Nat → List α → List α
  | _, [] => []
  | skip + 1, _ :: s => replaceFrom old new skip s
  | 0, c :: s =>
    if old.isPrefixOf (c :: s) then new ++ replaceFrom old new (old.length - 1) s
    else c :: replaceFrom old new 0 s

/-- The text with all occurrences replaced. -/
def replaceAll (old new s : List α) : List α := replaceFrom old new 0 s

variable {old : List α} (new : List α)

theorem replaceFrom_self (h : old ≠ []) (skip : Nat) (s : List α) :
    replaceFrom old old skip s = s.drop skip := by
  induction s generalizing skip with
  | nil => rw [replaceFrom, List.drop_nil]
  | cons c s ih =>
    cases skip with
    | succ skip => rw [replaceFrom, ih, List.drop_succ_cons]
    | zero =>
      rw [replaceFrom, ih, ih, List.drop_zero, List.drop_zero]
      split
      next hprefix =>
        obtain ⟨rest, hrest⟩ := List.isPrefixOf_iff_prefix.mp hprefix
        obtain ⟨d, old, rfl⟩ := List.exists_cons_of_ne_nil h
        obtain ⟨rfl, rfl⟩ := List.cons.inj hrest
        rw [List.length_cons, Nat.add_sub_cancel, List.append_eq, List.drop_left, List.cons_append]
      next => rfl

theorem replaceAll_self (h : old ≠ []) (s : List α) : replaceAll old old s = s :=
  replaceFrom_self h 0 s

end TextReplacement
