import Mathlib.Data.List.Basic

/-!
# Delimited text

The items of a text between delimiters, as they are read one after the other up to the end of the
text: nothing is behind a delimiter that ends the text.
-/

namespace DelimitedText

variable {α : Type} [DecidableEq α]

/-- The items of a text. A character that is no delimiter belongs to the item that comes next. -/
def split (delim : α) : List α → List (List α)
  | [] => []
  | c :: s =>
      if c = delim then [] :: split delim s
      else
        match split delim s with
        | [] => [[c]]
        | item :: items => (c :: item) :: items

variable {delim c : α} {s item rest : List α}

@[simp] theorem split_nil (delim : α) : split delim [] = [] := rfl

@[simp] theorem split_cons_delim (delim : α) (s : List α) :
    split delim (delim :: s) = [] :: split delim s := if_pos rfl

theorem split_cons (h : c ≠ delim) : split delim (c :: s) =
    (c :: (split delim s).headD []) :: (split delim s).tail := by
  rw [split, if_neg h]
  cases split delim s <;> rfl

theorem split_append_cons (rest : List α) (h : delim ∉ item) :
    split delim (item ++ delim :: rest) = item :: split delim rest := by
  induction item with
  | nil => exact split_cons_delim delim rest
  | cons c item ih =>
    obtain ⟨hc, hitem⟩ := not_or.mp (mt List.mem_cons.mpr h)
    rw [List.cons_append, split_cons (Ne.symm hc), ih hitem]
    rfl

theorem split_of_not_mem (hne : item ≠ []) (h : delim ∉ item) : split delim item = [item] := by
  induction item with
  | nil => exact absurd rfl hne
  | cons c item ih =>
    obtain ⟨hc, hitem⟩ := not_or.mp (mt List.mem_cons.mpr h)
    rw [split_cons (Ne.symm hc)]
    cases item with
    | nil => rfl
    | cons d item =>
      rw [ih (List.cons_ne_nil d item) hitem]
      rfl

theorem mem_of_mem_split (hitem : item ∈ split delim s) (hc : c ∈ item) : c ∈ s ∧ c ≠ delim := by
  induction s generalizing item c with
  | nil => cases hitem
  | cons d s ih =>
    by_cases hd : d = delim
    · subst hd
      rw [split_cons_delim, List.mem_cons] at hitem
      obtain rfl | hitem := hitem
      · cases hc
      · exact ⟨List.mem_cons_of_mem _ (ih hitem hc).1, (ih hitem hc).2⟩
    · rw [split_cons hd, List.mem_cons] at hitem
      have hhead : ∀ {e}, e ∈ (split delim s).headD [] → e ∈ d :: s ∧ e ≠ delim := by
        intro e he
        cases hsplit : split delim s with
        | nil =>
          rw [hsplit] at he
          cases he
        | cons first items =>
          rw [hsplit] at he
          have hfirst : first ∈ split delim s := by
            rw [hsplit]
            exact List.mem_cons_self
          have hmem := ih hfirst he
          exact ⟨List.mem_cons_of_mem _ hmem.1, hmem.2⟩
      obtain rfl | hitem := hitem
      · obtain rfl | hc := List.mem_cons.mp hc
        · exact ⟨List.mem_cons_self, hd⟩
        · exact hhead hc
      · have hmem := ih (List.mem_of_mem_tail hitem) hc
        exact ⟨List.mem_cons_of_mem _ hmem.1, hmem.2⟩

theorem not_mem_of_mem_split (hitem : item ∈ split delim s) : delim ∉ item :=
  fun hdelim => (mem_of_mem_split hitem hdelim).2 rfl

end DelimitedText
