import Mathlib

/-!
# A search that marks before it looks

Each node has a plan: the list of what is to be found good for the node to be good. A node is marked
as good when the search comes to it, and its mark is taken back when something in its plan is not
good. A node that the search comes to again while it is still busy with it counts as what it is
marked.

The nodes that are good are those that are good in finitely many steps. All of them are marked as
good; which others are too depends on where the search begins.
-/

namespace MarkedSearch

open Relation

variable {α : Type}

inductive Item (α : Type) where
  /-- Something that is not there; the search goes on with the rest of the plan. -/
  | fails
  /-- Something that is not there; the search leaves the rest of the plan. -/
  | stops
  /-- Another node; the search leaves the rest of the plan if that node is not good. -/
  | follow (y : α)
deriving DecidableEq

/-- The marks: none for the nodes that the search has not come to. -/
abbrev Marks (α : Type) := α → Option Bool

/-- The nodes that are good in finitely many steps. -/
inductive Traceable (plan : α → List (Item α)) : α → Prop
  | intro (x : α) (fails : Item.fails ∉ plan x) (stops : Item.stops ∉ plan x)
      (follow : ∀ y, Item.follow y ∈ plan x → Traceable plan y) : Traceable plan x

variable {plan : α → List (Item α)}

theorem Traceable.follow {x y : α} (h : Traceable plan x) (hy : Item.follow y ∈ plan x) :
    Traceable plan y := by
  cases h with
  | intro _ _ _ follow => exact follow y hy

/-- A way of the search: the nodes that it is busy with, the last one first and each with its mark,
and what is left of the plan of that one. What it passes on its way is good, or it is busy with it
and has it marked as good. -/
inductive Way (plan : α → List (Item α)) : List (α × Bool) → List (Item α) → Prop
  | starts (x : α) : Way plan [(x, true)] (plan x)
  | fails {x : α} {mark : Bool} {busy : List (α × Bool)} {rest : List (Item α)} :
      Way plan ((x, mark) :: busy) (.fails :: rest) → Way plan ((x, false) :: busy) rest
  | passes {busy : List (α × Bool)} {y : α} {rest : List (Item α)} :
      Way plan busy (.follow y :: rest) → Traceable plan y ∨ (y, true) ∈ busy → Way plan busy rest
  | enters {busy : List (α × Bool)} {y : α} {rest : List (Item α)} :
      Way plan busy (.follow y :: rest) → y ∉ busy.map Prod.fst →
        Way plan ((y, true) :: busy) (plan y)

theorem Way.top {busy : List (α × Bool)} {rest : List (Item α)} (h : Way plan busy rest) :
    ∃ x mark before done, busy = (x, mark) :: before ∧ plan x = done ++ rest ∧
      (mark = true → Item.fails ∉ done) ∧ Item.stops ∉ done ∧
      ∀ y, Item.follow y ∈ done → Traceable plan y ∨ y ∈ busy.map Prod.fst := by
  induction h with
  | starts x => exact ⟨x, true, [], [], rfl, rfl, by simp, by simp, by simp⟩
  | fails _ ih =>
    rcases ih with ⟨x, mark, before, done, heq, hplan, -, hstops, hdone⟩
    cases heq
    refine ⟨_, false, _, done ++ [.fails], rfl, by simp [hplan], by simp, by simp [hstops], ?_⟩
    simpa using hdone
  | passes _ hpass ih =>
    rename_i busy y rest hway
    rcases ih with ⟨x, mark, before, done, heq, hplan, hfails, hstops, hdone⟩
    refine ⟨x, mark, before, done ++ [.follow y], heq, by simp [hplan], ?_, by simp [hstops], ?_⟩
    · simpa using hfails
    · intro z hz
      rcases List.mem_append.mp hz with hz | hz
      · exact hdone z hz
      · have hzy : z = y := by simpa using hz
        subst hzy
        exact hpass.imp id List.mem_map_of_mem
  | enters _ _ _ => exact ⟨_, true, _, [], rfl, rfl, by simp, by simp, by simp⟩

/-- A node comes to another one by its plan. -/
def Follows (plan : α → List (Item α)) (x y : α) : Prop := Item.follow y ∈ plan x

theorem Way.leads {busy : List (α × Bool)} {rest : List (Item α)} (h : Way plan busy rest) {x : α}
    {mark : Bool} {before : List (α × Bool)} (hbusy : busy = (x, mark) :: before) {y : α}
    (hy : y ∈ busy.map Prod.fst) : ReflTransGen (Follows plan) y x := by
  induction h generalizing x mark before y with
  | starts r =>
    cases hbusy
    have hyr : y = r := by simpa using hy
    exact hyr ▸ ReflTransGen.refl
  | fails _ ih =>
    cases hbusy
    exact ih rfl (by simpa using hy)
  | passes _ _ ih => exact ih hbusy hy
  | enters hway _ ih =>
    cases hbusy
    rcases List.mem_cons.mp hy with hyx | hy
    · exact hyx ▸ ReflTransGen.refl
    · rcases hway.top with ⟨z, mark, before', done, hz, hplan, -⟩
      exact (ih hz hy).tail (by simp [Follows, hplan])

/-- No way comes to the end of the plan of a node that is not good and is marked as good. -/
def Honest (plan : α → List (Item α)) : Prop :=
  ∀ x busy, Way plan ((x, true) :: busy) [] → Traceable plan x

theorem honest_of_acyclic (h : ∀ x, ¬ TransGen (Follows plan) x x) : Honest plan := by
  intro x busy hway
  rcases hway.top with ⟨z, mark, before, done, hz, hplan, hfails, hstops, hdone⟩
  cases hz
  rw [List.append_nil] at hplan
  subst hplan
  refine ⟨x, hfails rfl, hstops, fun y hy => ?_⟩
  rcases hdone y hy with hgood | hbusy
  · exact hgood
  · exact absurd (TransGen.head' hy (hway.leads rfl hbusy)) (h x)

section Search

variable [DecidableEq α]

/-- The plan of `x`, where `visit` is the search for one of the nodes in it. -/
def items (visit : α → Marks α → Option (Marks α)) (x : α) :
    List (Item α) → Marks α → Option (Marks α)
  | [], m => some m
  | .fails :: rest, m => items visit x rest (Function.update m x (some false))
  | .stops :: _, m => some (Function.update m x (some false))
  | .follow y :: rest, m =>
    (visit y m).bind fun m =>
      if m y = some true then items visit x rest m else some (Function.update m x (some false))

/-- The search from `x`, down to the depth `fuel`. -/
def search (plan : α → List (Item α)) : Nat → α → Marks α → Option (Marks α)
  | 0, _, _ => none
  | fuel + 1, x, m =>
    match m x with
    | some _ => some m
    | none => items (search plan fuel) x (plan x) (Function.update m x (some true))

/-- The searches from the nodes of a list, one after the other. -/
def searchAll (plan : α → List (Item α)) (fuel : Nat) : List α → Marks α → Option (Marks α)
  | [], m => some m
  | x :: xs, m => (search plan fuel x m).bind (searchAll plan fuel xs)

section Rules

variable {plan : α → List (Item α)} {visit : α → Marks α → Option (Marks α)} {x : α}

variable {m m' : Marks α} {fuel : Nat}

theorem items_rule {I : List (Item α) → Marks α → Prop} {Q : Marks α → Prop}
    (hend : ∀ m, I [] m → Q m)
    (hfails : ∀ rest m, I (.fails :: rest) m → I rest (Function.update m x (some false)))
    (hstops : ∀ rest m, I (.stops :: rest) m → Q (Function.update m x (some false)))
    (hgood : ∀ y rest m m₁, I (.follow y :: rest) m → visit y m = some m₁ → m₁ y = some true →
    I rest m₁)
    (hbad : ∀ y rest m m₁, I (.follow y :: rest) m → visit y m = some m₁ → m₁ y ≠ some true →
    Q (Function.update m₁ x (some false)))
    {its : List (Item α)} (hI : I its m) (h : items visit x its m = some m') : Q m' := by
  induction its generalizing m with
  | nil =>
    rw [items, Option.some.injEq] at h
    exact h ▸ hend m hI
  | cons item rest ih =>
    cases item with
    | fails => exact ih (hfails rest m hI) h
    | stops =>
      rw [items, Option.some.injEq] at h
      exact h ▸ hstops rest m hI
    | follow y =>
      rw [items, Option.bind_eq_some_iff] at h
      rcases h with ⟨m₁, hvisit, h⟩
      by_cases hy : m₁ y = some true
      · rw [if_pos hy] at h
        exact ih (hgood y rest m m₁ hI hvisit hy) h
      · rw [if_neg hy, Option.some.injEq] at h
        exact h ▸ hbad y rest m m₁ hI hvisit hy

theorem search_of_marked {b : Bool} (h : m x = some b) :
    search plan (fuel + 1) x m = some m := by simp [search, h]

theorem search_of_unmarked (h : m x = none) :
    search plan (fuel + 1) x m =
      items (search plan fuel) x (plan x) (Function.update m x (some true)) := by simp [search, h]

theorem search_cases (h : search plan fuel x m = some m') :
    (∃ b, m x = some b ∧ m' = m) ∨ ∃ depth, fuel = depth + 1 ∧ m x = none ∧
      items (search plan depth) x (plan x) (Function.update m x (some true)) = some m' := by
  cases fuel with
  | zero => simp [search] at h
  | succ depth =>
    cases hx : m x with
    | some b =>
      rw [search_of_marked hx, Option.some.injEq] at h
      exact Or.inl ⟨b, rfl, h.symm⟩
    | none =>
      rw [search_of_unmarked hx] at h
      exact Or.inr ⟨depth, rfl, rfl, h⟩

/-- `m'` has the marks of `m`, and the others where `m` has none. -/
def Keeps (m m' : Marks α) : Prop := ∀ z, m z ≠ none → m' z = m z

theorem items_keeps (hvisit : ∀ y m m', visit y m = some m' → Keeps m m') {its : List (Item α)}
    (hx : m x ≠ none) (h : items visit x its m = some m') :
    m' x ≠ none ∧ ∀ z, z ≠ x → m z ≠ none → m' z = m z := by
  refine items_rule
    (I := fun _ m₁ => m₁ x ≠ none ∧ ∀ z, z ≠ x → m z ≠ none → m₁ z = m z)
    (Q := fun m₁ => m₁ x ≠ none ∧ ∀ z, z ≠ x → m z ≠ none → m₁ z = m z)
    ?_ ?_ ?_ ?_ ?_ ⟨hx, fun _ _ _ => rfl⟩ h
  · intro m₁ hI
    exact hI
  · intro rest m₁ hI
    refine ⟨by simp, fun z hz hm => ?_⟩
    rw [Function.update_of_ne hz, hI.2 z hz hm]
  · intro rest m₁ hI
    refine ⟨by simp, fun z hz hm => ?_⟩
    rw [Function.update_of_ne hz, hI.2 z hz hm]
  · intro y rest m₁ m₂ hI hy _
    have hkeeps := hvisit y m₁ m₂ hy
    refine ⟨(hkeeps x hI.1).symm ▸ hI.1, fun z hz hm => ?_⟩
    have hz₁ := hI.2 z hz hm
    rw [hkeeps z (hz₁.symm ▸ hm), hz₁]
  · intro y rest m₁ m₂ hI hy _
    refine ⟨by simp, fun z hz hm => ?_⟩
    have hz₁ := hI.2 z hz hm
    rw [Function.update_of_ne hz, hvisit y m₁ m₂ hy z (hz₁.symm ▸ hm), hz₁]

theorem search_keeps (h : search plan fuel x m = some m') : m' x ≠ none ∧ Keeps m m' := by
  induction fuel generalizing x m m' with
  | zero => simp [search] at h
  | succ fuel ih =>
    rcases search_cases h with ⟨b, hx, rfl⟩ | ⟨depth, hdepth, hx, h⟩
    · exact ⟨by simp [hx], fun _ _ => rfl⟩
    · cases hdepth
      have hitems := items_keeps (fun y m m' hy => (ih hy).2) (by simp) h
      refine ⟨hitems.1, fun z hz => ?_⟩
      have hne : z ≠ x := by
        rintro rfl
        exact hz hx
      rw [hitems.2 z hne (by rwa [Function.update_of_ne hne]), Function.update_of_ne hne]

end Rules

section Ends

variable [Fintype α]

def unmarked (m : Marks α) : Finset α := Finset.univ.filter (m · = none)

variable {plan : α → List (Item α)} {visit : α → Marks α → Option (Marks α)} {x : α}

variable {m : Marks α} {fuel : Nat}

omit [DecidableEq α] in
theorem Keeps.unmarked_le {m' : Marks α} (h : Keeps m m') :
    (unmarked m').card ≤ (unmarked m).card := by
  apply Finset.card_le_card
  intro z hz
  simp only [unmarked, Finset.mem_filter, Finset.mem_univ, true_and] at hz ⊢
  by_contra hm
  exact hm (h z hm ▸ hz)

theorem unmarked_mark_lt (h : m x = none) (b : Bool) :
    (unmarked (Function.update m x (some b))).card < (unmarked m).card := by
  apply Finset.card_lt_card
  rw [Finset.ssubset_iff_of_subset]
  · exact ⟨x, by simp [unmarked, h], by simp [unmarked]⟩
  · intro z hz
    simp only [unmarked, Finset.mem_filter, Finset.mem_univ, true_and] at hz ⊢
    by_cases hzx : z = x
    · exact hzx ▸ h
    · rwa [Function.update_of_ne hzx] at hz

theorem unmarked_remark_le (m : Marks α) (b : Bool) :
    (unmarked (Function.update m x (some b))).card ≤ (unmarked m).card := by
  apply Finset.card_le_card
  intro z hz
  simp only [unmarked, Finset.mem_filter, Finset.mem_univ, true_and] at hz ⊢
  by_cases hzx : z = x
  · simp [hzx] at hz
  · rwa [Function.update_of_ne hzx] at hz

theorem items_terminates
    (hvisit : ∀ y m, (unmarked m).card < fuel → ∃ m', visit y m = some m' ∧ Keeps m m')
    {its : List (Item α)} (hx : m x ≠ none) (hm : (unmarked m).card < fuel) :
    ∃ m', items visit x its m = some m' := by
  induction its generalizing m with
  | nil => exact ⟨m, rfl⟩
  | cons item rest ih =>
    cases item with
    | fails => exact ih (by simp) ((unmarked_remark_le m false).trans_lt hm)
    | stops => exact ⟨_, rfl⟩
    | follow y =>
      rcases hvisit y m hm with ⟨m₁, hy, hkeeps⟩
      rw [items, hy, Option.bind_some]
      split
      · exact ih ((hkeeps x hx).symm ▸ hx) (hkeeps.unmarked_le.trans_lt hm)
      · exact ⟨_, rfl⟩

theorem search_terminates (h : (unmarked m).card < fuel) :
    ∃ m', search plan fuel x m = some m' := by
  induction fuel generalizing x m with
  | zero => exact absurd h (Nat.not_lt_zero _)
  | succ fuel ih =>
    cases hx : m x with
    | some b => exact ⟨m, search_of_marked hx⟩
    | none =>
      rw [search_of_unmarked hx]
      apply @items_terminates _ _ _ _ _ _ fuel
      · intro y m₁ hm₁
        rcases ih (x := y) hm₁ with ⟨m₂, hm₂⟩
        exact ⟨m₂, hm₂, (search_keeps hm₂).2⟩
      · simp
      · exact (unmarked_mark_lt hx true).trans_le (Nat.lt_succ_iff.mp h)

theorem searchAll_terminates {order : List α} (h : (unmarked m).card < fuel) :
    ∃ m', searchAll plan fuel order m = some m' := by
  induction order generalizing m with
  | nil => exact ⟨m, rfl⟩
  | cons x xs ih =>
    rcases @search_terminates _ _ _ plan x _ _ h with ⟨m₁, hm₁⟩
    rw [searchAll, hm₁]
    exact ih ((search_keeps hm₁).2.unmarked_le.trans_lt h)

end Ends

section Good

variable {plan : α → List (Item α)} {x : α}

def GoodKept (plan : α → List (Item α)) (m : Marks α) : Prop :=
  ∀ x, Traceable plan x → m x ≠ some false

theorem GoodKept.mark {m : Marks α} (h : GoodKept plan m) {b : Bool}
    (hx : Traceable plan x → b = true) : GoodKept plan (Function.update m x (some b)) := by
  intro z hz
  by_cases hzx : z = x
  · subst hzx
    simp [hx hz]
  · rw [Function.update_of_ne hzx]
    exact h z hz

theorem search_goodKept {fuel : Nat} {m m' : Marks α} (h : search plan fuel x m = some m')
    (hm : GoodKept plan m) : GoodKept plan m' := by
  induction fuel generalizing x m m' with
  | zero => simp [search] at h
  | succ fuel ih =>
    rcases search_cases h with ⟨b, hx, rfl⟩ | ⟨depth, hdepth, hx, h⟩
    · exact hm
    · cases hdepth
      refine items_rule (I := fun rest m₁ => rest ⊆ plan x ∧ GoodKept plan m₁)
        (Q := GoodKept plan) ?_ ?_ ?_ ?_ ?_ ⟨List.Subset.refl _, hm.mark fun _ => rfl⟩ h
      · intro m₁ hI
        exact hI.2
      · intro rest m₁ hI
        refine ⟨(List.cons_subset.mp hI.1).2, hI.2.mark fun hgood => ?_⟩
        cases hgood with
        | intro _ hfails _ _ => exact absurd (List.cons_subset.mp hI.1).1 hfails
      · intro rest m₁ hI
        refine hI.2.mark fun hgood => ?_
        cases hgood with
        | intro _ _ hstops _ => exact absurd (List.cons_subset.mp hI.1).1 hstops
      · intro y rest m₁ m₂ hI hy _
        exact ⟨(List.cons_subset.mp hI.1).2, ih hy hI.2⟩
      · intro y rest m₁ m₂ hI hy hbad
        have hm₂ := ih hy hI.2
        refine hm₂.mark fun hgood => ?_
        have hynone := (search_keeps hy).1
        have hygood := hm₂ y (hgood.follow (List.cons_subset.mp hI.1).1)
        cases hm₂y : m₂ y with
        | none => exact absurd hm₂y hynone
        | some b => cases b <;> simp_all

theorem search_onlyGood {fuel : Nat} {m m' : Marks α} (h : search plan fuel x m = some m')
    (hx : Traceable plan x) (hm : ∀ z, m z ≠ none → Traceable plan z) :
    ∀ z, m' z ≠ none → Traceable plan z := by
  induction fuel generalizing x m m' with
  | zero => simp [search] at h
  | succ fuel ih =>
    rcases search_cases h with ⟨b, hb, rfl⟩ | ⟨depth, hdepth, hnone, h⟩
    · exact hm
    · cases hdepth
      have hmark : ∀ {m₁ : Marks α} {b : Bool}, (∀ z, m₁ z ≠ none → Traceable plan z) →
          ∀ z, Function.update m₁ x (some b) z ≠ none → Traceable plan z := by
        intro m₁ b hm₁ z hz
        by_cases hzx : z = x
        · exact hzx ▸ hx
        · rw [Function.update_of_ne hzx] at hz
          exact hm₁ z hz
      refine items_rule (I := fun rest m₁ => rest ⊆ plan x ∧ ∀ z, m₁ z ≠ none → Traceable plan z)
        (Q := fun m₁ => ∀ z, m₁ z ≠ none → Traceable plan z) ?_ ?_ ?_ ?_ ?_
        ⟨List.Subset.refl _, hmark hm⟩ h
      · intro m₁ hI
        exact hI.2
      · intro rest m₁ hI
        exact ⟨(List.cons_subset.mp hI.1).2, hmark hI.2⟩
      · intro rest m₁ hI
        exact hmark hI.2
      · intro y rest m₁ m₂ hI hy _
        have hsub := List.cons_subset.mp hI.1
        exact ⟨hsub.2, ih hy (hx.follow hsub.1) hI.2⟩
      · intro y rest m₁ m₂ hI hy _
        exact hmark (ih hy (hx.follow (List.cons_subset.mp hI.1).1) hI.2)

end Good

section Honest

variable {plan : α → List (Item α)} {x : α}

omit [DecidableEq α] in
theorem Way.nodup {busy : List (α × Bool)} {rest : List (Item α)} (h : Way plan busy rest) :
    (busy.map Prod.fst).Nodup := by
  induction h with
  | starts x => simp
  | fails _ ih => simpa using ih
  | passes _ _ ih => exact ih
  | enters _ hy ih => exact List.nodup_cons.mpr ⟨hy, ih⟩

/-- The busy nodes have their marks, and the others that are marked as good are good. -/
structure OnWay (plan : α → List (Item α)) (busy : List (α × Bool)) (m : Marks α) : Prop where
  marked : ∀ y b, (y, b) ∈ busy → m y = some b
  right : ∀ y, m y = some true → y ∉ busy.map Prod.fst → Traceable plan y

variable {busy : List (α × Bool)} {m m' : Marks α} {mark : Bool}

theorem OnWay.remark (h : OnWay plan ((x, mark) :: busy) m) (hx : x ∉ busy.map Prod.fst)
    (mark' : Bool) : OnWay plan ((x, mark') :: busy) (Function.update m x (some mark')) := by
  constructor
  · intro y b hy
    rcases List.mem_cons.mp hy with heq | hmem
    · cases heq
      simp
    · have hne : y ≠ x := by
        rintro rfl
        exact hx (List.mem_map_of_mem hmem)
      rw [Function.update_of_ne hne]
      exact h.marked y b (List.mem_cons_of_mem _ hmem)
  · intro y hy hbusy
    have hbusy' : y ≠ x ∧ y ∉ busy.map Prod.fst := by
      rwa [List.map_cons, List.mem_cons, not_or] at hbusy
    rw [Function.update_of_ne hbusy'.1] at hy
    exact h.right y hy (by rwa [List.map_cons, List.mem_cons, not_or])

theorem OnWay.enter (h : OnWay plan busy m) (hx : m x = none) :
    OnWay plan ((x, true) :: busy) (Function.update m x (some true)) := by
  constructor
  · intro y b hy
    rcases List.mem_cons.mp hy with heq | hmem
    · cases heq
      simp
    · have hne : y ≠ x := by
        rintro rfl
        rw [h.marked y b hmem] at hx
        cases hx
      rw [Function.update_of_ne hne]
      exact h.marked y b hmem
  · intro y hy hbusy
    have hbusy' : y ≠ x ∧ y ∉ busy.map Prod.fst := by
      rwa [List.map_cons, List.mem_cons, not_or] at hbusy
    rw [Function.update_of_ne hbusy'.1] at hy
    exact h.right y hy hbusy'.2

theorem OnWay.leave (h : OnWay plan ((x, mark) :: busy) m) (hx : mark = true → Traceable plan x) :
    OnWay plan busy m := by
  constructor
  · intro y b hy
    exact h.marked y b (List.mem_cons_of_mem _ hy)
  · intro y hy hbusy
    by_cases hyx : y = x
    · subst hyx
      rw [h.marked y mark List.mem_cons_self, Option.some.injEq] at hy
      exact hx hy
    · refine h.right y hy ?_
      rw [List.map_cons, List.mem_cons, not_or]
      exact ⟨hyx, hbusy⟩

theorem OnWay.passes (h : OnWay plan busy m) (hx : m x = some true) :
    Traceable plan x ∨ (x, true) ∈ busy := by
  by_cases hbusy : x ∈ busy.map Prod.fst
  · rcases List.mem_map.mp hbusy with ⟨⟨y, b⟩, hy, rfl⟩
    rw [h.marked y b hy, Option.some.injEq] at hx
    exact Or.inr (hx ▸ hy)
  · exact Or.inl (h.right x hx hbusy)

theorem items_onWay {visit : α → Marks α → Option (Marks α)} (hplan : Honest plan)
    (hvisit : ∀ y busy rest m m', Way plan busy (.follow y :: rest) → OnWay plan busy m →
      visit y m = some m' → OnWay plan busy m')
    {its : List (Item α)} (hway : Way plan ((x, mark) :: busy) its)
    (hm : OnWay plan ((x, mark) :: busy) m) (h : items visit x its m = some m') :
    OnWay plan busy m' := by
  refine items_rule
    (I := fun rest m => ∃ mark, Way plan ((x, mark) :: busy) rest ∧
    OnWay plan ((x, mark) :: busy) m)
    (Q := OnWay plan busy) ?_ ?_ ?_ ?_ ?_ ⟨mark, hway, hm⟩ h
  · intro m₁ hI
    rcases hI with ⟨mark, hway, hm₁⟩
    refine hm₁.leave fun htrue => ?_
    subst htrue
    exact hplan x busy hway
  · intro rest m₁ hI
    rcases hI with ⟨mark, hway, hm₁⟩
    exact ⟨false, hway.fails, hm₁.remark (List.nodup_cons.mp hway.nodup).1 false⟩
  · intro rest m₁ hI
    rcases hI with ⟨mark, hway, hm₁⟩
    exact (hm₁.remark (List.nodup_cons.mp hway.nodup).1 false).leave (by simp)
  · intro y rest m₁ m₂ hI hy hgood
    rcases hI with ⟨mark, hway, hm₁⟩
    have hm₂ := hvisit y _ rest m₁ m₂ hway hm₁ hy
    exact ⟨mark, hway.passes (hm₂.passes hgood), hm₂⟩
  · intro y rest m₁ m₂ hI hy _
    rcases hI with ⟨mark, hway, hm₁⟩
    have hm₂ := hvisit y _ rest m₁ m₂ hway hm₁ hy
    exact (hm₂.remark (List.nodup_cons.mp hway.nodup).1 false).leave (by simp)

theorem search_onWay (hplan : Honest plan) {fuel : Nat} (h : search plan fuel x m = some m')
    (hm : OnWay plan busy m)
    (hway : busy = [] ∨ ∃ rest, Way plan busy (.follow x :: rest)) : OnWay plan busy m' := by
  induction fuel generalizing x busy m m' with
  | zero => simp [search] at h
  | succ fuel ih =>
    rcases search_cases h with ⟨b, hb, rfl⟩ | ⟨depth, hdepth, hnone, h⟩
    · exact hm
    · cases hdepth
      have hentered : Way plan ((x, true) :: busy) (plan x) := by
        rcases hway with rfl | ⟨rest, hway⟩
        · exact Way.starts x
        · refine hway.enters fun hbusy => ?_
          rcases List.mem_map.mp hbusy with ⟨⟨y, b⟩, hy, rfl⟩
          rw [hm.marked y b hy] at hnone
          cases hnone
      exact items_onWay hplan
        (fun y busy rest m m' hway hm hy => ih hy hm (Or.inr ⟨rest, hway⟩)) hentered
        (hm.enter hnone) h

end Honest

section Exposed

variable {plan : α → List (Item α)} {x : α} {busy : List (α × Bool)} {m m' : Marks α}

/-- Besides the busy nodes it is the good ones that are marked, and as good. -/
structure Prepared (plan : α → List (Item α)) (busy : List (α × Bool)) (m : Marks α) : Prop where
  marked : ∀ y b, (y, b) ∈ busy → m y = some b
  good : ∀ y, Traceable plan y → m y = some true
  unmarked : ∀ y, ¬ Traceable plan y → y ∉ busy.map Prod.fst → m y = none

/-- The plan of the last busy node leaves a node marked as good that is not, whatever the depth. -/
def Exposes (plan : α → List (Item α)) : List (α × Bool) → List (Item α) → Prop
  | [], _ => False
  | (x, mark) :: busy, rest =>
    ¬ Traceable plan x ∧ ∀ fuel m m', Prepared plan ((x, mark) :: busy) m →
      items (search plan fuel) x rest m = some m' →
        ∃ y, ¬ Traceable plan y ∧ y ∉ busy.map Prod.fst ∧ m' y = some true

theorem Prepared.remark {mark : Bool} (h : Prepared plan ((x, mark) :: busy) m)
    (hx : ¬ Traceable plan x) (hbusy : x ∉ busy.map Prod.fst) (mark' : Bool) :
    Prepared plan ((x, mark') :: busy) (Function.update m x (some mark')) := by
  constructor
  · intro y b hy
    rcases List.mem_cons.mp hy with heq | hmem
    · cases heq
      simp
    · have hne : y ≠ x := by
        rintro rfl
        exact hbusy (List.mem_map_of_mem hmem)
      rw [Function.update_of_ne hne]
      exact h.marked y b (List.mem_cons_of_mem _ hmem)
  · intro y hy
    have hne : y ≠ x := fun heq => hx (heq ▸ hy)
    rw [Function.update_of_ne hne]
    exact h.good y hy
  · intro y hy hmem
    have hne : y ≠ x := fun heq => hmem (by simp [heq])
    rw [Function.update_of_ne hne]
    exact h.unmarked y hy hmem

theorem Prepared.enter (h : Prepared plan busy m) (hx : ¬ Traceable plan x)
    (hbusy : x ∉ busy.map Prod.fst) :
    Prepared plan ((x, true) :: busy) (Function.update m x (some true)) := by
  constructor
  · intro y b hy
    rcases List.mem_cons.mp hy with heq | hmem
    · cases heq
      simp
    · have hne : y ≠ x := by
        rintro rfl
        exact hbusy (List.mem_map_of_mem hmem)
      rw [Function.update_of_ne hne]
      exact h.marked y b hmem
  · intro y hy
    have hne : y ≠ x := fun heq => hx (heq ▸ hy)
    rw [Function.update_of_ne hne]
    exact h.good y hy
  · intro y hy hmem
    have hy' : y ≠ x ∧ y ∉ busy.map Prod.fst := by
      rwa [List.map_cons, List.mem_cons, not_or] at hmem
    rw [Function.update_of_ne hy'.1]
    exact h.unmarked y hy hy'.2

theorem Way.exposes_start {rest : List (Item α)} (h : Way plan busy rest)
    (hexp : Exposes plan busy rest) : ∃ r, Exposes plan [(r, true)] (plan r) := by
  induction h with
  | starts r => exact ⟨r, hexp⟩
  | @fails x mark busy rest hway ih =>
    refine ih ⟨hexp.1, fun fuel m m' hm hitems => ?_⟩
    have hnodup := (List.nodup_cons.mp hway.nodup).1
    exact hexp.2 fuel _ m' (hm.remark hexp.1 hnodup false) hitems
  | @passes busy y rest hway hpass ih =>
    cases busy with
    | nil => exact absurd hexp id
    | cons top busy =>
      refine ih ⟨hexp.1, fun fuel m m' hm hitems => ?_⟩
      have hy : m y = some true := by
        rcases hpass with hgood | hbusy
        · exact hm.good y hgood
        · exact hm.marked y true hbusy
      rw [items, Option.bind_eq_some_iff] at hitems
      rcases hitems with ⟨m₁, hsearch, hitems⟩
      rcases search_cases hsearch with ⟨b, -, rfl⟩ | ⟨depth, -, hnone, -⟩
      · rw [if_pos hy] at hitems
        exact hexp.2 fuel m₁ m' hm hitems
      · rw [hy] at hnone
        cases hnone
  | @enters busy y rest hway hfresh ih =>
    rcases hway.top with ⟨x, mark, before, done, rfl, hplan, -⟩
    have hx : ¬ Traceable plan x := fun hgood => hexp.1 (hgood.follow (by simp [hplan]))
    refine ih ⟨hx, fun fuel m m' hm hitems => ?_⟩
    rw [items, Option.bind_eq_some_iff] at hitems
    rcases hitems with ⟨m₁, hsearch, hitems⟩
    have hnone := hm.unmarked y hexp.1 hfresh
    rcases search_cases hsearch with ⟨b, hb, -⟩ | ⟨depth, -, -, hsearched⟩
    · rw [hnone] at hb
      cases hb
    · rcases hexp.2 depth _ m₁ (hm.enter hexp.1 hfresh) hsearched with ⟨z, hz, hzbusy, hzm⟩
      have hzx : z ≠ x ∧ z ∉ before.map Prod.fst := by
        rwa [List.map_cons, List.mem_cons, not_or] at hzbusy
      have hxm : m₁ x ≠ none := by
        have hmark := hm.marked x mark List.mem_cons_self
        rw [(search_keeps hsearch).2 x (by simp [hmark]), hmark]
        simp
      refine ⟨z, hz, hzx.2, ?_⟩
      split at hitems
      · have hkept := items_keeps (fun y m m' hy => (search_keeps hy).2) hxm hitems
        rw [hkept.2 z hzx.1 (by simp [hzm]), hzm]
      · rw [Option.some.injEq] at hitems
        rw [← hitems, Function.update_of_ne hzx.1, hzm]

end Exposed

section Orders

variable {plan : α → List (Item α)} {fuel : Nat} {order : List α} {m m' : Marks α}

theorem searchAll_rule {I : Marks α → Prop}
    (hstep : ∀ x ∈ order, ∀ m m', search plan fuel x m = some m' → I m → I m') (hI : I m)
    (h : searchAll plan fuel order m = some m') : I m' := by
  induction order generalizing m with
  | nil =>
    rw [searchAll, Option.some.injEq] at h
    exact h ▸ hI
  | cons x xs ih =>
    rw [searchAll, Option.bind_eq_some_iff] at h
    rcases h with ⟨m₁, hx, h⟩
    exact ih (fun y hy => hstep y (List.mem_cons_of_mem x hy))
      (hstep x List.mem_cons_self m m₁ hx hI) h

theorem searchAll_keeps (h : searchAll plan fuel order m = some m') : Keeps m m' := by
  refine searchAll_rule (I := Keeps m) ?_ (fun _ _ => rfl) h
  intro x _ m₁ m₂ hx hkeeps z hz
  rw [(search_keeps hx).2 z ((hkeeps z hz).symm ▸ hz), hkeeps z hz]

theorem searchAll_marks (h : searchAll plan fuel order m = some m') {x : α} (hx : x ∈ order) :
    m' x ≠ none := by
  induction order generalizing m with
  | nil => cases hx
  | cons y ys ih =>
    rw [searchAll, Option.bind_eq_some_iff] at h
    rcases h with ⟨m₁, hy, h⟩
    rcases List.mem_cons.mp hx with rfl | hx
    · have hmarked := (search_keeps hy).1
      rwa [searchAll_keeps h x hmarked]
    · exact ih h hx

theorem searchAll_append (xs ys : List α) :
    searchAll plan fuel (xs ++ ys) m =
      (searchAll plan fuel xs m).bind (searchAll plan fuel ys) := by
  induction xs generalizing m with
  | nil => rfl
  | cons x xs ih => simp [searchAll, ih, Option.bind_assoc]

theorem searchAll_good (h : searchAll plan fuel order (fun _ => none) = some m) {x : α}
    (hx : x ∈ order) (hgood : Traceable plan x) : m x = some true := by
  have hkept : GoodKept plan m :=
    searchAll_rule (I := GoodKept plan) (fun _ _ _ _ => search_goodKept) (fun _ _ => by simp) h
  cases hm : m x with
  | none => exact absurd hm (searchAll_marks h hx)
  | some b =>
    cases b with
    | false => exact absurd hm (hkept x hgood)
    | true => rfl

theorem searchAll_honest (hplan : Honest plan)
    (h : searchAll plan fuel order (fun _ => none) = some m) {x : α} (hx : m x = some true) :
    Traceable plan x := by
  have hway : OnWay plan [] m := by
    refine searchAll_rule (I := OnWay plan [])
      (fun _ _ _ _ hs hm => search_onWay hplan hs hm (Or.inl rfl)) ⟨?_, ?_⟩ h
    · intro y b hy
      cases hy
    · intro y hy
      cases hy
  exact hway.right x hx (by simp)

theorem searchAll_prepared (h : searchAll plan fuel order (fun _ => none) = some m)
    (horder : ∀ x, x ∈ order ↔ Traceable plan x) : Prepared plan [] m := by
  constructor
  · intro y b hy
    cases hy
  · intro y hy
    exact searchAll_good h ((horder y).mpr hy) hy
  · intro y hy _
    by_contra hmarked
    refine hy (searchAll_rule (I := fun m => ∀ z, m z ≠ none → Traceable plan z) ?_ ?_ h y hmarked)
    · intro x hx m₁ m₂ hs
      exact search_onlyGood hs ((horder x).mp hx)
    · intro z hz
      exact absurd rfl hz

theorem honest_of_searchAll [Fintype α] (hfuel : Fintype.card α < fuel)
    (hexact : ∀ order m, (∀ x, x ∈ order) → searchAll plan fuel order (fun _ => none) = some m →
      ∀ x, m x = some true → Traceable plan x) : Honest plan := by
  classical
  intro x busy hway
  by_contra hx
  have hexp : Exposes plan ((x, true) :: busy) [] := by
    refine ⟨hx, fun fuel m m' hm hitems => ⟨x, hx, (List.nodup_cons.mp hway.nodup).1, ?_⟩⟩
    rw [items, Option.some.injEq] at hitems
    exact hitems ▸ hm.marked x true List.mem_cons_self
  rcases hway.exposes_start hexp with ⟨r, hr, hbad⟩
  let good : List α := (Finset.univ.filter (Traceable plan)).toList
  let order : List α := good ++ r :: Finset.univ.toList
  have hmarks : (unmarked (fun _ : α => (none : Option Bool))).card < fuel :=
    (Finset.card_le_univ _).trans_lt hfuel
  rcases @searchAll_terminates _ _ _ plan _ _ order hmarks with ⟨m, hm⟩
  have hm' := hm
  rw [searchAll_append, Option.bind_eq_some_iff] at hm'
  rcases hm' with ⟨m₁, hgood, hrest⟩
  rw [searchAll, Option.bind_eq_some_iff] at hrest
  rcases hrest with ⟨m₂, hsearch, hrest⟩
  have hprep : Prepared plan [] m₁ := searchAll_prepared hgood (by simp [good])
  have hnone : m₁ r = none := hprep.unmarked r hr (by simp)
  rcases search_cases hsearch with ⟨b, hb, -⟩ | ⟨depth, -, -, hplan⟩
  · rw [hnone] at hb
    cases hb
  · rcases hbad depth _ m₂ (hprep.enter hr (by simp)) hplan with ⟨y, hy, -, hym⟩
    have hym' : m y = some true := by rw [searchAll_keeps hrest y (by simp [hym]), hym]
    exact hy (hexact order m (by simp [order]) hm y hym')

end Orders

end Search

end MarkedSearch
