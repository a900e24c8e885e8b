import FactoryThing.Nodesets.Namespace
import FactoryThing.Lib.GreedyOrder

/-!
# The order of the nodes

`reorderNodesMinDependencies` (ua_namespace.py:550-614) takes the nodes one after the other, each
time the first one whose row of a matrix has the least sum. A node weighs 200 for its type
definition and 100 for each supertype that it names as long as it is not taken: what is subtracted
when the type is taken is subtracted from the row of the type.
-/

namespace FactoryThing.Nodesets

open Relation GreedyOrder

/-- A row of the matrix: the node in column 0, and the columns behind it. -/
structure Row (n : Nat) where
  node : Option (Fin n)
  weights : Fin n → Int

abbrev Matrix (n : Nat) := Fin n → Row n

/-- `nmatrix[row][column+1] += weight`. -/
def Matrix.add {n : Nat} (nmatrix : Matrix n) (row column : Fin n) (weight : Int) : Matrix n :=
  Function.update nmatrix row
    { nmatrix row with
      weights := Function.update (nmatrix row).weights column
        ((nmatrix row).weights column + weight) }

/-- `sum(row[1:])`. -/
def Row.sum {n : Nat} (row : Row n) : Int := ∑ j, row.weights j

/-- A row in the loop of `__reorder_getMinWeightNode__`. -/
def minWeightStep {n : Nat} (nmatrix : Matrix n) (best : Option (Fin n) × Option (Fin n) × Int)
    (rcind : Fin n) : Option (Fin n) × Option (Fin n) × Int :=
  match (nmatrix rcind).node with
  | none => best
  | some node =>
    let w := (nmatrix rcind).sum
    if best.2.2 < 0 then (some rcind, some node, w)
    else if w < best.2.2 then (some rcind, some node, w)
    else best

/-- `__reorder_getMinWeightNode__` (ua_namespace.py:534-551): the index, the node and its weight. -/
def getMinWeightNode {n : Nat} (nmatrix : Matrix n) : Option (Fin n) × Option (Fin n) × Int :=
  (List.finRange n).foldl (minWeightStep nmatrix) (none, none, -1)

namespace Namespace

variable {n : Nat} (ns : Namespace n)

/-- The node and the subtypes of it, when it is there (ua_namespace.py:561-570). -/
def withSubTypes : Option (Fin n) → Except PyError (List (Option (Fin n)))
  | none => .ok []
  | some tn => do
    let subTypes ← ns.getSubTypesOf none (some tn) none
    return some tn :: subTypes

/-- What a reference of a node is worth: `sign` is 1 where the weights are added, and -1 where they
are subtracted. -/
def weigh (typeRefs subTypeRefs : List (Option (Fin n))) (sign : Int) (nind : Fin n)
    (nmatrix : Matrix n) (ref : Reference n) : Matrix n :=
  if some ref.referenceType ∈ typeRefs ∧ ref.isForward = true then
    nmatrix.add nind ref.target (sign * 200)
  else if some ref.referenceType ∈ subTypeRefs ∧ ref.isForward = false then
    nmatrix.add nind ref.target (sign * 100)
  else if ref.isForward = true then nmatrix.add ref.target nind sign
  else nmatrix

/-- How often a node refers to another one, with the weights of the references. -/
def connectivity (typeRefs subTypeRefs : List (Option (Fin n))) : Matrix n :=
  (List.finRange n).foldl (fun nmatrix nind =>
    (ns.references nind).foldl (weigh typeRefs subTypeRefs 1 nind) nmatrix)
    fun nind => ⟨some nind, fun _ => 0⟩

/-- The loop, with the nodes that are still to be taken. -/
def reorderLoop (typeRefs subTypeRefs : List (Option (Fin n))) :
    Nat → Matrix n → List (Fin n) → Except PyError (List (Fin n))
  | 0, _, reorder => .ok reorder
  | left + 1, nmatrix, reorder =>
    match getMinWeightNode nmatrix with
    | (some nind, some node, _) =>
      let nmatrix := (ns.references node).foldl (weigh typeRefs subTypeRefs (-1) nind) nmatrix
      let nmatrix := Function.update nmatrix nind { nmatrix nind with node := none }
      reorderLoop typeRefs subTypeRefs left nmatrix (reorder ++ [node])
    | _ => .error .attributeError

/-- `reorderNodesMinDependencies` (ua_namespace.py:553-614). -/
def reorderNodesMinDependencies : Except PyError (List (Fin n)) := do
  let typeRefs ← ns.withSubTypes ns.hasTypeDefinition
  let subTypeRefs ← ns.withSubTypes ns.hasSubtype
  ns.reorderLoop typeRefs subTypeRefs n (ns.connectivity typeRefs subTypeRefs) []

/-- `HasTypeDefinition`, or a subtype of it. -/
def IsTypeReference (t : Fin n) : Prop :=
  ∃ h, ns.hasTypeDefinition = some h ∧ (t = h ∨ ns.IsSubtype ns.hasSubtype h t)

/-- `HasSubtype`, or a subtype of it. -/
def IsSubtypeReference (t : Fin n) : Prop :=
  ∃ h, ns.hasSubtype = some h ∧ (t = h ∨ ns.IsSubtype ns.hasSubtype h t)

/-- A node depends on its type definition, on the supertypes that it names by inverse references,
and on the sources of the other forward references to it. -/
def DependsOn (i j : Fin n) : Prop :=
  (∃ ref ∈ ns.references i, ref.target = j ∧ ref.isForward = true ∧
      ns.IsTypeReference ref.referenceType) ∨
    (∃ ref ∈ ns.references i, ref.target = j ∧ ref.isForward = false ∧
      ns.IsSubtypeReference ref.referenceType) ∨
    ∃ ref ∈ ns.references j, ref.target = i ∧ ref.isForward = true ∧
      ¬ ns.IsTypeReference ref.referenceType

/-- The function ends with all nodes, and each comes behind those that it depends on if that can
be. -/
def OrderedByDependencies : Prop :=
  ∃ nodes, ns.reorderNodesMinDependencies = .ok nodes ∧ nodes.Perm (List.finRange n) ∧
    (Acyclic ns.DependsOn → Respects ns.DependsOn nodes)

/-- What a reference is worth for the node that it belongs to. -/
def worth (ref : Reference n) : Nat :=
  if some ref.referenceType = ns.hasTypeDefinition ∧ ref.isForward = true then 200
  else if some ref.referenceType = ns.hasSubtype ∧ ref.isForward = false then 100
  else 0

/-- 200 for the type definition and 100 for each supertype that the node names. -/
def own (i : Fin n) : Nat := ((ns.references i).map ns.worth).sum

/-- One of the other forward references to a node. -/
def IsOther (i : Fin n) (ref : Reference n) : Prop :=
  some ref.referenceType ≠ ns.hasTypeDefinition ∧ ref.isForward = true ∧ ref.target = i

instance (i : Fin n) : DecidablePred (ns.IsOther i) := fun ref =>
  inferInstanceAs (Decidable (some ref.referenceType ≠ ns.hasTypeDefinition ∧
    ref.isForward = true ∧ ref.target = i))

/-- The other forward references of a node to another one. -/
def others (j i : Fin n) : Nat := (ns.references j).countP (ns.IsOther i)

/-- The weight of a node when some are taken. -/
def weight (taken : List (Fin n)) (i : Fin n) : Nat :=
  ns.own i + ∑ j with j ∉ taken, ns.others j i

/-- No forward reference begins at the two reference types that the code looks for, or there are no
subtypes to look for. -/
def NoSubTypeSearch : Prop :=
  ns.hasSubtype = none ∨
    ∀ i, ns.hasTypeDefinition = some i ∨ ns.hasSubtype = some i → ns.NoForward i

/-! ## The sums of the rows -/

theorem sum_add (nmatrix : Matrix n) (row column i : Fin n) (weight : Int) :
    ((nmatrix.add row column weight) i).sum =
      (nmatrix i).sum + if i = row then weight else 0 := by
  by_cases hi : i = row
  · subst hi
    have hupdate :
      Function.update (nmatrix i).weights column ((nmatrix i).weights column + weight) =
        fun j => (nmatrix i).weights j + if j = column then weight else 0 := by
      funext j
      by_cases hj : j = column <;> simp [hj]
    simp [Matrix.add, Row.sum, hupdate, Finset.sum_add_distrib]
  · simp [Matrix.add, hi]

theorem node_add (nmatrix : Matrix n) (row column i : Fin n) (weight : Int) :
    ((nmatrix.add row column weight) i).node = (nmatrix i).node := by
  by_cases hi : i = row
  · subst hi
    simp [Matrix.add]
  · simp [Matrix.add, hi]

variable {ns}

/-- The two lists of reference types, when nothing is searched for. -/
def typeRefs (ns : Namespace n) : List (Option (Fin n)) := ns.hasTypeDefinition.toList.map some

def subTypeRefs (ns : Namespace n) : List (Option (Fin n)) := ns.hasSubtype.toList.map some

theorem mem_map_toList {o : Option (Fin n)} {t : Fin n} : some t ∈ o.toList.map some ↔
    some t = o := by
  cases o <;> simp

variable (sign : Int) {a : Fin n} {taken : List (Fin n)}

theorem weigh_sum (j i : Fin n) (nmatrix : Matrix n) (ref : Reference n) :
    (weigh ns.typeRefs ns.subTypeRefs sign j nmatrix ref i).sum =
      (nmatrix i).sum +
        sign * ((if i = j then (ns.worth ref : Int) else 0) +
          if ns.IsOther i ref then 1 else 0) := by
  rcases ref with ⟨target, referenceType, isForward⟩
  simp only [weigh, typeRefs, subTypeRefs, mem_map_toList, worth]
  by_cases htype : some referenceType = ns.hasTypeDefinition ∧ isForward = true
  · have hno : ¬ ns.IsOther i ⟨target, referenceType, isForward⟩ := fun h => h.1 htype.1
    rw [if_pos htype, if_pos htype, sum_add]
    simp only [if_neg hno]
    by_cases hi : i = j <;> simp [hi]
  · rw [if_neg htype, if_neg htype]
    by_cases hsub : some referenceType = ns.hasSubtype ∧ isForward = false
    · have hno : ¬ ns.IsOther i ⟨target, referenceType, isForward⟩ := by simp [IsOther, hsub.2]
      rw [if_pos hsub, if_pos hsub, sum_add]
      simp only [if_neg hno]
      by_cases hi : i = j <;> simp [hi]
    · rw [if_neg hsub, if_neg hsub]
      cases isForward
      · simp [IsOther]
      · have hother : ns.IsOther i ⟨target, referenceType, true⟩ ↔ i = target := by
          have hne : some referenceType ≠ ns.hasTypeDefinition := fun h => htype ⟨h, rfl⟩
          simp [IsOther, hne, eq_comm]
        rw [if_pos rfl, sum_add]
        simp [hother]

theorem weigh_node (j i : Fin n) (nmatrix : Matrix n) (ref : Reference n)
    (typeRefs subTypeRefs : List (Option (Fin n))) :
    (weigh typeRefs subTypeRefs sign j nmatrix ref i).node = (nmatrix i).node := by
  unfold weigh
  split
  · exact node_add ..
  · split
    · exact node_add ..
    · split
      · exact node_add ..
      · rfl

/-- What all references of a node add to a row. -/
def effect (ns : Namespace n) (j i : Fin n) : Int :=
  (if i = j then (ns.own j : Int) else 0) + (ns.others j i : Int)

theorem foldl_weigh_sum (j i : Fin n) (nmatrix : Matrix n) (refs : List (Reference n)) :
    (refs.foldl (weigh ns.typeRefs ns.subTypeRefs sign j) nmatrix i).sum =
      (nmatrix i).sum + sign * ((if i = j then ((refs.map ns.worth).sum : Int) else 0) +
        refs.countP (ns.IsOther i)) := by
  induction refs generalizing nmatrix with
  | nil => simp
  | cons ref refs ih =>
    rw [List.foldl_cons, ih, weigh_sum, List.countP_cons, List.map_cons, List.sum_cons]
    by_cases hi : i = j <;> by_cases hother : ns.IsOther i ref <;> simp [hi, hother] <;> ring

theorem foldl_weigh_node (j i : Fin n) (nmatrix : Matrix n) (refs : List (Reference n))
    (typeRefs subTypeRefs : List (Option (Fin n))) :
    (refs.foldl (weigh typeRefs subTypeRefs sign j) nmatrix i).node = (nmatrix i).node := by
  induction refs generalizing nmatrix with
  | nil => rfl
  | cons ref refs ih => rw [List.foldl_cons, ih, weigh_node]

theorem references_sum (j i : Fin n) (nmatrix : Matrix n) :
    ((ns.references j).foldl (weigh ns.typeRefs ns.subTypeRefs sign j) nmatrix i).sum =
      (nmatrix i).sum + sign * ns.effect j i := foldl_weigh_sum sign j i nmatrix (ns.references j)

theorem references_node (j i : Fin n) (nmatrix : Matrix n) :
    ((ns.references j).foldl (weigh ns.typeRefs ns.subTypeRefs sign j) nmatrix i).node =
      (nmatrix i).node := foldl_weigh_node sign j i nmatrix _ _ _

theorem foldl_references_sum (i : Fin n) (nodes : List (Fin n)) (nmatrix : Matrix n) :
    (nodes.foldl (fun nmatrix j =>
        (ns.references j).foldl (weigh ns.typeRefs ns.subTypeRefs 1 j) nmatrix) nmatrix i).sum =
      (nmatrix i).sum + (nodes.map fun j => ns.effect j i).sum ∧
    (nodes.foldl (fun nmatrix j =>
        (ns.references j).foldl (weigh ns.typeRefs ns.subTypeRefs 1 j) nmatrix) nmatrix i).node =
      (nmatrix i).node := by
  induction nodes generalizing nmatrix with
  | nil => simp
  | cons j nodes ih =>
    rcases ih ((ns.references j).foldl (weigh ns.typeRefs ns.subTypeRefs 1 j) nmatrix) with
      ⟨hsum, hnode⟩
    rw [List.foldl_cons]
    refine ⟨?_, hnode.trans (references_node ..)⟩
    rw [hsum, references_sum, List.map_cons, List.sum_cons]
    ring

theorem effect_self_add (i : Fin n) :
    ((List.finRange n).map fun j => ns.effect j i).sum = (ns.weight [] i : Int) := by
  have hsum : ((List.finRange n).map fun j => ns.effect j i).sum = ∑ j, ns.effect j i := by
    rw [← List.ofFn_eq_map, List.sum_ofFn]
  rw [hsum]
  simp [effect, weight, Finset.sum_add_distrib]

/-- At the loop the rows of the nodes that are not taken have their weights as sums. -/
structure Weighs (ns : Namespace n) (taken : List (Fin n)) (nmatrix : Matrix n) : Prop where
  left : ∀ i ∉ taken, (nmatrix i).node = some i ∧ (nmatrix i).sum = (ns.weight taken i : Int)
  taken : ∀ i ∈ taken, (nmatrix i).node = none

theorem connectivity_weighs : ns.Weighs [] (ns.connectivity ns.typeRefs ns.subTypeRefs) where
  left := by
    intro i _
    rcases @foldl_references_sum _ ns i (List.finRange n)
      (fun nind => ⟨some nind, fun _ => 0⟩) with ⟨hsum, hnode⟩
    refine ⟨hnode, hsum.trans ?_⟩
    rw [effect_self_add]
    simp [Row.sum]
  taken := by simp

theorem weight_cons {i : Fin n} (ha : a ∉ taken) :
    ns.weight taken i = ns.weight (taken ++ [a]) i + ns.others a i := by
  have hsplit : (Finset.univ.filter fun j => j ∉ taken) =
      insert a (Finset.univ.filter fun j => j ∉ taken ++ [a]) := by
    ext j
    by_cases hj : j = a <;> simp [hj, ha]
  rw [weight, weight, hsplit, Finset.sum_insert (by simp)]
  omega

theorem Weighs.take {nmatrix : Matrix n} (h : ns.Weighs taken nmatrix) (ha : a ∉ taken) :
    ns.Weighs (taken ++ [a])
      (Function.update
        ((ns.references a).foldl (weigh ns.typeRefs ns.subTypeRefs (-1) a) nmatrix) a
        { (ns.references a).foldl (weigh ns.typeRefs ns.subTypeRefs (-1) a) nmatrix a with
          node := none }) where
  left := by
    intro i hi
    have hne : i ≠ a := by
      intro heq
      simp [heq] at hi
    have hnot : i ∉ taken := fun hmem => hi (List.mem_append_left _ hmem)
    rw [Function.update_of_ne hne, references_node, references_sum, (h.left i hnot).2,
      weight_cons (i := i) ha]
    refine ⟨(h.left i hnot).1, ?_⟩
    simp [effect, hne]
  taken := by
    intro i hi
    by_cases hia : i = a
    · simp [hia]
    · have hmem : i ∈ taken := by simpa [hia] using hi
      rw [Function.update_of_ne hia, references_node, h.taken i hmem]

def Best (ns : Namespace n) (taken rows : List (Fin n))
    (best : Option (Fin n) × Option (Fin n) × Int) : Prop :=
  (best = (none, none, -1) ∧ ∀ i ∈ rows, i ∈ taken) ∨
    ∃ a ∈ rows, a ∉ taken ∧ best = (some a, some a, (ns.weight taken a : Int)) ∧
      ∀ b ∈ rows, b ∉ taken → key ns.weight taken a ≤ key ns.weight taken b

theorem Best.step {rows : List (Fin n)} {nmatrix : Matrix n}
    {best : Option (Fin n) × Option (Fin n) × Int} (h : ns.Best taken rows best)
    (hweighs : ns.Weighs taken nmatrix) {i : Fin n} (hless : ∀ b ∈ rows, b < i) :
    ns.Best taken (rows ++ [i]) (minWeightStep nmatrix best i) := by
  by_cases hi : i ∈ taken
  · rw [minWeightStep, hweighs.taken i hi]
    rcases h with ⟨hnone, hall⟩ | ⟨a, ha, hnot, hbest, hle⟩
    · refine .inl ⟨hnone, fun b hb => ?_⟩
      rcases List.mem_append.mp hb with hb | hb
      · exact hall b hb
      · rwa [List.mem_singleton.mp hb]
    · refine .inr ⟨a, List.mem_append_left _ ha, hnot, hbest, fun b hb hb' => ?_⟩
      rcases List.mem_append.mp hb with hb | hb
      · exact hle b hb hb'
      · rw [List.mem_singleton.mp hb] at hb'
        exact absurd hi hb'
  · rcases hweighs.left i hi with ⟨hnode, hsum⟩
    simp only [minWeightStep, hnode, hsum]
    rcases h with ⟨rfl, hall⟩ | ⟨a, ha, hnot, rfl, hle⟩
    · refine .inr ⟨i, by simp, hi, by simp, fun b hb hb' => ?_⟩
      rcases List.mem_append.mp hb with hb | hb
      · exact absurd (hall b hb) hb'
      · rw [List.mem_singleton.mp hb]
    · by_cases hlighter : ns.weight taken i < ns.weight taken a
      · rw [if_pos (Int.ofNat_lt.mpr hlighter)]
        refine .inr ⟨i, by simp, hi, rfl, fun b hb hb' => ?_⟩
        have hia : key ns.weight taken i ≤ key ns.weight taken a :=
          Prod.Lex.toLex_le_toLex.mpr (.inl hlighter)
        rcases List.mem_append.mp hb with hb | hb
        · exact hia.trans (hle b hb hb')
        · rw [List.mem_singleton.mp hb]
      · rw [if_neg (mt Int.ofNat_lt.mp hlighter)]
        refine .inr ⟨a, List.mem_append_left _ ha, hnot, rfl, fun b hb hb' => ?_⟩
        rcases List.mem_append.mp hb with hb | hb
        · exact hle b hb hb'
        · rw [List.mem_singleton.mp hb]
          refine Prod.Lex.toLex_le_toLex.mpr ?_
          rcases Nat.lt_or_eq_of_le (Nat.le_of_not_lt hlighter) with hlt | heq
          · exact .inl hlt
          · exact .inr ⟨heq, le_of_lt (hless a ha)⟩

theorem foldl_best {nmatrix : Matrix n} (hweighs : ns.Weighs taken nmatrix) (rows : List (Fin n))
    (hsorted : rows.Pairwise (· < ·)) :
    ns.Best taken rows (rows.foldl (minWeightStep nmatrix) (none, none, -1)) := by
  induction rows using List.reverseRecOn with
  | nil => exact .inl ⟨rfl, by simp⟩
  | append_singleton rows i ih =>
    rcases List.pairwise_append.mp hsorted with ⟨hrows, -, hless⟩
    rw [List.foldl_append, List.foldl_cons, List.foldl_nil]
    exact (ih hrows).step hweighs fun b hb => hless b hb i (by simp)

theorem getMinWeightNode_eq {nmatrix : Matrix n} (hweighs : ns.Weighs taken nmatrix)
    (ha : next ns.weight (List.finRange n) taken = some a) :
    getMinWeightNode nmatrix = (some a, some a, (ns.weight taken a : Int)) := by
  rcases foldl_best hweighs (List.finRange n) (List.pairwise_lt_finRange n) with
    ⟨-, hall⟩ | ⟨b, hb, hnot, hbest, hle⟩
  · exact absurd (hall a (List.mem_finRange a)) (next_eq_some_iff.mp ha).2.1
  · cases Option.some.inj (ha.symm.trans (next_eq_some_iff.mpr ⟨hb, hnot, hle⟩))
    exact hbest

theorem reorderLoop_eq {left k : Nat} {nmatrix : Matrix n} (hk : k + left = n)
    (hweighs : ns.Weighs (order ns.weight (List.finRange n) k) nmatrix) :
    ns.reorderLoop ns.typeRefs ns.subTypeRefs left nmatrix (order ns.weight (List.finRange n) k) =
      .ok (order ns.weight (List.finRange n) n) := by
  induction left generalizing k nmatrix with
  | zero => rw [reorderLoop, show k = n from hk]
  | succ left ih =>
    rcases exists_next (w := ns.weight) (List.nodup_finRange n) (k := k)
      (by rw [List.length_finRange]; omega) with ⟨a, ha⟩
    have hstep : order ns.weight (List.finRange n) (k + 1) =
        order ns.weight (List.finRange n) k ++ [a] := by
      rw [order, ha, Option.toList_some]
    rw [reorderLoop, getMinWeightNode_eq hweighs ha]
    simp only []
    rw [← hstep]
    refine ih (by omega) ?_
    rw [hstep]
    exact hweighs.take (next_eq_some_iff.mp ha).2.1

theorem withSubTypes_some (tn : Fin n) :
    ns.withSubTypes (some tn) =
      if ns.hasSubtype = none ∨ ns.NoForward tn then .ok [some tn] else .error .attributeError := by
  rw [withSubTypes, getSubTypesOf_eq]
  split <;> rfl

theorem withSubTypes_eq {o : Option (Fin n)} (h : ns.hasSubtype = none ∨ ∀ i ∈ o, ns.NoForward i) :
    ns.withSubTypes o = .ok (o.toList.map some) := by
  cases o with
  | none => rfl
  | some tn => rw [withSubTypes_some, if_pos (by simpa using h)]; rfl

theorem reorderNodesMinDependencies_eq (h : ns.NoSubTypeSearch) :
    ns.reorderNodesMinDependencies = .ok (order ns.weight (List.finRange n) n) := by
  have htype : ns.withSubTypes ns.hasTypeDefinition = .ok ns.typeRefs :=
    withSubTypes_eq (h.imp_right fun hall i hi => hall i (.inl hi))
  have hsub : ns.withSubTypes ns.hasSubtype = .ok ns.subTypeRefs :=
    withSubTypes_eq (h.imp_right fun hall i hi => hall i (.inr hi))
  have hloop := @reorderLoop_eq _ ns n 0 _ (Nat.zero_add n) connectivity_weighs
  rw [reorderNodesMinDependencies, htype, hsub]
  exact hloop

theorem reorderNodesMinDependencies_error (h : ¬ ns.NoSubTypeSearch) :
    ns.reorderNodesMinDependencies = .error .attributeError := by
  simp only [NoSubTypeSearch, not_or, not_forall] at h
  rcases h with ⟨hsome, i, hi, hforward⟩
  have hfails : ns.withSubTypes (some i) = .error .attributeError := by
    rw [withSubTypes_some, if_neg (not_or.mpr ⟨hsome, hforward⟩)]
  have hends : ∀ o, ns.withSubTypes o = .error .attributeError ∨ ∃ l, ns.withSubTypes o =
    .ok l := by
    intro o
    cases o with
    | none => exact .inr ⟨[], rfl⟩
    | some tn => rw [withSubTypes_some]; split <;> simp
  rw [reorderNodesMinDependencies]
  rcases hi with hi | hi
  · rw [hi, hfails]
    rfl
  · rcases hends ns.hasTypeDefinition with htype | ⟨l, htype⟩
    · rw [htype]
      rfl
    · rw [htype, hi, hfails]
      rfl

theorem isTypeReference_iff (h : ns.NoSubTypeSearch) {t : Fin n} :
    ns.IsTypeReference t ↔ some t = ns.hasTypeDefinition := by
  constructor
  · intro htype
    rcases htype with ⟨td, htd, rfl | hsub⟩
    · exact htd.symm
    · exact absurd hsub (not_isSubtype (h.imp_right fun hall => hall td (.inl htd)))
  · exact fun htd => ⟨t, htd.symm, .inl rfl⟩

theorem weight_of_ready (h : ns.NoSubTypeSearch) (hready : Ready ns.DependsOn taken a) :
    ns.weight taken a = ns.own a := by
  rw [weight, Nat.add_eq_left]
  refine Finset.sum_eq_zero fun j hj => List.countP_eq_zero.mpr fun ref href hother => ?_
  have hother : ns.IsOther a ref := by simpa using hother
  have hdepends : ns.DependsOn a j :=
    .inr (.inr ⟨ref, href, hother.2.2, hother.2.1, (isTypeReference_iff h).not.mpr hother.1⟩)
  exact (Finset.mem_filter.mp hj).2 (hready j hdepends)

/-- The nodes are put in order exactly when no subtypes have to be searched for and, if they can be
ordered at all, no node that still has to wait is in front of what a dependency order takes. -/
theorem orderedByDependencies_iff :
    ns.OrderedByDependencies ↔
      ns.NoSubTypeSearch ∧
        (Acyclic ns.DependsOn → NotOvertaken ns.DependsOn ns.own ns.weight (List.finRange n)) := by
  by_cases h : ns.NoSubTypeSearch
  · have hnodup := List.nodup_finRange n
    have hperm := order_perm (w := ns.weight) hnodup
    have hrespects : Acyclic ns.DependsOn →
        (Respects ns.DependsOn (order ns.weight (List.finRange n) n) ↔
          NotOvertaken ns.DependsOn ns.own ns.weight (List.finRange n)) := by
      intro hacyclic
      have hiff := @respects_iff _ _ _ _ _ ns.own ns.weight _ _ hnodup List.mem_finRange hacyclic
        fun _ _ hready => weight_of_ready h hready
      rwa [List.length_finRange] at hiff
    rw [List.length_finRange] at hperm
    simp only [OrderedByDependencies, reorderNodesMinDependencies_eq h, Except.ok.injEq,
      exists_eq_left', hperm, true_and, h]
    exact forall_congr' hrespects
  · simp [OrderedByDependencies, reorderNodesMinDependencies_error h, h]

end Namespace

/-- An object has a type and a method as component; the method has no type. -/
def methodNamespace : Namespace 5 where
  id i := ⟨some i, none, none, none, 0⟩
  browseName i := ["HasTypeDefinition".toList, "HasComponent".toList, [], [], []][i]
  references i := if i = 3 then [⟨2, 0, true⟩, ⟨4, 1, true⟩] else []

/-- The method is put in front of the object that it depends on. -/
theorem methodNamespace_wrong : ¬ ∀ (n : Nat) (ns : Namespace n), ns.OrderedByDependencies := by
  intro h
  rcases h 5 methodNamespace with ⟨nodes, hnodes, -, hrespects⟩
  have horder : methodNamespace.reorderNodesMinDependencies = .ok [0, 1, 2, 4, 3] := by decide
  cases Except.ok.inj (horder.symm.trans hnodes)
  have hnone : methodNamespace.hasSubtype = none := by decide
  have htypes : ∀ i, ∀ ref ∈ methodNamespace.references i,
      some ref.referenceType = methodNamespace.hasTypeDefinition → i = 3 ∧ ref.target = 2 :=
        by decide
  have hothers : ∀ i, ∀ ref ∈ methodNamespace.references i,
      some ref.referenceType ≠ methodNamespace.hasTypeDefinition → ref.target = 4 ∧ i = 3 :=
        by decide
  have hdepends : ∀ i j, methodNamespace.DependsOn i j → (i = 3 ∧ j = 2) ∨ (i = 4 ∧ j = 3) := by
    intro i j hij
    rcases hij with ⟨ref, href, rfl, -, htype⟩ | ⟨_, _, _, _, _, hsome, -⟩ | ⟨ref, href, rfl, -,
      hnot⟩
    · exact .inl (htypes i ref href ((Namespace.isTypeReference_iff (.inl hnone)).mp htype))
    · simp [hnone] at hsome
    · exact .inr (hothers j ref href ((Namespace.isTypeReference_iff (.inl hnone)).not.mp hnot))
  have hacyclic : Acyclic methodNamespace.DependsOn := by
    refine acyclic_of_rank Fin.val fun i j hij => ?_
    rcases hdepends i j hij with ⟨rfl, rfl⟩ | ⟨rfl, rfl⟩ <;> decide
  have hparent : methodNamespace.DependsOn 4 3 := by
    refine .inr (.inr ⟨⟨4, 1, true⟩, by decide, rfl, rfl, ?_⟩)
    rw [Namespace.isTypeReference_iff (.inl hnone)]
    decide
  have hbefore := hrespects hacyclic [0, 1, 2] 4 [3] rfl 3 hparent
  revert hbefore
  decide

end FactoryThing.Nodesets
