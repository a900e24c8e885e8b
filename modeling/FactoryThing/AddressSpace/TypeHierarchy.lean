import FactoryThing.AddressSpace.PathResolution
import FactoryThing.Lib.Loop

/-!
# What the search of the type hierarchy ends with

`getTypeHierarchy` (`ua_server_utils.c:88-160`) with its two indices and its `goto`: the results are
both what has been found and what is still to be visited. Whatever the references are, the loop
comes to the end of the results, and these are then what can be reached.
-/

namespace FactoryThing.AddressSpace

open Relation

variable {A : Type} (sv : Server A) (root : Node A) (inverse : Bool)

/-- Where the loop of `getTypeHierarchy` is: the node whose references come next, none after
`goto next`, the index of its NodeId, and the NodeIds up to the index `last`. -/
structure HierarchyWalk (A : Type) where
  node : Option (Node A)
  idx : Nat
  results : List NodeKey

/-- The references of the node that comes next, if there is one (`:108-137`). -/
def collectNode : Option (Node A) → List NodeKey → List NodeKey
  | none, results => results
  | some node, results => collectSubtypes inverse node.references results

/-- The node behind the label `next`: none for a NodeId that is passed over (`:143-145`). -/
def nodeToVisit (nodeId : NodeKey) : Option (Node A) :=
  match sv.get nodeId with
  | none => none
  | some node => if node.nodeClass ≠ root.nodeClass then none else some node

/-- One round of the loop (`:107-147`). -/
def hierarchyBody (s : HierarchyWalk A) : List NodeKey ⊕ HierarchyWalk A :=
  let results := collectNode inverse s.node s.results
  let idx := s.idx + 1
  match results[idx]? with
  | none => .inl results
  | some nodeId => .inr ⟨nodeToVisit sv root nodeId, idx, results⟩

/-- `getTypeHierarchy` before its loop. -/
def hierarchyStart : HierarchyWalk A := ⟨some root, 0, [root.nodeId]⟩

/-- The node with the NodeId, for the search from the root: the root is the one it is given. -/
def nodeSeen (x : NodeKey) : Option (Node A) := if x = root.nodeId then some root else sv.get x

/-- A node of the class of the root has a HasSubtype reference to `y` in the direction. -/
def HierarchyStep (x y : NodeKey) : Prop :=
  ∃ node, nodeSeen sv root x = some node ∧ node.nodeClass = root.nodeClass ∧
    ∃ ref ∈ node.references, ref.isInverse = inverse ∧ ref.referenceTypeId = hasSubtype ∧
      ref.targetId.nodeId = y

/-- The targets of those references, in the order of the references. -/
def hierarchyNext (x : NodeKey) : List NodeKey :=
  match nodeSeen sv root x with
  | none => []
  | some node =>
      if node.nodeClass ≠ root.nodeClass then [] else subtypeTargets inverse node.references

variable {sv root inverse}

theorem mem_hierarchyNext {x y : NodeKey} :
    y ∈ hierarchyNext sv root inverse x ↔ HierarchyStep sv root inverse x y := by
  unfold hierarchyNext HierarchyStep subtypeTargets
  cases nodeSeen sv root x with
  | none => simp
  | some node =>
    by_cases hclass : node.nodeClass = root.nodeClass
    · simp [hclass, and_assoc]
    · simp [hclass]

theorem nodeSeen_root : nodeSeen sv root root.nodeId = some root := if_pos rfl

theorem hierarchyNext_root :
    hierarchyNext sv root inverse root.nodeId = subtypeTargets inverse root.references := by
  unfold hierarchyNext
  rw [nodeSeen_root]
  exact if_neg (not_not_intro rfl)

theorem hierarchyNext_of_ne {x : NodeKey} (hx : x ≠ root.nodeId) :
    hierarchyNext sv root inverse x = subtypesOf sv root.nodeClass inverse x := by
  have hseen : nodeSeen sv root x = sv.get x := if_neg hx
  unfold hierarchyNext subtypesOf
  cases hget : sv.get x with
  | none => simp only [hseen, hget]
  | some node => simp only [hseen, hget]

/-- What the search can meet: the root and the targets of all references. -/
def hierarchyPossible (sv : Server A) (root : Node A) : List NodeKey :=
  root.nodeId :: (allTargets sv ++ root.references.map fun ref => ref.targetId.nodeId)

theorem hierarchyNext_subset (x : NodeKey) :
    hierarchyNext sv root inverse x ⊆ hierarchyPossible sv root := by
  intro y hy
  refine List.mem_cons_of_mem _ (List.mem_append.mpr ?_)
  by_cases hx : x = root.nodeId
  · rw [hx, hierarchyNext_root] at hy
    obtain ⟨ref, href, rfl⟩ := List.mem_map.mp hy
    exact Or.inr (List.mem_map.mpr ⟨ref, (List.mem_filter.mp href).1, rfl⟩)
  · rw [hierarchyNext_of_ne hx] at hy
    unfold subtypesOf at hy
    split at hy
    · cases hy
    · rename_i node hnode
      split at hy
      · cases hy
      · exact Or.inl (subtypeTargets_subset hnode inverse hy)

/-- What the references of the node that comes next lead to. -/
def pending (inverse : Bool) : Option (Node A) → List NodeKey
  | none => []
  | some node => subtypeTargets inverse node.references

theorem collectNode_eq (node : Option (Node A)) (results : List NodeKey) :
    collectNode inverse node results = Worklist.addNew (pending inverse node) results := by
  cases node with
  | none => rfl
  | some node => exact collectSubtypes_eq inverse node.references results

theorem pending_nodeToVisit (x : NodeKey) :
    pending inverse (nodeToVisit sv root x) = subtypesOf sv root.nodeClass inverse x := by
  unfold nodeToVisit subtypesOf
  cases sv.get x with
  | none => rfl
  | some node =>
    dsimp only
    split <;> rfl

/-- A search that has come to the index: what is before it has been visited, and the references that
come next are those of the NodeId there. -/
structure HierarchyWalk.Visiting (sv : Server A) (root : Node A) (inverse : Bool)
    (s : HierarchyWalk A) : Prop where
  closing : Worklist.Closing (hierarchyNext sv root inverse) [root.nodeId] s.idx s.results
  first : s.results.head? = some root.nodeId
  met : s.results ⊆ hierarchyPossible sv root
  current : ∃ x, s.results[s.idx]? = some x ∧
    pending inverse s.node = hierarchyNext sv root inverse x

/-- The results are the root and then what can be reached from it, each once. -/
structure HierarchyResult (sv : Server A) (root : Node A) (inverse : Bool)
    (results : List NodeKey) : Prop where
  first : results.head? = some root.nodeId
  nodup : results.Nodup
  mem_iff : ∀ x, x ∈ results ↔ ReflTransGen (HierarchyStep sv root inverse) root.nodeId x

theorem visiting_start : (hierarchyStart root).Visiting sv root inverse where
  closing := ⟨List.nodup_singleton _, fun _ hx => hx, fun _ hx => ⟨_, hx, .refl⟩,
    fun i hi => absurd hi (Nat.not_lt_zero i)⟩
  first := rfl
  met := fun _ hx => List.mem_cons.mpr (Or.inl (List.mem_singleton.mp hx))
  current := ⟨root.nodeId, rfl, hierarchyNext_root.symm⟩

theorem reached_iff {x : NodeKey} :
    Worklist.Reached (hierarchyNext sv root inverse) [root.nodeId] x ↔
      ReflTransGen (HierarchyStep sv root inverse) root.nodeId x := by
  have hrel : (fun x y => y ∈ hierarchyNext sv root inverse x) = HierarchyStep sv root inverse := by
    funext x y
    exact propext mem_hierarchyNext
  simp [Worklist.Reached, hrel]

theorem ne_root_of_later {results : List NodeKey} (hnodup : results.Nodup)
    (hfirst : results.head? = some root.nodeId) {idx : Nat} {y : NodeKey}
    (hy : results[idx + 1]? = some y) : y ≠ root.nodeId := by
  cases results with
  | nil => cases hy
  | cons x rest =>
    rw [List.head?_cons, Option.some.injEq] at hfirst
    subst hfirst
    rintro rfl
    exact (List.nodup_cons.mp hnodup).1 (List.mem_of_getElem? hy)

theorem hierarchyBody_of_visiting {s : HierarchyWalk A} (h : s.Visiting sv root inverse) :
    (∃ results, hierarchyBody sv root inverse s = .inl results ∧
        HierarchyResult sv root inverse results) ∨
      ∃ s', hierarchyBody sv root inverse s = .inr s' ∧ s'.Visiting sv root inverse ∧
        s'.idx = s.idx + 1 := by
  obtain ⟨node, idx, results⟩ := s
  obtain ⟨x, hx, hpending⟩ := h.current
  have hclosing := h.closing.step hx
  obtain ⟨more, hmore⟩ := @Worklist.prefix_addNew _ _ results (hierarchyNext sv root inverse x)
  have hfirst : (Worklist.addNew (hierarchyNext sv root inverse x) results).head? =
      some root.nodeId := by
    rw [← hmore, List.head?_append, h.first]
    rfl
  have hmet : Worklist.addNew (hierarchyNext sv root inverse x) results ⊆
      hierarchyPossible sv root := by
    intro y hy
    obtain hy | hy := Worklist.mem_addNew.mp hy
    · exact h.met hy
    · exact hierarchyNext_subset x hy
  unfold hierarchyBody
  dsimp only at hclosing ⊢
  rw [collectNode_eq, hpending]
  generalize Worklist.addNew (hierarchyNext sv root inverse x) results = results' at *
  cases hy : results'[idx + 1]? with
  | none =>
    exact Or.inl ⟨_, rfl, hfirst, hclosing.nodup, fun z =>
      (hclosing.mem_iff (List.getElem?_eq_none_iff.mp hy)).trans reached_iff⟩
  | some y =>
    have hne := ne_root_of_later hclosing.nodup hfirst hy
    exact Or.inr ⟨_, rfl, ⟨hclosing, hfirst, hmet, y, hy,
      (pending_nodeToVisit y).trans (hierarchyNext_of_ne hne).symm⟩, rfl⟩

theorem whileTrue_of_visiting (rounds : Nat) :
    ∀ {s : HierarchyWalk A}, s.Visiting sv root inverse →
      (hierarchyPossible sv root).length ≤ s.idx + rounds →
        ∃ results, Loop.whileTrue (hierarchyBody sv root inverse) (rounds + 1) s = some results ∧
          HierarchyResult sv root inverse results := by
  induction rounds with
  | zero =>
    intro s h hrounds
    obtain ⟨x, hx, _⟩ := h.current
    have hlt : s.idx < s.results.length := (List.getElem?_eq_some_iff.mp hx).1
    have hle : s.results.length ≤ (hierarchyPossible sv root).length :=
      (List.subperm_of_subset h.closing.nodup h.met).length_le
    omega
  | succ rounds ih =>
    intro s h hrounds
    obtain ⟨results, hbody, hresult⟩ | ⟨s', hbody, h', hidx⟩ := hierarchyBody_of_visiting h
    · exact ⟨results, by rw [Loop.whileTrue, hbody], hresult⟩
    · obtain ⟨results, hrun, hresult⟩ := ih h' (by omega)
      exact ⟨results, by rw [Loop.whileTrue, hbody]; exact hrun, hresult⟩

theorem closeFrom_of_whileTrue (rounds : Nat) :
    ∀ {s : HierarchyWalk A} {results : List NodeKey},
      Loop.whileTrue (hierarchyBody sv root inverse) (rounds + 1) s = some results →
        Worklist.closeFrom (subtypesOf sv root.nodeClass inverse) rounds (s.idx + 1)
          (collectNode inverse s.node s.results) = results := by
  induction rounds with
  | zero =>
    intro s results h
    rw [Loop.whileTrue, hierarchyBody] at h
    cases hidx : (collectNode inverse s.node s.results)[s.idx + 1]? with
    | none =>
      rw [hidx] at h
      exact Option.some.inj h
    | some y =>
      rw [hidx] at h
      cases h
  | succ rounds ih =>
    intro s results h
    rw [Loop.whileTrue, hierarchyBody] at h
    unfold Worklist.closeFrom
    cases hidx : (collectNode inverse s.node s.results)[s.idx + 1]? with
    | none =>
      rw [hidx] at h
      exact Option.some.inj h
    | some y =>
      rw [hidx] at h
      rw [← ih h, collectNode_eq (nodeToVisit sv root y), pending_nodeToVisit]

/-- The loop ends with the closure that Browse and AddNodes work with. -/
theorem getTypeHierarchy_eq (sv : Server A) (root : Node A) (inverse : Bool) :
    (∃ rounds, Loop.whileTrue (hierarchyBody sv root inverse) rounds (hierarchyStart root) =
      some (getTypeHierarchy sv root inverse)) ∧
      HierarchyResult sv root inverse (getTypeHierarchy sv root inverse) := by
  obtain ⟨results, hrun, hresult⟩ := whileTrue_of_visiting (hierarchyPossible sv root).length
    (@visiting_start _ sv root inverse) (Nat.le_add_left _ _)
  have hlength : (hierarchyPossible sv root).length =
      sv.referencesCount + root.references.length + 1 := by
    simp [hierarchyPossible, length_allTargets]
  have heq : results = getTypeHierarchy sv root inverse := by
    rw [← closeFrom_of_whileTrue _ hrun, ← typeHierarchyFrom_eq, hlength]
    rfl
  rw [← heq]
  exact ⟨⟨_, hrun⟩, hresult⟩

/-- The search comes to its end, and it has found the NodeId of the root and behind it, each once,
all that can be reached from the root through nodes of its class. -/
theorem typeHierarchy_exact (sv : Server A) (root : Node A) (inverse : Bool) :
    ∃ rounds results,
      (∀ more, Loop.whileTrue (hierarchyBody sv root inverse) (rounds + more)
        (hierarchyStart root) = some results) ∧
      results.head? = some root.nodeId ∧ results.Nodup ∧
      ∀ x, x ∈ results ↔ ReflTransGen (HierarchyStep sv root inverse) root.nodeId x := by
  obtain ⟨⟨rounds, hrun⟩, hresult⟩ := getTypeHierarchy_eq sv root inverse
  exact ⟨rounds, _, fun more => Loop.whileTrue_mono (Nat.le_add_right _ more) hrun, hresult.first,
    hresult.nodup, hresult.mem_iff⟩

end FactoryThing.AddressSpace
