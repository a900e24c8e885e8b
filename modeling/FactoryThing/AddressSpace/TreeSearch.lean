import FactoryThing.AddressSpace.Symmetry
import FactoryThing.Lib.DepthFirst

/-!
# The search for a node up a tree

`isNodeInTree` (`src/server/ua_server_utils.c:162-186`) is a depth-first search that does not
remember where it has been. Clients add references as they like, so what it searches need not be a
tree.
-/

namespace FactoryThing.AddressSpace

open Relation

variable {A : Type} (sv : Server A) (referenceTypeIds : List NodeKey)

/-- The targets of the inverse references of the listed types, in the order of the references. -/
def parents (x : NodeKey) : List NodeKey :=
  ((sv.references x).filter fun ref =>
    ref.isInverse && decide (ref.referenceTypeId ∈ referenceTypeIds)).map (·.targetId.nodeId)

/-- An existing node has an inverse reference of one of the listed types to `y`. -/
def IsBelow (x y : NodeKey) : Prop :=
  ∃ node ref, sv.get x = some node ∧ ref ∈ node.references ∧ ref.isInverse = true ∧
    ref.referenceTypeId ∈ referenceTypeIds ∧ ref.targetId.nodeId = y

/-- The search from `leafNode` comes to a node, by inverse references of which none before leads to
`nodeToFind`, and from there back to the same node. -/
def ComesToCycle (nodeToFind leafNode : NodeKey) : Prop :=
  DepthFirst.Cycles (parents sv referenceTypeIds) nodeToFind leafNode

variable {sv referenceTypeIds}

theorem mem_parents {x y : NodeKey} :
    y ∈ parents sv referenceTypeIds x ↔ IsBelow sv referenceTypeIds x y := by
  constructor
  · intro h
    obtain ⟨ref, href, rfl⟩ := List.mem_map.mp h
    obtain ⟨hmem, hmatch⟩ := List.mem_filter.mp href
    obtain ⟨hinverse, htype⟩ := Bool.and_eq_true_iff.mp hmatch
    cases hget : sv.get x with
    | none =>
      rw [references_of_get_none hget] at hmem
      cases hmem
    | some node =>
      rw [references_of_get hget] at hmem
      exact ⟨node, ref, hget, hmem, hinverse, of_decide_eq_true htype, rfl⟩
  · rintro ⟨node, ref, hget, hmem, hinverse, htype, rfl⟩
    refine List.mem_map_of_mem (List.mem_filter.mpr ⟨?_, ?_⟩)
    · rw [references_of_get hget]
      exact hmem
    · exact Bool.and_eq_true_iff.mpr ⟨hinverse, decide_eq_true htype⟩

theorem leads_parents {nodeToFind x : NodeKey} :
    DepthFirst.Leads (parents sv referenceTypeIds) nodeToFind x ↔
      ReflTransGen (IsBelow sv referenceTypeIds) x nodeToFind := by
  have hrel : (fun x y => y ∈ parents sv referenceTypeIds x) = IsBelow sv referenceTypeIds := by
    funext x y
    exact propext mem_parents
  rw [DepthFirst.Leads, hrel]

theorem parents_subset {x : NodeKey} (h : parents sv referenceTypeIds x ≠ []) :
    x ∈ sv.nodes.map Node.nodeId := by
  obtain ⟨y, hy⟩ := List.exists_mem_of_ne_nil _ h
  obtain ⟨node, -, hget, -⟩ := mem_parents.mp hy
  have hmem := List.mem_map_of_mem (f := Node.nodeId) (Keyed.mem_of_find hget)
  rwa [nodeId_of_get hget] at hmem

theorem searchUpwards_eq (recur : NodeKey → Option Bool) (refs : List ReferenceNode) :
    searchUpwards referenceTypeIds recur refs =
      DepthFirst.anyOf recur ((refs.filter fun ref =>
        ref.isInverse && decide (ref.referenceTypeId ∈ referenceTypeIds)).map
          (·.targetId.nodeId)) := by
  induction refs with
  | nil => rfl
  | cons ref refs ih =>
    rw [searchUpwards, List.filter_cons]
    by_cases hmatch : ref.isInverse ∧ ref.referenceTypeId ∈ referenceTypeIds
    · rw [if_pos hmatch, if_pos (by simpa using hmatch), List.map_cons, DepthFirst.anyOf]
      cases recur ref.targetId.nodeId with
      | none => rfl
      | some found =>
        cases found with
        | true => rfl
        | false => exact ih
    · rw [if_neg hmatch, if_neg (by simpa using hmatch), ih]

theorem isNodeInTree_eq (nodeToFind : NodeKey) (fuel : Nat) (leafNode : NodeKey) :
    isNodeInTree sv nodeToFind referenceTypeIds fuel leafNode =
      DepthFirst.search (parents sv referenceTypeIds) nodeToFind fuel leafNode := by
  induction fuel generalizing leafNode with
  | zero => rfl
  | succ fuel ih =>
    rw [isNodeInTree, DepthFirst.search, parents, Server.references]
    split
    · rfl
    · cases sv.get leafNode with
      | none => rfl
      | some node =>
        dsimp only
        rw [searchUpwards_eq]
        congr 1
        exact funext ih

/-- `isNodeInTree` ends, and answers whether the node is found, if and only if it does not come to a
cycle of references before it comes to the node. -/
theorem isNodeInTree_exact_iff (sv : Server A) (referenceTypeIds : List NodeKey)
    (leafNode nodeToFind : NodeKey) :
    (∃ found depth,
        (∀ fuel ≥ depth, isNodeInTree sv nodeToFind referenceTypeIds fuel leafNode = some found) ∧
        (found = true ↔ ReflTransGen (IsBelow sv referenceTypeIds) leafNode nodeToFind)) ↔
      ¬ ComesToCycle sv referenceTypeIds nodeToFind leafNode := by
  rw [ComesToCycle, ← DepthFirst.search_iff fun _ => parents_subset]
  constructor
  · rintro ⟨found, depth, hends, -⟩
    refine ⟨depth, found, ?_⟩
    rw [← isNodeInTree_eq]
    exact hends depth (Nat.le_refl depth)
  · rintro ⟨depth, found, hsearch⟩
    refine ⟨found, depth, ?_, ?_⟩
    · intro fuel hfuel
      rw [isNodeInTree_eq]
      exact DepthFirst.search_mono hfuel hsearch
    · rw [DepthFirst.search_sound hsearch, leads_parents]

def twoTypes : Server Unit := ⟨[plainNode 100 .referenceType, plainNode 101 .referenceType], 2, 0⟩

def mutualSubtypes : Server Unit :=
  (addReference plainWorld (addReference plainWorld twoTypes (plainReference 100 45 101)).1
    (plainReference 101 45 100)).1

theorem isNodeInTree_mutualSubtypes (fuel : Nat) :
    isNodeInTree mutualSubtypes (ns0 102) [hasSubtype] fuel (ns0 100) = none ∧
      isNodeInTree mutualSubtypes (ns0 102) [hasSubtype] fuel (ns0 101) = none := by
  have h100 : parents mutualSubtypes [hasSubtype] (ns0 100) = [ns0 101] := by decide
  have h101 : parents mutualSubtypes [hasSubtype] (ns0 101) = [ns0 100] := by decide
  induction fuel with
  | zero => exact ⟨rfl, rfl⟩
  | succ fuel ih =>
    rw [isNodeInTree_eq, isNodeInTree_eq] at ih ⊢
    constructor
    · rw [DepthFirst.search, if_neg (by decide), h100, DepthFirst.anyOf, ih.2]
    · rw [DepthFirst.search, if_neg (by decide), h101, DepthFirst.anyOf, ih.1]

/-- Two accepted AddReferences, and the search for a type that is not there does not end. -/
theorem mutualSubtypes_search_diverges :
    (∃ sv', addReference plainWorld twoTypes (plainReference 100 45 101) = (sv', StatusCode.good) ∧
      addReference plainWorld sv' (plainReference 101 45 100) = (mutualSubtypes, StatusCode.good)) ∧
      ¬ ∃ found depth, ∀ fuel ≥ depth,
        isNodeInTree mutualSubtypes (ns0 102) [hasSubtype] fuel (ns0 100) = some found := by
  refine ⟨⟨_, rfl, rfl⟩, ?_⟩
  rintro ⟨found, depth, hends⟩
  have hsome := hends depth (Nat.le_refl depth)
  rw [(isNodeInTree_mutualSubtypes depth).1] at hsome
  cases hsome

end FactoryThing.AddressSpace
