import FactoryThing.AddressSpace.Nodes
import Mathlib

/-!
# Searches along references

The type hierarchy above or below a node, the search for a node up a tree, and the type of a node
(`ua_server_utils.c:84-213`).
-/

namespace FactoryThing.AddressSpace

variable {A : Type} (sv : Server A)

/-- The references of one node in `getTypeHierarchy` (`:104-136`): new targets go to the end. -/
def collectSubtypes (inverse : Bool) : List ReferenceNode → List NodeKey → List NodeKey
  | [], results => results
  | ref :: refs, results =>
      if ref.isInverse ≠ inverse ∨ ref.referenceTypeId ≠ hasSubtype then
        collectSubtypes inverse refs results
      -- is the target already considered?
      else if ref.targetId.nodeId ∈ results then collectSubtypes inverse refs results
      else collectSubtypes inverse refs (results ++ [ref.targetId.nodeId])

/-- The loop of `getTypeHierarchy` (`:103-147`) from the index `idx` on. Nodes that do not exist or
have another class are left out, but not their NodeIds. -/
def typeHierarchyFrom (nodeClass : NodeClass) (inverse : Bool) :
    Nat → Nat → List NodeKey → List NodeKey
  | 0, _, results => results
  | fuel + 1, idx, results =>
      match results[idx]? with
      | none => results
      | some nodeId =>
          let refs :=
            match sv.get nodeId with
            | none => []
            | some node => if node.nodeClass ≠ nodeClass then [] else node.references
          typeHierarchyFrom nodeClass inverse fuel (idx + 1) (collectSubtypes inverse refs results)

def Server.referencesCount : Nat := (sv.nodes.map (·.references.length)).sum

/-- `getTypeHierarchy` (`:84-157`), given the memory for it. No more NodeIds can be met than there
are references. -/
def getTypeHierarchy (root : Node A) (inverse : Bool) : List NodeKey :=
  typeHierarchyFrom sv root.nodeClass inverse (sv.referencesCount + root.references.length + 1) 1
    (collectSubtypes inverse root.references [root.nodeId])

/-- The loop of `isNodeInTree` over the references of a node (`:170-181`). -/
def searchUpwards (referenceTypeIds : List NodeKey) (recur : NodeKey → Option Bool) :
    List ReferenceNode → Option Bool
  | [] => some false
  | ref :: refs =>
      if ref.isInverse ∧ ref.referenceTypeId ∈ referenceTypeIds then
        match recur ref.targetId.nodeId with
        | none => none
        | some true => some true
        | some false => searchUpwards referenceTypeIds recur refs
      else searchUpwards referenceTypeIds recur refs

/-- `isNodeInTree` (`:159-183`). Nothing keeps it from going round in circles: `none` stands for a
recursion deeper than `fuel`. -/
def isNodeInTree (nodeToFind : NodeKey) (referenceTypeIds : List NodeKey) :
    Nat → NodeKey → Option Bool
  | 0, _ => none
  | fuel + 1, leafNode =>
      if leafNode = nodeToFind then some true
      else
        match sv.get leafNode with
        | none => some false
        | some node =>
            searchUpwards referenceTypeIds (isNodeInTree nodeToFind referenceTypeIds fuel)
              node.references

/-- `getNodeType` (`:185-213`): the first matching candidate, or the null NodeId. -/
def getNodeType (node : Node A) : NodeKey :=
  let parent : Option (NodeKey × Bool) :=
    match node.nodeClass with
    | .variable | .object => some (hasTypeDefinition, false)
    | .variableType | .objectType | .referenceType | .dataType => some (hasSubtype, true)
    | _ => none
  match parent with
  | none => nullId
  | some (parentRef, inverse) =>
      match node.references.find? fun ref =>
        ref.isInverse == inverse && ref.referenceTypeId == parentRef with
      | none => nullId
      | some ref => ref.targetId.nodeId

theorem isNodeInTree_mapAttributes {B : Type} (f : A → B) (nodeToFind : NodeKey)
    (referenceTypeIds : List NodeKey) (fuel : Nat) (leafNode : NodeKey) :
    isNodeInTree (sv.mapAttributes f) nodeToFind referenceTypeIds fuel leafNode =
      isNodeInTree sv nodeToFind referenceTypeIds fuel leafNode := by
  induction fuel generalizing leafNode with
  | zero => rfl
  | succ fuel ih =>
    rw [isNodeInTree, isNodeInTree, get_mapAttributes, funext ih]
    cases sv.get leafNode with
    | none => rfl
    | some node => rfl

end FactoryThing.AddressSpace
