import FactoryThing.AddressSpace.Nodes
import FactoryThing.Lib.SwapRemove

/-!
# References

Adding and deleting references, and deleting nodes (`ua_services_nodemanagement.c:1165-1280,
1361-1401, 1443-1490`). A reference has two ends, each kept by the node at the other one.
-/

namespace FactoryThing.AddressSpace

variable {A : Type}

/-- `UA_AddReferencesItem`. -/
structure AddReferencesItem where
  sourceNodeId : NodeKey
  referenceTypeId : NodeKey
  isForward : Bool
  targetServerUri : List UInt8
  targetNodeId : ExpandedNodeId
  deriving DecidableEq

/-- `UA_DeleteReferencesItem`. -/
structure DeleteReferencesItem where
  sourceNodeId : NodeKey
  referenceTypeId : NodeKey
  isForward : Bool
  targetNodeId : ExpandedNodeId
  deleteBidirectional : Bool
  deriving DecidableEq

/-- `addOneWayReference` (`:1165-1192`); `alloc` tells whether its allocations succeed. -/
def addOneWayReference (alloc : Bool) (item : AddReferencesItem) (node : Node A) :
    Node A × StatusCode :=
  if ¬ alloc then (node, StatusCode.badOutOfMemory)
  else
    ({ node with
      references :=
        node.references ++ [⟨item.referenceTypeId, !item.isForward, item.targetNodeId⟩] },
      StatusCode.good)

/-- The reference an item asks to delete (`:1449-1454`). -/
def DeleteReferencesItem.names (item : DeleteReferencesItem) (ref : ReferenceNode) : Bool :=
  item.targetNodeId.nodeId == ref.targetId.nodeId && item.referenceTypeId == ref.referenceTypeId &&
    item.isForward != ref.isInverse

/-- `deleteOneWayReference` (`:1443-1470`). -/
def deleteOneWayReference (item : DeleteReferencesItem) (node : Node A) : Node A × StatusCode :=
  match SwapRemove.removeLast item.names node.references with
  | none => (node, StatusCode.uncertainReferenceNotDeleted)
  | some references => ({ node with references := references }, StatusCode.good)

variable (w : World A) (sv : Server A)

/-- `addReference` (`:1194-1280`), without external namespaces. -/
def addReference (item : AddReferencesItem) : Server A × StatusCode :=
  if item.targetServerUri ≠ [] then (sv, StatusCode.badNotImplemented)
  else
    let first := editNode (sv.asked 2) item.sourceNodeId
      (addOneWayReference (w.alloc sv.clock) item)
    if first.2 ≠ StatusCode.good then first
    else
      let secondItem : AddReferencesItem :=
        { sourceNodeId := item.targetNodeId.nodeId
          referenceTypeId := item.referenceTypeId
          isForward := !item.isForward
          targetServerUri := []
          targetNodeId := .here item.sourceNodeId }
      let second := editNode first.1 secondItem.sourceNodeId
        (addOneWayReference (w.alloc (sv.clock + 1)) secondItem)
      if second.2 ≠ StatusCode.good then
        -- the first direction is taken back, whatever comes of that
        let deleteItem : DeleteReferencesItem :=
          ⟨item.sourceNodeId, item.referenceTypeId, item.isForward, item.targetNodeId, false⟩
        ((editNode second.1 item.sourceNodeId (deleteOneWayReference deleteItem)).1, second.2)
      else second

/-- `deleteReference` (`:1472-1490`). -/
def deleteReference (item : DeleteReferencesItem) : Server A × StatusCode :=
  let first := editNode sv item.sourceNodeId (deleteOneWayReference item)
  if first.2 ≠ StatusCode.good then first
  else if ¬ item.deleteBidirectional ∨ item.targetNodeId.serverIndex ≠ 0 then first
  else
    let secondItem : DeleteReferencesItem :=
      { sourceNodeId := item.targetNodeId.nodeId
        referenceTypeId := item.referenceTypeId
        isForward := !item.isForward
        targetNodeId := .here item.sourceNodeId
        deleteBidirectional := false }
    editNode first.1 secondItem.sourceNodeId (deleteOneWayReference secondItem)

/-- The loop of `removeReferences` (`:1361-1372`) from the entry `i` on. It reads the array of the
node as the deletions leave it; `fuel` entries are left at most. -/
def removeReferencesFrom (nodeId : NodeKey) : Nat → Nat → Server A → Server A
  | 0, _, sv => sv
  | fuel + 1, i, sv =>
      match (sv.references nodeId)[i]? with
      | none => sv
      | some ref =>
          let item : DeleteReferencesItem :=
            { sourceNodeId := ref.targetId.nodeId
              referenceTypeId := ref.referenceTypeId
              isForward := ref.isInverse
              targetNodeId := .here nodeId
              deleteBidirectional := false }
          removeReferencesFrom nodeId fuel (i + 1) (deleteReference sv item).1

/-- `removeReferences`. The array never grows, so its first length is enough. -/
def removeReferences (nodeId : NodeKey) : Server A :=
  removeReferencesFrom nodeId (sv.references nodeId).length 0 sv

/-- `deleteNode` (`:1374-1401`). The destructor of the object type has nothing to do with the node
store. -/
def deleteNode (nodeId : NodeKey) (deleteReferences : Bool) : Server A × StatusCode :=
  match sv.get nodeId with
  | none => (sv, StatusCode.badNodeIdUnknown)
  | some _ =>
      nodeStoreRemove (if deleteReferences then removeReferences sv nodeId else sv) nodeId

section Map

variable {w : World A} {sv : Server A}

def Node.plus (node : Node A) (refs : List ReferenceNode) : Node A :=
  { node with references := node.references ++ refs }

@[simp] theorem plus_nil (node : Node A) : node.plus [] = node := by
  simp [Node.plus]

@[simp] theorem plus_plus (node : Node A) (refs refs' : List ReferenceNode) :
    (node.plus refs).plus refs' = node.plus (refs ++ refs') := by
  simp [Node.plus]

/-- The end of the new reference that its source keeps. -/
def AddReferencesItem.first (item : AddReferencesItem) : ReferenceNode :=
  ⟨item.referenceTypeId, !item.isForward, item.targetNodeId⟩

/-- The end of the new reference that its target keeps. -/
def AddReferencesItem.second (item : AddReferencesItem) : ReferenceNode :=
  ⟨item.referenceTypeId, item.isForward, .here item.sourceNodeId⟩

/-- What the new reference adds to the references of a node. -/
def AddReferencesItem.endsAt (item : AddReferencesItem) (x : NodeKey) : List ReferenceNode :=
  (if x = item.sourceNodeId then [item.first] else []) ++
    if x = item.targetNodeId.nodeId then [item.second] else []

@[simp] theorem addOneWayReference_nodeId (alloc : Bool) (item : AddReferencesItem)
    (node : Node A) :
    (addOneWayReference alloc item node).1.nodeId = node.nodeId := by
  unfold addOneWayReference
  split <;> rfl

@[simp] theorem deleteOneWayReference_nodeId (item : DeleteReferencesItem) (node : Node A) :
    (deleteOneWayReference item node).1.nodeId = node.nodeId := by
  unfold deleteOneWayReference
  split <;> rfl

theorem addOneWay_cases (alloc : Bool) (sv : Server A) (item : AddReferencesItem) :
    ((editNode sv item.sourceNodeId (addOneWayReference alloc item)).2 ≠ StatusCode.good ∧
        ∀ x, (editNode sv item.sourceNodeId (addOneWayReference alloc item)).1.get x = sv.get x) ∨
      ((editNode sv item.sourceNodeId (addOneWayReference alloc item)).2 = StatusCode.good ∧
        (sv.get item.sourceNodeId).isSome ∧
        ∀ x, (editNode sv item.sourceNodeId (addOneWayReference alloc item)).1.get x =
          (sv.get x).map (·.plus (if x = item.sourceNodeId then [item.first] else []))) := by
  simp only [get_editNode (addOneWayReference_nodeId alloc item), editNode_status]
  cases hnode : sv.get item.sourceNodeId with
  | none =>
    refine Or.inl ⟨(by decide : StatusCode.badNodeIdUnknown ≠ StatusCode.good), fun x => ?_⟩
    split
    · rename_i hx
      rw [hx, hnode]
      rfl
    · rfl
  | some node =>
    cases alloc with
    | false =>
      refine Or.inl ⟨by simp [addOneWayReference]; decide, fun x => ?_⟩
      split
      · rename_i hx
        rw [hx, hnode]
        rfl
      · rfl
    | true =>
      refine Or.inr ⟨rfl, rfl, fun x => ?_⟩
      split
      · rfl
      · simp

theorem deleteOneWay_cases (sv : Server A) (item : DeleteReferencesItem) :
    ((editNode sv item.sourceNodeId (deleteOneWayReference item)).2 ≠ StatusCode.good ∧
        (∀ x, (editNode sv item.sourceNodeId (deleteOneWayReference item)).1.get x = sv.get x) ∧
        ∀ ref ∈ sv.references item.sourceNodeId, item.names ref = false) ∨
      ((editNode sv item.sourceNodeId (deleteOneWayReference item)).2 = StatusCode.good ∧
        ∃ refs, SwapRemove.removeLast item.names (sv.references item.sourceNodeId) = some refs ∧
          ∀ x, (editNode sv item.sourceNodeId (deleteOneWayReference item)).1.get x =
            (sv.get x).map fun node =>
              if x = item.sourceNodeId then { node with references := refs } else node) := by
  simp only [get_editNode (deleteOneWayReference_nodeId item), editNode_status]
  cases hnode : sv.get item.sourceNodeId with
  | none =>
    refine Or.inl ⟨(by decide : StatusCode.badNodeIdUnknown ≠ StatusCode.good), fun x => ?_, ?_⟩
    · split
      · rename_i hx
        rw [hx, hnode]
        rfl
      · rfl
    · rw [references_of_get_none hnode]
      exact nofun
  | some node =>
    rw [references_of_get hnode]
    cases hremove : SwapRemove.removeLast item.names node.references with
    | none =>
      refine Or.inl ⟨by simp [deleteOneWayReference, hremove]; decide, fun x => ?_,
        SwapRemove.removeLast_eq_none hremove⟩
      split
      · rename_i hx
        rw [hx, hnode]
        simp [deleteOneWayReference, hremove]
      · rfl
    | some refs =>
      refine Or.inr ⟨by simp [deleteOneWayReference, hremove], refs, rfl, fun x => ?_⟩
      split
      · rename_i hx
        rw [hx, hnode]
        simp [deleteOneWayReference, hremove]
      · simp

theorem deleteOneWay_undo {sv' : Server A} {item : DeleteReferencesItem} {ref : ReferenceNode}
    (hsource : (sv.get item.sourceNodeId).isSome) (hnames : item.names ref = true)
    (hadded : ∀ x, sv'.get x =
      (sv.get x).map (·.plus (if x = item.sourceNodeId then [ref] else []))) (x : NodeKey) :
    (editNode sv' item.sourceNodeId (deleteOneWayReference item)).1.get x = sv.get x := by
  obtain ⟨node, hnode⟩ := Option.isSome_iff_exists.mp hsource
  have hnode' : sv'.get item.sourceNodeId = some (node.plus [ref]) := by
    rw [hadded, hnode, if_pos rfl]
    rfl
  obtain ⟨-, -, hnone⟩ | ⟨-, refs, hrefs, hget⟩ := deleteOneWay_cases sv' item
  · have hlast := hnone ref (by rw [references_of_get hnode']; simp [Node.plus])
    rw [hnames] at hlast
    cases hlast
  · have hremove := SwapRemove.removeLast_append (l := node.references) ref hnames
    rw [references_of_get hnode'] at hrefs
    obtain rfl : node.references = refs := Option.some.inj (hremove.symm.trans hrefs)
    rw [hget, hadded]
    by_cases hx : x = item.sourceNodeId
    · subst hx
      simp [hnode, Node.plus]
    · simp [hx]

theorem addReference_cases (w : World A) (sv : Server A) (item : AddReferencesItem) :
    ((addReference w sv item).2 ≠ StatusCode.good ∧
        ∀ x, (addReference w sv item).1.get x = sv.get x) ∨
      ((addReference w sv item).2 = StatusCode.good ∧ (sv.get item.sourceNodeId).isSome ∧
        (sv.get item.targetNodeId.nodeId).isSome ∧
        ∀ x, (addReference w sv item).1.get x = (sv.get x).map (·.plus (item.endsAt x))) := by
  unfold addReference
  split
  · exact Or.inl ⟨(by decide : StatusCode.badNotImplemented ≠ StatusCode.good), fun _ => rfl⟩
  obtain ⟨hfirst, hsame⟩ | ⟨hfirst, hsource, hadded⟩ :=
    addOneWay_cases (w.alloc sv.clock) (sv.asked 2) item
  · rw [if_pos hfirst]
    exact Or.inl ⟨hfirst, hsame⟩
  rw [if_neg (not_not.mpr hfirst)]
  generalize editNode (sv.asked 2) item.sourceNodeId
    (addOneWayReference (w.alloc sv.clock) item) = first at hadded ⊢
  obtain ⟨hsecond, hsame⟩ | ⟨hsecond, htarget, hadded'⟩ :=
    addOneWay_cases (w.alloc (sv.clock + 1)) first.1 ⟨item.targetNodeId.nodeId,
      item.referenceTypeId, !item.isForward, [], .here item.sourceNodeId⟩
  · rw [if_pos hsecond]
    refine Or.inl ⟨hsecond, @deleteOneWay_undo _ sv _ ⟨item.sourceNodeId, item.referenceTypeId,
      item.isForward, item.targetNodeId, false⟩ item.first hsource ?_ fun x => ?_⟩
    · simp [DeleteReferencesItem.names, AddReferencesItem.first]
    · exact (hsame x).trans (hadded x)
  · rw [if_neg (not_not.mpr hsecond)]
    refine Or.inr ⟨hsecond, hsource, ?_, fun x => ?_⟩
    · rw [hadded] at htarget
      simpa using htarget
    · rw [hadded' x, hadded x, Option.map_map]
      refine congrArg (Option.map · (sv.get x)) (funext fun node => ?_)
      simp [AddReferencesItem.endsAt, AddReferencesItem.first, AddReferencesItem.second]

end Map

end FactoryThing.AddressSpace
