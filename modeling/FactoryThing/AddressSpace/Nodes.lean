import FactoryThing.Lib.Keyed
import FactoryThing.Types.NodeId

/-!
# Nodes

The nodes of the address space (`src/server/ua_nodes.h`) with their references, and the server as
the node management and the view services see it. The node store is the finite map it stands for.
-/

namespace FactoryThing.AddressSpace

/-- The part of an identifier that `UA_NodeId_equal` compares. -/
inductive KeyIdentifier where
  | numeric (n : UInt32)
  | string (s : List UInt8)
  | guid (g : Guid)
  | byteString (s : List UInt8)
  deriving DecidableEq

/-- A NodeId as the node store tells it from others. -/
structure NodeKey where
  namespaceIndex : UInt16
  identifier : KeyIdentifier
  deriving DecidableEq

/-- The key of a NodeId: pointers do not matter. -/
def NodeKey.ofNodeId (n : NodeId) : NodeKey where
  namespaceIndex := n.namespaceIndex
  identifier := match n.identifier with
    | .numeric n => .numeric n
    | .string s => .string s.items
    | .guid g => .guid g
    | .byteString s => .byteString s.items

/-- `UA_NodeId_isNull`. -/
def NodeKey.isNull (key : NodeKey) : Bool :=
  if key.namespaceIndex ≠ 0 then false
  else match key.identifier with
    | .numeric n => n == 0
    | .guid g => g.data1 == 0 && g.data2 == 0 && g.data3 == 0 && g.data4.toList.all (· == 0)
    | .string s => s.length == 0
    | .byteString s => s.length == 0

/-- `UA_NODEID_NUMERIC(0, n)`. -/
abbrev ns0 (n : UInt32) : NodeKey := ⟨0, .numeric n⟩

/-- `UA_NODEID_NULL`. -/
abbrev nullId : NodeKey := ns0 0

/-! The NodeIds of namespace 0 the code refers to (`tools/schema/NodeIds.csv`). -/

def hierarchicalReferences : NodeKey := ns0 33
def hasModellingRule : NodeKey := ns0 37
def hasTypeDefinition : NodeKey := ns0 40
def aggregates : NodeKey := ns0 44
def hasSubtype : NodeKey := ns0 45
def hasProperty : NodeKey := ns0 46
def hasComponent : NodeKey := ns0 47
def baseObjectType : NodeKey := ns0 58
def baseDataVariableType : NodeKey := ns0 63
def modellingRuleMandatory : NodeKey := ns0 78

/-- `UA_NodeClass` (`include/ua_types_generated.h`). -/
inductive NodeClass where
  | unspecified
  | object
  | variable
  | method
  | objectType
  | variableType
  | referenceType
  | dataType
  | view
  deriving DecidableEq

/-- The value of the enumeration, a bit of the masks it is compared with. -/
def NodeClass.bit : NodeClass → UInt32
  | .unspecified => 0
  | .object => 1
  | .variable => 2
  | .method => 4
  | .objectType => 8
  | .variableType => 16
  | .referenceType => 32
  | .dataType => 64
  | .view => 128

/-- `UA_QualifiedName`. -/
structure QualifiedName where
  namespaceIndex : UInt16
  name : List UInt8
  deriving DecidableEq

/-- `UA_LocalizedText`. -/
structure LocalizedText where
  locale : List UInt8
  text : List UInt8
  deriving DecidableEq

/-- `UA_ExpandedNodeId`. -/
structure ExpandedNodeId where
  nodeId : NodeKey
  namespaceUri : List UInt8
  serverIndex : UInt32
  deriving DecidableEq

/-- A node of this server as the target of a reference. -/
abbrev ExpandedNodeId.here (nodeId : NodeKey) : ExpandedNodeId := ⟨nodeId, [], 0⟩

structure ReferenceNode where
  referenceTypeId : NodeKey
  isInverse : Bool
  targetId : ExpandedNodeId
  deriving DecidableEq

/-- `UA_Node` with what its class adds: the types can be abstract. `attributes` are all the others,
the value and the instance handle among them. -/
structure Node (A : Type) where
  nodeId : NodeKey
  nodeClass : NodeClass
  browseName : QualifiedName
  displayName : LocalizedText
  isAbstract : Bool
  attributes : A
  references : List ReferenceNode
  deriving DecidableEq

/-- The server: the nodes, how many namespaces there are, and how often the environment has been
asked. -/
structure Server (A : Type) where
  nodes : List (Node A)
  namespacesSize : Nat
  clock : Nat
  deriving DecidableEq

/-- The answers of the environment, by the number of the question: whether an allocation succeeds,
which numeric identifier the search for a free one ends at, what the check of a variable's value,
data type, rank and dimensions against its type says and writes (`typeCheckVariableNode` behind its
checks of the nodes), and what the constructor of an object type leaves of an instance. -/
structure World (A : Type) where
  alloc : Nat → Bool
  identifier : Nat → UInt32
  typeCheck : Nat → Node A → Node A → StatusCode × A
  construct : Nat → A → A → A

variable {A : Type} (sv : Server A)

/-- `UA_NodeStore_get`. -/
def Server.get (nodeId : NodeKey) : Option (Node A) := Keyed.find Node.nodeId sv.nodes nodeId

/-- The references of a node; none for one that does not exist. -/
def Server.references (nodeId : NodeKey) : List ReferenceNode :=
  match sv.get nodeId with
  | none => []
  | some node => node.references

def Server.asked (n : Nat) : Server A := { sv with clock := sv.clock + n }

/-- `UA_NodeStore_remove`. -/
def nodeStoreRemove (nodeId : NodeKey) : Server A × StatusCode :=
  match sv.get nodeId with
  | none => (sv, StatusCode.badNodeIdUnknown)
  | some _ => ({ sv with nodes := Keyed.remove Node.nodeId sv.nodes nodeId }, StatusCode.good)

/-- `UA_NodeStore_insert`, with the NodeId under which the node is then stored. A node without one
gets a numeric one that is free; growing the table may fail. -/
def nodeStoreInsert (w : World A) (node : Node A) : Server A × Except StatusCode NodeKey :=
  if ¬ w.alloc sv.clock then (sv.asked 1, .error StatusCode.badInternalError)
  else
    let nodeId :=
      if ({ node.nodeId with namespaceIndex := 0 } : NodeKey).isNull then
        ⟨if node.nodeId.namespaceIndex = 0 then 1 else node.nodeId.namespaceIndex,
          .numeric (w.identifier sv.clock)⟩
      else node.nodeId
    match sv.get nodeId with
    | some _ => (sv.asked 1, .error StatusCode.badNodeIdExists)
    | none =>
        ({ sv.asked 1 with nodes := { node with nodeId := nodeId } :: sv.nodes }, .ok nodeId)

/-- `UA_Server_editNode` without multi-threading (`ua_server_utils.c:261-271`). -/
def editNode (nodeId : NodeKey) (callback : Node A → Node A × StatusCode) :
    Server A × StatusCode :=
  match sv.get nodeId with
  | none => (sv, StatusCode.badNodeIdUnknown)
  | some node =>
      let (edited, retval) := callback node
      ({ sv with nodes := Keyed.modify Node.nodeId (fun _ => edited) nodeId sv.nodes }, retval)

section Map

variable {sv : Server A}

def Server.Distinct (sv : Server A) : Prop := (sv.nodes.map Node.nodeId).Nodup

@[simp] theorem get_asked (n : Nat) (x : NodeKey) : (sv.asked n).get x = sv.get x := rfl

@[simp] theorem references_asked (n : Nat) (x : NodeKey) :
    (sv.asked n).references x = sv.references x := rfl

variable {node : Node A} {x : NodeKey} {callback : Node A → Node A × StatusCode}

theorem nodeId_of_get (h : sv.get x = some node) : node.nodeId = x :=
  Keyed.key_of_find h

theorem references_of_get (h : sv.get x = some node) : sv.references x = node.references := by
  rw [Server.references, h]

theorem references_of_get_none (h : sv.get x = none) : sv.references x = [] := by
  rw [Server.references, h]

theorem references_congr {sv' : Server A} (h : sv'.get x = sv.get x) :
    sv'.references x = sv.references x := by
  rw [Server.references, Server.references, h]

theorem get_editNode_of_get {nodeId : NodeKey} (hget : sv.get nodeId = some node)
    (hid : (callback node).1.nodeId = node.nodeId) (x : NodeKey) :
    (editNode sv nodeId callback).1.get x =
      if x = nodeId then some (callback node).1 else sv.get x := by
  have hkey : ∀ a : Node A, a.nodeId = nodeId → (callback node).1.nodeId = nodeId :=
    fun _ _ => hid.trans (nodeId_of_get hget)
  unfold editNode
  rw [hget]
  by_cases hx : x = nodeId
  · subst hx
    rw [if_pos rfl]
    refine (Keyed.find_modify_self hkey sv.nodes).trans ?_
    change (sv.get x).map _ = _
    rw [hget]
    rfl
  · rw [if_neg hx]
    exact Keyed.find_modify_ne hkey hx sv.nodes

theorem get_editNode {nodeId : NodeKey} (hid : ∀ node, (callback node).1.nodeId = node.nodeId)
    (x : NodeKey) :
    (editNode sv nodeId callback).1.get x =
      if x = nodeId then (sv.get x).map fun node => (callback node).1 else sv.get x := by
  cases hget : sv.get nodeId with
  | none =>
    have hsame : (editNode sv nodeId callback).1 = sv := by
      unfold editNode
      rw [hget]
    rw [hsame]
    split
    · rename_i hx
      rw [hx, hget]
      rfl
    · rfl
  | some node =>
    rw [get_editNode_of_get hget (hid node)]
    split
    · rename_i hx
      rw [hx, hget]
      rfl
    · rfl

theorem editNode_status (nodeId : NodeKey) (callback : Node A → Node A × StatusCode) :
    (editNode sv nodeId callback).2 =
      match sv.get nodeId with
      | none => StatusCode.badNodeIdUnknown
      | some node => (callback node).2 := by
  unfold editNode
  split <;> rfl

theorem Server.Distinct.edited (h : sv.Distinct) (nodeId : NodeKey)
    (hid : ∀ node, (callback node).1.nodeId = node.nodeId) :
    (editNode sv nodeId callback).1.Distinct := by
  unfold editNode
  split
  · exact h
  · rename_i node hnode
    unfold Server.Distinct
    rw [Keyed.map_key_modify fun _ _ => (hid node).trans (nodeId_of_get hnode)]
    exact h

theorem get_nodeStoreRemove (h : sv.Distinct) (nodeId x : NodeKey) :
    (nodeStoreRemove sv nodeId).1.get x = if x = nodeId then none else sv.get x := by
  unfold nodeStoreRemove
  split
  · rename_i hnone
    split
    · rename_i hx
      rw [hx, hnone]
    · rfl
  · split
    · rename_i hx
      rw [hx]
      exact Keyed.find_remove_self h
    · rename_i hx
      exact Keyed.find_remove_ne hx

theorem Server.Distinct.removed (h : sv.Distinct) (nodeId : NodeKey) :
    (nodeStoreRemove sv nodeId).1.Distinct := by
  unfold nodeStoreRemove
  split
  · exact h
  · unfold Server.Distinct
    rw [Keyed.map_key_remove]
    exact h.erase nodeId

/-- The NodeId a node is stored under (`ua_nodestore.c:235-247`). -/
def storedNodeId (w : World A) (clock : Nat) (nodeId : NodeKey) : NodeKey :=
  if ({ nodeId with namespaceIndex := 0 } : NodeKey).isNull then
    ⟨if nodeId.namespaceIndex = 0 then 1 else nodeId.namespaceIndex, .numeric (w.identifier clock)⟩
  else nodeId

theorem isNull_storedNodeId (w : World A) (clock : Nat) (nodeId : NodeKey) :
    (storedNodeId w clock nodeId).isNull = false := by
  have hindex : ∀ key : NodeKey, key.namespaceIndex ≠ 0 → key.isNull = false := fun key hne =>
    if_pos hne
  unfold storedNodeId
  split
  · refine hindex _ ?_
    dsimp only
    split
    · decide
    · assumption
  · rename_i hnull
    by_cases hzero : nodeId.namespaceIndex = 0
    · obtain ⟨index, identifier⟩ := nodeId
      obtain rfl : index = 0 := hzero
      exact Bool.eq_false_iff.mpr hnull
    · exact hindex _ hzero

theorem nodeStoreInsert_cases (w : World A) (sv : Server A) (node : Node A) :
    (w.alloc sv.clock = false ∧
        nodeStoreInsert sv w node = (sv.asked 1, .error StatusCode.badInternalError)) ∨
      (w.alloc sv.clock = true ∧ (sv.get (storedNodeId w sv.clock node.nodeId)).isSome ∧
        nodeStoreInsert sv w node = (sv.asked 1, .error StatusCode.badNodeIdExists)) ∨
      (w.alloc sv.clock = true ∧ sv.get (storedNodeId w sv.clock node.nodeId) = none ∧
        nodeStoreInsert sv w node =
          ({ sv.asked 1 with
              nodes := { node with nodeId := storedNodeId w sv.clock node.nodeId } :: sv.nodes },
            .ok (storedNodeId w sv.clock node.nodeId))) := by
  have hunfold : nodeStoreInsert sv w node =
      if ¬ w.alloc sv.clock then (sv.asked 1, .error StatusCode.badInternalError)
      else
        match sv.get (storedNodeId w sv.clock node.nodeId) with
        | some _ => (sv.asked 1, .error StatusCode.badNodeIdExists)
        | none =>
            ({ sv.asked 1 with
                nodes := { node with nodeId := storedNodeId w sv.clock node.nodeId } :: sv.nodes },
              .ok (storedNodeId w sv.clock node.nodeId)) := rfl
  rw [hunfold]
  cases halloc : w.alloc sv.clock with
  | false => exact .inl ⟨rfl, rfl⟩
  | true =>
    cases hget : sv.get (storedNodeId w sv.clock node.nodeId) with
    | some stored => exact .inr (.inl ⟨rfl, rfl, rfl⟩)
    | none => exact .inr (.inr ⟨rfl, rfl, rfl⟩)

theorem get_inserted (node : Node A) (n : Nat) (x : NodeKey) :
    ({ sv.asked n with nodes := node :: sv.nodes } : Server A).get x =
      if x = node.nodeId then some node else sv.get x := by
  split
  · rename_i hx
    exact Keyed.find_cons_self hx.symm
  · rename_i hx
    exact Keyed.find_cons_ne fun heq => hx heq.symm

theorem Server.Distinct.inserted (h : sv.Distinct) (n : Nat) (hnone : sv.get node.nodeId = none) :
    ({ sv.asked n with nodes := node :: sv.nodes } : Server A).Distinct := by
  unfold Server.Distinct
  rw [List.map_cons, List.nodup_cons]
  exact ⟨Keyed.find_eq_none_iff.mp hnone, h⟩

end Map

section MapAttributes

variable {B : Type} (f : A → B)

/-- The node with what a function makes of its attributes. -/
def Node.mapAttributes (node : Node A) : Node B where
  nodeId := node.nodeId
  nodeClass := node.nodeClass
  browseName := node.browseName
  displayName := node.displayName
  isAbstract := node.isAbstract
  attributes := f node.attributes
  references := node.references

/-- The server as one that looks at some of the attributes sees it. -/
def Server.mapAttributes (sv : Server A) : Server B where
  nodes := sv.nodes.map (Node.mapAttributes f)
  namespacesSize := sv.namespacesSize
  clock := sv.clock

theorem get_mapAttributes (sv : Server A) (x : NodeKey) :
    (sv.mapAttributes f).get x = (sv.get x).map (Node.mapAttributes f) := by
  unfold Server.get Keyed.find Server.mapAttributes
  rw [List.find?_map]
  rfl

end MapAttributes

end FactoryThing.AddressSpace
