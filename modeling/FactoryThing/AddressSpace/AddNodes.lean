import FactoryThing.AddressSpace.Browse
import FactoryThing.AddressSpace.References

/-!
# AddNodes

Adding a node and instantiating its type (`ua_services_nodemanagement.c:22-98, 250-498, 577-791`).
Four functions call one another: a new node is finished, which copies the children of its types
into it, which finishes the new children or copies into children that are already there. Nothing
bounds that recursion; `none` is the result of a recursion that is deeper than the fuel.
-/

namespace FactoryThing.AddressSpace

variable {A : Type}

/-- What can be seen of a call: a child that has been instantiated in full, and a method that has
been made the child of another node. -/
inductive Effect where
  | completed (child : NodeKey)
  | linked (source method : NodeKey)
  deriving DecidableEq

/-- What comes back from the recursion, if it comes back. -/
abbrev Outcome (A : Type) := Option (Server A × StatusCode × List Effect)

inductive Call where
  | copyChildNodes (source destination : NodeKey)
  | finish (nodeId parentNodeId referenceTypeId typeDefinition : NodeKey)
  deriving DecidableEq

variable (w : World A)

/-- `checkParentReference` (`:31-98`). -/
def checkParentReference (fuel : Nat) (sv : Server A) (nodeClass : NodeClass)
    (parentNodeId referenceTypeId : NodeKey) : Option StatusCode :=
  if nodeClass = .object ∧ parentNodeId.isNull ∧ referenceTypeId.isNull then some StatusCode.good
  else
    match sv.get parentNodeId with
    | none => some StatusCode.badParentNodeIdInvalid
    | some parent =>
        match sv.get referenceTypeId with
        | none => some StatusCode.badReferenceTypeIdInvalid
        | some referenceType =>
            if referenceType.nodeClass ≠ .referenceType then
              some StatusCode.badReferenceTypeIdInvalid
            else if referenceType.isAbstract then some StatusCode.badReferenceNotAllowed
            else if nodeClass = .dataType ∨ nodeClass = .variableType ∨ nodeClass = .objectType ∨
                nodeClass = .referenceType then
              if referenceTypeId ≠ hasSubtype then some StatusCode.badReferenceNotAllowed
              else if parent.nodeClass ≠ nodeClass then some StatusCode.badParentNodeIdInvalid
              else some StatusCode.good
            else
              match isNodeInTree sv hierarchicalReferences [hasSubtype] fuel referenceTypeId with
              | none => none
              | some false => some StatusCode.badReferenceTypeIdInvalid
              | some true => some StatusCode.good

/-- `typeCheckVariableNode` (`:160-236`): the checks of the nodes, and then what the environment
says of the attributes. -/
def typeCheckVariableNode (sv : Server A) (node : Node A) (typeDef : NodeKey) :
    Server A × StatusCode :=
  if node.nodeId = baseDataVariableType then (sv, StatusCode.good)
  else
    match sv.get typeDef with
    | none => (sv, StatusCode.badTypeDefinitionInvalid)
    | some vt =>
        if vt.nodeClass ≠ .variableType then (sv, StatusCode.badTypeDefinitionInvalid)
        else if node.nodeClass = .variable ∧ vt.isAbstract then
          (sv, StatusCode.badTypeDefinitionInvalid)
        else
          let (retval, attributes) := w.typeCheck sv.clock node vt
          ((editNode (sv.asked 1) node.nodeId fun node =>
            ({ node with attributes := attributes }, retval)).1, retval)

/-- The browse of `copyChildNodes` (`:404-411`): the objects, variables and methods a node
aggregates. -/
def childrenDescription (nodeId : NodeKey) : BrowseDescription where
  nodeId := nodeId
  browseDirection := browseDirectionForward
  referenceTypeId := aggregates
  includeSubtypes := true
  nodeClassMask := NodeClass.object.bit ||| NodeClass.variable.bit ||| NodeClass.method.bit
  resultMask := resultMaskReferenceTypeId ||| resultMaskNodeClass ||| resultMaskBrowseName

/-- `instanceFindAggregateByBrowsename` (`:251-285`); the null NodeId if there is none. The browse
returns everything at once and leaves no continuation point. -/
def instanceFindAggregateByBrowsename (sv : Server A) (searchInstance : NodeKey)
    (browseName : QualifiedName) : Except StatusCode NodeKey :=
  let br := (browse sv
    { childrenDescription searchInstance with
      resultMask := resultMaskNodeClass ||| resultMaskBrowseName } 0 0 (w.alloc sv.clock)).1
  if br.statusCode ≠ StatusCode.good then .error br.statusCode
  else
    match br.references.find? fun rd => rd.browseName == browseName with
    | none => .ok nullId
    | some rd => .ok rd.nodeId.nodeId

/-- `mandatoryChild` (`:287-308`). -/
def mandatoryChild (sv : Server A) (childNodeId : NodeKey) : Bool :=
  match sv.get childNodeId with
  | none => false
  | some child =>
      child.references.any fun ref =>
        ref.referenceTypeId == hasModellingRule && ref.targetId.nodeId == modellingRuleMandatory &&
          !ref.isInverse

/-- The copy of an instance declaration (`:363-390`): without NodeId and references, in the
namespace of its new parent. -/
def copyOfDeclaration (node : Node A) (destinationNodeId : NodeKey) : Node A :=
  { node with
    nodeId := { nullId with namespaceIndex := destinationNodeId.namespaceIndex }
    references := [] }

section Recursion

-- the recursive calls
variable (recur : Call → Server A → Outcome A)

/-- `copyChildNode` (`:322-398`). -/
def copyChildNode (sv : Server A) (destinationNodeId : NodeKey) (rd : ReferenceDescription) :
    Outcome A :=
  match instanceFindAggregateByBrowsename w sv destinationNodeId rd.browseName with
  | .error retval => some (sv.asked 1, retval, [])
  | .ok existingChild =>
      let sv := sv.asked 1
      if ¬ existingChild.isNull then
        -- try to deep-copy missing members
        if rd.nodeClass = .variable ∨ rd.nodeClass = .object then
          recur (.copyChildNodes rd.nodeId.nodeId existingChild) sv
        else some (sv, StatusCode.good, [])
      else if ¬ mandatoryChild sv rd.nodeId.nodeId then some (sv, StatusCode.good, [])
      else if rd.nodeClass = .method then
        let added := addReference w sv ⟨destinationNodeId, rd.referenceTypeId, true, [], rd.nodeId⟩
        some (added.1, added.2,
          if added.2 = StatusCode.good then [.linked destinationNodeId rd.nodeId.nodeId] else [])
      else if rd.nodeClass = .variable ∨ rd.nodeClass = .object then
        match if w.alloc sv.clock then sv.get rd.nodeId.nodeId else none with
        | none => some (sv.asked 1, StatusCode.badNodeIdInvalid, [])
        | some node =>
            match nodeStoreInsert (sv.asked 1) w (copyOfDeclaration node destinationNodeId) with
            | (sv, .error retval) => some (sv, retval, [])
            | (sv, .ok nodeId) =>
                match recur (.finish nodeId destinationNodeId rd.referenceTypeId
                  (getNodeType node)) sv with
                | none => none
                | some (sv, retval, effects) =>
                    some (sv, retval,
                      effects ++ if retval = StatusCode.good then [.completed nodeId] else [])
      else some (sv, StatusCode.good, [])

/-- The loop of `copyChildNodes` (`:420-425`); a failure does not end it. -/
def copyChildLoop (destinationNodeId : NodeKey) :
    List ReferenceDescription → Server A → StatusCode → Outcome A
  | [], sv, retval => some (sv, retval, [])
  | rd :: rds, sv, retval =>
      match copyChildNode w recur sv destinationNodeId rd with
      | none => none
      | some (sv, status, effects) =>
          match copyChildLoop destinationNodeId rds sv (retval ||| status) with
          | none => none
          | some (sv, retval, effects') => some (sv, retval, effects ++ effects')

/-- `copyChildNodes` (`:400-428`). -/
def copyChildNodes (sv : Server A) (sourceNodeId destinationNodeId : NodeKey) : Outcome A :=
  let br := (browse sv (childrenDescription sourceNodeId) 0 0 (w.alloc sv.clock)).1
  if br.statusCode ≠ StatusCode.good then some (sv.asked 1, br.statusCode, [])
  else copyChildLoop w recur destinationNodeId br.references (sv.asked 1) StatusCode.good

/-- The loop of `instantiateNode` over the type and its supertypes (`:466-469`). -/
def copyHierarchy (nodeId : NodeKey) : List NodeKey → Server A → StatusCode → Outcome A
  | [], sv, retval => some (sv, retval, [])
  | typeId :: hierarchy, sv, retval =>
      match copyChildNodes w recur sv typeId nodeId with
      | none => none
      | some (sv, status, effects) =>
          match copyHierarchy nodeId hierarchy sv (retval ||| status) with
          | none => none
          | some (sv, retval, effects') => some (sv, retval, effects ++ effects')

/-- `setObjectInstanceHandle` (`:242-249`), with the constructor of the type. -/
def setObjectInstanceHandle (clock : Nat) (typenode node : Node A) : Node A × StatusCode :=
  if node.nodeClass ≠ .object then (node, StatusCode.badNodeClassInvalid)
  else
    ({ node with attributes := w.construct clock typenode.attributes node.attributes },
      StatusCode.good)

/-- Whether a node can be the type of a node of the class (`:447-458`). -/
def usableType (nodeClass : NodeClass) (typenode : Node A) : Bool :=
  if nodeClass = .variable then typenode.nodeClass = .variableType ∧ ¬ typenode.isAbstract
  else typenode.nodeClass = .objectType ∧ ¬ typenode.isAbstract

/-- `instantiateNode` (`:430-498`). -/
def instantiateNode (sv : Server A) (nodeId : NodeKey) (nodeClass : NodeClass) (typeId : NodeKey) :
    Outcome A :=
  if nodeClass ≠ .variable ∧ nodeClass ≠ .object then some (sv, StatusCode.good, [])
  else
    match sv.get typeId with
    | none => some (sv, StatusCode.badTypeDefinitionInvalid, [])
    | some typenode =>
        if ¬ usableType nodeClass typenode then some (sv, StatusCode.badTypeDefinitionInvalid, [])
        else if ¬ w.alloc sv.clock then some (sv.asked 1, StatusCode.badOutOfMemory, [])
        else
          match copyHierarchy w recur nodeId (getTypeHierarchy sv typenode true) (sv.asked 1)
            StatusCode.good with
          | none => none
          | some (sv, retval, effects) =>
              if retval ≠ StatusCode.good then some (sv, retval, effects)
              else
                let sv :=
                  if typenode.nodeClass = .objectType then
                    (editNode (sv.asked 1) nodeId
                      (setObjectInstanceHandle w sv.clock typenode)).1
                  else sv
                let added :=
                  addReference w sv ⟨nodeId, hasTypeDefinition, true, [], .here typeId⟩
                some (added.1, added.2, effects)

/-- The type definition and the reference type that `Service_AddNode_finish` goes on with
(`:714-735`). -/
def finishArguments (nodeClass : NodeClass) (parentNodeId referenceTypeId typeDefinition :
    NodeKey) :
    NodeKey × NodeKey :=
  match nodeClass with
  | .variableType | .objectType | .referenceType | .dataType => (hasSubtype, parentNodeId)
  | .variable =>
      (referenceTypeId, if typeDefinition.isNull then baseDataVariableType else typeDefinition)
  | .object => (referenceTypeId, if typeDefinition.isNull then baseObjectType else typeDefinition)
  | _ => (referenceTypeId, typeDefinition)

/-- The last steps of `Service_AddNode_finish` (`:758-787`), for a node whose children are there. -/
def addParentReference (sv : Server A) (node : Node A)
    (parentNodeId referenceTypeId typeDefinition : NodeKey) : Server A × StatusCode :=
  let checked :=
    if node.nodeClass = .variable ∨ node.nodeClass = .variableType then
      typeCheckVariableNode w sv ((sv.get node.nodeId).getD node) typeDefinition
    else (sv, StatusCode.good)
  if checked.2 ≠ StatusCode.good then
    ((deleteNode checked.1 node.nodeId true).1, checked.2)
  else if parentNodeId.isNull then (checked.1, StatusCode.good)
  else
    let added :=
      addReference w checked.1 ⟨node.nodeId, referenceTypeId, false, [], .here parentNodeId⟩
    if added.2 ≠ StatusCode.good then ((deleteNode added.1 node.nodeId true).1, added.2) else added

/-- `Service_AddNode_finish` (`:704-791`); `fuel` is for the search up the reference types. -/
def addNodeFinish (fuel : Nat) (sv : Server A)
    (nodeId parentNodeId referenceTypeId typeDefinition : NodeKey) : Outcome A :=
  match sv.get nodeId with
  | none => some (sv, StatusCode.badNodeIdUnknown, [])
  | some node =>
      let arguments := finishArguments node.nodeClass parentNodeId referenceTypeId typeDefinition
      match checkParentReference fuel sv node.nodeClass parentNodeId arguments.1 with
      | none => none
      | some retval =>
          if retval ≠ StatusCode.good then some ((deleteNode sv nodeId true).1, retval, [])
          else
            match instantiateNode w recur sv nodeId node.nodeClass arguments.2 with
            | none => none
            | some (sv, retval, effects) =>
                if retval ≠ StatusCode.good then
                  some ((deleteNode sv nodeId true).1, retval, effects)
                else
                  let added := addParentReference w sv node parentNodeId arguments.1 arguments.2
                  some (added.1, added.2, effects)

end Recursion

/-- The recursion, as deep as the fuel lets it go. -/
def perform : Nat → Call → Server A → Outcome A
  | 0, _, _ => none
  | fuel + 1, .copyChildNodes source destination, sv =>
      copyChildNodes w (perform fuel) sv source destination
  | fuel + 1, .finish nodeId parentNodeId referenceTypeId typeDefinition, sv =>
      addNodeFinish w (perform fuel) fuel sv nodeId parentNodeId referenceTypeId typeDefinition

/-- `UA_AddNodesItem`. The attributes come decoded as those of one node class, or not at all. -/
structure AddNodesItem (A : Type) where
  parentNodeId : NodeKey
  referenceTypeId : NodeKey
  requestedNewNodeId : NodeKey
  browseName : QualifiedName
  nodeClass : NodeClass
  attributesOf : Option NodeClass
  displayName : LocalizedText
  isAbstract : Bool
  attributes : A
  typeDefinition : NodeKey

/-- `createNodeFromAttributes` (`:598-671`). -/
def createNodeFromAttributes (alloc : Bool) (item : AddNodesItem A) : Except StatusCode (Node A) :=
  match item.attributesOf with
  | none => .error StatusCode.badNodeAttributesInvalid
  | some nodeClass =>
      if ¬ alloc ∨ item.nodeClass = .unspecified then .error StatusCode.badOutOfMemory
      else if item.nodeClass = .method then .error StatusCode.badNodeClassInvalid
      else if nodeClass ≠ item.nodeClass then .error StatusCode.badNodeAttributesInvalid
      else
        .ok {
          nodeId := item.requestedNewNodeId
          nodeClass := item.nodeClass
          browseName := item.browseName
          displayName := item.displayName
          isAbstract := item.isAbstract
          attributes := item.attributes
          references := [] }

/-- `Service_AddNode_begin` (`:677-702`), with the NodeId of the new node. -/
def addNodeBegin (sv : Server A) (item : AddNodesItem A) : Server A × Except StatusCode NodeKey :=
  if item.requestedNewNodeId.namespaceIndex.toNat ≥ sv.namespacesSize then
    (sv, .error StatusCode.badNodeIdInvalid)
  else
    match createNodeFromAttributes (w.alloc sv.clock) item with
    | .error retval => (sv.asked 1, .error retval)
    | .ok node =>
        match nodeStoreInsert (sv.asked 1) w node with
        | (sv, .error retval) => (sv, .error retval)
        | (sv, .ok nodeId) =>
            if w.alloc sv.clock then (sv.asked 1, .ok nodeId)
            else ((deleteNode (sv.asked 1) nodeId true).1, .error StatusCode.badOutOfMemory)

/-- `Service_AddNodes_single` (`:793-811`). -/
def addNodesSingle (fuel : Nat) (sv : Server A) (item : AddNodesItem A) : Outcome A :=
  match addNodeBegin w sv item with
  | (sv, .error retval) => some (sv, retval, [])
  | (sv, .ok nodeId) =>
      perform w fuel (.finish nodeId item.parentNodeId item.referenceTypeId item.typeDefinition) sv

end FactoryThing.AddressSpace
