import FactoryThing.AddressSpace.Hierarchy

/-!
# Browse paths

`translateBrowsePathToNodeIds` (`src/server/ua_services_view.c:445-733`) where every allocation
succeeds. The walk keeps the NodeIds it has come to in two arrays that change places, and writes the
targets into a third one; each write is checked against the length that has been allocated. The
arrays of a request are decoded with fewer than 2^31 elements, so the index of an element does not
wrap around.
-/

namespace FactoryThing.AddressSpace

variable {A : Type}

/-- `UA_RelativePathElement`. -/
structure RelativePathElement where
  referenceTypeId : NodeKey
  isInverse : Bool
  includeSubtypes : Bool
  targetName : QualifiedName
  deriving DecidableEq

/-- `UA_BrowsePath` with the elements of its relative path. -/
structure BrowsePath where
  startingNode : NodeKey
  elements : List RelativePathElement
  deriving DecidableEq

structure BrowsePathTarget where
  targetId : ExpandedNodeId
  remainingPathIndex : UInt32
  deriving DecidableEq

/-- `UA_BrowsePathResult`. The array of the targets has a cell for each target there is memory
for. -/
structure BrowsePathResult where
  statusCode : StatusCode
  targets : List (Option BrowsePathTarget)
  targetsSize : Nat
  deriving DecidableEq

/-- `UA_realloc` of the targets. -/
def BrowsePathResult.realloc (result : BrowsePathResult) (n : Nat) : BrowsePathResult :=
  { result with
    targets := result.targets.take n ++ List.replicate (n - result.targets.length) none }

/-- A write to the cell behind the targets that have been counted. -/
def BrowsePathResult.write (result : BrowsePathResult) (target : BrowsePathTarget) :
    Except Fault BrowsePathResult :=
  if result.targetsSize < result.targets.length then
    .ok { result with targets := result.targets.set result.targetsSize (some target) }
  else .error .outOfBounds

def BrowsePathResult.reported (result : BrowsePathResult) : List BrowsePathTarget :=
  (result.targets.take result.targetsSize).filterMap id

/-- `current` or `next`: how many NodeIds there is memory for, and those that are there. -/
structure NodeIdArray where
  size : Nat
  ids : List NodeKey
  deriving DecidableEq

/-- A NodeId is added to `next` (`:489-501`). -/
def NodeIdArray.push (next : NodeIdArray) (nodeId : NodeKey) : Except Fault NodeIdArray :=
  let size := if next.size ≤ next.ids.length then next.size * 2 else next.size
  if next.ids.length < size then .ok ⟨size, next.ids ++ [nodeId]⟩ else .error .outOfBounds

/-- What the walk over the references of one path element changes. `targetsSize` is what the program
takes for the length of the targets. -/
structure Walk where
  result : BrowsePathResult
  targetsSize : Nat
  next : NodeIdArray
  deriving DecidableEq

variable (sv : Server A)

/-- `walkBrowsePathElementNodeReference` (`:449-502`); `reftypes` is `none` for all references. -/
def walkBrowsePathElementNodeReference (elemDepth : Nat) (inverse : Bool)
    (reftypes : Option (List NodeKey)) (reference : ReferenceNode) (w : Walk) : Except Fault Walk :=
  if reference.isInverse ≠ inverse then .ok w
  else if (reftypes.map fun types => decide (reference.referenceTypeId ∈ types)) = some false then
    .ok w
  else if reference.targetId.serverIndex ≠ 0 then
    -- the target is written, but not counted
    let targetsSize := w.targetsSize * 2
    match (w.result.realloc targetsSize).write ⟨reference.targetId, UInt32.ofNat elemDepth⟩ with
    | .error fault => .error fault
    | .ok result =>
        .ok { w with
          result := { result with statusCode := StatusCode.good }, targetsSize := targetsSize }
  else
    match w.next.push reference.targetId.nodeId with
    | .error fault => .error fault
    | .ok next =>
        .ok { w with
          result := { w.result with statusCode := StatusCode.good }, next := next }

/-- The loop over the references of a node (`:548-554`). -/
def walkReferences (elemDepth : Nat) (inverse : Bool) (reftypes : Option (List NodeKey)) :
    List ReferenceNode → Walk → Except Fault Walk
  | [], w => .ok w
  | reference :: references, w =>
      if w.result.statusCode ≠ StatusCode.good then .ok w
      else
        match walkBrowsePathElementNodeReference elemDepth inverse reftypes reference w with
        | .error fault => .error fault
        | .ok w => walkReferences elemDepth inverse reftypes references w

/-- Whether the node is named as the previous path element asks for. -/
def isNamed (targetName : Option QualifiedName) (node : Node A) : Bool :=
  match targetName with
  | none => true
  | some name => name == node.browseName

/-- The loop over the nodes at the current depth (`:530-555`). -/
def walkNodes (elemDepth : Nat) (inverse : Bool) (reftypes : Option (List NodeKey))
    (targetName : Option QualifiedName) : List NodeKey → Walk → Except Fault Walk
  | [], w => .ok w
  | nodeId :: current, w =>
      match sv.get nodeId with
      | none =>
          walkNodes elemDepth inverse reftypes targetName current
            (if elemDepth = 0 then
              { w with result := { w.result with statusCode := StatusCode.badNodeIdUnknown } }
            else w)
      | some node =>
          if ¬ isNamed targetName node then
            walkNodes elemDepth inverse reftypes targetName current w
          else
            match walkReferences elemDepth inverse reftypes node.references w with
            | .error fault => .error fault
            | .ok w => walkNodes elemDepth inverse reftypes targetName current w

/-- The reference types of a path element (`:512-527`): `none` if the element is given up, otherwise
all of them or a list. -/
def elementTypes (elem : RelativePathElement) : Option (Option (List NodeKey)) :=
  if elem.referenceTypeId.isNull then some none
  else if ¬ elem.includeSubtypes then some (some [elem.referenceTypeId])
  else
    match sv.get elem.referenceTypeId with
    | none => none
    | some rootRef =>
        if rootRef.nodeClass ≠ .referenceType then none
        else some (some (getTypeHierarchy sv rootRef false))

/-- `walkBrowsePathElement` (`:504-559`). -/
def walkBrowsePathElement (elem : RelativePathElement) (elemDepth : Nat)
    (targetName : Option QualifiedName) (current : List NodeKey) (w : Walk) : Except Fault Walk :=
  match elementTypes sv elem with
  | none => .ok w
  | some reftypes => walkNodes sv elemDepth elem.isInverse reftypes targetName current w

/-- `addBrowsePathTargets` (`:562-587`). -/
def addBrowsePathTargets (targetName : QualifiedName) :
    List NodeKey → BrowsePathResult → Except Fault BrowsePathResult
  | [], result => .ok result
  | nodeId :: current, result =>
      match sv.get nodeId with
      | none => addBrowsePathTargets targetName current result
      | some node =>
          if ¬ isNamed (some targetName) node then addBrowsePathTargets targetName current result
          else
            match result.write ⟨.here nodeId, 0xFFFFFFFF⟩ with
            | .error fault => .error fault
            | .ok result =>
                addBrowsePathTargets targetName current
                  { result with targetsSize := result.targetsSize + 1 }

/-- `walkBrowsePath` (`:589-653`) from the path element `i` on. -/
def walkBrowsePath : Nat → Option QualifiedName → List RelativePathElement → NodeIdArray → Walk →
    Except Fault BrowsePathResult
  | _, none, [], _, _ => .error .nullDeref
  | _, some targetName, [], current, w =>
      let needed := w.result.targetsSize + current.ids.length
      let result := if w.targetsSize < needed then w.result.realloc needed else w.result
      addBrowsePathTargets sv targetName current.ids result
  | i, targetName, elem :: elements, current, w =>
      match walkBrowsePathElement sv elem i targetName current.ids w with
      | .error fault => .error fault
      | .ok w =>
          if w.next.ids.length = 0 ∨ w.result.statusCode ≠ StatusCode.good then .ok w.result
          else
            -- exchange current and next for the next depth
            walkBrowsePath (i + 1) (some elem.targetName) elements w.next
              { w with next := ⟨current.size, []⟩ }

def QualifiedName.isNull (q : QualifiedName) : Bool := q.namespaceIndex == 0 && q.name.length == 0

/-- The end of `translateBrowsePathToNodeIds` (`:719-732`). -/
def finishResult (result : BrowsePathResult) : BrowsePathResult :=
  let statusCode :=
    if result.targetsSize = 0 ∧ result.statusCode = StatusCode.good then StatusCode.badNoMatch
    else result.statusCode
  if statusCode ≠ StatusCode.good then ⟨statusCode, [],
    0⟩ else { result with statusCode := statusCode }

/-- `translateBrowsePathToNodeIds` (`:655-733`). -/
def translateBrowsePathToNodeIds (path : BrowsePath) : Except Fault BrowsePathResult :=
  if path.elements.length = 0 then .ok ⟨StatusCode.badNothingToDo, [], 0⟩
  else if path.elements.any fun elem => elem.targetName.isNull then
    .ok ⟨StatusCode.badBrowseNameInvalid, [], 0⟩
  else
    let w : Walk := ⟨⟨StatusCode.good, List.replicate 10 none, 0⟩, 10, ⟨10, []⟩⟩
    (walkBrowsePath sv 0 none path.elements ⟨10, [path.startingNode]⟩ w).map finishResult

end FactoryThing.AddressSpace
