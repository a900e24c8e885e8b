import FactoryThing.AddressSpace.Hierarchy

/-!
# Browsing a node

One BrowseDescription, from a continuation index on (`src/server/ua_services_view.c:9-294`). What
depends on the session, the continuation points, comes on top of it.
-/

namespace FactoryThing.AddressSpace

variable {A : Type}

/-- `UA_BrowseDescription`. The direction is an enumeration that the client may give any value. -/
structure BrowseDescription where
  nodeId : NodeKey
  browseDirection : Int
  referenceTypeId : NodeKey
  includeSubtypes : Bool
  nodeClassMask : UInt32
  resultMask : UInt32
  deriving DecidableEq

/-! `UA_BrowseDirection` and `UA_BrowseResultMask`. -/

def browseDirectionForward : Int := 0
def browseDirectionInverse : Int := 1
def browseDirectionBoth : Int := 2

def resultMaskReferenceTypeId : UInt32 := 1
def resultMaskIsForward : UInt32 := 2
def resultMaskNodeClass : UInt32 := 4
def resultMaskBrowseName : UInt32 := 8
def resultMaskDisplayName : UInt32 := 16
def resultMaskTypeDefinition : UInt32 := 32

/-- `UA_ReferenceDescription`. -/
structure ReferenceDescription where
  referenceTypeId : NodeKey
  isForward : Bool
  nodeId : ExpandedNodeId
  browseName : QualifiedName
  displayName : LocalizedText
  nodeClass : NodeClass
  typeDefinition : ExpandedNodeId
  deriving DecidableEq

/-- `UA_ReferenceDescription_init`. -/
def ReferenceDescription.init : ReferenceDescription where
  referenceTypeId := nullId
  isForward := false
  nodeId := .here nullId
  browseName := ⟨0, []⟩
  displayName := ⟨[], []⟩
  nodeClass := .unspecified
  typeDefinition := .here nullId

/-- `fillReferenceDescription` (`:9-38`), given the memory for it. The type definition is looked for
by the number of the reference type alone. -/
def fillReferenceDescription (curr : Node A) (ref : ReferenceNode) (mask : UInt32) :
    ReferenceDescription :=
  let has (bit : UInt32) : Bool := mask &&& bit ≠ 0
  { referenceTypeId :=
      if has resultMaskReferenceTypeId then ref.referenceTypeId
      else ReferenceDescription.init.referenceTypeId
    isForward := if has resultMaskIsForward then !ref.isInverse else false
    nodeId := .here curr.nodeId
    browseName :=
      if has resultMaskBrowseName then curr.browseName else ReferenceDescription.init.browseName
    displayName :=
      if has resultMaskDisplayName then curr.displayName else ReferenceDescription.init.displayName
    nodeClass :=
      if has resultMaskNodeClass then curr.nodeClass else ReferenceDescription.init.nodeClass
    typeDefinition :=
      if has resultMaskTypeDefinition ∧ (curr.nodeClass = .object ∨ curr.nodeClass = .variable) then
        match curr.references.find? fun refnode =>
          refnode.referenceTypeId.identifier == hasTypeDefinition.identifier with
        | none => ReferenceDescription.init.typeDefinition
        | some refnode => refnode.targetId
      else ReferenceDescription.init.typeDefinition }

/-- `returnRelevantNode` (`:90-131`); `relevant` is `none` where all references are. -/
def returnRelevantNode (sv : Server A) (descr : BrowseDescription)
    (relevant : Option (List NodeKey))
    (reference : ReferenceNode) : Option (Node A) :=
  if reference.isInverse ∧ descr.browseDirection = browseDirectionForward then none
  else if ¬ reference.isInverse ∧ descr.browseDirection = browseDirectionInverse then none
  else if relevant.any (reference.referenceTypeId ∉ ·) then none
  else
    match sv.get reference.targetId.nodeId with
    | none => none
    | some node =>
        if descr.nodeClassMask ≠ 0 ∧ node.nodeClass.bit &&& descr.nodeClassMask = 0 then none
        else some node

/-- Where the loop of `browseRelevantReferences` stands (`:173-175`); the references copied so far
come first. -/
structure BrowseLoop where
  skipped : Nat
  references : List ReferenceDescription
  i : Nat
  deriving DecidableEq

/-- The loop of `browseRelevantReferences` (`:176-195`). -/
def browseLoop (sv : Server A) (descr : BrowseDescription) (relevant : Option (List NodeKey))
    (maxrefs continuationIndex : Nat) : List ReferenceNode → BrowseLoop → BrowseLoop
  | [], loop => loop
  | ref :: refs, loop =>
      if ¬ loop.references.length < maxrefs then loop
      else
        match returnRelevantNode sv descr relevant ref with
        | none =>
            browseLoop sv descr relevant maxrefs continuationIndex refs
              { loop with i := loop.i + 1 }
        | some current =>
            browseLoop sv descr relevant maxrefs continuationIndex refs <|
              if loop.skipped < continuationIndex then
                { loop with skipped := loop.skipped + 1, i := loop.i + 1 }
              else
                { loop with
                  references :=
                    loop.references ++ [fillReferenceDescription current ref descr.resultMask]
                  i := loop.i + 1 }

/-- The part of `UA_BrowseResult` that the references are in. -/
structure BrowseResult where
  statusCode : StatusCode
  references : List ReferenceDescription
  deriving DecidableEq

/-- `browseRelevantReferences` (`:141-219`), with whether it is done with the node; `alloc` tells
whether there is memory for the results. -/
def browseRelevantReferences (sv : Server A) (relevant : Option (List NodeKey))
    (descr : BrowseDescription) (maxReferences continuationIndex : UInt32) (alloc : Bool) :
    BrowseResult × Bool :=
  match sv.get descr.nodeId with
  | none => (⟨StatusCode.badNodeIdUnknown, []⟩, true)
  | some node =>
      if node.references.length = 0 then (⟨StatusCode.good, []⟩, true)
      else
        let maxrefs :=
          if maxReferences = 0 then node.references.length
          else if maxReferences.toNat > node.references.length then node.references.length
          else maxReferences.toNat
        if ¬ alloc then (⟨StatusCode.badOutOfMemory, []⟩, false)
        else
          let loop := browseLoop sv descr relevant maxrefs continuationIndex.toNat node.references
            ⟨0, [], 0⟩
          (⟨StatusCode.good, loop.references⟩, loop.i = node.references.length)

/-- `Service_Browse_single` up to where it returns early (`:233-294`). -/
def browse (sv : Server A) (descr : BrowseDescription) (maxReferences continuationIndex : UInt32)
    (alloc : Bool) : BrowseResult × Bool :=
  if descr.browseDirection ≠ browseDirectionBoth ∧ descr.browseDirection ≠ browseDirectionForward ∧
      descr.browseDirection ≠ browseDirectionInverse then
    (⟨StatusCode.badBrowseDirectionInvalid, []⟩, false)
  else if descr.referenceTypeId.isNull then
    browseRelevantReferences sv none descr maxReferences continuationIndex alloc
  else
    match sv.get descr.referenceTypeId with
    | none => (⟨StatusCode.badReferenceTypeIdInvalid, []⟩, false)
    | some rootRef =>
        if rootRef.nodeClass ≠ .referenceType then
          (⟨StatusCode.badReferenceTypeIdInvalid, []⟩, false)
        else if descr.includeSubtypes ∧ ¬ alloc then (⟨StatusCode.badOutOfMemory, []⟩, false)
        else
          let reftypes :=
            if descr.includeSubtypes then getTypeHierarchy sv rootRef false
            else [descr.referenceTypeId]
          browseRelevantReferences sv (some reftypes) descr maxReferences continuationIndex alloc

end FactoryThing.AddressSpace
