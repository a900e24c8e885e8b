import FactoryThing.Subscriptions.MonitoredItems
import FactoryThing.Variables.Attributes

/-!
# The Read service

`Service_Read` with all attributes of a node, and the value of a variable without and with an index
range (`src/server/ua_services_attribute.c:11-54`, `:471-533` and `:709-935`). The session is not
the one of the local administrator. What the access control plug-in, a data source and the
environment say is an argument.
-/

namespace FactoryThing.Variables

open AddressSpace Variants
open Subscriptions (ReadValueId attributeIdValue timestampsToReturnNeither binaryEncoding)

variable {α : Type}

/-! ## Nodes and what is read of them -/

/-- The attributes of a node beside those of every node. Only some are there for each class. -/
structure NodeAttributes (α : Type) extends VariableAttributes α where
  description : AddressSpace.LocalizedText
  writeMask : UInt32
  accessLevel : UInt8
  minimumSamplingInterval : UInt64
  historizing : Bool
  symmetric : Bool
  inverseName : AddressSpace.LocalizedText
  containsNoLoops : Bool
  eventNotifier : UInt8
  executable : Bool
  deriving DecidableEq

/-- The variant of a data value that has been read. The number of a Double is given by its bits. -/
inductive ReadVariant (α : Type) where
  | empty
  | value (v : UaVariant α)
  | nodeId (x : NodeKey)
  | nodeClass (x : NodeClass)
  | qualifiedName (x : AddressSpace.QualifiedName)
  | localizedText (x : AddressSpace.LocalizedText)
  | uint32 (x : UInt32)
  | int32 (x : Int)
  | byte (x : UInt8)
  | boolean (x : Bool)
  | double (x : UInt64)
  | uint32Array (xs : List UInt32)
  deriving DecidableEq

/-- A `UA_DataValue` that has been read, without the flags of `Subscriptions.DataValue`. -/
structure ReadContent (α : Type) where
  value : ReadVariant α
  hasStatus : Bool
  status : StatusCode
  sourceTimestamp : UInt64
  sourcePicoseconds : UInt16
  serverTimestamp : UInt64
  serverPicoseconds : UInt16
  deriving DecidableEq

instance : Inhabited (ReadContent α) := ⟨⟨.empty, false, StatusCode.good, 0, 0, 0, 0⟩⟩

/-- What the Read service returns for one ReadValueId. -/
abbrev ReadResult (α : Type) := Subscriptions.DataValue (ReadContent α)

/-- A result with a variant in it, borrowed from the node or not. -/
def ReadResult.ofVariant (value : ReadVariant α) (noDelete : Bool) : ReadResult α :=
  ⟨false, false, false, false, false, noDelete, { (default : ReadContent α) with value := value }⟩

def ReadResult.ofStatus (status : StatusCode) : ReadResult α :=
  ⟨false, false, false, false, false, false,
    { (default : ReadContent α) with hasStatus := true, status := status }⟩

/-- A result with the status of an error. -/
def ReadResult.withStatus (v : ReadResult α) (status : StatusCode) : ReadResult α :=
  { v with content := { v.content with hasStatus := true, status := status } }

/-- A data value of a node or of a data source as a result. -/
def ReadResult.ofDataValue (v : DataValue α) (noDelete : Bool) : ReadResult α where
  hasValue := v.hasValue
  hasServerTimestamp := v.hasServerTimestamp
  hasServerPicoseconds := v.hasServerPicoseconds
  hasSourceTimestamp := v.hasSourceTimestamp
  hasSourcePicoseconds := v.hasSourcePicoseconds
  noDelete := noDelete
  content :=
    { value := .value v.value
      hasStatus := v.hasStatus
      status := v.status
      sourceTimestamp := v.sourceTimestamp
      sourcePicoseconds := v.sourcePicoseconds
      serverTimestamp := v.serverTimestamp
      serverPicoseconds := v.serverPicoseconds }

/-- The access control plug-in for the session that reads (`include/ua_server.h:89-104`). -/
structure AccessControl where
  getUserRightsMask : NodeKey → UInt32
  getUserAccessLevel : NodeKey → UInt8
  getUserExecutable : NodeKey → Bool

/-- What the environment answers to one read: the memory for a copy of a range, how deep Variants
may be nested there, the data sources, the two times that may be asked for, and whether a scalar can
be copied. -/
structure ReadEnv (α : Type) where
  elements : Elements α
  depth : Nat
  readSource : NodeKey → Bool → Option NumericRange → Option (StatusCode × DataValue α × Bool)
  serverNow : UInt64
  sourceNow : UInt64
  scalarCopied : Bool

variable (access : AccessControl) (env : ReadEnv α) (sv : Server (NodeAttributes α))

/-- `getUserWriteMask` (`:22-30`). -/
def getUserWriteMask (node : Node (NodeAttributes α)) : UInt32 :=
  node.attributes.writeMask &&& access.getUserRightsMask node.nodeId

/-- `getUserAccessLevel` (`:32-41`). -/
def getUserAccessLevel (node : Node (NodeAttributes α)) : UInt8 :=
  node.attributes.accessLevel &&& access.getUserAccessLevel node.nodeId

/-- `getUserExecutable` (`:43-52`). -/
def getUserExecutable (node : Node (NodeAttributes α)) : Bool :=
  node.attributes.executable && access.getUserExecutable node.nodeId

def accessLevelMaskRead : UInt8 := 0x01

/-- `UA_TIMESTAMPSTORETURN_SOURCE`, `_SERVER` and `_BOTH`. -/
def timestampsToReturnSource : UInt32 := 0
def timestampsToReturnServer : UInt32 := 1
def timestampsToReturnBoth : UInt32 := 2

/-- `readValueAttributeFromNode` (`:471-489`) where no callback is set. -/
def readValueAttributeFromNode (value : DataValue α) (range : Option NumericRange) :
    RangeM (StatusCode × ReadResult α) :=
  match range with
  | some range => do
    match ← variantCopyRange env.elements env.depth value.value range with
    | (retval, .holds copied) => return (retval, .ofVariant (.value copied) false)
    | (retval, _) => return (retval, .ofVariant .empty false)
  | none => return (StatusCode.good, .ofDataValue value true)

/-- `readValueAttributeFromDataSource` (`:491-505`). -/
def readValueAttributeFromDataSource (nodeId : NodeKey) (timestamps : UInt32)
    (range : Option NumericRange) : StatusCode × ReadResult α :=
  let sourceTimeStamp :=
    timestamps == timestampsToReturnSource || timestamps == timestampsToReturnBoth
  match env.readSource nodeId sourceTimeStamp range with
  | none => (StatusCode.badInternalError, .ofVariant .empty false)
  | some (retval, value, noDelete) => (retval, .ofDataValue value noDelete)

/-- The index range of a read (`:511-521`); without one all is read. -/
def parseReadRange (indexRange : List UInt8) : RangeM (Except StatusCode (Option NumericRange)) :=
  if indexRange.length > 0 then do
    match ← numericRangeParseFromString env.elements (.mem indexRange) with
    | .error retval => return .error retval
    | .ok range => return .ok (some range)
  else return .ok none

/-- `readValueAttributeComplete` (`:507-533`). -/
def readValueAttributeComplete (node : Node (NodeAttributes α)) (timestamps : UInt32)
    (indexRange : List UInt8) : RangeM (StatusCode × ReadResult α) := do
  match ← parseReadRange env indexRange with
  | .error retval => return (retval, .ofVariant .empty false)
  | .ok range =>
    match node.attributes.value with
    | .data value => readValueAttributeFromNode env value range
    | .dataSource => return readValueAttributeFromDataSource env node.nodeId timestamps range

/-- An attribute that nodes of some classes have, borrowed from the node. -/
def readBorrowed (node : Node (NodeAttributes α)) (classes : List NodeClass) (x : ReadVariant α) :
    StatusCode × ReadResult α :=
  if node.nodeClass ∈ classes then (StatusCode.good, .ofVariant x true)
  else (StatusCode.badAttributeIdInvalid, .ofVariant .empty false)

/-- An attribute that is computed for the session and copied. Whether it could be is not checked. -/
def readComputed (node : Node (NodeAttributes α)) (classes : List NodeClass) (x : ReadVariant α) :
    StatusCode × ReadResult α :=
  if node.nodeClass ∈ classes then
    (StatusCode.good, .ofVariant (if env.scalarCopied then x else .empty) false)
  else (StatusCode.badAttributeIdInvalid, .ofVariant .empty false)

def everyClass : List NodeClass :=
  [.unspecified, .object, .variable, .method, .objectType, .variableType, .referenceType,
    .dataType, .view]

/-- The attributes other than the value (`:753-845`), by their number. -/
def readOtherAttribute (node : Node (NodeAttributes α)) (attributeId : UInt32) :
    StatusCode × ReadResult α :=
  match attributeId.toNat with
  | 1 => readBorrowed node everyClass (.nodeId node.nodeId)
  | 2 => readBorrowed node everyClass (.nodeClass node.nodeClass)
  | 3 => readBorrowed node everyClass (.qualifiedName node.browseName)
  | 4 => readBorrowed node everyClass (.localizedText node.displayName)
  | 5 => readBorrowed node everyClass (.localizedText node.attributes.description)
  | 6 => readBorrowed node everyClass (.uint32 node.attributes.writeMask)
  | 7 => readComputed env node everyClass (.uint32 (getUserWriteMask access node))
  | 8 => readBorrowed node [.referenceType, .objectType, .variableType, .dataType]
      (.boolean node.isAbstract)
  | 9 => readBorrowed node [.referenceType] (.boolean node.attributes.symmetric)
  | 10 => readBorrowed node [.referenceType] (.localizedText node.attributes.inverseName)
  | 11 => readBorrowed node [.view] (.boolean node.attributes.containsNoLoops)
  | 12 => readBorrowed node [.view, .object] (.byte node.attributes.eventNotifier)
  | 14 => readBorrowed node [.variable, .variableType] (.nodeId node.attributes.dataType)
  | 15 => readBorrowed node [.variable, .variableType] (.int32 node.attributes.valueRank)
  | 16 => readBorrowed node [.variable, .variableType]
      (.uint32Array node.attributes.arrayDimensions)
  | 17 => readBorrowed node [.variable] (.byte node.attributes.accessLevel)
  | 18 => readComputed env node [.variable] (.byte (getUserAccessLevel access node))
  | 19 => readBorrowed node [.variable] (.double node.attributes.minimumSamplingInterval)
  | 20 => readBorrowed node [.variable] (.boolean node.attributes.historizing)
  | 21 => readBorrowed node [.method] (.boolean node.attributes.executable)
  | 22 => readComputed env node [.method] (.boolean (getUserExecutable access node))
  | _ => (StatusCode.badAttributeIdInvalid, .ofVariant .empty false)

/-- The switch over the attributes (`:752-848`). -/
def readAttribute (node : Node (NodeAttributes α)) (timestamps : UInt32) (id : ReadValueId) :
    RangeM (StatusCode × ReadResult α) :=
  if id.attributeId = attributeIdValue then
    if node.nodeClass ∈ [.variable, .variableType] then
      readValueAttributeComplete env node timestamps id.indexRange
    else return (StatusCode.badAttributeIdInvalid, .ofVariant .empty false)
  else return readOtherAttribute access env node id.attributeId

/-- The timestamps of a result (`:860-877`). -/
def withTimestamps (timestamps attributeId : UInt32) (v : ReadResult α) : ReadResult α :=
  let v :=
    if timestamps = timestampsToReturnServer ∨ timestamps = timestampsToReturnBoth then
      { v with
        hasServerTimestamp := true
        content := { v.content with serverTimestamp := env.serverNow } }
    else v
  if attributeId ≠ attributeIdValue then v
  else if timestamps = timestampsToReturnServer ∨ timestamps = timestampsToReturnNeither then
    { v with hasSourceTimestamp := false, hasSourcePicoseconds := false }
  else if ¬ v.hasSourceTimestamp then
    { v with
      hasSourceTimestamp := true
      content := { v.content with sourceTimestamp := env.sourceNow } }
  else v

/-- `Service_Read_single` (`:721-878`). -/
def serviceReadSingle (timestamps : UInt32) (id : ReadValueId) : RangeM (ReadResult α) :=
  if id.dataEncoding.name.length > 0 ∧ id.dataEncoding.name ≠ binaryEncoding then
    return .ofStatus StatusCode.badDataEncodingUnsupported
  else if id.indexRange.length > 0 ∧ id.attributeId ≠ attributeIdValue then
    return .ofStatus StatusCode.badIndexRangeNoData
  else
    match sv.get id.nodeId with
    | none => return .ofStatus StatusCode.badNodeIdUnknown
    | some node => do
      let (retval, v) ← readAttribute access env node timestamps id
      if retval ≠ StatusCode.good then return v.withStatus retval
      else return withTimestamps env timestamps id.attributeId { v with hasValue := true }

/-- One read, from the first answer of its environment on. -/
def readOnce (timestamps : UInt32) (id : ReadValueId) : Except RangeFault (ReadResult α) :=
  (serviceReadSingle access env sv timestamps id).run' 0

/-- `UA_ReadRequest` with the answers to each of its reads. The maximal age is only compared with
zero. -/
structure ReadRequest (α : Type) where
  timestampsToReturn : UInt32
  negativeMaxAge : Bool
  nodesToRead : List (ReadValueId × ReadEnv α)

/-- What `Service_Read` checks before it reads (`:883-905`); `alloc` tells whether there is memory
for the results. -/
def readStatus (request : ReadRequest α) (alloc : Bool) : StatusCode :=
  if request.nodesToRead.length = 0 then StatusCode.badNothingToDo
  else if request.timestampsToReturn > timestampsToReturnNeither then
    StatusCode.badTimestampsToReturnInvalid
  else if ¬ alloc then StatusCode.badOutOfMemory
  else if request.negativeMaxAge then StatusCode.badMaxAgeInvalid
  else StatusCode.good

/-- The loop of `Service_Read` (`:929-935`). -/
def readAll (timestamps : UInt32) :
    List (ReadValueId × ReadEnv α) → Except RangeFault (List (ReadResult α))
  | [] => .ok []
  | (id, env) :: ids =>
      match readOnce access env sv timestamps id with
      | .error fault => .error fault
      | .ok v => (readAll timestamps ids).map (v :: ·)

end FactoryThing.Variables
