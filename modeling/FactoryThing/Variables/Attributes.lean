import FactoryThing.AddressSpace.Hierarchy
import FactoryThing.Variants.RangeParser

/-!
# The value of a variable and its constraints

The attributes Value, DataType, ValueRank and ArrayDimensions of variables and variable types, and
the functions that write them (`src/server/ua_services_attribute.c:58-658`). Every writer checks the
attribute it writes against the others. A writer works on the node in place; what it finds outside
of the node is the server and the answers of the environment.
-/

namespace FactoryThing.Variables

open AddressSpace Variants

/-- `UA_DataValue`: a field is there whether or not its `hasX` bit is set. -/
structure DataValue (α : Type) where
  hasValue : Bool
  value : UaVariant α
  hasStatus : Bool
  status : StatusCode
  hasSourceTimestamp : Bool
  sourceTimestamp : UInt64
  hasSourcePicoseconds : Bool
  sourcePicoseconds : UInt16
  hasServerTimestamp : Bool
  serverTimestamp : UInt64
  hasServerPicoseconds : Bool
  serverPicoseconds : UInt16
  deriving DecidableEq

/-- `UA_DataValue_init`. -/
def emptyDataValue {α : Type} : DataValue α :=
  ⟨false, emptyVariant, false, 0, false, 0, false, 0, false, 0, false, 0⟩

/-- `valueSource` with `value` of a variable (`src/server/ua_nodes.h:112-131`). -/
inductive ValueSource (α : Type) where
  | data (value : DataValue α)
  | dataSource
  deriving DecidableEq

/-- `UA_NODE_VARIABLEATTRIBUTES` (`src/server/ua_nodes.h:119-134`). -/
structure VariableAttributes (α : Type) where
  dataType : NodeKey
  valueRank : Int
  arrayDimensions : List UInt32
  value : ValueSource α
  deriving DecidableEq

abbrev VariableNode (α : Type) := Node (VariableAttributes α)

/-- What the writers find outside of the node: the type descriptions of `UA_TYPES`, all of
namespace 0, how deep a search of the type hierarchy may go, and the answers to the calls of the
environment by their number. A data source may lack a function (`none`). -/
structure Outside (α : Type) where
  types : List TypeDescription
  types_namespace : ∀ type ∈ types, type.typeId.namespaceIndex = 0
  depth : Nat
  elements : Elements α
  readSource : Nat → Option (StatusCode × DataValue α)
  writeSource : Nat → Option StatusCode
  copyAttribute : Nat → StatusCode
  now : Nat → UInt64

variable {α : Type} (w : Outside α) (sv : Server (VariableAttributes α))

def answer {β : Type} (answers : Nat → β) : RangeM β := do
  let n ← get
  set (n + 1)
  return answers n

def typeKey (type : TypeDescription) : NodeKey := NodeKey.ofNodeId type.typeId

/-- `UA_TYPES[UA_TYPES_VARIANT].typeId`, BaseDataType. -/
def baseDataType : NodeKey := typeKey (builtinType .variant)

/-- `enum type_equivalence` (`:58-62`). -/
inductive TypeEquivalence where
  | none
  | enumeration
  | opaqueType
  deriving DecidableEq

/-- `typeEquivalence` (`:64-73`). -/
def typeEquivalence (t : TypeDescription) : TypeEquivalence :=
  match t.members with
  | [m] =>
    if m.namespaceZero = false then .none
    else if m.memberTypeIndex = Builtin.int32.ctorIdx then .enumeration
    else if m.memberTypeIndex = Builtin.byte.ctorIdx ∧ m.isArray then .opaqueType
    else .none
  | _ => .none

/-- `compatibleDataType` (`:75-93`). -/
def compatibleDataType (dataType constraintDataType : NodeKey) : RangeM Bool :=
  -- do not allow empty datatypes
  if dataType.isNull then return false
  -- no constraint
  else if constraintDataType.isNull then return true
  -- Variant allows any subtype
  else if constraintDataType = baseDataType then return true
  else
    match isNodeInTree sv constraintDataType [hasSubtype] w.depth dataType with
    | none => throw RangeFault.diverges
    | some found => return found

/-- `compatibleValueRankArrayDimensions` (`:97-123`). Zero array dimensions indicate a scalar. -/
def compatibleValueRankArrayDimensions (valueRank : Int) (arrayDimensionsSize : Nat) :
    StatusCode :=
  -- the value can be a scalar or a one dimensional array
  if valueRank = -3 then
    if arrayDimensionsSize > 1 then StatusCode.badTypeMismatch else StatusCode.good
  -- the value can be a scalar or an array with any number of dimensions
  else if valueRank = -2 then StatusCode.good
  -- the value is a scalar
  else if valueRank = -1 then
    if arrayDimensionsSize > 0 then StatusCode.badTypeMismatch else StatusCode.good
  -- the value is an array with one or more dimensions
  else if valueRank = 0 then
    if arrayDimensionsSize < 1 then StatusCode.badTypeMismatch else StatusCode.good
  else if valueRank < 0 then StatusCode.badTypeMismatch
  -- the value is an array with the specified number of dimensions
  else if arrayDimensionsSize ≠ valueRank.toNat then StatusCode.badTypeMismatch
  else StatusCode.good

/-- `compatibleValueRanks` (`:125-149`). -/
def compatibleValueRanks (valueRank constraintValueRank : Int) : StatusCode :=
  if constraintValueRank = -3 then
    if valueRank ≠ -1 ∧ valueRank ≠ 1 then StatusCode.badTypeMismatch else StatusCode.good
  else if constraintValueRank = -2 then StatusCode.good
  else if constraintValueRank = -1 then
    if valueRank ≠ -1 then StatusCode.badTypeMismatch else StatusCode.good
  else if constraintValueRank = 0 then
    if valueRank < 0 then StatusCode.badTypeMismatch else StatusCode.good
  else if valueRank ≠ constraintValueRank then StatusCode.badTypeMismatch
  else StatusCode.good

/-- `compatibleValueRankValue` (`:152-162`). -/
def compatibleValueRankValue (valueRank : Int) (value : UaVariant α) : StatusCode :=
  match value.data with
  -- empty arrays (-1) always match
  | .null => StatusCode.good
  | data =>
    -- array but no arraydimensions -> implicit array dimension 1
    compatibleValueRankArrayDimensions valueRank
      (if data.isScalar then value.arrayDimensions.length else 1)

/-- `compatibleArrayDimensions` (`:164-184`). -/
def compatibleArrayDimensions (constraintArrayDimensions testArrayDimensions : List UInt32) :
    StatusCode :=
  if constraintArrayDimensions.length = 0 then StatusCode.good
  else if testArrayDimensions.length ≠ constraintArrayDimensions.length then
    StatusCode.badTypeMismatch
  else if (constraintArrayDimensions.zip testArrayDimensions).all fun d =>
    d.1 == d.2 || d.1 == 0 then
    StatusCode.good
  else StatusCode.badTypeMismatch

/-- `UA_findDataType` (`src/ua_types.c:30-40`). -/
def findDataType (types : List TypeDescription) (typeId : NodeKey) : Option TypeDescription :=
  match typeId.identifier with
  | .numeric n =>
    if typeId.namespaceIndex ≠ 0 then none
    else types.find? fun type =>
      match type.typeId.identifier with
      | .numeric m => m == n
      | _ => false
  | _ => none

def bytesOfString (elements : Elements α) (s : UaString) : VariantData α :=
  match s with
  | .null => .null
  | .sentinel => .sentinel
  | .mem [] => .scalar elements.strayByte
  | .mem (b :: bs) =>
    .array (elements.byte b :: bs.map elements.byte) (List.cons_ne_nil _ _)

/-- `convertToMatchingValue` (`:188-221`) for a value of type `type`. -/
def convertToMatchingValue (value : UaVariant α) (type : TypeDescription)
    (targetDataTypeId : NodeKey) :
    Option (UaVariant α) :=
  match findDataType w.types targetDataTypeId with
  | none => none
  | some targetDataType =>
    match decide (targetDataType = builtinType .byte ∧ type = builtinType .byteString),
      value.data with
    -- a string is written to a byte array
    | true, .scalar x =>
      some { value with
        type := some (builtinType .byte), data := bytesOfString w.elements (w.elements.string x) }
    | _, _ =>
      -- an enum was sent as an int32, or an opaque type as a bytestring
      if typeEquivalence targetDataType ≠ .none ∧
          typeEquivalence targetDataType = typeEquivalence type then
        some { value with type := some targetDataType }
      else none

/-- The dimensions of a value that are compared with those of the node (`:261-268`). -/
def valueArrayDimensions (value : UaVariant α) : List UInt32 :=
  if value.arrayDimensions = .null ∧ value.data.isScalar = false then
    [UInt32.ofNat value.data.arrayLength]
  else value.arrayDimensions.items

/-- The end of `typeCheckValue`, once the type is right (`:257-277`). -/
def checkDimensions (targetValueRank : Int) (targetArrayDimensions : List UInt32)
    (value : UaVariant α) (range : Option NumericRange) : StatusCode :=
  -- array dimensions are checked later when writing the range
  if range.isSome then StatusCode.good
  else if targetArrayDimensions.length > 0 then
    compatibleArrayDimensions targetArrayDimensions (valueArrayDimensions value)
  else compatibleValueRankValue targetValueRank value

/-- `typeCheckValue` (`:230-278`), with the value as it has been converted. Without an editable
value there is no conversion. -/
def typeCheckValue (targetDataTypeId : NodeKey) (targetValueRank : Int)
    (targetArrayDimensions : List UInt32) (value : UaVariant α) (range : Option NumericRange)
    (editable : Bool) : RangeM (StatusCode × UaVariant α) := do
  match value.type with
  | none =>
    if targetDataTypeId = baseDataType ∨ targetDataTypeId = nullId then
      return (StatusCode.good, value)
    else return (StatusCode.badTypeMismatch, value)
  | some type =>
    if ← compatibleDataType w sv (typeKey type) targetDataTypeId then
      return (checkDimensions targetValueRank targetArrayDimensions value range, value)
    else if editable = false then return (StatusCode.badTypeMismatch, value)
    else
      match convertToMatchingValue w value type targetDataTypeId with
      | none => return (StatusCode.badTypeMismatch, value)
      | some value =>
        return (checkDimensions targetValueRank targetArrayDimensions value range, value)

/-! ## Writers -/

/-- `readValueAttribute` (`:534-537`) without a range. -/
def readValueAttribute (node : VariableNode α) : RangeM (StatusCode × DataValue α) :=
  match node.attributes.value with
  | .data value => return (StatusCode.good, value)
  | .dataSource => do
    match ← answer w.readSource with
    | none => return (StatusCode.badInternalError, emptyDataValue)
    | some result => return result

/-- `UA_Node_hasSubTypeOrInstances` (`src/server/ua_server_utils.c:246-259`). -/
def hasSubTypeOrInstances (node : VariableNode α) : Bool :=
  node.references.any fun ref =>
    (!ref.isInverse && ref.referenceTypeId == hasSubtype) ||
      (ref.isInverse && ref.referenceTypeId == hasTypeDefinition)

/-- A type that is in use is not changed. -/
def inUse (node : VariableNode α) : Bool :=
  decide (node.nodeClass = .variableType) && hasSubTypeOrInstances node

/-- `getVariableNodeType` (`src/server/ua_server_utils.c:218-230`). -/
def getVariableNodeType (node : VariableNode α) : Option (VariableNode α) :=
  (sv.get (getNodeType node)).filter fun vt => vt.nodeClass = .variableType

def withAttributes (node : VariableNode α)
    (f : VariableAttributes α → VariableAttributes α) : VariableNode α :=
  { node with attributes := f node.attributes }

/-- `writeArrayDimensionsAttribute` (`:293-354`). -/
def writeArrayDimensionsAttribute (node : VariableNode α) (arrayDimensions : List UInt32) :
    RangeM (VariableNode α × StatusCode) := do
  if inUse node then return (node, StatusCode.badInternalError)
  let retval := compatibleValueRankArrayDimensions node.attributes.valueRank arrayDimensions.length
  if retval ≠ StatusCode.good then return (node, retval)
  match getVariableNodeType sv node with
  | none => return (node, StatusCode.badInternalError)
  | some vt =>
    let retval := compatibleArrayDimensions vt.attributes.arrayDimensions arrayDimensions
    if retval ≠ StatusCode.good then return (node, retval)
    let (retval, value) ← readValueAttribute w node
    if retval ≠ StatusCode.good then return (node, retval)
    let retval :=
      if value.hasValue then
        compatibleArrayDimensions arrayDimensions value.value.arrayDimensions.items
      else StatusCode.good
    if retval ≠ StatusCode.good then return (node, retval)
    let retval ← answer w.copyAttribute
    if retval ≠ StatusCode.good then return (node, retval)
    return (withAttributes node fun a => { a with arrayDimensions }, StatusCode.good)

/-- The end of `writeValueRankAttribute` (`:402-409`). -/
def applyValueRank (node : VariableNode α) (valueRank : Int) (arrayDims : Nat) :
    VariableNode α × StatusCode :=
  let retval := compatibleValueRankArrayDimensions valueRank arrayDims
  if retval ≠ StatusCode.good then (node, retval)
  else (withAttributes node fun a => { a with valueRank }, StatusCode.good)

/-- `writeValueRankAttribute` (`:369-410`). -/
def writeValueRankAttribute (node : VariableNode α) (valueRank constraintValueRank : Int) :
    RangeM (VariableNode α × StatusCode) := do
  if inUse node then return (node, StatusCode.badInternalError)
  let retval := compatibleValueRanks valueRank constraintValueRank
  if retval ≠ StatusCode.good then return (node, retval)
  if node.attributes.arrayDimensions.length = 0 then
    let (retval, value) ← readValueAttribute w node
    if retval ≠ StatusCode.good then return (node, retval)
    -- no value -> apply
    if value.hasValue = false ∨ value.value.type = none then
      return (withAttributes node fun a => { a with valueRank }, StatusCode.good)
    -- the value could be an array with no arrayDimensions defined
    return applyValueRank node valueRank (if value.value.data.isScalar then 0 else 1)
  else return applyValueRank node valueRank node.attributes.arrayDimensions.length

/-- `writeValueRankAttributeWithVT` (`:360-367`). -/
def writeValueRankAttributeWithVT (node : VariableNode α) (valueRank : Int) :
    RangeM (VariableNode α × StatusCode) :=
  match getVariableNodeType sv node with
  | none => return (node, StatusCode.badInternalError)
  | some vt => writeValueRankAttribute w node valueRank vt.attributes.valueRank

/-- The check of the current value against a new data type (`:432-443`). -/
def checkCurrentValue (node : VariableNode α) (dataType : NodeKey) (value : DataValue α) :
    RangeM StatusCode :=
  if value.hasValue then do
    let (retval, _) ← typeCheckValue w sv dataType node.attributes.valueRank
      node.attributes.arrayDimensions value.value none false
    return retval
  else return StatusCode.good

/-- `writeDataTypeAttribute` (`:416-456`). -/
def writeDataTypeAttribute (node : VariableNode α) (dataType constraintDataType : NodeKey) :
    RangeM (VariableNode α × StatusCode) := do
  if inUse node then return (node, StatusCode.badInternalError)
  if (← compatibleDataType w sv dataType constraintDataType) = false then
    return (node, StatusCode.badTypeMismatch)
  let (retval, value) ← readValueAttribute w node
  if retval ≠ StatusCode.good then return (node, retval)
  let retval ← checkCurrentValue w sv node dataType value
  if retval ≠ StatusCode.good then return (node, retval)
  let retval ← answer w.copyAttribute
  if retval ≠ StatusCode.good then return (node, retval)
  return (withAttributes node fun a => { a with dataType }, StatusCode.good)

/-- `writeDataTypeAttributeWithVT` (`:458-465`). -/
def writeDataTypeAttributeWithVT (node : VariableNode α) (dataType : NodeKey) :
    RangeM (VariableNode α × StatusCode) :=
  match getVariableNodeType sv node with
  | none => return (node, StatusCode.badInternalError)
  | some vt => writeDataTypeAttribute w sv node dataType vt.attributes.dataType

/-- `UA_DataValue_copy` when it succeeds: arrays of length zero get the sentinel. -/
def copiedDataValue (value : DataValue α) : DataValue α :=
  { value with value := { value.value with
      arrayDimensions :=
        match value.value.arrayDimensions with
        | .mem [] => .sentinel
        | dims => dims } }

/-- `writeValueAttributeWithoutRange` (`:539-548`). -/
def writeValueAttributeWithoutRange (node : VariableNode α) (value : DataValue α) :
    RangeM (VariableNode α × StatusCode) := do
  let retval ← answer w.copyAttribute
  if retval = StatusCode.good then
    return (withAttributes node fun a => { a with value := .data (copiedDataValue value) }, retval)
  else return (node, retval)

/-- The elements of a written value as the memory that the stored type makes of them. -/
def writtenElements (stored written : UaVariant α) : List α :=
  match stored.type, written.type with
  | some storedType, some writtenType =>
    if writtenType = storedType then written.data.items
    else w.elements.viewAs writtenType storedType written.data.items
  | _, _ => written.data.items

/-- `writeValueAttributeWithRange` (`:550-581`). -/
def writeValueAttributeWithRange (node : VariableNode α) (stored value : DataValue α)
    (range : NumericRange) : RangeM (VariableNode α × StatusCode) := do
  -- value on both sides?
  if value.status ≠ stored.status ∨ value.hasValue = false ∨ stored.hasValue = false then
    return (node, StatusCode.badIndexRangeInvalid)
  -- make scalar a one-entry array for range matching
  let arraySize := if value.value.data.isScalar then 1 else value.value.data.arrayLength
  let (retval, changed, _) ← setRangeCopy w.elements stored.value
    (writtenElements w stored.value value.value) arraySize range
  let stored := { stored with value := changed }
  if retval ≠ StatusCode.good then
    return (withAttributes node fun a => { a with value := .data stored }, retval)
  let stored := { stored with
    hasStatus := value.hasStatus, status := value.status,
    hasSourceTimestamp := value.hasSourceTimestamp, sourceTimestamp := value.sourceTimestamp,
    hasSourcePicoseconds := value.hasSourcePicoseconds,
    sourcePicoseconds := value.sourcePicoseconds }
  return (withAttributes node fun a => { a with value := .data stored }, StatusCode.good)

/-- The parsed index range (`:586-594`); an empty one is none. -/
def parseIndexRange (indexRange : UaString) : RangeM (Except StatusCode (Option NumericRange)) :=
  if indexRange.length > 0 then do
    match ← numericRangeParseFromString w.elements indexRange with
    | .error retval => return .error retval
    | .ok range => return .ok (some range)
  else return .ok none

/-- The check of a value that is written, with the value as it has been converted (`:600-611`). -/
def checkWrittenValue (node : VariableNode α) (value : DataValue α) (range : Option NumericRange) :
    RangeM (StatusCode × UaVariant α) :=
  if value.hasValue then
    typeCheckValue w sv node.attributes.dataType node.attributes.valueRank
      node.attributes.arrayDimensions value.value range true
  else return (StatusCode.good, value.value)

/-- A source timestamp is set if there is none (`:613-617`). -/
def withSourceTimestamp (now : UInt64) (value : DataValue α) : DataValue α :=
  if value.hasSourceTimestamp then value
  else { value with sourceTimestamp := now, hasSourceTimestamp := true }

@[simp] theorem value_withSourceTimestamp (now : UInt64) (value : DataValue α) :
    (withSourceTimestamp now value).value = value.value := by
  unfold withSourceTimestamp
  split <;> rfl

@[simp] theorem hasValue_withSourceTimestamp (now : UInt64) (value : DataValue α) :
    (withSourceTimestamp now value).hasValue = value.hasValue := by
  unfold withSourceTimestamp
  split <;> rfl

@[simp] theorem status_withSourceTimestamp (now : UInt64) (value : DataValue α) :
    (withSourceTimestamp now value).status = value.status := by
  unfold withSourceTimestamp
  split <;> rfl

/-- `writeValueAttribute` (`:583-658`). The callback after writing gets the value as `const`. -/
def writeValueAttribute (node : VariableNode α) (value : DataValue α) (indexRange : UaString) :
    RangeM (VariableNode α × StatusCode) := do
  match ← parseIndexRange w indexRange with
  | .error retval => return (node, retval)
  | .ok range =>
    let (retval, editableValue) ← checkWrittenValue w sv node value range
    if retval ≠ StatusCode.good then return (node, retval)
    let now ← answer w.now
    let editable := withSourceTimestamp now { value with value := editableValue }
    match node.attributes.value, range with
    | .data _, none => writeValueAttributeWithoutRange w node editable
    | .data stored, some range => writeValueAttributeWithRange w node stored editable range
    | .dataSource, _ =>
      match ← answer w.writeSource with
      | none => return (node, StatusCode.badWriteNotSupported)
      | some retval => return (node, retval)

/-- What is written to a node: one of the four attributes. -/
inductive Write (α : Type) where
  | value (value : DataValue α) (indexRange : UaString)
  | dataType (dataType : NodeKey)
  | valueRank (valueRank : Int)
  | arrayDimensions (arrayDimensions : List UInt32)

/-- The writers behind `copyAttributeIntoNode` (`:1074-1210`), for a user with all rights and a
WriteValue of the right type. -/
def copyAttributeIntoNode (node : VariableNode α) :
    Write α → RangeM (VariableNode α × StatusCode)
  | .value value indexRange => writeValueAttribute w sv node value indexRange
  | .dataType dataType => writeDataTypeAttributeWithVT w sv node dataType
  | .valueRank valueRank => writeValueRankAttributeWithVT w sv node valueRank
  | .arrayDimensions arrayDimensions => writeArrayDimensionsAttribute w sv node arrayDimensions

/-- One node to write in `Service_Write`, through `UA_Server_editNode`. -/
def serviceWrite (nodeId : NodeKey) (write : Write α) :
    RangeM (Server (VariableAttributes α) × StatusCode) :=
  match sv.get nodeId with
  | none => return (sv, StatusCode.badNodeIdUnknown)
  | some node =>
    -- `CHECK_NODECLASS_WRITE`
    if node.nodeClass ≠ .variable ∧ node.nodeClass ≠ .variableType then
      return (sv, StatusCode.badNodeClassInvalid)
    else do
      let (edited, retval) ← copyAttributeIntoNode w sv node write
      return ((editNode sv nodeId fun _ => (edited, retval)).1, retval)

end FactoryThing.Variables
