import FactoryThing.Encoding.Values

/-!
# The announced size

`UA_calcSizeBinary` and the functions of its jump table
(`src/ua_types_encoding_binary.c:1454-1699`). Sizes are natural numbers: they count bytes of
values in memory, which a `size_t` holds.
-/

namespace FactoryThing.Encoding

def int32Max : Nat := 2147483647

/-- `String_calcSizeBinary` (`ua_types_encoding_binary.c:1474-1477`). -/
def stringCalcSizeBinary (p : UaString) : Nat := 4 + p.length

/-- `NodeId_calcSizeBinary` (`ua_types_encoding_binary.c:1484-1510`). -/
def nodeIdCalcSizeBinary (src : NodeId) : Nat :=
  1 + match src.identifier with
    | .numeric n =>
      if n > 65535 ∨ src.namespaceIndex > 255 then 6
      else if n > 255 ∨ src.namespaceIndex > 0 then 3
      else 1
    | .byteString s => 2 + stringCalcSizeBinary s
    | .string s => 2 + stringCalcSizeBinary s
    | .guid _ => 18

/-- `ExpandedNodeId_calcSizeBinary` (`ua_types_encoding_binary.c:1512-1520`). -/
def expandedNodeIdCalcSizeBinary (src : ExpandedNodeId) : Nat :=
  nodeIdCalcSizeBinary src.nodeId +
    (if src.namespaceUri.length > 0 then stringCalcSizeBinary src.namespaceUri else 0) +
    (if src.serverIndex > 0 then 4 else 0)

/-- `LocalizedText_calcSizeBinary` (`ua_types_encoding_binary.c:1522-1530`). -/
def localizedTextCalcSizeBinary (src : LocalizedText) : Nat :=
  1 + (if src.locale ≠ .null then stringCalcSizeBinary src.locale else 0) +
    (if src.text ≠ .null then stringCalcSizeBinary src.text else 0)

/-- The part of `ExtensionObject_calcSizeBinary` for a body that is already encoded
(`ua_types_encoding_binary.c:1545-1557`). -/
def encodedObjectCalcSizeBinary (typeId : NodeId) (body : EncodedBody) : Nat :=
  1 + nodeIdCalcSizeBinary typeId +
    match body with
    | .noBody => 0
    | .byteString s => stringCalcSizeBinary s
    | .xml s => stringCalcSizeBinary s

/-- The size of a field that is there: a `hasX` bit adds the size of `X`. -/
def sizeIf {α : Type} (field : Option α) (size : Nat) : Nat := if field.isSome then size else 0

/-- The fields of `DataValue_calcSizeBinary` after the value
(`ua_types_encoding_binary.c:1607-1616`). -/
def dataValueFieldsCalcSize (f : DataValueFields) : Nat :=
  sizeIf f.status 4 + sizeIf f.sourceTimestamp 8 + sizeIf f.sourcePicoseconds 2 +
    sizeIf f.serverTimestamp 8 + sizeIf f.serverPicoseconds 2

/-- `DiagnosticInfo_calcSizeBinary` (`ua_types_encoding_binary.c:1620-1638`). -/
def diagnosticInfoCalcSizeBinary : DiagnosticInfo → Nat
  | .mk symbolicId namespaceUri localizedText locale additionalInfo innerStatusCode inner =>
    1 + sizeIf symbolicId 4 + sizeIf namespaceUri 4 + sizeIf localizedText 4 + sizeIf locale 4 +
      additionalInfo.elim 0 stringCalcSizeBinary +
      sizeIf innerStatusCode 4 +
      (match inner with | some d => diagnosticInfoCalcSizeBinary d | none => 0)

/-- The array dimensions of `Variant_calcSizeBinary`: an array of Int32, when there are any
(`ua_types_encoding_binary.c:1596-1598`). -/
def dimensionsCalcSize (arrayDimensions : List UInt32) : Nat :=
  if arrayDimensions.length > 0 then 4 + 4 * arrayDimensions.length else 0

/-- What `Variant_calcSizeBinary` adds for the ExtensionObject around each element
(`ua_types_encoding_binary.c:1588-1591`); a `typeId` that is not numeric makes the whole size 0. -/
def wrapCalcSize (type : TypeInfo) : Nat := nodeIdCalcSizeBinary type.typeId + (1 + 4)

/-- `identifierType == UA_NODEIDTYPE_NUMERIC`. -/
def isNumeric (n : NodeId) : Bool :=
  match n.identifier with
  | .numeric _ => true
  | _ => false

mutual

/-- `calcSizeBinaryJumpTable` (`ua_types_encoding_binary.c:1640-1667`). -/
def calcSizeBinaryJumpTable : Value → Nat
  | .byte _ => 1
  | .uint16 _ => 2
  | .uint32 _ => 4
  | .uint64 _ => 8
  | .string s => stringCalcSizeBinary s
  | .guid _ => 16
  | .nodeId n => nodeIdCalcSizeBinary n
  | .expandedNodeId n => expandedNodeIdCalcSizeBinary n
  | .localizedText t => localizedTextCalcSizeBinary t
  | .encodedObject typeId body => encodedObjectCalcSizeBinary typeId body
  | .decodedObject type data =>
    if isNumeric type.typeId then
      1 + nodeIdCalcSizeBinary type.typeId + 4 + calcSizeBinaryJumpTable data
    else 0
  | .unsetObject => 0
  | .dataValue hasValue value fields =>
    1 + (if hasValue then variantCalcSizeBinary value else 0) + dataValueFieldsCalcSize fields
  | .variant v => variantCalcSizeBinary v
  | .diagnosticInfo d => diagnosticInfoCalcSizeBinary d
  | .structure members => calcSizeMembers members

/-- `Variant_calcSizeBinary` (`ua_types_encoding_binary.c:1561-1600`). -/
def variantCalcSizeBinary : Variant → Nat
  | .empty => 1
  | .scalar _ data => 1 + calcSizeBinaryJumpTable data
  | .array _ data dims => 1 + arrayCalcSizeBinary data + dimensionsCalcSize dims
  | .wrapped type data =>
    if isNumeric type.typeId then 1 + (wrapCalcSize type + calcSizeBinaryJumpTable data) else 0
  | .wrappedEmpty type dims =>
    if isNumeric type.typeId then 1 + 4 + dimensionsCalcSize dims else 0
  | .wrappedArray type data dims =>
    if isNumeric type.typeId then
      1 + 4 + (wrapCalcSize type * data.length + calcSizeValues data) + dimensionsCalcSize dims
    else 0

/-- `Array_calcSizeBinary` (`ua_types_encoding_binary.c:1454-1467`), and the same loop in
`Variant_calcSizeBinary` for an array of a builtin type, where an overlayable element has the size
`type->memSize`. -/
def arrayCalcSizeBinary : ArrayData → Nat
  | .empty _ => 4
  | .overlay block => 4 + block.memSize * block.length
  | .elements data => 4 + calcSizeValues data

/-- The loop of `UA_calcSizeBinary` over the members (`ua_types_encoding_binary.c:1681-1697`). -/
def calcSizeMembers : Members → Nat
  | .nil => 0
  | .scalar v rest => calcSizeBinaryJumpTable v + calcSizeMembers rest
  | .array a rest => arrayCalcSizeBinary a + calcSizeMembers rest

/-- The loops over the elements of an array. -/
def calcSizeValues : Values → Nat
  | .one v => calcSizeBinaryJumpTable v
  | .cons v rest => calcSizeBinaryJumpTable v + calcSizeValues rest

end

/-- `UA_calcSizeBinary` (`ua_types_encoding_binary.c:1676-1699`). -/
def calcSizeBinary (p : Value) : Nat := calcSizeMembers p.members

@[simp] theorem arrayCalcSizeBinary_byteArray (s : UaString) :
    arrayCalcSizeBinary (byteArray s) = stringCalcSizeBinary s := by
  cases s with
  | null | sentinel => rfl
  | mem bs =>
    cases bs with
    | nil => rfl
    | cons b bs => simp [byteArray, arrayCalcSizeBinary, stringCalcSizeBinary]

/-- `UA_calcSizeBinary` and the jump table agree: it makes no difference for the size whether a
builtin type is handled by its own function or through its members. -/
theorem calcSizeBinary_eq (v : Value) : calcSizeBinary v = calcSizeBinaryJumpTable v := by
  cases v with
  | string s => simp [calcSizeBinary, Value.members, calcSizeMembers, calcSizeBinaryJumpTable]
  | «structure» ms => rfl
  | _ => simp [calcSizeBinary, Value.members, calcSizeMembers]

end FactoryThing.Encoding
