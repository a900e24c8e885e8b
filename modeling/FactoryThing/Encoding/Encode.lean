import FactoryThing.Encoding.Buffer
import FactoryThing.Encoding.CalcSize

/-!
# The binary encoder

The encoding functions of `src/ua_types_encoding_binary.c` as they are in the source: a recursion
over the value that writes to the buffer, carries on after errors where the source joins status
codes with `retval |=`, and exchanges the buffer when its end is reached. `fuel` bounds how often
one element is tried again.
-/

namespace FactoryThing.Encoding

variable {H : Type} (fuel : Nat) (callback : Option (ExchangeEncodeBuffer H))

/-- `Array_encodeBinary` for the array of Bytes in a string
(`ua_types_encoding_binary.c:505-525`, `588-592`). -/
def stringEncodeBinary (src : UaString) : EncodeM H StatusCode := do
  if src.length > int32Max then
    return StatusCode.badInternalError
  let signedLength : UInt32 :=
    if src.length > 0 then UInt32.ofNat src.length else if src = .sentinel then 0 else 0xFFFFFFFF
  let retval ← uint32EncodeBinary signedLength
  if retval ≠ StatusCode.good ∨ src.length = 0 then
    return retval
  arrayEncodeBinaryOverlayable callback 1 fuel src.items

/-- `Guid_encodeBinary` (`ua_types_encoding_binary.c:609-619`). -/
def guidEncodeBinary (src : Guid) : EncodeM H StatusCode :=
  orStatus (orStatus (orStatus (uint32EncodeBinary src.data1) (uint16EncodeBinary src.data2))
    (uint16EncodeBinary src.data3)) (encodePrimitive src.data4.toList)

/-- `NodeId_encodeBinaryWithEncodingMask` (`ua_types_encoding_binary.c:640-688`). -/
def nodeIdEncodeBinaryWithEncodingMask (src : NodeId) (encoding : UInt8) : EncodeM H StatusCode :=
  match src.identifier with
  | .numeric n =>
    if n > 65535 ∨ src.namespaceIndex > 255 then
      orStatus (orStatus (byteEncodeBinary (encoding ||| 2))
        (uint16EncodeBinary src.namespaceIndex))
        (uint32EncodeBinary n)
    else if n > 255 ∨ src.namespaceIndex > 0 then
      orStatus (orStatus (byteEncodeBinary (encoding ||| 1))
        (byteEncodeBinary src.namespaceIndex.toUInt8)) (uint16EncodeBinary n.toUInt16)
    else
      orStatus (byteEncodeBinary (encoding ||| 0)) (byteEncodeBinary n.toUInt8)
  | .string s =>
    orStatus (orStatus (byteEncodeBinary (encoding ||| 3)) (uint16EncodeBinary src.namespaceIndex))
      (stringEncodeBinary fuel callback s)
  | .guid g =>
    orStatus (orStatus (byteEncodeBinary (encoding ||| 4)) (uint16EncodeBinary src.namespaceIndex))
      (guidEncodeBinary g)
  | .byteString s =>
    orStatus (orStatus (byteEncodeBinary (encoding ||| 5)) (uint16EncodeBinary src.namespaceIndex))
      (stringEncodeBinary fuel callback s)

/-- `NodeId_encodeBinary` (`ua_types_encoding_binary.c:690-693`). -/
def nodeIdEncodeBinary (src : NodeId) : EncodeM H StatusCode :=
  nodeIdEncodeBinaryWithEncodingMask fuel callback src 0

/-- `(void*)s.data > UA_EMPTY_ARRAY_SENTINEL`. -/
def isRegular (s : UaString) : Bool :=
  match s with
  | .mem _ => true
  | _ => false

/-- `s.data`, read as a condition. -/
def hasData (s : UaString) : Bool := s ≠ .null

/-- `ExpandedNodeId_encodeBinary` (`ua_types_encoding_binary.c:747-764`). -/
def expandedNodeIdEncodeBinary (src : ExpandedNodeId) : EncodeM H StatusCode :=
  let encoding : UInt8 := (if isRegular src.namespaceUri then 0x80 else 0) |||
    (if src.serverIndex > 0 then 0x40 else 0)
  orStatus (orStatus (nodeIdEncodeBinaryWithEncodingMask fuel callback src.nodeId encoding)
    (onlyIf (isRegular src.namespaceUri) (stringEncodeBinary fuel callback src.namespaceUri)))
    (onlyIf (src.serverIndex > 0) (uint32EncodeBinary src.serverIndex))

/-- `LocalizedText_encodeBinary` (`ua_types_encoding_binary.c:794-809`). -/
def localizedTextEncodeBinary (src : LocalizedText) : EncodeM H StatusCode :=
  let encoding : UInt8 := (if hasData src.locale then 0x01 else 0) |||
    (if hasData src.text then 0x02 else 0)
  orStatus (orStatus (byteEncodeBinary encoding)
    (onlyIf (hasData src.locale) (stringEncodeBinary fuel callback src.locale)))
    (onlyIf (hasData src.text) (stringEncodeBinary fuel callback src.text))

/-- `ExtensionObject_encodeBinary` without content or with encoded content
(`ua_types_encoding_binary.c:852-868`). -/
def encodedObjectEncodeBinary (typeId : NodeId) (body : EncodedBody) : EncodeM H StatusCode :=
  match body with
  | .noBody => orStatus (nodeIdEncodeBinary fuel callback typeId) (byteEncodeBinary 0)
  | .byteString s =>
    orStatus (orStatus (nodeIdEncodeBinary fuel callback typeId) (byteEncodeBinary 1))
      (stringEncodeBinary fuel callback s)
  | .xml s =>
    orStatus (orStatus (nodeIdEncodeBinary fuel callback typeId) (byteEncodeBinary 2))
      (stringEncodeBinary fuel callback s)

/-- A field behind a `hasX` bit. -/
def encodeIf {α : Type} (field : Option α) (encode : α → EncodeM H StatusCode) :
    EncodeM H StatusCode :=
  match field with
  | some x => encode x
  | none => return StatusCode.good

/-- A `hasX` bit in an encoding mask. -/
def maskBit {α : Type} (field : Option α) (bit : UInt8) : UInt8 :=
  if field.isSome then bit else 0

/-- The encoding mask of a DataValue (`ua_types_encoding_binary.c:1138-1144`). -/
def dataValueMask (hasValue : Bool) (f : DataValueFields) : UInt8 :=
  (if hasValue then 0x01 else 0) ||| maskBit f.status 0x02 ||| maskBit f.sourceTimestamp 0x04 |||
    maskBit f.serverTimestamp 0x08 ||| maskBit f.sourcePicoseconds 0x10 |||
    maskBit f.serverPicoseconds 0x20

/-- `DiagnosticInfo_encodeBinary` (`ua_types_encoding_binary.c:1206-1234`). The mask leaves out the
inner status code and has the bit of the inner diagnostic info at 5. -/
def diagnosticInfoEncodeBinary : DiagnosticInfo → EncodeM H StatusCode
  | .mk symbolicId namespaceUri localizedText locale additionalInfo innerStatusCode inner =>
    let encodingMask := maskBit symbolicId 0x01 ||| maskBit namespaceUri 0x02 |||
      maskBit localizedText 0x04 ||| maskBit locale 0x08 ||| maskBit additionalInfo 0x10 |||
      maskBit inner 0x20
    orStatus (orStatus (orStatus (orStatus (orStatus (orStatus (orStatus
      (byteEncodeBinary encodingMask)
      (encodeIf symbolicId uint32EncodeBinary))
      (encodeIf namespaceUri uint32EncodeBinary))
      (encodeIf localizedText uint32EncodeBinary))
      (encodeIf locale uint32EncodeBinary))
      (encodeIf additionalInfo (stringEncodeBinary fuel callback)))
      (encodeIf innerStatusCode uint32EncodeBinary))
      (match inner with
        | some d => diagnosticInfoEncodeBinary d
        | none => return StatusCode.good)

/-- The array dimensions of a Variant: an array of Int32, when there are any
(`ua_types_encoding_binary.c:1033-1036`). -/
def dimensionsEncodeBinary (arrayDimensions : List UInt32) : EncodeM H StatusCode := do
  if arrayDimensions.length = 0 then
    return StatusCode.good
  if arrayDimensions.length > int32Max then
    return StatusCode.badInternalError
  let retval ← uint32EncodeBinary (UInt32.ofNat arrayDimensions.length)
  if retval ≠ StatusCode.good then
    return retval
  arrayEncodeBinaryOverlayable callback 4 fuel
    (arrayDimensions.flatMap fun d => LittleEndian.toBytes 4 d.toNat)

/-- The encoding byte of a Variant (`ua_types_encoding_binary.c:1006-1021`). -/
def variantEncoding (typeIndex : UInt8) (isArray : Bool) (dims : List UInt32) : UInt8 :=
  (0x3F &&& (typeIndex + 1)) ||| (if isArray then 0x80 else 0) |||
    (if isArray ∧ dims.length > 0 then 0x40 else 0)

/-- `UA_TYPES_EXTENSIONOBJECT`. -/
def extensionObjectIndex : UInt8 := Builtin.extensionObject.typeIndex

/-- The type id that `ExtensionObject_encodeBinary` writes: the id of the data type with the
numeric identifier replaced (`ua_types_encoding_binary.c:875-878`). -/
def encodingTypeId (type : TypeInfo) : NodeId :=
  { type.typeId with identifier := .numeric type.binaryEncodingId.toUInt32 }

/-- `ExtensionObject_encodeBinary` with decoded content (`ua_types_encoding_binary.c:870-897`);
`encodeContent` is the entry of the jump table on the content and `len` its announced size. -/
def decodedObjectEncodeBinary (type : TypeInfo) (len : Nat) (encodeContent : EncodeM H StatusCode) :
    EncodeM H StatusCode := do
  if isNumeric type.typeId = false then
    return StatusCode.badEncodingError
  let retval ← orStatus (nodeIdEncodeBinary fuel callback (encodingTypeId type))
    (byteEncodeBinary 1)
  if len > int32Max then
    return StatusCode.badEncodingError
  let status ← orStatus (uint32EncodeBinary (UInt32.ofNat len)) encodeContent
  return retval ||| status

mutual

/-- `encodeBinaryJumpTable` (`ua_types_encoding_binary.c:1287-1314`); the last entry is
`UA_encodeBinaryInternal`. -/
def encodeBinaryJumpTable : Value → EncodeM H StatusCode
  | .byte v => byteEncodeBinary v
  | .uint16 v => uint16EncodeBinary v
  | .uint32 v => uint32EncodeBinary v
  | .uint64 v => uint64EncodeBinary v
  | .string s => stringEncodeBinary fuel callback s
  | .guid g => guidEncodeBinary g
  | .nodeId n => nodeIdEncodeBinary fuel callback n
  | .expandedNodeId n => expandedNodeIdEncodeBinary fuel callback n
  | .localizedText t => localizedTextEncodeBinary fuel callback t
  | .encodedObject typeId body => encodedObjectEncodeBinary fuel callback typeId body
  | .decodedObject type data =>
    decodedObjectEncodeBinary fuel callback type (calcSizeBinary data) (encodeBinaryJumpTable data)
  | .unsetObject => return StatusCode.badEncodingError
  | .dataValue hasValue value f =>
    orStatus (orStatus (orStatus (orStatus (orStatus (orStatus
      (byteEncodeBinary (dataValueMask hasValue f))
      (onlyIf hasValue (variantEncodeBinary value)))
      (encodeIf f.status uint32EncodeBinary))
      (encodeIf f.sourceTimestamp uint64EncodeBinary))
      (encodeIf f.sourcePicoseconds uint16EncodeBinary))
      (encodeIf f.serverTimestamp uint64EncodeBinary))
      (encodeIf f.serverPicoseconds uint16EncodeBinary)
  | .variant v => variantEncodeBinary v
  | .diagnosticInfo d => diagnosticInfoEncodeBinary fuel callback d
  | .structure members => encodeBinaryInternal members

/-- `Variant_encodeBinary` with `Variant_encodeBinaryWrapExtensionObject`
(`ua_types_encoding_binary.c:957-1041`). -/
def variantEncodeBinary : Variant → EncodeM H StatusCode
  | .empty => byteEncodeBinary 0
  | .scalar type data =>
    orStatus (byteEncodeBinary (variantEncoding type.typeIndex false []))
      (encodeBinaryJumpTable data)
  | .array type data dims =>
    orStatus (orStatus (byteEncodeBinary (variantEncoding type.typeIndex true dims))
      (arrayEncodeBinary data)) (dimensionsEncodeBinary fuel callback dims)
  | .wrapped type data =>
    orStatus (byteEncodeBinary (variantEncoding extensionObjectIndex false []))
      (encodeWithExchange callback (decodedObjectEncodeBinary fuel callback type
        (calcSizeBinary data) (encodeBinaryJumpTable data)) fuel)
  | .wrappedEmpty _ dims =>
    orStatus (orStatus (byteEncodeBinary (variantEncoding extensionObjectIndex true dims))
      (uint32EncodeBinary 0)) (dimensionsEncodeBinary fuel callback dims)
  | .wrappedArray type data dims =>
    orStatus (orStatus (byteEncodeBinary (variantEncoding extensionObjectIndex true dims))
      (do
        if data.length > int32Max then
          return StatusCode.badEncodingError
        let retval ← uint32EncodeBinary (UInt32.ofNat data.length)
        if retval = StatusCode.good then
          variantEncodeBinaryWrapExtensionObject type data
        else
          return retval))
      (dimensionsEncodeBinary fuel callback dims)

/-- The loop of `Variant_encodeBinaryWrapExtensionObject` over an array. -/
def variantEncodeBinaryWrapExtensionObject (type : TypeInfo) : Values → EncodeM H StatusCode
  | .one v => encodeWithExchange callback (decodedObjectEncodeBinary fuel callback type
      (calcSizeBinary v) (encodeBinaryJumpTable v)) fuel
  | .cons v rest => do
    let retval ← encodeWithExchange callback (decodedObjectEncodeBinary fuel callback type
      (calcSizeBinary v) (encodeBinaryJumpTable v)) fuel
    if retval = StatusCode.good then
      variantEncodeBinaryWrapExtensionObject type rest
    else
      return retval

/-- `Array_encodeBinary` (`ua_types_encoding_binary.c:505-525`). -/
def arrayEncodeBinary : ArrayData → EncodeM H StatusCode
  | .empty sentinel => uint32EncodeBinary (if sentinel then 0 else 0xFFFFFFFF)
  | .overlay block => do
    if block.length > int32Max then
      return StatusCode.badInternalError
    let retval ← uint32EncodeBinary (UInt32.ofNat block.length)
    if retval = StatusCode.good then
      arrayEncodeBinaryOverlayable callback block.memSize fuel block.mem
    else
      return retval
  | .elements data => do
    if data.length > int32Max then
      return StatusCode.badInternalError
    let retval ← uint32EncodeBinary (UInt32.ofNat data.length)
    if retval = StatusCode.good then
      arrayEncodeBinaryComplex data
    else
      return retval

/-- `Array_encodeBinaryComplex` (`ua_types_encoding_binary.c:477-503`). -/
def arrayEncodeBinaryComplex : Values → EncodeM H StatusCode
  | .one v => encodeWithExchange callback (encodeBinaryJumpTable v) fuel
  | .cons v rest => do
    let retval ← encodeWithExchange callback (encodeBinaryJumpTable v) fuel
    if retval = StatusCode.good then
      arrayEncodeBinaryComplex rest
    else
      return retval

/-- `UA_encodeBinaryInternal` (`ua_types_encoding_binary.c:1315-1348`). -/
def encodeBinaryInternal : Members → EncodeM H StatusCode
  | .nil => return StatusCode.good
  | .scalar v rest => do
    let retval ← encodeWithExchange callback (encodeBinaryJumpTable v) fuel
    if retval = StatusCode.good then
      encodeBinaryInternal rest
    else
      return retval
  | .array a rest => do
    let retval ← arrayEncodeBinary a
    if retval = StatusCode.good then
      encodeBinaryInternal rest
    else
      return retval

end

/-- `UA_encodeBinary` (`ua_types_encoding_binary.c:1350-1369`) into a buffer of `length` bytes of
which `before` are in front of the offset. The state it leaves holds the last buffer; the offset it
returns is the number of bytes before `pos` there. -/
def encodeBinary (src : Value) (handle : H) (length : Nat) (before : List UInt8) :
    Except Fault (StatusCode × EncodeState H) :=
  StateT.run (encodeBinaryInternal fuel callback src.members)
    { buffer := 0, encodeBuf := some length, pos := ⟨0, before⟩, handle }

end FactoryThing.Encoding
