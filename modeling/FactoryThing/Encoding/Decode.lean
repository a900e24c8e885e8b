import FactoryThing.Encoding.CalcSize
import FactoryThing.Encoding.Stream

/-!
# The binary decoder

The decoding functions of `src/ua_types_encoding_binary.c` as they are in the source: a recursion
over the type description that carries on after errors where the source joins status codes with
`retval |=`. What is nested in a Variant or an ExtensionObject is of a type that the stream names;
the functions get the decoder for it as `decodeType`, and `fuel` bounds how deep such values are
nested.
-/

namespace FactoryThing.Encoding

variable (env : DecodeEnv)

/-- `Guid_decodeBinary` (`ua_types_encoding_binary.c:621-631`). The last eight bytes return on
their own when they are missing. -/
def guidDecodeBinary : DecodeM (Decoded Guid) := do
  let (retval, (data1, data2), data3) ←
    decodeBoth (decodeBoth uint32DecodeBinary uint16DecodeBinary) uint16DecodeBinary
  let (status, data4) ← decodePrimitive 8 id (Vector.replicate 8 0)
  let dst : Guid := { data1, data2, data3, data4 }
  if status ≠ StatusCode.good then
    return (status, dst)
  return (retval, dst)

def zeroNodeId : NodeId := ⟨0, .numeric 0⟩

/-- The part of `NodeId_decodeBinary` behind the encoding byte
(`ua_types_encoding_binary.c:702-736`). -/
def nodeIdDecodeBinaryContent (encodingByte : UInt8) : DecodeM (Decoded NodeId) :=
  if encodingByte = 0 then
    decodeMap (fun n : UInt8 => ⟨0, .numeric n.toUInt32⟩) byteDecodeBinary
  else if encodingByte = 1 then
    decodeMap (fun (ns, n) => ⟨ns.toUInt16, .numeric n.toUInt32⟩)
      (decodeBoth byteDecodeBinary uint16DecodeBinary)
  else if encodingByte = 2 then
    decodeMap (fun (ns, n) => ⟨ns, .numeric n⟩) (decodeBoth uint16DecodeBinary uint32DecodeBinary)
  else if encodingByte = 3 then
    decodeMap (fun (ns, s) => ⟨ns, .string s⟩)
      (decodeBoth uint16DecodeBinary (stringDecodeBinary env))
  else if encodingByte = 4 then
    decodeMap (fun (ns, g) => ⟨ns, .guid g⟩) (decodeBoth uint16DecodeBinary guidDecodeBinary)
  else if encodingByte = 5 then
    decodeMap (fun (ns, s) => ⟨ns, .byteString s⟩)
      (decodeBoth uint16DecodeBinary (stringDecodeBinary env))
  else
    return (StatusCode.badInternalError, zeroNodeId)

/-- `NodeId_decodeBinary` (`ua_types_encoding_binary.c:695-740`). -/
def nodeIdDecodeBinary : DecodeM (Decoded NodeId) := do
  let (retval, encodingByte) ← byteDecodeBinary
  if retval ≠ StatusCode.good then
    return (retval, zeroNodeId)
  nodeIdDecodeBinaryContent env encodingByte

/-- `*pos = encoding & ~(NAMESPACEURI_FLAG | SERVERINDEX_FLAG)`: the encoding byte is changed in
the source (`ua_types_encoding_binary.c:770-775`). -/
def maskEncodingByte : DecodeM UInt8 := do
  let encoding := (← readBytes 1).get ⟨0, Nat.one_pos⟩
  modify fun s => { s with src := s.src.set s.pos (encoding &&& 0x3F) }
  return encoding

/-- `ExpandedNodeId_decodeBinary` (`ua_types_encoding_binary.c:766-788`). -/
def expandedNodeIdDecodeBinary : DecodeM (Decoded ExpandedNodeId) := do
  if (← get).tooShort 1 then
    return (StatusCode.badDecodingError, ⟨zeroNodeId, .null, 0⟩)
  let encoding ← maskEncodingByte
  let hasUri : Bool := encoding &&& 0x80 ≠ 0
  decodeMap
    (fun ((nodeId, namespaceUri), serverIndex) =>
      { nodeId := if hasUri then { nodeId with namespaceIndex := 0 } else nodeId
        namespaceUri, serverIndex })
    (decodeBoth
      (decodeBoth (nodeIdDecodeBinary env) (decodeIf hasUri (stringDecodeBinary env) .null))
      (decodeIf (encoding &&& 0x40 ≠ 0) uint32DecodeBinary 0))

/-- `LocalizedText_decodeBinary` (`ua_types_encoding_binary.c:811-823`). -/
def localizedTextDecodeBinary : DecodeM (Decoded LocalizedText) := do
  let (retval, encoding) ← byteDecodeBinary
  let (status, locale, text) ← decodeBoth
    (decodeIf (encoding &&& 0x01 ≠ 0) (stringDecodeBinary env) .null)
    (decodeIf (encoding &&& 0x02 ≠ 0) (stringDecodeBinary env) .null)
  return (retval ||| status, { locale, text })

/-- A field behind a bit of an encoding mask: `hasX` is set before the field is decoded. -/
def decodeField {α : Type} (c : Bool) (decode : DecodeM (Decoded α)) :
    DecodeM (Decoded (Option α)) :=
  decodeIf c (decodeMap some decode) none

def zeroDiagnosticInfo : DiagnosticInfo := .mk none none none none none none none

/-- `DiagnosticInfo_decodeBinary` (`ua_types_encoding_binary.c:1236-1276`). -/
def diagnosticInfoDecodeBinary : Nat → DecodeM (Decoded DiagnosticInfo)
  | 0 => throw Fault.diverges
  | fuel + 1 => do
    let (retval, encodingMask) ← byteDecodeBinary
    if retval ≠ StatusCode.good then
      return (retval, zeroDiagnosticInfo)
    let (status, ((((symbolicId, namespaceUri), localizedText), locale), additionalInfo),
      innerStatusCode) ←
      decodeBoth (decodeBoth (decodeBoth (decodeBoth (decodeBoth
        (decodeField (encodingMask &&& 0x01 ≠ 0) uint32DecodeBinary)
        (decodeField (encodingMask &&& 0x02 ≠ 0) uint32DecodeBinary))
        (decodeField (encodingMask &&& 0x04 ≠ 0) uint32DecodeBinary))
        (decodeField (encodingMask &&& 0x08 ≠ 0) uint32DecodeBinary))
        (decodeField (encodingMask &&& 0x10 ≠ 0) (stringDecodeBinary env)))
        (decodeField (encodingMask &&& 0x20 ≠ 0) uint32DecodeBinary)
    let dst := DiagnosticInfo.mk symbolicId namespaceUri localizedText locale additionalInfo
      innerStatusCode
    if encodingMask &&& 0x40 = 0 then
      return (status, dst none)
    if ← allocate env then
      let (inner, d) ← diagnosticInfoDecodeBinary fuel
      return (status ||| inner, dst (some d))
    else
      return (StatusCode.badOutOfMemory, dst none)

variable (decodeType : DataType → DecodeM (Decoded Value))

def zeroExtensionObject : Value := .encodedObject zeroNodeId .noBody

/-- `ExtensionObject_decodeBinaryContent` (`ua_types_encoding_binary.c:899-921`). -/
def extensionObjectDecodeBinaryContent (typeId : NodeId) : DecodeM (Decoded Value) := do
  match findDataTypeByBinary env.toTypeTables typeId with
  | none => decodeMap (fun body =>
      .encodedObject typeId (.byteString body)) (stringDecodeBinary env)
  | some type =>
    if ← allocate env then
      jumpOverLength
      decodeMap (.decodedObject type.info) (decodeType type)
    else
      return (StatusCode.badOutOfMemory, zeroExtensionObject)

/-- `ExtensionObject_decodeBinary` (`ua_types_encoding_binary.c:923-954`). -/
def extensionObjectDecodeBinary : DecodeM (Decoded Value) := do
  let (retval, typeId, encoding) ← decodeBoth (nodeIdDecodeBinary env) byteDecodeBinary
  if isNumeric typeId = false then
    return (StatusCode.badDecodingError, zeroExtensionObject)
  if retval ≠ StatusCode.good then
    return (retval, zeroExtensionObject)
  if encoding = 1 then
    extensionObjectDecodeBinaryContent env decodeType typeId
  else if encoding = 0 then
    return (StatusCode.good, .encodedObject typeId .noBody)
  else if encoding = 2 then
    decodeMap (fun body => .encodedObject typeId (.xml body)) (stringDecodeBinary env)
  else
    return (StatusCode.badDecodingError, zeroExtensionObject)

/-- A Variant with a type and `data == NULL`. -/
def unsetVariant (type : DataType) : Variant :=
  match type with
  | .builtin b => .array b (.empty false) []
  | .enumeration _ _ => .array .int32 (.empty false) []
  | .structure info _ _ _ => .wrappedEmpty info []

/-- A Variant with a type and one element of it. An enumeration has the `typeIndex` of Int32. -/
def scalarVariant (type : DataType) (data : Value) : Variant :=
  match type with
  | .builtin b => .scalar b data
  | .enumeration _ _ => .scalar .int32 data
  | .structure info _ _ _ => .wrapped info data

/-- The rest of `Variant_decodeBinaryUnwrapExtensionObject` once `dst->type` is known
(`ua_types_encoding_binary.c:1076-1088`). -/
def variantDecodeBinaryUnwrapContent (type : DataType) : DecodeM (Decoded Variant) := do
  if ← allocate env then
    let (retval, data) ← decodeType type
    -- the data is freed again when it cannot be decoded
    if retval ≠ StatusCode.good then
      return (retval, unsetVariant type)
    return (retval, scalarVariant type data)
  else
    return (StatusCode.badOutOfMemory, unsetVariant type)

/-- `Variant_decodeBinaryUnwrapExtensionObject` (`ua_types_encoding_binary.c:1043-1090`). -/
def variantDecodeBinaryUnwrapExtensionObject : DecodeM (Decoded Variant) := do
  let oldPos := (← get).pos
  let (retval, typeId) ← nodeIdDecodeBinary env
  if retval ≠ StatusCode.good then
    return (retval, unsetVariant (.builtin .extensionObject))
  let (retval, encoding) ← byteDecodeBinary
  if retval ≠ StatusCode.good then
    return (retval, unsetVariant (.builtin .extensionObject))
  match if encoding = 1 then findDataTypeByBinary env.toTypeTables typeId else none with
  | some type =>
    jumpOverLength
    variantDecodeBinaryUnwrapContent env decodeType type
  | none =>
    modify fun s => { s with pos := oldPos }
    variantDecodeBinaryUnwrapContent env decodeType (.builtin .extensionObject)

/-- The content of a Variant with the builtin type `b` (`ua_types_encoding_binary.c:1114-1130`). -/
def variantDecodeBinaryContent (encodingByte : UInt8) (b : Builtin) :
    DecodeM (Decoded Variant) :=
  if encodingByte &&& 0x80 ≠ 0 then
    decodeMap (fun (data, dims) => .array b data dims)
      (decodeBoth (arrayDecodeBinary env (.builtin b) (decodeType (.builtin b)))
        (decodeIf (encodingByte &&& 0x40 ≠ 0) (dimensionsDecodeBinary env) []))
  else if b = .extensionObject then
    variantDecodeBinaryUnwrapExtensionObject env decodeType
  else do
    if ← allocate env then
      decodeMap (.scalar b) (decodeType (.builtin b))
    else
      return (StatusCode.badOutOfMemory, unsetVariant (.builtin b))

/-- `Variant_decodeBinary` (`ua_types_encoding_binary.c:1092-1131`). -/
def variantDecodeBinary : DecodeM (Decoded Variant) := do
  let (retval, encodingByte) ← byteDecodeBinary
  if retval ≠ StatusCode.good then
    return (retval, .empty)
  if encodingByte = 0 then
    return (StatusCode.good, .empty)
  -- an index of -1 wraps around to the largest `size_t`
  if encodingByte &&& 0x3F = 0 then
    return (StatusCode.badDecodingError, .empty)
  match Builtin.ofIndex ((encodingByte &&& 0x3F).toNat - 1) with
  | none => return (StatusCode.badDecodingError, .empty)
  | some b => variantDecodeBinaryContent env decodeType encodingByte b

def maxPicoSeconds : UInt16 := 9999

def picosecondsDecodeBinary : DecodeM (Decoded UInt16) :=
  decodeMap (fun picoseconds =>
    if picoseconds > maxPicoSeconds then maxPicoSeconds else picoseconds)
    uint16DecodeBinary

/-- `DataValue_decodeBinary` (`ua_types_encoding_binary.c:1165-1202`). -/
def dataValueDecodeBinary : DecodeM (Decoded Value) := do
  let (retval, encodingMask) ← byteDecodeBinary
  if retval ≠ StatusCode.good then
    return (retval, .dataValue false .empty ⟨none, none, none, none, none⟩)
  let hasValue : Bool := encodingMask &&& 0x01 ≠ 0
  decodeMap
    (fun (((((value, status), sourceTimestamp), sourcePicoseconds), serverTimestamp),
        serverPicoseconds) =>
      .dataValue hasValue value
        { status, sourceTimestamp, sourcePicoseconds, serverTimestamp, serverPicoseconds })
    (decodeBoth (decodeBoth (decodeBoth (decodeBoth (decodeBoth
      (decodeIf hasValue (variantDecodeBinary env decodeType) .empty)
      (decodeField (encodingMask &&& 0x02 ≠ 0) uint32DecodeBinary))
      (decodeField (encodingMask &&& 0x04 ≠ 0) uint64DecodeBinary))
      (decodeField (encodingMask &&& 0x10 ≠ 0) picosecondsDecodeBinary))
      (decodeField (encodingMask &&& 0x08 ≠ 0) uint64DecodeBinary))
      (decodeField (encodingMask &&& 0x20 ≠ 0) picosecondsDecodeBinary))

/-- The first entries of `decodeBinaryJumpTable` (`ua_types_encoding_binary.c:1371-1397`). A
QualifiedName has no function of its own but goes through its members. -/
def builtinDecodeBinary (fuel : Nat) : Builtin → DecodeM (Decoded Value)
  | .boolean => decodeMap .byte booleanDecodeBinary
  | .sbyte | .byte => decodeMap .byte byteDecodeBinary
  | .int16 | .uint16 => decodeMap .uint16 uint16DecodeBinary
  | .int32 | .uint32 | .float | .statusCode => decodeMap .uint32 uint32DecodeBinary
  | .int64 | .uint64 | .double | .dateTime => decodeMap .uint64 uint64DecodeBinary
  | .string | .byteString | .xmlElement => decodeMap .string (stringDecodeBinary env)
  | .guid => decodeMap .guid guidDecodeBinary
  | .nodeId => decodeMap .nodeId (nodeIdDecodeBinary env)
  | .expandedNodeId => decodeMap .expandedNodeId (expandedNodeIdDecodeBinary env)
  | .qualifiedName =>
    decodeMap (fun (ns, name) => .structure (.scalar (.uint16 ns) (.scalar (.string name) .nil)))
      (decodeBoth uint16DecodeBinary (stringDecodeBinary env))
  | .localizedText => decodeMap .localizedText (localizedTextDecodeBinary env)
  | .extensionObject => extensionObjectDecodeBinary env decodeType
  | .dataValue => dataValueDecodeBinary env decodeType
  | .variant => decodeMap .variant (variantDecodeBinary env decodeType)
  | .diagnosticInfo => decodeMap .diagnosticInfo (diagnosticInfoDecodeBinary env fuel)

mutual

/-- The entry of `decodeBinaryJumpTable` for a type; the last one is `UA_decodeBinaryInternal`. -/
def decodeBinaryEntry (fuel : Nat) : DataType → DecodeM (Decoded Value)
  | .builtin b => builtinDecodeBinary env decodeType fuel b
  | .enumeration _ _ => decodeMap .uint32 uint32DecodeBinary
  | .structure _ _ _ members => decodeMap .structure (decodeBinaryInternal fuel members)

/-- `UA_decodeBinaryInternal` (`ua_types_encoding_binary.c:1399-1424`). -/
def decodeBinaryInternal (fuel : Nat) : MemberTypes → DecodeM (Decoded Members)
  | .nil => return (StatusCode.good, .nil)
  | .scalar type rest =>
    decodeMap (fun (v, ms) => .scalar v ms)
      (decodeBoth (decodeBinaryEntry fuel type) (decodeBinaryInternal fuel rest))
  | .array type rest =>
    decodeMap (fun (a, ms) => .array a ms)
      (decodeBoth (arrayDecodeBinary env type (decodeBinaryEntry fuel type))
        (decodeBinaryInternal fuel rest))

end

/-- `decodeBinaryJumpTable`, with the decoder for nested values tied to itself. -/
def decodeBinaryJumpTable : Nat → DataType → DecodeM (Decoded Value)
  | 0, _ => throw Fault.diverges
  | fuel + 1, type => decodeBinaryEntry env (decodeBinaryJumpTable fuel) (fuel + 1) type

/-- A value of a builtin type that is all zero. -/
def zeroBuiltin : Builtin → Value
  | .boolean | .sbyte | .byte => .byte 0
  | .int16 | .uint16 => .uint16 0
  | .int32 | .uint32 | .float | .statusCode => .uint32 0
  | .int64 | .uint64 | .double | .dateTime => .uint64 0
  | .string | .byteString | .xmlElement => .string .null
  | .guid => .guid ⟨0, 0, 0, Vector.replicate 8 0⟩
  | .nodeId => .nodeId zeroNodeId
  | .expandedNodeId => .expandedNodeId ⟨zeroNodeId, .null, 0⟩
  | .qualifiedName => .structure (.scalar (.uint16 0) (.scalar (.string .null) .nil))
  | .localizedText => .localizedText ⟨.null, .null⟩
  | .extensionObject => zeroExtensionObject
  | .dataValue => .dataValue false .empty ⟨none, none, none, none, none⟩
  | .variant => .variant .empty
  | .diagnosticInfo => .diagnosticInfo zeroDiagnosticInfo

mutual

/-- `UA_init`: a value that is all zero. -/
def zeroValue : DataType → Value
  | .builtin b => zeroBuiltin b
  | .enumeration _ _ => .uint32 0
  | .structure _ _ _ members => .structure (zeroMembers members)

/-- The members of a structure that is all zero. -/
def zeroMembers : MemberTypes → Members
  | .nil => .nil
  | .scalar type rest => .scalar (zeroValue type) (zeroMembers rest)
  | .array _ rest => .array (.empty false) (zeroMembers rest)

end

/-- What a call of `UA_decodeBinary` leaves: its status, the offset and the destination. -/
structure DecodeResult where
  status : StatusCode
  offset : Nat
  dst : Value

/-- The state in which `UA_decodeBinary` starts to decode. -/
def decodeStart (src : List UInt8) (offset : Nat) : DecodeState :=
  { src, start := offset, pos := offset, allocations := 0, jumps := [] }

/-- `UA_decodeBinary` (`ua_types_encoding_binary.c:1426-1452`). A builtin type is its own only
member, so that `UA_decodeBinaryInternal` on it does what its entry of the jump table does. When
the status is not good, `UA_deleteMembers` sets the destination to zero. -/
def decodeBinary (fuel : Nat) (src : List UInt8) (offset : Nat) (type : DataType) :
    Except Fault (DecodeResult × DecodeState) := do
  let ((retval, dst), s) ← (decodeBinaryJumpTable env fuel type).run (decodeStart src offset)
  if retval = StatusCode.good then
    return (⟨retval, s.pos, dst⟩, s)
  else
    return (⟨retval, offset, zeroValue type⟩, s)

end FactoryThing.Encoding
