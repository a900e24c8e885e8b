import FactoryThing.Types.NodeId

/-!
# Values of described types

What the binary encoding of `src/ua_types_encoding_binary.c` works on: values in memory together
with the type description that says how to read them (`include/ua_types.h`,
`tools/generate_datatypes.py`). The code always passes the two as a pair `(src, type)` and follows
`type->members` from there; here the pair is unfolded along the members into one tree, so every
node of a `Value` says which encoding function its type selects. Only what the encoding reads is
kept: paddings and addresses are gone, a bit field `hasX` with its field is an option, and a
pointer of an array of length zero is kept as far as the code asks about it.

The build is the one for little-endian machines with IEEE 754 floats
(`UA_BINARY_OVERLAYABLE_INTEGER`, `UA_BINARY_OVERLAYABLE_FLOAT`): a signed integer, a float or a
double is the bit pattern it has in memory, which is what `memcpy` puts on the wire.
-/

namespace FactoryThing

/-- The builtin types, `UA_TYPES[0..24]` in order (`tools/generate_datatypes.py:27-31`). -/
inductive Builtin where
  | boolean
  | sbyte
  | byte
  | int16
  | uint16
  | int32
  | uint32
  | int64
  | uint64
  | float
  | double
  | string
  | dateTime
  | guid
  | byteString
  | xmlElement
  | nodeId
  | expandedNodeId
  | statusCode
  | qualifiedName
  | localizedText
  | extensionObject
  | dataValue
  | variant
  | diagnosticInfo
  deriving DecidableEq

/-- `UA_DataType.typeIndex` of a builtin type. -/
def Builtin.typeIndex (b : Builtin) : UInt8 := UInt8.ofNat b.ctorIdx

/-- What the code reads of a `UA_DataType` (`include/ua_types.h:768-785`) besides the members. -/
structure TypeInfo where
  typeId : NodeId
  memSize : UInt16
  binaryEncodingId : UInt16
  deriving DecidableEq

/-- The memory of an array whose element type is `overlayable`: `length` elements of `memSize`
bytes, which the code copies as one block. -/
structure Block where
  memSize : Nat
  length : Nat
  mem : List UInt8
  memSize_pos : 0 < memSize
  length_pos : 0 < length
  size_eq : mem.length = memSize * length

structure ExpandedNodeId where
  nodeId : NodeId
  namespaceUri : UaString
  serverIndex : UInt32
  deriving DecidableEq

structure LocalizedText where
  locale : UaString
  text : UaString
  deriving DecidableEq

/-- `content.encoded` of a `UA_ExtensionObject`, by the `encoding` that goes with it. -/
inductive EncodedBody where
  | noBody
  | byteString (body : UaString)
  | xml (body : UaString)
  deriving DecidableEq

/-- `UA_DiagnosticInfo`; a field whose `hasX` bit is clear is `none`. -/
inductive DiagnosticInfo where
  | mk (symbolicId namespaceUri localizedText locale : Option UInt32)
      (additionalInfo : Option UaString) (innerStatusCode : Option UInt32)
      (innerDiagnosticInfo : Option DiagnosticInfo)

/-- The fields of a `UA_DataValue` after `value`; a field whose `hasX` bit is clear is `none`. -/
structure DataValueFields where
  status : Option StatusCode
  sourceTimestamp : Option UInt64
  sourcePicoseconds : Option UInt16
  serverTimestamp : Option UInt64
  serverPicoseconds : Option UInt16
  deriving DecidableEq

mutual

/-- A value with its type, by the entry of the jump tables that handles it. -/
inductive Value where
  /-- Boolean, SByte and Byte -/
  | byte (v : UInt8)
  /-- Int16 and UInt16 -/
  | uint16 (v : UInt16)
  /-- Int32, UInt32, Float, StatusCode and the enumerations -/
  | uint32 (v : UInt32)
  /-- Int64, UInt64, Double and DateTime -/
  | uint64 (v : UInt64)
  /-- String, ByteString and XmlElement -/
  | string (s : UaString)
  | guid (g : Guid)
  | nodeId (n : NodeId)
  | expandedNodeId (n : ExpandedNodeId)
  | localizedText (t : LocalizedText)
  /-- an ExtensionObject with `content.encoded` -/
  | encodedObject (typeId : NodeId) (body : EncodedBody)
  /-- an ExtensionObject with `content.decoded` -/
  | decodedObject (type : TypeInfo) (data : Value)
  /-- an ExtensionObject with `content.decoded` where type or data are `NULL` -/
  | unsetObject
  | dataValue (hasValue : Bool) (value : Variant) (fields : DataValueFields)
  | variant (v : Variant)
  | diagnosticInfo (d : DiagnosticInfo)
  /-- a type without an encoding of its own: QualifiedName and every type that is not builtin -/
  | structure (members : Members)

/-- `UA_Variant`. The type is builtin, or else every element is wrapped in an ExtensionObject. -/
inductive Variant where
  | empty
  | scalar (type : Builtin) (data : Value)
  | array (type : Builtin) (data : ArrayData) (arrayDimensions : List UInt32)
  | wrapped (type : TypeInfo) (data : Value)
  | wrappedEmpty (type : TypeInfo) (arrayDimensions : List UInt32)
  | wrappedArray (type : TypeInfo) (data : Values) (arrayDimensions : List UInt32)

/-- An array as a structure member or in a Variant. -/
inductive ArrayData where
  /-- length zero; `sentinel` says that the pointer is `UA_EMPTY_ARRAY_SENTINEL` -/
  | empty (sentinel : Bool)
  /-- elements of an overlayable type -/
  | overlay (block : Block)
  /-- elements of any other type -/
  | elements (data : Values)

/-- The members of a structure, in the order of `UA_DataType.members`. -/
inductive Members where
  | nil
  | scalar (v : Value) (rest : Members)
  | array (a : ArrayData) (rest : Members)

/-- The elements of an array whose length is positive. -/
inductive Values where
  | one (v : Value)
  | cons (v : Value) (rest : Values)

end

def Values.length : Values → Nat
  | one _ => 1
  | cons _ rest => rest.length + 1

/-- The `length` field of an array. -/
def ArrayData.length : ArrayData → Nat
  | empty _ => 0
  | overlay block => block.length
  | elements data => data.length

/-- Bytes in memory as an array of Bytes. -/
def byteArray (s : UaString) : ArrayData :=
  match s with
  | .null => .empty false
  | .sentinel => .empty true
  | .mem [] => .empty false
  | .mem (b :: bs) => .overlay
      { memSize := 1, length := (b :: bs).length, mem := b :: bs, memSize_pos := Nat.one_pos,
        length_pos := by simp, size_eq := by simp }

/-- The value seen through `type->members`, as `UA_encodeBinary` and `UA_calcSizeBinary` see it:
a builtin type has itself as its one member, a string type one array of Bytes
(`tools/generate_datatypes.py:170-190`). -/
def Value.members : Value → Members
  | .structure members => members
  | .string s => .array (byteArray s) .nil
  | v => .scalar v .nil

end FactoryThing
