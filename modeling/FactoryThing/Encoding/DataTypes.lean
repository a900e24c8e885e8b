import FactoryThing.Encoding.Values

/-!
# Type descriptions

`UA_DataType` (`include/ua_types.h:746-785`) as `tools/generate_datatypes.py` writes it, and the
lookup of a description by the id of its binary encoding. A member of a description names its own
type by an index into one of two tables (`typelists` in `UA_decodeBinaryInternal`). The generator
takes a type up only after the types of all its members, so following the indices comes to an end,
and a description is kept here as the tree that it unfolds to.

Sizes in memory are those of a machine with 64-bit pointers.
-/

namespace FactoryThing

/-- `sizeof` of a builtin type. -/
def Builtin.memSize : Builtin → UInt16
  | boolean => 1
  | sbyte => 1
  | byte => 1
  | int16 => 2
  | uint16 => 2
  | int32 => 4
  | uint32 => 4
  | int64 => 8
  | uint64 => 8
  | float => 4
  | double => 8
  | string => 16
  | dateTime => 8
  | guid => 16
  | byteString => 16
  | xmlElement => 16
  | nodeId => 24
  | expandedNodeId => 48
  | statusCode => 4
  | qualifiedName => 24
  | localizedText => 32
  | extensionObject => 48
  | dataValue => 96
  | variant => 48
  | diagnosticInfo => 56

/-- `builtin_overlayable` (`tools/generate_datatypes.py:43-51`) on a little-endian machine. -/
def Builtin.overlayable : Builtin → Bool
  | string => false
  | byteString => false
  | xmlElement => false
  | nodeId => false
  | expandedNodeId => false
  | qualifiedName => false
  | localizedText => false
  | extensionObject => false
  | dataValue => false
  | variant => false
  | diagnosticInfo => false
  | _ => true

theorem Builtin.memSize_pos (b : Builtin) : 0 < b.memSize.toNat := by
  cases b <;> decide

/-- The description of a builtin type, `UA_TYPES[b]`: the data type id is the index in the table
plus one (`tools/schema/NodeIds.csv`), and there is no id of a binary encoding. -/
def Builtin.info (b : Builtin) : TypeInfo where
  typeId := ⟨0, .numeric (UInt32.ofNat (b.ctorIdx + 1))⟩
  memSize := b.memSize
  binaryEncodingId := 0

/-- The builtin type at an index of `UA_TYPES`. -/
def Builtin.ofIndex (typeIndex : Nat) : Option Builtin :=
  [boolean, sbyte, byte, int16, uint16, int32, uint32, int64, uint64, float, double, string,
    dateTime, guid, byteString, xmlElement, nodeId, expandedNodeId, statusCode, qualifiedName,
    localizedText, extensionObject, dataValue, variant, diagnosticInfo][typeIndex]?

mutual

/-- `UA_DataType` with the descriptions of its members in place of their indices. -/
inductive DataType where
  | builtin (b : Builtin)
  /-- `EnumerationType` of the generator: marked as builtin, with the `typeIndex` of Int32 -/
  | enumeration (typeId : NodeId) (binaryEncodingId : UInt16)
  /-- `StructType` and `OpaqueType` of the generator; no C type has the size zero -/
  | structure (info : TypeInfo) (overlayable : Bool) (memSize_pos : 0 < info.memSize.toNat)
      (members : MemberTypes)

/-- `UA_DataType.members`; the fields of `UA_DataTypeMember` but for the padding. -/
inductive MemberTypes where
  | nil
  | scalar (type : DataType) (rest : MemberTypes)
  | array (type : DataType) (rest : MemberTypes)

end

namespace DataType

/-- The fields of the description that a value keeps. -/
def info : DataType → TypeInfo
  | builtin b => b.info
  | enumeration typeId binaryEncodingId => { typeId, memSize := 4, binaryEncodingId }
  | .structure info _ _ _ => info

/-- `type->memSize`. -/
def memSize (type : DataType) : Nat := type.info.memSize.toNat

/-- `type->overlayable`. -/
def overlayable : DataType → Bool
  | builtin b => b.overlayable
  | enumeration _ _ => true
  | .structure _ overlayable _ _ => overlayable

theorem memSize_pos (type : DataType) : 0 < type.memSize := by
  cases type with
  | builtin b => exact b.memSize_pos
  | enumeration typeId binaryEncodingId => exact Nat.succ_pos 3
  | «structure» info overlayable h members => exact h

end DataType

/-- `UA_TYPES` and the custom types that `UA_decodeBinary` is given. -/
structure TypeTables where
  types : List DataType
  customTypes : List DataType

/-- `findDataTypeByBinary` (`src/ua_types_encoding_binary.c:825-847`). -/
def findDataTypeByBinary (tables : TypeTables) (typeId : NodeId) : Option DataType :=
  match typeId.identifier with
  | .numeric n =>
    (if typeId.namespaceIndex ≠ 0 then tables.customTypes else tables.types).find? fun type =>
      type.info.binaryEncodingId.toUInt32 == n &&
        type.info.typeId.namespaceIndex == typeId.namespaceIndex
  | _ => none

end FactoryThing
