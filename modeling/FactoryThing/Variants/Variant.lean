import FactoryThing.Encoding.DataTypes

/-!
# Variants in memory

`UA_Variant` (`include/ua_types.h:517-524`) as the functions on index ranges and the attribute
services see it: a type description, scalar or array data, and array dimensions that may come from
the network and need not have anything to do with the data. What an element is in memory is left
open.
-/

namespace FactoryThing.Variants

/-- `UA_DataTypeMember` without the padding. -/
structure TypeMember where
  memberTypeIndex : Nat
  namespaceZero : Bool
  isArray : Bool
  deriving DecidableEq

/-- `UA_DataType`, as far as the functions on Variants ask for it. The code compares the addresses
of descriptions; here a description is what it says. -/
structure TypeDescription where
  typeId : NodeId
  memSize : UInt16
  pointerFree : Bool
  members : List TypeMember
  deriving DecidableEq

/-- `builtin_pointerfree` (`tools/generate_datatypes.py:35-36`). -/
def builtinPointerFree : Builtin → Bool
  | .boolean | .sbyte | .byte | .int16 | .uint16 | .int32 | .uint32 | .int64 | .uint64 | .float
  | .double | .dateTime | .guid | .statusCode => true
  | _ => false

/-- The members of a builtin type (`tools/generate_datatypes.py:165-172`). -/
def builtinMembers : Builtin → List TypeMember
  | .qualifiedName =>
    [⟨Builtin.int16.ctorIdx, true, false⟩, ⟨Builtin.string.ctorIdx, true, false⟩]
  | .string | .byteString | .xmlElement => [⟨Builtin.byte.ctorIdx, true, true⟩]
  | b => [⟨b.ctorIdx, true, false⟩]

/-- `UA_TYPES[b]`. -/
def builtinType (b : Builtin) : TypeDescription where
  typeId := b.info.typeId
  memSize := b.memSize
  pointerFree := builtinPointerFree b
  members := builtinMembers b

/-- `UA_Variant.data` together with `arrayLength`. An array of length zero has `NULL` or
`UA_EMPTY_ARRAY_SENTINEL` for data; with any other pointer the length zero means a scalar. -/
inductive VariantData (α : Type) where
  | null
  | sentinel
  | scalar (x : α)
  | array (items : List α) (nonempty : items ≠ [])
  deriving DecidableEq

namespace VariantData

variable {α : Type}

/-- `v->arrayLength`. -/
def arrayLength : VariantData α → Nat
  | array items _ => items.length
  | _ => 0

/-- `UA_Variant_isScalar`. -/
def isScalar : VariantData α → Bool
  | scalar _ => true
  | _ => false

/-- The elements at `v->data`. -/
def items : VariantData α → List α
  | scalar x => [x]
  | array items _ => items
  | _ => []

end VariantData

/-- `UA_Variant` but for `storageType`, which says who frees the data. -/
structure UaVariant (α : Type) where
  type : Option TypeDescription
  data : VariantData α
  arrayDimensions : CArray UInt32
  deriving DecidableEq

/-- `UA_Variant_init`. -/
def emptyVariant {α : Type} : UaVariant α := ⟨none, .null, .null⟩

/-- `UA_NumericRangeDimension`. -/
structure RangeDimension where
  min : UInt32
  max : UInt32
  deriving DecidableEq

abbrev NumericRange := List RangeDimension

end FactoryThing.Variants
