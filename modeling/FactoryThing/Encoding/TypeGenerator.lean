import FactoryThing.Encoding.DataTypes
import FactoryThing.Lib.RecordLayout
import Mathlib.Data.List.Infix

/-!
# The data type generator

`tools/generate_datatypes.py`: the C structure that it writes for a structured type of the schema,
and the description of it. Whether a type may be copied off the binary stream is a C expression that
the generator puts together as a text and the C compiler evaluates; here it is a text with its
value, on a little-endian machine with IEEE 754 floats and 64-bit pointers.
-/

namespace FactoryThing

open RecordLayout

/-- The names in `builtin_types` (`tools/generate_datatypes.py:27-31`). -/
def Builtin.name : Builtin → String
  | boolean => "Boolean"
  | sbyte => "SByte"
  | byte => "Byte"
  | int16 => "Int16"
  | uint16 => "UInt16"
  | int32 => "Int32"
  | uint32 => "UInt32"
  | int64 => "Int64"
  | uint64 => "UInt64"
  | float => "Float"
  | double => "Double"
  | string => "String"
  | dateTime => "DateTime"
  | guid => "Guid"
  | byteString => "ByteString"
  | xmlElement => "XmlElement"
  | nodeId => "NodeId"
  | expandedNodeId => "ExpandedNodeId"
  | statusCode => "StatusCode"
  | qualifiedName => "QualifiedName"
  | localizedText => "LocalizedText"
  | extensionObject => "ExtensionObject"
  | dataValue => "DataValue"
  | variant => "Variant"
  | diagnosticInfo => "DiagnosticInfo"

/-- `_Alignof` of a builtin type. -/
def Builtin.alignment : Builtin → Nat
  | boolean | sbyte | byte => 1
  | int16 | uint16 => 2
  | int32 | uint32 | float | guid | statusCode => 4
  | _ => 8

def Builtin.layout (b : Builtin) : Field where
  size := b.memSize.toNat
  align := b.alignment
  size_pos := b.memSize_pos
  align_pos := by cases b <;> decide

/-- A `size_t`. -/
def sizeLayout : Field := ⟨8, 8, by decide, by decide⟩

def pointerLayout : Field := ⟨8, 8, by decide, by decide⟩

/-- The fields of `UA_Guid` (`include/ua_types.h:225-230`). -/
def guidFields : List Field :=
  [Builtin.uint32.layout, Builtin.uint16.layout, Builtin.uint16.layout,
    ⟨8, 1, Nat.succ_pos 7, Nat.one_pos⟩]

/-- A C expression: its text, and its value on the machine that is compiled for. -/
structure Condition where
  text : List Char
  holds : Bool
  deriving DecidableEq

namespace Condition

def always : Condition := ⟨"true".toList, true⟩
def never : Condition := ⟨"false".toList, false⟩

/-- `UA_BINARY_OVERLAYABLE_INTEGER`, which is 1 on a little-endian machine. -/
def overlayableInteger : Condition := ⟨"UA_BINARY_OVERLAYABLE_INTEGER".toList, true⟩

/-- `UA_BINARY_OVERLAYABLE_FLOAT`, which is 1 where floats have the IEEE 754 format. -/
def overlayableFloat : Condition := ⟨"UA_BINARY_OVERLAYABLE_FLOAT".toList, true⟩

protected def and (a b : Condition) : Condition :=
  ⟨a.text ++ " && ".toList ++ b.text, a.holds && b.holds⟩

/-- `"false" in self.overlayable`, a question about the text. -/
def SaysFalse (c : Condition) : Prop := "false".toList <:+: c.text

instance (c : Condition) : Decidable c.SaysFalse :=
  inferInstanceAs (Decidable ("false".toList <:+: c.text))

end Condition

/-- `builtin_overlayable` (`tools/generate_datatypes.py:42-51`); the types that are not in it keep
the `"false"` of `BuiltinType`. -/
def Builtin.overlayableCondition : Builtin → Condition
  | boolean | sbyte | byte => .always
  | int16 | uint16 | int32 | uint32 | int64 | uint64 | dateTime | statusCode => .overlayableInteger
  | float | double => .overlayableFloat
  | guid =>
    { text :=
        "(UA_BINARY_OVERLAYABLE_INTEGER && offsetof(UA_Guid, data2) == sizeof(UA_UInt32) && ".toList
          ++ "offsetof(UA_Guid, data3) == (sizeof(UA_UInt16) + sizeof(UA_UInt32)) && ".toList
          ++ "offsetof(UA_Guid, data4) == (2*sizeof(UA_UInt32)))".toList
      holds := offsets 0 guidFields == [0, 4, 2 + 4, 2 * 4] }
  | _ => .never

theorem Builtin.overlayableCondition_holds (b : Builtin) :
    b.overlayableCondition.holds = b.overlayable := by
  cases b <;> decide

/-- `builtin_pointerfree` (`tools/generate_datatypes.py:36-37`). -/
def Builtin.pointerfree : Builtin → Bool
  | boolean | sbyte | byte | int16 | uint16 | int32 | uint32 | int64 | uint64 | float | double
  | dateTime | guid | statusCode => true
  | _ => false

mutual

/-- A type as the generator keeps it, by the class of the object. -/
inductive TypeDefinition where
  | builtin (b : Builtin)
  | enumeration (name : String)
  /-- an `OpaqueType`, which is a ByteString under another name -/
  | opaqueType (name : String)
  | structure (name : String) (members : StructMembers)

/-- `StructType.members`, a list of `StructMember`. -/
inductive StructMembers where
  | nil
  | cons (name : String) (memberType : TypeDefinition) (isArray : Bool) (rest : StructMembers)

end

namespace TypeDefinition

/-- `self.name`. -/
def name : TypeDefinition → String
  | builtin b => b.name
  | enumeration name => name
  | opaqueType name => name
  | .structure name _ => name

mutual

/-- What the C type takes in memory, after `typedef_h`: a structure without members is a `void *`
(`tools/generate_datatypes.py:181-183`, `197-198`, `232-242`). -/
def layout : TypeDefinition → Field
  | builtin b => b.layout
  | enumeration _ => ⟨4, 4, by decide, by decide⟩
  | opaqueType _ => Builtin.byteString.layout
  | .structure _ members =>
    match fields members with
    | [] => pointerLayout
    | f :: fs => record f fs

/-- The fields of the C structure: for an array its length and a pointer. -/
def fields : StructMembers → List Field
  | .nil => []
  | .cons _ memberType isArray rest =>
    (if isArray then [sizeLayout, pointerLayout] else [layout memberType]) ++ fields rest

end

/-- `sizeof`. -/
def memSize (d : TypeDefinition) : Nat := d.layout.size

structure Placed where
  name : String
  typeName : String
  offset : Nat
  size : Nat
  deriving DecidableEq

/-- `offsetof(UA_S, m) == (offsetof(UA_S, before) + sizeof(UA_T))`. -/
def adjacent (structName : String) (before m : Placed) : Condition where
  text := "offsetof(UA_".toList ++ structName.toList ++ ", ".toList ++ m.name.toList ++
    ") == (offsetof(UA_".toList ++ structName.toList ++ ", ".toList ++ before.name.toList ++
    ") + sizeof(UA_".toList ++ before.typeName.toList ++ "))".toList
  holds := m.offset == before.offset + before.size

/-- What `StructType` tells about its type. -/
structure Marks where
  pointerfree : Bool
  overlayable : Condition
  deriving DecidableEq

/-- The body of the loop over the members in `StructType.__init__`
(`tools/generate_datatypes.py:219-230`), for a member whose type has the marks `type`. -/
def markMember (structName : String) (before : Option Placed) (here : Placed) (type : Marks)
    (isArray : Bool) (m : Marks) : Marks :=
  let m' : Marks :=
    if isArray ∨ type.pointerfree = false then ⟨false, .never⟩
    else
      let overlayable := m.overlayable.and type.overlayable
      { m with
        overlayable := match before with
          | none => overlayable
          | some before => overlayable.and (adjacent structName before here) }
  { m' with overlayable := if m'.overlayable.SaysFalse then .never else m'.overlayable }

mutual

/-- `pointerfree` and `overlayable` of a type. -/
def marks : TypeDefinition → Marks
  | builtin b => ⟨b.pointerfree, b.overlayableCondition⟩
  | enumeration _ => ⟨true, .overlayableInteger⟩
  | opaqueType _ => ⟨false, .never⟩
  | .structure name members => memberMarks name ⟨true, .always⟩ none 0 members

/-- The loop over the members behind `pos`. -/
def memberMarks (structName : String) (m : Marks) (before : Option Placed) (pos : Nat) :
    StructMembers → Marks
  | .nil => m
  | .cons name memberType isArray rest =>
    let here : Placed :=
      { name, typeName := memberType.name, size := memberType.memSize
        offset := if isArray then sizeLayout.offset pos + 8 else memberType.layout.offset pos }
    memberMarks structName (markMember structName before here (marks memberType) isArray m)
      (some here) (if isArray then sizeLayout.offset pos + 16 else here.offset + here.size) rest

end

/-- `self.overlayable` as the C compiler evaluates it. -/
def overlayable (d : TypeDefinition) : Bool := d.marks.overlayable.holds

end TypeDefinition

/-- An `opc:Field` of a structured type, with the type that its `TypeName` stands for. -/
structure SchemaField where
  name : String
  type : TypeDefinition
  lengthField : Option String

/-- The name with its first letter made small. -/
def memberName (name : String) : String :=
  match name.toList with
  | [] => ""
  | c :: cs => String.ofList (c.toLower :: cs)

/-- The members of a structured type: fields that hold the length of another one are left out
(`tools/generate_datatypes.py:203-214`). -/
def structMembers (fields : List SchemaField) : StructMembers :=
  let lengthfields := fields.filterMap SchemaField.lengthField
  (fields.filter fun f => f.name ∉ lengthfields).foldr
    (fun f rest => .cons (memberName f.name) f.type f.lengthField.isSome rest) .nil

/-- `TypeDescription`: the ids of a type in the table of node ids. -/
structure NodeIdDescription where
  namespaceid : UInt16
  nodeid : UInt32
  binaryEncodingId : UInt16

def StructMembers.length : StructMembers → Nat
  | nil => 0
  | cons _ _ _ rest => rest.length + 1

namespace TypeDefinition

variable (typedescriptions : String → Option NodeIdDescription)

/-- The fields of a description that `datatype_c` writes first. A type that is not in the table of
node ids gets zeros. -/
def typeInfo (name : String) (memSize : UInt16) : TypeInfo :=
  match typedescriptions name with
  | some description =>
    { typeId := ⟨description.namespaceid, .numeric description.nodeid⟩, memSize
      binaryEncodingId := description.binaryEncodingId }
  | none => { typeId := ⟨0, .numeric 0⟩, memSize, binaryEncodingId := 0 }

@[simp] theorem typeInfo_memSize (name : String) (memSize : UInt16) :
    (typeInfo typedescriptions name memSize).memSize = memSize := by
  unfold typeInfo
  split <;> rfl

mutual

/-- The description of a type (`tools/generate_datatypes.py:79-102`). The compiler refuses it when
a constant does not fit into its field, the size into a UInt16 or the number of members into a Byte
(`-Werror`, `CMakeLists.txt:155`). -/
def datatype : TypeDefinition → Option DataType
  | builtin b => some (.builtin b)
  | enumeration name =>
    let info := typeInfo typedescriptions name 4
    some (.enumeration info.typeId info.binaryEncodingId)
  | opaqueType name =>
    some (.structure (typeInfo typedescriptions name 16) false (by simp)
      (.scalar (.builtin .byteString) .nil))
  | .structure name members => do
    let memberTypes ← memberDatatypes members
    if h : (TypeDefinition.structure name members).memSize < 65536 ∧ members.length < 256 then
      some (.structure
        (typeInfo typedescriptions name (.ofNat (TypeDefinition.structure name members).memSize))
        (TypeDefinition.structure name members).overlayable
        (by
          rw [typeInfo_memSize, UInt16.toNat_ofNat_of_lt' h.1]
          exact Field.size_pos _)
        memberTypes)
    else none

def memberDatatypes : StructMembers → Option MemberTypes
  | .nil => some .nil
  | .cons _ memberType isArray rest => do
    let type ← datatype memberType
    let types ← memberDatatypes rest
    return if isArray then .array type types else .scalar type types

end

end TypeDefinition

end FactoryThing
