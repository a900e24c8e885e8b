import FactoryThing.Encoding.CalcSize

/-!
# Values in memory and their copies

`UA_copy` and the copy functions of `src/ua_types.c:315-405`, `735-910` and `994-1031`. The encoder
asks of an array of length zero only whether its pointer is the sentinel, the copy functions whether
it is `NULL`. So here an array of length zero keeps its pointer, and `value` forgets it as far as
the encoder does. An array of a `pointerFree` type is copied as one block, which is the same as
copying its elements.
-/

namespace FactoryThing.Encoding

/-- The pointer of an array of length zero. -/
inductive EmptyPointer where
  | null
  | sentinel
  | ordinary
  deriving DecidableEq

/-- A value without nested values. -/
inductive Leaf where
  | byte (v : UInt8)
  | uint16 (v : UInt16)
  | uint32 (v : UInt32)
  | uint64 (v : UInt64)
  | string (s : UaString)
  | guid (g : Guid)
  | nodeId (n : NodeId)
  | expandedNodeId (n : ExpandedNodeId)
  | localizedText (t : LocalizedText)
  | encodedObject (typeId : NodeId) (body : EncodedBody)
  | diagnosticInfo (d : DiagnosticInfo)

mutual

/-- A value in memory with its type, as `Value`. -/
inductive Stored where
  | leaf (l : Leaf)
  | decodedObject (type : TypeInfo) (data : Stored)
  | unsetObject
  | dataValue (hasValue : Bool) (value : StoredVariant) (fields : DataValueFields)
  | variant (v : StoredVariant)
  | structure (members : StoredMembers)

/-- `UA_Variant`. With an ordinary pointer a length of zero means a scalar. -/
inductive StoredVariant where
  | empty
  | scalar (type : Builtin) (data : Stored)
  | emptyArray (type : Builtin) (sentinel : Bool) (arrayDimensions : List UInt32)
  | overlayArray (type : Builtin) (block : Block) (arrayDimensions : List UInt32)
  | array (type : Builtin) (data : StoredValues) (arrayDimensions : List UInt32)
  | wrapped (type : TypeInfo) (data : Stored)
  | wrappedEmpty (type : TypeInfo) (arrayDimensions : List UInt32)
  | wrappedArray (type : TypeInfo) (data : StoredValues) (arrayDimensions : List UInt32)

/-- The members of a stored structure. -/
inductive StoredMembers where
  | nil
  | scalar (v : Stored) (rest : StoredMembers)
  | emptyArray (pointer : EmptyPointer) (rest : StoredMembers)
  | overlayArray (block : Block) (rest : StoredMembers)
  | array (data : StoredValues) (rest : StoredMembers)

/-- The elements of an array whose length is positive. -/
inductive StoredValues where
  | one (v : Stored)
  | cons (v : Stored) (rest : StoredValues)

end

/-- What the encoder sees of a leaf. -/
def Leaf.value : Leaf → Value
  | byte v => .byte v
  | uint16 v => .uint16 v
  | uint32 v => .uint32 v
  | uint64 v => .uint64 v
  | string s => .string s
  | guid g => .guid g
  | nodeId n => .nodeId n
  | expandedNodeId n => .expandedNodeId n
  | localizedText t => .localizedText t
  | encodedObject typeId body => .encodedObject typeId body
  | diagnosticInfo d => .diagnosticInfo d

mutual

/-- What the encoder sees of a stored value. -/
def Stored.value : Stored → Value
  | .leaf l => l.value
  | .decodedObject type data => .decodedObject type data.value
  | .unsetObject => .unsetObject
  | .dataValue hasValue value fields => .dataValue hasValue value.value fields
  | .variant v => .variant v.value
  | .structure members => .structure members.value

def StoredVariant.value : StoredVariant → Variant
  | .empty => .empty
  | .scalar type data => .scalar type data.value
  | .emptyArray type sentinel dims => .array type (.empty sentinel) dims
  | .overlayArray type block dims => .array type (.overlay block) dims
  | .array type data dims => .array type (.elements data.value) dims
  | .wrapped type data => .wrapped type data.value
  | .wrappedEmpty type dims => .wrappedEmpty type dims
  | .wrappedArray type data dims => .wrappedArray type data.value dims

def StoredMembers.value : StoredMembers → Members
  | .nil => .nil
  | .scalar v rest => .scalar v.value rest.value
  | .emptyArray pointer rest => .array (.empty (pointer = .sentinel)) rest.value
  | .overlayArray block rest => .array (.overlay block) rest.value
  | .array data rest => .array (.elements data.value) rest.value

def StoredValues.value : StoredValues → Values
  | .one v => .one v.value
  | .cons v rest => .cons v.value rest.value

end

/-- `UA_Array_copy` on the bytes of a string (`ua_types.c:994-1031`). -/
def stringCopy (src : UaString) : UaString :=
  match src with
  | .null => .null
  | .sentinel => .sentinel
  | .mem [] => .sentinel
  | .mem (b :: bs) => .mem (b :: bs)

/-- `UA_Array_copy` on an array of length zero. -/
def EmptyPointer.copy : EmptyPointer → EmptyPointer
  | null => null
  | _ => sentinel

/-- `NodeId_copy` (`ua_types.c:205-231`). -/
def nodeIdCopy (src : NodeId) : NodeId :=
  match src.identifier with
  | .string s => { src with identifier := .string (stringCopy s) }
  | .byteString s => { src with identifier := .byteString (stringCopy s) }
  | _ => src

/-- `ExpandedNodeId_copy`. -/
def expandedNodeIdCopy (src : ExpandedNodeId) : ExpandedNodeId where
  nodeId := nodeIdCopy src.nodeId
  namespaceUri := stringCopy src.namespaceUri
  serverIndex := src.serverIndex

/-- `LocalizedText_copy`. -/
def localizedTextCopy (src : LocalizedText) : LocalizedText :=
  ⟨stringCopy src.locale, stringCopy src.text⟩

/-- `ExtensionObject_copy` on the encoded body. -/
def bodyCopy : EncodedBody → EncodedBody
  | .noBody => .noBody
  | .byteString s => .byteString (stringCopy s)
  | .xml s => .xml (stringCopy s)

/-- `DiagnosticInfo_copy`. -/
def diagnosticInfoCopy : DiagnosticInfo → DiagnosticInfo
  | .mk symbolicId namespaceUri localizedText locale additionalInfo innerStatusCode inner =>
    .mk symbolicId namespaceUri localizedText locale (additionalInfo.map stringCopy)
      innerStatusCode
      (match inner with
        | some d => some (diagnosticInfoCopy d)
        | none => none)

/-- The entries of `copyJumpTable` for values without values in them. -/
def Leaf.copy : Leaf → Leaf
  | string s => string (stringCopy s)
  | nodeId n => nodeId (nodeIdCopy n)
  | expandedNodeId n => expandedNodeId (expandedNodeIdCopy n)
  | localizedText t => localizedText (localizedTextCopy t)
  | encodedObject typeId body => encodedObject (nodeIdCopy typeId) (bodyCopy body)
  | diagnosticInfo d => diagnosticInfo (diagnosticInfoCopy d)
  | l => l

mutual

/-- `UA_copy` (`ua_types.c:903-910`) with the entries of `copyJumpTable`; `none` is a bad status.
Memory is assumed to be there, so that only an ExtensionObject without type or data is refused. -/
def Stored.copy : Stored → Option Stored
  | .leaf l => some (.leaf l.copy)
  | .decodedObject type data => data.copy.map (.decodedObject type)
  | .unsetObject => none
  | .dataValue hasValue value fields => value.copy.map (.dataValue hasValue · fields)
  | .variant v => v.copy.map .variant
  | .structure members => members.copy.map .structure

/-- `Variant_copy` (`ua_types.c:379-398`). -/
def StoredVariant.copy : StoredVariant → Option StoredVariant
  | .scalar type data => data.copy.map (.scalar type)
  | .array type data dims => data.copy.map (.array type · dims)
  | .wrapped type data => data.copy.map (.wrapped type)
  | .wrappedArray type data dims => data.copy.map (.wrappedArray type · dims)
  | v => some v

/-- `copy_noInit` (`ua_types.c:867-901`). -/
def StoredMembers.copy : StoredMembers → Option StoredMembers
  | .nil => some .nil
  | .scalar v rest => v.copy.bind fun v => rest.copy.map (.scalar v)
  | .emptyArray pointer rest => rest.copy.map (.emptyArray pointer.copy)
  | .overlayArray block rest => rest.copy.map (.overlayArray block)
  | .array data rest => data.copy.bind fun data => rest.copy.map (.array data)

/-- The loop of `UA_Array_copy`. -/
def StoredValues.copy : StoredValues → Option StoredValues
  | .one v => v.copy.map .one
  | .cons v rest => v.copy.bind fun v => rest.copy.map (.cons v)

end

/-- No string in the NodeId has length zero and an ordinary pointer. -/
def TidyNodeId (n : NodeId) : Prop :=
  match n.identifier with
  | .string s => s ≠ .mem []
  | .byteString s => s ≠ .mem []
  | _ => True

def TidyBody : EncodedBody → Prop
  | .noBody => True
  | .byteString s => s ≠ .mem []
  | .xml s => s ≠ .mem []

def TidyInfo : DiagnosticInfo → Prop
  | .mk _ _ _ _ additionalInfo _ inner =>
    additionalInfo ≠ some (.mem []) ∧
      (match inner with
        | some d => TidyInfo d
        | none => True)

/-- No empty string has an ordinary pointer. -/
def Leaf.Tidy : Leaf → Prop
  | string s => s ≠ .mem []
  | nodeId n => TidyNodeId n
  | expandedNodeId n => TidyNodeId n.nodeId ∧ n.namespaceUri ≠ .mem []
  | localizedText t => t.locale ≠ .mem [] ∧ t.text ≠ .mem []
  | encodedObject typeId body => TidyNodeId typeId ∧ TidyBody body
  | diagnosticInfo d => TidyInfo d
  | _ => True

mutual

/-- Nothing that is encoded has length zero and an ordinary pointer. -/
def Stored.Tidy : Stored → Prop
  | .leaf l => l.Tidy
  | .decodedObject _ data => data.Tidy
  | .unsetObject => True
  | .dataValue hasValue value _ => hasValue = true → value.Tidy
  | .variant v => v.Tidy
  | .structure members => members.Tidy

def StoredVariant.Tidy : StoredVariant → Prop
  | .scalar _ data => data.Tidy
  | .array _ data _ => data.Tidy
  | .wrapped _ data => data.Tidy
  | .wrappedArray _ data _ => data.Tidy
  | _ => True

def StoredMembers.Tidy : StoredMembers → Prop
  | .nil => True
  | .scalar v rest => v.Tidy ∧ rest.Tidy
  | .emptyArray pointer rest => pointer ≠ .ordinary ∧ rest.Tidy
  | .overlayArray _ rest => rest.Tidy
  | .array data rest => data.Tidy ∧ rest.Tidy

def StoredValues.Tidy : StoredValues → Prop
  | .one v => v.Tidy
  | .cons v rest => v.Tidy ∧ rest.Tidy

end

end FactoryThing.Encoding
