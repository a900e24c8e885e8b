import FactoryThing.Encoding.DataTypes
import FactoryThing.Lib.LittleEndian

/-!
# How far an encoding goes

The binary format as a measure: what a value of a type leaves of the bytes it stands in front of. It
knows neither values nor errors nor memory, only where a message ends too early. The body of a
wrapped structure must take just the bytes that its length field announces.
-/

namespace FactoryThing.Encoding

/-- What is left behind a value, if the value is all there. -/
abbrev Extent := List UInt8 → Option (List UInt8)

namespace Extent

def skip (n : Nat) : Extent := fun bs => if n ≤ bs.length then some (bs.drop n) else none

/-- One part behind the other. -/
def both (a b : Extent) : Extent := fun bs => (a bs).bind b

def skipIf (c : Bool) (a : Extent) : Extent := if c then a else some

/-- A byte that says what follows. -/
def byte (rest : UInt8 → Extent) : Extent
  | [] => none
  | b :: bs => rest b bs

def times (a : Extent) : Nat → Extent
  | 0 => some
  | n + 1 => both a (times a n)

/-- The number in front of the bytes. -/
def lengthOf (bs : List UInt8) : Nat := LittleEndian.toNat (bs.take 4)

/-- An Int32 that counts what follows; nothing follows when it is not positive. -/
def counted (content : Nat → Extent) : Extent := fun bs =>
  (skip 4 bs).bind fun rest =>
    if lengthOf bs = 0 ∨ 2147483648 ≤ lengthOf bs then some rest else content (lengthOf bs) rest

/-- A content that takes as many bytes as the length in front of it announces. -/
def body (content : Extent) : Extent := fun bs =>
  (skip 4 bs).bind fun rest => (content rest).bind fun after =>
    if rest.length = lengthOf bs + after.length ∧ lengthOf bs < 2147483648 then some after else none

/-- The length of a string, and its bytes. -/
def string : Extent := counted skip

/-- A NodeId, by its encoding byte. -/
def nodeId : Extent := byte fun encoding =>
  if encoding = 0 then skip 1
  else if encoding = 1 then both (skip 1) (skip 2)
  else if encoding = 2 then both (skip 2) (skip 4)
  else if encoding = 3 then both (skip 2) string
  else if encoding = 4 then both (skip 2) (skip 16)
  else if encoding = 5 then both (skip 2) string
  else fun _ => none

/-- An ExpandedNodeId; the flags are masked before the NodeId is read. -/
def expandedNodeId : Extent
  | [] => none
  | encoding :: bs =>
    both (both nodeId (skipIf (encoding &&& 0x80 ≠ 0) string))
      (skipIf (encoding &&& 0x40 ≠ 0) (skip 4))
      ((encoding &&& 0x3F) :: bs)

/-- A LocalizedText, by its mask. -/
def localizedText : Extent := byte fun encoding =>
  both (skipIf (encoding &&& 0x01 ≠ 0) string) (skipIf (encoding &&& 0x02 ≠ 0) string)

/-- A DiagnosticInfo, with its inner ones. -/
def diagnosticInfo : Nat → Extent
  | 0 => fun _ => none
  | fuel + 1 => byte fun mask =>
    both (both (both (both (both (both (skipIf (mask &&& 0x01 ≠ 0) (skip 4))
      (skipIf (mask &&& 0x02 ≠ 0) (skip 4))) (skipIf (mask &&& 0x04 ≠ 0) (skip 4)))
      (skipIf (mask &&& 0x08 ≠ 0) (skip 4))) (skipIf (mask &&& 0x10 ≠ 0) string))
      (skipIf (mask &&& 0x20 ≠ 0) (skip 4))) (skipIf (mask &&& 0x40 ≠ 0) (diagnosticInfo fuel))

/-- The length of an array, and its elements. -/
def array (type : DataType) (element : Extent) : Extent :=
  counted fun n => if type.overlayable then skip (type.memSize * n) else times element n

/-- A NodeId with a number, and what is left behind it. -/
def numericNodeId : List UInt8 → Option (NodeId × List UInt8)
  | 0 :: n :: rest => some (⟨0, .numeric n.toUInt32⟩, rest)
  | 1 :: ns :: a :: b :: rest =>
    some (⟨ns.toUInt16, .numeric (UInt16.ofNat (LittleEndian.toNat [a, b])).toUInt32⟩, rest)
  | 2 :: x :: y :: a :: b :: c :: d :: rest =>
    some (⟨UInt16.ofNat (LittleEndian.toNat [x, y]),
      .numeric (UInt32.ofNat (LittleEndian.toNat [a, b, c, d]))⟩, rest)
  | _ => none

variable (tables : TypeTables) (content : DataType → Extent)

/-- The header of a wrapped structure of a known type, and what is left behind it. -/
def knownHeader (bs : List UInt8) : Option (DataType × List UInt8) :=
  match numericNodeId bs with
  | some (typeId, 1 :: rest) => (findDataTypeByBinary tables typeId).map fun type => (type, rest)
  | _ => none

/-- An ExtensionObject; a known type is taken apart. -/
def extensionObject : Extent := fun bs =>
  match knownHeader tables bs with
  | some (type, rest) => body (content type) rest
  | none => both nodeId (byte fun encoding => if encoding = 0 then some else string) bs

/-- An ExtensionObject in a Variant, which is unwrapped if its type is known. -/
def unwrapped : Extent := fun bs =>
  match knownHeader tables bs with
  | some (type, rest) => body (content type) rest
  | none => content (.builtin .extensionObject) bs

/-- A Variant. -/
def variant : Extent := byte fun encoding =>
  if encoding = 0 then some
  else if encoding &&& 0x3F = 0 then fun _ => none
  else
    match Builtin.ofIndex ((encoding &&& 0x3F).toNat - 1) with
    | none => fun _ => none
    | some b =>
      if encoding &&& 0x80 ≠ 0 then
        both (array (.builtin b) (content (.builtin b)))
          (skipIf (encoding &&& 0x40 ≠ 0) (counted fun n => skip (4 * n)))
      else if b = .extensionObject then unwrapped tables content
      else content (.builtin b)

/-- A DataValue, by its mask. -/
def dataValue : Extent := byte fun mask =>
  both (both (both (both (both (skipIf (mask &&& 0x01 ≠ 0) (variant tables content))
    (skipIf (mask &&& 0x02 ≠ 0) (skip 4))) (skipIf (mask &&& 0x04 ≠ 0) (skip 8)))
    (skipIf (mask &&& 0x10 ≠ 0) (skip 2))) (skipIf (mask &&& 0x08 ≠ 0) (skip 8)))
    (skipIf (mask &&& 0x20 ≠ 0) (skip 2))

/-- The bytes of a builtin type. -/
def builtin (fuel : Nat) : Builtin → Extent
  | .boolean | .sbyte | .byte => skip 1
  | .int16 | .uint16 => skip 2
  | .int32 | .uint32 | .float | .statusCode => skip 4
  | .int64 | .uint64 | .double | .dateTime => skip 8
  | .string | .byteString | .xmlElement => string
  | .guid => skip 16
  | .nodeId => nodeId
  | .expandedNodeId => expandedNodeId
  | .qualifiedName => both (skip 2) string
  | .localizedText => localizedText
  | .extensionObject => extensionObject tables content
  | .dataValue => dataValue tables content
  | .variant => variant tables content
  | .diagnosticInfo => diagnosticInfo fuel

mutual

def ofType (fuel : Nat) : DataType → Extent
  | .builtin b => builtin tables content fuel b
  | .enumeration _ _ => skip 4
  | .structure _ _ _ types => ofMembers fuel types

def ofMembers (fuel : Nat) : MemberTypes → Extent
  | .nil => some
  | .scalar type rest => both (ofType fuel type) (ofMembers fuel rest)
  | .array type rest => both (array type (ofType fuel type)) (ofMembers fuel rest)

end

/-- A value of the type, with values in values to a depth of `fuel`. -/
def value (tables : TypeTables) : Nat → DataType → Extent
  | 0, _ => fun _ => none
  | fuel + 1, type => ofType tables (value tables fuel) (fuel + 1) type

end Extent

end FactoryThing.Encoding
