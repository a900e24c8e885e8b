import FactoryThing.Encoding.DataTypes
import FactoryThing.Lib.LittleEndian

/-!
# The decoding stream

The thread-local state of the decoder and the functions that read from the stream directly
(`src/ua_types_encoding_binary.c:50-58`, `165-310` and `526-621`).

`pos` and `end` are kept as offsets into the source. The code compares `pos` plus a size with
`end` before it reads, and here the read itself says what the comparison is for: it has no meaning
outside the bytes from `start` up to the end.

A function of the decoder gets a destination that is all zero and leaves its status there together
with what it has written so far, whether it succeeds or not; the result here is that pair.
-/

namespace FactoryThing.Encoding

/-- The state of the decoder. `src` is the source buffer, which the decoder writes to as well, and
`start` the offset the caller gave. `allocations` counts the calls of `UA_calloc` and `UA_new`, and
`jumps` are the positions at which a length field has been jumped over. -/
structure DecodeState where
  src : List UInt8
  start : Nat
  pos : Nat
  allocations : Nat
  jumps : List Nat
  deriving DecidableEq

/-- What a run of the decoder depends on besides its input: the type descriptions, and which
allocations succeed. -/
structure DecodeEnv extends TypeTables where
  calloc : Nat → Bool

abbrev DecodeM := StateT DecodeState (Except Fault)

/-- `pos + size > end`. -/
def DecodeState.tooShort (s : DecodeState) (size : Nat) : Prop := s.src.length < s.pos + size

instance (s : DecodeState) (size : Nat) : Decidable (s.tooShort size) :=
  inferInstanceAs (Decidable (s.src.length < s.pos + size))

/-- The `size` bytes at `pos`. -/
def readBytes (size : Nat) : DecodeM (Vector UInt8 size) := do
  let s ← get
  if h : s.start ≤ s.pos ∧ s.pos + size ≤ s.src.length then
    return ⟨((s.src.drop s.pos).take size).toArray, by
      rw [List.size_toArray, List.length_take, List.length_drop]
      omega⟩
  else
    throw Fault.outOfBounds

/-- `pos += size`. -/
def advance (size : Nat) : DecodeM Unit :=
  modify fun s => { s with pos := s.pos + size }

/-- `pos += 4` where a length field is not looked at
(`ua_types_encoding_binary.c:914`, `1068`). -/
def jumpOverLength : DecodeM Unit :=
  modify fun s => { s with pos := s.pos + 4, jumps := s.jumps ++ [s.pos] }

/-- `UA_calloc` and `UA_new`: whether the allocation succeeds. -/
def allocate (env : DecodeEnv) : DecodeM Bool := do
  let s ← get
  set { s with allocations := s.allocations + 1 }
  return env.calloc s.allocations

/-- A destination together with the status of the function that fills it. -/
abbrev Decoded (α : Type) := StatusCode × α

/-- `retval = a(&x); retval |= b(&y)`: the second function runs whatever the first one returned. -/
def decodeBoth {α β : Type} (a : DecodeM (Decoded α)) (b : DecodeM (Decoded β)) :
    DecodeM (Decoded (α × β)) := do
  let (retval, x) ← a
  let (status, y) ← b
  return (retval ||| status, x, y)

/-- `if(c) retval |= b(&y)`; `zero` is the destination left alone. -/
def decodeIf {β : Type} (c : Bool) (b : DecodeM (Decoded β)) (zero : β) : DecodeM (Decoded β) :=
  if c then b else return (StatusCode.good, zero)

/-- The destination with a function applied to it. -/
def decodeMap {α β : Type} (f : α → β) (a : DecodeM (Decoded α)) : DecodeM (Decoded β) := do
  let (retval, x) ← a
  return (retval, f x)

/-- A primitive type: its bytes are copied when they are all there
(`ua_types_encoding_binary.c:165-172`). -/
def decodePrimitive {α : Type} (size : Nat) (fromBytes : Vector UInt8 size → α) (zero : α) :
    DecodeM (Decoded α) := do
  if (← get).tooShort size then
    return (StatusCode.badDecodingError, zero)
  let bytes ← readBytes size
  advance size
  return (StatusCode.good, fromBytes bytes)

def booleanDecodeBinary : DecodeM (Decoded UInt8) :=
  decodePrimitive 1 (fun bytes => if bytes.get ⟨0, Nat.one_pos⟩ > 0 then 1 else 0) 0

def byteDecodeBinary : DecodeM (Decoded UInt8) :=
  decodePrimitive 1 (fun bytes => bytes.get ⟨0, Nat.one_pos⟩) 0

/-- `UInt16_decodeBinary`, and with it `Int16`. -/
def uint16DecodeBinary : DecodeM (Decoded UInt16) :=
  decodePrimitive 2 (fun bytes => UInt16.ofNat (LittleEndian.toNat bytes.toList)) 0

/-- `UInt32_decodeBinary`, and with it `Int32`, `StatusCode` and `Float`. -/
def uint32DecodeBinary : DecodeM (Decoded UInt32) :=
  decodePrimitive 4 (fun bytes => UInt32.ofNat (LittleEndian.toNat bytes.toList)) 0

/-- `UInt64_decodeBinary`, and with it `Int64`, `DateTime` and `Double`. -/
def uint64DecodeBinary : DecodeM (Decoded UInt64) :=
  decodePrimitive 8 (fun bytes => UInt64.ofNat (LittleEndian.toNat bytes.toList)) 0

/-- How `Array_decodeBinary` goes on after the length: it returns, the array is empty, or memory
for so many elements has been allocated. -/
inductive ArrayHeader where
  | fails (status : StatusCode)
  | empty (sentinel : Bool)
  | allocated (length : Nat) (length_pos : 0 < length)

/-- `Array_decodeBinary` up to the allocation (`ua_types_encoding_binary.c:527-557`). -/
def arrayDecodeBinaryHeader (env : DecodeEnv) (memSize : Nat) : DecodeM ArrayHeader := do
  let (retval, signedLength) ← uint32DecodeBinary
  if retval ≠ StatusCode.good then
    return .fails retval
  -- the length is an Int32
  if signedLength ≥ 0x80000000 then
    return .empty false
  if h : signedLength.toNat = 0 then
    return .empty true
  else
    if (← get).tooShort (memSize * signedLength.toNat / 32) then
      return .fails StatusCode.badDecodingError
    if ← allocate env then
      return .allocated signedLength.toNat (Nat.pos_of_ne_zero h)
    else
      return .fails StatusCode.badOutOfMemory

/-- The copy of an overlayable array (`ua_types_encoding_binary.c:559-567`); `none` when the array
has been given up. -/
def arrayDecodeBinaryOverlay (size : Nat) : DecodeM (Decoded (Option (Vector UInt8 size))) :=
  decodePrimitive size some none

/-- The loop over the elements of an array (`ua_types_encoding_binary.c:568-580`), for one element
more than the number says. -/
def arrayDecodeBinaryElements (decodeType : DecodeM (Decoded Value)) :
    Nat → DecodeM (Decoded Values)
  | 0 => decodeMap Values.one decodeType
  | n + 1 => do
    let (retval, v) ← decodeType
    if retval ≠ StatusCode.good then
      return (retval, .one v)
    decodeMap (Values.cons v) (arrayDecodeBinaryElements decodeType n)

/-- `Array_decodeBinary` (`ua_types_encoding_binary.c:526-583`); `decodeType` is the entry of the
jump table for the element type. -/
def arrayDecodeBinary (env : DecodeEnv) (type : DataType) (decodeType : DecodeM (Decoded Value)) :
    DecodeM (Decoded ArrayData) := do
  match ← arrayDecodeBinaryHeader env type.memSize with
  | .fails status => return (status, .empty false)
  | .empty sentinel => return (StatusCode.good, .empty sentinel)
  | .allocated length length_pos =>
    if type.overlayable then
      match ← arrayDecodeBinaryOverlay (type.memSize * length) with
      | (retval, none) => return (retval, .empty false)
      | (retval, some mem) =>
        return (retval, .overlay
          { memSize := type.memSize, length, mem := mem.toList, memSize_pos := type.memSize_pos,
            length_pos, size_eq := mem.length_toList })
    else
      let (retval, data) ← arrayDecodeBinaryElements decodeType (length - 1)
      -- the elements are deleted and the pointer set to `NULL` when one of them fails
      if retval ≠ StatusCode.good then
        return (retval, .empty false)
      return (retval, .elements data)

/-- `String_decodeBinary`, and with it `ByteString` and `XmlElement`: `Array_decodeBinary` on an
array of Bytes (`ua_types_encoding_binary.c:594-597`). -/
def stringDecodeBinary (env : DecodeEnv) : DecodeM (Decoded UaString) := do
  match ← arrayDecodeBinaryHeader env Builtin.byte.memSize.toNat with
  | .fails status => return (status, .null)
  | .empty sentinel => return (StatusCode.good, if sentinel then .sentinel else .null)
  | .allocated length _ =>
    match ← arrayDecodeBinaryOverlay length with
    | (retval, none) => return (retval, .null)
    | (retval, some mem) => return (retval, .mem mem.toList)

/-- The array dimensions of a Variant: `Array_decodeBinary` on an array of Int32
(`ua_types_encoding_binary.c:1127-1129`). -/
def dimensionsDecodeBinary (env : DecodeEnv) : DecodeM (Decoded (List UInt32)) := do
  match ← arrayDecodeBinaryHeader env Builtin.int32.memSize.toNat with
  | .fails status => return (status, [])
  | .empty _ => return (StatusCode.good, [])
  | .allocated length _ =>
    match ← arrayDecodeBinaryOverlay (4 * length) with
    | (retval, none) => return (retval, [])
    | (retval, some mem) =>
      return (retval, (List.range length).map fun i =>
        UInt32.ofNat (LittleEndian.toNat ((mem.toList.drop (4 * i)).take 4)))

end FactoryThing.Encoding
