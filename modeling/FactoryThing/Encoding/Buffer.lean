import FactoryThing.Types.StatusCode
import FactoryThing.Lib.LittleEndian
import FactoryThing.Lib.Stateful

/-!
# The encoding buffer

The thread-local state of the encoder, `exchangeBuffer` and the functions that write to the buffer
directly (`src/ua_types_encoding_binary.c:57-100`, `146-310` and `454-504`).

A buffer is an allocation of its own: what a pointer into one of them means for another one is up
to the allocator. `pos` therefore names the buffer it points into, and to ask for its offset in a
different buffer, as `exchangeBuffer` does when `pos` was set back across an earlier exchange, is
an access out of bounds.
-/

namespace FactoryThing.Encoding

open Stateful

variable (bytes : List UInt8)

/-- `pos`: the buffer it points into, counted by exchanges, and the bytes of it before `pos`. -/
structure Position where
  buffer : Nat
  before : List UInt8
  deriving DecidableEq

/-- The state of the encoder. `encodeBuf` is the length of the current buffer, `none` when its
data pointer is `NULL`; `end` is the end of that buffer. `handle` is what
`exchangeBufferCallbackHandle` points to. -/
structure EncodeState (H : Type) where
  buffer : Nat
  encodeBuf : Option Nat
  pos : Position
  handle : H
  deriving DecidableEq

/-- `UA_exchangeEncodeBuffer`: the callback gets its handle, the bytes of the buffer up to the
offset and the buffer itself, and leaves another buffer in its place. -/
abbrev ExchangeEncodeBuffer (H : Type) :=
  H → List UInt8 → Option Nat → Except Fault (StatusCode × H × Option Nat)

abbrev EncodeM (H : Type) := StateT (EncodeState H) (Except Fault)

variable {H : Type}

/-- The bytes between `pos` and `end`. -/
def EncodeState.room (s : EncodeState H) : Nat := s.encodeBuf.getD 0 - s.pos.before.length

/-- `memcpy(pos, bytes, n); pos += n`. -/
def EncodeState.write (s : EncodeState H) (bytes : List UInt8) : EncodeState H :=
  { s with pos := { s.pos with before := s.pos.before ++ bytes } }

/-- `exchangeBuffer` (`ua_types_encoding_binary.c:77-100`). -/
def exchangeBuffer (callback : Option (ExchangeEncodeBuffer H)) : EncodeM H StatusCode := do
  match callback with
  | none => return StatusCode.badEncodingError
  | some exchangeBufferCallback =>
    let s ← get
    if s.pos.buffer ≠ s.buffer then
      throw Fault.outOfBounds
    else
      let (retval, handle, encodeBuf) ← exchangeBufferCallback s.handle s.pos.before s.encodeBuf
      set ({ buffer := s.buffer + 1, encodeBuf, pos := ⟨s.buffer + 1, []⟩, handle } : EncodeState H)
      return retval

/-- A primitive type: its bytes are written when they fit into the rest of the buffer
(`ua_types_encoding_binary.c:147-153`). -/
def encodePrimitive (bytes : List UInt8) : EncodeM H StatusCode := do
  let s ← get
  if bytes.length > s.room then
    return StatusCode.badEncodingLimitsExceeded
  else
    set (s.write bytes)
    return StatusCode.good

/-- `Byte_encodeBinary` and `Boolean_encodeBinary`. -/
def byteEncodeBinary (src : UInt8) : EncodeM H StatusCode :=
  encodePrimitive [src]

def uint16EncodeBinary (src : UInt16) : EncodeM H StatusCode :=
  encodePrimitive (LittleEndian.toBytes 2 src.toNat)

/-- `UInt32_encodeBinary`, and with it `Int32`, `StatusCode` and `Float`. -/
def uint32EncodeBinary (src : UInt32) : EncodeM H StatusCode :=
  encodePrimitive (LittleEndian.toBytes 4 src.toNat)

/-- `UInt64_encodeBinary`, and with it `Int64`, `DateTime` and `Double`. -/
def uint64EncodeBinary (src : UInt64) : EncodeM H StatusCode :=
  encodePrimitive (LittleEndian.toBytes 8 src.toNat)

/-- `retval = a; retval |= b`: the second function runs whatever the first one returned. -/
def orStatus (a b : EncodeM H StatusCode) : EncodeM H StatusCode := do
  let retval ← a
  let status ← b
  return retval ||| status

/-- `if(field is set) retval |= b`. -/
def onlyIf (c : Bool) (b : EncodeM H StatusCode) : EncodeM H StatusCode :=
  if c then b else return StatusCode.good

/-- Encode one member, array element or wrapped element and, when the end of the buffer was
reached, set `pos` back, exchange the buffer and encode it once more: the body of the loops of
`UA_encodeBinaryInternal`, `Array_encodeBinaryComplex` and
`Variant_encodeBinaryWrapExtensionObject` (`ua_types_encoding_binary.c:1325-1336`, `484-498` and
`979-992`). `fuel` bounds the repetitions. -/
def encodeWithExchange (callback : Option (ExchangeEncodeBuffer H))
    (encodeType : EncodeM H StatusCode) : Nat → EncodeM H StatusCode
  | 0 => throw Fault.diverges
  | fuel + 1 => do
    let oldpos := (← get).pos
    let retval ← encodeType
    if retval = StatusCode.badEncodingLimitsExceeded then
      modify fun s => { s with pos := oldpos }
      let retval ← exchangeBuffer callback
      if retval = StatusCode.good then
        encodeWithExchange callback encodeType fuel
      else
        return retval
    else
      return retval

/-- `Array_encodeBinaryOverlayable` (`ua_types_encoding_binary.c:454-475`), on the memory from
`ptr` on. -/
def arrayEncodeBinaryOverlayable (callback : Option (ExchangeEncodeBuffer H))
    (elementMemSize : Nat) : Nat → List UInt8 → EncodeM H StatusCode
  | 0, _ => throw Fault.diverges
  | fuel + 1, mem => do
    let s ← get
    if s.room < mem.length then
      let possible := s.room / elementMemSize
      let possibleMem := possible * elementMemSize
      set (s.write (mem.take possibleMem))
      let retval ← exchangeBuffer callback
      if retval ≠ StatusCode.good then
        return retval
      else
        arrayEncodeBinaryOverlayable callback elementMemSize fuel (mem.drop possibleMem)
    else
      set (s.write mem)
      return StatusCode.good

variable (s : EncodeState H) {r : StatusCode} {s' : EncodeState H}

@[simp] theorem EncodeState.write_buffer :
    (s.write bytes).buffer = s.buffer := rfl

@[simp] theorem EncodeState.write_encodeBuf :
    (s.write bytes).encodeBuf = s.encodeBuf := rfl

@[simp] theorem EncodeState.write_handle :
    (s.write bytes).handle = s.handle := rfl

@[simp] theorem EncodeState.write_pos_buffer :
    (s.write bytes).pos.buffer = s.pos.buffer := rfl

@[simp] theorem EncodeState.write_before :
    (s.write bytes).pos.before = s.pos.before ++ bytes := rfl

@[simp] theorem EncodeState.write_nil : s.write [] = s := by
  simp [EncodeState.write]

@[simp] theorem EncodeState.write_write (xs ys : List UInt8) :
    (s.write xs).write ys = s.write (xs ++ ys) := by
  simp [EncodeState.write]

@[simp] theorem EncodeState.room_write :
    (s.write bytes).room = s.room - bytes.length := by
  simp [EncodeState.room, Nat.sub_sub]

theorem run_encodePrimitive (s : EncodeState H) :
    (encodePrimitive bytes).run s = .ok (if bytes.length > s.room
      then (StatusCode.badEncodingLimitsExceeded, s) else (StatusCode.good, s.write bytes)) := by
  by_cases h : bytes.length > s.room
  · simp [encodePrimitive, h]
    rfl
  · simp [encodePrimitive, h]
    rfl

theorem run_orStatus_ok {a b : EncodeM H StatusCode} {s : EncodeState H} :
    (orStatus a b).run s = .ok (r, s') ↔ ∃ r1 s1, a.run s = .ok (r1, s1) ∧
      ∃ r2, b.run s1 = .ok (r2, s') ∧ r = r1 ||| r2 := by
  simp only [orStatus, run_bind_ok, run_pure_ok]
  constructor
  · rintro ⟨r1, s1, ha, r2, s2, hb, hr, rfl⟩
    exact ⟨r1, s1, ha, r2, hb, hr⟩
  · rintro ⟨r1, s1, ha, r2, hb, hr⟩
    exact ⟨r1, s1, ha, r2, s', hb, hr, rfl⟩

theorem run_encodeWithExchange_succ_ok {callback : Option (ExchangeEncodeBuffer H)}
    {f : EncodeM H StatusCode} {n : Nat} {s : EncodeState H} :
    (encodeWithExchange callback f (n + 1)).run s = .ok (r, s') ↔
      ∃ r1 s1, f.run s = .ok (r1, s1) ∧
        if r1 = StatusCode.badEncodingLimitsExceeded then
          ∃ r2 s2, (exchangeBuffer callback).run { s1 with pos := s.pos } = .ok (r2, s2) ∧
            if r2 = StatusCode.good then (encodeWithExchange callback f n).run s2 = .ok (r, s')
            else r = r2 ∧ s' = s2
        else r = r1 ∧ s' = s1 := by
  simp only [encodeWithExchange, run_bind_ok, run_get_ok, run_ite_ok, run_pure_ok, run_modify_ok,
    and_assoc, exists_eq_left]
  simp

theorem run_arrayEncodeBinaryOverlayable_succ_ok {callback : Option (ExchangeEncodeBuffer H)}
    {unit n : Nat} {mem : List UInt8} {s : EncodeState H} :
    (arrayEncodeBinaryOverlayable callback unit (n + 1) mem).run s = .ok (r, s') ↔
      if s.room < mem.length then
        ∃ r1 s1, (exchangeBuffer callback).run (s.write (mem.take (s.room / unit * unit))) =
            .ok (r1, s1) ∧
          if r1 = StatusCode.good then
            (arrayEncodeBinaryOverlayable callback unit n (mem.drop (s.room / unit * unit))).run
              s1 = .ok (r, s')
          else r = r1 ∧ s' = s1
      else r = StatusCode.good ∧ s' = s.write mem := by
  simp only [arrayEncodeBinaryOverlayable, run_bind_ok, run_get_ok, run_ite_ok, run_pure_ok,
    run_set_ok, and_assoc, exists_eq_left, ne_eq, ite_not]
  simp

end FactoryThing.Encoding
