import FactoryThing.Types.StatusCode
import FactoryThing.Lib.Loop
import Mathlib

/-!
# The overlayable array loop

`Array_encodeBinaryOverlayable` with the addresses it computes with
(`src/ua_types_encoding_binary.c:454-476`). The pointers and sizes are 64-bit words, every sum,
product and difference of them wraps around, and each `memcpy` is recorded. Memory of a program lies
in the lower half of the address space, as on every 64-bit system; that is why nothing wraps here.
-/

namespace FactoryThing.Encoding

open Loop

variable {s : OverlayState}

/-- A buffer: its memory is in the lower half of the address space. -/
structure Region where
  data : UInt64
  length : UInt64
  lower : data.toNat + length.toNat < 2 ^ 63

/-- `&encodeBuf->data[encodeBuf->length]`. -/
def Region.limit (r : Region) : UInt64 := r.data + r.length

/-- An array in memory, and the bytes it has there. -/
structure OverlayArray where
  ptr : UInt64
  length : UInt64
  elementMemSize : UInt64
  mem : List UInt8
  size_eq : mem.length = elementMemSize.toNat * length.toNat
  lower : ptr.toNat + mem.length < 2 ^ 63

/-- `memcpy(dst, src, size)` into the buffer with this number. -/
structure Memcpy where
  buffer : Nat
  dst : UInt64
  src : UInt64
  size : UInt64
  deriving DecidableEq

def Memcpy.bytes (a : OverlayArray) (c : Memcpy) : List UInt8 :=
  (a.mem.drop (c.src.toNat - a.ptr.toNat)).take c.size.toNat

/-- The variables of the loop, with `encodeBuf`, `pos` and `end`; `buffer` counts the exchanges. -/
structure OverlayState where
  buffer : Nat
  encodeBuf : Region
  pos : UInt64
  limit : UInt64
  ptr : UInt64
  finished : UInt64
  copies : List Memcpy

/-- `memcpy(pos, ptr, size); pos += size`. -/
def OverlayState.memcpy (s : OverlayState) (size : UInt64) : OverlayState :=
  { s with
    pos := s.pos + size
    copies := s.copies ++ [⟨s.buffer, s.pos, s.ptr, size⟩] }

/-- `exchangeBufferCallback`: with the number of the exchange and the bytes that are in the buffer,
a status and the next buffer. -/
abbrev Exchange := Nat → UInt64 → StatusCode × Region

/-- `exchangeBuffer` (`:77-100`). -/
def OverlayState.exchangeBuffer (callback : Option Exchange) (s : OverlayState) :
    StatusCode × OverlayState :=
  match callback with
  | none => (StatusCode.badEncodingError, s)
  | some exchangeBufferCallback =>
    let offset := s.pos - s.encodeBuf.data
    let (retval, encodeBuf) := exchangeBufferCallback s.buffer offset
    (retval, { s with
      buffer := s.buffer + 1
      encodeBuf := encodeBuf
      pos := encodeBuf.data
      limit := encodeBuf.limit })

/-- A round of the loop, or what is behind it. -/
def overlayRound (callback : Option Exchange) (length elementMemSize : UInt64) (s : OverlayState) :
    (StatusCode × OverlayState) ⊕ OverlayState :=
  if s.limit < s.pos + elementMemSize * (length - s.finished) then
    let possible := (s.limit - s.pos) / elementMemSize
    let possibleMem := possible * elementMemSize
    let s := s.memcpy possibleMem
    let s := { s with ptr := s.ptr + possibleMem, finished := s.finished + possible }
    let (retval, s) := s.exchangeBuffer callback
    if retval ≠ StatusCode.good then .inl (retval, s) else .inr s
  else .inl (StatusCode.good, s.memcpy (elementMemSize * (length - s.finished)))

/-- `Array_encodeBinaryOverlayable` with at most `fuel` rounds, from `pos` in the buffer `first`. -/
def overlayLoop (callback : Option Exchange) (a : OverlayArray) (first : Region) (pos : UInt64)
    (fuel : Nat) : Option (StatusCode × OverlayState) :=
  whileTrue (overlayRound callback a.length a.elementMemSize) fuel
    ⟨0, first, pos, first.limit, a.ptr, 0, []⟩

/-- The buffers in their order: the first one, then those of the callback. -/
def bufferAt (first : Region) (buffers : Nat → Region) : Nat → Region
  | 0 => first
  | k + 1 => buffers k

/-- Where the free memory of a buffer begins. -/
def freeFrom (pos : UInt64) (buffers : Nat → Region) : Nat → UInt64
  | 0 => pos
  | k + 1 => (buffers k).data

/-- The write stays inside of its buffer. -/
def Memcpy.Inside (region : Nat → Region) (c : Memcpy) : Prop :=
  (region c.buffer).data.toNat ≤ c.dst.toNat ∧
    c.dst.toNat + c.size.toNat ≤ (region c.buffer).data.toNat + (region c.buffer).length.toNat

/-- All bytes of an element of the array are written by it. -/
def Memcpy.Whole (a : OverlayArray) (j : Nat) (c : Memcpy) : Prop :=
  c.src.toNat ≤ a.ptr.toNat + j * a.elementMemSize.toNat ∧
    a.ptr.toNat + (j + 1) * a.elementMemSize.toNat ≤ c.src.toNat + c.size.toNat

/-- What has been copied when `finished` elements have been: one copy for each buffer from the first
one on, at its free memory and inside of it, the bytes of these elements in their order, and each
element as a whole. -/
structure CopiedOnce (a : OverlayArray) (first : Region) (pos : UInt64) (buffers : Nat → Region)
    (finished : Nat) (copies : List Memcpy) : Prop where
  eachBuffer : copies.map Memcpy.buffer = List.range copies.length
  starts : ∀ c ∈ copies, c.dst = freeFrom pos buffers c.buffer
  inside : ∀ c ∈ copies, c.Inside (bufferAt first buffers)
  bytes : copies.flatMap (Memcpy.bytes a) = a.mem.take (finished * a.elementMemSize.toNat)
  whole : ∀ j < finished, ∃ c ∈ copies, c.Whole a j

section

variable {a : OverlayArray} {first : Region} {pos : UInt64} {buffers : Nat → Region}

theorem CopiedOnce.none : CopiedOnce a first pos buffers 0 [] := by
  constructor <;> simp

theorem OverlayArray.mem_lt (a : OverlayArray) :
    a.elementMemSize.toNat * a.length.toNat < 2 ^ 63 := by
  have := a.lower
  have := a.size_eq
  omega

theorem Region.limit_toNat (r : Region) : r.limit.toNat = r.data.toNat + r.length.toNat := by
  have := r.lower
  rw [Region.limit, UInt64.toNat_add, Nat.mod_eq_of_lt (by omega)]

theorem CopiedOnce.append {finished more : Nat} {copies : List Memcpy} {c : Memcpy}
    (h : CopiedOnce a first pos buffers finished copies) (hbuffer : c.buffer = copies.length)
    (hdst : c.dst = freeFrom pos buffers c.buffer) (hinside : c.Inside (bufferAt first buffers))
    (hsrc : c.src.toNat = a.ptr.toNat + finished * a.elementMemSize.toNat)
    (hsize : c.size.toNat = more * a.elementMemSize.toNat) :
    CopiedOnce a first pos buffers (finished + more) (copies ++ [c]) where
  eachBuffer := by simp [h.eachBuffer, hbuffer, List.range_succ]
  starts := by
    intro x hx
    rcases List.mem_append.mp hx with hx | hx
    · exact h.starts x hx
    · simpa [List.mem_singleton.mp hx] using hdst
  inside := by
    intro x hx
    rcases List.mem_append.mp hx with hx | hx
    · exact h.inside x hx
    · simpa [List.mem_singleton.mp hx] using hinside
  bytes := by
    simp only [List.flatMap_append, h.bytes, List.flatMap_cons, List.flatMap_nil, List.append_nil,
      Memcpy.bytes, hsrc, hsize, Nat.add_sub_cancel_left]
    rw [Nat.add_mul, List.take_add]
  whole := by
    intro j hj
    by_cases hold : j < finished
    · rcases h.whole j hold with ⟨x, hx, hw⟩
      exact ⟨x, List.mem_append_left _ hx, hw⟩
    · refine ⟨c, by simp, ?_, ?_⟩
      · have := Nat.mul_le_mul_right a.elementMemSize.toNat (Nat.le_of_not_lt hold)
        omega
      · rw [hsrc, hsize, Nat.add_assoc, ← Nat.add_mul]
        have := Nat.mul_le_mul_right a.elementMemSize.toNat (show j + 1 ≤ finished + more from hj)
        omega

/-- The invariant at the head of the loop. -/
structure AtHead (a : OverlayArray) (first : Region) (pos : UInt64) (buffers : Nat → Region)
    (s : OverlayState) : Prop where
  finished : s.finished.toNat ≤ a.length.toNat
  ptr : s.ptr.toNat = a.ptr.toNat + s.finished.toNat * a.elementMemSize.toNat
  buffer : s.buffer = s.copies.length
  pos_eq : s.pos = freeFrom pos buffers s.buffer
  limit : s.limit = (bufferAt first buffers s.buffer).limit
  above : (bufferAt first buffers s.buffer).data.toNat ≤ s.pos.toNat
  below : s.pos.toNat ≤ s.limit.toNat
  copied : CopiedOnce a first pos buffers s.finished.toNat s.copies

theorem AtHead.left (h : AtHead a first pos buffers s) :
    (a.elementMemSize * (a.length - s.finished)).toNat =
      a.elementMemSize.toNat * (a.length.toNat - s.finished.toNat) := by
  have hle : s.finished ≤ a.length := UInt64.le_iff_toNat_le.mpr h.finished
  have hmem := a.mem_lt
  have := Nat.mul_le_mul_left a.elementMemSize.toNat
    (Nat.sub_le a.length.toNat s.finished.toNat)
  rw [UInt64.toNat_mul, UInt64.toNat_sub_of_le _ _ hle, Nat.mod_eq_of_lt (by omega)]

theorem AtHead.test (h : AtHead a first pos buffers s) :
    s.limit < s.pos + a.elementMemSize * (a.length - s.finished) ↔
      s.limit.toNat - s.pos.toNat <
        a.elementMemSize.toNat * (a.length.toNat - s.finished.toNat) := by
  have hleft := h.left
  have hbelow := h.below
  have hmem := a.mem_lt
  have hmul := Nat.mul_le_mul_left a.elementMemSize.toNat
    (Nat.sub_le a.length.toNat s.finished.toNat)
  have hlimit := (bufferAt first buffers s.buffer).limit_toNat
  have hlower := (bufferAt first buffers s.buffer).lower
  rw [h.limit] at hbelow ⊢
  rw [UInt64.lt_iff_toNat_lt, UInt64.toNat_add, hleft, Nat.mod_eq_of_lt (by omega)]
  omega

theorem AtHead.memcpy (h : AtHead a first pos buffers s) {more : Nat}
    {size : UInt64} (hsize : size.toNat = more * a.elementMemSize.toNat)
    (hfit : size.toNat ≤ s.limit.toNat - s.pos.toNat) :
    CopiedOnce a first pos buffers (s.finished.toNat + more) (s.memcpy size).copies := by
  have hbelow := h.below
  refine h.copied.append h.buffer h.pos_eq ⟨h.above, ?_⟩ h.ptr hsize
  rw [← Region.limit_toNat, ← h.limit]
  simp only
  omega

/-- The elements that are left, and one more before the first exchange: that round may copy none. -/
def OverlayState.variant (length : UInt64) (s : OverlayState) : Nat :=
  length.toNat - s.finished.toNat + if s.buffer = 0 then 1 else 0

theorem AtHead.room (h : AtHead a first pos buffers s)
    (hfits : ∀ k, a.elementMemSize ≤ (buffers k).length) (hbuffer : s.buffer ≠ 0) :
    a.elementMemSize.toNat ≤ s.limit.toNat - s.pos.toNat := by
  rcases Nat.exists_eq_succ_of_ne_zero hbuffer with ⟨k, hk⟩
  have hfits := UInt64.le_iff_toNat_le.mp (hfits k)
  rw [h.limit, h.pos_eq, Region.limit_toNat, hk]
  simp only [bufferAt, freeFrom]
  omega

theorem AtHead.round (h : AtHead a first pos buffers s)
    (hfits : ∀ k, a.elementMemSize ≤ (buffers k).length)
    (hfull : s.limit < s.pos + a.elementMemSize * (a.length - s.finished)) :
    ∃ s', overlayRound (some fun k _ => (StatusCode.good, buffers k)) a.length a.elementMemSize s =
        .inr s' ∧ AtHead a first pos buffers s' ∧ s'.variant a.length < s.variant a.length := by
  have htest := h.test.mp hfull
  have hmem := a.mem_lt
  have hlimit := s.limit.toNat_lt
  have hpossible : ((s.limit - s.pos) / a.elementMemSize).toNat =
      (s.limit.toNat - s.pos.toNat) / a.elementMemSize.toNat := by
    rw [UInt64.toNat_div, UInt64.toNat_sub_of_le _ _ (UInt64.le_iff_toNat_le.mpr h.below)]
  set possible := (s.limit - s.pos) / a.elementMemSize with hdef
  have hfit : possible.toNat * a.elementMemSize.toNat ≤ s.limit.toNat - s.pos.toNat := by
    rw [hpossible]
    exact Nat.div_mul_le_self _ _
  have hsize : (possible * a.elementMemSize).toNat = possible.toNat * a.elementMemSize.toNat := by
    rw [UInt64.toNat_mul, Nat.mod_eq_of_lt (by omega)]
  have hless : possible.toNat < a.length.toNat - s.finished.toNat := by
    refine Nat.lt_of_mul_lt_mul_left (a := a.elementMemSize.toNat) ?_
    rw [Nat.mul_comm]
    omega
  have hfinished : (s.finished + possible).toNat = s.finished.toNat + possible.toNat := by
    have := a.length.toNat_lt
    rw [UInt64.toNat_add, Nat.mod_eq_of_lt (by omega)]
  have hptr : (s.ptr + possible * a.elementMemSize).toNat =
      a.ptr.toNat + (s.finished.toNat + possible.toNat) * a.elementMemSize.toNat := by
    have hlower := a.lower
    have := Nat.mul_le_mul_left a.elementMemSize.toNat
      (show s.finished.toNat + possible.toNat ≤ a.length.toNat by omega)
    rw [Nat.mul_comm, Nat.add_mul] at this
    rw [UInt64.toNat_add, h.ptr, hsize, Nat.add_mul, Nat.mod_eq_of_lt (by omega), Nat.add_assoc]
  refine ⟨_, by simp [overlayRound, hfull, OverlayState.exchangeBuffer]; rfl, ?_, ?_⟩
  · constructor
    case finished => simp [OverlayState.memcpy, ← hdef, hfinished]; omega
    case ptr => simpa [OverlayState.memcpy, ← hdef, hfinished] using hptr
    case buffer => simp [OverlayState.memcpy, h.buffer]
    case pos_eq => rfl
    case limit => rfl
    case above => exact le_rfl
    case below => exact Region.limit_toNat _ ▸ Nat.le_add_right _ _
    case copied =>
      have hcopied := h.memcpy hsize (hsize ▸ hfit)
      simpa [OverlayState.memcpy, ← hdef, hfinished] using hcopied
  · simp only [OverlayState.variant, OverlayState.memcpy, ← hdef, hfinished]
    by_cases hbuffer : s.buffer = 0
    · simp [hbuffer]
      omega
    · -- After an exchange at least one element is copied, as the buffer takes one.
      have hroom := h.room hfits hbuffer
      have hpositive : 0 < possible.toNat := by
        rw [hpossible]
        refine Nat.div_pos hroom (Nat.pos_of_ne_zero fun hzero => ?_)
        rw [hzero] at htest
        omega
      simp [hbuffer]
      omega

theorem AtHead.last (h : AtHead a first pos buffers s) {callback : Option Exchange}
    (hfull : ¬ s.limit < s.pos + a.elementMemSize * (a.length - s.finished)) :
    ∃ s', overlayRound callback a.length a.elementMemSize s = .inl (StatusCode.good, s') ∧
      CopiedOnce a first pos buffers a.length.toNat s'.copies := by
  have htest := h.test.not.mp hfull
  have hfinished := h.finished
  refine ⟨_, by simp [overlayRound, hfull]; rfl, ?_⟩
  have hcopied := @AtHead.memcpy _ _ _ _ _ h (a.length.toNat - s.finished.toNat) _
    (by rw [h.left, Nat.mul_comm]) (by rw [h.left]; omega)
  rwa [Nat.add_sub_cancel' hfinished] at hcopied

theorem AtHead.start (hpos : first.data ≤ pos) (hlimit : pos ≤ first.limit) :
    AtHead a first pos buffers ⟨0, first, pos, first.limit, a.ptr, 0, []⟩ := by
  constructor
  case above => exact UInt64.le_iff_toNat_le.mp hpos
  case below => exact UInt64.le_iff_toNat_le.mp hlimit
  case copied => exact CopiedOnce.none
  all_goals simp [freeFrom, bufferAt]

theorem CopiedOnce.all {copies : List Memcpy}
    (h : CopiedOnce a first pos buffers a.length.toNat copies) :
    copies.flatMap (Memcpy.bytes a) = a.mem := by
  rw [h.bytes, Nat.mul_comm, ← a.size_eq, List.take_length]

/-- The loop ends for every array and every sequence of buffers that take an element each. All the
bytes of the array are written in their order, each write is inside of its buffer, and no element is
split. -/
theorem overlayLoop_copiesOnce (hpos : first.data ≤ pos) (hlimit : pos ≤ first.limit)
    (hfits : ∀ k, a.elementMemSize ≤ (buffers k).length) :
    ∃ fuel s, overlayLoop (some fun k _ => (StatusCode.good, buffers k)) a first pos fuel =
        some (StatusCode.good, s) ∧
      s.copies.flatMap (Memcpy.bytes a) = a.mem ∧
      CopiedOnce a first pos buffers a.length.toNat s.copies := by
  have hround : ∀ s, AtHead a first pos buffers s →
      (∃ r, overlayRound (some fun k _ => (StatusCode.good, buffers k)) a.length
        a.elementMemSize s =
          .inl r ∧ r.1 = StatusCode.good ∧
            CopiedOnce a first pos buffers a.length.toNat r.2.copies) ∨
        ∃ s', overlayRound (some fun k _ => (StatusCode.good, buffers k)) a.length a.elementMemSize
            s = .inr s' ∧
          AtHead a first pos buffers s' ∧ s'.variant a.length < s.variant a.length := by
    intro s hs
    by_cases hfull : s.limit < s.pos + a.elementMemSize * (a.length - s.finished)
    · exact .inr (hs.round hfits hfull)
    · rcases hs.last hfull with ⟨s', hlast, hcopied⟩
      exact .inl ⟨_, hlast, rfl, hcopied⟩
  rcases whileTrue_of_variant _ hround (AtHead.start hpos hlimit) with
    ⟨fuel, ⟨retval, s⟩, hrun, rfl, hcopied⟩
  exact ⟨fuel, s, hrun, hcopied.all, hcopied⟩

end

def threePairs : OverlayArray where
  ptr := 1000
  length := 3
  elementMemSize := 2
  mem := [1, 2, 3, 4, 5, 6]
  size_eq := rfl
  lower := by decide

def threeBytes : Region := ⟨4000, 3, by decide⟩

theorem overlayLoop_threePairs :
    ∃ fuel s, overlayLoop (some fun _ _ => (StatusCode.good, threeBytes)) threePairs threeBytes 4002
          fuel = some (StatusCode.good, s) ∧
      s.copies.flatMap (Memcpy.bytes threePairs) = [1, 2, 3, 4, 5, 6] ∧
      CopiedOnce threePairs threeBytes 4002 (fun _ => threeBytes) 3 s.copies :=
  overlayLoop_copiesOnce (by decide) (by decide) (fun _ => by decide)

example :
    (overlayLoop (some fun _ _ => (StatusCode.good, threeBytes)) threePairs threeBytes 4002 4).map
        (fun r => r.2.copies) =
      some [⟨0, 4002, 1000, 0⟩, ⟨1, 4000, 1000, 2⟩, ⟨2, 4000, 1002, 2⟩, ⟨3, 4000, 1004, 2⟩] := by
  decide

end FactoryThing.Encoding
