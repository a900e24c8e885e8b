import FactoryThing.Encoding.CalcSize
import FactoryThing.Variants.Variant
import Mathlib

/-!
# Index ranges

Reading and writing a part of a Variant (`src/ua_types.c:460-728`). A range is turned into a number
of blocks at equal distances, and two loops go over the blocks and the elements in them. `size_t`
has 64 bits.

Memory that has not been written yet, or has been given back, is told from memory that holds a
value: an operation on an element of the first kind has no meaning in the language.
-/

namespace FactoryThing.Variants

open Encoding (int32Max)

/-! ## Strides -/

/-- The result of an operation on `size_t`. -/
def sizeT (n : Nat) : Nat := n % 2 ^ 64

def uint32Max : Nat := 0xFFFFFFFF

/-- The output of `computeStrides`: `total` elements in blocks of `block` elements, which are
`stride` elements apart from beginning to beginning, the first one at `first`. -/
structure Strides where
  total : Nat
  block : Nat
  stride : Nat
  first : Nat
  deriving DecidableEq

/-- The dimensions that are compared with the range (`:470-484`); `none` when they do not belong to
the array. -/
def arrayDims (arrayLength : Nat) (arrayDimensions : List UInt32) : Option (List UInt32) :=
  if arrayDimensions.length > 0 then
    if arrayDimensions.foldl (fun elements d => sizeT (elements * d.toNat)) 1 ≠ arrayLength then
      none
    else some arrayDimensions
  else some [UInt32.ofNat arrayLength]

/-- The test of the range (`:486-496`), with the number of elements in it. -/
def rangeCount : List (UInt32 × RangeDimension) → Nat → Except StatusCode Nat
  | [], count => .ok count
  | (d, r) :: rest, count =>
    if r.min > r.max then .error StatusCode.badIndexRangeInvalid
    else if r.max ≥ d then .error StatusCode.badIndexRangeNoData
    else rangeCount rest (sizeT (count * (r.max - r.min + 1).toNat))

/-- The variables of the loop over the dimensions. -/
structure StrideState where
  block : Nat
  stride : Nat
  first : Nat
  runningDimssize : Nat
  foundContiguous : Bool
  deriving DecidableEq

/-- One dimension in the loop (`:504-513`). -/
def strideStep (dim : UInt32 × RangeDimension) (s : StrideState) : StrideState :=
  let dimrange := (1 + dim.2.max - dim.2.min).toNat
  let partially := !s.foundContiguous && dimrange ≠ dim.1.toNat
  { block := if partially then sizeT (s.runningDimssize * dimrange) else s.block
    stride := if partially then sizeT (s.runningDimssize * dim.1.toNat) else s.stride
    first := sizeT (s.first + sizeT (s.runningDimssize * dim.2.min.toNat))
    runningDimssize := sizeT (s.runningDimssize * dim.1.toNat)
    foundContiguous := s.foundContiguous || partially }

/-- `computeStrides` (`:460-516`). The loop goes from the last dimension to the first. The test of
the array length (`:464-467`) is not compiled: no file defines the `MAX_SIZE` of its `#if`. -/
def computeStrides (arrayLength : Nat) (arrayDimensions : List UInt32) (range : NumericRange) :
    Except StatusCode Strides :=
  match arrayDims arrayLength arrayDimensions with
  | none => .error StatusCode.badInternalError
  | some dims =>
    if range.length ≠ dims.length then .error StatusCode.badIndexRangeNoData
    else
      match rangeCount (dims.zip range) 1 with
      | .error retval => .error retval
      | .ok count =>
        let s := (dims.zip range).foldr strideStep
          { block := count, stride := arrayLength, first := 0, runningDimssize := 1,
            foundContiguous := false }
        .ok { total := count, block := s.block, stride := s.stride, first := s.first }

/-- What goes wrong beyond the language: an unbounded recursion, a `NULL` pointer, an element
outside its array, a division by zero, an element that was not written and one that was freed. -/
inductive RangeFault where
  | diverges
  | nullDeref
  | outOfBounds
  | divisionByZero
  | uninitialised
  | freed
  deriving DecidableEq

/-- Memory for one value. `released` memory still holds the pointers to what has been freed. -/
inductive Slot (β : Type) where
  | unwritten
  | holds (x : β)
  | released
  deriving DecidableEq

/-- The elements, and the memory they are copied to: `alloc` and `copyStatus` answer the calls of
`UA_malloc` and of `UA_copy` by their number. -/
structure Elements (α : Type) where
  /-- `memset(dst, 0, type->memSize)` -/
  zero : TypeDescription → α
  /-- the element with its first `n` bytes set to zero -/
  zeroBytes : TypeDescription → Nat → α → α
  /-- an element of a type that is string-like, and back -/
  string : α → UaString
  ofString : UaString → α
  /-- an element of the type Variant, and back -/
  variant : α → UaVariant α
  ofVariant : UaVariant α → α
  /-- an element of the type Byte, and the one at the data of a string of length zero -/
  byte : UInt8 → α
  strayByte : α
  /-- the memory of an array of one type, seen as an array of another -/
  viewAs : TypeDescription → TypeDescription → List α → List α
  alloc : Nat → Bool
  copyStatus : Nat → α → StatusCode

variable {α β : Type} (env : Elements α)

/-- The state counts the calls that the environment has answered. -/
abbrev RangeM := StateT Nat (Except RangeFault)

/-- `UA_malloc`, answered by the number of the call. -/
def malloc : RangeM Bool := do
  let n ← get
  set (n + 1)
  return env.alloc n

/-- `UA_copy` (`ua_types.c:911-918`): the destination is zero when it fails. -/
def copy (type : TypeDescription) (src : α) : RangeM (StatusCode × α) := do
  let n ← get
  set (n + 1)
  let retval := env.copyStatus n src
  return (retval, if retval = StatusCode.good then src else env.zero type)

def readElement (items : List α) (i : Nat) : RangeM α :=
  match items[i]? with
  | some x => return x
  | none => throw RangeFault.outOfBounds

/-- The loop over the elements of a block, from the position `next` on. -/
def visitBlock (visit : Nat → RangeM β) : Nat → Nat → RangeM (List β)
  | 0, _ => return []
  | n + 1, next => do
    let y ← visit next
    return y :: (← visitBlock visit n (next + 1))

/-- The outer loop over the blocks of a range, for a read. -/
def visitBlocks (visit : Nat → RangeM β) (block stride : Nat) : Nat → Nat → RangeM (List β)
  | 0, _ => return []
  | n + 1, next => do
    let ys ← visitBlock visit block next
    return ys ++ (← visitBlocks visit block stride n (next + stride))

/-- The inner loop of a copy with a remaining range, which stops at an error (`:630-641`). -/
def nestedBlock (visit : Nat → RangeM (StatusCode × β)) :
    Nat → Nat → StatusCode → RangeM (StatusCode × List β)
  | 0, _, retval => return (retval, [])
  | n + 1, next, retval =>
    if retval ≠ StatusCode.good then return (retval, [])
    else do
      let (retval, y) ← visit next
      let (retval, ys) ← nestedBlock visit n (next + 1) retval
      return (retval, y :: ys)

/-- The outer loop of a copy with a remaining range (`:629-643`). -/
def nestedBlocks (visit : Nat → RangeM (StatusCode × β)) (block stride : Nat) :
    Nat → Nat → StatusCode → RangeM (StatusCode × List β)
  | 0, _, retval => return (retval, [])
  | n + 1, next, retval => do
    let (retval, ys) ← nestedBlock visit block next retval
    let (retval, rest) ← nestedBlocks visit block stride n (next + stride) retval
    return (retval, ys ++ rest)

/-- `isStringLike` (`:518-526`). -/
def isStringLike (type : TypeDescription) : Bool :=
  match type.members with
  | [m] => m.isArray && m.namespaceZero && m.memberTypeIndex == Builtin.byte.ctorIdx
  | _ => false

/-- `copySubString` (`:528-543`). -/
def copySubString (src : UaString) (dim : RangeDimension) : RangeM (StatusCode × Slot UaString) :=
  if dim.min > dim.max then return (StatusCode.badIndexRangeInvalid, .unwritten)
  else if dim.max.toNat ≥ src.length then return (StatusCode.badIndexRangeNoData, .unwritten)
  else do
    if ← malloc env then
      let length := (dim.max - dim.min + 1).toNat
      return (StatusCode.good, .holds (.mem ((src.items.drop dim.min.toNat).take length)))
    else
      return (StatusCode.badOutOfMemory, .holds .null)

/-- A slot with a function applied to what it holds. -/
def Slot.map {γ : Type} (f : β → γ) : Slot β → Slot γ
  | unwritten => unwritten
  | holds x => holds (f x)
  | released => released

/-- `UA_Array_delete(p, size, type)` on elements of which only the first ones may have been written
(`:1021-1031`). -/
def arrayDelete (type : TypeDescription) (size : Nat) (slots : List (Slot α)) : RangeM Unit :=
  if type.pointerFree then return ()
  else if Slot.released ∈ slots.map (Slot.map fun _ => ()) then throw RangeFault.freed
  else if slots.length < size ∨ Slot.unwritten ∈ slots.map (Slot.map fun _ => ()) then
    throw RangeFault.uninitialised
  else return ()

/-- The elements of memory that has been written throughout. -/
def Slot.values : List (Slot α) → Option (List α)
  | [] => some []
  | .holds x :: slots => (Slot.values slots).map (x :: ·)
  | _ :: _ => none

/-- The copy of the elements without a remaining range (`:596-616`). What `UA_copy` returns for one
element is overwritten by what it returns for the next one. -/
def copyElements (type : TypeDescription) (items : List α) (s : Strides) :
    RangeM (StatusCode × List (Slot α)) := do
  if type.pointerFree then
    let copied ← visitBlocks (readElement items) s.block s.stride (s.total / s.block) s.first
    return (StatusCode.good, copied.map .holds)
  else
    let copied ← visitBlocks
      (fun i => do
        let src ← readElement items i
        copy env type src)
      s.block s.stride (s.total / s.block) s.first
    return ((copied.map Prod.fst).getLastD StatusCode.good, copied.map fun y => .holds y.2)

/-- The copy of the elements with a remaining range (`:617-644`); `copyRange` is the copy of one
element that is a Variant. -/
def copyNested (copyRange : UaVariant α → NumericRange → RangeM (StatusCode × Slot (UaVariant α)))
    (type : TypeDescription) (items : List α) (s : Strides) (next : NumericRange) :
    RangeM (StatusCode × List (Slot α)) :=
  -- only for variants, and for strings with one remaining dimension
  let retval :=
    if type ≠ builtinType .variant ∧ (isStringLike type = false ∨ next.length ≠ 1) then
      StatusCode.badIndexRangeNoData
    else StatusCode.good
  nestedBlocks
    (fun i => do
      let src ← readElement items i
      if isStringLike type then
        match next with
        | [] => throw RangeFault.outOfBounds
        | dim :: _ =>
          let (status, dst) ← copySubString env (env.string src) dim
          return (status, dst.map env.ofString)
      else
        let (status, dst) ← copyRange (env.variant src) next
        return (status, dst.map env.ofVariant))
    s.block s.stride (s.total / s.block) s.first retval

/-- The end of `UA_Variant_copyRange`, once the elements have been copied (`:646-670`). -/
def copyRangeFinish (type : TypeDescription) (src : UaVariant α) (thisrange : NumericRange)
    (items : List α) : RangeM (StatusCode × Slot (UaVariant α)) :=
  if src.data.isScalar then
    match items with
    | [x] => return (StatusCode.good, .holds ⟨some type, .scalar x, .null⟩)
    | _ => throw RangeFault.outOfBounds
  else if h : items = [] then throw RangeFault.uninitialised
  else if src.arrayDimensions.length > 0 then do
    -- `UA_Array_new` refuses more than `UA_INT32_MAX` elements
    if thisrange.length ≤ int32Max ∧ (← malloc env) = true then
      return (StatusCode.good, .holds ⟨some type, .array items h,
        .mem (thisrange.map fun r => r.max - r.min + 1)⟩)
    else
      return (StatusCode.badOutOfMemory, .released)
  else return (StatusCode.good, .holds ⟨some type, .array items h, .null⟩)

/-- `UA_Variant_copyRange` (`:545-671`), with the slot of the destination. `fuel` bounds how deep
Variants are nested. -/
def variantCopyRange :
    Nat → UaVariant α → NumericRange → RangeM (StatusCode × Slot (UaVariant α))
  | 0, _, _ => throw RangeFault.diverges
  | fuel + 1, src, range => do
    match src.type with
    | none => throw RangeFault.nullDeref
    | some type =>
      let dims := if src.arrayDimensions.length = 0 then 1 else src.arrayDimensions.length
      if ¬ src.data.isScalar ∧ dims > range.length then
        return (StatusCode.badIndexRangeInvalid, .unwritten)
      -- a scalar is an array of length 1, and the whole range is left for what is inside
      let (arrayLength, thisrange, nextrange) :=
        if src.data.isScalar then (1, [⟨0, 0⟩], range)
        else (src.data.arrayLength, range.take dims, range.drop dims)
      match computeStrides arrayLength src.arrayDimensions.items thisrange with
      | .error retval => return (retval, .unwritten)
      | .ok s =>
        if (← malloc env) = false then
          return (StatusCode.badOutOfMemory, .holds emptyVariant)
        if s.block = 0 then throw RangeFault.divisionByZero
        let (retval, slots) ←
          if nextrange.length = 0 then copyElements env type src.data.items s
          else copyNested env (variantCopyRange fuel) type src.data.items s nextrange
        if retval ≠ StatusCode.good then
          arrayDelete type s.total slots
          return (retval, .holds emptyVariant)
        match Slot.values slots with
        | none => throw RangeFault.uninitialised
        | some items => copyRangeFinish env type src thisrange items

/-- The loop over the elements of a block; the status codes are joined (`:704-716`). -/
def setBlock (place : α → RangeM (StatusCode × α)) (array : List α) :
    Nat → Nat → Nat → StatusCode × List α → RangeM (StatusCode × List α)
  | 0, _, _, s => return s
  | n + 1, nextdst, nextsrc, (retval, items) => do
    let x ← readElement array nextsrc
    let (status, y) ← place x
    if nextdst < items.length then
      setBlock place array n (nextdst + 1) (nextsrc + 1) (retval ||| status, items.set nextdst y)
    else throw RangeFault.outOfBounds

/-- The outer loop over the blocks of a range, for a write. -/
def setBlocks (place : α → RangeM (StatusCode × α)) (array : List α) (block stride : Nat) :
    Nat → Nat → Nat → StatusCode × List α → RangeM (StatusCode × List α)
  | 0, _, _, s => return s
  | n + 1, nextdst, nextsrc, s => do
    let s ← setBlock place array block nextdst nextsrc s
    setBlocks place array block stride n (nextdst + stride) (nextsrc + block) s

/-- `memset(array, 0, sizeof(elem_size)*arraySize)`: the size of a `size_t` for each element
(`:719-720`). -/
def clearMoved (type : TypeDescription) (arraySize : Nat) (array : List α) : List α :=
  array.mapIdx fun i x =>
    env.zeroBytes type (min type.memSize.toNat (8 * arraySize - i * type.memSize.toNat)) x

def VariantData.withItems (data : VariantData α) (items : List α) : VariantData α :=
  match data, items with
  | .scalar _, [x] => .scalar x
  | .array _ _, x :: xs => .array (x :: xs) (List.cons_ne_nil x xs)
  | data, _ => data

theorem withItems_array {items : List α} (h : items ≠ []) {items' : List α} (h' : items' ≠ []) :
    (VariantData.array items h).withItems items' = .array items' h' := by
  cases items' with
  | nil => exact absurd rfl h'
  | cons x xs => rfl

/-- `Variant_setRange` (`:675-723`), with what becomes of the Variant and of the array. -/
def variantSetRange (v : UaVariant α) (array : List α) (arraySize : Nat) (range : NumericRange)
    (copying : Bool) : RangeM (StatusCode × UaVariant α × List α) :=
  match computeStrides v.data.arrayLength v.arrayDimensions.items range with
  | .error retval => return (retval, v, array)
  | .ok s =>
    if s.total ≠ arraySize then return (StatusCode.badIndexRangeInvalid, v, array)
    else if s.block = 0 then throw RangeFault.divisionByZero
    else
      match v.type with
      | none => throw RangeFault.nullDeref
      | some type => do
        let place : α → RangeM (StatusCode × α) :=
          if type.pointerFree ∨ copying = false then fun x => return (StatusCode.good, x)
          else copy env type
        let (retval, items) ← setBlocks place array s.block s.stride (s.total / s.block) s.first 0
          (StatusCode.good, v.data.items)
        let array :=
          if copying = false ∧ type.pointerFree = false then clearMoved env type arraySize array
          else array
        return (retval, { v with data := v.data.withItems items }, array)

/-- `UA_Variant_setRange` (`:725-729`). -/
def setRange (v : UaVariant α) (array : List α) (arraySize : Nat) (range : NumericRange) :
    RangeM (StatusCode × UaVariant α × List α) :=
  variantSetRange env v array arraySize range false

/-- `UA_Variant_setRangeCopy` (`:731-735`). -/
def setRangeCopy (v : UaVariant α) (array : List α) (arraySize : Nat) (range : NumericRange) :
    RangeM (StatusCode × UaVariant α × List α) :=
  variantSetRange env v array arraySize range true

end FactoryThing.Variants
