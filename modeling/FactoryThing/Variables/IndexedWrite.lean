import FactoryThing.Variables.TypeCheck
import FactoryThing.Variants.InBounds

/-!
# Indexed writes

A write with an index range copies the written elements into the array that is stored in the node.
The type of the written value is compared with the data type of the node, which may be abstract; the
copy goes by the type of the stored value, and nothing compares the two. When `UA_copy` fails for an
element, the place of the element is left zero.
-/

namespace FactoryThing.Variables

open AddressSpace Variants Stateful RowMajor

variable {α : Type}

/-- The loops of `Variant_setRange` over the places one after the other. -/
def setEach (place : α → RangeM (StatusCode × α)) (array : List α) :
    List Nat → Nat → StatusCode × List α → RangeM (StatusCode × List α)
  | [], _, s => return s
  | p :: ps, nextsrc, (retval, items) => do
    let x ← readElement array nextsrc
    let (status, y) ← place x
    if p < items.length then
      setEach place array ps (nextsrc + 1) (retval ||| status, items.set p y)
    else throw RangeFault.outOfBounds

section Loops

variable {place : α → RangeM (StatusCode × α)} {array : List α}

theorem setBlock_eq (n nextdst nextsrc : Nat) (s : StatusCode × List α) :
    setBlock place array n nextdst nextsrc s =
      setEach place array ((List.range n).map fun j => nextdst + j) nextsrc s := by
  induction n generalizing nextdst nextsrc s with
  | zero => rfl
  | succ n ih =>
    rw [map_range_succ]
    simp only [setBlock, setEach, ih]

theorem setEach_append (ps qs : List Nat) (nextsrc : Nat) (s : StatusCode × List α) :
    setEach place array (ps ++ qs) nextsrc s =
      setEach place array ps nextsrc s >>= setEach place array qs (nextsrc + ps.length) := by
  induction ps generalizing nextsrc s with
  | nil => rfl
  | cons p ps ih =>
    simp only [List.cons_append, setEach, bind_assoc]
    refine bind_congr fun x => bind_congr fun y => ?_
    split
    · rw [ih, List.length_cons, Nat.add_assoc, Nat.add_comm 1]
    · rfl

theorem setBlocks_eq (count block stride nextdst nextsrc : Nat) (s : StatusCode × List α) :
    setBlocks place array block stride count nextdst nextsrc s =
      setEach place array (blocks count block stride nextdst) nextsrc s := by
  induction count generalizing nextdst nextsrc s with
  | zero => rfl
  | succ count ih =>
    rw [setBlocks, blocks_succ, setEach_append, setBlock_eq]
    refine bind_congr fun s' => ?_
    rw [ih, List.length_map, List.length_range]

end Loops

/-- What is left of an element where it is copied to, when it is the call with the number `n`. -/
def placed (env : Elements α) (type : TypeDescription) (n : Nat) (x : α) : StatusCode × α :=
  if type.pointerFree then (StatusCode.good, x)
  else (env.copyStatus n x, if env.copyStatus n x = StatusCode.good then x else env.zero type)

/-- The calls of `UA_copy` for an element. -/
def callsPerElement (type : TypeDescription) : Nat := if type.pointerFree then 0 else 1

/-- What is left of elements that are copied one after the other. -/
def outcomes (env : Elements α) (type : TypeDescription) : Nat → List α → List (StatusCode × α)
  | _, [] => []
  | n, x :: xs => placed env type n x :: outcomes env type (n + callsPerElement type) xs

def joined (ys : List (StatusCode × α)) (retval : StatusCode) : StatusCode :=
  ys.foldl (fun status y => status ||| y.1) retval

theorem joined_good_iff {ys : List (StatusCode × α)} {retval : StatusCode} :
    joined ys retval = StatusCode.good ↔
      retval = StatusCode.good ∧ ∀ y ∈ ys, y.1 = StatusCode.good := by
  induction ys generalizing retval with
  | nil => simp [joined]
  | cons y ys ih =>
    have hor : (retval ||| y.1 = StatusCode.good) ↔
        retval = StatusCode.good ∧ y.1 = StatusCode.good := UInt32.or_eq_zero_iff
    have hstep : joined (y :: ys) retval = joined ys (retval ||| y.1) := rfl
    rw [hstep, ih, hor, List.forall_mem_cons, and_assoc]

/-- Every copy of an element that a type asks for succeeds, from the call with the number `n` on. -/
def CopiesSucceed (env : Elements α) (type : TypeDescription) (n : Nat) (xs : List α) : Prop :=
  type.pointerFree = false → ∀ k x, xs[k]? = some x → env.copyStatus (n + k) x = StatusCode.good

/-- The last copy to each place leaves what the place holds already: the element or, where the copy
fails, zero. -/
def LeavesAlone (env : Elements α) (type : TypeDescription) (n : Nat) (items : List α)
    (ps : List Nat) (xs : List α) : Prop :=
  ∀ k p x, ps[k]? = some p → xs[k]? = some x → p ∉ ps.drop (k + 1) →
    items[p]? = some (if env.copyStatus (n + k) x = StatusCode.good then x else env.zero type)

theorem getElem?_outcomes {env : Elements α} {type : TypeDescription} (n : Nat) (xs : List α)
    (k : Nat) : (outcomes env type n xs)[k]? =
      xs[k]?.map (placed env type (n + k * callsPerElement type)) := by
  induction xs generalizing n k with
  | nil => rfl
  | cons x xs ih =>
    cases k with
    | zero => rw [outcomes, Nat.zero_mul]; rfl
    | succ k =>
      rw [outcomes, List.getElem?_cons_succ, ih, List.getElem?_cons_succ, Nat.succ_mul,
        Nat.add_assoc, Nat.add_comm (callsPerElement type)]

theorem length_outcomes {env : Elements α} {type : TypeDescription} (n : Nat) (xs : List α) :
    (outcomes env type n xs).length = xs.length := by
  induction xs generalizing n with
  | nil => rfl
  | cons x xs ih => rw [outcomes, List.length_cons, ih, List.length_cons]

theorem outcomes_good_iff {env : Elements α} {type : TypeDescription} {n : Nat} {xs : List α} :
    (∀ y ∈ outcomes env type n xs, y.1 = StatusCode.good) ↔ CopiesSucceed env type n xs := by
  simp only [List.mem_iff_getElem?, getElem?_outcomes, Option.map_eq_some_iff]
  unfold CopiesSucceed callsPerElement placed
  cases type.pointerFree with
  | true =>
    refine iff_of_true ?_ nofun
    rintro y ⟨k, x, -, rfl⟩
    rfl
  | false =>
    constructor
    · intro h _ k x hx
      have hgood := h _ ⟨k, x, hx, rfl⟩
      rwa [if_neg Bool.false_ne_true, if_neg Bool.false_ne_true, Nat.mul_one] at hgood
    · rintro h y ⟨k, x, hx, rfl⟩
      rw [if_neg Bool.false_ne_true, if_neg Bool.false_ne_true, Nat.mul_one]
      exact h rfl k x hx

theorem replaceAt_outcomes_iff {env : Elements α} {type : TypeDescription} {n : Nat}
    {items xs : List α} {ps : List Nat} (hpointers : type.pointerFree = false)
    (hlt : ∀ p ∈ ps, p < items.length) (hlen : ps.length ≤ xs.length) :
    replaceAt items ps ((outcomes env type n xs).map Prod.snd) = items ↔
      LeavesAlone env type n items ps xs := by
  have hplaced : ∀ k, ((outcomes env type n xs).map Prod.snd)[k]? = xs[k]?.map fun x =>
      if env.copyStatus (n + k) x = StatusCode.good then x else env.zero type := by
    intro k
    rw [List.getElem?_map, getElem?_outcomes, callsPerElement, hpointers,
      if_neg Bool.false_ne_true, Nat.mul_one, Option.map_map]
    refine congrArg (Option.map · _) (funext fun x => ?_)
    rw [Function.comp_apply, placed, hpointers, if_neg Bool.false_ne_true]
  rw [replaceAt_eq_iff hlt (by rw [List.length_map, length_outcomes]; exact hlen)]
  unfold LeavesAlone
  simp only [hplaced, Option.map_eq_some_iff, implies_true, and_true]
  constructor
  · exact fun h k p x hp hx hnot => h k p _ hp ⟨x, hx, rfl⟩ hnot
  · rintro h k p _ hp ⟨x, hx, rfl⟩ hnot
    exact h k p x hp hx hnot

section Places

variable {env : Elements α} {type : TypeDescription} {place : α → RangeM (StatusCode × α)}
  {array : List α}

theorem setEach_ok
    (hplace : ∀ x n, (place x).run n = .ok (placed env type n x, n + callsPerElement type))
    {ps : List Nat} {nextsrc n : Nat} {retval : StatusCode} {items : List α}
    (hdst : ∀ p ∈ ps, p < items.length) (hsrc : nextsrc + ps.length ≤ array.length) :
    ∃ n', (setEach place array ps nextsrc (retval, items)).run n = .ok
      ((joined (outcomes env type n ((array.drop nextsrc).take ps.length)) retval,
        replaceAt items ps
          ((outcomes env type n ((array.drop nextsrc).take ps.length)).map Prod.snd)), n') := by
  induction ps generalizing nextsrc n retval items with
  | nil =>
    refine ⟨n, ?_⟩
    rfl
  | cons p ps ih =>
    rw [List.length_cons] at hsrc
    have hread : nextsrc < array.length := by omega
    obtain ⟨hp, hrest⟩ := List.forall_mem_cons.mp hdst
    have htake : (array.drop nextsrc).take (p :: ps).length =
        array[nextsrc] :: (array.drop (nextsrc + 1)).take ps.length := by
      rw [List.drop_eq_getElem_cons hread, List.length_cons, List.take_succ_cons]
    rw [htake, outcomes, List.map_cons, replaceAt, setEach]
    have hx : (readElement array nextsrc).run n = .ok (array[nextsrc], n) := by
      unfold readElement
      rw [List.getElem?_eq_getElem hread]
      rfl
    rw [run_bind_of_ok hx, run_bind_of_ok (hplace _ _)]
    dsimp only
    rw [if_pos hp]
    rw [← @List.length_set _ items p (placed env type n array[nextsrc]).2] at hrest
    have hsrc' : nextsrc + 1 + ps.length ≤ array.length := by omega
    exact ih hrest hsrc'

theorem setEach_fault
    (hplace : ∀ x n, (place x).run n = .ok (placed env type n x, n + callsPerElement type))
    {ps : List Nat} {nextsrc n : Nat} {s : StatusCode × List α}
    (h : ¬ ((∀ p ∈ ps, p < s.2.length) ∧ nextsrc + ps.length ≤ max nextsrc array.length)) :
    (setEach place array ps nextsrc s).run n = .error RangeFault.outOfBounds := by
  induction ps generalizing nextsrc n s with
  | nil =>
    refine absurd ⟨nofun, ?_⟩ h
    exact Nat.le_max_left _ _
  | cons p ps ih =>
    obtain ⟨retval, items⟩ := s
    rw [setEach]
    by_cases hread : nextsrc < array.length
    · have hx : (readElement array nextsrc).run n = .ok (array[nextsrc], n) := by
        unfold readElement
        rw [List.getElem?_eq_getElem hread]
        rfl
      rw [run_bind_of_ok hx, run_bind_of_ok (hplace _ _)]
      dsimp only
      split
      · rename_i hp
        refine ih fun hrest => h ⟨List.forall_mem_cons.mpr ⟨hp, ?_⟩, ?_⟩
        · simpa only [List.length_set] using hrest.1
        · rw [List.length_cons]
          omega
      · rfl
    · have hx : (readElement array nextsrc).run n = .error RangeFault.outOfBounds := by
        unfold readElement
        rw [List.getElem?_eq_none (by omega)]
        rfl
      rw [run_bind_error hx]

end Places

/-- Every place of the range is inside the array, and memory is there for every element that is
taken. -/
structure CopyInside (items array : List α) (s : Strides) : Prop where
  block : s.block ≠ 0
  places : ∀ p ∈ visited s, p < items.length
  enough : (visited s).length ≤ array.length

/-- What is left of the elements that a range takes. -/
def copied (env : Elements α) (type : TypeDescription) (n : Nat) (array : List α) (s : Strides) :
    List (StatusCode × α) :=
  outcomes env type n (array.take (visited s).length)

/-- A Variant with the outcome of the copy in its places. -/
def withCopied (v : UaVariant α) (s : Strides) (ys : List (StatusCode × α)) : UaVariant α :=
  { v with data := v.data.withItems (replaceAt v.data.items (visited s) (ys.map Prod.snd)) }

theorem run_place (env : Elements α) (type : TypeDescription) (x : α) (n : Nat) :
    ((if type.pointerFree ∨ true = false then fun x => return (StatusCode.good, x)
      else copy env type : α → RangeM (StatusCode × α)) x).run n =
      .ok (placed env type n x, n + callsPerElement type) := by
  unfold placed callsPerElement
  by_cases hfree : type.pointerFree = true
  · rw [if_pos (.inl hfree), if_pos hfree, if_pos hfree]
    rfl
  · rw [if_neg (by simp [hfree]), if_neg hfree, if_neg hfree]
    rfl

section SetRange

variable {env : Elements α} {v : UaVariant α} {array : List α} {size n : Nat} {range : NumericRange}

theorem run_setRangeCopy_error {retval : StatusCode}
    (hstrides : computeStrides v.data.arrayLength v.arrayDimensions.items range = .error retval) :
    (setRangeCopy env v array size range).run n = .ok ((retval, v, array), n) := by
  unfold setRangeCopy variantSetRange
  rw [hstrides]
  rfl

variable {s : Strides}
  (hstrides : computeStrides v.data.arrayLength v.arrayDimensions.items range = .ok s)

include hstrides

theorem run_setRangeCopy_size (hsize : s.total ≠ size) :
    (setRangeCopy env v array size range).run n =
      .ok ((StatusCode.badIndexRangeInvalid, v, array), n) := by
  unfold setRangeCopy variantSetRange
  rw [hstrides]
  dsimp only
  rw [if_pos hsize]
  rfl

variable {type : TypeDescription}

theorem run_setRangeCopy_copied (hsize : s.total = size) (htype : v.type = some type)
    (hinside : CopyInside v.data.items array s) :
    ∃ n', (setRangeCopy env v array size range).run n =
      .ok ((joined (copied env type n array s) StatusCode.good,
        withCopied v s (copied env type n array s), array), n') := by
  unfold setRangeCopy variantSetRange
  rw [hstrides]
  dsimp only
  rw [if_neg (not_not.mpr hsize), if_neg hinside.block, htype]
  dsimp only
  have henough : 0 + (visited s).length ≤ array.length := by
    rw [Nat.zero_add]
    exact hinside.enough
  obtain ⟨n', hrun⟩ := @setEach_ok _ env type _ array (run_place env type) (visited s) 0 n
    StatusCode.good v.data.items hinside.places henough
  refine ⟨n', ?_⟩
  rw [setBlocks_eq]
  refine (run_bind_of_ok hrun).trans ?_
  rw [if_neg (fun h => Bool.false_ne_true h.1.symm), ← htype]
  rfl

theorem run_setRangeCopy_fault (hsize : s.total = size)
    (h : ¬ ∃ type, v.type = some type ∧ CopyInside v.data.items array s) :
    ∃ fault, (setRangeCopy env v array size range).run n = .error fault ∧
      fault ≠ RangeFault.diverges := by
  unfold setRangeCopy variantSetRange
  rw [hstrides]
  dsimp only
  rw [if_neg (not_not.mpr hsize)]
  by_cases hblock : s.block = 0
  · rw [if_pos hblock]
    exact ⟨_, rfl, by decide⟩
  rw [if_neg hblock]
  cases htype : v.type with
  | none => exact ⟨_, rfl, by decide⟩
  | some type =>
    dsimp only
    rw [setBlocks_eq]
    refine ⟨RangeFault.outOfBounds, run_bind_error ?_, by decide⟩
    apply setEach_fault (run_place env type)
    rintro ⟨hplaces, hlen⟩
    rw [Nat.zero_add, Nat.zero_max] at hlen
    exact h ⟨type, htype, hblock, hplaces, hlen⟩

end SetRange

theorem items_withItems {data : VariantData α} {items : List α}
    (h : items.length = data.items.length) :
    (data.withItems items).items = items ∧
      (data.withItems items).arrayLength = data.arrayLength := by
  cases data with
  | null | sentinel =>
    rw [List.length_eq_zero_iff.mp h]
    exact ⟨rfl, rfl⟩
  | scalar x =>
    obtain ⟨y, rfl⟩ := List.length_eq_one_iff.mp h
    exact ⟨rfl, rfl⟩
  | array xs hne =>
    cases items with
    | nil => exact absurd (List.length_eq_zero_iff.mp h.symm) hne
    | cons y ys => exact ⟨rfl, h⟩

theorem withItems_self (data : VariantData α) : data.withItems data.items = data := by
  cases data with
  | null | sentinel => rfl
  | scalar x => rfl
  | array xs hne =>
    cases xs with
    | nil => exact absurd rfl hne
    | cons y ys => rfl

theorem arrayLength_withCopied (v : UaVariant α) (s : Strides) (ys : List (StatusCode × α)) :
    (withCopied v s ys).data.arrayLength = v.data.arrayLength :=
  (items_withItems (length_replaceAt _ _ _)).2

theorem withCopied_eq_iff {v : UaVariant α} {s : Strides} {ys : List (StatusCode × α)} :
    withCopied v s ys = v ↔
      replaceAt v.data.items (visited s) (ys.map Prod.snd) = v.data.items := by
  have hitems := (items_withItems (length_replaceAt v.data.items (visited s) (ys.map Prod.snd))).1
  constructor
  · intro heq
    exact hitems.symm.trans (congrArg (fun v => v.data.items) heq)
  · intro heq
    unfold withCopied
    rw [heq, withItems_self]

/-- The size of a written value that is compared with the range. -/
def writtenSize (value : UaVariant α) : Nat :=
  if value.data.isScalar then 1 else value.data.arrayLength

/-- The statuses agree and there is a value on both sides. -/
def BothSides (stored v : DataValue α) : Prop :=
  v.status = stored.status ∧ v.hasValue = true ∧ stored.hasValue = true

/-- The stored value after a write that has succeeded. -/
def withWritten (stored v : DataValue α) (changed : UaVariant α) : DataValue α :=
  { stored with
    value := changed
    hasStatus := v.hasStatus
    status := v.status
    hasSourceTimestamp := v.hasSourceTimestamp
    sourceTimestamp := v.sourceTimestamp
    hasSourcePicoseconds := v.hasSourcePicoseconds
    sourcePicoseconds := v.sourcePicoseconds }

section WriteRange

variable {w : Outside α} {node : VariableNode α} {stored v : DataValue α} {range : NumericRange}
  {n : Nat}

theorem run_writeRange_sides (h : ¬ BothSides stored v) :
    (writeValueAttributeWithRange w node stored v range).run n =
      .ok ((node, StatusCode.badIndexRangeInvalid), n) := by
  unfold writeValueAttributeWithRange
  rw [if_pos]
  · rfl
  · by_contra hno
    simp only [not_or, Bool.not_eq_false, not_not] at hno
    exact h hno

theorem withAttributes_self (hvalue : node.attributes.value = .data stored) :
    withAttributes node (fun a => { a with value := .data stored }) = node := by
  unfold withAttributes
  rw [← hvalue]

variable (hsides : BothSides stored v)

include hsides

theorem run_writeRange {retval : StatusCode} {changed : UaVariant α} {array : List α} {n' : Nat}
    (hset : (setRangeCopy w.elements stored.value (writtenElements w stored.value v.value)
      (writtenSize v.value) range).run n = .ok ((retval, changed, array), n')) :
    ∃ stored', (writeValueAttributeWithRange w node stored v range).run n =
        .ok ((withAttributes node fun a => { a with value := .data stored' }, retval), n') ∧
      stored'.value = changed ∧
      (retval ≠ StatusCode.good → stored' = { stored with value := changed }) := by
  unfold writeValueAttributeWithRange
  rw [if_neg]
  · dsimp only
    by_cases hgood : retval = StatusCode.good
    · refine ⟨withWritten stored v changed, (run_bind_of_ok hset).trans ?_, rfl,
        fun hbad => absurd hgood hbad⟩
      rw [if_neg (not_not.mpr hgood), hgood]
      rfl
    · refine ⟨{ stored with value := changed }, (run_bind_of_ok hset).trans ?_, rfl, fun _ => rfl⟩
      rw [if_pos hgood]
      rfl
  · simp only [not_or, Bool.not_eq_false, not_not]
    exact hsides

theorem run_writeRange_fault {fault : RangeFault}
    (hset : (setRangeCopy w.elements stored.value (writtenElements w stored.value v.value)
      (writtenSize v.value) range).run n = .error fault) :
    (writeValueAttributeWithRange w node stored v range).run n = .error fault := by
  unfold writeValueAttributeWithRange
  rw [if_neg]
  · exact run_bind_error hset
  · simp only [not_or, Bool.not_eq_false, not_not]
    exact hsides

end WriteRange

section Safety

variable (w : Outside α) (sv : Server (VariableAttributes α)) (node : VariableNode α)
  (stored v : DataValue α) (indexRange : UaString) (n : Nat)

/-- The index range is parsed as `range`, and the check accepts the value, converted to
`written`. -/
structure Checked (range : NumericRange) (written : UaVariant α) (n1 n2 : Nat) : Prop where
  parsed : (parseIndexRange w indexRange).run n = .ok (.ok (some range), n1)
  accepted : (checkWrittenValue w sv node v (some range)).run n1 =
    .ok ((StatusCode.good, written), n2)

/-- Elements of the stored type, one for each addressed element, have been written into a value that
is otherwise as it was. -/
structure InPlace (stored' : UaVariant α) (range : NumericRange) (written : UaVariant α) :
    Prop where
  sameType : written.type = stored.value.type
  size : writtenSize written = volume (addressedBox (dimensions stored.value) range)
  type : stored'.type = stored.value.type
  arrayLength : stored'.data.arrayLength = stored.value.data.arrayLength
  arrayDimensions : stored'.arrayDimensions = stored.value.arrayDimensions

/-- The write keeps to the memory of the stored value. When it returns Good, the value has been
written in place; otherwise the stored value is what it was. A search of the type hierarchy that
does not end is no concern of this. -/
def IndexedWriteSafe : Prop :=
  match (writeValueAttribute w sv node v indexRange).run n with
  | .error fault => fault = RangeFault.diverges
  | .ok ((node', retval), _) =>
    ∃ stored', node'.attributes.value = .data stored' ∧
      (retval = StatusCode.good → ∃ range written n1 n2,
        Checked w sv node v indexRange n range written n1 n2 ∧
          InPlace stored stored'.value range written) ∧
      (retval ≠ StatusCode.good → stored' = stored)

/-- The elements of `written` that a copy by `s` takes. -/
def takenElements (written : UaVariant α) (s : Strides) : List α :=
  (writtenElements w stored.value written).take (visited s).length

/-- Copying the elements of `written` is safe: inside of the array; when no copy fails, the type is
the stored one and the addressed elements are fewer than a `size_t` can count; when one does, what
the copies leave is in the places already. -/
structure CopySafe (range : NumericRange) (written : UaVariant α) (s : Strides)
    (type : TypeDescription) : Prop where
  inside : CopyInside stored.value.data.items (writtenElements w stored.value written) s
  fitting : CopiesSucceed w.elements type n (takenElements w stored written s) →
    written.type = some type ∧ volume (addressedBox (dimensions stored.value) range) < 2 ^ 64
  alone : ¬ CopiesSucceed w.elements type n (takenElements w stored written s) →
    LeavesAlone w.elements type n stored.value.data.items (visited s)
      (takenElements w stored written s)

/-- Whenever the write gets as far as the copy, the copy is safe. -/
def CopyGuard : Prop :=
  ∀ range written n1 n2, Checked w sv node v indexRange n range written n1 n2 →
    BothSides stored v → ∀ s,
    computeStrides stored.value.data.arrayLength stored.value.arrayDimensions.items range = .ok s →
    s.total = writtenSize written →
    ∃ type, stored.value.type = some type ∧ CopySafe w stored (n2 + 1) range written s type

variable {w sv node stored v indexRange n}

variable {n1 n2 : Nat} {range : NumericRange} {written : UaVariant α}

theorem Checked.unique {range' : NumericRange} {written' : UaVariant α} {n1' n2' : Nat}
    (h : Checked w sv node v indexRange n range written n1 n2)
    (h' : Checked w sv node v indexRange n range' written' n1' n2') :
    range = range' ∧ written = written' ∧ n2 = n2' := by
  have hparsed := h.parsed.symm.trans h'.parsed
  obtain ⟨rfl, rfl⟩ := hparsed
  have haccepted := h.accepted.symm.trans h'.accepted
  simp only [Except.ok.injEq, Prod.mk.injEq, true_and] at haccepted
  exact ⟨rfl, haccepted⟩

theorem compatibleDataType_error {dataType constraint : NodeKey} {fault : RangeFault}
    (h : (compatibleDataType w sv dataType constraint).run n = .error fault) :
    fault = RangeFault.diverges := by
  unfold compatibleDataType at h
  split at h
  · cases h
  split at h
  · cases h
  split at h
  · cases h
  split at h
  · cases h
    rfl
  · cases h

theorem checkWrittenValue_error {range : Option NumericRange} {fault : RangeFault}
    (h : (checkWrittenValue w sv node v range).run n = .error fault) :
    fault = RangeFault.diverges := by
  unfold checkWrittenValue at h
  split at h
  · unfold typeCheckValue at h
    split at h
    · split at h
      · cases h
      · cases h
    · rename_i type htype
      cases hcompatible : (compatibleDataType w sv (typeKey type)
          node.attributes.dataType).run n with
      | error fault' =>
        rw [run_bind_error hcompatible] at h
        cases h
        exact compatibleDataType_error hcompatible
      | ok r =>
        rw [run_bind_of_ok (show _ = Except.ok (r.1, r.2) from hcompatible)] at h
        split at h
        · cases h
        split at h
        · cases h
        split at h
        · cases h
        · cases h
  · cases h

theorem gives_parseIndexRange (w : Outside α) (hrange : 0 < indexRange.length) :
    Gives (parseIndexRange w indexRange) fun r =>
      (∃ range, r = .ok (some range)) ∨ ∃ retval, r = .error retval ∧ retval ≠ StatusCode.good := by
  unfold parseIndexRange
  rw [if_pos hrange]
  refine (gives_numericRangeParse indexRange).bind fun r hr => ?_
  cases r with
  | error retval => exact gives_pure (.inr ⟨retval, rfl, hr retval rfl⟩)
  | ok range => exact gives_pure (.inl ⟨range, rfl⟩)

theorem run_writeValue_unchecked (hrange : 0 < indexRange.length)
    (h : ¬ ∃ range written n1 n2, Checked w sv node v indexRange n range written n1 n2) :
    (writeValueAttribute w sv node v indexRange).run n = .error RangeFault.diverges ∨
      ∃ retval n', (writeValueAttribute w sv node v indexRange).run n = .ok ((node, retval), n') ∧
        retval ≠ StatusCode.good := by
  unfold writeValueAttribute
  obtain ⟨r, n1, hparse, hr⟩ := gives_parseIndexRange w hrange n
  rw [run_bind_of_ok hparse]
  obtain ⟨range, rfl⟩ | ⟨retval, rfl, hbad⟩ := hr
  · dsimp only
    cases hcheck : (checkWrittenValue w sv node v (some range)).run n1 with
    | error fault =>
      rw [run_bind_error hcheck, checkWrittenValue_error hcheck]
      exact .inl rfl
    | ok r =>
      obtain ⟨⟨retval, written⟩, n2⟩ := r
      rw [run_bind_of_ok hcheck]
      dsimp only
      by_cases hgood : retval = StatusCode.good
      · exact absurd ⟨range, written, n1, n2, hparse, hgood ▸ hcheck⟩ h
      · rw [if_pos hgood]
        exact .inr ⟨retval, n2, rfl, hgood⟩
  · exact .inr ⟨retval, n1, rfl, hbad⟩

theorem run_writeValue_checked (hvalue : node.attributes.value = .data stored)
    (h : Checked w sv node v indexRange n range written n1 n2) :
    (writeValueAttribute w sv node v indexRange).run n =
      (writeValueAttributeWithRange w node stored
        (withSourceTimestamp (w.now n2) { v with value := written }) range).run (n2 + 1) := by
  unfold writeValueAttribute
  rw [run_bind_of_ok h.parsed]
  dsimp only
  rw [run_bind_of_ok h.accepted]
  dsimp only
  rw [if_neg (not_not.mpr rfl)]
  have hnow : (answer w.now).run n2 = .ok (w.now n2, n2 + 1) := rfl
  rw [run_bind_of_ok hnow, hvalue]

theorem indexedWriteSafe_of_unchanged (hvalue : node.attributes.value = .data stored)
    {retval : StatusCode} {n' : Nat}
    (hrun : (writeValueAttribute w sv node v indexRange).run n = .ok ((node, retval), n'))
    (hbad : retval ≠ StatusCode.good) : IndexedWriteSafe w sv node stored v indexRange n := by
  unfold IndexedWriteSafe
  rw [hrun]
  exact ⟨stored, hvalue, fun hgood => absurd hgood hbad, fun _ => rfl⟩

theorem copyGuard_iff_of_checked (h : Checked w sv node v indexRange n range written n1 n2) :
    CopyGuard w sv node stored v indexRange n ↔ (BothSides stored v → ∀ s,
      computeStrides stored.value.data.arrayLength stored.value.arrayDimensions.items range =
        .ok s →
      s.total = writtenSize written →
      ∃ type, stored.value.type = some type ∧ CopySafe w stored (n2 + 1) range written s type) := by
  constructor
  · exact fun hguard => hguard range written n1 n2 h
  · intro hguard range' written' n1' n2' h'
    obtain ⟨rfl, rfl, rfl⟩ := h.unique h'
    exact hguard

theorem total_eq_volume_iff {s : Strides} (hstrides : computeStrides stored.value.data.arrayLength
      stored.value.arrayDimensions.items range = .ok s) :
    s.total = volume (addressedBox (dimensions stored.value) range) ↔
      volume (addressedBox (dimensions stored.value) range) < 2 ^ 64 := by
  rw [total_of_computeStrides hstrides]
  constructor
  · intro heq
    rw [← heq]
    exact Nat.mod_lt _ (Nat.two_pow_pos 64)
  · exact sizeT_of_lt

theorem indexedWriteSafe_iff_of_copied {range : NumericRange} {written : UaVariant α} {n1 n2 : Nat}
    (h : Checked w sv node v indexRange n range written n1 n2) {s : Strides}
    {type : TypeDescription} (htype : stored.value.type = some type)
    (hinside : CopyInside stored.value.data.items (writtenElements w stored.value written) s)
    (hstrides : computeStrides stored.value.data.arrayLength stored.value.arrayDimensions.items
      range = .ok s) (hsize : s.total = writtenSize written) {stored' : DataValue α} {n' : Nat}
    (hrun : (writeValueAttribute w sv node v indexRange).run n =
      .ok ((withAttributes node fun a => { a with value := .data stored' },
        joined (copied w.elements type (n2 + 1) (writtenElements w stored.value written) s)
          StatusCode.good), n'))
    (hvalue : stored'.value = withCopied stored.value s
      (copied w.elements type (n2 + 1) (writtenElements w stored.value written) s))
    (hbroken : joined (copied w.elements type (n2 + 1) (writtenElements w stored.value written) s)
      StatusCode.good ≠ StatusCode.good → stored' = { stored with value := stored'.value }) :
    IndexedWriteSafe w sv node stored v indexRange n ↔
      CopySafe w stored (n2 + 1) range written s type := by
  have hgood : joined (copied w.elements type (n2 + 1) (writtenElements w stored.value written) s)
      StatusCode.good = StatusCode.good ↔
        CopiesSucceed w.elements type (n2 + 1) (takenElements w stored written s) := by
    rw [joined_good_iff, and_iff_right rfl]
    exact outcomes_good_iff
  have halone : type.pointerFree = false → (stored'.value = stored.value ↔
      LeavesAlone w.elements type (n2 + 1) stored.value.data.items (visited s)
        (takenElements w stored written s)) := by
    intro hpointers
    rw [hvalue, withCopied_eq_iff]
    refine replaceAt_outcomes_iff hpointers hinside.places ?_
    rw [List.length_take, Nat.min_eq_left hinside.enough]
  have hpointers : ¬ CopiesSucceed w.elements type (n2 + 1) (takenElements w stored written s) →
      type.pointerFree = false := by
    intro hfails
    cases hfree : type.pointerFree with
    | true => exact absurd (fun h => absurd (hfree.symm.trans h) (by decide)) hfails
    | false => rfl
  unfold IndexedWriteSafe
  rw [hrun]
  dsimp only
  constructor
  · rintro ⟨stored'', hdata, hwhole, hunchanged⟩
    obtain rfl := ValueSource.data.inj hdata
    refine ⟨hinside, fun hall => ?_, fun hsome => ?_⟩
    · obtain ⟨range', written', n1', n2', h', hplace⟩ := hwhole (hgood.mpr hall)
      obtain ⟨rfl, rfl, rfl⟩ := h.unique h'
      refine ⟨hplace.sameType.trans htype, ?_⟩
      exact (total_eq_volume_iff hstrides).mp (hsize.trans hplace.size)
    · rw [← halone (hpointers hsome), hunchanged (mt hgood.mp hsome)]
  · intro hsafe
    refine ⟨stored', rfl, fun hall => ?_, fun hsome => ?_⟩
    · obtain ⟨hsame, hfits⟩ := hsafe.fitting (hgood.mp hall)
      have hvolume := (total_eq_volume_iff hstrides).mpr hfits
      refine ⟨range, written, n1, n2, h, hsame.trans htype.symm, hsize.symm.trans hvolume, ?_,
        ?_, ?_⟩
      · rw [hvalue]
        rfl
      · rw [hvalue, arrayLength_withCopied]
      · rw [hvalue]
        rfl
    · have hfails := mt hgood.mpr hsome
      rw [hbroken hsome, (halone (hpointers hfails)).mpr (hsafe.alone hfails)]

section Reached

variable {range : NumericRange} {written : UaVariant α} {n1 n2 : Nat}
  (hvalue : node.attributes.value = .data stored)
  (hchecked : Checked w sv node v indexRange n range written n1 n2)

include hvalue hchecked

theorem indexedWriteSafe_of_sides (hsides : ¬ BothSides stored v) :
    IndexedWriteSafe w sv node stored v indexRange n := by
  refine indexedWriteSafe_of_unchanged hvalue
    ((run_writeValue_checked hvalue hchecked).trans (run_writeRange_sides ?_)) (by decide)
  unfold BothSides
  rwa [status_withSourceTimestamp, hasValue_withSourceTimestamp]

variable (hsides : BothSides stored v)

include hsides

theorem run_writeValue_set {retval : StatusCode} {changed : UaVariant α} {array : List α} {n' : Nat}
    (hset : (setRangeCopy w.elements stored.value (writtenElements w stored.value written)
      (writtenSize written) range).run (n2 + 1) = .ok ((retval, changed, array), n')) :
    ∃ stored', (writeValueAttribute w sv node v indexRange).run n =
        .ok ((withAttributes node fun a => { a with value := .data stored' }, retval), n') ∧
      stored'.value = changed ∧
      (retval ≠ StatusCode.good → stored' = { stored with value := changed }) := by
  rw [run_writeValue_checked hvalue hchecked]
  apply run_writeRange
  · unfold BothSides
    rwa [status_withSourceTimestamp, hasValue_withSourceTimestamp]
  · rwa [value_withSourceTimestamp]

theorem run_writeValue_fault {fault : RangeFault}
    (hset : (setRangeCopy w.elements stored.value (writtenElements w stored.value written)
      (writtenSize written) range).run (n2 + 1) = .error fault) :
    (writeValueAttribute w sv node v indexRange).run n = .error fault := by
  rw [run_writeValue_checked hvalue hchecked]
  apply run_writeRange_fault
  · unfold BothSides
    rwa [status_withSourceTimestamp, hasValue_withSourceTimestamp]
  · rwa [value_withSourceTimestamp]

theorem indexedWriteSafe_of_refused {retval : StatusCode} {array : List α} {n' : Nat}
    (hset : (setRangeCopy w.elements stored.value (writtenElements w stored.value written)
      (writtenSize written) range).run (n2 + 1) = .ok ((retval, stored.value, array), n'))
    (hbad : retval ≠ StatusCode.good) : IndexedWriteSafe w sv node stored v indexRange n := by
  obtain ⟨stored', hrun, -, hbroken⟩ := run_writeValue_set hvalue hchecked hsides hset
  rw [show stored' = stored from hbroken hbad, withAttributes_self hvalue] at hrun
  exact indexedWriteSafe_of_unchanged hvalue hrun hbad

theorem indexedWriteSafe_iff_of_reached {s : Strides}
    (hstrides : computeStrides stored.value.data.arrayLength stored.value.arrayDimensions.items
      range = .ok s) (hsize : s.total = writtenSize written) :
    IndexedWriteSafe w sv node stored v indexRange n ↔
      ∃ type, stored.value.type = some type ∧ CopySafe w stored (n2 + 1) range written s type := by
  by_cases hcopy : ∃ type, stored.value.type = some type ∧
      CopyInside stored.value.data.items (writtenElements w stored.value written) s
  · obtain ⟨type, htype, hinside⟩ := hcopy
    obtain ⟨n', hset⟩ := @run_setRangeCopy_copied _ w.elements _ _ _ (n2 + 1) _ _ hstrides _
      hsize htype hinside
    obtain ⟨stored', hrun, hsame, hbroken⟩ := run_writeValue_set hvalue hchecked hsides hset
    rw [indexedWriteSafe_iff_of_copied hchecked htype hinside hstrides hsize hrun hsame
      fun hbad => hsame ▸ hbroken hbad]
    constructor
    · exact fun hsafe => ⟨type, htype, hsafe⟩
    · rintro ⟨type', htype', hsafe⟩
      obtain rfl := Option.some.inj (htype.symm.trans htype')
      exact hsafe
  · obtain ⟨fault, hset, hne⟩ := @run_setRangeCopy_fault _ w.elements _ _ _ (n2 + 1) _ _
      hstrides hsize hcopy
    refine iff_of_false ?_ fun ⟨type, htype, hsafe⟩ => hcopy ⟨type, htype, hsafe.inside⟩
    unfold IndexedWriteSafe
    rw [run_writeValue_fault hvalue hchecked hsides hset]
    exact hne

end Reached

theorem indexedWriteSafe_iff_of_checked (hvalue : node.attributes.value = .data stored)
    (hchecked : Checked w sv node v indexRange n range written n1 n2) :
    IndexedWriteSafe w sv node stored v indexRange n ↔
      CopyGuard w sv node stored v indexRange n := by
  rw [copyGuard_iff_of_checked hchecked]
  by_cases hsides : BothSides stored v
  · cases hstrides : computeStrides stored.value.data.arrayLength
        stored.value.arrayDimensions.items range with
    | error retval =>
      refine iff_of_true ?_ nofun
      exact indexedWriteSafe_of_refused hvalue hchecked hsides (run_setRangeCopy_error hstrides)
        (computeStrides_error hstrides)
    | ok s =>
      by_cases hsize : s.total = writtenSize written
      · rw [indexedWriteSafe_iff_of_reached hvalue hchecked hsides hstrides hsize]
        constructor
        · rintro hsafe - s' ⟨⟩ -
          exact hsafe
        · exact fun hguard => hguard hsides s rfl hsize
      · refine iff_of_true ?_ ?_
        · exact indexedWriteSafe_of_refused hvalue hchecked hsides
            (run_setRangeCopy_size hstrides hsize) (by decide)
        · rintro - s' ⟨⟩ hsize'
          exact absurd hsize' hsize
  · exact iff_of_true (indexedWriteSafe_of_sides hvalue hchecked hsides)
      fun h => absurd h hsides

end Safety

/-- A variable for anything, which holds three UInt32. -/
def anyNode (value : UaVariant Nat) : VariableNode Nat :=
  countersNode ⟨baseDataType, -2, [], .data (storedValue value)⟩

def anyServer (value : UaVariant Nat) : Server (VariableAttributes Nat) := ⟨[anyNode value], 2, 0⟩

def triple (second : Nat) : UaVariant Nat :=
  ⟨some (builtinType .uint32), .array [5, second, 7] (List.cons_ne_nil _ _), .null⟩

def single (type : Builtin) (x : Nat) : UaVariant Nat := ⟨some (builtinType type), .scalar x, .null⟩

def secondElement : UaString := .mem [49]

theorem checked_single (type : Builtin) (x : Nat) :
    Checked quietOutside (anyServer (triple 6)) (anyNode (triple 6)) (bareValue (single type x))
      secondElement 0 [⟨1, 1⟩] (single type x) 1 1 := by
  refine ⟨by decide +kernel, ?_⟩
  cases type <;> rfl

end FactoryThing.Variables
