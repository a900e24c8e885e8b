import FactoryThing.Variants.InBounds

/-!
# The copy of a range step by step

The two loops of `UA_Variant_copyRange` as one loop over the positions that are visited, and the
function cut at the allocation of the result. What a run does depends on no more of the memory than
the calls it has made.
-/

namespace FactoryThing.Variants

open RowMajor Stateful
open Encoding (int32Max)

variable {α β : Type}

section Loops

variable {visit : Nat → RangeM β}

theorem visitBlock_eq (n next : Nat) :
    visitBlock visit n next = ((List.range n).map fun j => next + j).mapM visit := by
  induction n generalizing next with
  | zero => rfl
  | succ n ih =>
    rw [map_range_succ, List.mapM_cons, visitBlock]
    simp only [ih]

theorem visitBlocks_eq (count block stride next : Nat) :
    visitBlocks visit block stride count next = (blocks count block stride next).mapM visit := by
  induction count generalizing next with
  | zero => rfl
  | succ count ih =>
    rw [visitBlocks, blocks_succ, List.mapM_append, visitBlock_eq]
    simp only [ih]

/-- The loop of a copy with a remaining range over the positions one after the other. -/
def nestedEach (visit : Nat → RangeM (StatusCode × β)) :
    List Nat → StatusCode → RangeM (StatusCode × List β)
  | [], retval => return (retval, [])
  | p :: ps, retval =>
    if retval ≠ StatusCode.good then return (retval, [])
    else do
      let (retval, y) ← visit p
      let (retval, ys) ← nestedEach visit ps retval
      return (retval, y :: ys)

variable {visit : Nat → RangeM (StatusCode × β)}

theorem nestedEach_of_bad {retval : StatusCode} (h : retval ≠ StatusCode.good) (ps : List Nat) :
    nestedEach visit ps retval = pure (retval, []) := by
  cases ps with
  | nil => rfl
  | cons p ps => rw [nestedEach, if_pos h]

theorem nestedEach_append (ps qs : List Nat) (retval : StatusCode) :
    nestedEach visit (ps ++ qs) retval = do
      let r ← nestedEach visit ps retval
      let r' ← nestedEach visit qs r.1
      return (r'.1, r.2 ++ r'.2) := by
  induction ps generalizing retval with
  | nil => simp [nestedEach]
  | cons p ps ih =>
    by_cases hbad : retval ≠ StatusCode.good
    · simp [nestedEach_of_bad hbad]
    · rw [List.cons_append, nestedEach, nestedEach, if_neg hbad, if_neg hbad]
      simp [ih]

theorem nestedBlock_eq (n next : Nat) (retval : StatusCode) :
    nestedBlock visit n next retval =
      nestedEach visit ((List.range n).map fun j => next + j) retval := by
  induction n generalizing next retval with
  | zero => rfl
  | succ n ih =>
    rw [map_range_succ, nestedBlock, nestedEach]
    simp only [ih]

theorem nestedBlocks_eq (count block stride next : Nat) (retval : StatusCode) :
    nestedBlocks visit block stride count next retval =
      nestedEach visit (blocks count block stride next) retval := by
  induction count generalizing next retval with
  | zero => rfl
  | succ count ih =>
    rw [nestedBlocks, blocks_succ, nestedEach_append, nestedBlock_eq]
    simp only [ih]

end Loops

/-- The range dimensions that are dealt with right now. -/
def rangeDims (v : UaVariant α) : Nat :=
  if v.arrayDimensions.length = 0 then 1 else v.arrayDimensions.length

def thisRange (v : UaVariant α) (range : NumericRange) : NumericRange :=
  if v.data.isScalar then [⟨0, 0⟩] else range.take (rangeDims v)

def nextRange (v : UaVariant α) (range : NumericRange) : NumericRange :=
  if v.data.isScalar then range else range.drop (rangeDims v)

/-- The strides of a copy, or why it is refused (`:563-590`). -/
def copyStrides (v : UaVariant α) (range : NumericRange) : Except StatusCode Strides :=
  if ¬ v.data.isScalar ∧ rangeDims v > range.length then .error StatusCode.badIndexRangeInvalid
  else
    computeStrides (if v.data.isScalar then 1 else v.data.arrayLength) v.arrayDimensions.items
      (thisRange v range)

variable (env : Elements α)

/-- The elements are copied (`:600-644`). -/
def copyContents (fuel : Nat) (type : TypeDescription) (v : UaVariant α) (range : NumericRange)
    (s : Strides) : RangeM (StatusCode × List (Slot α)) :=
  if (nextRange v range).length = 0 then copyElements env type v.data.items s
  else copyNested env (variantCopyRange env fuel) type v.data.items s (nextRange v range)

/-- What becomes of the copied elements (`:646-670`). -/
def settleCopy (type : TypeDescription) (v : UaVariant α) (range : NumericRange) (s : Strides)
    (r : StatusCode × List (Slot α)) : RangeM (StatusCode × Slot (UaVariant α)) :=
  if r.1 ≠ StatusCode.good then do
    arrayDelete type s.total r.2
    return (r.1, .holds emptyVariant)
  else
    match Slot.values r.2 with
    | none => throw RangeFault.uninitialised
    | some items => copyRangeFinish env type v (thisRange v range) items

variable {env} {type : TypeDescription} {v : UaVariant α} {range : NumericRange} {s : Strides}

theorem variantCopyRange_untyped (htype : v.type = none) (fuel : Nat) :
    variantCopyRange env (fuel + 1) v range = throw RangeFault.nullDeref := by
  rw [variantCopyRange, htype]

theorem variantCopyRange_refused (htype : v.type = some type) {retval : StatusCode}
    (h : copyStrides v range = .error retval) (fuel : Nat) :
    variantCopyRange env (fuel + 1) v range = pure (retval, .unwritten) := by
  unfold copyStrides thisRange at h
  rw [variantCopyRange, htype]
  dsimp only
  rw [show (if v.arrayDimensions.length = 0 then 1 else v.arrayDimensions.length) = rangeDims v
    from rfl]
  by_cases hfew : ¬ v.data.isScalar = true ∧ rangeDims v > range.length
  · rw [if_pos hfew] at h
    rw [if_pos hfew, ← Except.error.inj h]
  · rw [if_neg hfew] at h
    rw [if_neg hfew]
    cases hscalar : v.data.isScalar with
    | true =>
      rw [hscalar] at h
      simp only [if_true] at h ⊢
      rw [h]
    | false =>
      rw [hscalar] at h
      simp only [Bool.false_eq_true, if_false] at h ⊢
      rw [h]

theorem variantCopyRange_taken (htype : v.type = some type) (h : copyStrides v range = .ok s)
    (fuel : Nat) :
    variantCopyRange env (fuel + 1) v range = malloc env >>= fun enough =>
      if enough = false then return (StatusCode.badOutOfMemory, .holds emptyVariant)
      else if s.block = 0 then throw RangeFault.divisionByZero
      else copyContents env fuel type v range s >>= settleCopy env type v range s := by
  have hranges : (if v.data.isScalar = true then (1, [⟨0, 0⟩], range)
      else (v.data.arrayLength, range.take (rangeDims v), range.drop (rangeDims v))) =
      (if v.data.isScalar then 1 else v.data.arrayLength, thisRange v range,
        nextRange v range) := by
    unfold thisRange nextRange
    split <;> rfl
  unfold copyStrides at h
  rw [variantCopyRange, htype]
  dsimp only
  rw [show (if v.arrayDimensions.length = 0 then 1 else v.arrayDimensions.length) = rangeDims v
    from rfl, hranges]
  by_cases hfew : ¬ v.data.isScalar = true ∧ rangeDims v > range.length
  · rw [if_pos hfew] at h
    cases h
  · rw [if_neg hfew] at h
    rw [if_neg hfew]
    rw [h]
    refine bind_congr fun enough => ?_
    refine if_congr Iff.rfl rfl (if_congr Iff.rfl rfl ?_)
    exact (apply_ite (fun copy => copy >>= settleCopy env type v range s) _ _ _).symm

/-! ## Memory -/

/-- The answers of `UA_malloc` and `UA_copy`. Only the copy of an element that owns memory can
fail. -/
structure MemoryPattern (owns : α → Prop) where
  alloc : Nat → Bool
  copyStatus : Nat → α → StatusCode
  good_of_not_owns : ∀ n x, ¬ owns x → copyStatus n x = StatusCode.good

def Elements.withMemory {owns : α → Prop} (env : Elements α) (m : MemoryPattern owns) :
    Elements α :=
  { env with alloc := m.alloc, copyStatus := m.copyStatus }

/-- As long as it makes no call from the number `limit` on, one computation does what the other
does. -/
def AgreesTo (limit : Nat) (x y : RangeM β) : Prop :=
  ∀ n r n', x.run n = .ok (r, n') → n ≤ n' ∧ (n' ≤ limit → y.run n = .ok (r, n'))

section Agreement

variable {γ : Type} {limit : Nat}

theorem agreesTo_pure (b : β) : AgreesTo limit (pure b) (pure b) := by
  rintro n r n' h
  obtain ⟨rfl, rfl⟩ := run_pure_ok.mp h
  exact ⟨Nat.le_refl _, fun _ => rfl⟩

theorem agreesTo_throw (e : RangeFault) (y : RangeM β) : AgreesTo limit (throw e) y :=
  fun _ _ _ h => (run_throw_ok.mp h).elim

theorem AgreesTo.bind {x y : RangeM β} {f g : β → RangeM γ} (hx : AgreesTo limit x y)
    (hf : ∀ b, AgreesTo limit (f b) (g b)) : AgreesTo limit (x >>= f) (y >>= g) := by
  intro n r n' h
  obtain ⟨b, n1, hrun, hrest⟩ := run_bind_ok.mp h
  obtain ⟨hle, hsame⟩ := hx n b n1 hrun
  obtain ⟨hle', hsame'⟩ := hf b n1 r n' hrest
  refine ⟨hle.trans hle', fun hlimit => ?_⟩
  rw [run_bind_of_ok (hsame (hle'.trans hlimit))]
  exact hsame' hlimit

theorem AgreesTo.ite {c : Prop} [Decidable c] {x y x' y' : RangeM β} (hx : AgreesTo limit x x')
    (hy : AgreesTo limit y y') : AgreesTo limit (if c then x else y) (if c then x' else y') := by
  split
  · exact hx
  · exact hy

theorem AgreesTo.mapM {visit visit' : Nat → RangeM β}
    (h : ∀ i, AgreesTo limit (visit i) (visit' i)) (ps : List Nat) :
    AgreesTo limit (ps.mapM visit) (ps.mapM visit') := by
  induction ps with
  | nil => exact agreesTo_pure []
  | cons p ps ih =>
    rw [List.mapM_cons, List.mapM_cons]
    exact (h p).bind fun y => ih.bind fun ys => agreesTo_pure (y :: ys)

theorem AgreesTo.nestedEach {visit visit' : Nat → RangeM (StatusCode × β)}
    (h : ∀ i, AgreesTo limit (visit i) (visit' i)) (ps : List Nat) (retval : StatusCode) :
    AgreesTo limit (nestedEach visit ps retval) (nestedEach visit' ps retval) := by
  induction ps generalizing retval with
  | nil => exact agreesTo_pure _
  | cons p ps ih =>
    refine (agreesTo_pure _).ite ((h p).bind fun r => ?_)
    exact (ih r.1).bind fun r' => agreesTo_pure _

theorem agreesTo_readElement (items : List α) (i : Nat) :
    AgreesTo limit (readElement items i) (readElement items i) := by
  unfold readElement
  split
  · exact agreesTo_pure _
  · exact agreesTo_throw _ _

theorem agreesTo_arrayDelete (type : TypeDescription) (size : Nat) (slots : List (Slot α)) :
    AgreesTo limit (arrayDelete type size slots) (arrayDelete type size slots) :=
  (agreesTo_pure _).ite ((agreesTo_throw _ _).ite ((agreesTo_throw _ _).ite (agreesTo_pure _)))

variable {owns : α → Prop} {m m' : MemoryPattern owns}

/-- Two patterns that answer the calls before `limit` alike. -/
structure SameBefore (limit : Nat) (m m' : MemoryPattern owns) : Prop where
  alloc : ∀ n < limit, m.alloc n = m'.alloc n
  copyStatus : ∀ n < limit, ∀ x, m.copyStatus n x = m'.copyStatus n x

theorem SameBefore.malloc (h : SameBefore limit m m') :
    AgreesTo limit (malloc (env.withMemory m)) (malloc (env.withMemory m')) := by
  intro n r n' hrun
  have hcall : (m.alloc n, n + 1) = (r, n') := Except.ok.inj hrun
  obtain ⟨rfl, rfl⟩ := Prod.mk.inj hcall
  refine ⟨Nat.le_succ n, fun hlimit => ?_⟩
  rw [h.alloc n hlimit]
  rfl

theorem SameBefore.copy (h : SameBefore limit m m') (type : TypeDescription) (x : α) :
    AgreesTo limit (copy (env.withMemory m) type x) (copy (env.withMemory m') type x) := by
  intro n r n' hrun
  have hcall : ((m.copyStatus n x,
      if m.copyStatus n x = StatusCode.good then x else env.zero type), n + 1) = (r, n') :=
    Except.ok.inj hrun
  obtain ⟨rfl, rfl⟩ := Prod.mk.inj hcall
  refine ⟨Nat.le_succ n, fun hlimit => ?_⟩
  rw [h.copyStatus n hlimit]
  rfl

theorem SameBefore.copyElements (h : SameBefore limit m m') (type : TypeDescription)
    (items : List α) (s : Strides) :
    AgreesTo limit (copyElements (env.withMemory m) type items s)
      (copyElements (env.withMemory m') type items s) := by
  unfold Variants.copyElements
  simp only [visitBlocks_eq]
  refine AgreesTo.ite ?_ ?_
  · exact (AgreesTo.mapM (agreesTo_readElement items) _).bind fun _ => agreesTo_pure _
  · refine (AgreesTo.mapM (fun i => ?_) _).bind fun _ => agreesTo_pure _
    exact (agreesTo_readElement items i).bind fun x => h.copy type x

theorem SameBefore.copySubString (h : SameBefore limit m m') (src : UaString)
    (dim : RangeDimension) :
    AgreesTo limit (copySubString (env.withMemory m) src dim)
      (copySubString (env.withMemory m') src dim) :=
  (agreesTo_pure _).ite ((agreesTo_pure _).ite
    (h.malloc.bind fun _ => (agreesTo_pure _).ite (agreesTo_pure _)))

theorem SameBefore.copyNested (h : SameBefore limit m m')
    {copyRange copyRange' : UaVariant α → NumericRange → RangeM (StatusCode × Slot (UaVariant α))}
    (hnested : ∀ v range, AgreesTo limit (copyRange v range) (copyRange' v range))
    (type : TypeDescription) (items : List α) (s : Strides) (next : NumericRange) :
    AgreesTo limit (copyNested (env.withMemory m) copyRange type items s next)
      (copyNested (env.withMemory m') copyRange' type items s next) := by
  unfold Variants.copyNested
  simp only [nestedBlocks_eq]
  refine AgreesTo.nestedEach (fun i => (agreesTo_readElement items i).bind fun x => ?_) _ _
  refine AgreesTo.ite ?_ ?_
  · cases next with
    | nil => exact agreesTo_throw _ _
    | cons dim next => exact (h.copySubString _ _).bind fun _ => agreesTo_pure _
  · exact (hnested _ _).bind fun _ => agreesTo_pure _

theorem SameBefore.copyRangeFinish (h : SameBefore limit m m') (type : TypeDescription)
    (v : UaVariant α) (thisrange : NumericRange) (items : List α) :
    AgreesTo limit (copyRangeFinish (env.withMemory m) type v thisrange items)
      (copyRangeFinish (env.withMemory m') type v thisrange items) := by
  unfold Variants.copyRangeFinish
  refine AgreesTo.ite ?_ ?_
  · split
    · exact agreesTo_pure _
    · exact agreesTo_throw _ _
  · split
    · exact agreesTo_throw _ _
    · refine AgreesTo.ite (h.malloc.bind fun _ => ?_) (agreesTo_pure _)
      exact (agreesTo_pure _).ite (agreesTo_pure _)

theorem SameBefore.settleCopy (h : SameBefore limit m m') (type : TypeDescription)
    (v : UaVariant α) (range : NumericRange) (s : Strides) (r : StatusCode × List (Slot α)) :
    AgreesTo limit (settleCopy (env.withMemory m) type v range s r)
      (settleCopy (env.withMemory m') type v range s r) := by
  refine AgreesTo.ite ?_ ?_
  · exact (agreesTo_arrayDelete _ _ _).bind fun _ => agreesTo_pure _
  · split
    · exact agreesTo_throw _ _
    · exact h.copyRangeFinish _ _ _ _

theorem SameBefore.variantCopyRange (h : SameBefore limit m m') {fuel fuel' : Nat}
    (hfuel : fuel ≤ fuel') (v : UaVariant α) (range : NumericRange) :
    AgreesTo limit (variantCopyRange (env.withMemory m) fuel v range)
      (variantCopyRange (env.withMemory m') fuel' v range) := by
  induction fuel generalizing fuel' v range with
  | zero => exact agreesTo_throw _ _
  | succ fuel ih =>
    obtain ⟨fuel', rfl⟩ := Nat.exists_eq_add_of_lt hfuel
    have hle : fuel ≤ fuel + fuel' := Nat.le_add_right _ _
    cases htype : v.type with
    | none =>
      rw [variantCopyRange_untyped htype]
      exact agreesTo_throw _ _
    | some type =>
      cases hstrides : copyStrides v range with
      | error retval =>
        rw [variantCopyRange_refused htype hstrides, variantCopyRange_refused htype hstrides]
        exact agreesTo_pure _
      | ok s =>
        rw [variantCopyRange_taken htype hstrides, variantCopyRange_taken htype hstrides]
        refine h.malloc.bind fun _ => (agreesTo_pure _).ite ((agreesTo_throw _ _).ite ?_)
        refine AgreesTo.bind ?_ fun r => h.settleCopy type v range s r
        exact (h.copyElements _ _ _).ite (h.copyNested (fun v range => ih hle v range) _ _ _ _)

theorem SameBefore.copyContents (h : SameBefore limit m m') {fuel fuel' : Nat}
    (hfuel : fuel ≤ fuel') (type : TypeDescription) (v : UaVariant α) (range : NumericRange)
    (s : Strides) :
    AgreesTo limit (copyContents (env.withMemory m) fuel type v range s)
      (copyContents (env.withMemory m') fuel' type v range s) :=
  (h.copyElements _ _ _).ite (h.copyNested (h.variantCopyRange hfuel) _ _ _ _)

end Agreement

end FactoryThing.Variants
