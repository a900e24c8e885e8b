import FactoryThing.Variants.InBounds

/-!
# Moving elements into a range

`UA_Variant_setRange` moves the elements of an array into a Variant, bit by bit. The Variant owns
what the elements point to from then on, and the array of the caller is set to zero so that nothing
is released through it. The number of bytes that are set to zero is the size of a `size_t` for each
element and not the size of the element.
-/

namespace FactoryThing.Variants

open RowMajor Stateful
open Encoding (int32Max)

variable {α : Type}

/-- How the elements of a type lie in memory, and what `memset` does to their bytes. -/
structure Images (env : Elements α) (type : TypeDescription) (image : α → List UInt8) : Prop where
  length : ∀ x, (image x).length = type.memSize.toNat
  zeroBytes : ∀ n x, image (env.zeroBytes type n x) =
    List.replicate (min n type.memSize.toNat) 0 ++ (image x).drop n

def IsZeroed (bytes : List UInt8) : Prop := ∀ b ∈ bytes, b = 0

instance (bytes : List UInt8) : Decidable (IsZeroed bytes) :=
  inferInstanceAs (Decidable (∀ b ∈ bytes, b = 0))

theorem isZeroed_append {bytes bytes' : List UInt8} :
    IsZeroed (bytes ++ bytes') ↔ IsZeroed bytes ∧ IsZeroed bytes' := List.forall_mem_append

theorem isZeroed_replicate (n : Nat) : IsZeroed (List.replicate n 0) :=
  fun _ hb => List.eq_of_mem_replicate hb

theorem isZeroed_cleared_iff {env : Elements α} {type : TypeDescription} {image : α → List UInt8}
    (h : Images env type image) (n : Nat) (array : List α) :
    IsZeroed ((array.mapIdx fun i x =>
        env.zeroBytes type (min type.memSize.toNat (n - i * type.memSize.toNat)) x).flatMap image) ↔
      IsZeroed ((array.flatMap image).drop n) := by
  induction array generalizing n with
  | nil => simp
  | cons x array ih =>
    have hshift : ∀ i, n - (i + 1) * type.memSize.toNat =
        n - type.memSize.toNat - i * type.memSize.toNat := by
      intro i
      rw [Nat.succ_mul]
      omega
    have hfirst : IsZeroed (image (env.zeroBytes type (min type.memSize.toNat n) x)) ↔
        IsZeroed ((image x).drop n) := by
      rw [h.zeroBytes, isZeroed_append, and_iff_right (isZeroed_replicate _)]
      obtain hle | hlt := Nat.le_total n type.memSize.toNat
      · rw [Nat.min_eq_right hle]
      · rw [Nat.min_eq_left hlt, List.drop_of_length_le (h.length x).le,
          List.drop_of_length_le ((h.length x).le.trans hlt)]
    rw [List.mapIdx_cons, List.flatMap_cons, List.flatMap_cons, List.drop_append, isZeroed_append,
      isZeroed_append, h.length, Nat.zero_mul, Nat.sub_zero, hfirst]
    simp only [hshift]
    rw [ih]

section Addressed

variable {v : UaVariant α} {items : List α} {range : NumericRange}

theorem addressed_of_computeStrides {hne : items ≠ []} (hdata : v.data = .array items hne)
    (hsize : items.length < 2 ^ 64) (hunwrapped : Unwrapped items.length v.arrayDimensions.items)
    {s : Strides} (h : computeStrides v.data.arrayLength v.arrayDimensions.items range = .ok s) :
    Addressed v items range := by
  have hlength : v.data.arrayLength = items.length := by rw [hdata]; rfl
  obtain ⟨ds, total, st, hds, hlen, htotal, -, -⟩ := computeStrides_ok h
  have hinside := inside_of_rangeCount htotal
  by_cases hzero : v.arrayDimensions.length = 0
  · have hdims : dimensions v = [items.length] := by rw [dimensions, if_pos hzero, hlength]
    have hseen := seen_of_computeStrides h hzero
    unfold arrayDims at hds
    rw [if_neg (show ¬ v.arrayDimensions.items.length > 0 from
      Nat.not_lt.mpr (Nat.le_of_eq hzero))] at hds
    obtain rfl := Option.some.inj hds
    obtain ⟨r, rfl⟩ := List.length_eq_one_iff.mp hlen
    have hpos := (hinside _ List.mem_cons_self).extent_pos
    have hmax := Nat.lt_of_lt_of_le (hseen r List.mem_cons_self) (Nat.mod_le _ _)
    rw [hlength] at hmax
    refine ⟨⟨hne, hdata⟩, hsize, by rw [hdims, List.prod_singleton], by rw [hdims]; rfl, ?_⟩
    rw [hdims]
    refine List.forall_mem_cons.mpr ⟨⟨hpos, ?_⟩, fun p hp => absurd hp List.not_mem_nil⟩
    simp only [addressedPart] at hpos ⊢
    omega
  · have hdims : dimensions v = v.arrayDimensions.items.map UInt32.toNat := if_neg hzero
    have hnonempty : v.arrayDimensions.items ≠ [] :=
      List.length_pos_iff.mp (Nat.pos_of_ne_zero hzero)
    rw [hlength] at hds
    have hproduct := (hunwrapped.product_eq hnonempty hds hlen hinside).1
    obtain rfl := arrayDims_of_ne_nil hnonempty hds
    rw [boxOf_zip] at hinside
    refine ⟨⟨hne, hdata⟩, hsize, by rw [hdims, hproduct], ?_, by rw [hdims]; exact hinside⟩
    rw [hlen, hdims, List.length_map]

theorem Addressed.strides (h : Addressed v items range) (hseen : Seen v range) :
    ∃ s, computeStrides v.data.arrayLength v.arrayDimensions.items range = .ok s ∧
      s.total = volume (addressedBox (dimensions v) range) ∧ StaysInside items.length s ∧
      (visited s).Nodup := by
  obtain ⟨s, init, st, hstrides, hst, hblock, hstride, rfl⟩ := h.computeStrides_eq hseen
  obtain ⟨hvolume, -, -, hentries⟩ := h.compared_box
  have hinside := h.compared_inside hseen
  refine ⟨_, hstrides, hvolume, (staysInside_of_stridesOf hst hinside hblock).mono hentries, ?_⟩
  have hle := block_le_stride hst hinside hblock (hstride ▸ hentries)
  exact (pairwise_blocks hle _ _).imp fun hlt => hlt.ne

end Addressed

variable (env : Elements α) (image : α → List UInt8) (v : UaVariant α) (items : List α)
  (range : NumericRange) (array : List α)

/-- `UA_Variant_copyRange` returns the elements of an array. -/
def CopiesBack : Prop :=
  ∀ fuel, Gives (variantCopyRange env (fuel + 1) v range) fun r =>
    ∃ dst h, r = (StatusCode.good, .holds dst) ∧ dst.type = v.type ∧ dst.data = .array array h

/-- What a move into a range has done when it returns Good: the elements can be read back, nothing
else in the Variant has changed, and where the elements have pointers nothing of them is left in the
array. -/
def MovesRange : Prop :=
  Gives (setRange env v array array.length range) fun r =>
    r.1 = StatusCode.good →
      CopiesBack env r.2.1 range array ∧
      (∃ s replaced h, computeStrides v.data.arrayLength v.arrayDimensions.items range = .ok s ∧
        r.2.1 = { v with data := .array replaced h } ∧ replaced.length = items.length ∧
        Selects replaced (visited s) array ∧ ∀ k, k ∉ visited s → replaced[k]? = items[k]?) ∧
      ((∀ type, v.type = some type → type.pointerFree = false) → IsZeroed (r.2.2.flatMap image))

variable {env image v items range array}

theorem movesRange_of_refused
    (h : ∀ s, computeStrides v.data.arrayLength v.arrayDimensions.items range = .ok s →
      s.total ≠ array.length) (hbad : ∀ retval,
      computeStrides v.data.arrayLength v.arrayDimensions.items range = .error retval →
        retval ≠ StatusCode.good) : MovesRange env image v items range array := by
  unfold MovesRange setRange variantSetRange
  cases hstrides : computeStrides v.data.arrayLength v.arrayDimensions.items range with
  | error retval => exact gives_pure fun hgood => absurd hgood (hbad retval hstrides)
  | ok s =>
    dsimp only
    rw [if_pos (h s hstrides)]
    exact gives_pure fun hgood =>
      nomatch (hgood : StatusCode.badIndexRangeInvalid = StatusCode.good)

theorem Addressed.copiesBack_iff (henv : Plentiful env) {type : TypeDescription}
    (htype : v.type = some type) (h : Addressed v items range) {s : Strides}
    (hstrides : computeStrides v.data.arrayLength v.arrayDimensions.items range = .ok s)
    (hstays : StaysInside items.length s) (hselects : Selects items (visited s) array)
    (hne : array ≠ []) :
    CopiesBack env v range array ↔ v.arrayDimensions.length ≤ int32Max := by
  obtain ⟨hne', hdata⟩ := h.data
  have hscalar : v.data.isScalar = false := by rw [hdata]; rfl
  have hsame : ∀ selected, Selects items (visited s) selected → selected = array :=
    fun selected hselected => List.map_injective_iff.mpr (Option.some_injective α)
      (hselected.trans hselects.symm)
  have hrange : v.arrayDimensions.length ≠ 0 → range.length = v.arrayDimensions.length := by
    intro hzero
    rw [h.length_eq, dimensions, if_neg hzero, List.length_map]
    rfl
  have hcopied : ∀ fuel, Gives (variantCopyRange env (fuel + 1) v range) fun r =>
      if v.arrayDimensions.length = 0 then
        r = (StatusCode.good, .holds ⟨some type, .array array hne, .null⟩)
      else if range.length ≤ int32Max then
        r = (StatusCode.good, .holds ⟨some type, .array array hne,
          .mem (range.map fun r => r.max - r.min + 1)⟩)
      else r.1 = StatusCode.badOutOfMemory := by
    intro fuel
    refine gives_variantCopyRange henv htype h hstrides hstays.block_ne_zero
      hstays.lt_of_mem_visited fuel fun selected hselected => ?_
    obtain rfl := hsame selected hselected
    exact gives_copyRangeFinish henv type hscalar hne
  constructor
  · intro hcopies
    by_contra hgt
    have hzero : v.arrayDimensions.length ≠ 0 := by omega
    obtain ⟨r, n, hrun, dst, hne'', rfl, -⟩ := hcopies 0 0
    obtain ⟨r', n', hrun', hbad⟩ := hcopied 0 0
    rw [if_neg hzero, if_neg (by rw [hrange hzero]; exact hgt)] at hbad
    rw [hrun] at hrun'
    cases hrun'
    cases hbad
  · intro hle fuel
    refine (hcopied fuel).mono fun r hr => ?_
    by_cases hzero : v.arrayDimensions.length = 0
    · rw [if_pos hzero] at hr
      exact ⟨_, hne, hr, htype.symm, rfl⟩
    · rw [if_neg hzero, if_pos (by rw [hrange hzero]; exact hle)] at hr
      exact ⟨_, hne, hr, htype.symm, rfl⟩

/-- A move into a range leaves the array of the caller without anything the Variant owns just if the
bytes behind the first eight for each element have been zero before. -/
theorem setRange_moves_iff (henv : Plentiful env) {type : TypeDescription}
    (himage : Images env type image) (htype : v.type = some type) {hne : items ≠ []}
    (hdata : v.data = .array items hne) (hsize : items.length < 2 ^ 64)
    (hunwrapped : Unwrapped items.length v.arrayDimensions.items) (array : List α) :
    MovesRange env image v items range array ↔
      (Addressed v items range → Seen v range →
        array.length = volume (addressedBox (dimensions v) range) →
        v.arrayDimensions.length ≤ int32Max ∧
          (type.pointerFree = true ∨
            IsZeroed ((array.flatMap image).drop (8 * array.length)))) := by
  by_cases htaken : Addressed v items range ∧ Seen v range ∧
      array.length = volume (addressedBox (dimensions v) range)
  · obtain ⟨h, hseen, hlen⟩ := htaken
    obtain ⟨s, hstrides, htotal, hstays, hnodup⟩ := h.strides hseen
    have hlt := hstays.lt_of_mem_visited
    have hsame : (visited s).length = array.length := by
      rw [hstays.length_visited, htotal, hlen]
    have hset := @gives_variantSetRange _ env v items range s _ htype hne hdata hstrides
      hstays.block_ne_zero hstays.block_dvd hlt array (htotal.trans hlen.symm) false
      fun hcopy => absurd hcopy (by decide)
    have harray : array ≠ [] := by
      rw [← List.length_pos_iff, hlen]
      exact volume_pos h.inside
    -- the Variant after the move
    have hselects := selects_replaceAt hnodup hlt hsame
    have hback : ∀ hne', CopiesBack env
        { v with data := .array (replaceAt items (visited s) array) hne' } range array ↔
          v.arrayDimensions.length ≤ int32Max := by
      intro hne'
      have hlength : (VariantData.array (replaceAt items (visited s) array) hne').arrayLength =
          v.data.arrayLength := by
        rw [hdata]
        exact length_replaceAt _ _ _
      have hdims : dimensions { v with data := .array (replaceAt items (visited s) array) hne' } =
          dimensions v := by
        unfold dimensions
        dsimp only
        rw [hlength]
      refine @Addressed.copiesBack_iff _ env
        { v with data := .array (replaceAt items (visited s) array) hne' }
        (replaceAt items (visited s) array) range array henv type htype ?_ s ?_ ?_ hselects harray
      · exact ⟨⟨hne', rfl⟩, by rw [length_replaceAt]; exact hsize,
          by rw [hdims, length_replaceAt, h.product], by rw [hdims, h.length_eq],
          by rw [hdims]; exact h.inside⟩
      · dsimp only
        rw [hlength]
        exact hstrides
      · rw [length_replaceAt]
        exact hstays
    have hpointers : (∀ t, v.type = some t → t.pointerFree = false) ↔ type.pointerFree = false := by
      rw [htype]
      exact ⟨fun hall => hall type rfl, fun hp t ht => Option.some.inj ht ▸ hp⟩
    constructor
    · intro hmoves _ _ _
      obtain ⟨r, n, hrun, hmoves⟩ := hmoves 0
      obtain ⟨r', n', hrun', hne', rfl⟩ := hset 0
      have hr : (r, n) = (_, n') := Except.ok.inj (hrun.symm.trans hrun')
      obtain ⟨rfl, rfl⟩ := Prod.mk.inj hr
      obtain ⟨hcopies, -, hzero⟩ := hmoves rfl
      refine ⟨(hback hne').mp hcopies, ?_⟩
      cases hpointer : type.pointerFree with
      | true => exact .inl rfl
      | false =>
        have hzero := hzero (hpointers.mpr hpointer)
        rw [hpointer, if_pos ⟨rfl, rfl⟩, clearMoved] at hzero
        exact .inr ((isZeroed_cleared_iff himage _ _).mp hzero)
    · intro hcond
      obtain ⟨hdims, hzero⟩ := hcond h hseen hlen
      refine hset.mono ?_
      rintro _ ⟨hne', rfl⟩ -
      refine ⟨(hback hne').mpr hdims, ⟨s, _, hne', hstrides, rfl, length_replaceAt _ _ _, hselects,
        fun k hk => getElem?_replaceAt_of_notMem hk⟩, fun hpointer => ?_⟩
      have hpointer := hpointers.mp hpointer
      have hzero := hzero.resolve_left (by rw [hpointer]; decide)
      dsimp only
      rw [hpointer, if_pos ⟨rfl, rfl⟩, clearMoved]
      exact (isZeroed_cleared_iff himage _ _).mpr hzero
  · refine iff_of_true (movesRange_of_refused ?_ fun retval => computeStrides_error)
      fun h hseen hlen => absurd ⟨h, hseen, hlen⟩ htaken
    intro s hstrides htotal
    have h := addressed_of_computeStrides hdata hsize hunwrapped hstrides
    have hseen := seen_of_computeStrides hstrides
    obtain ⟨s', hstrides', htotal', -⟩ := h.strides hseen
    obtain rfl := Except.ok.inj (hstrides.symm.trans hstrides')
    exact htaken ⟨h, hseen, htotal.symm.trans htotal'⟩

/-- The bytes of an element, as many as its type has. -/
def bytesOf (type : TypeDescription) (x : List UInt8) : List UInt8 :=
  (x ++ List.replicate type.memSize.toNat 0).take type.memSize.toNat

def byteElements : Elements (List UInt8) where
  zero type := List.replicate type.memSize.toNat 0
  zeroBytes type n x := List.replicate (min n type.memSize.toNat) 0 ++ (bytesOf type x).drop n
  string _ := .null
  ofString _ := []
  variant _ := emptyVariant
  ofVariant _ := []
  byte b := [b]
  strayByte := []
  viewAs _ _ xs := xs
  alloc _ := true
  copyStatus _ _ := StatusCode.good

theorem plentiful_byteElements : Plentiful byteElements := ⟨fun _ => rfl, fun _ _ => rfl⟩

theorem length_bytesOf (type : TypeDescription) (x : List UInt8) :
    (bytesOf type x).length = type.memSize.toNat := by
  rw [bytesOf, List.length_take, List.length_append, List.length_replicate]
  omega

theorem bytesOf_of_length {type : TypeDescription} {x : List UInt8}
    (h : x.length = type.memSize.toNat) : bytesOf type x = x := by
  rw [bytesOf, ← h, List.take_left]

theorem images_byteElements (type : TypeDescription) :
    Images byteElements type (bytesOf type) := by
  refine ⟨length_bytesOf type, fun n x => bytesOf_of_length ?_⟩
  show (List.replicate _ _ ++ List.drop n _).length = _
  rw [List.length_append, List.length_replicate, List.length_drop, length_bytesOf]
  omega

/-- Two strings of one byte, with the addresses of their data. -/
def twoStrings : List (List UInt8) :=
  [[1, 0, 0, 0, 0, 0, 0, 0, 16, 0, 0, 0, 0, 0, 0, 0],
    [1, 0, 0, 0, 0, 0, 0, 0, 32, 0, 0, 0, 0, 0, 0, 0]]

def movedStrings : List (List UInt8) :=
  [[1, 0, 0, 0, 0, 0, 0, 0, 48, 0, 0, 0, 0, 0, 0, 0],
    [1, 0, 0, 0, 0, 0, 0, 0, 64, 0, 0, 0, 0, 0, 0, 0]]

def stringArray : UaVariant (List UInt8) :=
  ⟨some (builtinType .string), .array twoStrings (by decide), .null⟩

/-- A string without data can be moved. -/
theorem setRange_moves_null :
    MovesRange byteElements (bytesOf (builtinType .string)) stringArray twoStrings [⟨1, 1⟩]
      [List.replicate 16 0] :=
  (setRange_moves_iff plentiful_byteElements (images_byteElements _) rfl rfl (by decide)
    (fun h => absurd rfl h) _).mpr fun _ _ _ => ⟨by decide, .inr fun b hb =>
      List.eq_of_mem_replicate (show b ∈ List.replicate 8 0 from hb)⟩

/-- When two strings are moved, the second one is still in the array of the caller, with the address
of its data. -/
theorem setRange_leaves_pointer :
    ¬ MovesRange byteElements (bytesOf (builtinType .string)) stringArray twoStrings [⟨0, 1⟩]
      movedStrings := by
  intro hmoves
  obtain ⟨r, n, hrun, hmoves⟩ := hmoves 0
  have hset : (setRange byteElements stringArray movedStrings 2 [⟨0, 1⟩]).run 0 =
      .ok ((StatusCode.good, { stringArray with data := .array movedStrings (by decide) },
        [List.replicate 16 0, [1, 0, 0, 0, 0, 0, 0, 0, 64, 0, 0, 0, 0, 0, 0, 0]]), 0) := by rfl
  obtain ⟨rfl, rfl⟩ := Prod.mk.inj (Except.ok.inj (hset.symm.trans hrun))
  have hzero := (hmoves rfl).2.2 fun type htype => by
    obtain rfl := Option.some.inj htype
    rfl
  exact absurd hzero (by decide +kernel)

end FactoryThing.Variants
