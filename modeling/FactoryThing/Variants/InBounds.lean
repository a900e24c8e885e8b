import FactoryThing.Variants.Slices

/-!
# Ranges inside the array

What the loops of `UA_Variant_copyRange` and `Variant_setRange` visit when `computeStrides` accepts
a range. The dimensions of an array are received apart from its elements, and their product is
compared with the number of elements after it has been computed as a `size_t`. The range is compared
with the dimensions alone.
-/

namespace FactoryThing.Variants

open RowMajor

/-- The blocks are not empty, they divide what is visited, and the loops stay inside an array of
`arrayLength` elements. -/
structure StaysInside (arrayLength : Nat) (s : Strides) : Prop where
  block_ne_zero : s.block ≠ 0
  block_dvd : s.block ∣ s.total
  lt : ∀ i < s.total / s.block, ∀ j < s.block, s.first + i * s.stride + j < arrayLength

/-- Dimensions that pass the test for the product have the product. -/
def Unwrapped (arrayLength : Nat) (arrayDimensions : List UInt32) : Prop :=
  arrayDimensions ≠ [] → (∀ d ∈ arrayDimensions, 0 < d.toNat) →
    sizeT (arrayDimensions.map UInt32.toNat).prod = arrayLength →
    (arrayDimensions.map UInt32.toNat).prod = arrayLength

variable {n : Nat} {s : Strides} {dims : List UInt32} {init : StrideState} {range : NumericRange}

theorem StaysInside.lt_of_mem_visited (h : StaysInside n s) : ∀ i ∈ visited s, i < n := by
  intro k hk
  obtain ⟨i, hi, j, hj, rfl⟩ := mem_blocks.mp hk
  exact h.lt i hi j hj

theorem StaysInside.length_visited (h : StaysInside n s) : (visited s).length = s.total := by
  rw [visited, length_blocks, Nat.div_mul_cancel h.block_dvd]

theorem sizeT_mul (a b : Nat) : sizeT (sizeT a * b) = sizeT (a * b) :=
  Nat.mod_mul_mod a b _

theorem sizeT_add (a b : Nat) : sizeT (sizeT a + sizeT b) = sizeT (a + b) :=
  (Nat.add_mod a b _).symm

theorem foldl_product (dims : List UInt32) (n : Nat) :
    dims.foldl (fun elements d => sizeT (elements * d.toNat)) (sizeT n) =
      sizeT (n * (dims.map UInt32.toNat).prod) := by
  induction dims generalizing n with
  | nil => rw [List.foldl_nil, List.map_nil, List.prod_nil, Nat.mul_one]
  | cons d dims ih =>
    rw [List.foldl_cons, sizeT_mul, ih, List.map_cons, List.prod_cons, Nat.mul_assoc]

theorem arrayDims_some_iff (hdims : dims ≠ []) :
    arrayDims n dims = some dims ↔ sizeT (dims.map UInt32.toNat).prod = n := by
  have hfold := foldl_product dims 1
  rw [Nat.one_mul, show sizeT 1 = 1 from rfl] at hfold
  unfold arrayDims
  rw [if_pos (List.length_pos_iff.mpr hdims), hfold]
  constructor
  · intro h
    by_contra hne
    rw [if_pos hne] at h
    cases h
  · intro h
    rw [if_neg (not_not_intro h)]

theorem foldr_strideStep (hrunning : init.runningDimssize = 1) (hfirst : init.first = 0)
    (ds : List (UInt32 × RangeDimension)) :
    (ds.foldr strideStep init).runningDimssize = sizeT (entries (boxOf ds)) ∧
      (ds.foldr strideStep init).first = sizeT (offset (boxOf ds)) := by
  induction ds with
  | nil => exact ⟨hrunning, hfirst⟩
  | cons dim ds ih =>
    obtain ⟨d, r⟩ := dim
    obtain ⟨hrun, hfst⟩ := ih
    have hentries : entries (boxOf ((d, r) :: ds)) = d.toNat * entries (boxOf ds) := entries_cons
    have hoffset : offset (boxOf ((d, r) :: ds)) =
        r.min.toNat * entries (boxOf ds) + offset (boxOf ds) := rfl
    rw [hentries, hoffset]
    constructor
    · show sizeT (_ * d.toNat) = _
      rw [hrun, sizeT_mul, Nat.mul_comm]
    · show sizeT (_ + sizeT (_ * r.min.toNat)) = _
      rw [hrun, hfst, sizeT_mul, sizeT_add, Nat.mul_comm, Nat.add_comm]

theorem staysInside_of_stridesOf {box : List Part} {st : StrideState} (h : StridesOf box init st)
    (hbox : ∀ p ∈ box, p.Inside) (hblock : init.block = volume box) :
    StaysInside (entries box) ⟨volume box, st.block, st.stride, st.first⟩ := by
  obtain hfull | ⟨p, inner, hpartial, hinner, heq⟩ := outer_cases box
  · obtain ⟨-, hst, -⟩ := h.whole hfull
    have hpos := volume_pos hbox
    rw [hst, hblock, h.first, hfull.offset_eq hbox]
    refine ⟨hpos.ne', dvd_refl _, fun i hi j hj => ?_⟩
    rw [Nat.div_self hpos, Nat.lt_one_iff] at hi
    rw [hi, Nat.zero_mul, Nat.zero_add, ← hfull.volume_eq]
    exact hj
  · obtain ⟨-, hst, hstride⟩ := h.partly hpartial hinner heq
    have hparts := heq ▸ hbox
    have houter : ∀ q ∈ outer box, q.Inside := fun q hq =>
      hparts q (List.mem_append_left _ hq)
    obtain ⟨hp, hinside⟩ := List.forall_mem_cons.mp fun q hq =>
      hparts q (List.mem_append_right _ hq)
    have hpos : 0 < p.extent * entries inner := Nat.mul_pos hp.extent_pos (entries_pos hinside)
    have hvolume : volume box = volume (outer box) * (p.extent * entries inner) := by
      conv_lhs => rw [heq, volume_split hinner]
    have hoffset : offset box =
        offset (outer box) * (p.size * entries inner) + p.first * entries inner := by
      conv_lhs => rw [heq, offset_append, offset, hinner.offset_eq hinside, entries_cons]
      rw [Nat.add_zero]
    have hentries : entries box = entries (outer box) * (p.size * entries inner) := by
      conv_lhs => rw [heq, entries_append, entries_cons]
    rw [hst, hstride, h.first]
    refine ⟨hpos.ne', ⟨volume (outer box), by rw [hvolume, Nat.mul_comm]⟩, fun i hi j hj => ?_⟩
    dsimp only at hi hj ⊢
    rw [hvolume, Nat.mul_div_cancel _ hpos] at hi
    -- the row of the block, and the place in it
    have hrow : (offset (outer box) + i + 1) * (p.size * entries inner) ≤ entries box := by
      rw [hentries]
      exact Nat.mul_le_mul_right _ (le_trans (by omega) (offset_add_volume_le houter))
    have hplace : p.first * entries inner + p.extent * entries inner ≤ p.size * entries inner := by
      rw [← Nat.add_mul]
      exact Nat.mul_le_mul_right _ hp.le_size
    rw [Nat.succ_mul, Nat.add_mul] at hrow
    omega

theorem block_le_stride {box : List Part} {st : StrideState} (h : StridesOf box init st)
    (hbox : ∀ p ∈ box, p.Inside) (hblock : init.block = volume box)
    (hstride : entries box ≤ init.stride) : st.block ≤ st.stride := by
  obtain hfull | ⟨p, inner, hpartial, hinner, heq⟩ := outer_cases box
  · obtain ⟨-, hst, hst'⟩ := h.whole hfull
    rw [hst, hst', hblock]
    exact le_trans (volume_le_entries hbox) hstride
  · obtain ⟨-, hst, hst'⟩ := h.partly hpartial hinner heq
    have hp : p.Inside := hbox p (by
      rw [heq]
      exact List.mem_append_right _ List.mem_cons_self)
    rw [hst, hst']
    exact Nat.mul_le_mul_right _ (le_trans (Nat.le_add_left _ _) hp.le_size)

theorem StaysInside.mono {m : Nat} (h : StaysInside n s) (hle : n ≤ m) : StaysInside m s :=
  ⟨h.block_ne_zero, h.block_dvd, fun i hi j hj => Nat.lt_of_lt_of_le (h.lt i hi j hj) hle⟩

theorem arrayDims_of_ne_nil {ds : List UInt32} (hdims : dims ≠ [])
    (h : arrayDims n dims = some ds) : ds = dims := by
  unfold arrayDims at h
  rw [if_pos (List.length_pos_iff.mpr hdims)] at h
  split at h
  · cases h
  · exact (Option.some.inj h).symm

theorem Unwrapped.product_eq {ds : List UInt32} (hunwrapped : Unwrapped n dims) (hdims : dims ≠ [])
    (hds : arrayDims n dims = some ds) (hlen : range.length = ds.length)
    (hinside : ∀ p ∈ boxOf (ds.zip range), p.Inside) :
    (dims.map UInt32.toNat).prod = n ∧ n < 2 ^ 64 := by
  obtain rfl := arrayDims_of_ne_nil hdims hds
  rw [boxOf_zip] at hinside
  have hpos := size_pos_of_addressedBox (by rw [hlen, List.length_map]) hinside
  have htest := (arrayDims_some_iff hdims).mp hds
  refine ⟨hunwrapped hdims (fun d hd => hpos _ (List.mem_map_of_mem hd)) htest, ?_⟩
  rw [← htest]
  exact Nat.mod_lt _ (Nat.two_pow_pos 64)

theorem entries_of_arrayDims {ds : List UInt32} (hunwrapped : Unwrapped n dims)
    (hds : arrayDims n dims = some ds) (hlen : range.length = ds.length)
    (hinside : ∀ p ∈ boxOf (ds.zip range), p.Inside) :
    entries (boxOf (ds.zip range)) ≤ n ∧ entries (boxOf (ds.zip range)) < 2 ^ 64 := by
  have hentries : entries (boxOf (ds.zip range)) = (ds.map UInt32.toNat).prod := by
    rw [boxOf_zip, entries_addressedBox (by rw [hlen, List.length_map])]
  rw [hentries]
  by_cases hdims : dims = []
  · -- the low 32 bits of the length
    rw [hdims] at hds
    obtain rfl := Option.some.inj hds
    rw [List.map_cons, List.map_nil, List.prod_singleton, UInt32.toNat_ofNat']
    exact ⟨Nat.mod_le _ _, Nat.lt_trans (Nat.mod_lt _ (Nat.two_pow_pos 32)) (by decide)⟩
  · obtain ⟨hproduct, hlt⟩ := hunwrapped.product_eq hdims hds hlen hinside
    rw [arrayDims_of_ne_nil hdims hds, hproduct]
    exact ⟨Nat.le_refl _, hlt⟩

theorem total_of_rangeCount {ds : List (UInt32 × RangeDimension)} {count total : Nat}
    (h : rangeCount ds (sizeT count) = .ok total) : total = sizeT (count * volume (boxOf ds)) := by
  have hinside := inside_of_rangeCount h
  induction ds generalizing count with
  | nil =>
    rw [boxOf, List.map_nil, volume, List.map_nil, List.prod_nil, Nat.mul_one]
    exact (Except.ok.inj h).symm
  | cons dim ds ih =>
    obtain ⟨d, r⟩ := dim
    obtain ⟨hp, hds⟩ := List.forall_mem_cons.mp hinside
    obtain ⟨hle, hmax⟩ := inside_addressedPart hp
    have hvolume : volume (boxOf ((d, r) :: ds)) =
        (addressedPart (d.toNat, r)).extent * volume (boxOf ds) := volume_cons
    rw [rangeCount, if_neg (UInt32.not_lt.mpr hle), if_neg (UInt32.not_le.mpr hmax),
      toNat_extent hp, sizeT_mul] at h
    rw [ih h hds, hvolume, Nat.mul_assoc]

theorem total_of_computeStrides {α : Type} {v : UaVariant α}
    (h : computeStrides v.data.arrayLength v.arrayDimensions.items range = .ok s) :
    s.total = sizeT (volume (addressedBox (dimensions v) range)) := by
  obtain ⟨ds, total, st, hds, hlen, htotal, -, rfl⟩ := computeStrides_ok h
  have hcount := @total_of_rangeCount _ 1 _ htotal
  rw [Nat.one_mul] at hcount
  refine hcount.trans (congrArg sizeT ?_)
  by_cases hzero : v.arrayDimensions.length = 0
  · unfold arrayDims at hds
    rw [if_neg (by rw [← CArray.length, hzero]; exact Nat.lt_irrefl 0)] at hds
    obtain rfl := Option.some.inj hds
    obtain ⟨r, rfl⟩ := List.length_eq_one_iff.mp hlen
    rw [dimensions, if_pos hzero]
    rfl
  · obtain rfl := arrayDims_of_ne_nil (List.length_pos_iff.mp (Nat.pos_of_ne_zero hzero)) hds
    rw [dimensions, if_neg hzero, boxOf_zip]

theorem Unwrapped.staysInside (hunwrapped : Unwrapped n dims)
    (h : computeStrides n dims range = .ok s) : StaysInside n s := by
  obtain ⟨ds, total, st, hds, hlen, htotal, rfl, rfl⟩ := computeStrides_ok h
  have hinside := inside_of_rangeCount htotal
  obtain ⟨hle, hlt⟩ := entries_of_arrayDims hunwrapped hds hlen hinside
  have hcount := @rangeCount_eq _ hinside 1 (by
    rw [Nat.one_mul]
    exact Nat.lt_of_le_of_lt (volume_le_entries hinside) hlt)
  rw [Nat.one_mul, htotal] at hcount
  obtain rfl := Except.ok.inj hcount
  have hstays := staysInside_of_stridesOf
    (stridesOf_foldr
      { block := volume (boxOf (ds.zip range)), stride := n, first := 0, runningDimssize := 1,
        foundContiguous := false } ⟨rfl, rfl, rfl⟩ hinside hlt) hinside rfl
  exact hstays.mono hle

/-- The range of the element at a position. -/
def cellRange : List UInt32 → Nat → NumericRange
  | [], _ => []
  | _ :: dims, k =>
    let i := UInt32.ofNat (k / (dims.map UInt32.toNat).prod)
    ⟨i, i⟩ :: cellRange dims (k % (dims.map UInt32.toNat).prod)

theorem length_cellRange (dims : List UInt32) (k : Nat) :
    (cellRange dims k).length = dims.length := by
  induction dims generalizing k with
  | nil => rfl
  | cons d dims ih => rw [cellRange, List.length_cons, ih, List.length_cons]

theorem boxOf_cellRange {k : Nat} (hk : k < (dims.map UInt32.toNat).prod) :
    boxOf (dims.zip (cellRange dims k)) = cell (dims.map UInt32.toNat) k := by
  induction dims generalizing k with
  | nil => rfl
  | cons d dims ih =>
    have hpos : 0 < (dims.map UInt32.toNat).prod :=
      Nat.pos_of_mul_pos_left (Nat.zero_lt_of_lt hk)
    have hindex : k / (dims.map UInt32.toNat).prod < UInt32.size :=
      Nat.lt_trans ((Nat.div_lt_iff_lt_mul hpos).mpr hk) d.toNat_lt
    refine congrArg₂ List.cons ?_ (ih (Nat.mod_lt k hpos))
    simp only [addressedPart, UInt32.toNat_ofNat_of_lt' hindex, Nat.add_sub_cancel_left]

theorem foldr_block_of_single (hrunning : init.runningDimssize = 1) (hblock : init.block = 1)
    {ds : List (UInt32 × RangeDimension)} (h : ∀ d ∈ ds, (1 + d.2.max - d.2.min).toNat = 1) :
    (ds.foldr strideStep init).block = 1 ∧
      ((ds.foldr strideStep init).foundContiguous = false →
        (ds.foldr strideStep init).runningDimssize = 1) := by
  induction ds with
  | nil => exact ⟨hblock, fun _ => hrunning⟩
  | cons dim ds ih =>
    obtain ⟨d, r⟩ := dim
    obtain ⟨hone, hrest⟩ := List.forall_mem_cons.mp h
    obtain ⟨hblk, hrun⟩ := ih hrest
    rw [List.foldr_cons]
    generalize ds.foldr strideStep init = s at hblk hrun
    cases hfound : s.foundContiguous with
    | true => simp [strideStep, hfound, hblk]
    | false =>
      by_cases hd : d.toNat = 1
      · simp [strideStep, hfound, hone, hd, hblk, hrun, sizeT]
      · simp [strideStep, hfound, hone, Ne.symm hd, hrun, sizeT]

theorem extent_of_cellRange {k : Nat} :
    ∀ d ∈ dims.zip (cellRange dims k), (1 + d.2.max - d.2.min).toNat = 1 := by
  induction dims generalizing k with
  | nil => exact fun d hd => nomatch hd
  | cons d dims ih =>
    refine List.forall_mem_cons.mpr ⟨?_, ih⟩
    rw [UInt32.add_sub_cancel]
    rfl

theorem computeStrides_cellRange (hdims : dims ≠ [])
    (htest : sizeT (dims.map UInt32.toNat).prod = n) (hlt : n < (dims.map UInt32.toNat).prod) :
    ∃ s, computeStrides n dims (cellRange dims n) = .ok s ∧ s.total = 1 ∧ s.block = 1 ∧
      s.first = n := by
  have hbox := boxOf_cellRange hlt
  have hinside : ∀ p ∈ boxOf (dims.zip (cellRange dims n)), p.Inside := hbox ▸ inside_cell hlt
  have hvolume : 1 * volume (boxOf (dims.zip (cellRange dims n))) = 1 := by
    rw [hbox, volume_cell]
  have hcount := @rangeCount_eq _ hinside 1 (by rw [hvolume]; decide)
  rw [hvolume] at hcount
  unfold computeStrides
  rw [(arrayDims_some_iff hdims).mpr htest]
  dsimp only
  rw [if_neg (not_not_intro (length_cellRange dims n)), hcount]
  refine ⟨_, rfl, rfl, (foldr_block_of_single rfl rfl extent_of_cellRange).1, ?_⟩
  have hfirst := (@foldr_strideStep
    { block := 1, stride := n, first := 0, runningDimssize := 1, foundContiguous := false }
    rfl rfl (dims.zip (cellRange dims n))).2
  have hsize : sizeT n = n := by
    rw [← htest]
    exact Nat.mod_mod _ _
  rw [hbox, offset_cell hlt, hsize] at hfirst
  exact hfirst

/-- Whatever range is accepted, the loops stay inside the array just if the product of the
dimensions that was compared with its length is the real one. -/
theorem computeStrides_staysInside_iff (arrayLength : Nat) (arrayDimensions : List UInt32) :
    (∀ range s, computeStrides arrayLength arrayDimensions range = .ok s →
      StaysInside arrayLength s) ↔ Unwrapped arrayLength arrayDimensions := by
  constructor
  · intro h hdims hpos htest
    by_contra hne
    have hlt : arrayLength < (arrayDimensions.map UInt32.toNat).prod :=
      lt_of_le_of_ne (htest ▸ Nat.mod_le _ _) (Ne.symm hne)
    obtain ⟨s, hs, htotal, hblock, hfirst⟩ := computeStrides_cellRange hdims htest hlt
    have hstays := (h _ s hs).lt 0 (by rw [htotal, hblock]; decide) 0 (by rw [hblock]; decide)
    rw [hfirst] at hstays
    omega
  · intro hunwrapped range s h
    exact hunwrapped.staysInside h

/-- The product of these three dimensions is four more than a word can hold: an array of four
elements passes the test, and so does a range for an element that it does not have. -/
theorem computeStrides_outside :
    ∃ s, computeStrides 4 [111620, 429509837, 384773] [⟨0, 0⟩, ⟨0, 0⟩, ⟨4, 4⟩] = .ok s ∧
      ¬ StaysInside 4 s := by
  refine ⟨⟨1, 1, 384773, 4⟩, by decide +kernel, fun h => ?_⟩
  exact absurd (h.lt 0 (by decide) 0 (by decide)) (by decide)

end FactoryThing.Variants
