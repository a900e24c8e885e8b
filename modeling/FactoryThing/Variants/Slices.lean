import FactoryThing.Lib.RowMajor
import FactoryThing.Lib.Stateful
import FactoryThing.Variants.Ranges
import Mathlib.Algebra.Order.BigOperators.GroupWithZero.List
import Mathlib.Algebra.Order.Ring.Nat

/-!
# Ranges as boxes

A range inside the dimensions of an array stands for a box, and the loops of `UA_Variant_copyRange`
and `Variant_setRange` visit the positions of blocks at equal distances. The block is chosen so that
the dimensions behind the last partial one are inside of it; in front of that dimension the distance
is right only as long as the box is a run there.
-/

namespace FactoryThing.Variants

open RowMajor Stateful
open Encoding (int32Max)

variable {α : Type}

variable {dims : List UInt32}

/-- The dimensions of an array: one when none are defined. -/
def dimensions (v : UaVariant α) : List Nat :=
  if v.arrayDimensions.length = 0 then [v.data.arrayLength]
  else v.arrayDimensions.items.map UInt32.toNat

/-- The part of a dimension that a range addresses. -/
def addressedPart (dim : Nat × RangeDimension) : Part where
  size := dim.1
  first := dim.2.min.toNat
  extent := dim.2.max.toNat + 1 - dim.2.min.toNat

/-- The box that a range addresses in an array with some dimensions. -/
def addressedBox (dims : List Nat) (range : NumericRange) : List Part :=
  (dims.zip range).map addressedPart

/-- The positions of the elements that the loops visit. -/
def visited (s : Strides) : List Nat := blocks (s.total / s.block) s.block s.stride s.first

/-! ## Strides of a box -/

variable {d : UInt32} {r : RangeDimension}

theorem inside_addressedPart (h : (addressedPart (d.toNat, r)).Inside) :
    r.min ≤ r.max ∧ r.max < d := by
  have hpos := h.extent_pos
  have hle := h.le_size
  simp only [addressedPart] at hpos hle
  rw [UInt32.le_iff_toNat_le, UInt32.lt_iff_toNat_lt]
  omega

theorem toNat_extent (h : (addressedPart (d.toNat, r)).Inside) :
    (r.max - r.min + 1).toNat = (addressedPart (d.toNat, r)).extent := by
  obtain ⟨hle, hlt⟩ := inside_addressedPart h
  have hd := d.toNat_lt
  rw [UInt32.lt_iff_toNat_lt] at hlt
  have hle' := UInt32.le_iff_toNat_le.mp hle
  simp only [addressedPart]
  rw [UInt32.toNat_add, UInt32.toNat_sub_of_le _ _ hle, UInt32.toNat_one]
  omega

theorem toNat_dimrange (h : (addressedPart (d.toNat, r)).Inside) :
    (1 + r.max - r.min).toNat = (addressedPart (d.toNat, r)).extent := by
  rw [← toNat_extent h, UInt32.sub_eq_add_neg, UInt32.sub_eq_add_neg, UInt32.add_comm 1,
    UInt32.add_assoc, UInt32.add_assoc, UInt32.add_comm 1]

variable {n : Nat} {ds : List (UInt32 × RangeDimension)} {range : NumericRange}

theorem sizeT_of_lt (h : n < 2 ^ 64) : sizeT n = n := Nat.mod_eq_of_lt h

/-- The box of pairs of dimensions and ranges. -/
def boxOf (ds : List (UInt32 × RangeDimension)) : List Part :=
  ds.map fun d => addressedPart (d.1.toNat, d.2)

theorem boxOf_zip (dims : List UInt32) (range : NumericRange) :
    boxOf (dims.zip range) = addressedBox (dims.map UInt32.toNat) range := by
  unfold boxOf addressedBox
  rw [← List.map_id range, List.zip_map, List.map_map, List.map_id]
  rfl

theorem rangeCount_eq (h : ∀ p ∈ boxOf ds, p.Inside) {count : Nat}
    (hlt : count * volume (boxOf ds) < 2 ^ 64) :
    rangeCount ds count = .ok (count * volume (boxOf ds)) := by
  induction ds generalizing count with
  | nil => rw [rangeCount, boxOf, List.map_nil, volume, List.map_nil, List.prod_nil, Nat.mul_one]
  | cons dim ds ih =>
    obtain ⟨d, r⟩ := dim
    obtain ⟨hp, hds⟩ := List.forall_mem_cons.mp h
    obtain ⟨hle, hmax⟩ := inside_addressedPart hp
    have hvolume : volume (boxOf ((d, r) :: ds)) =
        (addressedPart (d.toNat, r)).extent * volume (boxOf ds) := volume_cons
    rw [hvolume, ← Nat.mul_assoc] at hlt ⊢
    have hsmall : count * (addressedPart (d.toNat, r)).extent < 2 ^ 64 :=
      Nat.lt_of_le_of_lt (Nat.le_mul_of_pos_right _ (volume_pos hds)) hlt
    rw [rangeCount, if_neg (UInt32.not_lt.mpr hle), if_neg (UInt32.not_le.mpr hmax),
      toNat_extent hp, sizeT_of_lt hsmall, ih hds hlt]

theorem rangeCount_error {count : Nat} {retval : StatusCode}
    (h : rangeCount ds count = .error retval) : retval ≠ StatusCode.good := by
  induction ds generalizing count with
  | nil => cases h
  | cons dim ds ih =>
    obtain ⟨d, r⟩ := dim
    rw [rangeCount] at h
    split at h
    · cases h
      decide
    · split at h
      · cases h
        decide
      · exact ih h

theorem computeStrides_error {retval : StatusCode}
    (h : computeStrides n dims range = .error retval) : retval ≠ StatusCode.good := by
  unfold computeStrides at h
  split at h
  · cases h
    decide
  · split at h
    · cases h
      decide
    · split at h
      next retval' hcount =>
        cases h
        exact rangeCount_error hcount
      · cases h

theorem inside_of_rangeCount {ds : List (UInt32 × RangeDimension)} {count total : Nat}
    (h : rangeCount ds count = .ok total) : ∀ p ∈ boxOf ds, p.Inside := by
  induction ds generalizing count with
  | nil => exact fun p hp => nomatch hp
  | cons dim ds ih =>
    obtain ⟨d, r⟩ := dim
    rw [rangeCount] at h
    split at h
    · cases h
    next hle =>
    split at h
    · cases h
    next hlt =>
    rw [gt_iff_lt, UInt32.not_lt, UInt32.le_iff_toNat_le] at hle
    rw [ge_iff_le, UInt32.not_le, UInt32.lt_iff_toNat_lt] at hlt
    refine List.forall_mem_cons.mpr ⟨⟨?_, ?_⟩, ih h⟩
    all_goals
      simp only [addressedPart]
      omega

theorem computeStrides_ok {s : Strides}
    (h : computeStrides n dims range = .ok s) :
    ∃ ds total st, arrayDims n dims = some ds ∧ range.length = ds.length ∧
      rangeCount (ds.zip range) 1 = .ok total ∧
      st = (ds.zip range).foldr strideStep
        { block := total, stride := n, first := 0, runningDimssize := 1,
          foundContiguous := false } ∧
      s = ⟨total, st.block, st.stride, st.first⟩ := by
  unfold computeStrides at h
  split at h
  · cases h
  next ds hds =>
  split at h
  · cases h
  next hlen =>
  split at h
  · cases h
  next total htotal =>
  exact ⟨ds, total, _, hds, not_not.mp hlen, htotal, rfl,
    (Except.ok.inj h).symm⟩

/-- What the loop over the dimensions has found out about a box. -/
structure StridesOf (box : List Part) (init s : StrideState) : Prop where
  running : s.runningDimssize = entries box
  first : s.first = offset box
  whole : AllFull box → s.foundContiguous = false ∧ s.block = init.block ∧ s.stride = init.stride
  partly : ∀ {o : List Part} {p : Part} {inner : List Part}, ¬ p.Full → AllFull inner →
    box = o ++ p :: inner → s.foundContiguous = true ∧ s.block = p.extent * entries inner ∧
      s.stride = p.size * entries inner

theorem stridesOf_step {box : List Part} {init s : StrideState} (h : StridesOf box init s)
    (hbox : ∀ p ∈ box, p.Inside) (hp : (addressedPart (d.toNat, r)).Inside)
    (hlt : d.toNat * entries box < 2 ^ 64) :
    StridesOf (addressedPart (d.toNat, r) :: box) init (strideStep (d, r) s) := by
  have hall : ∀ p ∈ addressedPart (d.toNat, r) :: box, p.Inside :=
    List.forall_mem_cons.mpr ⟨hp, hbox⟩
  have hentries : entries (addressedPart (d.toNat, r) :: box) = d.toNat * entries box :=
    entries_cons
  have hoffset : offset (addressedPart (d.toNat, r) :: box) =
      r.min.toNat * entries box + offset box := rfl
  have hfull : (1 + r.max - r.min).toNat = d.toNat ↔ (addressedPart (d.toNat, r)).Full := by
    rw [toNat_dimrange hp]
    exact Iff.rfl
  have hrunning : sizeT (s.runningDimssize * d.toNat) = d.toNat * entries box := by
    rw [h.running, Nat.mul_comm, sizeT_of_lt hlt]
  have hbound := offset_lt_entries hall
  refine ⟨by rw [hentries, ← hrunning]; rfl, ?_, ?_, ?_⟩
  · rw [hoffset]
    show sizeT (s.first + sizeT (s.runningDimssize * r.min.toNat)) = _
    rw [h.running, h.first, Nat.mul_comm (entries box), @sizeT_of_lt (r.min.toNat * entries box)
      (by omega), sizeT_of_lt (by omega), Nat.add_comm]
  · intro hwhole
    obtain ⟨hp, hbox⟩ := hwhole.of_cons
    obtain ⟨hfound, hblock, hstride⟩ := h.whole hbox
    simp [strideStep, hfull.mpr hp, hfound, hblock, hstride]
  · intro o p inner hpartial hinner heq
    cases o with
    | nil =>
      obtain ⟨hp', rfl⟩ := List.cons.inj heq
      subst hp'
      have hfound := (h.whole hinner).1
      have hne : ¬ (1 + r.max - r.min).toNat = d.toNat := fun heq => hpartial (hfull.mp heq)
      have hblock : sizeT (s.runningDimssize * (1 + r.max - r.min).toNat) =
          (addressedPart (d.toNat, r)).extent * entries box := by
        rw [h.running, toNat_dimrange hp, Nat.mul_comm]
        apply sizeT_of_lt
        refine Nat.lt_of_le_of_lt (Nat.mul_le_mul_right _ ?_) hlt
        exact Nat.le_trans (Nat.le_add_left _ _) hp.le_size
      simp only [strideStep, hfound, hne, hblock, hrunning, Bool.not_false, Bool.true_and,
        decide_true, Bool.or_true, ne_eq, not_false_eq_true, if_true, true_and]
      rfl
    | cons q o =>
      obtain ⟨-, hbox'⟩ := List.cons.inj heq
      obtain ⟨hfound, hblock, hstride⟩ := h.partly hpartial hinner hbox'
      simp [strideStep, hfound, hblock, hstride]

theorem stridesOf_foldr (init : StrideState)
    (hinit : init.runningDimssize = 1 ∧ init.first = 0 ∧ init.foundContiguous = false)
    (h : ∀ p ∈ boxOf ds, p.Inside) (hlt : entries (boxOf ds) < 2 ^ 64) :
    StridesOf (boxOf ds) init (ds.foldr strideStep init) := by
  induction ds with
  | nil =>
    refine ⟨hinit.1, hinit.2.1, fun _ => ⟨hinit.2.2, rfl, rfl⟩, ?_⟩
    intro o p inner _ _ heq
    exact absurd heq.symm (List.append_ne_nil_of_right_ne_nil o (List.cons_ne_nil p inner))
  | cons dim ds ih =>
    obtain ⟨d, r⟩ := dim
    obtain ⟨hp, hds⟩ := List.forall_mem_cons.mp h
    have hentries : entries (boxOf ((d, r) :: ds)) = d.toNat * entries (boxOf ds) := entries_cons
    have hsize : 0 < d.toNat := by
      have hpos := hp.extent_pos
      have hle := hp.le_size
      simp only [addressedPart] at hpos hle
      omega
    exact stridesOf_step (ih hds (Nat.lt_of_le_of_lt (Nat.le_mul_of_pos_left _ hsize) hlt)) hds hp
      hlt

/-- The elements of an array are as many as its dimensions say, and the range is inside. -/
structure Addressed (v : UaVariant α) (items : List α) (range : NumericRange) : Prop where
  data : ∃ h, v.data = .array items h
  size_t : items.length < 2 ^ 64
  product : (dimensions v).prod = items.length
  length_eq : range.length = (dimensions v).length
  inside : ∀ p ∈ addressedBox (dimensions v) range, p.Inside

theorem foldl_sizeT (hpos : ∀ d ∈ dims, 0 < d.toNat)
    (hlt : n * (dims.map UInt32.toNat).prod < 2 ^ 64) :
    dims.foldl (fun elements d => sizeT (elements * d.toNat)) n =
      n * (dims.map UInt32.toNat).prod := by
  induction dims generalizing n with
  | nil => rw [List.foldl_nil, List.map_nil, List.prod_nil, Nat.mul_one]
  | cons d dims ih =>
    obtain ⟨hd, hdims⟩ := List.forall_mem_cons.mp hpos
    rw [List.map_cons, List.prod_cons, ← Nat.mul_assoc] at hlt ⊢
    have hprod : 0 < (dims.map UInt32.toNat).prod := by
      apply List.prod_pos
      intro m hm
      obtain ⟨e, he, rfl⟩ := List.mem_map.mp hm
      exact hdims e he
    rw [List.foldl_cons, sizeT_of_lt (Nat.lt_of_le_of_lt (Nat.le_mul_of_pos_right _ hprod) hlt),
      ih hdims hlt]

theorem entries_addressedBox {dims : List Nat} (h : range.length = dims.length) :
    entries (addressedBox dims range) = dims.prod := by
  induction dims generalizing range with
  | nil => rfl
  | cons d dims ih =>
    cases range with
    | nil => exact absurd h.symm (Nat.succ_ne_zero _)
    | cons r range =>
      have hrest := ih (Nat.succ.inj h)
      rw [List.prod_cons, ← hrest]
      exact entries_cons

theorem size_pos_of_addressedBox {dims : List Nat} (hlen : range.length = dims.length)
    (h : ∀ p ∈ addressedBox dims range, p.Inside) : ∀ d ∈ dims, 0 < d := by
  induction dims generalizing range with
  | nil => exact fun d hd => nomatch hd
  | cons d dims ih =>
    cases range with
    | nil => exact absurd hlen.symm (Nat.succ_ne_zero _)
    | cons r range =>
      obtain ⟨hp, hrest⟩ := List.forall_mem_cons.mp h
      refine List.forall_mem_cons.mpr ⟨?_, ih (Nat.succ.inj hlen) hrest⟩
      have hpos := hp.extent_pos
      have hle := hp.le_size
      simp only [addressedPart] at hpos hle
      omega

section Addressed

variable {v : UaVariant α} {items : List α} {range : NumericRange}

theorem Addressed.arrayLength_eq (h : Addressed v items range) :
    v.data.arrayLength = items.length := by
  obtain ⟨hne, hdata⟩ := h.data
  rw [hdata]
  rfl

/-- The dimensions that `computeStrides` compares a range with: without any, the array has as many
elements for it as the low 32 bits of its length say. -/
def comparedDims (v : UaVariant α) : List Nat :=
  if v.arrayDimensions.length = 0 then [v.data.arrayLength % 2 ^ 32]
  else v.arrayDimensions.items.map UInt32.toNat

/-- A range of an array without dimensions is inside the low 32 bits of its length. -/
def Seen (v : UaVariant α) (range : NumericRange) : Prop :=
  v.arrayDimensions.length = 0 → ∀ r ∈ range, r.max.toNat < v.data.arrayLength % 2 ^ 32

theorem Addressed.compared_cases (h : Addressed v items range) :
    comparedDims v = dimensions v ∨ ∃ r, range = [r] ∧ v.arrayDimensions.length = 0 ∧
      dimensions v = [v.data.arrayLength] ∧ comparedDims v = [v.data.arrayLength % 2 ^ 32] := by
  by_cases hzero : v.arrayDimensions.length = 0
  · have hdims : dimensions v = [v.data.arrayLength] := if_pos hzero
    have hlen := h.length_eq
    rw [hdims] at hlen
    obtain ⟨r, hr⟩ := List.length_eq_one_iff.mp hlen
    exact .inr ⟨r, hr, hzero, hdims, if_pos hzero⟩
  · left
    rw [comparedDims, dimensions, if_neg hzero, if_neg hzero]

theorem Addressed.compared_inside (h : Addressed v items range) (hseen : Seen v range) :
    ∀ p ∈ addressedBox (comparedDims v) range, p.Inside := by
  have hinside := h.inside
  obtain heq | ⟨r, rfl, hzero, hdims, hcompared⟩ := h.compared_cases
  · rwa [heq]
  · rw [hdims] at hinside
    rw [hcompared]
    have hpos := (hinside _ List.mem_cons_self).extent_pos
    have hmax := hseen hzero r List.mem_cons_self
    refine List.forall_mem_cons.mpr ⟨⟨hpos, ?_⟩, fun p hp => nomatch hp⟩
    simp only [addressedPart] at hpos ⊢
    omega

/-- The dimensions of the comparison leave the box where it is. -/
theorem Addressed.compared_box (h : Addressed v items range) :
    volume (addressedBox (comparedDims v) range) = volume (addressedBox (dimensions v) range) ∧
      positions (addressedBox (comparedDims v) range) =
        positions (addressedBox (dimensions v) range) ∧
      (Evenly (addressedBox (comparedDims v) range) ↔ Evenly (addressedBox (dimensions v) range)) ∧
      entries (addressedBox (comparedDims v) range) ≤ items.length := by
  obtain heq | ⟨r, rfl, -, hdims, hcompared⟩ := h.compared_cases
  · rw [heq, entries_addressedBox h.length_eq, h.product]
    exact ⟨rfl, rfl, Iff.rfl, Nat.le_refl _⟩
  · rw [hdims, hcompared]
    have hevenly : ∀ p : Part, Evenly [p] := by
      intro p
      have hnil : AllFull [] := fun q hq => nomatch hq
      rw [Evenly, outer, if_pos hnil]
      exact trivial
    refine ⟨rfl, rfl, iff_of_true (hevenly _) (hevenly _), ?_⟩
    rw [entries_addressedBox rfl, List.prod_singleton, ← h.arrayLength_eq]
    exact Nat.mod_le _ _

theorem Addressed.arrayDims_eq (h : Addressed v items range) :
    ∃ dims, arrayDims v.data.arrayLength v.arrayDimensions.items = some dims ∧
      dims.map UInt32.toNat = comparedDims v := by
  unfold arrayDims
  have hproduct := h.product
  have hpos := size_pos_of_addressedBox h.length_eq h.inside
  unfold dimensions at hproduct hpos
  unfold comparedDims
  by_cases hzero : v.arrayDimensions.length = 0
  · rw [if_pos hzero, if_neg (by rw [← CArray.length, hzero]; exact Nat.lt_irrefl 0)]
    exact ⟨_, rfl, rfl⟩
  · rw [if_neg hzero] at hproduct hpos
    rw [if_neg hzero,
      if_pos (show v.arrayDimensions.items.length > 0 from Nat.pos_of_ne_zero hzero)]
    have hfold : v.arrayDimensions.items.foldl
        (fun elements d => sizeT (elements * d.toNat)) 1 = items.length := by
      rw [foldl_sizeT (fun d hd => hpos _ (List.mem_map_of_mem hd)), Nat.one_mul, hproduct]
      rw [Nat.one_mul, hproduct]
      exact h.size_t
    rw [hfold, h.arrayLength_eq, if_neg (not_not_intro rfl)]
    exact ⟨_, rfl, rfl⟩

theorem Addressed.computeStrides_eq (h : Addressed v items range) (hseen : Seen v range) :
    ∃ s init st, computeStrides v.data.arrayLength v.arrayDimensions.items range = .ok s ∧
      StridesOf (addressedBox (comparedDims v) range) init st ∧
      init.block = volume (addressedBox (comparedDims v) range) ∧ init.stride = items.length ∧
      s = ⟨volume (addressedBox (comparedDims v) range), st.block, st.stride, st.first⟩ := by
  obtain ⟨dims, hdims, hmap⟩ := h.arrayDims_eq
  have hlen : range.length = dims.length := by
    have hsame := congrArg List.length hmap
    rw [List.length_map] at hsame
    rw [h.length_eq, hsame]
    unfold dimensions comparedDims
    split
    · rfl
    · rfl
  have hbox : boxOf (dims.zip range) = addressedBox (comparedDims v) range := by
    rw [boxOf_zip, hmap]
  have hinside : ∀ p ∈ boxOf (dims.zip range), p.Inside := hbox ▸ h.compared_inside hseen
  have hentries : entries (boxOf (dims.zip range)) < 2 ^ 64 := by
    rw [hbox]
    exact Nat.lt_of_le_of_lt h.compared_box.2.2.2 h.size_t
  have hcount := @rangeCount_eq _ hinside 1 (by
    rw [Nat.one_mul]
    exact Nat.lt_of_le_of_lt (volume_le_entries hinside) hentries)
  rw [Nat.one_mul] at hcount
  have hstrides := stridesOf_foldr
    { block := volume (boxOf (dims.zip range)), stride := v.data.arrayLength, first := 0,
      runningDimssize := 1, foundContiguous := false } ⟨rfl, rfl, rfl⟩ hinside hentries
  rw [hbox] at hcount hstrides
  refine ⟨_, _, _, ?_, hstrides, rfl, h.arrayLength_eq, rfl⟩
  unfold computeStrides
  rw [hdims]
  dsimp only
  rw [if_neg (not_not_intro hlen), hcount]

/-- What `computeStrides` accepts is inside the dimensions it compares the range with. -/
theorem seen_of_computeStrides {s : Strides}
    (h : computeStrides v.data.arrayLength v.arrayDimensions.items range = .ok s) :
    Seen v range := by
  intro hzero r hr
  obtain ⟨ds, total, st, hds, hlen, htotal, -, -⟩ := computeStrides_ok h
  unfold arrayDims at hds
  rw [if_neg (by rw [← CArray.length, hzero]; exact Nat.lt_irrefl 0)] at hds
  obtain rfl := Option.some.inj hds
  obtain ⟨r', rfl⟩ := List.length_eq_one_iff.mp hlen
  obtain rfl := List.mem_singleton.mp hr
  have hinside := inside_of_rangeCount htotal _ List.mem_cons_self
  have hpos := hinside.extent_pos
  have hle := hinside.le_size
  simp only [addressedPart, UInt32.toNat_ofNat'] at hpos hle
  omega

theorem visited_eq_iff {box : List Part} {init st : StrideState} (h : StridesOf box init st)
    (hbox : ∀ p ∈ box, p.Inside) (hblock : init.block = volume box) :
    visited ⟨volume box, st.block, st.stride, st.first⟩ = positions box ↔ Evenly box := by
  unfold visited
  obtain hfull | ⟨p, inner, hpartial, hinner, heq⟩ := outer_cases box
  · obtain ⟨-, hst, -⟩ := h.whole hfull
    refine iff_of_true ?_ hfull.evenly
    rw [hst, hblock, Nat.div_self (volume_pos hbox), blocks_one, h.first, hfull.offset_eq hbox,
      hfull.positions_eq hbox, hfull.volume_eq]
    simp only [Nat.zero_add, List.map_id']
  · obtain ⟨-, hst, hstride⟩ := h.partly hpartial hinner heq
    have hmem : ∀ q ∈ p :: inner, q.Inside := fun q hq => hbox q (by
      rw [heq]
      exact List.mem_append_right _ hq)
    obtain ⟨hp, hinside⟩ := List.forall_mem_cons.mp hmem
    have houter : ∀ q ∈ outer box, q.Inside := fun q hq => hbox q (by
      rw [heq]
      exact List.mem_append_left _ hq)
    have hpos : 0 < p.extent * entries inner := Nat.mul_pos hp.extent_pos (entries_pos hinside)
    have hcount : volume box / (p.extent * entries inner) = volume (outer box) := by
      have hvolume : volume box = volume (outer box) * (p.extent * entries inner) := by
        conv_lhs => rw [heq, volume_split hinner]
      rw [hvolume, Nat.mul_div_cancel _ hpos]
    rw [hst, hstride, h.first, hcount, Evenly, ← blocks_iff houter hp hinside hinner, ← heq]
    exact eq_comm

end Addressed

section Loops

variable {β : Type} {P : Nat → β → Prop} {visit : Nat → RangeM β}

theorem map_range_succ (n next : Nat) : ((List.range (n + 1)).map fun j => next + j) =
    next :: (List.range n).map fun j => next + 1 + j := by
  rw [List.range_succ_eq_map, List.map_cons, List.map_map]
  refine congrArg₂ List.cons (Nat.add_zero next) (List.map_congr_left fun j _ => ?_)
  simp only [Function.comp_apply]
  omega

theorem gives_visitBlock {n next : Nat}
    (h : ∀ i ∈ (List.range n).map fun j => next + j, Gives (visit i) (P i)) :
    Gives (visitBlock visit n next)
      (List.Forall₂ P ((List.range n).map fun j => next + j)) := by
  induction n generalizing next with
  | zero => exact gives_pure .nil
  | succ n ih =>
    rw [map_range_succ] at h ⊢
    obtain ⟨hfirst, hrest⟩ := List.forall_mem_cons.mp h
    apply hfirst.bind
    intro y hy
    apply (ih hrest).bind
    intro ys hys
    exact gives_pure (.cons hy hys)

theorem gives_visitBlocks {count block stride next : Nat}
    (h : ∀ i ∈ blocks count block stride next, Gives (visit i) (P i)) :
    Gives (visitBlocks visit block stride count next)
      (List.Forall₂ P (blocks count block stride next)) := by
  induction count generalizing next with
  | zero => exact gives_pure .nil
  | succ count ih =>
    rw [blocks_succ] at h ⊢
    obtain ⟨hfirst, hrest⟩ := List.forall_mem_append.mp h
    apply (gives_visitBlock hfirst).bind
    intro ys hys
    apply (ih hrest).bind
    intro zs hzs
    exact gives_pure (List.rel_append hys hzs)

theorem gives_readElement {items : List α} {i : Nat} (h : i < items.length) :
    Gives (readElement items i) (items[i]? = some ·) := by
  unfold readElement
  rw [List.getElem?_eq_getElem h]
  exact gives_pure rfl

variable {place : α → RangeM (StatusCode × α)}

theorem gives_setBlock (hplace : ∀ x, Gives (place x) (· = (StatusCode.good, x)))
    {array items : List α} {n nextdst nextsrc : Nat}
    (hdst : ∀ i ∈ (List.range n).map fun j => nextdst + j, i < items.length)
    (hsrc : nextsrc + n ≤ array.length) :
    Gives (setBlock place array n nextdst nextsrc (StatusCode.good, items))
      (· = (StatusCode.good, replaceAt items ((List.range n).map fun j => nextdst + j)
        ((array.drop nextsrc).take n))) := by
  induction n generalizing nextdst nextsrc items with
  | zero => exact gives_pure rfl
  | succ n ih =>
    have hread : nextsrc < array.length := by omega
    rw [map_range_succ] at hdst
    obtain ⟨hwrite, hrest⟩ := List.forall_mem_cons.mp hdst
    rw [setBlock]
    apply (gives_readElement hread).bind
    intro x hx
    apply (hplace x).bind
    rintro _ rfl
    dsimp only
    rw [if_pos hwrite]
    rw [← @List.length_set _ items nextdst x] at hrest
    refine (ih hrest (by omega)).mono ?_
    rintro _ rfl
    have htake : (array.drop nextsrc).take (n + 1) = x :: (array.drop (nextsrc + 1)).take n := by
      rw [List.getElem?_eq_getElem hread] at hx
      rw [List.drop_eq_getElem_cons hread, List.take_succ_cons, Option.some.inj hx]
    rw [htake, map_range_succ, replaceAt]

theorem gives_setBlocks (hplace : ∀ x, Gives (place x) (· = (StatusCode.good, x)))
    {array items : List α} {count block stride nextdst nextsrc : Nat}
    (hdst : ∀ i ∈ blocks count block stride nextdst, i < items.length)
    (hsrc : nextsrc + count * block ≤ array.length) :
    Gives (setBlocks place array block stride count nextdst nextsrc (StatusCode.good, items))
      (· = (StatusCode.good, replaceAt items (blocks count block stride nextdst)
        ((array.drop nextsrc).take (count * block)))) := by
  induction count generalizing nextdst nextsrc items with
  | zero =>
    refine gives_pure ?_
    rw [blocks_zero, replaceAt_nil]
  | succ count ih =>
    rw [Nat.succ_mul] at hsrc
    rw [blocks_succ] at hdst
    obtain ⟨hfirst, hrest⟩ := List.forall_mem_append.mp hdst
    rw [setBlocks]
    apply (gives_setBlock hplace hfirst (by omega)).bind
    rintro _ rfl
    rw [← length_replaceAt items ((List.range block).map fun j => nextdst + j)
      ((array.drop nextsrc).take block)] at hrest
    refine (ih hrest (by omega)).mono ?_
    rintro _ rfl
    have htake : (array.drop nextsrc).take ((count + 1) * block) =
        (array.drop nextsrc).take block ++ (array.drop (nextsrc + block)).take (count * block) := by
      rw [Nat.succ_mul, Nat.add_comm, List.take_add, List.drop_drop]
    rw [htake, blocks_succ, replaceAt_append]
    rw [List.length_map, List.length_range, List.length_take, List.length_drop]
    omega

end Loops

/-! ## Copying and setting a range -/

/-- There is memory for everything, and every element can be copied. -/
structure Plentiful (env : Elements α) : Prop where
  alloc : ∀ n, env.alloc n = true
  copyStatus : ∀ n x, env.copyStatus n x = StatusCode.good

def Selects (items : List α) (ps : List Nat) (selected : List α) : Prop :=
  selected.map some = ps.map (items[·]?)

section Box

variable {env : Elements α} {v : UaVariant α} {items : List α} {range : NumericRange}

variable {s : Strides} {ps : List Nat} {type : TypeDescription}

theorem Addressed.block_ne_zero (h : Addressed v items range)
    (hvisited : visited s = positions (addressedBox (dimensions v) range)) : s.block ≠ 0 := by
  intro hzero
  have hhead := head_positions h.inside
  rw [← hvisited, visited, hzero, Nat.div_zero, blocks_zero] at hhead
  cases hhead

theorem Addressed.lt_of_mem_visited (h : Addressed v items range)
    (hvisited : visited s = positions (addressedBox (dimensions v) range)) :
    ∀ i ∈ visited s, i < items.length := by
  intro i hi
  rw [hvisited] at hi
  rw [← h.product, ← entries_addressedBox h.length_eq]
  exact lt_entries_of_mem_positions h.inside hi

theorem Plentiful.gives_malloc (h : Plentiful env) : Gives (malloc env) (· = true) :=
  fun n => ⟨_, _, rfl, h.alloc n⟩

theorem Plentiful.gives_copy (h : Plentiful env) (type : TypeDescription) (x : α) :
    Gives (copy env type x) (· = (StatusCode.good, x)) := by
  intro n
  refine ⟨_, _, rfl, ?_⟩
  rw [h.copyStatus n x, if_pos rfl]

theorem values_map_holds (xs : List α) : Slot.values (xs.map Slot.holds) = some xs := by
  induction xs with
  | nil => rfl
  | cons x xs ih => rw [List.map_cons, Slot.values, ih, Option.map_some]

theorem selects_of_forall₂ {xs : List α} (h : List.Forall₂ (fun i x => items[i]? = some x) ps xs) :
    Selects items ps xs := by
  unfold Selects
  induction h with
  | nil => rfl
  | cons hx _ ih => rw [List.map_cons, List.map_cons, ih, hx]

theorem good_of_forall₂ {ys : List (StatusCode × α)}
    (h : List.Forall₂ (fun i y => y.1 = StatusCode.good ∧ items[i]? = some y.2) ps ys) :
    (∀ y ∈ ys, y.1 = StatusCode.good) ∧ Selects items ps (ys.map Prod.snd) := by
  induction h with
  | nil => exact ⟨fun y hy => (nomatch hy), rfl⟩
  | cons hy _ ih =>
    refine ⟨List.forall_mem_cons.mpr ⟨hy.1, ih.1⟩, ?_⟩
    show some _ :: List.map some _ = items[_]? :: _
    rw [hy.2, ih.2]

theorem gives_copyElements (henv : Plentiful env) (type : TypeDescription)
    (h : ∀ i ∈ visited s, i < items.length) :
    Gives (copyElements env type items s) fun r =>
      ∃ selected, Selects items (visited s) selected ∧
        r = (StatusCode.good, selected.map Slot.holds) := by
  unfold copyElements
  split
  · apply (gives_visitBlocks fun i hi => gives_readElement (h i hi)).bind
    intro selected hselected
    exact gives_pure ⟨selected, selects_of_forall₂ hselected, rfl⟩
  · have hvisit : ∀ i ∈ visited s, Gives (do
        let src ← readElement items i
        copy env type src) fun y => y.1 = StatusCode.good ∧ items[i]? = some y.2 := by
      intro i hi
      apply (gives_readElement (h i hi)).bind
      intro x hx
      apply (henv.gives_copy type x).mono
      rintro _ rfl
      exact ⟨rfl, hx⟩
    apply (gives_visitBlocks hvisit).bind
    intro copied hcopied
    obtain ⟨hgood, hselects⟩ := good_of_forall₂ hcopied
    have hlast : (copied.map Prod.fst).getLastD StatusCode.good = StatusCode.good := by
      obtain heq | hmem := List.mem_cons.mp
        (@List.getLastD_mem_cons _ (copied.map Prod.fst) StatusCode.good)
      · exact heq
      · obtain ⟨y, hy, heq⟩ := List.mem_map.mp hmem
        exact heq.symm.trans (hgood y hy)
    refine gives_pure ⟨_, hselects, ?_⟩
    rw [hlast, List.map_map]
    rfl

theorem gives_variantCopyRange (henv : Plentiful env) {type : TypeDescription}
    (htype : v.type = some type) (h : Addressed v items range) {s : Strides}
    (hstrides : computeStrides v.data.arrayLength v.arrayDimensions.items range = .ok s)
    (hblock : s.block ≠ 0) (hlt : ∀ i ∈ visited s, i < items.length) (fuel : Nat)
    {Q : StatusCode × Slot (UaVariant α) → Prop}
    (hfinish : ∀ selected, Selects items (visited s) selected →
      Gives (copyRangeFinish env type v range selected) Q) :
    Gives (variantCopyRange env (fuel + 1) v range) Q := by
  obtain ⟨hne, hdata⟩ := h.data
  have hscalar : v.data.isScalar = false := by rw [hdata]; rfl
  have hitems : v.data.items = items := by rw [hdata]; rfl
  have hdims : (if v.arrayDimensions.length = 0 then 1 else v.arrayDimensions.length) =
      range.length := by
    rw [h.length_eq]
    unfold dimensions
    split
    · rfl
    · rw [List.length_map]
      rfl
  rw [variantCopyRange, htype]
  dsimp only
  rw [hscalar, hdims, if_neg (by simp), List.take_length, List.drop_length]
  simp only [Bool.false_eq_true, if_false, hstrides]
  apply henv.gives_malloc.bind
  rintro _ rfl
  rw [if_neg (by decide), if_neg hblock, hitems]
  apply (gives_copyElements henv type hlt).bind
  rintro _ ⟨selected, hselected, rfl⟩
  dsimp only
  rw [if_neg (not_not_intro rfl), values_map_holds]
  exact hfinish selected hselected

theorem gives_copyRangeFinish (henv : Plentiful env) (type : TypeDescription)
    (hscalar : v.data.isScalar = false) {selected : List α} (hne : selected ≠ []) :
    Gives (copyRangeFinish env type v range selected) fun r =>
      if v.arrayDimensions.length = 0 then
        r = (StatusCode.good, .holds ⟨some type, .array selected hne, .null⟩)
      else if range.length ≤ int32Max then
        r = (StatusCode.good, .holds ⟨some type, .array selected hne,
          .mem (range.map fun r => r.max - r.min + 1)⟩)
      else r.1 = StatusCode.badOutOfMemory := by
  unfold copyRangeFinish
  rw [hscalar, if_neg (by decide), dif_neg hne]
  by_cases hzero : v.arrayDimensions.length = 0
  · rw [if_neg (by omega)]
    exact gives_pure (by rw [if_pos hzero])
  · rw [if_pos (Nat.pos_of_ne_zero hzero)]
    apply henv.gives_malloc.bind
    rintro _ rfl
    by_cases hle : range.length ≤ int32Max
    · rw [if_pos ⟨hle, rfl⟩]
      exact gives_pure (by rw [if_neg hzero, if_pos hle])
    · rw [if_neg fun hand => hle hand.1]
      exact gives_pure (by rw [if_neg hzero, if_neg hle])

theorem gives_variantSetRange (htype : v.type = some type) {hne : items ≠ []}
    (hdata : v.data = .array items hne)
    (hstrides : computeStrides v.data.arrayLength v.arrayDimensions.items range = .ok s)
    (hblock : s.block ≠ 0) (hdvd : s.block ∣ s.total) (hlt : ∀ i ∈ visited s, i < items.length)
    {array : List α} (htotal : s.total = array.length) {copying : Bool}
    (hcopy : copying = true → ∀ x, Gives (copy env type x) (· = (StatusCode.good, x))) :
    Gives (variantSetRange env v array array.length range copying) fun r =>
      ∃ hne', r = (StatusCode.good,
        { v with data := .array (replaceAt items (visited s) array) hne' },
        if copying = false ∧ type.pointerFree = false then clearMoved env type array.length array
        else array) := by
  have hplace : ∀ place : α → RangeM (StatusCode × α),
      place = (if type.pointerFree = true ∨ copying = false then
        fun x => return (StatusCode.good, x) else copy env type) →
      ∀ x, Gives (place x) (· = (StatusCode.good, x)) := by
    rintro place rfl x
    split
    · exact gives_pure rfl
    next h => exact hcopy (by simpa using (not_or.mp h).2) x
  have hcount : s.total / s.block * s.block = array.length := by
    rw [Nat.div_mul_cancel hdvd, htotal]
  unfold variantSetRange
  rw [hstrides]
  dsimp only
  rw [if_neg (not_not_intro htotal), if_neg hblock, htype]
  dsimp only
  rw [hdata]
  apply (@gives_setBlocks _ _ (hplace _ rfl) array items _ _ _ _ 0 hlt (by omega)).bind
  rintro _ rfl
  rw [hcount, List.drop_zero, List.take_length]
  have hne' : replaceAt items (visited s) array ≠ [] := by
    rw [← List.length_pos_iff, length_replaceAt]
    exact List.length_pos_iff.mpr hne
  refine gives_pure ⟨hne', ?_⟩
  rw [← htype]
  exact congrArg (fun data => (_, (⟨v.type, data, v.arrayDimensions⟩ : UaVariant α), _))
    (withItems_array hne hne')

theorem length_of_selects {selected : List α} (h : Selects items ps selected) :
    selected.length = ps.length := by
  have hlen := congrArg List.length h
  rw [List.length_map, List.length_map] at hlen
  exact hlen

theorem selects_replaceAt {array : List α} (hnodup : ps.Nodup) (hlt : ∀ p ∈ ps, p < items.length)
    (hlen : ps.length = array.length) : Selects (replaceAt items ps array) ps array := by
  apply List.ext_getElem
  · rw [List.length_map, List.length_map, hlen]
  · intro i hi hi'
    rw [List.length_map] at hi hi'
    rw [List.getElem_map, List.getElem_map, getElem?_replaceAt hnodup hlt hlen hi',
      List.getElem?_eq_getElem hi]

variable (env v items range)

/-- The positions that the loops visit are those of the box, row by row. -/
def VisitsBox : Prop :=
  ∃ s, computeStrides v.data.arrayLength v.arrayDimensions.items range = .ok s ∧
    visited s = positions (addressedBox (dimensions v) range)

/-- `UA_Variant_copyRange` returns the elements of the box, with its extents for dimensions. -/
def CopiesBox : Prop :=
  ∀ fuel, Gives (variantCopyRange env (fuel + 1) v range) fun r =>
    ∃ dst selected h, r = (StatusCode.good, .holds dst) ∧ dst.type = v.type ∧
      dst.data = .array selected h ∧
      Selects items (positions (addressedBox (dimensions v) range)) selected ∧
      dimensions dst = (addressedBox (dimensions v) range).map Part.extent

/-- `Variant_setRange` replaces the elements of the box in order and no others. -/
def ReplacesBox : Prop :=
  ∀ (array : List α) (copying : Bool),
    array.length = volume (addressedBox (dimensions v) range) →
    Gives (variantSetRange env v array array.length range copying) fun r =>
      ∃ replaced h, r.1 = StatusCode.good ∧ r.2.1 = { v with data := .array replaced h } ∧
        replaced.length = items.length ∧
        Selects replaced (positions (addressedBox (dimensions v) range)) array ∧
        ∀ k, k ∉ positions (addressedBox (dimensions v) range) → replaced[k]? = items[k]?

variable {env v items range}

theorem Addressed.visitsBox_iff (h : Addressed v items range) :
    VisitsBox v range ↔ Seen v range ∧ Evenly (addressedBox (dimensions v) range) := by
  obtain ⟨-, hpositions, heven, -⟩ := h.compared_box
  unfold VisitsBox
  rw [← hpositions, ← heven]
  constructor
  · rintro ⟨s, hstrides, hvisited⟩
    have hseen := seen_of_computeStrides hstrides
    obtain ⟨s', init, st, hstrides', hst, hblock, -, rfl⟩ := h.computeStrides_eq hseen
    obtain rfl := Except.ok.inj (hstrides.symm.trans hstrides')
    exact ⟨hseen, (visited_eq_iff hst (h.compared_inside hseen) hblock).mp hvisited⟩
  · rintro ⟨hseen, heven⟩
    obtain ⟨s, init, st, hstrides, hst, hblock, -, rfl⟩ := h.computeStrides_eq hseen
    exact ⟨_, hstrides, (visited_eq_iff hst (h.compared_inside hseen) hblock).mpr heven⟩

theorem extents_eq {range : NumericRange} (hlen : range.length = dims.length)
    (h : ∀ p ∈ addressedBox (dims.map UInt32.toNat) range, p.Inside) :
    (range.map fun r => r.max - r.min + 1).map UInt32.toNat =
      (addressedBox (dims.map UInt32.toNat) range).map Part.extent := by
  induction dims generalizing range with
  | nil => rw [List.length_eq_zero_iff.mp hlen]; rfl
  | cons d dims ih =>
    cases range with
    | nil => rfl
    | cons r range =>
      obtain ⟨hp, hrest⟩ := List.forall_mem_cons.mp h
      exact congrArg₂ List.cons (toNat_extent hp) (ih (Nat.succ.inj hlen) hrest)

theorem Addressed.copiesBox_iff (henv : Plentiful env) (htype : v.type = some type)
    (h : Addressed v items range) (hvisits : VisitsBox v range) :
    CopiesBox env v items range ↔ v.arrayDimensions.length ≤ int32Max := by
  obtain ⟨s, hstrides, hvisited⟩ := hvisits
  obtain ⟨hne, hdata⟩ := h.data
  have hscalar : v.data.isScalar = false := by rw [hdata]; rfl
  have hnonempty : ∀ selected, Selects items (visited s) selected → selected ≠ [] := by
    rintro selected hselected rfl
    have hlen := length_of_selects hselected
    rw [hvisited, length_positions] at hlen
    exact absurd hlen (volume_pos h.inside).ne
  have hrange : v.arrayDimensions.length ≠ 0 → range.length = v.arrayDimensions.length := by
    intro hzero
    rw [h.length_eq, dimensions, if_neg hzero, List.length_map]
    rfl
  have hcopied := gives_variantCopyRange henv htype h hstrides (h.block_ne_zero hvisited)
    (h.lt_of_mem_visited hvisited)
  constructor
  · intro hcopies
    by_contra hgt
    have hzero : v.arrayDimensions.length ≠ 0 := by omega
    have hfails := hcopied 0 (Q := fun r => r.1 = StatusCode.badOutOfMemory)
      fun selected hselected => by
        refine (gives_copyRangeFinish henv type hscalar (hnonempty selected hselected)).mono ?_
        intro r hr
        rw [if_neg hzero, if_neg (by rw [hrange hzero]; exact hgt)] at hr
        exact hr
    obtain ⟨r, n, hrun, dst, selected, hne', rfl, -⟩ := hcopies 0 0
    obtain ⟨r', n', hrun', hbad⟩ := hfails 0
    rw [hrun] at hrun'
    cases hrun'
    cases hbad
  · intro hle fuel
    refine hcopied fuel fun selected hselected => ?_
    have hne' := hnonempty selected hselected
    refine (gives_copyRangeFinish henv type hscalar hne').mono ?_
    rw [hvisited] at hselected
    intro r hr
    by_cases hzero : v.arrayDimensions.length = 0
    · rw [if_pos hzero] at hr
      refine ⟨_, selected, hne', hr, htype.symm, rfl, hselected, ?_⟩
      have hlen := length_of_selects hselected
      rw [length_positions] at hlen
      have hone := h.length_eq
      unfold dimensions at hlen hone ⊢
      rw [if_pos hzero] at hlen hone ⊢
      obtain ⟨r, rfl⟩ := List.length_eq_one_iff.mp hone
      show [selected.length] = _
      rw [hlen]
      simp [addressedBox, volume]
    · have hlen := hrange hzero
      rw [if_neg hzero, if_pos (by rw [hlen]; exact hle)] at hr
      have hinside := h.inside
      unfold dimensions at hinside
      rw [if_neg hzero] at hinside
      refine ⟨_, selected, hne', hr, htype.symm, rfl, hselected, ?_⟩
      rw [dimensions, dimensions, if_neg hzero, ← extents_eq hlen hinside]
      have hpos : ¬ (CArray.mem (range.map fun r => r.max - r.min + 1)).length = 0 := by
        rw [CArray.length_mem, List.length_map, hlen]
        exact hzero
      rw [if_neg hpos, CArray.items_mem]

theorem Addressed.replacesBox (henv : Plentiful env) (htype : v.type = some type)
    (h : Addressed v items range) (hvisits : VisitsBox v range) :
    ReplacesBox env v items range := by
  intro array copying hlen
  obtain ⟨s, hstrides, hvisited⟩ := hvisits
  obtain ⟨s', init, st, hstrides', -, -, -, hs⟩ := h.computeStrides_eq
    (seen_of_computeStrides hstrides)
  have htotal : s.total = array.length := by
    obtain rfl := Except.ok.inj (hstrides.symm.trans hstrides')
    rw [hs, hlen, h.compared_box.1]
  obtain ⟨hne, hdata⟩ := h.data
  have hblock := h.block_ne_zero hvisited
  have hlt := h.lt_of_mem_visited hvisited
  have hdvd : s.block ∣ s.total := by
    refine ⟨s.total / s.block, ?_⟩
    rw [Nat.mul_comm, ← length_blocks (s.total / s.block) s.block s.stride s.first, ← visited,
      hvisited, length_positions, ← hlen, htotal]
  have hsame : (visited s).length = array.length := by
    rw [hvisited, length_positions, hlen]
  have hnodup : (visited s).Nodup := by
    rw [hvisited]
    exact (pairwise_positions h.inside).imp fun hlt => hlt.ne
  refine (gives_variantSetRange htype hdata hstrides hblock hdvd hlt htotal
    fun _ x => henv.gives_copy type x).mono ?_
  rintro _ ⟨hne', rfl⟩
  refine ⟨replaceAt items (visited s) array, hne', rfl, rfl, length_replaceAt _ _ _, ?_, ?_⟩
  · rw [← hvisited]
    exact selects_replaceAt hnodup hlt hsame
  · intro k hk
    rw [← hvisited] at hk
    exact getElem?_replaceAt_of_notMem hk

/-- Index ranges address exactly the elements of the box just if the box is even, the dimensions are
as many as an array can have, and a range of an array without dimensions is in the low 32 bits of
its length. -/
theorem range_addresses_box (henv : Plentiful env) {type : TypeDescription}
    (htype : v.type = some type) (h : Addressed v items range) :
    (VisitsBox v range ∧ CopiesBox env v items range ∧ ReplacesBox env v items range) ↔
      Seen v range ∧ v.arrayDimensions.length ≤ int32Max ∧
        Evenly (addressedBox (dimensions v) range) := by
  constructor
  · rintro ⟨hvisits, hcopies, -⟩
    obtain ⟨hseen, heven⟩ := h.visitsBox_iff.mp hvisits
    exact ⟨hseen, (h.copiesBox_iff henv htype hvisits).mp hcopies, heven⟩
  · rintro ⟨hseen, hdims, heven⟩
    have hvisits := h.visitsBox_iff.mpr ⟨hseen, heven⟩
    exact ⟨hvisits, (h.copiesBox_iff henv htype hvisits).mpr hdims,
      h.replacesBox henv htype hvisits⟩

end Box

def numberElements : Elements Nat where
  zero _ := 0
  zeroBytes _ _ x := x
  string _ := .null
  ofString _ := 0
  variant _ := emptyVariant
  ofVariant _ := 0
  byte := UInt8.toNat
  strayByte := 0
  viewAs _ _ xs := xs
  alloc _ := true
  copyStatus _ _ := StatusCode.good

theorem plentiful_numberElements : Plentiful numberElements := ⟨fun _ => rfl, fun _ _ => rfl⟩

def cube : UaVariant Nat :=
  ⟨some (builtinType .uint64), .array [0, 1, 2, 3, 4, 5, 6, 7] (by decide), .mem [2, 2, 2]⟩

def rows : NumericRange := [⟨0, 1⟩, ⟨0, 0⟩, ⟨0, 1⟩]

def corners : NumericRange := [⟨0, 1⟩, ⟨0, 0⟩, ⟨0, 0⟩]

theorem addressed_rows : Addressed cube [0, 1, 2, 3, 4, 5, 6, 7] rows :=
  ⟨⟨_, rfl⟩, by decide, rfl, rfl, by decide⟩

theorem addressed_corners : Addressed cube [0, 1, 2, 3, 4, 5, 6, 7] corners :=
  ⟨⟨_, rfl⟩, by decide, rfl, rfl, by decide⟩

theorem range_addresses_box_rows :
    VisitsBox cube rows ∧ CopiesBox numberElements cube [0, 1, 2, 3, 4, 5, 6, 7] rows ∧
      ReplacesBox numberElements cube [0, 1, 2, 3, 4, 5, 6, 7] rows :=
  (range_addresses_box plentiful_numberElements rfl addressed_rows).mpr
    ⟨fun h => absurd h (by decide), by decide, by decide⟩

/-- The corners are at 0 and 4, but the loops visit 0 and 2. -/
theorem corners_misaddressed :
    Addressed cube [0, 1, 2, 3, 4, 5, 6, 7] corners ∧
      ¬ (VisitsBox cube corners ∧ CopiesBox numberElements cube [0, 1, 2, 3, 4, 5, 6, 7] corners ∧
        ReplacesBox numberElements cube [0, 1, 2, 3, 4, 5, 6, 7] corners) := by
  refine ⟨addressed_corners, ?_⟩
  rintro ⟨⟨s, hstrides, hvisited⟩, -⟩
  have hs : computeStrides 8 [2, 2, 2] corners = .ok ⟨2, 1, 2, 0⟩ := by decide +kernel
  obtain rfl := Except.ok.inj (hs.symm.trans hstrides)
  exact absurd hvisited (by decide)

end FactoryThing.Variants
