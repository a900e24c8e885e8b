import FactoryThing.Variables.TypeCheck

/-!
# Values that conform to a declaration

A data type, a value rank and array dimensions declare what a value may be: those of a variable, or
those of an argument of a method. `typeCheckValue` lets some values through that do not conform,
since it counts one dimension for every array, does not look at the shape of an empty Variant and
takes declared array dimensions to agree with the declared rank
(`src/server/ua_services_attribute.c:230-278`).
-/

namespace FactoryThing.Variables

open AddressSpace Variants Stateful

variable {α : Type}

/-- A Variant as it comes from the network (`src/ua_types_encoding_binary.c:1091-1131`): only arrays
have array dimensions, an empty Variant has nothing, and lengths are those of an Int32. -/
structure Received (w : Outside α) (value : UaVariant α) : Prop where
  scalar : value.data.isScalar = true → value.arrayDimensions = .null
  untyped : value.type = none → value.data = .null ∧ value.arrayDimensions = .null
  arrayLength : value.data.arrayLength < 2 ^ 32
  stringLength : ∀ x, value.data = .scalar x → (w.elements.string x).length < 2 ^ 32

/-- The type of the value is the declared one or a subtype of it, and its dimensions are declared.
Without declared array dimensions an array without data has every rank. -/
structure Conforms (sv : Server (VariableAttributes α)) (dataType : NodeKey) (valueRank : Int)
    (arrayDimensions : List UInt32) (value : UaVariant α) : Prop where
  untyped : value.type = none → dataType = baseDataType ∨ dataType = nullId
  typed : ∀ type, value.type = some type → TypeAllowed sv dataType (typeKey type)
  rank : value.data ≠ .null ∨ arrayDimensions ≠ [] →
    RankAllows valueRank (valueDimensions value).length
  lengths : arrayDimensions ≠ [] → LengthsAllowed arrayDimensions (valueDimensions value)

/-- What the type check overlooks does not matter for the value: the declared array dimensions are
as many as the declared rank allows, an array of several dimensions does not come where the rank
alone asks for one, and an empty Variant not where a length is declared. -/
structure Sized (valueRank : Int) (arrayDimensions : List UInt32) (value : UaVariant α) : Prop where
  declared : arrayDimensions ≠ [] → RankAllows valueRank arrayDimensions.length
  array : arrayDimensions = [] → value.data ≠ .null → 2 ≤ value.arrayDimensions.length →
    valueRank ≠ 1 ∧ valueRank ≠ -3
  empty : value.type = none → arrayDimensions = [] ∨ arrayDimensions = [0]

theorem Conforms.congr {sv : Server (VariableAttributes α)} {dataType : NodeKey} {valueRank : Int}
    {arrayDimensions : List UInt32} {value value' : UaVariant α} (htype : value'.type = value.type)
    (hdata : value'.data = value.data) (hdims : valueDimensions value' = valueDimensions value) :
    Conforms sv dataType valueRank arrayDimensions value' ↔
      Conforms sv dataType valueRank arrayDimensions value := by
  constructor
  · intro h
    refine ⟨htype ▸ h.untyped, htype ▸ h.typed, ?_, ?_⟩
    · rw [← hdims, ← hdata]
      exact h.rank
    · rw [← hdims]
      exact h.lengths
  · intro h
    refine ⟨htype.symm ▸ h.untyped, htype.symm ▸ h.typed, ?_, ?_⟩
    · rw [hdims, hdata]
      exact h.rank
    · rw [hdims]
      exact h.lengths

variable {w : Outside α} {sv : Server (VariableAttributes α)} {dataType : NodeKey} {valueRank : Int}
  {arrayDimensions : List UInt32} {value value' : UaVariant α} {n n' : Nat}

theorem Received.converted (h : Received w value) (hconv : Converted w value value') :
    (value'.data.isScalar = true → value'.arrayDimensions.length = 0) ∧
      value'.data.arrayLength < 2 ^ 32 := by
  rw [hconv.arrayDimensions]
  obtain hdata | ⟨x, hscalar, hdata⟩ := hconv.data
  · rw [hdata]
    exact ⟨fun hs => by rw [h.scalar hs]; rfl, h.arrayLength⟩
  · rw [hdata, arrayLength_bytesOfString]
    refine ⟨fun _ => ?_, h.stringLength x hscalar⟩
    rw [h.scalar (by rw [hscalar]; rfl)]
    rfl

theorem Received.data_of_converted (h : Received w value) (hconv : Converted w value value')
    (hdims : 2 ≤ value.arrayDimensions.length) : value'.data = value.data := by
  obtain hdata | ⟨x, hscalar, -⟩ := hconv.data
  · exact hdata
  · rw [h.scalar (by rw [hscalar]; rfl)] at hdims
    exact absurd hdims (by decide)

theorem isScalar_of_dimensions (h : value.data.isScalar = true → value.arrayDimensions.length = 0)
    (hdims : 2 ≤ value.arrayDimensions.length) : value.data.isScalar = false := by
  rw [Bool.eq_false_iff]
  intro hs
  rw [h hs] at hdims
  omega

theorem rankAllows_of_check
    (hscalar : value.data.isScalar = true → value.arrayDimensions.length = 0)
    (hdata : value.data ≠ .null)
    (harray : 2 ≤ value.arrayDimensions.length → valueRank ≠ 1 ∧ valueRank ≠ -3)
    (h : compatibleValueRankValue valueRank value = StatusCode.good) :
    RankAllows valueRank (valueDimensions value).length := by
  rw [compatibleValueRankValue_of_data hdata, good_rankArrayDimensions_iff] at h
  unfold valueDimensions
  by_cases hs : value.data.isScalar = true
  · rw [if_pos hs, hscalar hs] at h
    rw [if_pos hs]
    exact h
  · rw [if_neg hs] at h ⊢
    split
    · exact h
    · rename_i hpos
      rw [List.length_map]
      exact h.of_one (Nat.pos_of_ne_zero hpos) harray

theorem valueDimensions_empty (hdata : value.data = .null) (hdims : value.arrayDimensions = .null) :
    valueDimensions value = [0] := by
  unfold valueDimensions
  rw [hdata, hdims]
  rfl

theorem lengthsAllowed_zero_iff {dims : List UInt32} : LengthsAllowed dims [0] ↔ dims = [0] := by
  constructor
  · intro h
    obtain ⟨dim, rest, hdim, hrest, rfl⟩ := List.forall₂_cons_right_iff.mp h
    rw [List.forall₂_nil_right_iff.mp hrest]
    have hzero : dim = 0 := hdim.elim id fun h => UInt32.toNat_inj.mp h
    rw [hzero]
  · rintro rfl
    exact .cons (.inl rfl) .nil

theorem typeCheckValue_untyped {editable : Bool} {range : Option NumericRange}
    (htype : value.type = none)
    (h : (typeCheckValue w sv dataType valueRank arrayDimensions value range editable).run n =
      .ok ((StatusCode.good, value'), n')) :
    value' = value ∧ (dataType = baseDataType ∨ dataType = nullId) := by
  unfold typeCheckValue at h
  rw [htype] at h
  obtain ⟨hallowed, h⟩ | ⟨-, h⟩ := run_ite_cases h
  · exact ⟨(Prod.mk.inj (run_pure_ok.mp h).1).2, hallowed⟩
  · exact absurd (Prod.mk.inj (run_pure_ok.mp h).1).1 (by decide)

theorem converted_of_good
    (h : (typeCheckValue w sv dataType valueRank arrayDimensions value none true).run n =
      .ok ((StatusCode.good, value'), n')) : Converted w value value' := by
  cases htype : value.type with
  | some type => exact (typeCheckValue_good htype h).1
  | none =>
    obtain ⟨rfl, -⟩ := typeCheckValue_untyped htype h
    exact ⟨rfl, .inl rfl⟩

theorem conforms_iff_sized_of_typed (hreceived : Received w value) {type : TypeDescription}
    (htype : value.type = some type)
    (h : (typeCheckValue w sv dataType valueRank arrayDimensions value none true).run n =
      .ok ((StatusCode.good, value'), n')) :
    Conforms sv dataType valueRank arrayDimensions value' ↔
      Sized valueRank arrayDimensions value := by
  obtain ⟨hconv, -, hcheck, type', htype', hallowed⟩ := typeCheckValue_good htype h
  obtain ⟨hscalar, hlength⟩ := hreceived.converted hconv
  unfold checkDimensions at hcheck
  constructor
  · intro hconforms
    refine ⟨fun hne => ?_, fun hnil hdata hdims => ?_, fun hnone => ?_⟩
    · rw [(hconforms.lengths hne).length_eq]
      exact hconforms.rank (.inr hne)
    · have hkept := hreceived.data_of_converted hconv hdims
      have hdims' : 2 ≤ value'.arrayDimensions.length := by
        rw [hconv.arrayDimensions]
        exact hdims
      have hrank := hconforms.rank (.inl (hkept ▸ hdata))
      rw [valueDimensions_of_not_scalar (isScalar_of_dimensions hscalar hdims') (by omega),
        List.length_map] at hrank
      have hcount : 2 ≤ value'.arrayDimensions.items.length := hdims'
      unfold RankAllows at hrank
      omega
    · rw [htype] at hnone
      cases hnone
  · intro hsized
    have hlengths : arrayDimensions ≠ [] →
        LengthsAllowed arrayDimensions (valueDimensions value') := by
      intro hne
      rw [if_pos (List.length_pos_iff.mpr hne)] at hcheck
      exact lengthsAllowed_of_check hne hscalar hlength hcheck
    refine ⟨fun hnone => ?_, fun type'' htype'' => ?_, fun hwhen => ?_, hlengths⟩
    · rw [htype'] at hnone
      cases hnone
    · obtain rfl := Option.some.inj (htype'.symm.trans htype'')
      exact hallowed
    · by_cases hnil : arrayDimensions = []
      · have hdata := hwhen.resolve_right (not_not.mpr hnil)
        rw [hnil, List.length_nil, if_neg (Nat.lt_irrefl 0)] at hcheck
        refine rankAllows_of_check hscalar hdata (fun hdims => ?_) hcheck
        rw [hconv.arrayDimensions] at hdims
        have hkept := hreceived.data_of_converted hconv hdims
        exact hsized.array hnil (hkept ▸ hdata) hdims
      · rw [← (hlengths hnil).length_eq]
        exact hsized.declared hnil

theorem conforms_iff_sized (hreceived : Received w value)
    (h : (typeCheckValue w sv dataType valueRank arrayDimensions value none true).run n =
      .ok ((StatusCode.good, value'), n')) :
    Conforms sv dataType valueRank arrayDimensions value' ↔
      Sized valueRank arrayDimensions value := by
  cases htype : value.type with
  | some type => exact conforms_iff_sized_of_typed hreceived htype h
  | none =>
    obtain ⟨rfl, hallowed⟩ := typeCheckValue_untyped htype h
    obtain ⟨hdata, hdims⟩ := hreceived.untyped htype
    have hvalue := valueDimensions_empty hdata hdims
    constructor
    · intro hconforms
      refine ⟨fun hne => ?_, fun _ hno => absurd hdata hno, fun _ => ?_⟩
      · rw [(hconforms.lengths hne).length_eq]
        exact hconforms.rank (.inr hne)
      · by_cases hnil : arrayDimensions = []
        · exact .inl hnil
        · have hlengths := hconforms.lengths hnil
          rw [hvalue, lengthsAllowed_zero_iff] at hlengths
          exact .inr hlengths
    · intro hsized
      have hlengths : arrayDimensions ≠ [] →
          LengthsAllowed arrayDimensions (valueDimensions value') := by
        intro hne
        rw [hvalue, lengthsAllowed_zero_iff]
        exact (hsized.empty htype).resolve_left hne
      refine ⟨fun _ => hallowed, fun type htype' => ?_, fun hwhen => ?_, hlengths⟩
      · rw [htype] at htype'
        cases htype'
      · have hne := hwhen.resolve_left (not_not.mpr hdata)
        rw [← (hlengths hne).length_eq]
        exact hsized.declared hne

end FactoryThing.Variables
