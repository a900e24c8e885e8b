import FactoryThing.Lib.Runs
import FactoryThing.Variables.Attributes
import FactoryThing.Variants.Slices
import Mathlib.Logic.Relation

/-!
# Values that fit their variable

What the documentation of variables (`src/server/ua_nodes.h:66-107`) asks of a value: its type is
the data type or a subtype of it, and its dimensions are those that the value rank and the array
dimensions allow. The writers count one dimension for every array, so that a value with more of them
gets past a rank that forbids it.
-/

namespace FactoryThing.Variables

open AddressSpace Variants Stateful

variable {α : Type}

variable {retval : StatusCode} {node node' : VariableNode α} {type : TypeDescription}
  {value value' : UaVariant α}

/-! ## Fitting values -/

/-- The lengths of a value in its dimensions; a scalar has none. -/
def valueDimensions (value : UaVariant α) : List Nat :=
  if value.data.isScalar then []
  else if value.arrayDimensions.length = 0 then [value.data.arrayLength]
  else value.arrayDimensions.items.map UInt32.toNat

/-- The numbers of dimensions that a value rank stands for. -/
def RankAllows (valueRank : Int) (dims : Nat) : Prop :=
  (valueRank = -3 ∧ dims ≤ 1) ∨ valueRank = -2 ∨ (valueRank = -1 ∧ dims = 0) ∨
    (valueRank = 0 ∧ 1 ≤ dims) ∨ (1 ≤ valueRank ∧ (dims : Int) = valueRank)

/-- The lengths are those that are given; a given length of zero is a wildcard. -/
def LengthsAllowed (arrayDimensions : List UInt32) (lengths : List Nat) : Prop :=
  List.Forall₂ (fun dim length => dim = 0 ∨ dim.toNat = length) arrayDimensions lengths

def HasSupertype (sv : Server (VariableAttributes α)) (type super : NodeKey) : Prop :=
  ∃ ref ∈ sv.references type,
    ref.isInverse = true ∧ ref.referenceTypeId = hasSubtype ∧ ref.targetId.nodeId = super

/-- The data type itself or a subtype; every type is one of BaseDataType. -/
def TypeAllowed (sv : Server (VariableAttributes α)) (dataType type : NodeKey) : Prop :=
  dataType.isNull = true ∨ dataType = baseDataType ∨
    Relation.ReflTransGen (HasSupertype sv) type dataType

/-- A value of the type `type` fits the attributes of its variable. An array without data fits every
rank. -/
structure ValueFits (sv : Server (VariableAttributes α)) (attributes : VariableAttributes α)
    (value : UaVariant α) (type : TypeDescription) : Prop where
  type : TypeAllowed sv attributes.dataType (typeKey type)
  rank : value.data ≠ .null → RankAllows attributes.valueRank (valueDimensions value).length
  lengths : attributes.arrayDimensions ≠ [] →
    LengthsAllowed attributes.arrayDimensions (valueDimensions value)

/-- The value of the variable, when it has one, fits. -/
def Fits (sv : Server (VariableAttributes α)) (node : VariableNode α) : Prop :=
  ∀ v type, node.attributes.value = .data v → v.hasValue = true → v.value.type = some type →
    ValueFits sv node.attributes v.value type

/-- The array dimensions of the variable are as many as its rank allows. -/
def RankAgrees (node : VariableNode α) : Prop :=
  node.attributes.arrayDimensions ≠ [] →
    RankAllows node.attributes.valueRank node.attributes.arrayDimensions.length

theorem good_rankArrayDimensions_iff {valueRank : Int} {dims : Nat} :
    compatibleValueRankArrayDimensions valueRank dims = StatusCode.good ↔
      RankAllows valueRank dims := by
  have hbad : StatusCode.badTypeMismatch ≠ StatusCode.good := by decide
  unfold compatibleValueRankArrayDimensions RankAllows
  split
  · split
    · simp only [hbad, false_iff]
      omega
    · simp only [true_iff]
      omega
  · split
    · simp only [true_iff]
      omega
    · split
      · split
        · simp only [hbad, false_iff]
          omega
        · simp only [true_iff]
          omega
      · split
        · split
          · simp only [hbad, false_iff]
            omega
          · simp only [true_iff]
            omega
        · split
          · simp only [hbad, false_iff]
            omega
          · split
            · simp only [hbad, false_iff]
              omega
            · simp only [true_iff]
              omega

theorem good_arrayDimensions_iff {constraint test : List UInt32} (hne : constraint ≠ []) :
    compatibleArrayDimensions constraint test = StatusCode.good ↔
      List.Forall₂ (fun dim length => dim = 0 ∨ dim = length) constraint test := by
  have hbad : StatusCode.badTypeMismatch ≠ StatusCode.good := by decide
  unfold compatibleArrayDimensions
  rw [if_neg (by simpa using hne), List.forall₂_iff_zip]
  split
  · rename_i hlen
    simp only [hbad, false_iff, not_and]
    exact fun heq => absurd heq.symm hlen
  · rename_i hlen
    rw [not_not] at hlen
    simp only [hlen.symm, true_and]
    split
    · rename_i hall
      simp only [true_iff]
      intro a b hab
      have h := List.all_eq_true.mp hall (a, b) hab
      simp only [Bool.or_eq_true, beq_iff_eq] at h
      exact h.symm
    · rename_i hall
      simp only [hbad, false_iff]
      intro h
      apply hall
      rw [List.all_eq_true]
      rintro ⟨a, b⟩ hab
      simp only [Bool.or_eq_true, beq_iff_eq]
      exact (h hab).symm

variable {w : Outside α} {sv : Server (VariableAttributes α)} {n n' : Nat}

theorem searchUpwards_sound {types : List NodeKey} {recur : NodeKey → Option Bool}
    {refs : List ReferenceNode} (h : searchUpwards types recur refs = some true) :
    ∃ ref ∈ refs, ref.isInverse = true ∧ ref.referenceTypeId ∈ types ∧
      recur ref.targetId.nodeId = some true := by
  induction refs with
  | nil => cases h
  | cons ref refs ih =>
    rw [searchUpwards] at h
    split at h
    · rename_i hmatch
      split at h
      · cases h
      · rename_i hfound
        exact ⟨ref, List.mem_cons_self, hmatch.1, hmatch.2, hfound⟩
      · obtain ⟨ref', hmem, hrest⟩ := ih h
        exact ⟨ref', List.mem_cons_of_mem _ hmem, hrest⟩
    · obtain ⟨ref', hmem, hrest⟩ := ih h
      exact ⟨ref', List.mem_cons_of_mem _ hmem, hrest⟩

theorem isNodeInTree_sound {goal : NodeKey} (fuel : Nat) {leaf : NodeKey}
    (h : isNodeInTree sv goal [hasSubtype] fuel leaf = some true) :
    Relation.ReflTransGen (HasSupertype sv) leaf goal := by
  induction fuel generalizing leaf with
  | zero => cases h
  | succ fuel ih =>
    rw [isNodeInTree] at h
    split at h
    · rename_i heq
      rw [heq]
    · split at h
      · cases h
      · rename_i node hget
        obtain ⟨ref, hmem, hinverse, htype, hrec⟩ := searchUpwards_sound h
        refine (ih hrec).head ⟨ref, ?_, hinverse, List.mem_singleton.mp htype, rfl⟩
        rw [references_of_get hget]
        exact hmem

theorem typeAllowed_of_compatible {dataType constraint : NodeKey}
    (h : (compatibleDataType w sv dataType constraint).run n = .ok (true, n')) :
    TypeAllowed sv constraint dataType := by
  obtain ⟨-, h⟩ | ⟨-, h⟩ := run_ite_cases h
  · cases (run_pure_ok.mp h).1
  · obtain ⟨hnull, -⟩ | ⟨-, h⟩ := run_ite_cases h
    · exact .inl hnull
    · obtain ⟨hbase, -⟩ | ⟨-, h⟩ := run_ite_cases h
      · exact .inr (.inl hbase)
      · split at h
        · exact (run_throw_ok.mp h).elim
        · rename_i found hfound
          obtain ⟨rfl, -⟩ := run_pure_ok.mp h
          exact .inr (.inr (isNodeInTree_sound _ hfound))

/-- A value as `convertToMatchingValue` may leave it: with another type, and a ByteString as an
array. -/
structure Converted (w : Outside α) (value value' : UaVariant α) : Prop where
  arrayDimensions : value'.arrayDimensions = value.arrayDimensions
  data : value'.data = value.data ∨
    ∃ x, value.data = .scalar x ∧
      value'.data = bytesOfString w.elements (w.elements.string x)

theorem findDataType_key {target : NodeKey}
    (h : findDataType w.types target = some type) : typeKey type = target := by
  unfold findDataType at h
  obtain ⟨ns, ident⟩ := target
  split at h
  · rename_i m hident
    subst hident
    split at h
    · cases h
    · rename_i hns
      rw [not_not] at hns
      have hmem := List.mem_of_find?_eq_some h
      have hmatch := List.find?_some h
      dsimp only at hns hmatch
      split at hmatch
      · rename_i m' hm'
        rw [beq_iff_eq] at hmatch
        rw [typeKey, NodeKey.ofNodeId, hm', hmatch, w.types_namespace type hmem, hns]
      · cases hmatch
  · cases h

theorem convertToMatchingValue_some
    {target : NodeKey} (h : convertToMatchingValue w value type target = some value') :
    Converted w value value' ∧ ∃ type', value'.type = some type' ∧ typeKey type' = target := by
  unfold convertToMatchingValue at h
  split at h
  · cases h
  · rename_i targetType hfind
    have hkey := findDataType_key hfind
    split at h
    · rename_i x hstring hdata
      obtain ⟨hbyte, -⟩ := of_decide_eq_true hstring
      cases h
      exact ⟨⟨rfl, .inr ⟨x, hdata, rfl⟩⟩, _, rfl, hbyte ▸ hkey⟩
    · split at h
      · cases h
        exact ⟨⟨rfl, .inl rfl⟩, _, rfl, hkey⟩
      · cases h

theorem typeCheckValue_good {target : NodeKey} {rank : Int} {dims : List UInt32}
    (htype : value.type = some type)
    {range : Option NumericRange} {editable : Bool}
    (h : (typeCheckValue w sv target rank dims value range editable).run n =
      .ok ((StatusCode.good, value'), n')) :
    Converted w value value' ∧ (editable = false → value' = value) ∧
      checkDimensions rank dims value' range = StatusCode.good ∧
      ∃ type', value'.type = some type' ∧ TypeAllowed sv target (typeKey type') := by
  have hbad : StatusCode.good ≠ StatusCode.badTypeMismatch := by decide
  unfold typeCheckValue at h
  rw [htype] at h
  obtain ⟨compatible, n1, hcompatible, h⟩ := run_bind_ok.mp h
  obtain ⟨rfl, h⟩ | ⟨-, h⟩ := run_ite_cases h
  · have hallowed := typeAllowed_of_compatible hcompatible
    obtain ⟨hresult, -⟩ := run_pure_ok.mp h
    obtain ⟨hgood, rfl⟩ := Prod.mk.inj hresult
    exact ⟨⟨rfl, .inl rfl⟩, fun _ => rfl, hgood.symm, type, htype, hallowed⟩
  · obtain ⟨-, h⟩ | ⟨hedit, h⟩ := run_ite_cases h
    · exact absurd (Prod.mk.inj (run_pure_ok.mp h).1).1 hbad
    · split at h
      · exact absurd (Prod.mk.inj (run_pure_ok.mp h).1).1 hbad
      · rename_i converted hconvert
        obtain ⟨hresult, -⟩ := run_pure_ok.mp h
        obtain ⟨hgood, rfl⟩ := Prod.mk.inj hresult
        obtain ⟨hconverted, type', htype', hkey⟩ := convertToMatchingValue_some hconvert
        refine ⟨hconverted, fun hno => absurd hno hedit, hgood.symm, type', htype', ?_⟩
        exact .inr (.inr (hkey ▸ .refl))

/-- A value whose dimensions the writers do not miscount, for a variable with some attributes: a
scalar has no array dimensions, an array of several dimensions is not written where one dimension
is asked for by the rank alone, and the length of an array that is compared has 32 bits. -/
structure CountedRight (w : Outside α) (attributes : VariableAttributes α) (value : UaVariant α) :
    Prop where
  scalar : value.data.isScalar = true → value.arrayDimensions.length = 0
  array : 2 ≤ value.arrayDimensions.length → attributes.arrayDimensions = [] →
    attributes.valueRank ≠ 1 ∧ attributes.valueRank ≠ -3
  length : attributes.arrayDimensions ≠ [] → value.data.arrayLength < 2 ^ 32 ∧
    ∀ x, value.data = .scalar x → (w.elements.string x).length < 2 ^ 32

theorem arrayLength_bytesOfString (elements : Elements α) (s : UaString) :
    (bytesOfString elements s).arrayLength = s.length := by
  cases s with
  | null | sentinel => rfl
  | mem items =>
    cases items with
    | nil => rfl
    | cons b bs => exact congrArg (· + 1) (List.length_map _)

theorem CountedRight.converted {attributes : VariableAttributes α}
    (h : CountedRight w attributes value) (hconv : Converted w value value') :
    (value'.data.isScalar = true → value'.arrayDimensions.length = 0) ∧
      (2 ≤ value'.arrayDimensions.length → attributes.arrayDimensions = [] →
        attributes.valueRank ≠ 1 ∧ attributes.valueRank ≠ -3) ∧
      (attributes.arrayDimensions ≠ [] → value'.data.arrayLength < 2 ^ 32) := by
  rw [hconv.arrayDimensions]
  obtain hdata | ⟨x, hscalar, hdata⟩ := hconv.data
  · rw [hdata]
    exact ⟨h.scalar, h.array, fun hne => (h.length hne).1⟩
  · have hzero := h.scalar (by rw [hscalar]; rfl)
    refine ⟨fun _ => hzero, h.array, fun hne => ?_⟩
    rw [hdata, arrayLength_bytesOfString]
    exact (h.length hne).2 x hscalar

theorem RankAllows.of_one {rank : Int} {dims : Nat} (h : RankAllows rank 1) (hdims : 1 ≤ dims)
    (hmore : 2 ≤ dims → rank ≠ 1 ∧ rank ≠ -3) : RankAllows rank dims := by
  unfold RankAllows at h ⊢
  omega

theorem lengthsAllowed_map {dims items : List UInt32}
    (h : List.Forall₂ (fun dim length => dim = 0 ∨ dim = length) dims items) :
    LengthsAllowed dims (items.map UInt32.toNat) := by
  induction h with
  | nil => exact .nil
  | cons hd _ ih => exact .cons (hd.imp_right (congrArg UInt32.toNat)) ih

theorem items_of_length_zero {β : Type} {a : CArray β} (h : a.length = 0) : a.items = [] :=
  List.length_eq_zero_iff.mp h

theorem lengthsAllowed_of_check {dims : List UInt32} {value : UaVariant α} (hne : dims ≠ [])
    (hscalar : value.data.isScalar = true → value.arrayDimensions.length = 0)
    (hlt : value.data.arrayLength < 2 ^ 32)
    (h : compatibleArrayDimensions dims (valueArrayDimensions value) = StatusCode.good) :
    LengthsAllowed dims (valueDimensions value) := by
  have hall := (good_arrayDimensions_iff hne).mp h
  unfold valueArrayDimensions at hall
  unfold valueDimensions
  by_cases hs : value.data.isScalar = true
  · rw [hs, if_neg (by simp), items_of_length_zero (hscalar hs)] at hall
    exact absurd (List.forall₂_nil_right_iff.mp hall) hne
  · rw [if_neg hs]
    by_cases hnull : value.arrayDimensions = .null
    · rw [if_pos ⟨hnull, Bool.eq_false_iff.mpr hs⟩] at hall
      rw [hnull, CArray.length_null, if_pos rfl]
      have hmap := lengthsAllowed_map hall
      rw [List.map_cons, List.map_nil, UInt32.toNat_ofNat_of_lt' hlt] at hmap
      exact hmap
    · rw [if_neg fun hboth => hnull hboth.1] at hall
      split
      · rename_i hzero
        rw [items_of_length_zero hzero] at hall
        exact absurd (List.forall₂_nil_right_iff.mp hall) hne
      · exact lengthsAllowed_map hall

theorem compatibleValueRankValue_of_data {rank : Int} {value : UaVariant α}
    (hdata : value.data ≠ .null) :
    compatibleValueRankValue rank value = compatibleValueRankArrayDimensions rank
      (if value.data.isScalar then value.arrayDimensions.length else 1) := by
  unfold compatibleValueRankValue
  split
  · rename_i hnull
    exact absurd hnull hdata
  · rfl

theorem valueFits_of_check {attributes : VariableAttributes α}
    (hright : CountedRight w attributes value) (hconv : Converted w value value')
    (hagrees : attributes.arrayDimensions ≠ [] →
      RankAllows attributes.valueRank attributes.arrayDimensions.length)
    (hcheck : checkDimensions attributes.valueRank attributes.arrayDimensions value' none =
      StatusCode.good)
    (htype : TypeAllowed sv attributes.dataType (typeKey type)) :
    ValueFits sv attributes value' type := by
  obtain ⟨hscalar, harray, hlength⟩ := hright.converted hconv
  unfold checkDimensions at hcheck
  rw [if_neg (by simp)] at hcheck
  by_cases hdims : attributes.arrayDimensions = []
  · rw [hdims, List.length_nil, if_neg (Nat.lt_irrefl 0)] at hcheck
    refine ⟨htype, fun hdata => ?_, fun hne => absurd hdims hne⟩
    rw [compatibleValueRankValue_of_data hdata, good_rankArrayDimensions_iff] at hcheck
    unfold valueDimensions
    by_cases hs : value'.data.isScalar = true
    · rw [if_pos hs, hscalar hs] at hcheck
      rw [if_pos hs]
      exact hcheck
    · rw [if_neg hs] at hcheck ⊢
      split
      · exact hcheck
      · rename_i hpos
        rw [List.length_map]
        exact hcheck.of_one (Nat.pos_of_ne_zero hpos) fun hmore => harray hmore hdims
  · rw [if_pos (List.length_pos_iff.mpr hdims)] at hcheck
    have hallowed := lengthsAllowed_of_check hdims hscalar (hlength hdims) hcheck
    refine ⟨htype, fun _ => ?_, fun _ => hallowed⟩
    rw [← hallowed.length_eq]
    exact hagrees hdims

/-! ## The writers -/

structure SameNode (node node' : VariableNode α) : Prop where
  nodeId : node'.nodeId = node.nodeId
  nodeClass : node'.nodeClass = node.nodeClass
  references : node'.references = node.references

theorem SameNode.refl (node : VariableNode α) : SameNode node node := ⟨rfl, rfl, rfl⟩

theorem sameNode_withAttributes (node : VariableNode α)
    (f : VariableAttributes α → VariableAttributes α) : SameNode node (withAttributes node f) :=
  ⟨rfl, rfl, rfl⟩

/-- What is written to a node is counted right: no writer goes by a wrong number of dimensions. -/
def WriteCounted (w : Outside α) (node : VariableNode α) : Write α → Prop
  | .value v indexRange =>
    indexRange.length = 0 ∧ (v.hasValue = true → ∀ type, v.value.type = some type →
      CountedRight w node.attributes v.value)
  | .dataType _ => True
  | .valueRank valueRank =>
    ∀ v, node.attributes.value = .data v → v.hasValue = true →
      node.attributes.arrayDimensions = [] → v.value.data.isScalar = false →
      2 ≤ v.value.arrayDimensions.length → valueRank ≠ 1 ∧ valueRank ≠ -3
  | .arrayDimensions _ =>
    ∀ v, node.attributes.value = .data v → v.hasValue = true →
      v.value.data.isScalar = true → v.value.arrayDimensions.length = 0

theorem readValueAttribute_data {node : VariableNode α} {v : DataValue α}
    (hvalue : node.attributes.value = .data v) {value : DataValue α}
    (h : (readValueAttribute w node).run n = .ok ((retval, value), n')) : value = v := by
  unfold readValueAttribute at h
  rw [hvalue] at h
  exact (Prod.mk.inj (run_pure_ok.mp h).1).2

def Keeps (sv : Server (VariableAttributes α)) (node node' : VariableNode α) : Prop :=
  SameNode node node' ∧ Fits sv node' ∧ RankAgrees node'

theorem keeps_writeDataType
    {dataType : NodeKey} (hfits : Fits sv node) (hagrees : RankAgrees node)
    (h : (writeDataTypeAttributeWithVT w sv node dataType).run n = .ok ((node', retval), n')) :
    Keeps sv node node' := by
  have hsame : ∀ {r}, (node', retval) = (node, r) → Keeps sv node node' := by
    rintro r ⟨⟩
    exact ⟨.refl node, hfits, hagrees⟩
  unfold writeDataTypeAttributeWithVT at h
  split at h
  · exact hsame (run_pure_ok.mp h).1
  unfold writeDataTypeAttribute at h
  obtain heq | ⟨-, h⟩ := run_return_or h
  · exact hsame heq
  obtain ⟨compatible, n1, -, h⟩ := run_bind_ok.mp h
  obtain heq | ⟨-, h⟩ := run_return_or h
  · exact hsame heq
  obtain ⟨⟨r1, value⟩, n2, hread, h⟩ := run_bind_ok.mp h
  obtain heq | ⟨-, h⟩ := run_return_or h
  · exact hsame heq
  obtain ⟨r2, n3, hcheck, h⟩ := run_bind_ok.mp h
  obtain heq | ⟨hgood, h⟩ := run_return_or h
  · exact hsame heq
  obtain ⟨r3, n4, -, h⟩ := run_bind_ok.mp h
  obtain heq | ⟨-, h⟩ := run_return_or h
  · exact hsame heq
  obtain ⟨rfl, -⟩ := Prod.mk.inj (run_pure_ok.mp h).1
  refine ⟨sameNode_withAttributes node _, ?_, hagrees⟩
  intro v type hv hhas htype
  obtain rfl := readValueAttribute_data hv hread
  have hold := hfits value type hv hhas htype
  unfold checkCurrentValue at hcheck
  rw [if_pos hhas] at hcheck
  obtain ⟨⟨r, value'⟩, n5, hcheck, hr⟩ := run_bind_ok.mp hcheck
  obtain rfl := (run_pure_ok.mp hr).1
  rw [not_not] at hgood
  subst hgood
  obtain ⟨-, hedit, -, type', htype', hallowed⟩ := typeCheckValue_good htype hcheck
  obtain rfl := hedit rfl
  obtain rfl := Option.some.inj (htype.symm.trans htype')
  exact ⟨hallowed, hold.rank, hold.lengths⟩

theorem keeps_writeValueRank
    {valueRank : Int} (hfits : Fits sv node) (hagrees : RankAgrees node)
    (hcounted : WriteCounted w node (.valueRank valueRank))
    (h : (writeValueRankAttributeWithVT w sv node valueRank).run n = .ok ((node', retval), n')) :
    Keeps sv node node' := by
  have hsame : ∀ {r}, (node', retval) = (node, r) → Keeps sv node node' := by
    rintro r ⟨⟩
    exact ⟨.refl node, hfits, hagrees⟩
  -- what is left to show when the rank is changed
  have hchange : (∀ v type, node.attributes.value = .data v → v.hasValue = true →
        v.value.type = some type → v.value.data ≠ .null →
        RankAllows valueRank (valueDimensions v.value).length) →
      (node.attributes.arrayDimensions ≠ [] →
        RankAllows valueRank node.attributes.arrayDimensions.length) →
      Keeps sv node (withAttributes node fun a => { a with valueRank }) := by
    intro hrank hagrees'
    refine ⟨sameNode_withAttributes node _, ?_, hagrees'⟩
    intro v type hv hhas htype
    have hold := hfits v type hv hhas htype
    exact ⟨hold.type, hrank v type hv hhas htype, hold.lengths⟩
  have happly : ∀ {dims}, (node', retval) = applyValueRank node valueRank dims →
      (RankAllows valueRank dims →
        Keeps sv node (withAttributes node fun a => { a with valueRank })) →
      Keeps sv node node' := by
    intro dims heq hkeeps
    unfold applyValueRank at heq
    dsimp only at heq
    split at heq
    · exact hsame heq
    · rename_i hgood
      rw [not_not] at hgood
      obtain ⟨rfl, -⟩ := Prod.mk.inj heq
      exact hkeeps (good_rankArrayDimensions_iff.mp hgood)
  unfold writeValueRankAttributeWithVT at h
  split at h
  · exact hsame (run_pure_ok.mp h).1
  unfold writeValueRankAttribute at h
  obtain heq | ⟨-, h⟩ := run_return_or h
  · exact hsame heq
  obtain heq | ⟨-, h⟩ := run_return_or h
  · exact hsame heq
  obtain ⟨hnone, h⟩ | ⟨hsome, h⟩ := run_ite_cases h
  · have hnil : node.attributes.arrayDimensions = [] := List.length_eq_zero_iff.mp hnone
    obtain ⟨⟨r1, value⟩, n1, hread, h⟩ := run_bind_ok.mp h
    obtain heq | ⟨-, h⟩ := run_return_or h
    · exact hsame heq
    obtain ⟨hempty, h⟩ | ⟨-, h⟩ := run_ite_cases h
    · obtain ⟨rfl, -⟩ := Prod.mk.inj (run_pure_ok.mp h).1
      refine hchange (fun v type hv hhas htype => ?_) (fun hne => absurd hnil hne)
      obtain rfl := readValueAttribute_data hv hread
      obtain hno | hno := hempty
      · exact absurd (hhas.symm.trans hno) (by decide)
      · exact absurd (htype.symm.trans hno) (by simp)
    · refine happly (run_pure_ok.mp h).1 fun hallows => ?_
      refine hchange (fun v type hv hhas htype hdata => ?_) (fun hne => absurd hnil hne)
      obtain rfl := readValueAttribute_data hv hread
      unfold valueDimensions
      by_cases hs : value.value.data.isScalar = true
      · rw [if_pos hs] at hallows ⊢
        exact hallows
      · rw [if_neg hs] at hallows ⊢
        split
        · exact hallows
        · rename_i hpos
          rw [List.length_map]
          exact hallows.of_one (Nat.pos_of_ne_zero hpos)
            (hcounted value hv hhas hnil (Bool.eq_false_iff.mpr hs))
  · refine happly (run_pure_ok.mp h).1 fun hallows => ?_
    refine hchange (fun v type hv hhas htype _ => ?_) fun _ => hallows
    have hlengths := (hfits v type hv hhas htype).lengths fun hnil => hsome (by rw [hnil]; rfl)
    rw [← hlengths.length_eq]
    exact hallows

theorem valueDimensions_of_not_scalar {value : UaVariant α} (hs : value.data.isScalar = false)
    (hpos : value.arrayDimensions.length ≠ 0) :
    valueDimensions value = value.arrayDimensions.items.map UInt32.toNat := by
  rw [valueDimensions, hs, if_neg (by decide), if_neg hpos]

theorem keeps_writeArrayDimensions
    {dims : List UInt32} (hfits : Fits sv node) (hagrees : RankAgrees node)
    (hcounted : WriteCounted w node (.arrayDimensions dims))
    (h : (writeArrayDimensionsAttribute w sv node dims).run n = .ok ((node', retval), n')) :
    Keeps sv node node' := by
  have hsame : ∀ {r}, (node', retval) = (node, r) → Keeps sv node node' := by
    rintro r ⟨⟩
    exact ⟨.refl node, hfits, hagrees⟩
  unfold writeArrayDimensionsAttribute at h
  obtain heq | ⟨-, h⟩ := run_return_or h
  · exact hsame heq
  obtain heq | ⟨hrank, h⟩ := run_return_or h
  · exact hsame heq
  split at h
  · exact hsame (run_pure_ok.mp h).1
  obtain heq | ⟨-, h⟩ := run_return_or h
  · exact hsame heq
  obtain ⟨⟨r1, value⟩, n1, hread, h⟩ := run_bind_ok.mp h
  obtain heq | ⟨-, h⟩ := run_return_or h
  · exact hsame heq
  obtain heq | ⟨hvalue, h⟩ := run_return_or h
  · exact hsame heq
  obtain ⟨r2, n2, -, h⟩ := run_bind_ok.mp h
  obtain heq | ⟨-, h⟩ := run_return_or h
  · exact hsame heq
  obtain ⟨rfl, -⟩ := Prod.mk.inj (run_pure_ok.mp h).1
  rw [not_not] at hrank hvalue
  refine ⟨sameNode_withAttributes node _, ?_, fun _ => good_rankArrayDimensions_iff.mp hrank⟩
  intro v type hv hhas htype
  obtain rfl := readValueAttribute_data hv hread
  have hold := hfits value type hv hhas htype
  refine ⟨hold.type, hold.rank, fun hne => ?_⟩
  rw [if_pos hhas] at hvalue
  have hall := (good_arrayDimensions_iff hne).mp hvalue
  have hpos : value.value.arrayDimensions.length ≠ 0 := by
    intro hzero
    rw [items_of_length_zero hzero] at hall
    exact hne (List.forall₂_nil_right_iff.mp hall)
  have hs : value.value.data.isScalar = false := by
    rw [Bool.eq_false_iff]
    exact fun hs => hpos (hcounted value hv hhas hs)
  show LengthsAllowed dims (valueDimensions value.value)
  rw [valueDimensions_of_not_scalar hs hpos]
  exact lengthsAllowed_map hall

theorem items_copied (v : DataValue α) :
    (copiedDataValue v).value.arrayDimensions.items = v.value.arrayDimensions.items := by
  unfold copiedDataValue
  dsimp only
  split
  · rename_i hmem
    rw [hmem]
    rfl
  · rfl

theorem valueDimensions_copied (v : DataValue α) :
    valueDimensions (copiedDataValue v).value = valueDimensions v.value := by
  unfold valueDimensions CArray.length
  rw [items_copied]
  rfl

theorem ValueFits.copied {attributes : VariableAttributes α} {v : DataValue α}
    (h : ValueFits sv attributes v.value type) :
    ValueFits sv attributes (copiedDataValue v).value type := by
  refine ⟨h.type, fun hdata => ?_, fun hne => ?_⟩
  · rw [valueDimensions_copied]
    exact h.rank hdata
  · rw [valueDimensions_copied]
    exact h.lengths hne

theorem keeps_writeValue {v : DataValue α}
    {indexRange : UaString} (hfits : Fits sv node) (hagrees : RankAgrees node)
    (hcounted : WriteCounted w node (.value v indexRange))
    (h : (writeValueAttribute w sv node v indexRange).run n = .ok ((node', retval), n')) :
    Keeps sv node node' := by
  have hsame : ∀ {r}, (node', retval) = (node, r) → Keeps sv node node' := by
    rintro r ⟨⟩
    exact ⟨.refl node, hfits, hagrees⟩
  obtain ⟨hempty, hright⟩ := hcounted
  unfold writeValueAttribute at h
  obtain ⟨parsed, n1, hparse, h⟩ := run_bind_ok.mp h
  unfold parseIndexRange at hparse
  rw [if_neg (by omega)] at hparse
  obtain rfl := (run_pure_ok.mp hparse).1
  dsimp only at h
  obtain ⟨⟨r1, value'⟩, n2, hcheck, h⟩ := run_bind_ok.mp h
  obtain heq | ⟨hgood, h⟩ := run_return_or h
  · exact hsame heq
  rw [not_not] at hgood
  dsimp only at hgood
  subst hgood
  obtain ⟨now, n3, -, h⟩ := run_bind_ok.mp h
  split at h
  · rename_i stored hstored hrange
    unfold writeValueAttributeWithoutRange at h
    obtain ⟨r2, n4, -, h⟩ := run_bind_ok.mp h
    obtain ⟨-, h⟩ | ⟨-, h⟩ := run_ite_cases h
    · obtain ⟨rfl, -⟩ := Prod.mk.inj (run_pure_ok.mp h).1
      refine ⟨sameNode_withAttributes node _, ?_, hagrees⟩
      intro u type hu hhas htype
      obtain rfl := ValueSource.data.inj hu
      apply ValueFits.copied
      have hhas' : v.hasValue = true :=
        (hasValue_withSourceTimestamp now { v with value := value' }).symm.trans hhas
      have htype' : value'.type = some type :=
        (congrArg UaVariant.type
          (value_withSourceTimestamp now { v with value := value' })).symm.trans htype
      unfold checkWrittenValue at hcheck
      rw [if_pos hhas'] at hcheck
      rw [value_withSourceTimestamp]
      cases hwritten : v.value.type with
      | none =>
        unfold typeCheckValue at hcheck
        rw [hwritten] at hcheck
        dsimp only at hcheck
        obtain heq | ⟨-, hcheck⟩ := run_return_or hcheck
        · rw [← (Prod.mk.inj heq).2, htype'] at hwritten
          cases hwritten
        · exact absurd (Prod.mk.inj (run_pure_ok.mp hcheck).1).1 (by decide)
      | some written =>
        obtain ⟨hconv, -, hdims, type', htype'', hallowed⟩ := typeCheckValue_good hwritten hcheck
        obtain rfl := Option.some.inj (htype'.symm.trans htype'')
        have hnew := valueFits_of_check (hright hhas' written hwritten) hconv hagrees hdims hallowed
        exact ⟨hnew.type, hnew.rank, hnew.lengths⟩
    · exact hsame (run_pure_ok.mp h).1
  · rename_i hrange
    cases hrange
  · obtain ⟨answered, n4, -, h⟩ := run_bind_ok.mp h
    split at h
    · exact hsame (run_pure_ok.mp h).1
    · exact hsame (run_pure_ok.mp h).1

theorem keeps_copyAttributeIntoNode {write : Write α}
    (hfits : Fits sv node) (hagrees : RankAgrees node)
    (hcounted : WriteCounted w node write)
    (h : (copyAttributeIntoNode w sv node write).run n = .ok ((node', retval), n')) :
    Keeps sv node node' := by
  cases write with
  | value v indexRange => exact keeps_writeValue hfits hagrees hcounted h
  | dataType dataType => exact keeps_writeDataType hfits hagrees h
  | valueRank valueRank => exact keeps_writeValueRank hfits hagrees hcounted h
  | arrayDimensions dims => exact keeps_writeArrayDimensions hfits hagrees hcounted h

/-- The server with the number of calls that the environment has answered. -/
abbrev WriteState (α : Type) := Server (VariableAttributes α) × Nat

/-- A write of an attribute, as a step of a run. -/
def writeStep (w : Outside α) (s : WriteState α) (event : NodeKey × Write α) :
    Except RangeFault (WriteState α × StatusCode) :=
  match (serviceWrite w s.1 event.1 event.2).run s.2 with
  | .error fault => .error fault
  | .ok ((sv, retval), n) => .ok ((sv, n), retval)

/-- The write goes to a node that does not exist, or is counted right there. -/
def WriteGuard (w : Outside α) (s : WriteState α) (event : NodeKey × Write α) : Prop :=
  ∀ node, s.1.get event.1 = some node → WriteCounted w node event.2

/-- Every variable has a value that fits, and as many array dimensions as its rank allows. -/
def AllFit (s : WriteState α) : Prop :=
  ∀ x node, s.1.get x = some node → Fits s.1 node ∧ RankAgrees node

theorem HasSupertype.congr {sv sv' : Server (VariableAttributes α)}
    (h : ∀ x, sv'.references x = sv.references x) : HasSupertype sv' = HasSupertype sv := by
  funext type super
  unfold HasSupertype
  rw [h]

theorem Fits.congr {sv sv' : Server (VariableAttributes α)}
    (h : ∀ x, sv'.references x = sv.references x) {node : VariableNode α} (hfits : Fits sv node) :
    Fits sv' node := by
  intro v type hv hhas htype
  have hold := hfits v type hv hhas htype
  refine ⟨?_, hold.rank, hold.lengths⟩
  unfold TypeAllowed
  rw [HasSupertype.congr h]
  exact hold.type

theorem allFit_writeStep {s s' : WriteState α} {event : NodeKey × Write α}
    (hinv : AllFit s) (hguard : WriteGuard w s event)
    (h : writeStep w s event = .ok (s', retval)) : AllFit s' := by
  obtain ⟨sv, n⟩ := s
  unfold writeStep at h
  split at h
  · cases h
  rename_i sv' r n' hrun
  obtain ⟨rfl, rfl⟩ := Prod.mk.inj (Except.ok.inj h)
  dsimp only at hrun
  unfold serviceWrite at hrun
  split at hrun
  · obtain ⟨rfl, -⟩ := Prod.mk.inj (run_pure_ok.mp hrun).1
    exact hinv
  rename_i node hget
  obtain heq | ⟨-, hrun⟩ := run_return_or hrun
  · obtain ⟨rfl, -⟩ := Prod.mk.inj heq
    exact hinv
  obtain ⟨⟨edited, r'⟩, n1, hwrite, hrun⟩ := run_bind_ok.mp hrun
  obtain ⟨rfl, -⟩ := Prod.mk.inj (run_pure_ok.mp hrun).1
  obtain ⟨hsame, hfits, hagrees⟩ := keeps_copyAttributeIntoNode (hinv event.1 node hget).1
    (hinv event.1 node hget).2 (hguard node hget) hwrite
  have hget' := @get_editNode_of_get _ sv node (fun _ => (edited, r')) event.1 hget hsame.nodeId
  have hreferences : ∀ x, (editNode sv event.1 fun _ => (edited, r')).1.references x =
      sv.references x := by
    intro x
    by_cases hx : x = event.1
    · have hedited := (hget' x).trans (if_pos hx)
      rw [references_of_get hedited, references_of_get (hx ▸ hget : sv.get x = some node)]
      exact hsame.references
    · exact references_congr ((hget' x).trans (if_neg hx))
  intro x node' hx
  dsimp only at hx
  rw [hget'] at hx
  split at hx
  · obtain rfl := Option.some.inj hx
    exact ⟨hfits.congr hreferences, hagrees⟩
  · exact ⟨(hinv x node' hx).1.congr hreferences, (hinv x node' hx).2⟩

/-- However attributes are written, values go on to fit their variables, as long as the dimensions
are counted right. -/
theorem values_fit {s s' : WriteState α} {events : List (NodeKey × Write α)}
    {replies : List StatusCode} (hstart : AllFit s)
    (hguard : Runs.Guarded (writeStep w) (WriteGuard w) s events)
    (hrun : Runs.run (writeStep w) s events = .ok (s', replies)) {x : NodeKey}
    {node : VariableNode α} (hget : s'.1.get x = some node) : Fits s'.1 node :=
  (Runs.invariant_of_guarded
    (fun _ _ _ _ hinv hstep hok => allFit_writeStep hinv hstep hok) events s s' replies hstart
    hguard hrun x node hget).1

/-- An environment in which every call succeeds, with numbers as elements. -/
def quietOutside : Outside Nat where
  types := []
  types_namespace := by simp
  depth := 100
  elements := numberElements
  readSource _ := none
  writeSource _ := none
  copyAttribute _ := StatusCode.good
  now _ := 0

def plainNode (nodeId : NodeKey) (nodeClass : NodeClass) (attributes : VariableAttributes Nat)
    (references : List ReferenceNode) : VariableNode Nat where
  nodeId := nodeId
  nodeClass := nodeClass
  browseName := ⟨0, []⟩
  displayName := ⟨[], []⟩
  isAbstract := false
  attributes := attributes
  references := references

def numbers (valueRank : Int) (arrayDimensions : List UInt32) (value : DataValue Nat) :
    VariableAttributes Nat :=
  ⟨typeKey (builtinType .uint32), valueRank, arrayDimensions, .data value⟩

def counters : NodeKey := ⟨1, .numeric 1⟩

def countersNode (attributes : VariableAttributes Nat) : VariableNode Nat :=
  plainNode counters .variable attributes [⟨hasTypeDefinition, false, .here ⟨1, .numeric 2⟩⟩]

/-- A variable and its type, which allows any rank. -/
def countersState (attributes : VariableAttributes Nat) (calls : Nat) : WriteState Nat :=
  (⟨[countersNode attributes,
      plainNode ⟨1, .numeric 2⟩ .variableType (numbers (-2) [] emptyDataValue) []], 2, 0⟩, calls)

theorem get_countersState (attributes : VariableAttributes Nat) (calls : Nat) :
    (countersState attributes calls).1.get counters = some (countersNode attributes) := rfl

theorem allFit_countersState (valueRank : Int) :
    AllFit (countersState (numbers valueRank [] emptyDataValue) 0) := by
  intro x node hget
  have hmem := List.mem_of_find?_eq_some hget
  have hattributes : node.attributes.value = .data emptyDataValue ∧
      node.attributes.arrayDimensions = [] := by
    simp only [countersState, List.mem_cons, List.not_mem_nil, or_false] at hmem
    obtain rfl | rfl := hmem
    · exact ⟨rfl, rfl⟩
    · exact ⟨rfl, rfl⟩
  refine ⟨fun v type hv hhas => ?_, fun hne => absurd hattributes.2 hne⟩
  rw [hattributes.1] at hv
  obtain rfl := ValueSource.data.inj hv
  cases hhas

/-- A written value without a status or a timestamp. -/
def bareValue (value : UaVariant Nat) : DataValue Nat :=
  { (emptyDataValue : DataValue Nat) with hasValue := true, value := value }

def storedValue (value : UaVariant Nat) : DataValue Nat := withSourceTimestamp 0 (bareValue value)

/-- Two numbers, with their length as an array dimension. -/
def pair : UaVariant Nat := ⟨some (builtinType .uint32), .array [1, 2] (by decide), .mem [2]⟩

def square : UaVariant Nat :=
  ⟨some (builtinType .uint32), .array [1, 2, 3, 4] (by decide), .mem [2, 2]⟩

/-- All four attributes of a variable for an array of two numbers. -/
def pairWrites : List (NodeKey × Write Nat) :=
  [(counters, .value (bareValue pair) .null), (counters, .arrayDimensions [2]),
    (counters, .valueRank 1), (counters, .dataType (typeKey (builtinType .uint32)))]

theorem values_fit_pair :
    ∃ s', Runs.run (writeStep quietOutside) (countersState (numbers (-3) [] emptyDataValue) 0)
        pairWrites =
        .ok (s', [StatusCode.good, StatusCode.good, StatusCode.good, StatusCode.good]) ∧
      Fits s'.1 (countersNode (numbers 1 [2] (storedValue pair))) := by
  have hwrites : Runs.run (writeStep quietOutside)
      (countersState (numbers (-3) [] emptyDataValue) 0) pairWrites =
      .ok (countersState (numbers 1 [2] (storedValue pair)) 4,
        [StatusCode.good, StatusCode.good, StatusCode.good, StatusCode.good]) := by
    decide +kernel
  refine ⟨_, hwrites, values_fit (allFit_countersState (-3)) ?_ hwrites (get_countersState _ _)⟩
  have hpair : CountedRight quietOutside (numbers (-3) [] emptyDataValue) pair :=
    ⟨nofun, fun h => absurd h (by decide), fun h => absurd rfl h⟩
  refine Runs.guarded_cons (countersState (numbers (-3) [] (storedValue pair)) 2) StatusCode.good ?_
    (by decide +kernel) ?_
  · rintro node ⟨⟩
    exact ⟨rfl, fun _ _ _ => hpair⟩
  refine Runs.guarded_cons (countersState (numbers (-3) [2] (storedValue pair)) 3)
    StatusCode.good ?_
    (by decide +kernel) ?_
  · rintro node ⟨⟩ v ⟨⟩ - hscalar
    cases hscalar
  refine Runs.guarded_cons (countersState (numbers 1 [2] (storedValue pair)) 3) StatusCode.good ?_
    (by decide +kernel) ?_
  · rintro node ⟨⟩ v ⟨⟩ - hempty
    cases hempty
  refine Runs.guarded_cons (countersState (numbers 1 [2] (storedValue pair)) 4) StatusCode.good ?_
    (by decide +kernel) trivial
  exact fun _ _ => trivial

/-- A square is written where an array of one dimension is asked for. -/
theorem square_fits_rank_one :
    AllFit (countersState (numbers 1 [] emptyDataValue) 0) ∧
      ∃ s', Runs.run (writeStep quietOutside) (countersState (numbers 1 [] emptyDataValue) 0)
          [(counters, .value (bareValue square) .null)] = .ok (s', [StatusCode.good]) ∧
        ∃ node, s'.1.get counters = some node ∧ ¬ Fits s'.1 node := by
  have hwrite : Runs.run (writeStep quietOutside) (countersState (numbers 1 [] emptyDataValue) 0)
      [(counters, .value (bareValue square) .null)] =
      .ok (countersState (numbers 1 [] (storedValue square)) 2, [StatusCode.good]) := by
    decide +kernel
  refine ⟨allFit_countersState 1, _, hwrite, _, get_countersState _ _, fun hfits => ?_⟩
  have hrank := (hfits (storedValue square) (builtinType .uint32) rfl rfl rfl).rank nofun
  have hlength : (valueDimensions (storedValue square).value).length = 2 := rfl
  rw [hlength] at hrank
  unfold RankAllows at hrank
  have hnumber : (countersNode (numbers 1 [] (storedValue square))).attributes.valueRank = 1 := rfl
  rw [hnumber] at hrank
  omega

end FactoryThing.Variables
