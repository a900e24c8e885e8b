import FactoryThing.Variables.TypeCheck

/-!
# The order of value ranks

A value rank stands for a set of numbers of dimensions, which `compatibleValueRankArrayDimensions`
decides (`src/server/ua_services_attribute.c:95-123`), and `compatibleValueRanks` compares two ranks
by a list of cases of its own (`:125-149`). The list is the inclusion of the sets, but for two kinds
of pairs: the rank -3 is not accepted against itself, and a rank below -3, which no number of
dimensions fits, is not accepted where every rank should be.
-/

namespace FactoryThing.Variables

/-- The numbers of dimensions that fit a value rank; zero is a scalar. -/
def rankDimensions (valueRank : Int) : Set Nat :=
  {dims | compatibleValueRankArrayDimensions valueRank dims = StatusCode.good}

theorem mem_rankDimensions {valueRank : Int} {dims : Nat} :
    dims ∈ rankDimensions valueRank ↔ RankAllows valueRank dims :=
  good_rankArrayDimensions_iff

theorem good_valueRanks_iff {r c : Int} : compatibleValueRanks r c = StatusCode.good ↔
    (c = -3 ∧ (r = -1 ∨ r = 1)) ∨ c = -2 ∨ (c = 0 ∧ 0 ≤ r) ∨ (c ≠ -3 ∧ r = c) := by
  have hbad : StatusCode.badTypeMismatch ≠ StatusCode.good := by decide
  unfold compatibleValueRanks
  repeat' split
  all_goals simp only [hbad, true_iff, false_iff]
  all_goals omega

theorem rankDimensions_subset_iff {r c : Int} : rankDimensions r ⊆ rankDimensions c ↔
    r < -3 ∨ r = c ∨ c = -2 ∨ (c = -3 ∧ (r = -1 ∨ r = 1)) ∨ (c = 0 ∧ 0 ≤ r) := by
  constructor
  · intro h
    have hmem {dims : Nat} (hallows : RankAllows r dims) : RankAllows c dims :=
      mem_rankDimensions.mp (h (mem_rankDimensions.mpr hallows))
    unfold RankAllows at hmem
    have hranks : r < -3 ∨ r = -3 ∨ r = -2 ∨ r = -1 ∨ r = 0 ∨ 1 ≤ r := by omega
    rcases hranks with hr | hr | hr | hr | hr | hr
    · exact .inl hr
    · have hzero := @hmem 0 (.inl ⟨hr, by omega⟩)
      have hone := @hmem 1 (.inl ⟨hr, by omega⟩)
      omega
    · have hzero := @hmem 0 (.inr (.inl hr))
      have htwo := @hmem 2 (.inr (.inl hr))
      omega
    · have hzero := @hmem 0 (.inr (.inr (.inl ⟨hr, rfl⟩)))
      omega
    · have hone := @hmem 1 (.inr (.inr (.inr (.inl ⟨hr, by omega⟩))))
      have hlong := @hmem (c.toNat + 2) (.inr (.inr (.inr (.inl ⟨hr, by omega⟩))))
      omega
    · have hself := @hmem r.toNat (.inr (.inr (.inr (.inr ⟨hr, by omega⟩))))
      omega
  · intro h dims hdims
    simp only [mem_rankDimensions, RankAllows] at hdims ⊢
    rcases h with h | rfl | h | ⟨h, h'⟩ | ⟨h, h'⟩
    · omega
    · exact hdims
    · omega
    · omega
    · omega

theorem rankDimensions_subset_of_good {r c : Int}
    (h : compatibleValueRanks r c = StatusCode.good) : rankDimensions r ⊆ rankDimensions c := by
  rw [good_valueRanks_iff] at h
  rw [rankDimensions_subset_iff]
  omega

theorem good_valueRanks_trans {a b c : Int} (hab : compatibleValueRanks a b = StatusCode.good)
    (hbc : compatibleValueRanks b c = StatusCode.good) :
    compatibleValueRanks a c = StatusCode.good := by
  rw [good_valueRanks_iff] at *
  omega

theorem good_valueRanks_refl_iff {r : Int} :
    compatibleValueRanks r r = StatusCode.good ↔ r ≠ -3 := by
  rw [good_valueRanks_iff]
  omega

/-- `compatibleValueRanks` accepts a rank against another one exactly when every number of
dimensions that fits the one fits the other, unless both are -3, or the one is below -3 and the
other neither -2 nor the same. What is accepted never admits more, acceptance is transitive, and
every rank but -3 is accepted against itself. -/
theorem valueRanks_compose_iff (r c : Int) :
    ((compatibleValueRanks r c = StatusCode.good ↔
        ∀ dims, compatibleValueRankArrayDimensions r dims = StatusCode.good →
          compatibleValueRankArrayDimensions c dims = StatusCode.good) ↔
      ¬ (r = -3 ∧ c = -3) ∧ ¬ (r < -3 ∧ c ≠ -2 ∧ c ≠ r)) ∧
    (compatibleValueRanks r c = StatusCode.good →
      ∀ dims, compatibleValueRankArrayDimensions r dims = StatusCode.good →
        compatibleValueRankArrayDimensions c dims = StatusCode.good) ∧
    (∀ b, compatibleValueRanks r b = StatusCode.good → compatibleValueRanks b c = StatusCode.good →
      compatibleValueRanks r c = StatusCode.good) ∧
    (compatibleValueRanks r r = StatusCode.good ↔ r ≠ -3) := by
  have hsubset : (∀ dims, compatibleValueRankArrayDimensions r dims = StatusCode.good →
      compatibleValueRankArrayDimensions c dims = StatusCode.good) ↔
      rankDimensions r ⊆ rankDimensions c := Iff.rfl
  refine ⟨?_, rankDimensions_subset_of_good, fun b => good_valueRanks_trans,
    good_valueRanks_refl_iff⟩
  rw [hsubset, rankDimensions_subset_iff, good_valueRanks_iff]
  omega

/-- A variable for scalars and arrays of one dimension is not accepted against a type for the
same. -/
theorem scalarOrOneDimension_refused : ¬ ∀ r c : Int,
    compatibleValueRanks r c = StatusCode.good ↔
      ∀ dims, compatibleValueRankArrayDimensions r dims = StatusCode.good →
        compatibleValueRankArrayDimensions c dims = StatusCode.good := by
  intro h
  have hrefl := (h (-3) (-3)).mpr fun _ hdims => hdims
  exact absurd hrefl (by decide)

end FactoryThing.Variables
