import FactoryThing.Variants.RangeGrammar

/-!
# The bytes the range parser reads

`UA_readNumber` (`src/ua_util.c:8-24`) and `UA_NumericRange_parseFromString`
(`src/server/ua_server_utils.c:11-83`) with every byte they read of the string. `NULL` is no buffer
of a number; `UA_readNumber` asserts that.
-/

namespace FactoryThing.Variants

open DecimalNumerals Stateful

def readByte (data : List UInt8) (i : Nat) : Except RangeFault UInt8 :=
  match data[i]? with
  | some c => .ok c
  | none => .error RangeFault.outOfBounds

/-- The loop of `UA_readNumber` over the bytes from `start` on; `left` is `buflen - progress`. -/
def readNumberLoop (data : List UInt8) (start : Nat) :
    Nat → Nat → UInt32 → Except RangeFault (UInt32 × Nat)
  | 0, progress, n => .ok (n, progress)
  | left + 1, progress, n => do
    let c ← readByte data (start + progress)
    -- '0' to '9'
    if c < 48 ∨ c > 57 then return (n, progress)
    else readNumberLoop data start left (progress + 1) (n * 10 + (c - 48).toUInt32)

/-- `UA_readNumber` on a part of a string. -/
def readNumberAt (str : UaString) (start buflen : Nat) : Except RangeFault (UInt32 × Nat) :=
  if str = .null ∧ start = 0 then .error RangeFault.nullDeref
  else readNumberLoop str.items start buflen 0 0

/-- `readDimension` (`:11-32`); `none` stands for no progress. -/
def readDimensionAt (str : UaString) (start buflen : Nat) :
    Except RangeFault (Option (RangeDimension × Nat)) := do
  let (min, progress) ← readNumberAt str start buflen
  if progress = 0 then return none
  else if buflen ≤ progress + 1 then return some (⟨min, min⟩, progress)
  else
    let c ← readByte str.items (start + progress)
    -- ':'
    if c ≠ 58 then return some (⟨min, min⟩, progress)
    else
      let (max, progress2) ← readNumberAt str (start + (progress + 1)) (buflen - (progress + 1))
      if progress2 = 0 then return none
      else if min ≥ max then return none
      else return some (⟨min, max⟩, progress + 1 + progress2)

section Parser

variable {α : Type} (env : Elements α) (str : UaString)

/-- The loop of `UA_NumericRange_parseFromString` (`:41-74`) from an offset on. -/
def parseDimensionsAt : Nat → Nat → Nat → Nat → RangeM (Except StatusCode NumericRange)
  | 0, _, _, _ => throw RangeFault.diverges
  | fuel + 1, idx, dimensionsMax, offset => do
    match ← growDimensions env idx dimensionsMax with
    | none => return .error StatusCode.badOutOfMemory
    | some dimensionsMax =>
      match ← liftM (readDimensionAt str offset (str.length - offset)) with
      | none => return .error StatusCode.badIndexRangeInvalid
      | some (dim, progress) =>
        if offset + progress ≥ str.length then return .ok [dim]
        else
          let c ← liftM (readByte str.items (offset + progress))
          -- ','
          if c ≠ 44 then return .error StatusCode.badIndexRangeInvalid
          else
            match ← parseDimensionsAt fuel (idx + 1) dimensionsMax (offset + progress + 1) with
            | .error retval => return .error retval
            | .ok dims => return .ok (dim :: dims)

/-- `UA_NumericRange_parseFromString`. Every round takes at least one byte. -/
def numericRangeParseAt : RangeM (Except StatusCode NumericRange) :=
  parseDimensionsAt env str (str.length + 1) 0 0 0

end Parser

theorem readByte_of_lt {data : List UInt8} {i : Nat} (h : i < data.length) :
    readByte data i = .ok data[i] := by
  rw [readByte, List.getElem?_eq_getElem h]

theorem readNumberLoop_eq {data : List UInt8} {start left progress : Nat}
    (h : start + progress + left = data.length) (n : UInt32) :
    readNumberLoop data start left progress n =
      .ok ((readNumber (data.drop (start + progress)) n).1,
        progress + (readNumber (data.drop (start + progress)) n).2) := by
  induction left generalizing progress n with
  | zero =>
    have hnil : data.drop (start + progress) = [] :=
      List.drop_eq_nil_iff.mpr (by omega)
    rw [hnil]
    rfl
  | succ left ih =>
    have hlt : start + progress < data.length := by omega
    rw [readNumberLoop, readByte_of_lt hlt, List.drop_eq_getElem_cons hlt, readNumber]
    by_cases hout : data[start + progress] < 48 ∨ data[start + progress] > 57
    · rw [if_pos hout]
      exact if_pos hout
    · rw [if_neg hout]
      refine (if_neg hout).trans ?_
      rw [ih (by omega), ← Nat.add_assoc]
      refine congrArg Except.ok (Prod.ext rfl ?_)
      dsimp only
      omega

theorem readNumberAt_eq {str : UaString} {start buflen : Nat} (hnull : str ≠ .null)
    (h : start + buflen = str.length) :
    readNumberAt str start buflen = .ok (readNumber (str.items.drop start) 0) := by
  rw [readNumberAt, if_neg fun hboth => hnull hboth.1,
    readNumberLoop_eq (by rw [Nat.add_zero]; exact h)]
  rw [Nat.add_zero, Nat.zero_add]

theorem readDimensionAt_eq {str : UaString} {start : Nat} (hnull : str ≠ .null)
    (h : start ≤ str.length) :
    readDimensionAt str start (str.length - start) =
      .ok (readDimension (str.items.drop start)) := by
  have hlength : (str.items.drop start).length = str.length - start := List.length_drop
  unfold readDimensionAt readDimension
  rw [readNumberAt_eq hnull (by omega)]
  dsimp only [bind, Except.bind]
  generalize hnumber : readNumber (str.items.drop start) 0 = number
  obtain ⟨min, progress⟩ := number
  by_cases hzero : progress = 0
  · rw [if_pos hzero, if_pos hzero]
    rfl
  rw [if_neg hzero, if_neg hzero, hlength]
  by_cases hshort : str.length - start ≤ progress + 1
  · rw [if_pos hshort, if_pos (Or.inl hshort)]
    rfl
  have hlt : start + progress < str.items.length := by
    have hitems : str.items.length = str.length := rfl
    omega
  have hget : (str.items.drop start)[progress]? = some str.items[start + progress] := by
    rw [List.getElem?_drop, List.getElem?_eq_getElem hlt]
  rw [if_neg hshort, readByte_of_lt hlt, hget]
  dsimp only
  by_cases hcolon : str.items[start + progress] ≠ 58
  · rw [if_pos hcolon, if_pos (Or.inr fun heq => hcolon (Option.some.inj heq))]
    rfl
  have hboth : ¬ (str.length - start ≤ progress + 1 ∨
      some str.items[start + progress] ≠ some 58) := by
    rw [not_or, not_not]
    exact ⟨hshort, congrArg some (not_not.mp hcolon)⟩
  rw [if_neg hcolon, if_neg hboth, readNumberAt_eq hnull (by omega), List.drop_drop]
  dsimp only
  split
  · rfl
  split
  · rfl
  · rfl

section Parser

variable {α : Type} {env : Elements α} {str : UaString}

theorem parseDimensionsAt_eq (hnull : str ≠ .null) {fuel idx dimensionsMax offset : Nat}
    (h : offset ≤ str.length) :
    parseDimensionsAt env str fuel idx dimensionsMax offset =
      parseDimensions env fuel idx dimensionsMax (str.items.drop offset) := by
  induction fuel generalizing idx dimensionsMax offset with
  | zero => rfl
  | succ fuel ih =>
    refine bind_congr fun grown => ?_
    cases grown with
    | none => rfl
    | some dimensionsMax =>
      rw [readDimensionAt_eq hnull h]
      cases hdim : readDimension (str.items.drop offset) with
      | none => rfl
      | some taken =>
        obtain ⟨dim, progress⟩ := taken
        refine (show _ = (if offset + progress ≥ str.length then _ else _ : RangeM _) from
          rfl).trans ?_
        dsimp only
        rw [List.drop_drop]
        by_cases hend : offset + progress ≥ str.length
        · rw [if_pos hend, List.drop_eq_nil_iff.mpr hend]
        · have hlt : offset + progress < str.items.length := not_le.mp hend
          rw [if_neg hend, readByte_of_lt hlt, List.drop_eq_getElem_cons hlt]
          refine (show _ = (if str.items[offset + progress] ≠ 44 then _ else _ : RangeM _) from
            rfl).trans ?_
          dsimp only
          by_cases hcomma : str.items[offset + progress] ≠ 44
          · rw [if_pos hcomma, if_pos hcomma]
          · rw [if_neg hcomma, if_neg hcomma]
            exact congrArg (· >>= _) (ih hlt)

theorem numericRangeParseAt_eq (hnull : str ≠ .null) :
    numericRangeParseAt env str = numericRangeParseFromString env str :=
  parseDimensionsAt_eq hnull (Nat.zero_le _)

end Parser

end FactoryThing.Variants
