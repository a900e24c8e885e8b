import FactoryThing.Lib.Stateful
import FactoryThing.Variants.Ranges

/-!
# The string form of an index range

`UA_readNumber` (`src/ua_util.c:8-24`) and `UA_NumericRange_parseFromString`
(`src/server/ua_server_utils.c:11-83`).
-/

namespace FactoryThing.Variants

open Stateful

/-- The loop of `UA_readNumber`: the number, which wraps around, and how many digits it has. -/
def readNumber : List UInt8 → UInt32 → UInt32 × Nat
  | [], n => (n, 0)
  | c :: buf, n =>
    -- '0' to '9'
    if c < 48 ∨ c > 57 then (n, 0)
    else
      let (number, progress) := readNumber buf (n * 10 + (c - 48).toUInt32)
      (number, progress + 1)

/-- `readDimension` (`:11-32`); `none` stands for no progress. -/
def readDimension (buf : List UInt8) : Option (RangeDimension × Nat) :=
  let (min, progress) := readNumber buf 0
  if progress = 0 then none
  -- ':'
  else if buf.length ≤ progress + 1 ∨ buf[progress]? ≠ some 58 then some (⟨min, min⟩, progress)
  else
    let (max, progress2) := readNumber (buf.drop (progress + 1)) 0
    if progress2 = 0 then none
    else if min ≥ max then none
    else some (⟨min, max⟩, progress + 1 + progress2)

variable {α : Type} (env : Elements α)

/-- The array of dimensions grows by two when it is full (`:43-54`); `none` when there is no
memory. -/
def growDimensions (idx dimensionsMax : Nat) : RangeM (Option Nat) :=
  if idx ≥ dimensionsMax then do
    if ← malloc env then return some (dimensionsMax + 2) else return none
  else return some dimensionsMax

/-- The loop of `UA_NumericRange_parseFromString` (`:41-74`) over what is left of the string. -/
def parseDimensions :
    Nat → Nat → Nat → List UInt8 → RangeM (Except StatusCode NumericRange)
  | 0, _, _, _ => throw RangeFault.diverges
  | fuel + 1, idx, dimensionsMax, buf => do
    match ← growDimensions env idx dimensionsMax with
    | none => return .error StatusCode.badOutOfMemory
    | some dimensionsMax =>
      match readDimension buf with
      | none => return .error StatusCode.badIndexRangeInvalid
      | some (dim, progress) =>
        match buf.drop progress with
        | [] => return .ok [dim]
        | c :: rest =>
          -- ','
          if c ≠ 44 then return .error StatusCode.badIndexRangeInvalid
          match ← parseDimensions fuel (idx + 1) dimensionsMax rest with
          | .error retval => return .error retval
          | .ok dims => return .ok (dim :: dims)

/-- `UA_NumericRange_parseFromString`. Every round takes at least one byte. -/
def numericRangeParseFromString (str : UaString) : RangeM (Except StatusCode NumericRange) :=
  parseDimensions env (str.length + 1) 0 0 str.items

theorem gives_malloc (env : Elements α) : Gives (malloc env) fun _ => True :=
  fun _ => ⟨_, _, rfl, trivial⟩

variable {env}

theorem gives_parseDimensions {fuel idx dimensionsMax : Nat} {buf : List UInt8}
    (h : buf.length < fuel) :
    Gives (parseDimensions env fuel idx dimensionsMax buf) fun r =>
      ∀ retval, r = .error retval → retval ≠ StatusCode.good := by
  induction fuel generalizing idx dimensionsMax buf with
  | zero => exact absurd h (Nat.not_lt_zero _)
  | succ fuel ih =>
    have hgrown : Gives (growDimensions env idx dimensionsMax) fun _ => True := by
      unfold growDimensions
      split
      · refine (gives_malloc env).bind fun b _ => ?_
        split
        · exact gives_pure trivial
        · exact gives_pure trivial
      · exact gives_pure trivial
    refine hgrown.bind fun grown _ => ?_
    split
    · refine gives_pure ?_
      rintro _ ⟨⟩
      decide
    split
    · refine gives_pure ?_
      rintro _ ⟨⟩
      decide
    rename_i dim progress hdim
    split
    · refine gives_pure ?_
      rintro _ ⟨⟩
    rename_i c rest hrest
    split
    · refine gives_pure ?_
      rintro _ ⟨⟩
      decide
    have hlength : rest.length < fuel := by
      have hdrop := congrArg List.length hrest
      rw [List.length_drop, List.length_cons] at hdrop
      omega
    refine (ih hlength).bind fun r hr => ?_
    split
    · exact gives_pure fun retval heq => hr retval (by rw [← heq])
    · refine gives_pure ?_
      rintro _ ⟨⟩

theorem gives_numericRangeParse (str : UaString) :
    Gives (numericRangeParseFromString env str) fun r =>
      ∀ retval, r = .error retval → retval ≠ StatusCode.good :=
  gives_parseDimensions (Nat.lt_succ_self _)

end FactoryThing.Variants
