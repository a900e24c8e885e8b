import FactoryThing.Encoding.Congruence
import FactoryThing.Encoding.Returned

/-!
# The source of the decoder

`ExpandedNodeId_decodeBinary` masks its flags out of the encoding byte in the source, and leaves it
so (`src/ua_types_encoding_binary.c:766-788`). The second time the same bytes are decoded, the
namespace URI and the server index are no longer announced. No other function writes to the source,
and masking makes a byte smaller, so the source comes back as it was exactly when the decoder meets
no ExpandedNodeId with a flag.
-/

namespace FactoryThing.Encoding

open Stateful DecodeState

variable {env : DecodeEnv} {α β : Type}

/-- The byte at `pos` has a flag of an ExpandedNodeId. -/
def DecodeState.Flagged (s : DecodeState) : Prop :=
    ∃ encoding ∈ s.src[s.pos]?, encoding &&& 0xC0 ≠ 0

instance (s : DecodeState) : Decidable s.Flagged := by
  unfold DecodeState.Flagged
  infer_instance

/-- `ExpandedNodeId_decodeBinary`, with a fault in front of an encoding byte with a flag. -/
def unflaggedExpandedNodeId (env : DecodeEnv) : DecodeM (Decoded ExpandedNodeId) := do
  if (← get).Flagged then
    throw Fault.outOfBounds
  expandedNodeIdDecodeBinary env

/-- The jump table with `unflaggedExpandedNodeId` in it. -/
def unflaggedBuiltin (env : DecodeEnv) (decodeType : DataType → DecodeM (Decoded Value))
    (fuel : Nat) (b : Builtin) : DecodeM (Decoded Value) :=
  if b = .expandedNodeId then decodeMap .expandedNodeId (unflaggedExpandedNodeId env)
  else builtinDecodeBinary env decodeType fuel b

mutual

/-- The decoder of a type, with the fault for flagged ExpandedNodeIds. -/
def unflaggedEntry (env : DecodeEnv) (decodeType : DataType → DecodeM (Decoded Value))
    (fuel : Nat) :
    DataType → DecodeM (Decoded Value)
  | .builtin b => unflaggedBuiltin env decodeType fuel b
  | .enumeration _ _ => decodeMap .uint32 uint32DecodeBinary
  | .structure _ _ _ members =>
    decodeMap .structure (unflaggedInternal env decodeType fuel members)

def unflaggedInternal (env : DecodeEnv) (decodeType : DataType → DecodeM (Decoded Value))
    (fuel : Nat) : MemberTypes → DecodeM (Decoded Members)
  | .nil => return (StatusCode.good, .nil)
  | .scalar type rest =>
    decodeMap (fun (v, ms) => .scalar v ms)
      (decodeBoth (unflaggedEntry env decodeType fuel type)
        (unflaggedInternal env decodeType fuel rest))
  | .array type rest =>
    decodeMap (fun (a, ms) => .array a ms)
      (decodeBoth (arrayDecodeBinary env type (unflaggedEntry env decodeType fuel type))
        (unflaggedInternal env decodeType fuel rest))

end

def unflaggedJumpTable (env : DecodeEnv) : Nat → DataType → DecodeM (Decoded Value)
  | 0, _ => throw Fault.diverges
  | fuel + 1, type => unflaggedEntry env (unflaggedJumpTable env fuel) (fuel + 1) type

/-- The decoder meets no ExpandedNodeId with a flag: a decoder that faults in front of the first one
gets through. -/
def Unflagged (env : DecodeEnv) (fuel : Nat) (src : List UInt8) (offset : Nat) (type : DataType) :
    Prop :=
  ((unflaggedJumpTable env fuel type).run (decodeStart src offset)).isOk = true

def total (src : List UInt8) : Nat := (src.map UInt8.toNat).sum

/-- `d` either keeps the source, and `e` does the same; or it writes smaller bytes to the source,
and `e` faults. -/
def Detects (α : Type) (d e : DecodeM α) : Prop :=
  ∀ s, (e.run s = d.run s ∧ ∀ a s', d.run s = .ok (a, s') → s'.src = s.src) ∨
    ((∀ r, e.run s ≠ .ok r) ∧ ∀ a s', d.run s = .ok (a, s') → total s'.src < total s.src)

theorem Leaves.detects {d : DecodeM α} (h : Leaves d) : Detects α d d :=
  fun s => .inl ⟨rfl, fun a s' hrun => (h s a s' hrun).1⟩

theorem Detects.total_le {d e : DecodeM α} (h : Detects α d e) {s s' : DecodeState} {a : α}
    (hrun : d.run s = .ok (a, s')) : total s'.src ≤ total s.src := by
  obtain ⟨-, hkept⟩ | ⟨-, hless⟩ := h s
  · rw [hkept a s' hrun]
  · exact Nat.le_of_lt (hless a s' hrun)

theorem Detects.bind {d e : DecodeM α} {f g : α → DecodeM β} (hd : Detects α d e)
    (hf : ∀ a, Detects β (f a) (g a)) : Detects β (d >>= f) (e >>= g) := by
  intro s
  obtain ⟨hsame, hkept⟩ | ⟨hfault, hless⟩ := hd s
  · rcases hrun : d.run s with x | ⟨a, s1⟩
    · refine .inl ⟨?_, ?_⟩
      · rw [run_bind_error hrun, run_bind_error (hsame.trans hrun)]
      · intro b s' hok
        rw [run_bind_error hrun] at hok
        cases hok
    · rw [run_bind_of_ok hrun, run_bind_of_ok (hsame.trans hrun), ← hkept a s1 hrun]
      exact hf a s1
  · refine .inr ⟨?_, ?_⟩
    · rintro ⟨b, s'⟩ hok
      obtain ⟨a, s1, hrun, -⟩ := run_bind_ok.mp hok
      exact hfault _ hrun
    · intro b s' hok
      obtain ⟨a, s1, hrun, hrest⟩ := run_bind_ok.mp hok
      exact Nat.lt_of_le_of_lt ((hf a).total_le hrest) (hless a s1 hrun)

theorem congruent_detects (env : DecodeEnv) : Congruent env Detects where
  pure a := (leaves_pure a).detects
  fault x s := .inl ⟨rfl, nofun⟩
  bind := Detects.bind
  primitive size fromBytes zero := leaves_decodePrimitive.detects
  tooShort := by
    intro α size d d' e e' hd he s
    rw [run_get_bind, run_get_bind]
    split
    · exact hd s
    · exact he s
  allocate := leaves_allocate.detects
  jump s := .inl ⟨rfl, fun a s' hrun => by cases hrun; rfl⟩
  position h s := h s s rfl s
  seek p s := .inl ⟨rfl, fun a s' hrun => by cases hrun; rfl⟩

theorem mask_unflagged {encoding : UInt8} (h : encoding &&& 0xC0 = 0) :
    encoding &&& 0x3F = encoding := by
  have hall : ∀ n < 256, UInt8.ofNat n &&& 0xC0 = 0 → UInt8.ofNat n &&& 0x3F = UInt8.ofNat n := by
    decide +kernel
  have hbyte := hall encoding.toNat encoding.toNat_lt
  rw [UInt8.ofNat_toNat] at hbyte
  exact hbyte h

theorem mask_flagged {encoding : UInt8} (h : encoding &&& 0xC0 ≠ 0) :
    (encoding &&& 0x3F).toNat < encoding.toNat := by
  have hall : ∀ n < 256, UInt8.ofNat n &&& 0xC0 ≠ 0 →
      (UInt8.ofNat n &&& 0x3F).toNat < (UInt8.ofNat n).toNat := by decide +kernel
  have hbyte := hall encoding.toNat encoding.toNat_lt
  rw [UInt8.ofNat_toNat] at hbyte
  exact hbyte h

theorem total_set_lt {src : List UInt8} {i : Nat} {b b' : UInt8} (hb : src[i]? = some b)
    (hlt : b'.toNat < b.toNat) : total (src.set i b') < total src := by
  induction src generalizing i with
  | nil => cases hb
  | cons x src ih =>
    cases i with
    | zero =>
      cases hb
      exact Nat.add_lt_add_right hlt _
    | succ i => exact Nat.add_lt_add_left (ih hb) _

theorem run_maskEncodingByte_ok {s s' : DecodeState} {encoding : UInt8}
    (h : maskEncodingByte.run s = .ok (encoding, s')) :
    s.src[s.pos]? = some encoding ∧ s'.src = s.src.set s.pos (encoding &&& 0x3F) := by
  obtain ⟨bytes, s1, hread, hrest⟩ := run_bind_ok.mp h
  have hinside : s.start ≤ s.pos ∧ s.pos + 1 ≤ s.src.length := by
    by_contra hout
    unfold readBytes at hread
    rw [run_get_bind, dif_neg hout] at hread
    exact run_throw_ok.mp hread
  obtain ⟨bytes', hrun, hbytes⟩ := run_readBytes hinside.1 hinside.2
  cases hrun.symm.trans hread
  cases hrest
  refine ⟨?_, rfl⟩
  have hfirst : ((s.src.drop s.pos).take 1)[0]? = some bytes[0] := by
    rw [← hbytes, Vector.getElem?_toList, Vector.getElem?_eq_getElem]
  rw [List.getElem?_take_of_lt Nat.one_pos, List.getElem?_drop] at hfirst
  exact hfirst

theorem leaves_expandedNodeIdContent (env : DecodeEnv) (hasUri hasIndex : Bool) :
    Leaves (decodeBoth
      (decodeBoth (nodeIdDecodeBinary env) (decodeIf hasUri (stringDecodeBinary env) .null))
      (decodeIf hasIndex uint32DecodeBinary 0)) := by
  have hpart : ∀ {α : Type} {c : Bool} {d : DecodeM (Decoded α)} {zero : α}, Leaves d →
      Leaves (decodeIf c d zero) := by
    intro α c d zero h
    cases c with
    | false => exact leaves_pure _
    | true => exact h
  exact (leaves_nodeIdDecodeBinary.both (hpart leaves_stringDecodeBinary)).both
    (hpart leaves_decodePrimitive)

theorem src_of_expandedNodeId {s s' : DecodeState} {a : Decoded ExpandedNodeId}
    (h : (expandedNodeIdDecodeBinary env).run s = .ok (a, s')) :
    (s.src[s.pos]? = none ∧ s'.src = s.src) ∨
      ∃ encoding, s.src[s.pos]? = some encoding ∧
        s'.src = s.src.set s.pos (encoding &&& 0x3F) := by
  unfold expandedNodeIdDecodeBinary at h
  obtain ⟨hshort, hrest⟩ | ⟨-, hrest⟩ := run_ite_cases h
  · obtain ⟨-, rfl⟩ := run_pure_ok.mp hrest
    exact .inl ⟨List.getElem?_eq_none (Nat.le_of_lt_succ hshort), rfl⟩
  · obtain ⟨encoding, s1, hmask, hrest⟩ := run_bind_ok.mp hrest
    obtain ⟨hbyte, hsrc⟩ := run_maskEncodingByte_ok hmask
    obtain ⟨hkept, -⟩ := (leaves_expandedNodeIdContent env _ _).map _ _ _ hrest
    exact .inr ⟨encoding, hbyte, hkept.trans hsrc⟩

theorem detects_expandedNodeId (env : DecodeEnv) :
    Detects _ (expandedNodeIdDecodeBinary env) (unflaggedExpandedNodeId env) := by
  intro s
  unfold unflaggedExpandedNodeId
  rw [run_get_bind]
  by_cases hflagged : s.Flagged
  · obtain ⟨encoding, hbyte, hflag⟩ := hflagged
    refine .inr ⟨?_, ?_⟩
    · rw [if_pos ⟨encoding, hbyte, hflag⟩]
      nofun
    · intro a s' hrun
      obtain ⟨hnone, -⟩ | ⟨encoding', hbyte', hsrc⟩ := src_of_expandedNodeId hrun
      · rw [hnone] at hbyte
        cases hbyte
      · cases hbyte.symm.trans hbyte'
        rw [hsrc]
        exact total_set_lt hbyte (mask_flagged hflag)
  · refine .inl ⟨?_, ?_⟩
    · rw [if_neg hflagged]
    · intro a s' hrun
      obtain ⟨-, hsrc⟩ | ⟨encoding, hbyte, hsrc⟩ := src_of_expandedNodeId hrun
      · exact hsrc
      · have hplain : encoding &&& 0xC0 = 0 := by
          by_contra hflag
          exact hflagged ⟨encoding, hbyte, hflag⟩
        obtain ⟨hlt, rfl⟩ := List.getElem?_eq_some_iff.mp hbyte
        rw [hsrc, mask_unflagged hplain, List.set_getElem_self]

section JumpTable

variable {d e : DataType → DecodeM (Decoded Value)}

mutual

theorem detects_entry (hd : ∀ type, Detects _ (d type) (e type)) (fuel : Nat) : (type : DataType) →
    Detects _ (decodeBinaryEntry env d fuel type) (unflaggedEntry env e fuel type)
  | .builtin b => by
    rw [decodeBinaryEntry, unflaggedEntry, unflaggedBuiltin]
    split
    · next hb =>
      subst hb
      exact (congruent_detects env).map _ (detects_expandedNodeId env)
    · next hb => exact (congruent_detects env).builtin hd fuel hb
  | .enumeration _ _ => by
    rw [decodeBinaryEntry, unflaggedEntry]
    exact (congruent_detects env).map _ (congruent_detects env).uint32
  | .structure _ _ _ members => by
    rw [decodeBinaryEntry, unflaggedEntry]
    exact (congruent_detects env).map _ (detects_internal hd fuel members)

theorem detects_internal (hd : ∀ type, Detects _ (d type) (e type)) (fuel : Nat) :
    (members : MemberTypes) →
      Detects _ (decodeBinaryInternal env d fuel members) (unflaggedInternal env e fuel members)
  | .nil => by
    rw [decodeBinaryInternal, unflaggedInternal]
    exact (congruent_detects env).pure _
  | .scalar type rest => by
    rw [decodeBinaryInternal, unflaggedInternal]
    exact (congruent_detects env).map _ ((congruent_detects env).both (detects_entry hd fuel type)
      (detects_internal hd fuel rest))
  | .array type rest => by
    rw [decodeBinaryInternal, unflaggedInternal]
    exact (congruent_detects env).map _ ((congruent_detects env).both
      ((congruent_detects env).array type (detects_entry hd fuel type))
      (detects_internal hd fuel rest))

end

end JumpTable

theorem detects_jumpTable (fuel : Nat) (type : DataType) :
    Detects _ (decodeBinaryJumpTable env fuel type) (unflaggedJumpTable env fuel type) := by
  induction fuel generalizing type with
  | zero => exact (congruent_detects env).fault _
  | succ fuel ih => exact detects_entry ih (fuel + 1) type

/-- The source of a call of `UA_decodeBinary` that gave `result` is as it was, and to decode it
again from the same offset gives the same. -/
def SourceKept (env : DecodeEnv) (fuel : Nat) (src : List UInt8) (offset : Nat) (type : DataType)
    (result : DecodeResult) (s : DecodeState) : Prop :=
  s.src = src ∧ ∃ s', decodeBinary env fuel s.src offset type = .ok (result, s')

theorem run_of_decodeBinary {fuel : Nat} {src : List UInt8} {offset : Nat} {type : DataType}
    {result : DecodeResult} {s : DecodeState}
    (h : decodeBinary env fuel src offset type = .ok (result, s)) :
    ∃ dst, (decodeBinaryJumpTable env fuel type).run (decodeStart src offset) = .ok (dst, s) := by
  unfold decodeBinary at h
  rcases hrun : (decodeBinaryJumpTable env fuel type).run (decodeStart src offset)
    with x | ⟨⟨r, dst⟩, s1⟩
  · rw [hrun] at h
    cases h
  · rw [hrun] at h
    have hs : s1 = s := by
      replace h : (if r =
        StatusCode.good then (_ : Except Fault (DecodeResult × DecodeState)) else _)
        = _ := h
      split at h
      · cases h
        rfl
      · cases h
        rfl
    exact ⟨_, by rw [hs]⟩

/-- `UA_decodeBinary` returns, and it leaves the source as it was exactly when it meets no
ExpandedNodeId with a flag. -/
theorem sourceKept_iff (env : DecodeEnv) (fuel : Nat) (src : List UInt8) (offset : Nat)
    (type : DataType) :
    (offset ≤ src.length → src.length - offset < fuel →
        ∃ result s, decodeBinary env fuel src offset type = .ok (result, s)) ∧
      ∀ result s, decodeBinary env fuel src offset type = .ok (result, s) →
        (SourceKept env fuel src offset type result s ↔ Unflagged env fuel src offset type) := by
  constructor
  · intro hoffset hfuel
    obtain ⟨result, s, hrun, -⟩ := decodeBinary_safe env type hoffset hfuel
    exact ⟨result, s, hrun⟩
  · intro result s h
    obtain ⟨dst, hrun⟩ := run_of_decodeBinary h
    obtain ⟨hsame, hkept⟩ | ⟨hfault, hless⟩ :=
      @detects_jumpTable env fuel type (decodeStart src offset)
    · have hsrc : s.src = src := hkept dst s hrun
      constructor
      · intro _
        unfold Unflagged
        rw [hsame, hrun]
        rfl
      · intro _
        exact ⟨hsrc, s, by rw [hsrc, h]⟩
    · constructor
      · rintro ⟨hsrc, -⟩
        have hlt : total s.src < total src := hless dst s hrun
        rw [hsrc] at hlt
        exact absurd hlt (Nat.lt_irrefl _)
      · intro hunflagged
        unfold Unflagged at hunflagged
        rcases hout : (unflaggedJumpTable env fuel type).run (decodeStart src offset) with x | r
        · rw [hout] at hunflagged
          cases hunflagged
        · exact absurd hout (hfault r)

def remoteNodeId : List UInt8 := [0x40, 7, 5, 0, 0, 0]

/-- The second time the server index is not announced any more. -/
theorem remoteNodeId_forgets :
    ∃ result s, decodeBinary discoveryEnv 7 remoteNodeId 0 (.builtin .expandedNodeId) =
        .ok (result, s) ∧
      result.status = StatusCode.good ∧ result.offset = 6 ∧ s.src = [0, 7, 5, 0, 0, 0] ∧
      (∃ result' s', decodeBinary discoveryEnv 7 s.src 0 (.builtin .expandedNodeId) =
        .ok (result', s') ∧ result'.status = StatusCode.good ∧ result'.offset = 2) ∧
      ¬ SourceKept discoveryEnv 7 remoteNodeId 0 (.builtin .expandedNodeId) result s := by
  refine ⟨_, _, rfl, rfl, rfl, rfl, ⟨_, _, rfl, rfl, rfl⟩, ?_⟩
  rintro ⟨hsrc, -⟩
  exact absurd hsrc (by decide)

end FactoryThing.Encoding
