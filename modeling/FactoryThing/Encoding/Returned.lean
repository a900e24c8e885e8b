import FactoryThing.Encoding.Readback

/-!
# What the decoder returns

A value that the decoder returned for some bytes, valid or not, has a regular form: strings are no
longer than an Int32 can say, a namespace URI stands in for the namespace index, picoseconds are
below their maximum. What is known of the value is that a run of the decoder ended with it
(`Yields`), and the induction follows the decoder.
-/

namespace FactoryThing.Encoding

open Stateful DecodeState

variable {α β : Type}

/-- Some run of `d` ends with `a`. -/
def Yields (d : DecodeM α) (a : α) : Prop := ∃ s s', d.run s = .ok (a, s')

/-- Some run of `d` succeeds with the destination `a`. -/
def Returns (d : DecodeM (Decoded α)) (a : α) : Prop := Yields d (StatusCode.good, a)

variable {f : α → DecodeM β} {x : DecodeM α} {a b : α} {d : DecodeM (Decoded α)} {zero : α}
  {n : NodeId} {s s' : DecodeState} {size : Nat} {fromBytes : Vector UInt8 size → α}
  {type : DataType}

theorem Yields.bind {b : β} (h : Yields (x >>= f) b) : ∃ a, Yields x a ∧ Yields (f a) b := by
  obtain ⟨s, s', hrun⟩ := h
  obtain ⟨a, s1, hx, hf⟩ := run_bind_ok.mp hrun
  exact ⟨a, ⟨s, s1, hx⟩, ⟨s1, s', hf⟩⟩

theorem Yields.of_pure (h : Yields (pure a) b) : b = a := by
  obtain ⟨s, s', hrun⟩ := h
  exact (run_pure_ok.mp hrun).1

theorem Returns.of_pure {r : StatusCode} (h : Returns (pure (r, a)) b) :
    r = StatusCode.good ∧ b = a := by
  have heq := Yields.of_pure h
  exact ⟨(Prod.ext_iff.mp heq).1.symm, (Prod.ext_iff.mp heq).2⟩

theorem Returns.guard {r : StatusCode}
    (h : Returns (if r ≠ StatusCode.good then pure (r, a) else d) b) :
    r = StatusCode.good ∧ Returns d b := by
  split at h
  · next hr => exact absurd (Returns.of_pure h).1 hr
  · next hr => exact ⟨not_not.mp hr, h⟩

theorem Returns.both {a : DecodeM (Decoded α)} {b : DecodeM (Decoded β)} {p : α × β}
    (h : Returns (decodeBoth a b) p) : Returns a p.1 ∧ Returns b p.2 := by
  obtain ⟨⟨r, x⟩, ha, h'⟩ := Yields.bind h
  obtain ⟨⟨r', y⟩, hb, hlast⟩ := Yields.bind h'
  obtain ⟨hstatus, rfl⟩ := Returns.of_pure hlast
  obtain ⟨rfl, rfl⟩ := or_eq_good.mp hstatus
  exact ⟨ha, hb⟩

theorem Returns.map {f : α → β} {b : β} (h : Returns (decodeMap f d) b) :
    ∃ a, Returns d a ∧ b = f a := by
  obtain ⟨⟨r, x⟩, hd, hlast⟩ := Yields.bind h
  obtain ⟨rfl, rfl⟩ := Returns.of_pure hlast
  exact ⟨x, hd, rfl⟩

theorem Returns.decodeIf {c : Bool} (h : Returns (decodeIf c d zero) a) :
    (c = true ∧ Returns d a) ∨ (c = false ∧ a = zero) := by
  cases c with
  | false => exact .inr ⟨rfl, (Returns.of_pure h).2⟩
  | true => exact .inl ⟨rfl, h⟩

theorem Returns.decodeField {c : Bool} {o : Option α} (h : Returns (decodeField c d) o) :
    ∀ x, o = some x → Returns d x := by
  rintro x rfl
  rcases h.decodeIf with ⟨-, hd⟩ | ⟨-, hnone⟩
  · obtain ⟨a, hret, heq⟩ := hd.map
    rw [Option.some.injEq] at heq
    exact heq ▸ hret
  · cases hnone

/-! ## Strings and identifiers -/

variable {env env' : DecodeEnv}

theorem length_le_of_yields_header {memSize length : Nat} {hpos : 0 < length}
    (h : Yields (arrayDecodeBinaryHeader env memSize) (.allocated length hpos)) :
    length ≤ int32Max := by
  obtain ⟨⟨r, v⟩, -, h⟩ := h.bind
  dsimp only at h
  split at h
  · cases h.of_pure
  split at h
  · cases h.of_pure
  · next hsmall =>
    split at h
    · cases h.of_pure
    · obtain ⟨s, -, h⟩ := h.bind
      split at h
      · cases h.of_pure
      · obtain ⟨success, -, h⟩ := h.bind
        split at h
        · have heq := h.of_pure
          rw [ArrayHeader.allocated.injEq] at heq
          rw [heq]
          exact Nat.le_of_lt_succ (Nat.not_le.mp fun hge => hsmall (UInt32.le_iff_toNat_le.mpr hge))
        · cases h.of_pure

theorem regularString_of_returns {s : UaString} (h : Returns (stringDecodeBinary env) s) :
    RegularString s := by
  obtain ⟨header, hheader, h⟩ := Yields.bind h
  cases header with
  | fails status =>
    obtain ⟨-, rfl⟩ := Returns.of_pure h
    exact Nat.zero_le _
  | empty sentinel =>
    obtain ⟨-, rfl⟩ := Returns.of_pure h
    cases sentinel with
    | false | true => exact Nat.zero_le _
  | allocated length length_pos =>
    have hle := length_le_of_yields_header hheader
    obtain ⟨⟨r, mem⟩, -, h⟩ := Yields.bind h
    cases mem with
    | none =>
      obtain ⟨-, rfl⟩ := Returns.of_pure h
      exact Nat.zero_le _
    | some mem =>
      obtain ⟨-, rfl⟩ := Returns.of_pure h
      have hlen : mem.toList.length = length := mem.length_toList
      show mem.toList.length ≤ int32Max
      rw [hlen]
      exact hle

theorem regularNodeId_of_content {encodingByte : UInt8}
    (h : Returns (nodeIdDecodeBinaryContent env encodingByte) n) : RegularNodeId n := by
  unfold nodeIdDecodeBinaryContent at h
  split at h
  · obtain ⟨x, -, rfl⟩ := h.map
    exact trivial
  split at h
  · obtain ⟨x, -, rfl⟩ := h.map
    exact trivial
  split at h
  · obtain ⟨x, -, rfl⟩ := h.map
    exact trivial
  split at h
  · obtain ⟨x, hx, rfl⟩ := h.map
    exact regularString_of_returns hx.both.2
  split at h
  · obtain ⟨x, -, rfl⟩ := h.map
    exact trivial
  split at h
  · obtain ⟨x, hx, rfl⟩ := h.map
    exact regularString_of_returns hx.both.2
  · exact absurd (Returns.of_pure h).1 (by decide)

theorem regularNodeId_of_returns (h : Returns (nodeIdDecodeBinary env) n) : RegularNodeId n := by
  obtain ⟨⟨r, encodingByte⟩, -, h⟩ := Yields.bind h
  exact regularNodeId_of_content (Returns.guard h).2

theorem regular_of_returns_expandedNodeId {n : ExpandedNodeId}
    (h : Returns (expandedNodeIdDecodeBinary env) n) :
    RegularNodeId n.nodeId ∧ RegularString n.namespaceUri ∧
      (isRegular n.namespaceUri = true → n.nodeId.namespaceIndex = 0) := by
  obtain ⟨s, -, h⟩ := Yields.bind h
  split at h
  · exact absurd (Returns.of_pure h).1 (by decide)
  obtain ⟨encoding, -, h⟩ := Yields.bind h
  obtain ⟨⟨⟨nodeId, uri⟩, index⟩, hparts, rfl⟩ := Returns.map h
  obtain ⟨⟨hnode, huri⟩, -⟩ := hparts.both.imp Returns.both id
  have hregular := regularNodeId_of_returns hnode
  refine ⟨?_, ?_, ?_⟩
  · dsimp only
    split
    · exact hregular
    · exact hregular
  · rcases huri.decodeIf with ⟨-, hs⟩ | ⟨-, hnull⟩
    · exact regularString_of_returns hs
    · dsimp only at hnull ⊢
      rw [hnull]
      exact Nat.zero_le _
  · intro hreg
    rcases huri.decodeIf with ⟨hflag, -⟩ | ⟨-, hnull⟩
    · dsimp only
      rw [if_pos hflag]
    · dsimp only at hnull hreg
      rw [hnull] at hreg
      cases hreg

theorem regular_of_returns_localizedText {t : LocalizedText}
    (h : Returns (localizedTextDecodeBinary env) t) :
    RegularString t.locale ∧ RegularString t.text := by
  have hnull : RegularString .null := Nat.zero_le _
  obtain ⟨⟨r, encoding⟩, -, h⟩ := Yields.bind h
  obtain ⟨⟨status, locale, text⟩, hparts, h⟩ := Yields.bind h
  obtain ⟨hstatus, rfl⟩ := Returns.of_pure h
  obtain ⟨-, rfl⟩ := or_eq_good.mp hstatus
  obtain ⟨hlocale, htext⟩ := Returns.both hparts
  constructor
  · rcases hlocale.decodeIf with ⟨-, hs⟩ | ⟨-, hzero⟩
    · exact regularString_of_returns hs
    · dsimp only at hzero ⊢
      rw [hzero]
      exact hnull
  · rcases htext.decodeIf with ⟨-, hs⟩ | ⟨-, hzero⟩
    · exact regularString_of_returns hs
    · dsimp only at hzero ⊢
      rw [hzero]
      exact hnull

theorem length_le_of_returns_dimensions {dims : List UInt32}
    (h : Returns (dimensionsDecodeBinary env) dims) : dims.length ≤ int32Max := by
  obtain ⟨header, hheader, h⟩ := Yields.bind h
  cases header with
  | fails status =>
    obtain ⟨-, rfl⟩ := Returns.of_pure h
    exact Nat.zero_le _
  | empty sentinel =>
    obtain ⟨-, rfl⟩ := Returns.of_pure h
    exact Nat.zero_le _
  | allocated length length_pos =>
    have hle := length_le_of_yields_header hheader
    obtain ⟨⟨r, mem⟩, -, h⟩ := Yields.bind h
    cases mem with
    | none =>
      obtain ⟨-, rfl⟩ := Returns.of_pure h
      exact Nat.zero_le _
    | some mem =>
      obtain ⟨-, rfl⟩ := Returns.of_pure h
      rw [List.length_map, List.length_range]
      exact hle

theorem le_of_returns_picoseconds {p : UInt16} (h : Returns picosecondsDecodeBinary p) :
    ¬ p > maxPicoSeconds := by
  obtain ⟨x, -, rfl⟩ := Returns.map h
  split
  · decide
  · next hle => exact hle

/-! ## Reading twice

To unwrap an ExtensionObject in a Variant its header is read, and read again when it is not
unwrapped. -/

/-- The same source, read from the same place. -/
structure DecodeState.SameInput (s t : DecodeState) : Prop where
  src_eq : t.src = s.src
  start_eq : t.start = s.start
  pos_eq : t.pos = s.pos

/-- `d` does not write to the source. -/
def Leaves (d : DecodeM α) : Prop :=
  ∀ s a s', d.run s = .ok (a, s') → s'.src = s.src ∧ s'.start = s.start

/-- What `d` does depends on nothing but its input. -/
def Fixed (d : DecodeM α) : Prop :=
  ∀ s t, s.SameInput t → ∀ a s', d.run s = .ok (a, s') →
    ∃ t', d.run t = .ok (a, t') ∧ s'.SameInput t'

theorem run_decodePrimitive_ok {a : Decoded α}
    (h : (decodePrimitive size fromBytes zero).run s = .ok (a, s')) :
    (s.tooShort size ∧ a = (StatusCode.badDecodingError, zero) ∧ s' = s) ∨
      (s.start ≤ s.pos ∧ ¬ s.tooShort size ∧ ∃ bytes : Vector UInt8 size,
        bytes.toList = (s.src.drop s.pos).take size ∧ a = (StatusCode.good, fromBytes bytes) ∧
          s' = { s with pos := s.pos + size }) := by
  by_cases hshort : s.tooShort size
  · rw [run_decodePrimitive_short hshort] at h
    cases h
    exact .inl ⟨hshort, rfl, rfl⟩
  · have hstart : s.start ≤ s.pos := by
      unfold decodePrimitive at h
      rw [run_get_bind, if_neg hshort] at h
      obtain ⟨bytes, s1, hread, -⟩ := run_bind_ok.mp h
      unfold readBytes at hread
      rw [run_get_bind] at hread
      by_contra hlt
      rw [dif_neg fun hboth => hlt hboth.1] at hread
      exact run_throw_ok.mp hread
    obtain ⟨bytes, hbytes, hrun⟩ := @run_decodePrimitive _ _ fromBytes zero _
      hstart (Nat.not_lt.mp hshort)
    rw [hrun] at h
    cases h
    exact .inr ⟨hstart, hshort, bytes, hbytes, rfl, rfl⟩

theorem leaves_pure (a : α) : Leaves (pure a : DecodeM α) := by
  intro s b s' h
  obtain ⟨-, rfl⟩ := run_pure_ok.mp h
  exact ⟨rfl, rfl⟩

theorem Leaves.bind (hx : Leaves x) (hf : ∀ a, Leaves (f a)) : Leaves (x >>= f) := by
  intro s b s' h
  obtain ⟨a, s1, hrun, hrun'⟩ := run_bind_ok.mp h
  obtain ⟨hsrc, hstart⟩ := hx s a s1 hrun
  obtain ⟨hsrc', hstart'⟩ := hf a s1 b s' hrun'
  exact ⟨hsrc'.trans hsrc, hstart'.trans hstart⟩

theorem Leaves.ite {c : Prop} [Decidable c] {d e : DecodeM α} (hd : Leaves d) (he : Leaves e) :
    Leaves (if c then d else e) := by
  split
  · exact hd
  · exact he

theorem Leaves.both {a : DecodeM (Decoded α)} {b : DecodeM (Decoded β)} (ha : Leaves a)
    (hb : Leaves b) : Leaves (decodeBoth a b) :=
  ha.bind fun _ => hb.bind fun _ => leaves_pure _

theorem Leaves.map {f : α → β} (hd : Leaves d) : Leaves (decodeMap f d) :=
  hd.bind fun _ => leaves_pure _

theorem leaves_get : Leaves (get : DecodeM DecodeState) := by
  intro s a s' h
  obtain ⟨-, rfl⟩ := run_get_ok.mp h
  exact ⟨rfl, rfl⟩

theorem leaves_allocate : Leaves (allocate env) := by
  intro s a s' h
  cases h
  exact ⟨rfl, rfl⟩

theorem leaves_decodePrimitive : Leaves (decodePrimitive size fromBytes zero) := by
  intro s a s' h
  rcases run_decodePrimitive_ok h with ⟨-, -, rfl⟩ | ⟨-, -, -, -, -, rfl⟩
  · exact ⟨rfl, rfl⟩
  · exact ⟨rfl, rfl⟩

theorem leaves_arrayDecodeBinaryHeader {memSize : Nat} :
    Leaves (arrayDecodeBinaryHeader env memSize) := by
  apply Leaves.bind leaves_decodePrimitive
  rintro ⟨r, signedLength⟩
  apply Leaves.ite (leaves_pure _)
  apply Leaves.ite (leaves_pure _)
  split
  · exact leaves_pure _
  · apply leaves_get.bind
    intro s
    apply Leaves.ite (leaves_pure _)
    apply leaves_allocate.bind
    intro success
    exact Leaves.ite (leaves_pure _) (leaves_pure _)

theorem leaves_stringDecodeBinary : Leaves (stringDecodeBinary env) := by
  apply leaves_arrayDecodeBinaryHeader.bind
  intro header
  cases header with
  | fails status => exact leaves_pure _
  | empty sentinel => exact leaves_pure _
  | allocated length length_pos =>
    apply Leaves.bind leaves_decodePrimitive
    rintro ⟨r, mem⟩
    cases mem with
    | none => exact leaves_pure _
    | some mem => exact leaves_pure _

theorem leaves_guidDecodeBinary : Leaves guidDecodeBinary := by
  have hhead : Leaves (decodeBoth (decodeBoth uint32DecodeBinary uint16DecodeBinary)
      uint16DecodeBinary) :=
    Leaves.both (Leaves.both leaves_decodePrimitive leaves_decodePrimitive) leaves_decodePrimitive
  apply hhead.bind
  rintro ⟨r, x⟩
  apply Leaves.bind leaves_decodePrimitive
  rintro ⟨status, data4⟩
  exact Leaves.ite (leaves_pure _) (leaves_pure _)

theorem leaves_nodeIdDecodeBinary : Leaves (nodeIdDecodeBinary env) := by
  apply Leaves.bind leaves_decodePrimitive
  rintro ⟨r, encodingByte⟩
  apply Leaves.ite (leaves_pure _)
  have huint16 : Leaves uint16DecodeBinary := leaves_decodePrimitive
  have hbyte : Leaves byteDecodeBinary := leaves_decodePrimitive
  apply Leaves.ite hbyte.map
  apply Leaves.ite (hbyte.both huint16).map
  apply Leaves.ite (huint16.both leaves_decodePrimitive).map
  apply Leaves.ite (huint16.both leaves_stringDecodeBinary).map
  apply Leaves.ite (huint16.both leaves_guidDecodeBinary).map
  exact Leaves.ite (huint16.both leaves_stringDecodeBinary).map (leaves_pure _)

theorem fixed_decodePrimitive : Fixed (decodePrimitive size fromBytes zero) := by
  rintro s t ⟨hsrc, hstart, hpos⟩ a s' h
  have hiff : t.tooShort size ↔ s.tooShort size := by
    unfold DecodeState.tooShort
    rw [hsrc, hpos]
  rcases run_decodePrimitive_ok h with ⟨hshort, rfl, rfl⟩ | ⟨hle, hshort, bytes, hbytes, rfl, rfl⟩
  · exact ⟨t, run_decodePrimitive_short (hiff.mpr hshort), hsrc, hstart, hpos⟩
  · obtain ⟨bytes', hbytes', hrun⟩ :=
      @run_decodePrimitive _ _ fromBytes zero t (by rw [hstart, hpos]; exact hle)
      (Nat.not_lt.mp fun hlt => hshort (hiff.mp hlt))
    have heq : bytes' = bytes := by
      apply Vector.toList_inj.mp
      rw [hbytes', hbytes, hsrc, hpos]
    rw [heq] at hrun
    exact ⟨_, hrun, hsrc, hstart, congrArg (· + size) hpos⟩

theorem fixed_pure (a : α) : Fixed (pure a : DecodeM α) := by
  intro s t hst b s' h
  obtain ⟨rfl, rfl⟩ := run_pure_ok.mp h
  exact ⟨t, rfl, hst⟩

theorem Fixed.bind (hx : Fixed x) (hf : ∀ a, Fixed (f a)) : Fixed (x >>= f) := by
  intro s t hst b s' h
  obtain ⟨a, s1, hrun, hrun'⟩ := run_bind_ok.mp h
  obtain ⟨t1, ht1, hst1⟩ := hx s t hst a s1 hrun
  obtain ⟨t', ht', hst'⟩ := hf a s1 t1 hst1 b s' hrun'
  refine ⟨t', ?_, hst'⟩
  rw [run_bind_of_ok ht1]
  exact ht'

theorem Fixed.both {a : DecodeM (Decoded α)} {b : DecodeM (Decoded β)} (ha : Fixed a)
    (hb : Fixed b) : Fixed (decodeBoth a b) :=
  ha.bind fun _ => hb.bind fun _ => fixed_pure _

theorem Fixed.map {f : α → β} (hd : Fixed d) : Fixed (decodeMap f d) :=
  hd.bind fun _ => fixed_pure _

theorem run_nodeIdDecodeBinary_again {t : DecodeState}
    (h : (nodeIdDecodeBinary env).run s = .ok ((StatusCode.good, n), s'))
    (hnum : isNumeric n = true) (hst : s.SameInput t) :
    ∃ t', (nodeIdDecodeBinary env).run t = .ok ((StatusCode.good, n), t') ∧ s'.SameInput t' := by
  have hbyte : Fixed byteDecodeBinary := fixed_decodePrimitive
  have huint16 : Fixed uint16DecodeBinary := fixed_decodePrimitive
  obtain ⟨⟨r, encodingByte⟩, s1, hrun, h⟩ := run_bind_ok.mp h
  obtain ⟨t1, ht1, hst1⟩ := hbyte s t hst _ s1 hrun
  obtain ⟨rfl, -⟩ := Returns.guard (show Returns _ n from ⟨s1, s', h⟩)
  dsimp only at h
  rw [if_neg (not_not_intro rfl)] at h
  unfold nodeIdDecodeBinary
  rw [run_bind_of_ok ht1]
  dsimp only
  unfold nodeIdDecodeBinaryContent at h ⊢
  split at h
  · next hbyte0 =>
    rw [if_pos hbyte0]
    exact hbyte.map s1 t1 hst1 _ s' h
  split at h
  · next hbyte0 hbyte1 =>
    rw [if_neg hbyte0, if_pos hbyte1]
    exact (hbyte.both huint16).map s1 t1 hst1 _ s' h
  split at h
  · next hbyte0 hbyte1 hbyte2 =>
    rw [if_neg hbyte0, if_neg hbyte1, if_pos hbyte2]
    exact (huint16.both fixed_decodePrimitive).map s1 t1 hst1 _ s' h
  -- no other encoding byte comes with a number
  split at h
  · obtain ⟨x, -, rfl⟩ := Returns.map ⟨s1, s', h⟩
    cases hnum
  split at h
  · obtain ⟨x, -, rfl⟩ := Returns.map ⟨s1, s', h⟩
    cases hnum
  split at h
  · obtain ⟨x, -, rfl⟩ := Returns.map ⟨s1, s', h⟩
    cases hnum
  · cases h

theorem isNumeric_of_find_some {tables : TypeTables} {typeId : NodeId}
    (h : findDataTypeByBinary tables typeId = some type) : isNumeric typeId = true := by
  obtain ⟨ns, ident⟩ := typeId
  cases ident with
  | numeric n => rfl
  | string s => cases h
  | guid g => cases h
  | byteString s => cases h

/-- At `s` stands the header of a structure of a known type. -/
def Announces (env : DecodeEnv) (s : DecodeState) (type : DataType) : Prop :=
  ∃ typeId s1 s2, (nodeIdDecodeBinary env).run s = .ok ((StatusCode.good, typeId), s1) ∧
    byteDecodeBinary.run s1 = .ok ((StatusCode.good, 1), s2) ∧
    findDataTypeByBinary env.toTypeTables typeId = some type

theorem Announces.again {t : DecodeState} (h : Announces env s type) (hst : s.SameInput t) :
    Announces env t type := by
  obtain ⟨typeId, s1, s2, hnode, hbyte, hfind⟩ := h
  obtain ⟨t1, ht1, hst1⟩ := run_nodeIdDecodeBinary_again hnode (isNumeric_of_find_some hfind) hst
  obtain ⟨t2, ht2, -⟩ := fixed_decodePrimitive s1 t1 hst1 _ s2 hbyte
  exact ⟨typeId, t1, t2, ht1, ht2, hfind⟩

/-- An ExtensionObject that the decoder keeps encoded. -/
def KeptEncoded (tables : TypeTables) (typeId : NodeId) (body : EncodedBody) : Prop :=
  isNumeric typeId = true ∧
    match body with
    | .byteString _ => findDataTypeByBinary tables typeId = none
    | _ => True

def RegularBody : EncodedBody → Prop
  | .noBody => True
  | .byteString s => RegularString s
  | .xml s => RegularString s

theorem extensionObject_cases {decodeType : DataType → DecodeM (Decoded Value)} {v : Value}
    (h : (extensionObjectDecodeBinary env decodeType).run s = .ok ((StatusCode.good, v), s')) :
    (∃ typeId body, v = .encodedObject typeId body ∧
        KeptEncoded env.toTypeTables typeId body ∧ RegularBody body) ∨
      ∃ type data, v = .decodedObject type.info data ∧ Announces env s type ∧
        Returns (decodeType type) data := by
  obtain ⟨⟨r, typeId, encoding⟩, s1, hheader, h⟩ := run_bind_ok.mp h
  obtain ⟨⟨r1, _⟩, s2, hnode, hheader⟩ := run_bind_ok.mp hheader
  obtain ⟨⟨r2, _⟩, s3, hbyte, hheader⟩ := run_bind_ok.mp hheader
  obtain ⟨heq, rfl⟩ := run_pure_ok.mp hheader
  cases heq
  dsimp only at h
  split at h
  · cases h
  next hnum =>
  rw [Bool.not_eq_false] at hnum
  split at h
  · next hbad => exact absurd (Returns.of_pure ⟨_, _, h⟩).1 hbad
  next hgood =>
  obtain ⟨rfl, rfl⟩ := or_eq_good.mp (not_not.mp hgood)
  split at h
  · next hone =>
    subst hone
    unfold extensionObjectDecodeBinaryContent at h
    cases hfind : findDataTypeByBinary env.toTypeTables typeId with
    | none =>
      rw [hfind] at h
      obtain ⟨body, hbody, rfl⟩ := Returns.map ⟨_, _, h⟩
      exact .inl ⟨typeId, .byteString body, rfl, ⟨hnum, hfind⟩, regularString_of_returns hbody⟩
    | some type =>
      rw [hfind] at h
      obtain ⟨success, s4, -, h⟩ := run_bind_ok.mp h
      split at h
      · obtain ⟨-, s5, -, h⟩ := run_bind_ok.mp h
        obtain ⟨data, hdata, rfl⟩ := Returns.map ⟨_, _, h⟩
        exact .inr ⟨type, data, rfl, ⟨typeId, s2, s1, hnode, hbyte, hfind⟩, hdata⟩
      · cases h
  split at h
  · cases h
    exact .inl ⟨typeId, .noBody, rfl, ⟨hnum, trivial⟩, trivial⟩
  split at h
  · obtain ⟨body, hbody, rfl⟩ := Returns.map ⟨_, _, h⟩
    exact .inl ⟨typeId, .xml body, rfl, ⟨hnum, trivial⟩, regularString_of_returns hbody⟩
  · cases h

theorem result_good {x : Except Fault (Decoded Value × DecodeState)} {offset p : Nat}
    {dst zero : Value} :
    (do
      let ((retval, dst), s) ← x
      if retval = StatusCode.good then
        return ((⟨retval, s.pos, dst⟩ : DecodeResult), s)
      else
        return (⟨retval, offset, zero⟩, s)) =
        .ok (⟨StatusCode.good, p, dst⟩, s) ↔
      x = .ok ((StatusCode.good, dst), s) ∧ p = s.pos := by
  rcases x with e | ⟨⟨r, v⟩, s'⟩
  · constructor
    · nofun
    · rintro ⟨h, -⟩
      cases h
  show (if r = StatusCode.good then _ else _) = _ ↔ _
  split
  · next hr =>
    constructor
    · intro h
      cases h
      exact ⟨rfl, rfl⟩
    · rintro ⟨h, rfl⟩
      cases h
      rfl
  · next hr =>
    constructor
    · intro h
      cases h
      exact absurd rfl hr
    · rintro ⟨h, rfl⟩
      cases h
      exact absurd rfl hr

theorem decodeBinary_good {fuel : Nat} {src : List UInt8} {offset p : Nat} {dst : Value} :
    decodeBinary env fuel src offset type = .ok (⟨StatusCode.good, p, dst⟩, s) ↔
      (decodeBinaryJumpTable env fuel type).run (decodeStart src offset) =
        .ok ((StatusCode.good, dst), s) ∧ p = s.pos :=
  result_good

end FactoryThing.Encoding
