import FactoryThing.Encoding.Congruence
import FactoryThing.Encoding.Extents
import FactoryThing.Encoding.Returned

/-!
# The announced length of a wrapped body

Both places that decode the body of a wrapped structure jump over its length field, with a TODO to
check it (`src/ua_types_encoding_binary.c:913-914`, `1067-1068`). So the content says by itself how
far it goes, whatever was announced. Here is the decoder with the two checks in place, as the
comments ask for them, and what the functions in which nothing is nested read: just the extent of
the value they return.
-/

namespace FactoryThing.Encoding

open Stateful DecodeState

variable {env : DecodeEnv} {α β : Type}

variable {s s' : DecodeState}

/-- The length field at `p`, an Int32, as far as it and the bytes that it announces lie within the
source. -/
def announcedLength (src : List UInt8) (p : Nat) : Option Nat :=
  let length := LittleEndian.toNat ((src.drop p).take 4)
  if p + 4 + length ≤ src.length ∧ length ≤ int32Max then some length else none

/-- The content of a value. A pending jump says that it is the body of a wrapped structure, and then
a length field that does not announce what the content has consumed is an error. -/
def boundedContent (content : DecodeM (Decoded Value)) : DecodeM (Decoded Value) := do
  let s ← get
  match s.jumps.getLast? with
  | none => content
  | some p =>
    set { s with jumps := [] }
    let (retval, v) ← content
    let pos := (← get).pos
    if retval = StatusCode.good ∧ announcedLength s.src p ≠ some (pos - s.pos) then
      return (StatusCode.badDecodingError, v)
    else
      return (retval, v)

/-- `decodeBinaryJumpTable` with the check. The list of jumps holds the pending one only. -/
def boundedJumpTable (env : DecodeEnv) : Nat → DataType → DecodeM (Decoded Value)
  | 0, _ => throw Fault.diverges
  | fuel + 1, type =>
    boundedContent (decodeBinaryEntry env (boundedJumpTable env fuel) (fuel + 1) type)

/-- `UA_decodeBinary` with the check: an error is reported when the content of a wrapped structure
needs more or fewer bytes than announced. -/
def boundedDecodeBinary (env : DecodeEnv) (fuel : Nat) (src : List UInt8) (offset : Nat)
    (type : DataType) : Except Fault (DecodeResult × DecodeState) := do
  let ((retval, dst), s) ← (boundedJumpTable env fuel type).run (decodeStart src offset)
  if retval = StatusCode.good then
    return (⟨retval, s.pos, dst⟩, s)
  else
    return (⟨retval, offset, zeroValue type⟩, s)

/-- Every body in the value of the type that stands at the offset takes the bytes that are announced
for it, and is all there. -/
def LengthsTrue (tables : TypeTables) (fuel : Nat) (src : List UInt8) (offset : Nat)
    (type : DataType) : Prop :=
  (Extent.value tables fuel type (src.drop offset)).isSome = true

/-! ## Functions that do not look at the jumps -/

/-- The same but for the jumps. -/
structure DecodeState.Similar (s t : DecodeState) : Prop where
  src_eq : t.src = s.src
  start_eq : t.start = s.start
  pos_eq : t.pos = s.pos
  allocations_eq : t.allocations = s.allocations

theorem DecodeState.Similar.tooShort {s t : DecodeState} (h : s.Similar t) (size : Nat) :
    t.tooShort size ↔ s.tooShort size := by
  unfold DecodeState.tooShort
  rw [h.src_eq, h.pos_eq]

/-- `e` does what `d` does and leaves the jumps alone. -/
def Neutral (α : Type) (d e : DecodeM α) : Prop :=
  ∀ s t : DecodeState, s.Similar t → ∀ a s', d.run s = .ok (a, s') →
    ∃ t', e.run t = .ok (a, t') ∧ s'.Similar t' ∧ t'.jumps = t.jumps

theorem Neutral.bind {d e : DecodeM α} {f g : α → DecodeM β} (hd : Neutral α d e)
    (hf : ∀ a, Neutral β (f a) (g a)) : Neutral β (d >>= f) (e >>= g) := by
  intro s t hst b s' hrun
  obtain ⟨a, s1, hrun1, hrest⟩ := run_bind_ok.mp hrun
  obtain ⟨t1, ht1, hst1, hjumps1⟩ := hd s t hst a s1 hrun1
  obtain ⟨t', ht', hst', hjumps'⟩ := hf a s1 t1 hst1 b s' hrest
  exact ⟨t', by rw [run_bind_of_ok ht1, ht'], hst', hjumps'.trans hjumps1⟩

theorem neutral_decodePrimitive (size : Nat) (fromBytes : Vector UInt8 size → α) (zero : α) :
    Neutral _ (decodePrimitive size fromBytes zero) (decodePrimitive size fromBytes zero) := by
  intro s t hst a s' hrun
  rcases run_decodePrimitive_ok hrun with
    ⟨hshort, rfl, rfl⟩ | ⟨hle, hshort, bytes, hbytes, rfl, rfl⟩
  · exact ⟨t, run_decodePrimitive_short ((hst.tooShort size).mpr hshort), hst, rfl⟩
  · obtain ⟨bytes', hbytes', hrun'⟩ :=
      @run_decodePrimitive _ _ fromBytes zero t (by rw [hst.start_eq, hst.pos_eq]; exact hle)
        (Nat.not_lt.mp fun hlt => hshort ((hst.tooShort size).mp hlt))
    have heq : bytes' = bytes := by
      apply Vector.toList_inj.mp
      rw [hbytes', hbytes, hst.src_eq, hst.pos_eq]
    rw [heq] at hrun'
    exact ⟨_, hrun', ⟨hst.src_eq, hst.start_eq, congrArg (· + size) hst.pos_eq, hst.allocations_eq⟩,
      rfl⟩

theorem neutral_fault {α : Type} (x : Fault) : Neutral α (throw x) (throw x) := by
  intro s t _ b s' hrun
  cases hrun

theorem congruentLeaf_neutral (env : DecodeEnv) : CongruentLeaf env Neutral where
  pure a s t hst b s' hrun := by
    obtain ⟨rfl, rfl⟩ := run_pure_ok.mp hrun
    exact ⟨t, rfl, hst, rfl⟩
  bind := Neutral.bind
  primitive := neutral_decodePrimitive
  tooShort := by
    intro α size d d' e e' hd he s t hst a s' hrun
    rw [run_get_bind] at hrun ⊢
    obtain ⟨hshort, hrun⟩ | ⟨hlong, hrun⟩ := run_ite_cases hrun
    · rw [if_pos ((hst.tooShort size).mpr hshort)]
      exact hd s t hst a s' hrun
    · rw [if_neg (mt (hst.tooShort size).mp hlong)]
      exact he s t hst a s' hrun
  allocate s t hst a s' hrun := by
    cases hrun
    refine ⟨{ t with allocations := t.allocations + 1 }, ?_, ⟨hst.src_eq, hst.start_eq, hst.pos_eq,
      congrArg (· + 1) hst.allocations_eq⟩, rfl⟩
    rw [← hst.allocations_eq]
    rfl

theorem maskEncodingByte_cases {encoding : UInt8}
    (h : maskEncodingByte.run s = .ok (encoding, s')) :
    s.start ≤ s.pos ∧ s.pos + 1 ≤ s.src.length ∧
      (s.src.drop s.pos).take 1 = [encoding] ∧
        s' = { s with src := s.src.set s.pos (encoding &&& 0x3F) } := by
  obtain ⟨bytes, s1, hread, hrest⟩ := run_bind_ok.mp h
  have hinside : s.start ≤ s.pos ∧ s.pos + 1 ≤ s.src.length := by
    by_contra hout
    unfold readBytes at hread
    rw [run_get_bind, dif_neg hout] at hread
    exact run_throw_ok.mp hread
  obtain ⟨bytes', hread', hbytes'⟩ := run_readBytes hinside.1 hinside.2
  cases hread'.symm.trans hread
  cases hrest
  refine ⟨hinside.1, hinside.2, ?_, rfl⟩
  rw [← hbytes']
  have hlen : bytes.toList.length = 1 := bytes.length_toList
  obtain ⟨b, hb⟩ := List.length_eq_one_iff.mp hlen
  rw [hb, first_of_toList hb]

theorem neutral_maskEncodingByte : Neutral _ maskEncodingByte maskEncodingByte := by
  intro s t hst encoding s' hrun
  obtain ⟨hstart, hend, hfirst, rfl⟩ := maskEncodingByte_cases hrun
  rw [← hst.start_eq, ← hst.pos_eq] at hstart
  rw [← hst.pos_eq, ← hst.src_eq] at hend
  obtain ⟨bytes, hread, hbytes⟩ := run_readBytes hstart hend
  have hsame : bytes.get ⟨0, Nat.one_pos⟩ = encoding := by
    apply first_of_toList
    rw [hbytes, hst.src_eq, hst.pos_eq]
    exact hfirst
  refine ⟨{ t with src := t.src.set t.pos (encoding &&& 0x3F) }, ?_, ⟨?_, hst.start_eq, hst.pos_eq,
    hst.allocations_eq⟩, rfl⟩
  · unfold maskEncodingByte
    rw [run_bind_of_ok hread, hsame]
    rfl
  · show t.src.set t.pos _ = s.src.set s.pos _
    rw [hst.src_eq, hst.pos_eq]

theorem neutral_expandedNodeId (env : DecodeEnv) :
    Neutral _ (expandedNodeIdDecodeBinary env) (expandedNodeIdDecodeBinary env) := by
  have h := congruentLeaf_neutral env
  apply h.tooShort _ (h.pure _)
  apply h.bind neutral_maskEncodingByte
  intro encoding
  exact h.map _ (h.both (h.both h.nodeId (h.decodeIf h.string)) (h.decodeIf h.uint32))

/-! ## What a function reads -/

/-- The bytes that are still to be decoded. -/
def DecodeState.ahead (s : DecodeState) : List UInt8 := s.src.drop s.pos

/-- `s'` is further on in the same source. -/
structure DecodeState.Advances (s s' : DecodeState) : Prop where
  length_eq : s'.src.length = s.src.length
  pos_le : s.pos ≤ s'.pos
  inside : s.pos ≤ s.src.length → s'.pos ≤ s'.src.length

theorem DecodeState.Advances.trans {s s1 s2 : DecodeState} (h : s.Advances s1)
    (h' : s1.Advances s2) : s.Advances s2 :=
  ⟨h'.length_eq.trans h.length_eq, h.pos_le.trans h'.pos_le, fun hs => h'.inside (h.inside hs)⟩

/-- When `d` succeeds it has read just what `k` measures. -/
def Covers (d : DecodeM (Decoded α)) (k : Extent) : Prop :=
  ∀ s v s', d.run s = .ok ((StatusCode.good, v), s') →
    k s.ahead = some s'.ahead ∧ s.Advances s'

namespace Covers

variable {d : DecodeM (Decoded α)} {k : Extent}

theorem both {a : DecodeM (Decoded α)} {b : DecodeM (Decoded β)} {ka kb : Extent}
    (ha : Covers a ka) (hb : Covers b kb) : Covers (decodeBoth a b) (Extent.both ka kb) := by
  intro s v s' hrun
  obtain ⟨s1, hrun1, hrun2⟩ := run_decodeBoth_good hrun
  obtain ⟨hka, hadvances⟩ := ha s v.1 s1 hrun1
  obtain ⟨hkb, hadvances'⟩ := hb s1 v.2 s' hrun2
  exact ⟨by rw [Extent.both, hka, Option.bind_some, hkb], hadvances.trans hadvances'⟩

theorem pass {g : Decoded α → DecodeM (Decoded β)} (h : Covers d k)
    (hg : ∀ p, ∃ b, g p = Pure.pure (p.1, b)) : Covers (d >>= g) k := by
  intro s v s' hrun
  obtain ⟨x, hrun, -⟩ := run_pass_good hg hrun
  exact h s x s' hrun

theorem map (f : α → β) (h : Covers d k) : Covers (decodeMap f d) k :=
  h.pass fun _ => ⟨_, rfl⟩

theorem pure (a : α) : Covers (pure (StatusCode.good, a)) some := by
  intro s v s' hrun
  obtain ⟨-, rfl⟩ := run_pure_ok.mp hrun
  exact ⟨rfl, rfl, Nat.le_refl _, id⟩

theorem ite {c : Prop} [Decidable c] {d e : DecodeM (Decoded α)} {k l : Extent} (hd : Covers d k)
    (he : Covers e l) : Covers (if c then d else e) (if c then k else l) := by
  split
  · exact hd
  · exact he

theorem bad {r : StatusCode} (h : r ≠ StatusCode.good) (a : α) (k : Extent) :
    Covers (Pure.pure (r, a)) k := by
  intro s v s' hrun
  obtain ⟨heq, -⟩ := run_pure_ok.mp hrun
  exact absurd (Prod.ext_iff.mp heq).1.symm h

theorem decodeIf {c : Bool} {zero : α} (h : Covers d k) :
    Covers (decodeIf c d zero) (Extent.skipIf c k) := by
  cases c with
  | false => exact pure _
  | true => exact h

theorem field {c : Bool} (h : Covers d k) : Covers (decodeField c d) (Extent.skipIf c k) :=
  (h.map some).decodeIf

theorem primitive (size : Nat) (fromBytes : Vector UInt8 size → α) (zero : α) :
    Covers (decodePrimitive size fromBytes zero) (Extent.skip size) := by
  intro s v s' hrun
  rcases run_decodePrimitive_ok hrun with ⟨-, hbad, -⟩ | ⟨-, hshort, -, -, -, rfl⟩
  · cases hbad
  · have hend : s.pos + size ≤ s.src.length := Nat.not_lt.mp hshort
    refine ⟨?_, rfl, Nat.le_add_right _ _, fun _ => hend⟩
    unfold Extent.skip ahead
    rw [if_pos (by rw [List.length_drop]; omega), List.drop_drop]

end Covers

/-- The bytes that are read are the first of those ahead. -/
theorem ahead_of_primitive {size : Nat} {fromBytes : Vector UInt8 size → α} {zero v : α}
    (h : (decodePrimitive size fromBytes zero).run s = .ok ((StatusCode.good, v), s')) :
    ∃ bytes : Vector UInt8 size, v = fromBytes bytes ∧ s.ahead = bytes.toList ++ s'.ahead := by
  rcases run_decodePrimitive_ok h with ⟨-, hbad, -⟩ | ⟨-, hshort, bytes, hbytes, hgood, rfl⟩
  · cases hbad
  · refine ⟨bytes, (Prod.mk.inj hgood).2, ?_⟩
    unfold ahead
    rw [hbytes, ← List.drop_drop, List.take_append_drop]

theorem ahead_of_byte {b : UInt8}
    (h : byteDecodeBinary.run s = .ok ((StatusCode.good, b), s')) :
    s.ahead = b :: s'.ahead ∧ s.Advances s' := by
  obtain ⟨bytes, hb, hahead⟩ := ahead_of_primitive h
  have hlen : bytes.toList.length = 1 := bytes.length_toList
  obtain ⟨b', hb'⟩ := List.length_eq_one_iff.mp hlen
  refine ⟨?_, (Covers.primitive _ _ _ s b s' h).2⟩
  rw [hahead, hb, hb', first_of_toList hb']
  rfl

theorem Covers.byte {f : Decoded UInt8 → DecodeM (Decoded α)} {z : Decoded UInt8 → α}
    {k : UInt8 → Extent} (h : ∀ b, Covers (f (StatusCode.good, b)) (k b)) :
    Covers (byteDecodeBinary >>= fun r =>
      if r.1 ≠ StatusCode.good then Pure.pure (r.1, z r) else f r)
      (Extent.byte k) := by
  intro s v s' hrun
  obtain ⟨b, s1, hbyte, hrest⟩ := run_guard_good hrun
  obtain ⟨hahead, hadvances⟩ := ahead_of_byte hbyte
  obtain ⟨hk, hadvances'⟩ := h b s1 v s' hrest
  exact ⟨by rw [hahead]; exact hk, hadvances.trans hadvances'⟩

/-- The length field in front of an array. -/
theorem header_cases {memSize : Nat} {header : ArrayHeader}
    (h : (arrayDecodeBinaryHeader env memSize).run s = .ok (header, s')) :
    (∃ status, status ≠ StatusCode.good ∧ header = .fails status) ∨
      (Extent.skip 4 s.ahead = some s'.ahead ∧ s.Advances s' ∧
        ((∃ sentinel, header = .empty sentinel ∧
            (Extent.lengthOf s.ahead = 0 ∨ 2147483648 ≤ Extent.lengthOf s.ahead)) ∨
          ∃ length hpos, header = .allocated length hpos ∧ Extent.lengthOf s.ahead = length ∧
            length < 2147483648)) := by
  obtain ⟨⟨r, v⟩, s1, huint32, hrest⟩ := run_bind_ok.mp h
  obtain ⟨hbad, hrest⟩ | ⟨hgood, hrest⟩ := run_ite_cases hrest
  · obtain ⟨rfl, -⟩ := run_pure_ok.mp hrest
    exact .inl ⟨_, hbad, rfl⟩
  rw [show r = StatusCode.good from not_not.mp hgood] at huint32
  obtain ⟨hskip, hadvances⟩ := Covers.primitive _ _ _ s v s1 huint32
  have hv : v.toNat = Extent.lengthOf s.ahead := by
    rcases run_decodePrimitive_ok huint32 with ⟨-, hshort, -⟩ | ⟨-, -, bytes, hbytes, hgood, -⟩
    · cases hshort
    · rw [(Prod.mk.inj hgood).2, hbytes]
      refine UInt32.toNat_ofNat_of_lt' (Nat.lt_of_lt_of_le (LittleEndian.toNat_lt _) ?_)
      rw [← hbytes, bytes.length_toList]
      decide
  obtain ⟨hlarge, hrest⟩ | ⟨hsmall, hrest⟩ := run_ite_cases hrest
  · obtain ⟨rfl, rfl⟩ := run_pure_ok.mp hrest
    refine .inr ⟨hskip, hadvances, .inl ⟨_, rfl, .inr ?_⟩⟩
    rw [← hv]
    exact UInt32.le_iff_toNat_le.mp hlarge
  have hlt : v.toNat < 2147483648 := by
    refine Nat.not_le.mp fun hge => hsmall ?_
    exact UInt32.le_iff_toNat_le.mpr hge
  split at hrest
  · next hzero =>
    obtain ⟨rfl, rfl⟩ := run_pure_ok.mp hrest
    exact .inr ⟨hskip, hadvances, .inl ⟨_, rfl, .inl (hv ▸ hzero)⟩⟩
  · rw [run_get_bind] at hrest
    obtain ⟨-, hrest⟩ | ⟨-, hrest⟩ := run_ite_cases hrest
    · obtain ⟨rfl, -⟩ := run_pure_ok.mp hrest
      exact .inl ⟨_, by decide, rfl⟩
    · obtain ⟨success, s2, halloc, hrest⟩ := run_bind_ok.mp hrest
      obtain ⟨-, hrest⟩ | ⟨-, hrest⟩ := run_ite_cases hrest
      · obtain ⟨rfl, rfl⟩ := run_pure_ok.mp hrest
        cases halloc
        exact .inr ⟨hskip, ⟨hadvances.length_eq, hadvances.pos_le, hadvances.inside⟩,
          .inr ⟨_, _, rfl, hv.symm, hlt⟩⟩
      · obtain ⟨rfl, -⟩ := run_pure_ok.mp hrest
        exact .inl ⟨_, by decide, rfl⟩

/-- An array of which the elements are read as one block, or one by one. -/
theorem Covers.counted {memSize : Nat} {f : ArrayHeader → DecodeM (Decoded α)} {k : Nat → Extent}
    {zero : α} (hfails : ∀ status, f (.fails status) = Pure.pure (status, zero))
    (hempty : ∀ sentinel, Covers (f (.empty sentinel)) some)
    (hallocated : ∀ length hpos, Covers (f (.allocated length hpos)) (k length)) :
    Covers (arrayDecodeBinaryHeader env memSize >>= f) (Extent.counted k) := by
  intro s v s' hrun
  obtain ⟨header, s1, hheader, hrest⟩ := run_bind_ok.mp hrun
  rcases header_cases hheader with ⟨status, hbad, rfl⟩ | ⟨hskip, hadvances, hcases⟩
  · rw [hfails] at hrest
    obtain ⟨heq, -⟩ := run_pure_ok.mp hrest
    exact absurd (Prod.ext_iff.mp heq).1.symm hbad
  unfold Extent.counted
  rw [hskip, Option.bind_some]
  rcases hcases with ⟨sentinel, rfl, hlength⟩ | ⟨length, hpos, rfl, hlength, hlt⟩
  · rw [if_pos hlength]
    obtain ⟨hk, hadvances'⟩ := hempty sentinel s1 v s' hrest
    exact ⟨hk, hadvances.trans hadvances'⟩
  · rw [if_neg (by omega), hlength]
    obtain ⟨hk, hadvances'⟩ := hallocated length hpos s1 v s' hrest
    exact ⟨hk, hadvances.trans hadvances'⟩

theorem covers_string : Covers (stringDecodeBinary env) Extent.string := by
  apply Covers.counted (fun status => rfl)
  · exact fun sentinel => Covers.pure _
  · intro length hpos
    apply (Covers.primitive _ _ _).pass
    rintro ⟨r, mem⟩
    cases mem with
    | none => exact ⟨_, rfl⟩
    | some mem => exact ⟨_, rfl⟩

theorem covers_dimensions :
    Covers (dimensionsDecodeBinary env) (Extent.counted fun n => Extent.skip (4 * n)) := by
  apply Covers.counted (fun status => rfl)
  · exact fun sentinel => Covers.pure _
  · intro length hpos
    apply (Covers.primitive _ _ _).pass
    rintro ⟨r, mem⟩
    cases mem with
    | none => exact ⟨_, rfl⟩
    | some mem => exact ⟨_, rfl⟩

theorem skip_both (m n : Nat) : Extent.both (Extent.skip m) (Extent.skip n) =
    Extent.skip (m + n) := by
  funext bs
  unfold Extent.both Extent.skip
  by_cases hm : m ≤ bs.length
  · rw [if_pos hm, Option.bind_some, List.length_drop, List.drop_drop]
    by_cases hn : m + n ≤ bs.length
    · rw [if_pos (by omega), if_pos hn]
    · rw [if_neg (by omega), if_neg hn]
  · rw [if_neg hm, if_neg (by omega), Option.bind_none]

theorem covers_guid : Covers guidDecodeBinary (Extent.skip 16) := by
  have hhead : Covers (decodeBoth (decodeBoth uint32DecodeBinary uint16DecodeBinary)
      uint16DecodeBinary) (Extent.skip 8) := by
    have huint16 : Covers uint16DecodeBinary (Extent.skip 2) := Covers.primitive _ _ _
    have huint32 : Covers uint32DecodeBinary (Extent.skip 4) := Covers.primitive _ _ _
    have h := (huint32.both huint16).both huint16
    rw [skip_both, skip_both] at h
    exact h
  intro s v s' hrun
  obtain ⟨⟨r, x⟩, s1, hrun1, hrest⟩ := run_bind_ok.mp hrun
  obtain ⟨⟨status, data4⟩, s2, hrun2, hrest⟩ := run_bind_ok.mp hrest
  obtain ⟨hbad, hrest⟩ | ⟨hgood, hrest⟩ := run_ite_cases hrest
  · obtain ⟨heq, -⟩ := run_pure_ok.mp hrest
    exact absurd (Prod.ext_iff.mp heq).1.symm hbad
  · obtain ⟨heq, rfl⟩ := run_pure_ok.mp hrest
    obtain ⟨rfl, -⟩ := Prod.mk.inj heq
    obtain rfl := not_not.mp hgood
    obtain ⟨hk, hadvances⟩ := hhead s x s1 hrun1
    obtain ⟨hk', hadvances'⟩ := Covers.primitive _ _ _ s1 data4 s' hrun2
    refine ⟨?_, hadvances.trans hadvances'⟩
    rw [← skip_both 8 8, Extent.both, hk, Option.bind_some, hk']

theorem covers_nodeIdContent (encodingByte : UInt8) :
    Covers (nodeIdDecodeBinaryContent env encodingByte)
      (if encodingByte = 0 then Extent.skip 1
        else if encodingByte = 1 then Extent.both (Extent.skip 1) (Extent.skip 2)
        else if encodingByte = 2 then Extent.both (Extent.skip 2) (Extent.skip 4)
        else if encodingByte = 3 then Extent.both (Extent.skip 2) Extent.string
        else if encodingByte = 4 then Extent.both (Extent.skip 2) (Extent.skip 16)
        else if encodingByte = 5 then Extent.both (Extent.skip 2) Extent.string
        else fun _ => none) := by
  have hbyte : Covers byteDecodeBinary (Extent.skip 1) := Covers.primitive _ _ _
  have huint16 : Covers uint16DecodeBinary (Extent.skip 2) := Covers.primitive _ _ _
  have huint32 : Covers uint32DecodeBinary (Extent.skip 4) := Covers.primitive _ _ _
  apply Covers.ite (hbyte.map _)
  apply Covers.ite ((hbyte.both huint16).map _)
  apply Covers.ite ((huint16.both huint32).map _)
  apply Covers.ite ((huint16.both covers_string).map _)
  apply Covers.ite ((huint16.both covers_guid).map _)
  exact Covers.ite ((huint16.both covers_string).map _) (Covers.bad (by decide) _ _)

theorem covers_nodeId : Covers (nodeIdDecodeBinary env) Extent.nodeId :=
  Covers.byte covers_nodeIdContent

theorem covers_expandedNodeId : Covers (expandedNodeIdDecodeBinary env) Extent.expandedNodeId := by
  intro s v s' hrun
  unfold expandedNodeIdDecodeBinary at hrun
  rw [run_get_bind] at hrun
  obtain ⟨-, hrun⟩ | ⟨-, hrun⟩ := run_ite_cases hrun
  · cases hrun
  obtain ⟨encoding, s1, hmask, hrest⟩ := run_bind_ok.mp hrun
  obtain ⟨-, hend, hfirst, rfl⟩ := maskEncodingByte_cases hmask
  have huint32 : Covers uint32DecodeBinary (Extent.skip 4) := Covers.primitive _ _ _
  obtain ⟨hk, hadvances⟩ := ((((covers_nodeId.both covers_string.decodeIf).both
    huint32.decodeIf).map _) _ v s' hrest)
  -- the byte has been changed in the source
  have hbytes : s.ahead = encoding :: s.src.drop (s.pos + 1) := by
    unfold ahead
    rw [← List.take_append_drop 1 (s.src.drop s.pos), hfirst, List.drop_drop]
    rfl
  have hmasked : (s.src.set s.pos (encoding &&& 0x3F)).drop s.pos =
      (encoding &&& 0x3F) :: s.src.drop (s.pos + 1) := by
    rw [List.drop_eq_getElem_cons (by rw [List.length_set]; exact hend), List.getElem_set_self,
      List.drop_set_of_lt (by omega)]
  rw [ahead, hmasked] at hk
  refine ⟨?_, by simpa using hadvances.length_eq, hadvances.pos_le,
    fun hs => hadvances.inside (by simpa using hs)⟩
  rw [hbytes]
  exact hk

theorem covers_localizedText : Covers (localizedTextDecodeBinary env) Extent.localizedText := by
  intro s v s' hrun
  obtain ⟨⟨r, encoding⟩, s1, hbyte, hrest⟩ := run_bind_ok.mp hrun
  obtain ⟨⟨status, text⟩, s2, htext, hrest⟩ := run_bind_ok.mp hrest
  obtain ⟨heq, rfl⟩ := run_pure_ok.mp hrest
  obtain ⟨hstatus, -⟩ := Prod.mk.inj heq
  obtain ⟨rfl, rfl⟩ := or_eq_good.mp hstatus.symm
  obtain ⟨hahead, hadvances⟩ := ahead_of_byte hbyte
  obtain ⟨hk, hadvances'⟩ := (covers_string.decodeIf.both covers_string.decodeIf) s1 text s'
    htext
  exact ⟨by rw [hahead]; exact hk, hadvances.trans hadvances'⟩

theorem covers_diagnosticInfo (fuel : Nat) :
    Covers (diagnosticInfoDecodeBinary env fuel) (Extent.diagnosticInfo fuel) := by
  induction fuel with
  | zero =>
    intro s v s' hrun
    cases hrun
  | succ fuel ih =>
    apply Covers.byte
    intro mask
    have huint32 : Covers uint32DecodeBinary (Extent.skip 4) := Covers.primitive _ _ _
    intro s v s' hrun
    obtain ⟨⟨status, fields⟩, s1, hfields, hrest⟩ := run_bind_ok.mp hrun
    obtain ⟨hnone, hrest⟩ | ⟨hinner, hrest⟩ := run_ite_cases hrest
    · obtain ⟨heq, rfl⟩ := run_pure_ok.mp hrest
      rw [← (Prod.mk.inj heq).1] at hfields
      obtain ⟨hk, hadvances⟩ := ((((((huint32.field.both huint32.field).both huint32.field).both
        huint32.field).both covers_string.field).both huint32.field) s fields s' hfields)
      refine ⟨?_, hadvances⟩
      rw [Extent.both, hk, Option.bind_some, Extent.skipIf, if_neg (by simpa using hnone)]
    · obtain ⟨success, s2, halloc, hrest⟩ := run_bind_ok.mp hrest
      obtain ⟨-, hrest⟩ | ⟨-, hrest⟩ := run_ite_cases hrest
      · obtain ⟨⟨r, d⟩, s3, hd, hrest⟩ := run_bind_ok.mp hrest
        obtain ⟨heq, rfl⟩ := run_pure_ok.mp hrest
        obtain ⟨rfl, rfl⟩ := or_eq_good.mp (Prod.mk.inj heq).1.symm
        obtain ⟨hk, hadvances⟩ := ((((((huint32.field.both huint32.field).both huint32.field).both
          huint32.field).both covers_string.field).both huint32.field) s fields s1 hfields)
        cases halloc
        obtain ⟨hk', hadvances'⟩ := ih { s1 with allocations := s1.allocations + 1 } d s'
          hd
        refine ⟨?_, hadvances.trans ⟨hadvances'.length_eq, hadvances'.pos_le, hadvances'.inside⟩⟩
        rw [Extent.both, hk, Option.bind_some, Extent.skipIf, if_pos (by simpa using hinner)]
        exact hk'
      · cases hrest

end FactoryThing.Encoding
