import FactoryThing.Encoding.Overlay
import FactoryThing.Encoding.Recoding
import FactoryThing.Encoding.Chunked

/-!
# The fast path for arrays

An array of an overlayable structure is copied, and with the mark cleared its elements would be
encoded and decoded member by member. The two come to the same just for the structures of which no
byte is left over and no member is a Boolean.
-/

namespace FactoryThing.Encoding

open RecordLayout TypeDefinition Stateful

variable {α β : Type} {env : DecodeEnv}

structure DecodeState.Inside (s : DecodeState) : Prop where
  start_le : s.start ≤ s.pos
  pos_le : s.pos ≤ s.src.length

/-- A function that takes `size` bytes, whatever they are, and makes of them what `R` says. It fails
when there are fewer. -/
structure Takes (size : Nat) (R : List UInt8 → α → Prop) (d : DecodeM (Decoded α)) : Prop where
  enough : ∀ {s : DecodeState}, s.start ≤ s.pos → s.pos + size ≤ s.src.length →
    ∃ v, R ((s.src.drop s.pos).take size) v ∧
      d.run s = .ok ((StatusCode.good, v), { s with pos := s.pos + size })
  short : ∀ {s : DecodeState}, s.Inside → s.src.length < s.pos + size →
    ∃ v s', d.run s = .ok ((StatusCode.badDecodingError, v), s') ∧ s'.Inside

namespace Takes

variable {n m : Nat} {R : List UInt8 → α → Prop} {Q : List UInt8 → β → Prop}

theorem returns {d : DecodeM (Decoded α)} (h : Takes n R d) {s : DecodeState} (hs : s.Inside) :
    ∃ r v s', d.run s = .ok ((r, v), s') ∧ s'.Inside ∧
      (r = StatusCode.good ∨ r = StatusCode.badDecodingError) := by
  by_cases hend : s.pos + n ≤ s.src.length
  · obtain ⟨v, -, hrun⟩ := h.enough hs.start_le hend
    exact ⟨_, v, _, hrun, ⟨Nat.le_add_right_of_le hs.start_le, hend⟩, Or.inl rfl⟩
  · obtain ⟨v, s', hrun, hs'⟩ := h.short hs (Nat.not_le.mp hend)
    exact ⟨_, v, s', hrun, hs', Or.inr rfl⟩

theorem mono {d : DecodeM (Decoded α)} {R' : List UInt8 → α → Prop} (h : Takes n R d)
    (himp : ∀ mem v, mem.length = n → R mem v → R' mem v) : Takes n R' d where
  enough := by
    intro s hstart hend
    obtain ⟨v, hv, hrun⟩ := h.enough hstart hend
    refine ⟨v, himp _ v ?_ hv, hrun⟩
    rw [List.length_take, List.length_drop]
    omega
  short := h.short

theorem map {d : DecodeM (Decoded α)} {f : α → β} (h : Takes n R d)
    (hf : ∀ mem v, R mem v → Q mem (f v)) : Takes n Q (decodeMap f d) where
  enough := by
    intro s hstart hend
    obtain ⟨v, hv, hrun⟩ := h.enough hstart hend
    refine ⟨f v, hf _ v hv, ?_⟩
    unfold decodeMap
    rw [run_bind_of_ok hrun]
    rfl
  short := by
    intro s hs hlt
    obtain ⟨v, s', hrun, hs'⟩ := h.short hs hlt
    refine ⟨f v, s', ?_, hs'⟩
    unfold decodeMap
    rw [run_bind_of_ok hrun]
    rfl

/-- The status of two functions one after the other: good when both succeed, and the error else. -/
structure Joins (join : StatusCode → StatusCode → StatusCode) : Prop where
  both : join StatusCode.good StatusCode.good = StatusCode.good
  left : join StatusCode.badDecodingError StatusCode.good = StatusCode.badDecodingError
  right : ∀ r, r = StatusCode.good ∨ r = StatusCode.badDecodingError →
    join r StatusCode.badDecodingError = StatusCode.badDecodingError

theorem seq {γ : Type} {join : StatusCode → StatusCode → StatusCode} (hjoin : Joins join)
    {f : α → β → γ} {P : List UInt8 → γ → Prop} {a : DecodeM (Decoded α)} {b : DecodeM (Decoded β)}
    (ha : Takes n R a) (hb : Takes m Q b)
    (hf : ∀ mem x y, mem.length = n + m → R (mem.take n) x → Q (mem.drop n) y → P mem (f x y)) :
    Takes (n + m) P (do
      let (retval, x) ← a
      let (status, y) ← b
      return (join retval status, f x y)) where
  enough := by
    intro s hstart hend
    obtain ⟨x, hx, hrun⟩ := ha.enough (s := s) hstart (by omega)
    obtain ⟨y, hy, hrun'⟩ := hb.enough (s := { s with pos := s.pos + n })
      (Nat.le_add_right_of_le hstart) (by dsimp only; omega)
    refine ⟨f x y, hf _ x y ?_ ?_ ?_, ?_⟩
    · rw [List.length_take, List.length_drop]
      omega
    · rwa [List.take_take, Nat.min_eq_left (Nat.le_add_right n m)]
    · rwa [List.drop_take, Nat.add_sub_cancel_left, List.drop_drop]
    · rw [run_bind_of_ok hrun, run_bind_of_ok hrun']
      simp only [hjoin.both, Nat.add_assoc]
      rfl
  short := by
    intro s hs hlt
    by_cases hend : s.pos + n ≤ s.src.length
    · obtain ⟨x, -, hrun⟩ := ha.enough hs.start_le hend
      have hs' : DecodeState.Inside { s with pos := s.pos + n } :=
        ⟨Nat.le_add_right_of_le hs.start_le, hend⟩
      obtain ⟨y, s2, hrun', hs2⟩ := hb.short hs' (by dsimp only; omega)
      refine ⟨f x y, s2, ?_, hs2⟩
      rw [run_bind_of_ok hrun, run_bind_of_ok hrun']
      simp only [hjoin.right _ (Or.inl rfl)]
      rfl
    · obtain ⟨x, s1, hrun, hs1⟩ := ha.short hs (Nat.not_le.mp hend)
      obtain ⟨r, y, s2, hrun', hs2, rfl | rfl⟩ := hb.returns hs1
      · refine ⟨f x y, s2, ?_, hs2⟩
        rw [run_bind_of_ok hrun, run_bind_of_ok hrun']
        simp only [hjoin.left]
        rfl
      · refine ⟨f x y, s2, ?_, hs2⟩
        rw [run_bind_of_ok hrun, run_bind_of_ok hrun']
        simp only [hjoin.right _ (Or.inr rfl)]
        rfl

theorem joins_or : Joins (· ||| ·) where
  both := rfl
  left := rfl
  right := by rintro r (rfl | rfl) <;> rfl

theorem both {P : List UInt8 → α × β → Prop} {a : DecodeM (Decoded α)} {b : DecodeM (Decoded β)}
    (ha : Takes n R a) (hb : Takes m Q b)
    (hf : ∀ mem x y, mem.length = n + m → R (mem.take n) x → Q (mem.drop n) y → P mem (x, y)) :
    Takes (n + m) P (decodeBoth a b) :=
  ha.seq joins_or hb hf

end Takes

theorem takes_primitive {size : Nat} {fromBytes : Vector UInt8 size → α} {zero : α}
    {R : List UInt8 → α → Prop} (h : ∀ bytes, R bytes.toList (fromBytes bytes)) :
    Takes size R (decodePrimitive size fromBytes zero) where
  enough := by
    intro s hstart hend
    obtain ⟨bytes, hbytes, hrun⟩ := @run_decodePrimitive _ _ fromBytes zero _ hstart hend
    exact ⟨fromBytes bytes, hbytes ▸ h bytes, hrun⟩
  short := fun hs hlt => ⟨zero, _, run_decodePrimitive_short hlt, hs⟩

theorem takes_uint16 : Takes 2 (fun mem v => v = .ofNat (LittleEndian.toNat mem))
    uint16DecodeBinary :=
  takes_primitive fun _ => rfl

theorem takes_uint32 : Takes 4 (fun mem v => v = .ofNat (LittleEndian.toNat mem))
    uint32DecodeBinary :=
  takes_primitive fun _ => rfl

theorem takes_uint64 : Takes 8 (fun mem v => v = .ofNat (LittleEndian.toNat mem))
    uint64DecodeBinary :=
  takes_primitive fun _ => rfl

theorem headD_toList (bytes : Vector UInt8 1) : bytes.toList.headD 0 =
    bytes.get ⟨0, Nat.one_pos⟩ := by
  obtain ⟨⟨l⟩, hl⟩ := bytes
  obtain ⟨x, rfl⟩ := List.length_eq_one_iff.mp hl
  rfl

theorem takes_byte : Takes 1 (fun mem v => v = mem.headD 0) byteDecodeBinary :=
  takes_primitive fun bytes => (headD_toList bytes).symm

/-- What `Boolean_decodeBinary` makes of a byte. -/
def truth (b : UInt8) : UInt8 := if b > 0 then 1 else 0

theorem takes_boolean : Takes 1 (fun mem v => v = truth (mem.headD 0)) booleanDecodeBinary :=
  takes_primitive fun bytes => by rw [headD_toList]; rfl

theorem joins_last : Takes.Joins fun retval status =>
    if status ≠ StatusCode.good then status else retval where
  both := rfl
  left := rfl
  right := fun _ _ => rfl

theorem guidDecodeBinary_eq : guidDecodeBinary = (do
    let (retval, x) ← decodeBoth (decodeBoth uint32DecodeBinary uint16DecodeBinary)
      uint16DecodeBinary
    let (status, data4) ← decodePrimitive 8 id (Vector.replicate 8 0)
    return (if status ≠ StatusCode.good then status else retval,
      ({ data1 := x.1.1, data2 := x.1.2, data3 := x.2, data4 } : Guid))) := by
  refine bind_congr fun ⟨retval, ⟨data1, data2⟩, data3⟩ => bind_congr fun ⟨status, data4⟩ => ?_
  dsimp only
  split
  · rfl
  · rfl

theorem takes_guid : Takes 16 (fun mem g => g = loadGuid mem) guidDecodeBinary := by
  have hnumbers := Takes.both (P := fun mem x =>
    x.1 = .ofNat (LittleEndian.toNat (mem.take 4)) ∧ x.2 = .ofNat (LittleEndian.toNat (mem.drop 4)))
    takes_uint32 takes_uint16 fun _ _ _ _ hx hy => ⟨hx, hy⟩
  have hhead := Takes.both (P := fun mem x =>
    (x.1.1 = .ofNat (LittleEndian.toNat (mem.take 4)) ∧
      x.1.2 = .ofNat (LittleEndian.toNat ((mem.drop 4).take 2))) ∧
    x.2 = .ofNat (LittleEndian.toNat (mem.drop 6))) hnumbers takes_uint16
    fun mem x y _ hx hy => by
      rw [List.take_take, List.drop_take] at hx
      exact ⟨hx, hy⟩
  have hlast : Takes 8 (fun mem v => v.toList = mem)
      (decodePrimitive 8 id (Vector.replicate 8 0)) := takes_primitive fun _ => rfl
  rw [guidDecodeBinary_eq]
  refine Takes.seq (n := 8) (P := fun mem g => g = loadGuid mem)
    (f := fun x data4 => { data1 := x.1.1, data2 := x.1.2, data3 := x.2, data4 }) joins_last hhead
    hlast fun mem x data4 hlen ⟨⟨h1, h2⟩, h3⟩ hdata => ?_
  have hdata4 : data4 = (loadGuid mem).data4 :=
    Vector.toList_inj.mp (hdata.trans (data4_loadGuid hlen).symm)
  rw [h1, h2, h3, hdata4, List.take_take, List.drop_take, List.drop_take, List.take_take]
  rfl

theorem takes_builtin {decodeType : DataType → DecodeM (Decoded Value)} {fuel : Nat} {b : Builtin}
    (h : b.overlayable = true) :
    Takes b.memSize.toNat (fun mem v => loadBuiltin truth b mem = some v)
      (builtinDecodeBinary env decodeType fuel b) := by
  cases b with
  | boolean => exact takes_boolean.map fun mem v hv => hv ▸ rfl
  | sbyte | byte => exact takes_byte.map fun mem v hv => hv ▸ rfl
  | int16 | uint16 => exact takes_uint16.map fun mem v hv => hv ▸ rfl
  | int32 | uint32 | float | statusCode => exact takes_uint32.map fun mem v hv => hv ▸ rfl
  | int64 | uint64 | double | dateTime => exact takes_uint64.map fun mem v hv => hv ▸ rfl
  | guid => exact takes_guid.map fun mem v hv => hv ▸ rfl
  | _ => cases h

theorem takes_nil : Takes 0 (fun _ (ms : Members) => ms = .nil)
    (pure (StatusCode.good, Members.nil)) where
  enough := fun _ _ => ⟨.nil, rfl, rfl⟩
  short := fun hs hlt => absurd hs.pos_le (Nat.not_le.mpr hlt)

variable {typedescriptions : String → Option NodeIdDescription}
  {decodeType : DataType → DecodeM (Decoded Value)} {fuel : Nat}

mutual

theorem takes_entry : (d : TypeDefinition) → d.overlayable = true → d.compact = true →
    {type : DataType} → datatype typedescriptions d = some type →
    Takes d.memSize (fun mem v => load truth d mem = some v)
      (decodeBinaryEntry env decodeType fuel type)
  | .builtin b, h, _, type, htype => by
    obtain rfl : _ = type := Option.some.inj htype
    exact takes_builtin (b.overlayableCondition_holds.symm.trans h)
  | .enumeration name, _, _, type, htype => by
    obtain rfl : _ = type := Option.some.inj htype
    exact takes_uint32.map fun mem v hv => hv ▸ rfl
  | .opaqueType name, h, _, _, _ => nomatch h
  | .structure name members, h, hcompact, type, htype => by
    have hover := overlaid_of_overlayable h
    obtain ⟨hpayload, hmembers⟩ := (compact_structure hover).mp hcompact
    rw [datatype] at htype
    obtain ⟨memberTypes, htypes, hfits⟩ := Option.bind_eq_some_iff.mp htype
    split at hfits
    · obtain rfl : _ = type := Option.some.inj hfits
      rw [decodeBinaryEntry, ← hpayload]
      exact (takes_internal members hover hmembers htypes).map fun mem ms hms => by
        rw [load, hms]
        rfl
    · cases hfits

theorem takes_internal : (members : StructMembers) → {pos : Nat} → Overlaid pos members →
    compactMembers members = true → {types : MemberTypes} →
    memberDatatypes typedescriptions members = some types →
    Takes (payload (fields members)) (fun mem ms => loadMembers truth pos members mem = some ms)
      (decodeBinaryInternal env decodeType fuel types)
  | .nil, _, _, _, types, htypes => by
    obtain rfl : _ = types := Option.some.inj htypes
    exact takes_nil.mono fun mem ms _ hms => hms ▸ rfl
  | .cons name memberType isArray rest, pos, ⟨harray, htype, hoffset, hrest⟩, hcompact, types,
      htypes => by
    subst harray
    obtain ⟨hc, hcs⟩ := Bool.and_eq_true_iff.mp hcompact
    rw [memberDatatypes] at htypes
    obtain ⟨type, hd, hmore⟩ := Option.bind_eq_some_iff.mp htypes
    obtain ⟨rests, hds, hlast⟩ := Option.bind_eq_some_iff.mp hmore
    obtain rfl : _ = types := Option.some.inj hlast
    have hboth :=
      Takes.both (P := fun mem x => load truth memberType (mem.take memberType.memSize) =
        some x.1 ∧ loadMembers truth (pos + memberType.memSize) rest
          (mem.drop memberType.memSize) = some x.2)
      (takes_entry memberType htype hc hd) (takes_internal rest hrest hcs hds)
      fun mem v ms _ hv hms => ⟨hv, hms⟩
    refine Takes.map hboth fun mem x hx => ?_
    simp [loadMembers, hoffset, hx.1, hx.2]

end

theorem takes_elements {d : TypeDefinition} {decode : DecodeM (Decoded Value)}
    (h : Takes d.memSize (fun mem v => load truth d mem = some v) decode) (n : Nat) :
    Takes ((n + 1) * d.memSize) (fun mem vs => loadElements truth d n mem = some vs)
      (arrayDecodeBinaryElements decode n) := by
  induction n with
  | zero =>
    rw [Nat.zero_add, Nat.one_mul]
    refine (h.mono fun mem v hlen hv => And.intro hlen hv).map fun mem v hv => ?_
    rw [loadElements, ← hv.1, List.take_length, hv.2]
    rfl
  | succ n ih =>
    rw [Nat.succ_mul, Nat.add_comm]
    constructor
    · intro s hstart hend
      obtain ⟨v, hv, hrun⟩ := h.enough (s := s) hstart (by omega)
      obtain ⟨vs, hvs, hruns⟩ := ih.enough (s := { s with pos := s.pos + d.memSize })
        (Nat.le_add_right_of_le hstart) (by dsimp only; omega)
      refine ⟨.cons v vs, ?_, ?_⟩
      · rw [loadElements, List.take_take, Nat.min_eq_left (Nat.le_add_right _ _), hv,
          List.drop_take, Nat.add_sub_cancel_left, List.drop_drop, hvs]
        rfl
      · rw [arrayDecodeBinaryElements, run_bind_of_ok hrun]
        dsimp only [decodeMap]
        rw [if_neg (not_not_intro rfl), run_bind_of_ok hruns, ← Nat.add_assoc]
        rfl
    · intro s hs hlt
      by_cases hend : s.pos + d.memSize ≤ s.src.length
      · obtain ⟨v, -, hrun⟩ := h.enough hs.start_le hend
        have hs' : DecodeState.Inside { s with pos := s.pos + d.memSize } :=
          ⟨Nat.le_add_right_of_le hs.start_le, hend⟩
        obtain ⟨vs, s2, hruns, hs2⟩ := ih.short hs' (by dsimp only; omega)
        refine ⟨.cons v vs, s2, ?_, hs2⟩
        rw [arrayDecodeBinaryElements, run_bind_of_ok hrun]
        dsimp only [decodeMap]
        rw [if_neg (not_not_intro rfl), run_bind_of_ok hruns]
        rfl
      · obtain ⟨v, s1, hrun, hs1⟩ := h.short hs (Nat.not_le.mp hend)
        refine ⟨.one v, s1, ?_, hs1⟩
        rw [arrayDecodeBinaryElements, run_bind_of_ok hrun]
        rfl

theorem header_returns (memSize : Nat) {s : DecodeState} (hs : s.Inside) :
    ∃ header s', (arrayDecodeBinaryHeader env memSize).run s = .ok (header, s') ∧ s'.Inside := by
  obtain ⟨retval, signedLength, s1, hrun, hs1, -⟩ := takes_uint32.returns hs
  unfold arrayDecodeBinaryHeader
  rw [run_bind_of_ok hrun]
  dsimp only
  split
  · exact ⟨_, s1, rfl, hs1⟩
  · split
    · exact ⟨_, s1, rfl, hs1⟩
    · split
      · exact ⟨_, s1, rfl, hs1⟩
      · rw [run_get_bind]
        split
        · exact ⟨_, s1, rfl, hs1⟩
        · have halloc : (allocate env).run s1 = .ok (env.calloc s1.allocations,
              { s1 with allocations := s1.allocations + 1 }) := rfl
          rw [run_bind_of_ok halloc]
          split
          · exact ⟨_, _, rfl, ⟨hs1.start_le, hs1.pos_le⟩⟩
          · exact ⟨_, _, rfl, ⟨hs1.start_le, hs1.pos_le⟩⟩

/-- An array as memory and the same array as its elements: both are encoded to the same bytes, into
one buffer as well as into a sequence of buffers, and to as many as `Array_calcSizeBinary` says. -/
structure EncodesAlike (block : Block) (vs : Values) : Prop where
  calcSize_eq : arrayCalcSizeBinary (.overlay block) = arrayCalcSizeBinary (.elements vs)
  announced : ∀ {H : Type} (fuel : Nat) (s s' : EncodeState H),
    (arrayEncodeBinary fuel none (.overlay block)).run s = .ok (StatusCode.good, s') →
    s'.pos.before.length = s.pos.before.length + arrayCalcSizeBinary (.overlay block)
  oneBuffer : ∀ {H : Type} (fuel : Nat) (s s' : EncodeState H),
    (arrayEncodeBinary (fuel + 1) none (.overlay block)).run s = .ok (StatusCode.good, s') ↔
      (arrayEncodeBinary (fuel + 1) none (.elements vs)).run s = .ok (StatusCode.good, s')
  chunks : ∀ (capacities : Nat → Nat) (fuel fuel' : Nat)
    (s s1 s2 : EncodeState (List (List UInt8))), s.pos.buffer = s.buffer →
    (arrayEncodeBinary fuel (some (collect capacities)) (.overlay block)).run s =
      .ok (StatusCode.good, s1) →
    (arrayEncodeBinary fuel' (some (collect capacities)) (.elements vs)).run s =
      .ok (StatusCode.good, s2) → delivered s1 = delivered s2

/-- `Array_decodeBinary` copies memory that holds the elements it would decode otherwise, and goes
on at the same position; or both ways end with the same error. -/
def DecodesAlike (d : TypeDefinition) (info : TypeInfo) (hpos : 0 < info.memSize.toNat)
    (types : MemberTypes) : Prop :=
  ∀ (env : DecodeEnv) (decodeType : DataType → DecodeM (Decoded Value)) (fuel : Nat)
    (s : DecodeState), s.Inside →
    let decode := decodeMap .structure (decodeBinaryInternal env decodeType fuel types)
    ∃ r a a' s1 s2, (arrayDecodeBinary env (.structure info true hpos types) decode).run s =
        .ok ((r, a), s1) ∧
      (arrayDecodeBinary env (.structure info false hpos types) decode).run s = .ok ((r, a'), s2) ∧
      (r = StatusCode.good → loadArray d a = some a' ∧ s1 = s2)

/-- The copy of an array comes to the same as going through the members of its elements. -/
structure FastPathExact (d : TypeDefinition) (info : TypeInfo) (hpos : 0 < info.memSize.toNat)
    (types : MemberTypes) : Prop where
  encodes : ∀ block : Block, block.memSize = info.memSize.toNat →
    ∃ vs, loadArray d (.overlay block) = some (.elements vs) ∧ EncodesAlike block vs
  decodes : DecodesAlike d info hpos types

theorem not_good_of_tooLong {H : Type} {fuel length : Nat}
    {callback : Option (ExchangeEncodeBuffer H)} {content : Script} (hlong : length > int32Max)
    {s s' : EncodeState H} :
    ((arrayScript length content).run fuel callback).run s ≠ .ok (StatusCode.good, s') := by
  rw [arrayScript, if_pos hlong]
  intro h
  exact absurd (run_pure_ok.mp h).1 (by decide)

theorem bytes_overlay_eq {block : Block} {vs : Values} (hlength : vs.length = block.length)
    (hbytes : (valuesScript vs).bytes = block.mem) :
    (arrayDataScript (.overlay block)).bytes = (arrayDataScript (.elements vs)).bytes := by
  rw [arrayDataScript, arrayDataScript, hlength]
  by_cases hle : block.length ≤ int32Max
  · rw [bytes_arrayScript hle, bytes_arrayScript hle, hbytes]
    rfl
  · rw [arrayScript, arrayScript, if_pos (Nat.not_le.mp hle), if_pos (Nat.not_le.mp hle)]

theorem encodesAlike {block : Block} {vs : Values} (hlength : vs.length = block.length)
    (hfree : (valuesScript vs).FailFree) (hbytes : (valuesScript vs).bytes = block.mem)
    (hsize : calcSizeValues vs = block.mem.length) : EncodesAlike block vs where
  calcSize_eq := by rw [arrayCalcSizeBinary, arrayCalcSizeBinary, hsize, block.size_eq]
  announced := by
    intro H fuel s s' h
    rw [← run_arrayDataScript] at h
    obtain ⟨hgood, rfl⟩ := run_good _ h
    have hle := (failFree_arrayScript.mp hgood).1
    rw [EncodeState.write_before, List.length_append, arrayDataScript, bytes_arrayScript hle,
      List.length_append, length_uint32Script, arrayCalcSizeBinary, Script.bytes, block.size_eq]
  oneBuffer := by
    intro H fuel s s'
    rw [← run_arrayDataScript, ← run_arrayDataScript]
    by_cases hle : block.length ≤ int32Max
    · have hoverlay : (arrayDataScript (.overlay block)).FailFree :=
        failFree_arrayScript.mpr ⟨hle, trivial⟩
      have helements : (arrayDataScript (.elements vs)).FailFree :=
        failFree_arrayScript.mpr ⟨hlength ▸ hle, hfree⟩
      rw [run_none_good_iff hoverlay, run_none_good_iff helements, bytes_overlay_eq hlength hbytes]
    · have hlong : block.length > int32Max := Nat.not_le.mp hle
      exact iff_of_false (not_good_of_tooLong hlong) (not_good_of_tooLong (hlength ▸ hlong))
  chunks := by
    intro capacities fuel fuel' s s1 s2 hpos h1 h2
    rw [← run_arrayDataScript] at h1 h2
    obtain ⟨-, -, hgood1⟩ := delivers_of_run _ hpos h1
    obtain ⟨-, -, hgood2⟩ := delivers_of_run _ hpos h2
    rw [hgood1 rfl, hgood2 rfl, bytes_overlay_eq hlength hbytes]

mutual

theorem load_booleanFree (f g : UInt8 → UInt8) : (d : TypeDefinition) → d.booleanFree = true →
    (mem : List UInt8) → load f d mem = load g d mem
  | .builtin b, h, mem => by
    cases b with
    | boolean => cases h
    | _ => rfl
  | .enumeration _, _, _ => rfl
  | .opaqueType _, _, _ => rfl
  | .structure _ members, h, mem => by
    rw [load, load, loadMembers_booleanFree f g 0 members h]

theorem loadMembers_booleanFree (f g : UInt8 → UInt8) (pos : Nat) : (members : StructMembers) →
    booleanFreeMembers members = true →
    (mem : List UInt8) → loadMembers f pos members mem = loadMembers g pos members mem
  | .nil, _, _ => rfl
  | .cons _ memberType isArray rest, h, mem => by
    obtain ⟨htype, hrest⟩ := Bool.and_eq_true_iff.mp h
    simp only [loadMembers, load_booleanFree f g memberType htype,
      loadMembers_booleanFree f g _ rest hrest]

end

theorem loadElements_booleanFree {d : TypeDefinition} (h : d.booleanFree = true)
    (f g : UInt8 → UInt8) (n : Nat) (mem : List UInt8) :
    loadElements f d n mem = loadElements g d n mem := by
  induction n generalizing mem with
  | zero => rw [loadElements, loadElements, load_booleanFree f g d h]
  | succ n ih => simp only [loadElements, load_booleanFree f g d h, ih]

mutual

theorem booleanFree_of_load : (d : TypeDefinition) → d.overlayable = true → {mem : List UInt8} →
    mem.length = d.memSize → (∀ b ∈ mem, b = 2) → load id d mem = load truth d mem →
    d.booleanFree = true
  | .builtin b, _, mem, hlen, htwo, hsame => by
    cases b with
    | boolean =>
      obtain ⟨x, rfl⟩ := List.length_eq_one_iff.mp hlen
      obtain rfl : x = 2 := htwo x (List.mem_singleton.mpr rfl)
      have hbytes : (2 : UInt8) = 1 := Value.byte.inj (Option.some.inj hsame)
      exact absurd hbytes (by decide)
    | _ => rfl
  | .enumeration _, _, _, _, _, _ => rfl
  | .opaqueType _, _, _, _, _, _ => rfl
  | .structure name members, h, mem, hlen, htwo, hsame => by
    have hover := overlaid_of_overlayable h
    have hle := total_le_memSize name members
    refine booleanFree_of_loadMembers members hover (hlen ▸ hle) htwo ?_
    rw [load, load] at hsame
    exact Option.map_injective (fun _ _ heq => Value.structure.inj heq) hsame

theorem booleanFree_of_loadMembers : (members : StructMembers) → {pos : Nat} →
    Overlaid pos members → {mem : List UInt8} → payload (fields members) ≤ mem.length →
    (∀ b ∈ mem, b = 2) → loadMembers id pos members mem = loadMembers truth pos members mem →
    booleanFreeMembers members = true
  | .nil, _, _, _, _, _, _ => rfl
  | .cons name memberType isArray rest, pos, ⟨harray, htype, hoffset, hrest⟩, mem, hlen, htwo,
      hsame => by
    subst harray
    have hpayload : payload (fields (.cons name memberType false rest)) =
        memberType.memSize + payload (fields rest) := payload_cons _ _
    rw [hpayload] at hlen
    have htake : (mem.take memberType.memSize).length = memberType.memSize := by
      rw [List.length_take]
      omega
    have hdrop : payload (fields rest) ≤ (mem.drop memberType.memSize).length := by
      rw [List.length_drop]
      omega
    obtain ⟨v, hv, -⟩ := load_written memberType htype htake
    obtain ⟨ms, hms, -⟩ := loadMembers_written rest hrest hdrop
    have hleft : loadMembers id pos (.cons name memberType false rest) mem =
      some (.scalar v ms) := by
      simp [loadMembers, hoffset, hv, hms]
    have hright := hsame.symm.trans hleft
    obtain ⟨htruth, htruths⟩ : load truth memberType (mem.take memberType.memSize) = some v ∧
        loadMembers truth (pos + memberType.memSize) rest (mem.drop memberType.memSize) =
          some ms := by
      simpa [loadMembers, hoffset, Option.bind_eq_some_iff] using hright
    refine Bool.and_eq_true_iff.mpr ⟨?_, ?_⟩
    · exact booleanFree_of_load memberType htype htake (fun b hb =>
        htwo b (List.mem_of_mem_take hb))
        (hv.trans htruth.symm)
    · exact booleanFree_of_loadMembers rest hrest hdrop
        (fun b hb => htwo b (List.mem_of_mem_drop hb)) (hms.trans htruths.symm)

end

theorem datatype_structure {typedescriptions : String → Option NodeIdDescription} {name : String}
    {members : StructMembers} {info : TypeInfo} {flag : Bool} {hpos : 0 < info.memSize.toNat}
    {types : MemberTypes} (h : datatype typedescriptions (.structure name members) =
      some (.structure info flag hpos types)) :
    (TypeDefinition.structure name members).overlayable = flag ∧
      info.memSize.toNat = (TypeDefinition.structure name members).memSize ∧
      memberDatatypes typedescriptions members = some types := by
  obtain ⟨memberTypes, htypes, hfits⟩ := Option.bind_eq_some_iff.mp h
  split at hfits
  · next hsize =>
    obtain ⟨rfl, rfl, rfl⟩ := DataType.structure.inj (Option.some.inj hfits)
    refine ⟨rfl, ?_, htypes⟩
    rw [typeInfo_memSize, UInt16.toNat_ofNat_of_lt' hsize.1]
  · cases hfits

theorem datatype_of_marked {typedescriptions : String → Option NodeIdDescription} {name : String}
    {members : StructMembers} {info : TypeInfo} {hpos : 0 < info.memSize.toNat}
    {types : MemberTypes} (htypes : memberDatatypes typedescriptions members = some types)
    (hsize : (TypeDefinition.structure name members).memSize < 65536)
    (hlength : members.length < 256)
    (hinfo : typeInfo typedescriptions name
      (.ofNat (TypeDefinition.structure name members).memSize) = info)
    (hmarked : (TypeDefinition.structure name members).overlayable = true) :
    datatype typedescriptions (.structure name members) =
      some (.structure info true hpos types) := by
  subst hinfo
  rw [datatype, htypes, Option.bind_eq_bind, Option.bind_some, dif_pos ⟨hsize, hlength⟩]
  simp only [hmarked]

section

variable {type : DataType} {decode : DecodeM (Decoded Value)} {s s1 : DecodeState} {length : Nat}
  {length_pos : 0 < length}

theorem run_fails {status : StatusCode}
    (hheader : (arrayDecodeBinaryHeader env type.memSize).run s = .ok (.fails status, s1)) :
    (arrayDecodeBinary env type decode).run s = .ok ((status, .empty false), s1) := by
  unfold arrayDecodeBinary
  rw [run_bind_of_ok hheader]
  rfl

theorem run_empty {sentinel : Bool}
    (hheader : (arrayDecodeBinaryHeader env type.memSize).run s = .ok (.empty sentinel, s1)) :
    (arrayDecodeBinary env type decode).run s =
      .ok ((StatusCode.good, .empty sentinel), s1) := by
  unfold arrayDecodeBinary
  rw [run_bind_of_ok hheader]
  rfl

theorem run_copy (hover : type.overlayable = true) (hheader :
    (arrayDecodeBinaryHeader env type.memSize).run s = .ok (.allocated length length_pos, s1))
    (hs1 : s1.Inside) :
    if s1.pos + type.memSize * length ≤ s1.src.length then
      ∃ block : Block, (arrayDecodeBinary env type decode).run s =
          .ok ((StatusCode.good, .overlay block),
            { s1 with pos := s1.pos + type.memSize * length }) ∧
        block.length = length ∧
        block.mem = (s1.src.drop s1.pos).take (type.memSize * length)
    else ∃ s2, (arrayDecodeBinary env type decode).run s =
      .ok ((StatusCode.badDecodingError, .empty false), s2) := by
  unfold arrayDecodeBinary
  rw [run_bind_of_ok hheader]
  dsimp only
  rw [if_pos hover, arrayDecodeBinaryOverlay]
  split
  · next hend =>
    obtain ⟨bytes, hbytes, hrun⟩ := @run_decodePrimitive _ (type.memSize * length) some none s1
      hs1.start_le hend
    refine ⟨⟨type.memSize, length, bytes.toList, type.memSize_pos, length_pos,
      bytes.length_toList⟩, ?_, rfl, hbytes⟩
    rw [run_bind_of_ok hrun]
    rfl
  · next hend =>
    have hrun := @run_decodePrimitive_short _ (type.memSize * length) some none s1
      (Nat.not_le.mp hend)
    refine ⟨s1, ?_⟩
    rw [run_bind_of_ok hrun]
    rfl

theorem run_elements {d : TypeDefinition} (hover : type.overlayable = false) (hheader :
    (arrayDecodeBinaryHeader env type.memSize).run s = .ok (.allocated length length_pos, s1))
    (hs1 : s1.Inside) (htakes : Takes d.memSize (fun mem v => load truth d mem = some v) decode) :
    if s1.pos + length * d.memSize ≤ s1.src.length then
      ∃ vs, (arrayDecodeBinary env type decode).run s = .ok ((StatusCode.good, .elements vs),
          { s1 with pos := s1.pos + length * d.memSize }) ∧
        loadElements truth d (length - 1) ((s1.src.drop s1.pos).take (length * d.memSize)) = some vs
    else ∃ s2, (arrayDecodeBinary env type decode).run s =
      .ok ((StatusCode.badDecodingError, .empty false), s2) := by
  have helements := takes_elements htakes (length - 1)
  rw [Nat.sub_add_cancel length_pos] at helements
  unfold arrayDecodeBinary
  rw [run_bind_of_ok hheader]
  dsimp only
  rw [if_neg (Bool.eq_false_iff.mp hover)]
  split
  · next hend =>
    obtain ⟨vs, hvs, hrun⟩ := helements.enough hs1.start_le hend
    refine ⟨vs, ?_, hvs⟩
    rw [run_bind_of_ok hrun]
    rfl
  · next hend =>
    obtain ⟨vs, s2, hrun, -⟩ := helements.short hs1 (Nat.not_le.mp hend)
    refine ⟨s2, ?_⟩
    rw [run_bind_of_ok hrun]
    rfl

end

section

variable {name : String} {members : StructMembers} {info : TypeInfo}
  {hpos : 0 < info.memSize.toNat} {types : MemberTypes}

theorem takes_structure (h : datatype typedescriptions (.structure name members) =
      some (.structure info true hpos types))
    (hcompact : (TypeDefinition.structure name members).compact = true) :
    Takes (TypeDefinition.structure name members).memSize
      (fun mem v => load truth (.structure name members) mem = some v)
      (decodeMap .structure (decodeBinaryInternal env decodeType fuel types)) := by
  have hmarked := (datatype_structure h).1
  have htakes : Takes _ _
      (decodeBinaryEntry env decodeType fuel (.structure info true hpos types)) :=
    takes_entry (.structure name members) hmarked hcompact h
  rwa [decodeBinaryEntry] at htakes

theorem decodesAlike (h : datatype typedescriptions (.structure name members) =
      some (.structure info true hpos types))
    (hcompact : (TypeDefinition.structure name members).compact = true)
    (hfree : (TypeDefinition.structure name members).booleanFree = true) :
    DecodesAlike (.structure name members) info hpos types := by
  intro env decodeType fuel s hs decode
  obtain ⟨-, hsize, -⟩ := datatype_structure h
  -- the first part does not look at the mark
  have hreturns : ∃ header s1, ∀ flag, (arrayDecodeBinaryHeader env
      (DataType.memSize (.structure info flag hpos types))).run s = .ok (header, s1) ∧
        s1.Inside := by
    obtain ⟨header, s1, hheader, hs1⟩ := @header_returns env info.memSize.toNat s hs
    exact ⟨header, s1, fun flag => ⟨hheader, hs1⟩⟩
  obtain ⟨header, s1, hheader⟩ := hreturns
  cases header with
  | fails status =>
    exact ⟨_, _, _, s1, s1, run_fails (hheader true).1, run_fails (hheader false).1,
      fun _ => ⟨rfl, rfl⟩⟩
  | empty sentinel =>
    exact ⟨_, _, _, s1, s1, run_empty (hheader true).1, run_empty (hheader false).1,
      fun _ => ⟨rfl, rfl⟩⟩
  | allocated length length_pos =>
    have htakes : Takes _ _ decode := takes_structure h hcompact
    have hfast := @run_copy _ _ decode _ _ _ _ rfl (hheader true).1 (hheader true).2
    have hslow := run_elements rfl (hheader false).1 (hheader false).2 htakes
    have hmemSize : DataType.memSize (.structure info true hpos types) * length =
        length * (TypeDefinition.structure name members).memSize := by
      rw [← hsize, Nat.mul_comm]
      rfl
    rw [hmemSize] at hfast
    split at hfast
    · next hend =>
      rw [if_pos hend] at hslow
      obtain ⟨block, hrun, hlength, hmem⟩ := hfast
      obtain ⟨vs, hrun', hvs⟩ := hslow
      refine ⟨_, _, _, _, _, hrun, hrun', fun _ => ⟨?_, rfl⟩⟩
      rw [loadArray, hlength, hmem, loadElements_booleanFree hfree id truth, hvs]
      rfl
    · next hend =>
      rw [if_neg hend] at hslow
      obtain ⟨s2, hrun⟩ := hfast
      obtain ⟨s3, hrun'⟩ := hslow
      exact ⟨_, _, _, _, _, hrun, hrun', fun hbad => absurd hbad (by decide)⟩

theorem compact_of_exact (h : datatype typedescriptions (.structure name members) =
      some (.structure info true hpos types))
    (hexact : FastPathExact (.structure name members) info hpos types) :
    (TypeDefinition.structure name members).compact = true := by
  obtain ⟨hmarked, hsize, -⟩ := datatype_structure h
  -- one element, all of it zero
  let block : Block :=
    { memSize := info.memSize.toNat, length := 1, mem := List.replicate info.memSize.toNat 0
      memSize_pos := hpos, length_pos := Nat.one_pos, size_eq := by simp }
  obtain ⟨vs, hvs, halike⟩ := hexact.encodes block rfl
  have hlen : block.mem.length = (0 + 1) * (TypeDefinition.structure name members).memSize := by
    rw [Nat.zero_add, Nat.one_mul, ← hsize]
    exact List.length_replicate
  obtain ⟨vs', hvs', -, -, hiff, -⟩ := loadElements_written hmarked 0 hlen
  have hone : block.length - 1 = 0 := rfl
  rw [loadArray, hone, hvs'] at hvs
  obtain rfl : vs' = vs := ArrayData.elements.inj (Option.some.inj hvs)
  have hcalc := halike.calcSize_eq
  rw [arrayCalcSizeBinary, arrayCalcSizeBinary, ← block.size_eq] at hcalc
  exact hiff.mp (Nat.add_left_cancel hcalc).symm

theorem booleanFree_of_exact (h : datatype typedescriptions (.structure name members) =
      some (.structure info true hpos types))
    (hexact : FastPathExact (.structure name members) info hpos types) :
    (TypeDefinition.structure name members).booleanFree = true := by
  obtain ⟨hmarked, hsize, -⟩ := datatype_structure h
  have hcompact := compact_of_exact h hexact
  -- one element, all of its bytes 2
  let mem : List UInt8 := List.replicate info.memSize.toNat 2
  have hlen : mem.length = info.memSize.toNat := List.length_replicate
  let env : DecodeEnv := { types := [], customTypes := [], calloc := fun _ => true }
  let s := decodeStart ((uint32Script (.ofNat 1)).bytes ++ mem) 0
  have hs : s.Inside := ⟨Nat.zero_le _, Nat.zero_le _⟩
  have hat : s.At ((uint32Script (.ofNat 1)).bytes ++ mem) := ⟨hs.start_le, hs.pos_le, rfl⟩
  have hfilter : info.memSize.toNat * 1 / 32 ≤ mem.length := by omega
  obtain ⟨header, s1, hheader, rfl, hat1, -⟩ := @reads_arrayDecodeBinaryHeader env (fun _ => rfl)
    info.memSize.toNat 1 Nat.one_pos (by decide) s mem hat hfilter
  have hs1 : s1.Inside := ⟨hat1.start_le, hat1.pos_le⟩
  let decodeType : DataType → DecodeM (Decoded Value) := fun _ => throw Fault.diverges
  obtain ⟨r, a, a', s2, s3, hfast, hslow, hsame⟩ := hexact.decodes env decodeType 0 s hs
  have htakes :
    Takes _ _ (decodeMap Value.structure (decodeBinaryInternal env decodeType 0 types)) :=
    takes_structure h hcompact
  have hcopy := @run_copy env (.structure info true hpos types)
    (decodeMap Value.structure (decodeBinaryInternal env decodeType 0 types)) _ _ _ _ rfl
      hheader hs1
  have helements := @run_elements env (.structure info false hpos types) _ _ _ _ _ _ rfl hheader hs1
    htakes
  have hend : s1.pos + 1 * (TypeDefinition.structure name members).memSize ≤ s1.src.length := by
    rw [hat1.length_eq, hlen, hsize, Nat.one_mul]
  have hbytes : (s1.src.drop s1.pos).take (1 * (TypeDefinition.structure name members).memSize) =
      mem := by
    rw [hat1.drop_eq, Nat.one_mul, ← hsize, ← hlen, List.take_length]
  have hmemSize : DataType.memSize (.structure info true hpos types) * 1 =
      1 * (TypeDefinition.structure name members).memSize := by
    rw [Nat.one_mul, Nat.mul_one]
    exact hsize
  rw [hmemSize, if_pos hend, hbytes] at hcopy
  rw [if_pos hend, hbytes] at helements
  obtain ⟨block, hrun, hone, hmem⟩ := hcopy
  obtain ⟨vs, hrun', hvs⟩ := helements
  obtain ⟨⟨rfl, rfl⟩, -⟩ : (r = StatusCode.good ∧ a = .overlay block) ∧ _ := by
    simpa using hfast.symm.trans hrun
  obtain ⟨rfl, -⟩ : a' = .elements vs ∧ _ := by
    simpa using hslow.symm.trans hrun'
  have hload := (hsame rfl).1
  rw [loadArray, hone, hmem, ← Option.map_some] at hload
  have hid : loadElements id (.structure name members) 0 mem = some vs :=
    Option.map_injective (fun _ _ heq => ArrayData.elements.inj heq) hload
  have hboth := hid.trans hvs.symm
  have htake : mem.take (TypeDefinition.structure name members).memSize = mem := by
    rw [← hsize, ← hlen, List.take_length]
  rw [loadElements, Nat.sub_self, loadElements, htake] at hboth
  exact booleanFree_of_load _ hmarked (hlen.trans hsize) (fun b hb => List.eq_of_mem_replicate hb)
    (Option.map_injective (fun _ _ heq => Values.one.inj heq) hboth)

theorem exact_of_compact (h : datatype typedescriptions (.structure name members) =
      some (.structure info true hpos types))
    (hcompact : (TypeDefinition.structure name members).compact = true)
    (hfree : (TypeDefinition.structure name members).booleanFree = true) :
    FastPathExact (.structure name members) info hpos types where
  encodes := by
    intro block hblock
    obtain ⟨hmarked, hsize, -⟩ := datatype_structure h
    have hlength : block.length - 1 + 1 = block.length := Nat.sub_add_cancel block.length_pos
    have hlen : block.mem.length =
        (block.length - 1 + 1) * (TypeDefinition.structure name members).memSize := by
      rw [hlength, block.size_eq, hblock, hsize, Nat.mul_comm]
    obtain ⟨vs, hvs, hcount, hgood, hiff, -, hbytes⟩ := loadElements_written hmarked _ hlen
    refine ⟨vs, ?_, encodesAlike (hcount.trans hlength) hgood (hbytes hcompact)
      (hiff.mpr hcompact)⟩
    rw [loadArray, hvs]
    rfl
  decodes := decodesAlike h hcompact hfree

/-- For a structure that the generator marks as overlayable, the copy of an array comes to the same
as its elements member by member, encoded, decoded and counted, just when no byte of the structure
is left over and no member is a Boolean. -/
theorem fastPath_exact_iff (h : datatype typedescriptions (.structure name members) =
      some (.structure info true hpos types)) :
    FastPathExact (.structure name members) info hpos types ↔
      (TypeDefinition.structure name members).compact = true ∧
        (TypeDefinition.structure name members).booleanFree = true :=
  ⟨fun hexact => ⟨compact_of_exact h hexact, booleanFree_of_exact h hexact⟩,
    fun ⟨hcompact, hfree⟩ => exact_of_compact h hcompact hfree⟩

end

/-- `Range` of the schema, two Doubles: the copy is right. -/
theorem fastPath_exact_range : FastPathExact
    (.structure "Range" (structMembers
      [⟨"Low", .builtin .double, none⟩, ⟨"High", .builtin .double, none⟩]))
    { typeId := ⟨0, .numeric 0⟩, memSize := 16, binaryEncodingId := 0 } (by decide)
    (.scalar (.builtin .double) (.scalar (.builtin .double) .nil)) :=
  (@fastPath_exact_iff (fun _ => none) _ _ _ _ _ (datatype_of_marked rfl (by decide) (by decide)
    (by decide) (by decide +kernel))).mpr ⟨by decide, by decide⟩

/-- `ChannelSecurityToken` of the schema (`tools/schema/Opc.Ua.Types.bsd:705-711`), three numbers of
four bytes and one of eight. Four bytes behind the last member go on the wire with every element. -/
theorem channelSecurityToken_padding_copied :
    ¬ ∀ (typedescriptions : String → Option NodeIdDescription)
    (name : String) (members : StructMembers) (info : TypeInfo) (hpos : 0 < info.memSize.toNat)
    (types : MemberTypes), datatype typedescriptions (.structure name members) =
      some (.structure info true hpos types) →
    FastPathExact (.structure name members) info hpos types := by
  intro h
  have hdatatype : datatype (fun _ => none) (.structure "ChannelSecurityToken" (structMembers
      [⟨"ChannelId", .builtin .uint32, none⟩, ⟨"TokenId", .builtin .uint32, none⟩,
        ⟨"CreatedAt", .builtin .dateTime, none⟩, ⟨"RevisedLifetime", .builtin .uint32, none⟩])) =
      some (.structure { typeId := ⟨0, .numeric 0⟩, memSize := 24, binaryEncodingId := 0 } true
        (by decide) (.scalar (.builtin .uint32) (.scalar (.builtin .uint32)
          (.scalar (.builtin .dateTime) (.scalar (.builtin .uint32) .nil))))) :=
    datatype_of_marked rfl (by decide) (by decide) (by decide) (by decide +kernel)
  have hcompact := compact_of_exact hdatatype (h _ _ _ _ _ _ hdatatype)
  exact absurd hcompact (by decide)

end FactoryThing.Encoding
