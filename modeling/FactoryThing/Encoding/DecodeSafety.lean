import FactoryThing.Encoding.Congruence
import FactoryThing.Lib.Stateful

/-!
# Safety of decoding

No input makes the decoder read outside the bytes it was given, and it always comes to an end:
whatever is nested in an ExtensionObject or a Variant is decoded only after a byte of the source has
been consumed, so the number of bytes left bounds the depth (`safe_decodeBinaryJumpTable`). What the
code does not guard is the jump over the length field in front of a wrapped structure. When the
field is cut off by the end of the source, the cursor comes to lie behind the end. Every later read
is then refused; but a structure without any content asks for none.
-/

namespace FactoryThing.Encoding

open Stateful

/-- The number of bytes between `pos` and `end`. -/
def DecodeState.remaining (s : DecodeState) : Nat := s.src.length - s.pos

/-- Every length field that was jumped over lies within the source. -/
def DecodeState.JumpsInside (s : DecodeState) : Prop := ∀ p ∈ s.jumps, p + 4 ≤ s.src.length

/-- The invariant of decoding: `pos` is not in front of the caller's offset, and it is behind the
end just when a jump has gone there. -/
structure DecodeState.Sound (s : DecodeState) : Prop where
  start_le : s.start ≤ s.pos
  inside_iff : s.JumpsInside ↔ s.pos ≤ s.src.length

/-- What every function of the decoder leaves in place: the bounds of the source, and all that has
been consumed stays consumed. -/
structure DecodeState.Leads (s s' : DecodeState) : Prop where
  start_eq : s'.start = s.start
  length_eq : s'.src.length = s.src.length
  pos_le : s.pos ≤ s'.pos

namespace DecodeState

variable {s s' s'' : DecodeState}

theorem Leads.refl (s : DecodeState) : s.Leads s := ⟨rfl, rfl, Nat.le_refl _⟩

theorem Leads.trans (h : s.Leads s') (h' : s'.Leads s'') : s.Leads s'' :=
  ⟨h'.start_eq.trans h.start_eq, h'.length_eq.trans h.length_eq, h.pos_le.trans h'.pos_le⟩

theorem Leads.remaining_le (h : s.Leads s') : s'.remaining ≤ s.remaining := by
  have hlen := h.length_eq
  have hpos := h.pos_le
  unfold remaining
  omega

theorem Sound.forward (h : s.Sound) {size : Nat} (hsize : s.pos + size ≤ s.src.length) :
    Sound { s with pos := s.pos + size } := by
  refine ⟨Nat.le_add_right_of_le h.start_le, ?_⟩
  constructor
  · exact fun _ => hsize
  · exact fun _ => h.inside_iff.mpr (by omega)

theorem Sound.back (h : s.Sound) (hpos : s.pos ≤ s.src.length) {p : Nat} (hstart : s.start ≤ p)
    (hp : p ≤ s.pos) : Sound { s with pos := p } := by
  refine ⟨hstart, ?_⟩
  constructor
  · exact fun _ => hp.trans hpos
  · exact fun _ => h.inside_iff.mpr hpos

theorem Sound.jump (h : s.Sound) :
    Sound { s with pos := s.pos + 4, jumps := s.jumps ++ [s.pos] } := by
  refine ⟨Nat.le_add_right_of_le h.start_le, ?_⟩
  constructor
  · intro hinside
    exact hinside s.pos (by simp)
  · intro hpos p hp
    rcases List.mem_append.mp hp with hold | hnew
    · exact h.inside_iff.mpr (Nat.le_of_add_right_le hpos) p hold
    · rw [List.mem_singleton.mp hnew]
      exact hpos

end DecodeState

open DecodeState

variable {α β : Type} {m n : Nat}

/-- A function that returns in every sound state with fewer than `n` bytes left, and leaves a sound
state. -/
def Safe (n : Nat) (d : DecodeM α) : Prop :=
  ∀ s : DecodeState, s.Sound → s.remaining < n →
    ∃ a s', d.run s = .ok (a, s') ∧ s'.Sound ∧ s.Leads s'

/-- A function that consumes at least one byte when it succeeds. -/
def Consumes (d : DecodeM (Decoded α)) : Prop :=
  ∀ (s s' : DecodeState) (a : α), s.Sound → d.run s = .ok ((StatusCode.good, a), s') →
    s.pos < s'.pos ∧ s'.pos ≤ s'.src.length

theorem safe_pure (a : α) : Safe n (pure a) :=
  fun s hs _ => ⟨a, s, rfl, hs, Leads.refl s⟩

theorem Safe.bind {d : DecodeM α} {f : α → DecodeM β} (hd : Safe n d) (hf : ∀ a, Safe n (f a)) :
    Safe n (d >>= f) := by
  intro s hs hn
  obtain ⟨a, s1, hrun, hs1, hleads⟩ := hd s hs hn
  obtain ⟨b, s2, hrun', hs2, hleads'⟩ := hf a s1 hs1 (Nat.lt_of_le_of_lt hleads.remaining_le hn)
  refine ⟨b, s2, ?_, hs2, hleads.trans hleads'⟩
  rw [run_bind_of_ok hrun]
  exact hrun'

theorem Safe.bind_consumes {d : DecodeM (Decoded α)} {f : Decoded α → DecodeM β}
    (hd : Safe (n + 1) d) (hc : Consumes d)
    (hbad : ∀ r a, r ≠ StatusCode.good → Safe (n + 1) (f (r, a)))
    (hgood : ∀ a, Safe n (f (StatusCode.good, a))) : Safe (n + 1) (d >>= f) := by
  intro s hs hn
  obtain ⟨⟨r, a⟩, s1, hrun, hs1, hleads⟩ := hd s hs hn
  rw [run_bind_of_ok hrun]
  by_cases hr : r = StatusCode.good
  · subst hr
    have hlt : s1.remaining < n := by
      have hpos := hc s s1 a hs hrun
      have hlen := hleads.length_eq
      unfold remaining at hn ⊢
      omega
    obtain ⟨b, s2, hrun', hs2, hleads'⟩ := hgood a s1 hs1 hlt
    exact ⟨b, s2, hrun', hs2, hleads.trans hleads'⟩
  · obtain ⟨b, s2, hrun', hs2, hleads'⟩ :=
      hbad r a hr s1 hs1 (Nat.lt_of_le_of_lt hleads.remaining_le hn)
    exact ⟨b, s2, hrun', hs2, hleads.trans hleads'⟩

theorem Safe.ite {c : Prop} [Decidable c] {d e : DecodeM α} (hd : c → Safe n d)
    (he : ¬ c → Safe n e) : Safe n (if c then d else e) := by
  split
  · next h => exact hd h
  · next h => exact he h

theorem Safe.both {a : DecodeM (Decoded α)} {b : DecodeM (Decoded β)} (ha : Safe n a)
    (hb : Safe n b) : Safe n (decodeBoth a b) :=
  ha.bind fun _ => hb.bind fun _ => safe_pure _

theorem Safe.map {a : DecodeM (Decoded α)} {f : α → β} (ha : Safe n a) :
    Safe n (decodeMap f a) :=
  ha.bind fun _ => safe_pure _

theorem Safe.onlyIf {c : Bool} {b : DecodeM (Decoded β)} {zero : β} (hb : Safe n b) :
    Safe n (decodeIf c b zero) := by
  cases c with
  | false => exact safe_pure _
  | true => exact hb

theorem Safe.field {c : Bool} {a : DecodeM (Decoded α)} (ha : Safe n a) :
    Safe n (decodeField c a) :=
  ha.map.onlyIf

theorem safe_allocate (env : DecodeEnv) : Safe n (allocate env) :=
  fun s hs _ => ⟨env.calloc s.allocations, { s with allocations := s.allocations + 1 }, rfl,
    ⟨hs.start_le, hs.inside_iff⟩, ⟨rfl, rfl, Nat.le_refl _⟩⟩

theorem safe_jumpOverLength : Safe n jumpOverLength :=
  fun _ hs _ => ⟨(), _, rfl, hs.jump, ⟨rfl, rfl, Nat.le_add_right _ _⟩⟩

/-! ## Primitive types -/

theorem run_readBytes {size : Nat} {s : DecodeState} (hstart : s.start ≤ s.pos)
    (hend : s.pos + size ≤ s.src.length) :
    ∃ bytes : Vector UInt8 size, (readBytes size).run s = .ok (bytes, s) ∧
      bytes.toList = (s.src.drop s.pos).take size := by
  unfold readBytes
  rw [run_get_bind, dif_pos ⟨hstart, hend⟩]
  exact ⟨_, rfl, rfl⟩

theorem run_decodePrimitive_short {size : Nat} {fromBytes : Vector UInt8 size → α} {zero : α}
    {s : DecodeState} (h : s.tooShort size) :
    (decodePrimitive size fromBytes zero).run s =
      .ok ((StatusCode.badDecodingError, zero), s) := by
  unfold decodePrimitive
  rw [run_get_bind, if_pos h]
  rfl

theorem run_decodePrimitive {size : Nat} {fromBytes : Vector UInt8 size → α} {zero : α}
    {s : DecodeState} (hstart : s.start ≤ s.pos) (hend : s.pos + size ≤ s.src.length) :
    ∃ bytes : Vector UInt8 size, bytes.toList = (s.src.drop s.pos).take size ∧
      (decodePrimitive size fromBytes zero).run s =
        .ok ((StatusCode.good, fromBytes bytes), { s with pos := s.pos + size }) := by
  obtain ⟨bytes, hrun, hbytes⟩ := run_readBytes hstart hend
  refine ⟨bytes, hbytes, ?_⟩
  unfold decodePrimitive
  rw [run_get_bind, if_neg (show ¬ s.tooShort size from Nat.not_lt.mpr hend),
    run_bind_of_ok hrun]
  rfl

theorem safe_decodePrimitive {size : Nat} {fromBytes : Vector UInt8 size → α} {zero : α} :
    Safe n (decodePrimitive size fromBytes zero) := by
  intro s hs _
  by_cases h : s.tooShort size
  · exact ⟨_, s, run_decodePrimitive_short h, hs, Leads.refl s⟩
  · have hend : s.pos + size ≤ s.src.length := Nat.not_lt.mp h
    obtain ⟨bytes, -, hrun⟩ := @run_decodePrimitive _ _ fromBytes zero _
      hs.start_le hend
    exact ⟨_, _, hrun, hs.forward hend, ⟨rfl, rfl, Nat.le_add_right _ _⟩⟩

theorem consumes_decodePrimitive {size : Nat} (hsize : 0 < size)
    {fromBytes : Vector UInt8 size → α} {zero : α} :
    Consumes (decodePrimitive size fromBytes zero) := by
  intro s s' a hs hrun
  by_cases h : s.tooShort size
  · rw [run_decodePrimitive_short h] at hrun
    cases hrun
  · have hend : s.pos + size ≤ s.src.length := Nat.not_lt.mp h
    obtain ⟨bytes, -, hrun'⟩ := @run_decodePrimitive _ _ fromBytes zero _
      hs.start_le hend
    rw [hrun'] at hrun
    cases hrun
    exact ⟨Nat.lt_add_of_pos_right hsize, hend⟩

theorem consumes_byteDecodeBinary : Consumes byteDecodeBinary :=
  consumes_decodePrimitive Nat.one_pos

theorem safe_get_bind {f : DecodeState → DecodeM α} (hf : ∀ s, Safe n (f s)) :
    Safe n (get >>= f) :=
  fun s hs hn => hf s s hs hn

/-- The building blocks are safe, and so is what is decoded without a jump. -/
theorem safe_leaf (env : DecodeEnv) : CongruentLeaf env fun _ d _ => Safe n d where
  pure := safe_pure
  bind hd hf := Safe.bind hd hf
  primitive _ _ _ := safe_decodePrimitive
  tooShort := by
    intro α size d d' e e' hd he
    exact safe_get_bind fun s => Safe.ite (fun _ => hd) (fun _ => he)
  allocate := safe_allocate env

theorem safe_byteDecodeBinary : Safe n byteDecodeBinary := safe_decodePrimitive

theorem safe_uint16DecodeBinary : Safe n uint16DecodeBinary := safe_decodePrimitive

theorem safe_uint32DecodeBinary : Safe n uint32DecodeBinary := safe_decodePrimitive

theorem safe_uint64DecodeBinary : Safe n uint64DecodeBinary := safe_decodePrimitive

theorem safe_stringDecodeBinary (env : DecodeEnv) : Safe n (stringDecodeBinary env) :=
  (safe_leaf env).string

theorem safe_arrayDecodeBinary (env : DecodeEnv) (type : DataType)
    {decodeType : DecodeM (Decoded Value)} (h : Safe n decodeType) :
    Safe n (arrayDecodeBinary env type decodeType) :=
  (safe_leaf env).array (e := decodeType) type h

theorem safe_nodeIdDecodeBinary (env : DecodeEnv) : Safe n (nodeIdDecodeBinary env) :=
  (safe_leaf env).nodeId

theorem run_maskEncodingByte {s : DecodeState} (hstart : s.start ≤ s.pos)
    (hend : s.pos + 1 ≤ s.src.length) :
    ∃ encoding, maskEncodingByte.run s =
      .ok (encoding, { s with src := s.src.set s.pos (encoding &&& 0x3F) }) := by
  obtain ⟨bytes, hrun, -⟩ := run_readBytes hstart hend
  refine ⟨bytes.get ⟨0, Nat.one_pos⟩, ?_⟩
  unfold maskEncodingByte
  rw [run_bind_of_ok hrun]
  rfl

theorem safe_expandedNodeIdDecodeBinary (env : DecodeEnv) :
    Safe n (expandedNodeIdDecodeBinary env) := by
  intro s hs hn
  unfold expandedNodeIdDecodeBinary
  rw [run_get_bind]
  by_cases h : s.tooShort 1
  · rw [if_pos h]
    exact ⟨_, s, rfl, hs, Leads.refl s⟩
  · rw [if_neg h]
    obtain ⟨encoding, hmask⟩ := run_maskEncodingByte hs.start_le (Nat.not_lt.mp h)
    rw [run_bind_of_ok hmask]
    generalize hs1 : ({ s with src := s.src.set s.pos (encoding &&& 0x3F) } : DecodeState) = s1
    have hlen : s1.src.length = s.src.length := by rw [← hs1, List.length_set]
    have hsound : s1.Sound := by
      constructor
      · rw [← hs1]
        exact hs.start_le
      · unfold JumpsInside
        rw [hlen, ← hs1]
        exact hs.inside_iff
    have hleads : s.Leads s1 := by
      refine ⟨?_, hlen, ?_⟩
      · rw [← hs1]
      · rw [← hs1]
    have hrest : Safe n (decodeBoth
        (decodeBoth (nodeIdDecodeBinary env)
          (decodeIf (encoding &&& 0x80 ≠ 0) (stringDecodeBinary env) .null))
        (decodeIf (encoding &&& 0x40 ≠ 0) uint32DecodeBinary 0)) :=
      ((safe_nodeIdDecodeBinary env).both (safe_stringDecodeBinary env).onlyIf).both
        safe_uint32DecodeBinary.onlyIf
    obtain ⟨a, s2, hrun, hs2, hleads2⟩ :=
      hrest.map s1 hsound (Nat.lt_of_le_of_lt hleads.remaining_le hn)
    exact ⟨a, s2, hrun, hs2, hleads.trans hleads2⟩

theorem safe_diagnosticInfoDecodeBinary (env : DecodeEnv) (fuel : Nat) :
    Safe fuel (diagnosticInfoDecodeBinary env fuel) := by
  induction fuel with
  | zero => exact fun s _ hn => absurd hn (Nat.not_lt_zero _)
  | succ fuel ih =>
    apply safe_byteDecodeBinary.bind_consumes consumes_byteDecodeBinary
    · intro retval encodingMask hr
      exact Safe.ite (fun _ => safe_pure _) (fun h => absurd hr h)
    · intro encodingMask
      apply Safe.ite (fun h => absurd rfl h)
      intro _
      apply Safe.bind
      · exact ((((safe_uint32DecodeBinary.field.both safe_uint32DecodeBinary.field).both
          safe_uint32DecodeBinary.field).both safe_uint32DecodeBinary.field).both
          (safe_stringDecodeBinary env).field).both safe_uint32DecodeBinary.field
      rintro ⟨status, _, _⟩
      apply Safe.ite
      · exact fun _ => safe_pure _
      intro _
      apply (safe_allocate env).bind
      intro success
      apply Safe.ite
      · intro _
        apply ih.bind
        rintro ⟨inner, d⟩
        exact safe_pure _
      · exact fun _ => safe_pure _

theorem Consumes.both {a : DecodeM (Decoded α)} {b : DecodeM (Decoded β)}
    (ha : ∀ n, Safe n a) (hb : Consumes b) : Consumes (decodeBoth a b) := by
  intro s s' c hs hrun
  obtain ⟨⟨r, x⟩, s1, hrun1, hs1, hleads⟩ := ha (s.remaining + 1) s hs (Nat.lt_succ_self _)
  unfold decodeBoth at hrun
  rw [run_bind_of_ok hrun1] at hrun
  obtain ⟨⟨r2, y⟩, s2, hrun2, hlast⟩ := run_bind_ok.mp hrun
  obtain ⟨hstatus, rfl⟩ := run_pure_ok.mp hlast
  have hr2 : r2 = StatusCode.good :=
    (UInt32.or_eq_zero_iff.mp (Prod.ext_iff.mp hstatus).1.symm).2
  rw [hr2] at hrun2
  obtain ⟨hlt, hle⟩ := hb s1 s' y hs1 hrun2
  exact ⟨Nat.lt_of_le_of_lt hleads.pos_le hlt, hle⟩

variable {env : DecodeEnv} {decodeType : DataType → DecodeM (Decoded Value)}

theorem safe_extensionObjectDecodeBinary (h : ∀ type, Safe n (decodeType type)) :
    Safe (n + 1) (extensionObjectDecodeBinary env decodeType) := by
  apply Safe.bind_consumes ((safe_nodeIdDecodeBinary env).both safe_byteDecodeBinary)
    (Consumes.both (fun _ => safe_nodeIdDecodeBinary env) consumes_byteDecodeBinary)
  · rintro retval ⟨typeId, encoding⟩ hr
    apply Safe.ite
    · exact fun _ => safe_pure _
    · exact fun _ => Safe.ite (fun _ => safe_pure _) (fun hgood => absurd hr hgood)
  · rintro ⟨typeId, encoding⟩
    apply Safe.ite
    · exact fun _ => safe_pure _
    intro _
    apply Safe.ite (fun hbad => absurd rfl hbad)
    intro _
    apply Safe.ite
    · exact fun _ => (safe_leaf env).objectContent (e := decodeType) safe_jumpOverLength h typeId
    intro _
    apply Safe.ite
    · exact fun _ => safe_pure _
    intro _
    apply Safe.ite
    · exact fun _ => (safe_stringDecodeBinary env).map
    · exact fun _ => safe_pure _

theorem safe_variantDecodeBinaryUnwrapContent (h : ∀ type, Safe n (decodeType type))
    (type : DataType) : Safe n (variantDecodeBinaryUnwrapContent env decodeType type) :=
  (safe_leaf env).unwrapContent (e := decodeType) h type

theorem safe_variantDecodeBinaryUnwrapExtensionObject (h : ∀ type, Safe n (decodeType type)) :
    Safe n (variantDecodeBinaryUnwrapExtensionObject env decodeType) := by
  intro s hs hn
  obtain ⟨⟨r, typeId⟩, s1, hrun1, hs1, hleads1⟩ := safe_nodeIdDecodeBinary env s hs hn
  obtain ⟨⟨r2, encoding⟩, s2, hrun2, hs2, hleads2⟩ :=
    safe_byteDecodeBinary s1 hs1 (Nat.lt_of_le_of_lt hleads1.remaining_le hn)
  have hleads := hleads1.trans hleads2
  unfold variantDecodeBinaryUnwrapExtensionObject
  rw [run_get_bind, run_bind_of_ok hrun1]
  by_cases hr : r = StatusCode.good
  · dsimp only
    rw [if_neg (not_not_intro hr), run_bind_of_ok hrun2]
    by_cases hr2 : r2 = StatusCode.good
    · rw [if_neg (not_not_intro hr2)]
      split
      · next type _ =>
        obtain ⟨a, s3, hrun3, hs3, hleads3⟩ :=
          (safe_jumpOverLength.bind fun _ => safe_variantDecodeBinaryUnwrapContent h type) s2 hs2
            (Nat.lt_of_le_of_lt hleads.remaining_le hn)
        exact ⟨a, s3, hrun3, hs3, hleads.trans hleads3⟩
      · -- back to the beginning of the ExtensionObject
        subst hr2
        have hend := (consumes_byteDecodeBinary s1 s2 encoding hs1 hrun2).2
        have hback : ({ s2 with pos := s.pos } : DecodeState).Sound :=
          hs2.back hend (hleads.start_eq ▸ hs.start_le) hleads.pos_le
        have hleads3 : s.Leads { s2 with pos := s.pos } :=
          ⟨hleads.start_eq, hleads.length_eq, Nat.le_refl _⟩
        obtain ⟨a, s4, hrun4, hs4, hleads4⟩ :=
          @safe_variantDecodeBinaryUnwrapContent _ env _ h (.builtin .extensionObject) _ hback
            (Nat.lt_of_le_of_lt hleads3.remaining_le hn)
        exact ⟨a, s4, hrun4, hs4, hleads3.trans hleads4⟩
    · rw [if_pos hr2]
      exact ⟨_, s2, rfl, hs2, hleads⟩
  · dsimp only
    rw [if_pos hr]
    exact ⟨_, s1, rfl, hs1, hleads1⟩

theorem safe_variantDecodeBinary (h : ∀ type, Safe n (decodeType type)) :
    Safe (n + 1) (variantDecodeBinary env decodeType) := by
  apply safe_byteDecodeBinary.bind_consumes consumes_byteDecodeBinary
  · intro retval encodingByte hr
    exact Safe.ite (fun _ => safe_pure _) (fun hgood => absurd hr hgood)
  intro encodingByte
  apply Safe.ite (fun hbad => absurd rfl hbad)
  intro _
  apply Safe.ite
  · exact fun _ => safe_pure _
  intro _
  apply Safe.ite
  · exact fun _ => safe_pure _
  intro _
  split
  · exact safe_pure _
  · next b _ =>
    apply Safe.ite
    · exact fun _ => ((safe_arrayDecodeBinary env (.builtin b) (h (.builtin b))).both
        (Safe.onlyIf (safe_leaf env).dimensions)).map
    intro _
    apply Safe.ite
    · exact fun _ => safe_variantDecodeBinaryUnwrapExtensionObject h
    intro _
    apply (safe_allocate env).bind
    intro success
    exact Safe.ite (fun _ => (h (.builtin b)).map) (fun _ => safe_pure _)

theorem safe_dataValueDecodeBinary (h : ∀ type, Safe n (decodeType type)) :
    Safe (n + 1) (dataValueDecodeBinary env decodeType) := by
  apply safe_byteDecodeBinary.bind
  rintro ⟨retval, encodingMask⟩
  apply Safe.ite
  · exact fun _ => safe_pure _
  intro _
  exact (((((((safe_variantDecodeBinary h).onlyIf.both safe_uint32DecodeBinary.field).both
    safe_uint64DecodeBinary.field).both (Safe.map safe_uint16DecodeBinary).field).both
    safe_uint64DecodeBinary.field).both (Safe.map safe_uint16DecodeBinary).field)).map

theorem safe_builtinDecodeBinary (h : ∀ type, Safe n (decodeType type)) (b : Builtin) :
    Safe (n + 1) (builtinDecodeBinary env decodeType (n + 1) b) := by
  cases b with
  | boolean => exact Safe.map safe_decodePrimitive
  | sbyte | byte => exact safe_byteDecodeBinary.map
  | int16 | uint16 => exact safe_uint16DecodeBinary.map
  | int32 | uint32 => exact safe_uint32DecodeBinary.map
  | int64 | uint64 => exact safe_uint64DecodeBinary.map
  | float => exact safe_uint32DecodeBinary.map
  | double => exact safe_uint64DecodeBinary.map
  | string => exact (safe_stringDecodeBinary env).map
  | dateTime => exact safe_uint64DecodeBinary.map
  | guid => exact Safe.map (safe_leaf env).guid
  | byteString | xmlElement => exact (safe_stringDecodeBinary env).map
  | nodeId => exact (safe_nodeIdDecodeBinary env).map
  | expandedNodeId => exact (safe_expandedNodeIdDecodeBinary env).map
  | statusCode => exact safe_uint32DecodeBinary.map
  | qualifiedName =>
    rw [builtinDecodeBinary]
    exact (safe_uint16DecodeBinary.both (safe_stringDecodeBinary env)).map
  | localizedText => exact Safe.map (safe_leaf env).localizedText
  | extensionObject => exact safe_extensionObjectDecodeBinary h
  | dataValue => exact safe_dataValueDecodeBinary h
  | variant => exact (safe_variantDecodeBinary h).map
  | diagnosticInfo => exact (safe_diagnosticInfoDecodeBinary env (n + 1)).map

mutual

theorem safe_decodeBinaryEntry (h : ∀ type, Safe n (decodeType type)) :
    (type : DataType) → Safe (n + 1) (decodeBinaryEntry env decodeType (n + 1) type)
  | .builtin b => by
    rw [decodeBinaryEntry]
    exact safe_builtinDecodeBinary h b
  | .enumeration _ _ => by
    rw [decodeBinaryEntry]
    exact safe_uint32DecodeBinary.map
  | .structure _ _ _ members => by
    rw [decodeBinaryEntry]
    exact (safe_decodeBinaryInternal h members).map

theorem safe_decodeBinaryInternal (h : ∀ type, Safe n (decodeType type)) :
    (members : MemberTypes) → Safe (n + 1) (decodeBinaryInternal env decodeType (n + 1) members)
  | .nil => by
    rw [decodeBinaryInternal]
    exact safe_pure _
  | .scalar type rest => by
    rw [decodeBinaryInternal]
    exact ((safe_decodeBinaryEntry h type).both (safe_decodeBinaryInternal h rest)).map
  | .array type rest => by
    rw [decodeBinaryInternal]
    exact ((safe_arrayDecodeBinary env type (safe_decodeBinaryEntry h type)).both
      (safe_decodeBinaryInternal h rest)).map

end

theorem safe_decodeBinaryJumpTable (fuel : Nat) (type : DataType) :
    Safe fuel (decodeBinaryJumpTable env fuel type) := by
  induction fuel generalizing type with
  | zero => exact fun s _ hn => absurd hn (Nat.not_lt_zero _)
  | succ fuel ih => exact safe_decodeBinaryEntry ih type

/-- What `UA_decodeBinary` owes its caller: a good status comes with an offset between the old one
and the length of the source, any other one leaves the offset alone and the destination zero. -/
def SafeResult (src : List UInt8) (offset : Nat) (type : DataType) (result : DecodeResult) : Prop :=
  (result.status = StatusCode.good → offset ≤ result.offset ∧ result.offset ≤ src.length) ∧
    (result.status ≠ StatusCode.good → result.offset = offset ∧ result.dst = zeroValue type)

/-- `UA_decodeBinary` always returns, without a read outside the bytes from the offset on, whatever
the source, the type and the allocations that fail. As long as every length field that it jumps over
lies within the source, the caller gets what he is owed; when one is cut off by the end of the
source, he gets it only where an error is reported. -/
theorem decodeBinary_safe (env : DecodeEnv) {fuel : Nat} {src : List UInt8} {offset : Nat}
    (type : DataType) (hoffset : offset ≤ src.length) (hfuel : src.length - offset < fuel) :
    ∃ result s, decodeBinary env fuel src offset type = .ok (result, s) ∧
      (s.JumpsInside → SafeResult src offset type result) ∧
      (¬ s.JumpsInside →
        (SafeResult src offset type result ↔ result.status ≠ StatusCode.good)) := by
  have hstart : (decodeStart src offset).Sound := by
    refine ⟨Nat.le_refl _, ?_⟩
    constructor
    · exact fun _ => hoffset
    · exact fun _ p hp => absurd hp (List.not_mem_nil)
  obtain ⟨⟨r, dst⟩, s, hrun, hs, hleads⟩ := @safe_decodeBinaryJumpTable env fuel type _
    hstart hfuel
  have hlen : s.src.length = src.length := hleads.length_eq
  have hpos : offset ≤ s.pos := hleads.pos_le
  unfold decodeBinary
  rw [hrun]
  by_cases hr : r = StatusCode.good
  · refine ⟨⟨r, s.pos, dst⟩, s, ?_, ?_, ?_⟩
    · show (if r = StatusCode.good then _ else _) = _
      rw [if_pos hr]
      rfl
    · intro hinside
      exact ⟨fun _ => ⟨hpos, hlen ▸ hs.inside_iff.mp hinside⟩, fun hbad => absurd hr hbad⟩
    · intro houtside
      constructor
      · intro hsafe
        exact absurd (hs.inside_iff.mpr (hlen.symm ▸ (hsafe.1 hr).2)) houtside
      · exact fun hbad => absurd hr hbad
  · have hsafe : SafeResult src offset type ⟨r, offset, zeroValue type⟩ :=
      ⟨fun hgood => absurd hgood hr, fun _ => ⟨rfl, rfl⟩⟩
    refine ⟨⟨r, offset, zeroValue type⟩, s, ?_, fun _ => hsafe, fun _ =>
      ⟨fun _ => hr, fun _ => hsafe⟩⟩
    show (if r = StatusCode.good then _ else _) = _
    rw [if_neg hr]
    rfl

/-- The DiscoveryConfiguration of `tools/schema/Opc.Ua.Types.bsd` has no fields. -/
def discoveryConfiguration : DataType :=
  .structure ⟨⟨0, .numeric 12890⟩, 8, 12900⟩ true (by decide) .nil

/-- The builtin types and the DiscoveryConfiguration; every allocation succeeds. -/
def discoveryEnv : DecodeEnv where
  types := (List.range 25).filterMap (fun i => (Builtin.ofIndex i).map .builtin) ++
    [discoveryConfiguration]
  customTypes := []
  calloc := fun _ => true

/-- An ExtensionObject that ends behind its encoding byte. -/
def cutObject : List UInt8 := [0x01, 0x00, 0x64, 0x32, 0x01]

theorem decodeBinary_safe_cutObject :
    ∃ result s, decodeBinary discoveryEnv 6 cutObject 0 (.builtin .extensionObject) =
        .ok (result, s) ∧
      (s.JumpsInside → SafeResult cutObject 0 (.builtin .extensionObject) result) ∧
      (¬ s.JumpsInside →
        (SafeResult cutObject 0 (.builtin .extensionObject) result ↔
          result.status ≠ StatusCode.good)) :=
  decodeBinary_safe discoveryEnv (.builtin .extensionObject) (Nat.zero_le _) (by decide)

/-- The length field of the ExtensionObject is missing altogether. The decoder accepts the object
and gives back an offset of 9 in a source of 5 bytes. -/
theorem cutObject_accepted :
    ∃ result s, decodeBinary discoveryEnv 6 cutObject 0 (.builtin .extensionObject) =
        .ok (result, s) ∧
      result.status = StatusCode.good ∧ result.offset = 9 ∧
      ¬ SafeResult cutObject 0 (.builtin .extensionObject) result := by
  refine ⟨_, _, rfl, rfl, rfl, ?_⟩
  intro hsafe
  exact absurd (hsafe.1 rfl).2 (by decide)

end FactoryThing.Encoding
