import FactoryThing.Encoding.Nested

/-!
# The decoder returns regular values

A value that a run of the decoder ended with is regular. It is one that the encoder does not refuse
and whose encoding loses nothing, unless it holds a DiagnosticInfo or a structure too large to be
wrapped. The lemmas follow the functions of the decoder; what is nested in an ExtensionObject or a
Variant is an assumption of the single functions.
-/

namespace FactoryThing.Encoding

open Stateful DecodeState

variable {α : Type} {env : DecodeEnv} {tables : TypeTables} {fuel : Nat} {type : DataType}

/-- `d` returns nothing but regular values, and plain ones can be encoded without loss. -/
def ReturnsRegular (tables : TypeTables) (type : DataType) (d : DecodeM (Decoded Value)) : Prop :=
  ∀ v, Returns d v → Regular tables type v ∧ (Plain v → (script v).FailFree ∧ Carried v)

/-- Both decoders use the same generated tables, and the second never runs out of memory. -/
structure SameTables (env env' : DecodeEnv) (tables : TypeTables) : Prop where
  first : env.toTypeTables = tables
  second : env'.toTypeTables = tables
  calloc : ∀ k, env'.calloc k = true
  generated : Generated tables

theorem find_encodingTypeId {typeId : NodeId} (h : findDataTypeByBinary tables typeId = some type) :
    findDataTypeByBinary tables (encodingTypeId type.info) = some type := by
  rw [(findDataTypeByBinary_some h).1]
  exact h

theorem failFree_encodedObjectScript {typeId : NodeId} {body : EncodedBody}
    (hnum : isNumeric typeId = true) (h : RegularBody body) :
    (encodedObjectScript typeId body).FailFree := by
  have hid := (@failFree_nodeIdScript _ 0).mpr (regularNodeId_of_isNumeric hnum)
  cases body with
  | noBody => exact ⟨hid, trivial⟩
  | byteString s => exact ⟨⟨hid, trivial⟩, failFree_stringScript.mpr h⟩
  | xml s => exact ⟨⟨hid, trivial⟩, failFree_stringScript.mpr h⟩

theorem failFree_fieldScript {field : Option α} {sc : α → Script} (h : ∀ x, (sc x).FailFree) :
    (fieldScript field sc).FailFree := by
  cases field with
  | none => exact trivial
  | some x => exact h x

theorem boolean_of_returns {x : UInt8} (h : Returns booleanDecodeBinary x) : x = 0 ∨ x = 1 := by
  obtain ⟨s, s', h⟩ := h
  rcases run_decodePrimitive_ok h with ⟨-, hbad, -⟩ | ⟨-, -, bytes, -, hgood, -⟩
  · cases hbad
  · rw [show x = if bytes.get ⟨0, Nat.one_pos⟩ > 0 then 1 else 0 from congrArg Prod.snd hgood]
    split
    · exact .inr rfl
    · exact .inl rfl

theorem regular_elements {d : DecodeM (Decoded Value)} (hd : ReturnsRegular tables type d) (k : Nat)
    (vs : Values) (hret : Returns (arrayDecodeBinaryElements d k) vs) :
    vs.length = k + 1 ∧ RegularValues tables type vs ∧
      (PlainValues vs → (valuesScript vs).FailFree ∧ CarriedValues vs) := by
  induction k generalizing vs with
  | zero =>
    obtain ⟨v, hv, rfl⟩ := Returns.map hret
    exact ⟨rfl, hd v hv⟩
  | succ k ih =>
    obtain ⟨⟨r, v⟩, hv, htail⟩ := Yields.bind hret
    obtain ⟨rfl, htail⟩ := Returns.guard htail
    obtain ⟨rest, hrest, rfl⟩ := Returns.map htail
    obtain ⟨hregular, hplain⟩ := hd v hv
    obtain ⟨hlength, hregular', hplain'⟩ := ih rest hrest
    refine ⟨congrArg (· + 1) hlength, ⟨hregular, hregular'⟩, fun h => ?_⟩
    exact ⟨⟨(hplain h.1).1, (hplain' h.2).1⟩, (hplain h.1).2, (hplain' h.2).2⟩

theorem regular_array {d : DecodeM (Decoded Value)} (hd : ReturnsRegular tables type d)
    {a : ArrayData} (hret : Returns (arrayDecodeBinary env type d) a) :
    RegularArray tables type a ∧
      (PlainArray a → (arrayDataScript a).FailFree ∧ CarriedArray a) := by
  obtain ⟨header, hheader, hret⟩ := Yields.bind hret
  cases header with
  | fails status =>
    obtain ⟨-, rfl⟩ := Returns.of_pure hret
    exact ⟨trivial, fun _ => ⟨trivial, trivial⟩⟩
  | empty sentinel =>
    obtain ⟨-, rfl⟩ := Returns.of_pure hret
    exact ⟨trivial, fun _ => ⟨trivial, trivial⟩⟩
  | allocated length length_pos =>
    have hle := length_le_of_yields_header hheader
    dsimp only at hret
    by_cases hoverlay : type.overlayable = true
    · rw [if_pos hoverlay] at hret
      obtain ⟨⟨r, mem⟩, -, hret⟩ := Yields.bind hret
      cases mem with
      | none =>
        obtain ⟨-, rfl⟩ := Returns.of_pure hret
        exact ⟨trivial, fun _ => ⟨trivial, trivial⟩⟩
      | some mem =>
        obtain ⟨-, rfl⟩ := Returns.of_pure hret
        exact ⟨⟨hoverlay, rfl⟩, fun _ => ⟨failFree_arrayScript.mpr ⟨hle, trivial⟩, trivial⟩⟩
    · rw [if_neg hoverlay] at hret
      obtain ⟨⟨r, vs⟩, hvs, hret⟩ := Yields.bind hret
      obtain ⟨rfl, hret⟩ := Returns.guard hret
      obtain ⟨-, rfl⟩ := Returns.of_pure hret
      obtain ⟨hcount, hregular, hplain⟩ := regular_elements hd _ vs hvs
      rw [Nat.sub_add_cancel length_pos] at hcount
      subst hcount
      refine ⟨⟨Bool.eq_false_iff.mpr hoverlay, hregular⟩, fun h => ?_⟩
      exact ⟨failFree_arrayScript.mpr ⟨hle, (hplain h).1⟩, (hplain h).2⟩

/-! ## What is nested in a value -/

variable {decodeType : DataType → DecodeM (Decoded Value)}

theorem regular_extensionObject (hgen : Generated env.toTypeTables)
    (hnested : ∀ type, ReturnsRegular env.toTypeTables type (decodeType type)) :
    ReturnsRegular env.toTypeTables (.builtin .extensionObject)
      (extensionObjectDecodeBinary env decodeType) := by
  rintro v ⟨s, s', hrun⟩
  rcases extensionObject_cases hrun with
    ⟨typeId, body, rfl, hkept, hbody⟩ | ⟨type, data, rfl, hann, hret⟩
  · exact ⟨⟨rfl, hkept⟩, fun _ => ⟨failFree_encodedObjectScript hkept.1 hbody, trivial⟩⟩
  · obtain ⟨typeId, s1, s2, -, -, hfind⟩ := hann
    obtain ⟨hregular, hplain⟩ := hnested type data hret
    refine ⟨⟨rfl, type, find_encodingTypeId hfind, rfl, hregular⟩, fun h => ?_⟩
    obtain ⟨hfree, hcarried⟩ := hplain h.2
    exact ⟨failFree_decodedObjectScript.mpr ⟨isNumeric_of_find hgen hfind, h.1, hfree⟩, hcarried⟩

/-- What is known of the decoder for nested values: an enumeration is decoded as an Int32, and an
ExtensionObject is decoded just when its header names a known type. -/
structure Table (env : DecodeEnv) (decodeType : DataType → DecodeM (Decoded Value)) : Prop where
  enumeration : ∀ typeId encodingId,
    decodeType (.enumeration typeId encodingId) = decodeType (.builtin .int32)
  extensionObject : ∀ s v s',
    (decodeType (.builtin .extensionObject)).run s = .ok ((StatusCode.good, v), s') →
    (∃ typeId body, v = .encodedObject typeId body ∧ KeptEncoded env.toTypeTables typeId body ∧
        RegularBody body) ∨
      ∃ type, Announces env s type

theorem unwrapContent_cases {type : DataType} {s s' : DecodeState} {w : Variant}
    (h : (variantDecodeBinaryUnwrapContent env decodeType type).run s =
      .ok ((StatusCode.good, w), s')) :
    ∃ data s1 s2, w = scalarVariant type data ∧ s.SameInput s1 ∧
      (decodeType type).run s1 = .ok ((StatusCode.good, data), s2) := by
  obtain ⟨success, s1, halloc, h⟩ := run_bind_ok.mp h
  have hsame : s.SameInput s1 := by
    cases halloc
    exact ⟨rfl, rfl, rfl⟩
  split at h
  · obtain ⟨⟨r, data⟩, s2, hdata, h⟩ := run_bind_ok.mp h
    dsimp only at h
    split at h
    · next hbad => exact absurd (Returns.of_pure ⟨_, _, h⟩).1 hbad
    · obtain ⟨rfl, rfl⟩ := Returns.of_pure ⟨_, _, h⟩
      exact ⟨data, s1, s2, rfl, hsame, hdata⟩
  · cases h

theorem unwrap_cases (htable : Table env decodeType) {w : Variant}
    (h : Returns (variantDecodeBinaryUnwrapExtensionObject env decodeType) w) :
    (∃ typeId type data, findDataTypeByBinary env.toTypeTables typeId = some type ∧
        w = scalarVariant type data ∧ Returns (decodeType type) data) ∨
      ∃ typeId body, w = .scalar .extensionObject (.encodedObject typeId body) ∧
        KeptEncoded env.toTypeTables typeId body ∧ RegularBody body := by
  obtain ⟨s, s', h⟩ := h
  unfold variantDecodeBinaryUnwrapExtensionObject at h
  rw [run_get_bind] at h
  obtain ⟨⟨r, typeId⟩, s1, hnode, h⟩ := run_bind_ok.mp h
  obtain ⟨rfl, -⟩ := Returns.guard ⟨_, _, h⟩
  dsimp only at h
  obtain ⟨⟨r, encoding⟩, s2, hbyte, h⟩ := run_bind_ok.mp h
  obtain ⟨rfl, -⟩ := Returns.guard ⟨_, _, h⟩
  rw [if_neg (not_not_intro rfl)] at h
  split at h
  · next type hfind =>
    split at hfind
    · obtain ⟨-, s3, -, h⟩ := run_bind_ok.mp h
      obtain ⟨data, s4, s5, rfl, -, hdata⟩ := unwrapContent_cases h
      exact .inl ⟨typeId, type, data, hfind, rfl, s4, s5, hdata⟩
    · cases hfind
  · next hfind =>
    obtain ⟨data, s4, s5, rfl, hsame, hdata⟩ := unwrapContent_cases h
    rcases htable.extensionObject _ _ _ hdata with
      ⟨typeId, body, rfl, hkept, hbody⟩ | ⟨type, hann⟩
    · exact .inr ⟨typeId, body, rfl, hkept, hbody⟩
    · -- the header that is read again is the one that has been read before
      obtain ⟨hsrc, hstart⟩ := leaves_nodeIdDecodeBinary _ _ _ hnode
      obtain ⟨hsrc', hstart'⟩ := leaves_decodePrimitive _ _ _ hbyte
      have hback : s4.SameInput s :=
        ⟨(hsame.src_eq.trans (hsrc'.trans hsrc)).symm,
          (hsame.start_eq.trans (hstart'.trans hstart)).symm, hsame.pos_eq.symm⟩
      obtain ⟨typeId', t1, t2, hnode', hbyte', hfind'⟩ := hann.again hback
      cases hnode.symm.trans hnode'
      cases hbyte.symm.trans hbyte'
      rw [if_pos rfl, hfind'] at hfind
      cases hfind

/-- A structure in a Variant has been unwrapped, an enumeration is an Int32 there. -/
theorem regular_unwrapped (hgen : Generated env.toTypeTables) (htable : Table env decodeType)
    (hnested : ∀ type, ReturnsRegular env.toTypeTables type (decodeType type)) {w : Variant}
    (h : Returns (variantDecodeBinaryUnwrapExtensionObject env decodeType) w) :
    RegularVariant env.toTypeTables w ∧
      (PlainVariant w → (variantScript w).FailFree ∧ CarriedVariant w) := by
  rcases unwrap_cases htable h with
    ⟨typeId, type, data, hfind, rfl, hdata⟩ | ⟨typeId, body, rfl, hkept, hbody⟩
  · cases type with
    | builtin b =>
      obtain rfl := eq_boolean_of_find hgen hfind
      obtain ⟨hregular, hplain⟩ := hnested (.builtin .boolean) data hdata
      exact ⟨⟨hregular, nofun⟩, fun h => ⟨⟨trivial, (hplain h).1⟩, (hplain h).2⟩⟩
    | enumeration id encodingId =>
      rw [htable.enumeration] at hdata
      obtain ⟨hregular, hplain⟩ := hnested (.builtin .int32) data hdata
      exact ⟨⟨hregular, nofun⟩, fun h => ⟨⟨trivial, (hplain h).1⟩, (hplain h).2⟩⟩
    | «structure» info overlayable memSize_pos members =>
      obtain ⟨hregular, hplain⟩ := hnested _ data hdata
      refine ⟨⟨_, find_encodingTypeId hfind, rfl, hregular⟩, fun h => ?_⟩
      obtain ⟨hfree, hcarried⟩ := hplain h.2
      exact ⟨⟨trivial, failFree_decodedObjectScript.mpr ⟨isNumeric_of_find hgen hfind, h.1, hfree⟩⟩,
        hcarried⟩
  · refine ⟨⟨⟨rfl, hkept⟩, fun _ => ⟨typeId, body, rfl⟩⟩, fun _ => ?_⟩
    exact ⟨⟨trivial, failFree_encodedObjectScript hkept.1 hbody⟩, trivial⟩

section Nested

variable (hgen : Generated env.toTypeTables) (htable : Table env decodeType)
  (hnested : ∀ type, ReturnsRegular env.toTypeTables type (decodeType type))

include hgen htable hnested

theorem regular_variantContent {encodingByte : UInt8} {b : Builtin} {w : Variant}
    (h : Returns (variantDecodeBinaryContent env decodeType encodingByte b) w) :
    RegularVariant env.toTypeTables w ∧
      (PlainVariant w → (variantScript w).FailFree ∧ CarriedVariant w) := by
  unfold variantDecodeBinaryContent at h
  split at h
  · obtain ⟨⟨data, dims⟩, hparts, rfl⟩ := h.map
    obtain ⟨hdata, hdims⟩ := hparts.both
    obtain ⟨hregular, hplain⟩ := regular_array (hnested (.builtin b)) hdata
    have hle : dims.length ≤ int32Max := by
      rcases hdims.decodeIf with ⟨-, hdims⟩ | ⟨-, hnil⟩
      · exact length_le_of_returns_dimensions hdims
      · dsimp only at hnil
        rw [hnil]
        exact Nat.zero_le _
    refine ⟨hregular, fun h => ?_⟩
    exact ⟨⟨⟨trivial, (hplain h).1⟩, failFree_dimensionsScript hle⟩, (hplain h).2⟩
  split at h
  · exact regular_unwrapped hgen htable hnested h
  · next hb =>
    obtain ⟨success, -, hscalar⟩ := Yields.bind h
    split at hscalar
    · obtain ⟨data, hdata, rfl⟩ := Returns.map hscalar
      obtain ⟨hregular, hplain⟩ := hnested (.builtin b) data hdata
      exact ⟨⟨hregular, fun hobject => absurd hobject hb⟩,
        fun h => ⟨⟨trivial, (hplain h).1⟩, (hplain h).2⟩⟩
    · exact absurd (Returns.of_pure hscalar).1 (by decide)

theorem regular_variant {w : Variant} (hret : Returns (variantDecodeBinary env decodeType) w) :
    RegularVariant env.toTypeTables w ∧
      (PlainVariant w → (variantScript w).FailFree ∧ CarriedVariant w) := by
  obtain ⟨⟨r, encodingByte⟩, -, hrest⟩ := Yields.bind hret
  obtain ⟨rfl, hcontent⟩ := Returns.guard hrest
  split at hcontent
  · obtain ⟨-, rfl⟩ := Returns.of_pure hcontent
    exact ⟨trivial, fun _ => ⟨trivial, trivial⟩⟩
  split at hcontent
  · exact absurd (Returns.of_pure hcontent).1 (by decide)
  split at hcontent
  · exact absurd (Returns.of_pure hcontent).1 (by decide)
  · exact regular_variantContent hgen htable hnested hcontent

theorem regular_dataValue :
    ReturnsRegular env.toTypeTables (.builtin .dataValue)
      (dataValueDecodeBinary env decodeType) := by
  intro v hret
  obtain ⟨⟨r, encodingMask⟩, -, hrest⟩ := Yields.bind hret
  obtain ⟨rfl, hcontent⟩ := Returns.guard hrest
  obtain ⟨⟨⟨⟨⟨⟨value, status⟩, sourceTimestamp⟩, sourcePicoseconds⟩, serverTimestamp⟩,
    serverPicoseconds⟩, hparts, rfl⟩ := Returns.map hcontent
  obtain ⟨h5, hserverPico⟩ := hparts.both
  obtain ⟨h4, -⟩ := h5.both
  obtain ⟨h3, hsourcePico⟩ := h4.both
  obtain ⟨h2, -⟩ := h3.both
  obtain ⟨hvalue, -⟩ := h2.both
  have hvariant : RegularVariant env.toTypeTables value ∧
      (PlainVariant value → (variantScript value).FailFree ∧ CarriedVariant value) := by
    rcases hvalue.decodeIf with ⟨-, hvalue⟩ | ⟨-, rfl⟩
    · exact regular_variant hgen htable hnested hvalue
    · exact ⟨trivial, fun _ => ⟨trivial, trivial⟩⟩
  refine ⟨⟨rfl, ?_, fun p hp => le_of_returns_picoseconds (hsourcePico.decodeField p hp),
    fun p hp => le_of_returns_picoseconds (hserverPico.decodeField p hp), hvariant.1⟩, fun h => ?_⟩
  · intro hnot
    rcases hvalue.decodeIf with ⟨hflag, -⟩ | ⟨-, hempty⟩
    · exact absurd (hflag.symm.trans hnot) (by decide)
    · exact hempty
  · refine ⟨⟨⟨⟨⟨⟨⟨trivial, failFree_scriptIf.mpr fun _ => (hvariant.2 h).1⟩, ?_⟩, ?_⟩, ?_⟩, ?_⟩,
      ?_⟩, (hvariant.2 h).2⟩
    all_goals exact failFree_fieldScript fun _ => trivial

theorem regular_builtin (b : Builtin) :
    ReturnsRegular env.toTypeTables (.builtin b) (builtinDecodeBinary env decodeType fuel b) := by
  intro v hret
  cases b with
  | boolean =>
    obtain ⟨x, hx, rfl⟩ := Returns.map hret
    exact ⟨⟨rfl, fun _ => boolean_of_returns hx⟩, fun _ => ⟨trivial, trivial⟩⟩
  | sbyte | byte =>
    obtain ⟨x, -, rfl⟩ := Returns.map hret
    exact ⟨⟨rfl, nofun⟩, fun _ => ⟨trivial, trivial⟩⟩
  | int16 | uint16 | int32 | uint32 | float | statusCode | int64 | uint64 | double | dateTime =>
    obtain ⟨x, -, rfl⟩ := Returns.map hret
    exact ⟨rfl, fun _ => ⟨trivial, trivial⟩⟩
  | string | byteString | xmlElement =>
    obtain ⟨s, hs, rfl⟩ := Returns.map hret
    refine ⟨by simp [Regular], fun _ => ⟨?_, trivial⟩⟩
    exact failFree_stringScript.mpr (regularString_of_returns hs)
  | guid =>
    obtain ⟨g, -, rfl⟩ := Returns.map hret
    exact ⟨rfl, fun _ => ⟨⟨⟨⟨trivial, trivial⟩, trivial⟩, trivial⟩, trivial⟩⟩
  | nodeId =>
    obtain ⟨n, hn, rfl⟩ := Returns.map hret
    exact ⟨rfl, fun _ => ⟨failFree_nodeIdScript.mpr (regularNodeId_of_returns hn), trivial⟩⟩
  | expandedNodeId =>
    obtain ⟨n, hn, rfl⟩ := Returns.map hret
    obtain ⟨hid, huri, hindex⟩ := regular_of_returns_expandedNodeId hn
    exact ⟨rfl, fun _ => ⟨failFree_expandedNodeIdScript.mpr ⟨hid, huri⟩, hindex⟩⟩
  | qualifiedName =>
    have hname : Returns (decodeMap (fun p : UInt16 × UaString =>
        Value.structure (.scalar (.uint16 p.1) (.scalar (.string p.2) .nil)))
        (decodeBoth uint16DecodeBinary (stringDecodeBinary env))) v := hret
    obtain ⟨⟨ns, name⟩, hparts, rfl⟩ := hname.map
    refine ⟨⟨ns, name, rfl⟩, fun _ => ⟨⟨trivial, ?_, trivial⟩, trivial, trivial, trivial⟩⟩
    exact failFree_stringScript.mpr (regularString_of_returns hparts.both.2)
  | localizedText =>
    obtain ⟨t, ht, rfl⟩ := Returns.map hret
    refine ⟨rfl, fun _ => ⟨?_, trivial⟩⟩
    exact failFree_localizedTextScript.mpr (regular_of_returns_localizedText ht)
  | extensionObject => exact regular_extensionObject hgen hnested v hret
  | dataValue => exact regular_dataValue hgen htable hnested v hret
  | variant =>
    obtain ⟨w, hw, rfl⟩ := Returns.map hret
    obtain ⟨hregular, hplain⟩ := regular_variant hgen htable hnested hw
    exact ⟨⟨rfl, hregular⟩, hplain⟩
  | diagnosticInfo =>
    obtain ⟨d, -, rfl⟩ := Returns.map hret
    exact ⟨rfl, fun h => h.elim⟩

end Nested

mutual

theorem regular_entry (hgen : Generated env.toTypeTables) (htable : Table env decodeType)
    (hnested : ∀ type, ReturnsRegular env.toTypeTables type (decodeType type)) : (type : DataType) →
    ReturnsRegular env.toTypeTables type (decodeBinaryEntry env decodeType fuel type)
  | .builtin b => regular_builtin hgen htable hnested b
  | .enumeration _ _ => by
    intro v hret
    obtain ⟨x, -, rfl⟩ := Returns.map hret
    exact ⟨rfl, fun _ => ⟨trivial, trivial⟩⟩
  | .structure info overlayable memSize_pos types => by
    intro v hret
    obtain ⟨ms, hms, rfl⟩ := Returns.map hret
    exact regular_members hgen htable hnested types ms hms

theorem regular_members (hgen : Generated env.toTypeTables) (htable : Table env decodeType)
    (hnested : ∀ type, ReturnsRegular env.toTypeTables type (decodeType type)) :
    (types : MemberTypes) → (ms : Members) →
    Returns (decodeBinaryInternal env decodeType fuel types) ms →
    RegularMembers env.toTypeTables types ms ∧
      (PlainMembers ms → (membersScript ms).FailFree ∧ CarriedMembers ms)
  | .nil, ms, hret => by
    obtain ⟨-, rfl⟩ := Returns.of_pure hret
    exact ⟨rfl, fun _ => ⟨trivial, trivial⟩⟩
  | .scalar type types, ms, hret => by
    obtain ⟨⟨v, rest⟩, hparts, rfl⟩ := Returns.map hret
    obtain ⟨hregular, hplain⟩ := regular_entry hgen htable hnested type v hparts.both.1
    obtain ⟨hregular', hplain'⟩ := regular_members hgen htable hnested types rest hparts.both.2
    refine ⟨⟨hregular, hregular'⟩, fun h => ?_⟩
    exact ⟨⟨(hplain h.1).1, (hplain' h.2).1⟩, (hplain h.1).2, (hplain' h.2).2⟩
  | .array type types, ms, hret => by
    obtain ⟨⟨a, rest⟩, hparts, rfl⟩ := Returns.map hret
    obtain ⟨hregular, hplain⟩ :=
      regular_array (regular_entry hgen htable hnested type) hparts.both.1
    obtain ⟨hregular', hplain'⟩ := regular_members hgen htable hnested types rest hparts.both.2
    refine ⟨⟨hregular, hregular'⟩, fun h => ?_⟩
    exact ⟨⟨(hplain h.1).1, (hplain' h.2).1⟩, (hplain h.1).2, (hplain' h.2).2⟩

end

theorem table_decodeBinaryJumpTable (fuel : Nat) : Table env (decodeBinaryJumpTable env fuel) where
  enumeration typeId encodingId := by
    cases fuel with
    | zero => rfl
    | succ fuel => rfl
  extensionObject s v s' h := by
    cases fuel with
    | zero => cases h
    | succ fuel =>
      rcases extensionObject_cases h with hkept | ⟨type, data, -, hann, -⟩
      · exact .inl hkept
      · exact .inr ⟨type, hann⟩

/-! ## Null and empty strings

Whether a value is regular does not depend on which of its empty strings are null. -/

theorem keptEncoded_null (typeId : NodeId) (body : EncodedBody) :
    KeptEncoded tables (nullNodeId typeId) (nullBody body) ↔ KeptEncoded tables typeId body := by
  obtain ⟨ns, ident⟩ := typeId
  cases ident with
  | numeric i => cases body <;> exact Iff.rfl
  | _ => exact iff_of_false (fun h => Bool.noConfusion h.1) fun h => Bool.noConfusion h.1

theorem nullMembers_eq_qualifiedName (ms : Members) :
    (∃ ns name, nullMembers ms = .scalar (.uint16 ns) (.scalar (.string name) .nil)) ↔
      ∃ ns name, ms = .scalar (.uint16 ns) (.scalar (.string name) .nil) := by
  have hnumber : ∀ {v ns}, nullValue v = .uint16 ns → v = .uint16 ns := by
    intro v ns h
    cases v <;> cases h
    rfl
  have hstring : ∀ {v name}, nullValue v = .string name → ∃ s, v = .string s := by
    intro v name h
    cases v <;> cases h
    exact ⟨_, rfl⟩
  constructor
  · rintro ⟨ns, name, h⟩
    cases ms with
    | scalar v rest =>
      obtain ⟨hv, hrest⟩ := Members.scalar.inj h
      cases rest with
      | scalar v' rest' =>
        obtain ⟨hv', hrest'⟩ := Members.scalar.inj hrest
        obtain ⟨s, rfl⟩ := hstring hv'
        cases rest' with
        | nil => exact ⟨ns, s, by rw [hnumber hv]⟩
        | scalar v'' rest'' => cases hrest'
        | array a'' rest'' => cases hrest'
      | nil => cases hrest
      | array a' rest' => cases hrest
    | nil => cases h
    | array a rest => cases h
  · rintro ⟨ns, name, rfl⟩
    exact ⟨ns, nullString name, rfl⟩

theorem scalarVariant_eq_wrapped {info : TypeInfo} (v v' : Value) :
    scalarVariant type v = .wrapped info v ↔ scalarVariant type v' = .wrapped info v' := by
  cases type with
  | builtin b => exact iff_of_false (fun h => Variant.noConfusion h) fun h => Variant.noConfusion h
  | enumeration typeId encodingId =>
    exact iff_of_false (fun h => Variant.noConfusion h) fun h => Variant.noConfusion h
  | «structure» info' overlayable memSize_pos members =>
    simp only [scalarVariant, Variant.wrapped.injEq, and_true]

mutual

theorem regular_nullValue : (v : Value) → (type : DataType) →
    (Regular tables type (nullValue v) ↔ Regular tables type v)
  | .byte _, _ | .uint16 _, _ | .uint32 _, _ | .uint64 _, _ | .string _, _ | .guid _, _ |
    .nodeId _, _ | .expandedNodeId _, _ | .localizedText _, _ | .unsetObject, _ |
    .diagnosticInfo _, _ => Iff.rfl
  | .encodedObject typeId body, _ => and_congr_right fun _ => keptEncoded_null typeId body
  | .decodedObject _ data, _ =>
    and_congr_right fun _ => exists_congr fun t => and_congr_right fun _ => and_congr_right fun _ =>
      regular_nullValue data t
  | .dataValue hasValue value fields, _ => by
    have hempty : nullVariant value = .empty ↔ value = .empty := by
      cases value <;> simp [nullVariant]
    simp only [nullValue, Regular, hempty, regularVariant_nullVariant value]
  | .variant v, _ => and_congr_right fun _ => regularVariant_nullVariant v
  | .structure members, type => by
    cases type with
    | builtin b =>
      cases b with
      | qualifiedName => exact nullMembers_eq_qualifiedName members
      | _ => exact Iff.rfl
    | enumeration typeId encodingId => exact Iff.rfl
    | «structure» info overlayable memSize_pos types =>
        exact regularMembers_nullMembers members types

theorem regularVariant_nullVariant : (w : Variant) →
    (RegularVariant tables (nullVariant w) ↔ RegularVariant tables w)
  | .empty | .wrappedEmpty _ _ | .wrappedArray _ _ _ => Iff.rfl
  | .scalar b data => by
    have hobject : (∃ typeId body, nullValue data = .encodedObject typeId body) ↔
        ∃ typeId body, data = .encodedObject typeId body := by
      cases data <;> simp [nullValue]
    simp only [nullVariant, RegularVariant, hobject, regular_nullValue data]
  | .array b data _ => regularArray_nullArray data (.builtin b)
  | .wrapped info data =>
    exists_congr fun t => and_congr_right fun _ =>
      and_congr (scalarVariant_eq_wrapped _ _) (regular_nullValue data t)

theorem regularArray_nullArray : (a : ArrayData) → (type : DataType) →
    (RegularArray tables type (nullArray a) ↔ RegularArray tables type a)
  | .empty _, _ | .overlay _, _ => Iff.rfl
  | .elements data, type => and_congr_right fun _ => regularValues_nullValues data type

theorem regularMembers_nullMembers : (ms : Members) → (types : MemberTypes) →
    (RegularMembers tables types (nullMembers ms) ↔ RegularMembers tables types ms)
  | .nil, _ => Iff.rfl
  | .scalar v rest, types => by
    cases types with
    | scalar type types =>
      exact and_congr (regular_nullValue v type) (regularMembers_nullMembers rest types)
    | _ => exact Iff.rfl
  | .array a rest, types => by
    cases types with
    | array type types =>
      exact and_congr (regularArray_nullArray a type) (regularMembers_nullMembers rest types)
    | _ => exact Iff.rfl

theorem regularValues_nullValues : (vs : Values) → (type : DataType) →
    (RegularValues tables type (nullValues vs) ↔ RegularValues tables type vs)
  | .one v, type => regular_nullValue v type
  | .cons v rest, type =>
    and_congr (regular_nullValue v type) (regularValues_nullValues rest type)

end

/-- Whatever the decoder returns is regular. -/
theorem regular_decodeBinaryJumpTable (hgen : Generated env.toTypeTables) (fuel : Nat)
    (type : DataType) :
    ReturnsRegular env.toTypeTables type (decodeBinaryJumpTable env fuel type) := by
  induction fuel generalizing type with
  | zero =>
    rintro v ⟨s, s', h⟩
    cases h
  | succ fuel ih => exact regular_entry hgen (table_decodeBinaryJumpTable fuel) ih type

end FactoryThing.Encoding
