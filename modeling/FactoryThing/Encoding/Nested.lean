import FactoryThing.Encoding.DiagnosticInfos

/-!
# Values in values survive the wire

ExtensionObjects, Variants, DataValues and structures: their encodings are read back when those of
what is nested in them are (`src/ua_types_encoding_binary.c:852-1202`, `1315-1424`). A structure in
a Variant is unwrapped by the decoder and wrapped again by the encoder; the encoder writes the id by
which the decoder finds the same description again.
-/

namespace FactoryThing.Encoding

open Stateful DecodeState

variable {α β : Type} {env : DecodeEnv} {n m fuel : Nat} {c : Prop}

variable {typeId : NodeId}

theorem reads_jumpOverLength (v : UInt32) :
    Reads n jumpOverLength (uint32Script v).bytes fun _ => True := by
  intro s rest hat _
  refine ⟨⟨⟩, { s with pos := s.pos + 4, jumps := s.jumps ++ [s.pos] }, rfl, trivial, ?_, ?_⟩
  · have hforward := hat.forward
    exact ⟨hforward.start_le, hforward.pos_le, hforward.drop_eq⟩
  · rw [length_uint32Script]

theorem keeps_byte {v : UInt8} {rest : List UInt8} {f : Decoded UInt8 → DecodeM (Decoded β)}
    {Q : β → Prop} (h : Keeps c n (f (StatusCode.good, v)) rest Q) :
    Keeps c n (byteDecodeBinary >>= f) ([v] ++ rest) Q := by
  apply (reads_byteDecodeBinary v).bind_keeps
  rintro ⟨r, v'⟩ ⟨hr, hv⟩
  subst hr hv
  exact h

theorem reads_nodeIdScript (halloc : ∀ k, env.calloc k = true) {src : NodeId}
    (h : RegularNodeId src) :
    Reads n (nodeIdDecodeBinary env) (nodeIdScript src 0).bytes (Good (· = decodedNodeId src)) := by
  rw [bytes_nodeIdScript_zero]
  exact reads_nodeIdDecodeBinary halloc h

theorem regularNodeId_of_isNumeric (h : isNumeric typeId = true) :
    RegularNodeId typeId := by
  obtain ⟨ns, ident⟩ := typeId
  cases ident with
  | numeric i => exact trivial
  | string s => cases h
  | guid g => cases h
  | byteString s => cases h

theorem reads_numericNodeId (halloc : ∀ k, env.calloc k = true) {src : NodeId}
    (h : isNumeric src = true) :
    Reads n (nodeIdDecodeBinary env) (nodeIdScript src 0).bytes (Good (· = src)) := by
  have hsame : decodedNodeId src = src := by
    obtain ⟨ns, ident⟩ := src
    cases ident with
    | numeric i => rfl
    | string s => cases h
    | guid g => cases h
    | byteString s => cases h
  have hreads := @reads_nodeIdScript env n halloc src (regularNodeId_of_isNumeric h)
  rw [hsame] at hreads
  exact hreads

theorem bytes_decodedObjectScript {type : TypeInfo} {len : Nat} {content : Script}
    (hnum : isNumeric type.typeId = true) (hlen : len ≤ int32Max) :
    (decodedObjectScript type len content).bytes =
      (nodeIdScript (encodingTypeId type) 0).bytes ++ ([1] ++
        ((uint32Script (UInt32.ofNat len)).bytes ++ content.bytes)) := by
  unfold decodedObjectScript
  rw [if_neg (by rw [hnum]; nofun), if_neg (Nat.not_lt.mpr hlen)]
  simp only [Script.bytes, objectHeaderScript, byteScript, List.append_assoc]

theorem failFree_decodedObjectScript {type : TypeInfo} {len : Nat} {content : Script} :
    (decodedObjectScript type len content).FailFree ↔
      isNumeric type.typeId = true ∧ len ≤ int32Max ∧ content.FailFree := by
  unfold decodedObjectScript
  by_cases hnum : isNumeric type.typeId = true
  · rw [if_neg (by rw [hnum]; nofun), and_iff_right hnum]
    by_cases hlen : len > int32Max
    · rw [if_pos hlen]
      exact ⟨False.elim, fun h => absurd h.1 (Nat.not_le.mpr hlen)⟩
    · rw [if_neg hlen, and_iff_right (Nat.not_lt.mp hlen)]
      exact ⟨fun h => h.2.2, fun h =>
        ⟨⟨failFree_nodeIdScript.mpr (regularNodeId_of_isNumeric rfl), trivial⟩, trivial, h⟩⟩
  · rw [if_pos (Bool.not_eq_true _ ▸ hnum)]
    exact ⟨False.elim, fun h => hnum h.1⟩

variable {decodeType : DataType → DecodeM (Decoded Value)}

theorem bytes_encodedObjectScript (typeId : NodeId) (body : EncodedBody) :
    (encodedObjectScript typeId body).bytes = (nodeIdScript typeId 0).bytes ++
      match body with
      | .noBody => [0]
      | .byteString s => [1] ++ (stringScript s).bytes
      | .xml s => [2] ++ (stringScript s).bytes := by
  cases body with
  | noBody => rfl
  | byteString s => exact List.append_assoc _ _ _
  | xml s => exact List.append_assoc _ _ _

theorem keeps_header {encoding : UInt8} {rest : List UInt8}
    {f : Decoded (NodeId × UInt8) → DecodeM (Decoded β)} {Q : β → Prop}
    (halloc : ∀ k, env.calloc k = true) (hnum : isNumeric typeId = true)
    (h : Keeps c n (f (StatusCode.good, typeId, encoding)) rest Q) :
    Keeps c n (decodeBoth (nodeIdDecodeBinary env) byteDecodeBinary >>= f)
      ((nodeIdScript typeId 0).bytes ++ ([encoding] ++ rest)) Q := by
  have hid : Reads 0 (nodeIdDecodeBinary env) _ _ :=
    reads_numericNodeId halloc hnum
  have hbyte : Reads 0 byteDecodeBinary [encoding] _ := reads_byteDecodeBinary encoding
  rw [← List.append_assoc]
  apply (hid.both (Nat.zero_le _) hbyte).bind_keeps
  rintro ⟨r, typeId', encoding'⟩ ⟨hr, hid, hbyte⟩
  subst hr hid hbyte
  exact h

theorem keeps_keptEncoded (halloc : ∀ k, env.calloc k = true) {body : EncodedBody}
    (h : KeptEncoded env.toTypeTables typeId body)
    (hfree : (encodedObjectScript typeId body).FailFree) :
    Keeps True 0 (extensionObjectDecodeBinary env decodeType)
      (encodedObjectScript typeId body).bytes
      fun v => SameValue v (.encodedObject typeId body) := by
  obtain ⟨hnum, hbody⟩ := h
  have hstring : ∀ (f : UaString → EncodedBody) (s : UaString), RegularString s →
      (∀ s, nullBody (f s) = f (nullString s)) →
      Keeps True 0 (decodeMap (fun body => Value.encodedObject typeId (f body))
        (stringDecodeBinary env))
        (stringScript s).bytes fun v => SameValue v (.encodedObject typeId (f s)) := by
    intro f s hs hnull
    apply (reads_stringDecodeBinary halloc hs).same
    refine iff_of_true trivial ?_
    show Value.encodedObject _ _ = Value.encodedObject _ _
    rw [hnull, hnull, nullString_decodedString]
  rw [bytes_encodedObjectScript]
  cases body with
  | noBody =>
    apply keeps_header halloc hnum
    dsimp only
    rw [if_neg (by rw [hnum]; nofun), if_neg (not_not_intro rfl), if_neg (by decide), if_pos rfl]
    exact (reads_pure ⟨rfl, rfl⟩).always
  | byteString s =>
    apply keeps_header halloc hnum
    dsimp only
    rw [if_neg (by rw [hnum]; nofun), if_neg (not_not_intro rfl), if_pos rfl]
    unfold extensionObjectDecodeBinaryContent
    rw [show findDataTypeByBinary env.toTypeTables typeId = none from hbody]
    exact hstring .byteString s (failFree_stringScript.mp hfree.2) fun _ => rfl
  | xml s =>
    apply keeps_header halloc hnum
    dsimp only
    rw [if_neg (by rw [hnum]; nofun), if_neg (not_not_intro rfl), if_neg (by decide),
      if_neg (by decide), if_pos rfl]
    exact hstring .xml s (failFree_stringScript.mp hfree.2) fun _ => rfl

theorem keeps_decodedObject (halloc : ∀ k, env.calloc k = true) {type : DataType}
    (hfind : findDataTypeByBinary env.toTypeTables typeId = some type) (size : UInt32)
    {bs : List UInt8} {Q : Value → Prop}
    (h : Keeps c n (decodeType type) bs fun data => Q (.decodedObject type.info data)) :
    Keeps c n (extensionObjectDecodeBinary env decodeType)
      ((nodeIdScript typeId 0).bytes ++ ([1] ++ ((uint32Script size).bytes ++ bs))) Q := by
  have hnum := isNumeric_of_find_some hfind
  apply keeps_header halloc hnum
  dsimp only
  rw [if_neg (by rw [hnum]; nofun), if_neg (not_not_intro rfl), if_pos rfl]
  unfold extensionObjectDecodeBinaryContent
  rw [hfind]
  apply (reads_allocate halloc).nil_keeps
  intro success hsuccess
  rw [if_pos hsuccess]
  exact (reads_jumpOverLength size).bind_keeps fun _ _ => h.map

theorem keeps_extensionObject (halloc : ∀ k, env.calloc k = true)
    (hnested : ∀ type, ReadsBack env.toTypeTables m type (decodeType type)) {v : Value}
    (hregular : Regular env.toTypeTables (.builtin .extensionObject) v)
    (hfree : (script v).FailFree)
    (hlt : (script v).bytes.length < m + 1) :
    Keeps (Carried v) (filterNeed env.toTypeTables (.builtin .extensionObject) v)
      (extensionObjectDecodeBinary env decodeType) (script v).bytes fun v' => SameValue v' v := by
  cases v with
  | encodedObject typeId body => exact keeps_keptEncoded halloc hregular.2 hfree
  | decodedObject info data =>
    obtain ⟨-, type, hfind, rfl, hdata⟩ := hregular
    obtain ⟨hnum, hlen, hcontent⟩ := failFree_decodedObjectScript.mp hfree
    rw [script, bytes_decodedObjectScript hnum hlen] at hlt ⊢
    simp only [List.length_append, length_uint32Script] at hlt
    rw [filterNeed, hfind]
    apply keeps_decodedObject halloc hfind
    apply (hnested type data hdata hcontent (by omega)).congr Iff.rfl
    exact fun data' => ⟨fun h => (Value.decodedObject.inj h).2,
      fun h => congrArg (Value.decodedObject type.info) h⟩
  | _ => exact absurd hregular (by simp [Regular, numberSize])

theorem variantEncoding_bits (b : Builtin) (isArray : Bool) (dims : List UInt32) :
    variantEncoding b.typeIndex isArray dims ≠ 0 ∧
      variantEncoding b.typeIndex isArray dims &&& 0x3F ≠ 0 ∧
      Builtin.ofIndex ((variantEncoding b.typeIndex isArray dims &&& 0x3F).toNat - 1) = some b ∧
      (variantEncoding b.typeIndex isArray dims &&& 0x80 ≠ 0 ↔ isArray = true) ∧
      (decide (variantEncoding b.typeIndex isArray dims &&& 0x40 ≠ 0) =
        (isArray && decide (dims.length > 0))) := by
  unfold variantEncoding
  cases isArray with
  | false =>
    simp only [Bool.false_eq_true, false_and, if_false, Bool.false_and]
    cases b <;> decide
  | true =>
    by_cases hdims : dims.length > 0
    · simp only [hdims, and_self, if_true, decide_true]
      cases b <;> decide
    · simp only [hdims, and_false, if_true, if_false, decide_false]
      cases b <;> decide

theorem keeps_variantContent {b : Builtin} {isArray : Bool} {dims : List UInt32}
    {rest : List UInt8} {Q : Variant → Prop}
    (h : Keeps c n (variantDecodeBinaryContent env decodeType
      (variantEncoding b.typeIndex isArray dims) b) rest Q) :
    Keeps c n (variantDecodeBinary env decodeType)
      ((byteScript (variantEncoding b.typeIndex isArray dims)).bytes ++ rest) Q := by
  obtain ⟨hzero, hindex, hbuiltin, -, -⟩ := variantEncoding_bits b isArray dims
  apply keeps_byte
  dsimp only
  rw [if_neg (not_not_intro rfl), if_neg hzero, if_neg hindex, hbuiltin]
  exact h

theorem nullVariant_scalarVariant (type : DataType) (v : Value) :
    nullVariant (scalarVariant type v) = scalarVariant type (nullValue v) := by
  cases type with
  | builtin b => rfl
  | enumeration typeId encodingId => rfl
  | «structure» info overlayable memSize_pos members => rfl

theorem scalarVariant_inj {type : DataType} {v v' : Value} :
    scalarVariant type v = scalarVariant type v' ↔ v = v' := by
  cases type with
  | builtin b => exact ⟨fun h => (Variant.scalar.inj h).2, fun h => congrArg _ h⟩
  | enumeration typeId encodingId =>
      exact ⟨fun h => (Variant.scalar.inj h).2, fun h => congrArg _ h⟩
  | «structure» info overlayable memSize_pos members =>
    exact ⟨fun h => (Variant.wrapped.inj h).2, fun h => congrArg _ h⟩

theorem keeps_unwrapContent (halloc : ∀ k, env.calloc k = true) {type : DataType} {data : Value}
    {bs : List UInt8} (h : Keeps c n (decodeType type) bs fun v => SameValue v data) :
    Keeps c n (variantDecodeBinaryUnwrapContent env decodeType type) bs
      fun w => nullVariant w = nullVariant (scalarVariant type data) := by
  apply (reads_allocate halloc).nil_keeps
  intro success hsuccess
  rw [if_pos hsuccess]
  apply @Keeps.pass _ _ _ _ _ _ _ _ (scalarVariant type)
  · apply h.congr Iff.rfl
    intro v
    rw [nullVariant_scalarVariant, nullVariant_scalarVariant]
    exact scalarVariant_inj
  · rintro ⟨r, v⟩
    dsimp only
    split
    · exact ⟨_, rfl⟩
    · exact ⟨_, rfl⟩
  · exact fun v => rfl

section Variants

variable (halloc : ∀ k, env.calloc k = true)
  (hnested : ∀ type, ReadsBack env.toTypeTables m type (decodeType type))

include halloc hnested

theorem keeps_scalar {b : Builtin} (hb : b ≠ .extensionObject) {data : Value}
    (hregular : Regular env.toTypeTables (.builtin b) data) (hfree : (script data).FailFree)
    (hlt : (script data).bytes.length < m) :
    Keeps (Carried data) (filterNeed env.toTypeTables (.builtin b) data)
      (variantDecodeBinary env decodeType)
      (variantScript (.scalar b data)).bytes
      fun w => nullVariant w = nullVariant (.scalar b data) := by
  rw [variantScript, Script.bytes]
  apply keeps_variantContent
  unfold variantDecodeBinaryContent
  rw [if_neg (by simp [(variantEncoding_bits b false []).2.2.2.1]), if_neg hb]
  apply (reads_allocate halloc).nil_keeps
  intro success hsuccess
  rw [if_pos hsuccess]
  apply Keeps.map
  apply (hnested (.builtin b) data hregular hfree hlt).congr Iff.rfl
  exact fun v => ⟨fun h => (Variant.scalar.inj h).2, fun h => congrArg (Variant.scalar b) h⟩

theorem keeps_wrapped {info : TypeInfo} {type : DataType} {data : Value}
    (hfind : findDataTypeByBinary env.toTypeTables (encodingTypeId info) = some type)
    (hscalar : scalarVariant type data = .wrapped info data)
    (hregular : Regular env.toTypeTables type data)
    (hfree : (variantScript (.wrapped info data)).FailFree)
    (hlt : (variantScript (.wrapped info data)).bytes.length < m + 1) :
    Keeps (Carried data) (filterNeed env.toTypeTables type data)
      (variantDecodeBinary env decodeType)
      (variantScript (.wrapped info data)).bytes
      fun w => nullVariant w = nullVariant (.wrapped info data) := by
  obtain ⟨hnum, hlen, hcontent⟩ := failFree_decodedObjectScript.mp hfree.2
  rw [variantScript, Script.bytes, Script.bytes, bytes_decodedObjectScript hnum hlen] at hlt ⊢
  simp only [List.length_append, length_uint32Script] at hlt
  have hdata := hnested type data hregular hcontent (by omega)
  apply keeps_variantContent
  unfold variantDecodeBinaryContent
  rw [if_neg (by simp [(variantEncoding_bits .extensionObject false []).2.2.2.1]), if_pos rfl]
  apply Keeps.get_bind
  intro s
  apply (@reads_numericNodeId _ _ halloc (encodingTypeId info) rfl).bind_keeps
  rintro ⟨r, typeId'⟩ ⟨hr, htypeId⟩
  dsimp only at hr htypeId ⊢
  subst hr htypeId
  rw [if_neg (not_not_intro rfl)]
  apply keeps_byte
  dsimp only
  rw [if_neg (not_not_intro rfl), if_pos rfl, hfind]
  apply (reads_jumpOverLength (UInt32.ofNat (calcSizeBinary data))).bind_keeps
  intro _ _
  rw [← hscalar]
  exact keeps_unwrapContent halloc hdata

theorem keeps_scalarEncoded {body : EncodedBody}
    (hkept : KeptEncoded env.toTypeTables typeId body)
    (hfree : (encodedObjectScript typeId body).FailFree)
    (hlt : (encodedObjectScript typeId body).bytes.length < m) :
    Keeps True 0 (variantDecodeBinary env decodeType)
      (variantScript (.scalar .extensionObject (.encodedObject typeId body))).bytes
      fun w => nullVariant w =
        nullVariant (.scalar .extensionObject (.encodedObject typeId body)) := by
  have hcontent := keeps_unwrapContent halloc
    (hnested (.builtin .extensionObject) (.encodedObject typeId body) ⟨rfl, hkept⟩ hfree hlt)
  rw [variantScript, Script.bytes]
  apply keeps_variantContent
  apply Reads.always
  unfold variantDecodeBinaryContent
  rw [if_neg (by simp [(variantEncoding_bits .extensionObject false []).2.2.2.1]), if_pos rfl]
  -- the header says that the body is not decoded
  obtain ⟨encoding, tail, hbytes, hnone⟩ : ∃ encoding tail,
      (script (.encodedObject typeId body)).bytes =
        (nodeIdScript typeId 0).bytes ++ ([encoding] ++ tail) ∧
      (if encoding = 1 then findDataTypeByBinary env.toTypeTables typeId else none) = none := by
    rw [script, bytes_encodedObjectScript]
    cases body with
    | noBody => exact ⟨0, [], rfl, rfl⟩
    | byteString s => exact ⟨1, _, rfl, by rw [if_pos rfl]; exact hkept.2⟩
    | xml s => exact ⟨2, _, rfl, rfl⟩
  intro s rest hat hn
  have hheader : s.At ((nodeIdScript typeId 0).bytes ++ ([encoding] ++ (tail ++ rest))) := by
    rw [← List.append_assoc [encoding], ← List.append_assoc, ← hbytes]
    exact hat
  obtain ⟨⟨r, typeId'⟩, s1, hnode, ⟨hr, hid⟩, hat1, -⟩ :=
    reads_numericNodeId halloc hkept.1 s _ hheader (Nat.zero_le _)
  dsimp only at hr hid
  subst hr hid
  obtain ⟨⟨r, encoding'⟩, s2, hbyte, ⟨hr, hencoding⟩, -, -⟩ :=
    reads_byteDecodeBinary encoding s1 _ hat1 (Nat.zero_le _)
  dsimp only at hr hencoding
  subst hr hencoding
  obtain ⟨hsrc, hstart⟩ := leaves_nodeIdDecodeBinary _ _ _ hnode
  obtain ⟨hsrc', hstart'⟩ := leaves_decodePrimitive _ _ _ hbyte
  have hback : DecodeState.At { s2 with pos := s.pos }
      ((script (.encodedObject typeId' body)).bytes ++ rest) := by
    refine ⟨?_, ?_, ?_⟩
    · show s2.start ≤ s.pos
      rw [hstart', hstart]
      exact hat.start_le
    · show s.pos ≤ s2.src.length
      rw [hsrc', hsrc]
      exact hat.pos_le
    · show s2.src.drop s.pos = _
      rw [hsrc', hsrc]
      exact hat.drop_eq
  obtain ⟨w, s', hrun, hsame, hat', hpos⟩ := hcontent.reads trivial _ _ hback hn
  refine ⟨w, s', ?_, hsame, hat', hpos⟩
  unfold variantDecodeBinaryUnwrapExtensionObject
  rw [run_get_bind, run_bind_of_ok hnode]
  dsimp only
  rw [if_neg (not_not_intro rfl), run_bind_of_ok hbyte]
  dsimp only
  rw [if_neg (not_not_intro rfl), hnone, run_modify_bind]
  exact hrun

theorem keeps_variantArray {b : Builtin} {data : ArrayData} {dims : List UInt32}
    (hregular : RegularArray env.toTypeTables (.builtin b) data)
    (hfree : (variantScript (.array b data dims)).FailFree)
    (hlt : (arrayDataScript data).bytes.length < m) :
    Keeps (CarriedArray data) (variantNeed env.toTypeTables (.array b data dims))
      (variantDecodeBinary env decodeType)
      (variantScript (.array b data dims)).bytes
      fun w => nullVariant w = nullVariant (.array b data dims) := by
  obtain ⟨-, -, -, harray, hflag⟩ := variantEncoding_bits b true dims
  have hdata := keeps_array halloc (hnested (.builtin b)) data hregular hfree.1.2 (by omega)
  have hdims : Keeps True 0 (decodeIf (decide (dims.length > 0)) (dimensionsDecodeBinary env) [])
      (dimensionsScript dims).bytes (· = dims) := by
    apply Reads.always
    by_cases hpos : dims.length > 0
    · rw [decide_eq_true hpos]
      have hdimensions := hfree.2
      unfold dimensionsScript at hdimensions
      rw [if_neg hpos.ne'] at hdimensions
      exact reads_dimensionsDecodeBinary halloc hpos (failFree_arrayScript.mp hdimensions).1
    · rw [decide_eq_false hpos]
      obtain rfl := List.length_eq_zero_iff.mp (Nat.eq_zero_of_not_pos hpos)
      exact reads_pure ⟨rfl, rfl⟩
  simp only [variantScript, Script.bytes, List.append_assoc]
  apply keeps_variantContent
  unfold variantDecodeBinaryContent
  rw [if_pos (harray.mpr rfl), hflag, Bool.true_and, variantNeed, ← Nat.max_zero (_ - _)]
  apply Keeps.map
  apply (hdata.both hdims).congr (and_iff_left trivial).symm
  rintro ⟨data', dims'⟩
  show Variant.array b (nullArray data') dims' = .array b (nullArray data) dims ↔ _
  rw [Variant.array.injEq, eq_self, true_and]

theorem keeps_variant {w : Variant} (hregular : RegularVariant env.toTypeTables w)
    (hfree : (variantScript w).FailFree) (hlt : (variantScript w).bytes.length < m + 1) :
    Keeps (CarriedVariant w) (variantNeed env.toTypeTables w) (variantDecodeBinary env decodeType)
      (variantScript w).bytes
      fun w' => nullVariant w' = nullVariant w := by
  cases w with
  | empty =>
    apply Reads.always
    apply (reads_byteDecodeBinary 0).bind_nil
    rintro ⟨r, encodingByte⟩ ⟨hr, hencoding⟩
    dsimp only at hr hencoding ⊢
    subst hr hencoding
    rw [if_neg (not_not_intro rfl), if_pos rfl]
    exact reads_pure ⟨rfl, rfl⟩
  | scalar b data =>
    obtain ⟨hdata, hobject⟩ := hregular
    have hlength : (script data).bytes.length < m := by
      rw [variantScript, Script.bytes, List.length_append, length_byteScript] at hlt
      omega
    by_cases hb : b = .extensionObject
    · subst hb
      obtain ⟨typeId, body, rfl⟩ := hobject rfl
      exact keeps_scalarEncoded halloc hnested hdata.2 hfree.2 hlength
    · exact keeps_scalar halloc hnested hb hdata hfree.2 hlength
  | array b data dims =>
    simp only [variantScript, Script.bytes, List.length_append, length_byteScript] at hlt
    exact keeps_variantArray halloc hnested hregular hfree (by omega)
  | wrapped info data =>
    obtain ⟨type, hfind, hscalar, hdata⟩ := hregular
    rw [variantNeed, hfind]
    exact keeps_wrapped halloc hnested hfind hscalar hdata hfree hlt
  | wrappedEmpty info dims => exact hregular.elim
  | wrappedArray info data dims => exact hregular.elim

end Variants

theorem dataValueMask_bits (hasValue : Bool) (f : DataValueFields) :
    decide (dataValueMask hasValue f &&& 0x01 ≠ 0) = hasValue ∧
      decide (dataValueMask hasValue f &&& 0x02 ≠ 0) = f.status.isSome ∧
      decide (dataValueMask hasValue f &&& 0x04 ≠ 0) = f.sourceTimestamp.isSome ∧
      decide (dataValueMask hasValue f &&& 0x10 ≠ 0) = f.sourcePicoseconds.isSome ∧
      decide (dataValueMask hasValue f &&& 0x08 ≠ 0) = f.serverTimestamp.isSome ∧
      decide (dataValueMask hasValue f &&& 0x20 ≠ 0) = f.serverPicoseconds.isSome := by
  obtain ⟨hvalue, hstatus, hsource, hserver, hsourcePico, hserverPico, -⟩ :=
    mask_bits hasValue f.status.isSome f.sourceTimestamp.isSome f.serverTimestamp.isSome
      f.sourcePicoseconds.isSome f.serverPicoseconds.isSome
  exact ⟨hvalue, hstatus, hsource, hsourcePico, hserver, hserverPico⟩

theorem reads_uint64Field (field : Option UInt64) :
    Reads n (decodeField field.isSome uint64DecodeBinary) (fieldScript field uint64Script).bytes
      (Good (· = field)) := by
  have h := @reads_field _ _ n field uint64Script uint64DecodeBinary id
    fun x _ => reads_uint64DecodeBinary x
  simp only [Option.map_id_fun, id_eq] at h
  exact h

theorem reads_picosecondsField {field : Option UInt16}
    (h : ∀ p, field = some p → ¬ p > maxPicoSeconds) :
    Reads n (decodeField field.isSome picosecondsDecodeBinary)
      (fieldScript field uint16Script).bytes (Good (· = field)) := by
  have hreads := @reads_field _ _ n field uint16Script picosecondsDecodeBinary id (by
    intro p hp
    apply Reads.map
    apply (reads_uint16DecodeBinary p).mono (Nat.le_refl n)
    rintro ⟨r, p'⟩ ⟨hr, hp'⟩
    dsimp only at hp'
    refine ⟨hr, ?_⟩
    dsimp only
    rw [hp', if_neg (h p hp)])
  simp only [Option.map_id_fun, id_eq] at hreads
  exact hreads

theorem bytes_dataValueScript (hasValue : Bool) (value : Variant) (f : DataValueFields) :
    (script (.dataValue hasValue value f)).bytes = [dataValueMask hasValue f] ++
      ((scriptIf hasValue (variantScript value)).bytes ++
        (fieldScript f.status uint32Script).bytes ++
        (fieldScript f.sourceTimestamp uint64Script).bytes ++
        (fieldScript f.sourcePicoseconds uint16Script).bytes ++
        (fieldScript f.serverTimestamp uint64Script).bytes ++
        (fieldScript f.serverPicoseconds uint16Script).bytes) := by
  simp only [script, Script.bytes, byteScript, List.append_assoc]

theorem keeps_dataValue (halloc : ∀ k, env.calloc k = true)
    (hnested : ∀ type, ReadsBack env.toTypeTables m type (decodeType type)) {v : Value}
    (hregular : Regular env.toTypeTables (.builtin .dataValue) v) (hfree : (script v).FailFree)
    (hlt : (script v).bytes.length < m + 1) :
    Keeps (Carried v) (filterNeed env.toTypeTables (.builtin .dataValue) v)
      (dataValueDecodeBinary env decodeType) (script v).bytes fun v' => SameValue v' v := by
  cases v with
  | dataValue hasValue value fields =>
    obtain ⟨-, hempty, hsourcePico, hserverPico, hvalue⟩ := hregular
    obtain ⟨⟨⟨⟨⟨⟨-, hvalueFree⟩, -⟩, -⟩, -⟩, -⟩, -⟩ := hfree
    obtain ⟨status, sourceTimestamp, sourcePicoseconds, serverTimestamp, serverPicoseconds⟩ :=
      fields
    obtain ⟨hm1, hm2, hm3, hm4, hm5, hm6⟩ := dataValueMask_bits hasValue
      ⟨status, sourceTimestamp, sourcePicoseconds, serverTimestamp, serverPicoseconds⟩
    rw [bytes_dataValueScript] at hlt ⊢
    simp only [List.length_append, List.length_singleton] at hlt
    have hvariant : Keeps (CarriedVariant value) (variantNeed env.toTypeTables value)
        (decodeIf hasValue (variantDecodeBinary env decodeType) .empty)
        (scriptIf hasValue (variantScript value)).bytes
        fun w => nullVariant w = nullVariant value := by
      cases hasValue with
      | true =>
        rw [scriptIf, if_pos rfl] at hlt
        exact keeps_variant halloc hnested hvalue hvalueFree (by omega)
      | false =>
        rw [hempty rfl]
        exact (reads_pure ⟨rfl, rfl⟩).always
    -- the fields behind the value are bytes behind its arrays
    have hneed : filterNeed env.toTypeTables (.builtin .dataValue) (.dataValue hasValue value
        ⟨status, sourceTimestamp, sourcePicoseconds, serverTimestamp, serverPicoseconds⟩) =
        max (max (max (max (max (variantNeed env.toTypeTables value -
          (fieldScript status uint32Script).bytes.length) 0 -
          (fieldScript sourceTimestamp uint64Script).bytes.length) 0 -
          (fieldScript sourcePicoseconds uint16Script).bytes.length) 0 -
          (fieldScript serverTimestamp uint64Script).bytes.length) 0 -
          (fieldScript serverPicoseconds uint16Script).bytes.length) 0 := by
      have hstatus := @length_fieldScript _ status _ _ length_uint32Script
      have hsource := @length_fieldScript _ sourceTimestamp _ _ length_uint64Script
      have hserver := @length_fieldScript _ serverTimestamp _ _ length_uint64Script
      have hsourcePico := @length_fieldScript _ sourcePicoseconds _ _ length_uint16Script
      have hserverPico := @length_fieldScript _ serverPicoseconds _ _ length_uint16Script
      rw [filterNeed, dataValueFieldsCalcSize]
      dsimp only
      omega
    rw [hneed]
    apply keeps_byte
    dsimp only
    rw [if_neg (not_not_intro rfl), hm1, hm2, hm3, hm4, hm5, hm6]
    apply Keeps.map
    have hfields := ((((hvariant.both (reads_uint32Field status).always).both
      (reads_uint64Field sourceTimestamp).always).both
        (reads_picosecondsField hsourcePico).always).both
      (reads_uint64Field serverTimestamp).always).both (reads_picosecondsField hserverPico).always
    apply hfields.congr (by simp only [and_true]; rfl)
    rintro ⟨⟨⟨⟨⟨value', status'⟩, source'⟩, sourcePico'⟩, server'⟩, serverPico'⟩
    simp only [SameValue, nullValue, Value.dataValue.injEq, DataValueFields.mk.injEq, true_and,
      and_assoc]
  | _ => exact absurd hregular (by simp [Regular, numberSize])

section Numbers

variable {tables : TypeTables} {decodeType : DataType → DecodeM (Decoded Value)} {b : Builtin}

theorem keeps_byteValue {x : UInt8} (h : Regular tables (.builtin b) (.byte x)) :
    Keeps True 0 (builtinDecodeBinary env decodeType fuel b) [x] fun v =>
      SameValue v (.byte x) := by
  obtain ⟨hsize, hboolean⟩ := h
  cases b with
  | boolean =>
    rcases hboolean rfl with rfl | rfl
    · exact (reads_booleanDecodeBinary false).same .byte (iff_of_true trivial rfl)
    · exact (reads_booleanDecodeBinary true).same .byte (iff_of_true trivial rfl)
  | sbyte | byte => exact (reads_byteDecodeBinary x).same .byte (iff_of_true trivial rfl)
  | _ => cases hsize

theorem keeps_uint16Value {x : UInt16} (h : Regular tables (.builtin b) (.uint16 x)) :
    Keeps True 0 (builtinDecodeBinary env decodeType fuel b) (uint16Script x).bytes
      fun v => SameValue v (.uint16 x) := by
  have hreads :=
    @Reads.same _ _ True _ _ _ (.uint16 x) (reads_uint16DecodeBinary x) (iff_of_true trivial rfl)
  cases b with
  | int16 | uint16 => exact hreads
  | _ => cases h

theorem keeps_uint32Value {x : UInt32} (h : Regular tables (.builtin b) (.uint32 x)) :
    Keeps True 0 (builtinDecodeBinary env decodeType fuel b) (uint32Script x).bytes
      fun v => SameValue v (.uint32 x) := by
  have hreads := ((@reads_uint32DecodeBinary 0 x).same .uint32 (iff_of_true trivial rfl))
  cases b with
  | int32 | uint32 | float | statusCode => exact hreads
  | _ => cases h

theorem keeps_uint64Value {x : UInt64} (h : Regular tables (.builtin b) (.uint64 x)) :
    Keeps True 0 (builtinDecodeBinary env decodeType fuel b) (uint64Script x).bytes
      fun v => SameValue v (.uint64 x) := by
  have hreads := ((@reads_uint64DecodeBinary 0 x).same .uint64 (iff_of_true trivial rfl))
  cases b with
  | int64 | uint64 | double | dateTime => exact hreads
  | _ => cases h

theorem keeps_stringValue (halloc : ∀ k, env.calloc k = true) {s : UaString}
    (h : Regular tables (.builtin b) (.string s)) (hfree : (stringScript s).FailFree) :
    Keeps True 0 (builtinDecodeBinary env decodeType fuel b) (stringScript s).bytes
      fun v => SameValue v (.string s) := by
  have hkeeps :
    Keeps True 0 (decodeMap Value.string (stringDecodeBinary env)) (stringScript s).bytes
      fun v => SameValue v (.string s) := by
    apply (reads_stringDecodeBinary halloc (failFree_stringScript.mp hfree)).same
    exact iff_of_true trivial (congrArg Value.string (nullString_decodedString s))
  cases b with
  | string | byteString | xmlElement => exact hkeeps
  | _ => simp [Regular] at h

theorem keeps_nodeId (halloc : ∀ k, env.calloc k = true) {n : NodeId}
    (hfree : (nodeIdScript n 0).FailFree) :
    Keeps True 0 (decodeMap .nodeId (nodeIdDecodeBinary env)) (nodeIdScript n 0).bytes
      fun v => SameValue v (.nodeId n) := by
  apply (reads_nodeIdScript halloc (failFree_nodeIdScript.mp hfree)).same
  exact iff_of_true trivial (congrArg Value.nodeId (nullNodeId_decodedNodeId n))

theorem keeps_localizedText (halloc : ∀ k, env.calloc k = true) {t : LocalizedText}
    (hfree : (localizedTextScript t).FailFree) :
    Keeps True 0 (decodeMap .localizedText (localizedTextDecodeBinary env))
      (localizedTextScript t).bytes fun v => SameValue v (.localizedText t) := by
  obtain ⟨hlocale, htext⟩ := failFree_localizedTextScript.mp hfree
  apply (reads_localizedTextDecodeBinary halloc hlocale htext).same
  refine iff_of_true trivial ?_
  show Value.localizedText _ = Value.localizedText _
  rw [nullString_decodedString, nullString_decodedString]

end Numbers

section JumpTable

variable (halloc : ∀ k, env.calloc k = true)
  (hnested : ∀ type, ReadsBack env.toTypeTables m type (decodeType type))

include halloc hnested

theorem readsBack_builtin (b : Builtin) :
    ReadsBack env.toTypeTables (m + 1) (.builtin b)
      (builtinDecodeBinary env decodeType (fuel + 1) b) := by
  intro v hregular hfree hlt
  cases v with
  | byte x => exact keeps_byteValue hregular
  | uint16 x => exact keeps_uint16Value hregular
  | uint32 x => exact keeps_uint32Value hregular
  | uint64 x => exact keeps_uint64Value hregular
  | string s => exact keeps_stringValue halloc hregular hfree
  | guid g =>
    obtain rfl := DataType.builtin.inj hregular
    exact (reads_guidDecodeBinary g).same .guid (iff_of_true trivial rfl)
  | nodeId n =>
    obtain rfl := DataType.builtin.inj hregular
    exact keeps_nodeId halloc hfree
  | expandedNodeId n =>
    obtain rfl := DataType.builtin.inj hregular
    exact keeps_expandedNodeId halloc hfree
  | localizedText t =>
    obtain rfl := DataType.builtin.inj hregular
    exact keeps_localizedText halloc hfree
  | encodedObject typeId body =>
    obtain rfl := DataType.builtin.inj hregular.1
    exact keeps_extensionObject halloc hnested hregular hfree hlt
  | decodedObject info data =>
    obtain rfl := DataType.builtin.inj hregular.1
    exact keeps_extensionObject halloc hnested hregular hfree hlt
  | unsetObject => exact hregular.elim
  | dataValue hasValue value fields =>
    obtain rfl := DataType.builtin.inj hregular.1
    exact keeps_dataValue halloc hnested hregular hfree hlt
  | variant w =>
    obtain ⟨htype, hw⟩ := hregular
    obtain rfl := DataType.builtin.inj htype
    apply Keeps.map
    apply (keeps_variant halloc hnested hw hfree hlt).congr Iff.rfl
    exact fun w' => ⟨fun h => Value.variant.inj h, fun h => congrArg Value.variant h⟩
  | diagnosticInfo d =>
    obtain rfl := DataType.builtin.inj hregular
    apply Keeps.map
    apply (keeps_diagnosticInfo halloc hfree fuel).congr Iff.rfl
    exact fun d' => ⟨fun h => Value.diagnosticInfo.inj h, fun h => congrArg Value.diagnosticInfo h⟩
  | «structure» members =>
    cases b with
    | qualifiedName =>
      obtain ⟨ns, name, rfl⟩ := hregular
      have hbytes :
        (script (.structure (.scalar (.uint16 ns) (.scalar (.string name) .nil)))).bytes =
          (uint16Script ns).bytes ++ (stringScript name).bytes := by
        simp only [script, membersScript, Script.bytes, List.append_nil]
      rw [hbytes]
      apply (keeps_qualifiedName halloc ns (failFree_stringScript.mp hfree.2.1)).congr
      · exact iff_of_true ⟨trivial, trivial, trivial⟩ trivial
      · exact fun _ => Iff.rfl
    | _ => exact hregular.elim

end JumpTable

mutual

theorem readsBack_entry (halloc : ∀ k, env.calloc k = true)
    (hnested : ∀ type, ReadsBack env.toTypeTables m type (decodeType type)) :
    (type : DataType) →
    ReadsBack env.toTypeTables (m + 1) type (decodeBinaryEntry env decodeType (fuel + 1) type)
  | .builtin b => readsBack_builtin halloc hnested b
  | .enumeration typeId encodingId => by
    intro v hregular _ _
    cases v with
    | uint32 x => exact (reads_uint32DecodeBinary x).same .uint32 (iff_of_true trivial rfl)
    | _ => exact absurd hregular (by simp [Regular, numberSize])
  | .structure info overlayable memSize_pos types => by
    intro v hregular hfree hlt
    cases v with
    | «structure» members =>
      apply Keeps.map
      apply (keeps_members halloc hnested types members hregular hfree hlt).congr Iff.rfl
      exact fun ms => ⟨fun h => Value.structure.inj h, fun h => congrArg Value.structure h⟩
    | _ => exact absurd hregular (by simp [Regular, numberSize])

theorem keeps_members (halloc : ∀ k, env.calloc k = true)
    (hnested : ∀ type, ReadsBack env.toTypeTables m type (decodeType type)) :
    (types : MemberTypes) → (ms : Members) →
    RegularMembers env.toTypeTables types ms → (membersScript ms).FailFree →
    (membersScript ms).bytes.length < m + 1 →
    Keeps (CarriedMembers ms) (membersNeed env.toTypeTables types ms)
      (decodeBinaryInternal env decodeType (fuel + 1) types) (membersScript ms).bytes
      fun ms' => nullMembers ms' = nullMembers ms
  | .nil, .nil, _, _, _ => (reads_pure ⟨rfl, rfl⟩).always
  | .scalar type types, .scalar v rest, hregular, hfree, hlt => by
    have hbytes : (membersScript (.scalar v rest)).bytes =
        (script v).bytes ++ (membersScript rest).bytes := by
      simp only [membersScript, Script.bytes]
    rw [hbytes, List.length_append] at hlt
    have hv := readsBack_entry halloc hnested type v hregular.1 hfree.1 (by omega)
    have hrest := keeps_members halloc hnested types rest hregular.2 hfree.2 (by omega)
    rw [hbytes, membersNeed]
    apply Keeps.map
    apply (hv.both hrest).congr Iff.rfl
    rintro ⟨v', rest'⟩
    show Members.scalar (nullValue v') (nullMembers rest') =
      .scalar (nullValue v) (nullMembers rest) ↔ _
    rw [Members.scalar.injEq]
    rfl
  | .array type types, .array a rest, hregular, hfree, hlt => by
    have hbytes : (membersScript (.array a rest)).bytes =
        (arrayDataScript a).bytes ++ (membersScript rest).bytes := by
      simp only [membersScript, Script.bytes]
    rw [hbytes, List.length_append] at hlt
    have ha := keeps_array halloc (readsBack_entry halloc hnested type) a hregular.1 hfree.1
      (by omega)
    have hrest := keeps_members halloc hnested types rest hregular.2 hfree.2 (by omega)
    rw [hbytes, membersNeed]
    apply Keeps.map
    apply (ha.both hrest).congr Iff.rfl
    rintro ⟨a', rest'⟩
    show Members.array (nullArray a') (nullMembers rest') =
      .array (nullArray a) (nullMembers rest) ↔ _
    rw [Members.array.injEq]
  | .nil, .scalar _ _, hregular, _, _ => hregular.elim
  | .nil, .array _ _, hregular, _, _ => hregular.elim
  | .scalar _ _, .nil, hregular, _, _ => by cases hregular
  | .scalar _ _, .array _ _, hregular, _, _ => hregular.elim
  | .array _ _, .nil, hregular, _, _ => by cases hregular
  | .array _ _, .scalar _ _, hregular, _, _ => hregular.elim

end

/-- The encoding of a regular value is read back just when the bytes behind it satisfy the
filter. -/
theorem readsBack_decodeBinaryJumpTable (halloc : ∀ k, env.calloc k = true) (m fuel : Nat)
    (hfuel : m ≤ fuel) (type : DataType) :
    ReadsBack env.toTypeTables m type (decodeBinaryJumpTable env fuel type) := by
  induction m generalizing fuel type with
  | zero => exact fun v _ _ hlt => absurd hlt (Nat.not_lt_zero _)
  | succ m ih =>
    obtain ⟨fuel, rfl⟩ : ∃ k, fuel = k + 1 := ⟨fuel - 1, by omega⟩
    exact readsBack_entry halloc (fun t => ih fuel (by omega) t) type

end FactoryThing.Encoding
