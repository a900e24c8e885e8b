import FactoryThing.Encoding.Script

/-!
# The announced size and the encoded size

Into one buffer, without an exchange callback, a successful encoding writes exactly the bytes of
its script (`run_good`). Their number is compared with `UA_calcSizeBinary`: the two hand-written
recursions agree up to the `drift` of the value, which has two sources. For a namespace URI the
encoder asks whether the pointer is regular, the size whether the length is positive; and for a
decoded ExtensionObject or a wrapped Variant the encoder writes the id of the binary encoding,
while the size counts the id of the data type, and even counts nothing at all for an empty array
of a type whose id is not numeric.
-/

namespace FactoryThing.Encoding

open Stateful

variable {H : Type} {fuel : Nat}

variable {s s' : EncodeState H} {length : Nat} (v : Value) {content : Script}

theorem run_exchangeBuffer_none_ok {r : StatusCode} :
    (exchangeBuffer none).run s = .ok (r, s') ↔ r = StatusCode.badEncodingError ∧ s' = s :=
  run_pure_ok

theorem badEncodingError_ne_good : StatusCode.badEncodingError ≠ StatusCode.good := by decide

theorem badEncodingLimitsExceeded_ne_good :
    StatusCode.badEncodingLimitsExceeded ≠ StatusCode.good := by decide

theorem or_eq_good {a b : StatusCode} :
    a ||| b = StatusCode.good ↔ a = StatusCode.good ∧ b = StatusCode.good :=
  UInt32.or_eq_zero_iff

theorem encodeWithExchange_none_good {f : EncodeM H StatusCode} {n : Nat}
    (h : (encodeWithExchange none f n).run s = .ok (StatusCode.good, s')) :
    f.run s = .ok (StatusCode.good, s') := by
  cases n with
  | zero => exact (run_throw_ok.mp h).elim
  | succ n =>
    obtain ⟨r1, s1, hf, hrest⟩ := run_encodeWithExchange_succ_ok.mp h
    split at hrest
    · obtain ⟨r2, s2, hx, hlast⟩ := hrest
      obtain ⟨rfl, rfl⟩ := run_exchangeBuffer_none_ok.mp hx
      exact absurd hlast.1.symm badEncodingError_ne_good
    · obtain ⟨rfl, rfl⟩ := hrest
      exact hf

theorem arrayEncodeBinaryOverlayable_none_good {unit n : Nat} {mem : List UInt8}
    (h : (arrayEncodeBinaryOverlayable none unit n mem).run s = .ok (StatusCode.good, s')) :
    s' = s.write mem := by
  cases n with
  | zero => exact (run_throw_ok.mp h).elim
  | succ n =>
    have hround := run_arrayEncodeBinaryOverlayable_succ_ok.mp h
    split at hround
    · obtain ⟨r1, s1, hx, hlast⟩ := hround
      obtain ⟨rfl, rfl⟩ := run_exchangeBuffer_none_ok.mp hx
      exact absurd hlast.1.symm badEncodingError_ne_good
    · exact hround.2

theorem run_good (sc : Script) (h : (sc.run fuel none).run s = .ok (StatusCode.good, s')) :
    sc.FailFree ∧ s' = s.write sc.bytes := by
  induction sc generalizing s s' with
  | done =>
    obtain ⟨-, rfl⟩ := run_pure_ok.mp h
    exact ⟨trivial, (EncodeState.write_nil s').symm⟩
  | write bytes =>
    rw [Script.run, run_encodePrimitive] at h
    split at h
    · simp at h
      exact absurd h.1 badEncodingLimitsExceeded_ne_good
    · simp at h
      exact ⟨trivial, h.symm⟩
  | copy unit mem => exact ⟨trivial, arrayEncodeBinaryOverlayable_none_good h⟩
  | fail status bad => exact absurd (run_pure_ok.mp h).1.symm bad
  | failAfter sc status bad ih =>
    obtain ⟨_, _, _, hlast⟩ := run_bind_ok.mp h
    exact absurd (run_pure_ok.mp hlast).1.symm bad
  | both a b iha ihb =>
    obtain ⟨r1, s1, ha, r2, hb, hr⟩ := run_orStatus_ok.mp h
    obtain ⟨rfl, rfl⟩ := or_eq_good.mp hr.symm
    obtain ⟨hfa, rfl⟩ := iha ha
    obtain ⟨hfb, rfl⟩ := ihb hb
    exact ⟨⟨hfa, hfb⟩, EncodeState.write_write s _ _⟩
  | andThen a b iha ihb =>
    obtain ⟨r1, s1, ha, hrest⟩ := run_bind_ok.mp h
    split at hrest
    · next hr =>
      subst hr
      obtain ⟨hfa, rfl⟩ := iha ha
      obtain ⟨hfb, rfl⟩ := ihb hrest
      exact ⟨⟨hfa, hfb⟩, EncodeState.write_write s _ _⟩
    · next hr => exact absurd (run_pure_ok.mp hrest).1.symm hr
  | retry sc ih => exact ih (encodeWithExchange_none_good h)

theorem encodeBinary_none_good {src : Value} {handle : H} {before : List UInt8}
    (h : encodeBinary fuel none src handle length before = .ok (StatusCode.good, s')) :
    (membersScript src.members).FailFree ∧
      s'.pos.before = before ++ (membersScript src.members).bytes := by
  rw [encodeBinary, ← run_membersScript] at h
  obtain ⟨hfree, rfl⟩ := run_good _ h
  exact ⟨hfree, rfl⟩

theorem arrayDataScript_byteArray (s : UaString) :
    arrayDataScript (byteArray s) = stringScript s := by
  cases s with
  | null | sentinel => rfl
  | mem bs =>
    cases bs with
    | nil => rfl
    | cons b bs => exact (if_pos (show (b :: bs).length > 0 from Nat.succ_pos _)).symm

theorem bytes_members : (membersScript v.members).bytes = (script v).bytes := by
  cases v with
  | string s =>
    rw [Value.members, membersScript, arrayDataScript_byteArray]
    exact List.append_nil _
  | «structure» members => rfl
  | _ => exact List.append_nil _

theorem failFree_members : (membersScript v.members).FailFree ↔ (script v).FailFree := by
  cases v with
  | string s =>
    rw [Value.members, membersScript, arrayDataScript_byteArray]
    exact iff_of_eq (and_true _)
  | «structure» members => exact Iff.rfl
  | _ => exact iff_of_eq (and_true _)

/-- The size by which the id of the binary encoding differs from the id of the data type. -/
def typeIdDrift (type : TypeInfo) : Int :=
  nodeIdCalcSizeBinary (encodingTypeId type) - nodeIdCalcSizeBinary type.typeId

/-- A namespace URI of length zero with a regular pointer. -/
def uriDrift (src : ExpandedNodeId) : Int :=
  if isRegular src.namespaceUri ∧ src.namespaceUri.length = 0 then 4 else 0

mutual

/-- By how much the encoding of a value is longer than its announced size. -/
def drift : Value → Int
  | .byte _ => 0
  | .uint16 _ => 0
  | .uint32 _ => 0
  | .uint64 _ => 0
  | .string _ => 0
  | .guid _ => 0
  | .nodeId _ => 0
  | .expandedNodeId n => uriDrift n
  | .localizedText _ => 0
  | .encodedObject _ _ => 0
  | .decodedObject type data => typeIdDrift type + drift data
  | .unsetObject => 0
  | .dataValue hasValue value _ => if hasValue then variantDrift value else 0
  | .variant v => variantDrift v
  | .diagnosticInfo _ => 0
  | .structure members => membersDrift members

/-- The drift of a Variant. -/
def variantDrift : Variant → Int
  | .empty => 0
  | .scalar _ data => drift data
  | .array _ data _ => arrayDrift data
  | .wrapped type data => typeIdDrift type + drift data
  | .wrappedEmpty type dims => if isNumeric type.typeId then 0 else 5 + dimensionsCalcSize dims
  | .wrappedArray type data _ => typeIdDrift type * data.length + valuesDrift data

def arrayDrift : ArrayData → Int
  | .empty _ => 0
  | .overlay _ => 0
  | .elements data => valuesDrift data

def valuesDrift : Values → Int
  | .one v => drift v
  | .cons v rest => drift v + valuesDrift rest

def membersDrift : Members → Int
  | .nil => 0
  | .scalar v rest => drift v + membersDrift rest
  | .array a rest => arrayDrift a + membersDrift rest

end

theorem membersDrift_members : membersDrift v.members = drift v := by
  cases v with
  | string s =>
    cases s with
    | null | sentinel => rfl
    | mem bs =>
      cases bs with
      | nil => rfl
      | cons b bs => rfl
  | «structure» ms => rfl
  | _ => simp [Value.members, membersDrift]

/-! ## The size of every script -/

theorem failFree_arrayScript :
    (arrayScript length content).FailFree ↔ length ≤ int32Max ∧ content.FailFree := by
  unfold arrayScript
  split
  · simp [Script.FailFree]
    omega
  · simp [Script.FailFree, uint32Script]
    omega

theorem length_arrayScript (h : (arrayScript length content).FailFree) :
    (arrayScript length content).bytes.length = 4 + content.bytes.length := by
  have hle := (failFree_arrayScript.mp h).1
  rw [arrayScript, if_neg (by omega)]
  simp [Script.bytes]

theorem length_stringScript {s : UaString} (h : (stringScript s).FailFree) :
    (stringScript s).bytes.length = stringCalcSizeBinary s := by
  unfold stringScript at h ⊢
  split at h
  · next hpos =>
    rw [if_pos hpos, length_arrayScript h]
    rfl
  · next hzero =>
    rw [if_neg hzero, length_uint32Script, stringCalcSizeBinary]
    omega

theorem length_guidScript (g : Guid) : (guidScript g).bytes.length = 16 := by
  simp [guidScript, Script.bytes]

theorem length_nodeIdScript {n : NodeId} {encoding : UInt8}
    (h : (nodeIdScript n encoding).FailFree) :
    (nodeIdScript n encoding).bytes.length = nodeIdCalcSizeBinary n := by
  unfold nodeIdScript nodeIdCalcSizeBinary at *
  cases hid : n.identifier with
  | numeric i =>
    dsimp only
    split
    · simp [Script.bytes]
    · split
      · simp [Script.bytes]
      · simp [Script.bytes]
  | string s =>
    rw [hid] at h
    simp only [Script.bytes, List.length_append, length_stringScript h.2, length_byteScript,
      length_uint16Script]
    omega
  | guid g => simp [Script.bytes, length_guidScript]
  | byteString s =>
    rw [hid] at h
    simp only [Script.bytes, List.length_append, length_stringScript h.2, length_byteScript,
      length_uint16Script]
    omega

theorem length_fieldScript {α : Type} {field : Option α} {sc : α → Script} {size : Nat}
    (h : ∀ x, (sc x).bytes.length = size) :
    (fieldScript field sc).bytes.length = sizeIf field size := by
  cases field with
  | none => rfl
  | some x => exact h x

theorem length_scriptIf {c : Bool} {sc : Script} {size : Nat}
    (h : c = true → sc.bytes.length = size) :
    (scriptIf c sc).bytes.length = if c then size else 0 := by
  cases c with
  | false => rfl
  | true => exact h rfl

theorem failFree_scriptIf {c : Bool} {sc : Script} :
    (scriptIf c sc).FailFree ↔ (c = true → sc.FailFree) := by
  cases c with
  | false => simp [scriptIf, Script.FailFree]
  | true => simp [scriptIf]

theorem isRegular_iff {s : UaString} (hlen : 0 < s.length) : isRegular s = true := by
  cases s with
  | mem bs => rfl
  | null | sentinel => exact absurd hlen (by simp)

theorem length_expandedNodeIdScript {n : ExpandedNodeId}
    (h : (expandedNodeIdScript n).FailFree) :
    ((expandedNodeIdScript n).bytes.length : Int) = expandedNodeIdCalcSizeBinary n +
      uriDrift n := by
  obtain ⟨⟨hnode, huri⟩, -⟩ := h
  have huriLen := length_scriptIf (c := isRegular n.namespaceUri)
    fun hc => length_stringScript (failFree_scriptIf.mp huri hc)
  have hserver := length_scriptIf (c := decide (n.serverIndex > 0))
    fun _ => length_uint32Script n.serverIndex
  rw [expandedNodeIdScript, Script.bytes, Script.bytes, List.length_append, List.length_append,
    length_nodeIdScript hnode, huriLen, hserver, expandedNodeIdCalcSizeBinary, uriDrift]
  by_cases hpos : n.namespaceUri.length > 0
  · have hzero : n.namespaceUri.length ≠ 0 := by omega
    simp [hpos, hzero, isRegular_iff hpos]
  · have hzero : n.namespaceUri.length = 0 := by omega
    by_cases hreg : isRegular n.namespaceUri = true
    · simp [hzero, hreg, stringCalcSizeBinary]
      omega
    · simp [hzero, hreg]

theorem length_localizedTextScript {t : LocalizedText} (h : (localizedTextScript t).FailFree) :
    (localizedTextScript t).bytes.length = localizedTextCalcSizeBinary t := by
  obtain ⟨⟨-, hlocale⟩, htext⟩ := h
  have hl := length_scriptIf (c := hasData t.locale)
    fun hc => length_stringScript (failFree_scriptIf.mp hlocale hc)
  have ht := length_scriptIf (c := hasData t.text)
    fun hc => length_stringScript (failFree_scriptIf.mp htext hc)
  rw [localizedTextScript, Script.bytes, Script.bytes, List.length_append, List.length_append, hl,
    ht, localizedTextCalcSizeBinary]
  simp [hasData]

theorem length_encodedObjectScript {typeId : NodeId} {body : EncodedBody}
    (h : (encodedObjectScript typeId body).FailFree) :
    (encodedObjectScript typeId body).bytes.length = encodedObjectCalcSizeBinary typeId body := by
  cases body with
  | noBody =>
    simp only [encodedObjectScript, Script.bytes, List.length_append, length_byteScript,
      length_nodeIdScript h.1, encodedObjectCalcSizeBinary]
    omega
  | byteString s =>
    simp only [encodedObjectScript, Script.bytes, List.length_append, length_byteScript,
      length_nodeIdScript h.1.1, length_stringScript h.2, encodedObjectCalcSizeBinary]
    omega
  | xml s =>
    simp only [encodedObjectScript, Script.bytes, List.length_append, length_byteScript,
      length_nodeIdScript h.1.1, length_stringScript h.2, encodedObjectCalcSizeBinary]
    omega

theorem length_stringField {field : Option UaString}
    (h : (fieldScript field stringScript).FailFree) :
    (fieldScript field stringScript).bytes.length = field.elim 0 stringCalcSizeBinary := by
  cases field with
  | none => rfl
  | some s => exact length_stringScript h

theorem length_diagnosticInfoScript : (d : DiagnosticInfo) → (diagnosticInfoScript d).FailFree →
    (diagnosticInfoScript d).bytes.length = diagnosticInfoCalcSizeBinary d
  | .mk symbolicId namespaceUri localizedText locale additionalInfo innerStatusCode none, h => by
    rw [diagnosticInfoScript] at h ⊢
    obtain ⟨⟨⟨-, hinfo⟩, -⟩, -⟩ := h
    simp only [diagnosticInfoCalcSizeBinary, Script.bytes, List.length_append, length_byteScript,
      length_fieldScript length_uint32Script, length_stringField hinfo, List.length_nil]
  | .mk symbolicId namespaceUri localizedText locale additionalInfo innerStatusCode (some d),
      h => by
    rw [diagnosticInfoScript] at h ⊢
    obtain ⟨⟨⟨-, hinfo⟩, -⟩, hinner⟩ := h
    simp only [diagnosticInfoCalcSizeBinary, Script.bytes, List.length_append, length_byteScript,
      length_fieldScript length_uint32Script, length_stringField hinfo,
      length_diagnosticInfoScript d hinner]

theorem length_dimensionsScript {dims : List UInt32} (h : (dimensionsScript dims).FailFree) :
    (dimensionsScript dims).bytes.length = dimensionsCalcSize dims := by
  unfold dimensionsScript dimensionsCalcSize at *
  by_cases hzero : dims.length = 0
  · simp [hzero, Script.bytes]
  · rw [if_neg hzero] at h ⊢
    rw [if_pos (by omega), length_arrayScript h]
    simp [Script.bytes, List.length_flatMap, List.map_const', Nat.mul_comm]

theorem length_decodedObjectScript {type : TypeInfo} {len : Nat}
    (h : (decodedObjectScript type len content).FailFree) :
    isNumeric type.typeId = true ∧ content.FailFree ∧
      ((decodedObjectScript type len content).bytes.length : Int) =
        wrapCalcSize type + typeIdDrift type + content.bytes.length := by
  unfold decodedObjectScript at *
  by_cases hnum : isNumeric type.typeId = false
  · rw [if_pos hnum] at h
    exact h.elim
  · rw [if_neg hnum] at h ⊢
    by_cases hlen : len > int32Max
    · rw [if_pos hlen] at h
      exact h.elim
    · rw [if_neg hlen] at h ⊢
      obtain ⟨hheader, -, hcontent⟩ := h
      refine ⟨by simpa using hnum, hcontent, ?_⟩
      simp only [Script.bytes, objectHeaderScript, List.length_append,
        length_nodeIdScript hheader.1,
        length_byteScript, length_uint32Script, wrapCalcSize, typeIdDrift]
      omega

mutual

theorem length_script : (v : Value) → (script v).FailFree →
    ((script v).bytes.length : Int) = calcSizeBinaryJumpTable v + drift v
  | .byte v, _ => rfl
  | .uint16 v, _ => by simp [script, calcSizeBinaryJumpTable, drift]
  | .uint32 v, _ => by simp [script, calcSizeBinaryJumpTable, drift]
  | .uint64 v, _ => by simp [script, calcSizeBinaryJumpTable, drift]
  | .string s, h => by
    rw [script] at h ⊢
    simp [length_stringScript h, calcSizeBinaryJumpTable, drift]
  | .guid g, _ => by simp [script, calcSizeBinaryJumpTable, drift, length_guidScript]
  | .nodeId n, h => by
    rw [script] at h ⊢
    simp [length_nodeIdScript h, calcSizeBinaryJumpTable, drift]
  | .expandedNodeId n, h => by
    rw [script] at h ⊢
    rw [length_expandedNodeIdScript h, calcSizeBinaryJumpTable, drift]
  | .localizedText t, h => by
    rw [script] at h ⊢
    simp [length_localizedTextScript h, calcSizeBinaryJumpTable, drift]
  | .encodedObject typeId body, h => by
    rw [script] at h ⊢
    simp [length_encodedObjectScript h, calcSizeBinaryJumpTable, drift]
  | .decodedObject type data, h => by
    rw [script] at h ⊢
    obtain ⟨hnum, hfree, hlen⟩ := length_decodedObjectScript h
    have ih := length_script data hfree
    rw [hlen, ih, calcSizeBinaryJumpTable, if_pos hnum, drift, wrapCalcSize]
    omega
  | .unsetObject, h => h.elim
  | .dataValue hasValue value f, h => by
    rw [script] at h ⊢
    obtain ⟨⟨⟨⟨⟨⟨-, hvalue⟩, -⟩, -⟩, -⟩, -⟩, -⟩ := h
    simp only [Script.bytes, List.length_append, length_byteScript,
      length_fieldScript length_uint16Script, length_fieldScript length_uint32Script,
      length_fieldScript length_uint64Script, calcSizeBinaryJumpTable, drift,
      dataValueFieldsCalcSize]
    cases hasValue with
    | false =>
      simp only [scriptIf, Bool.false_eq_true, if_false, Script.bytes, List.length_nil]
      omega
    | true =>
      have ih := length_variantScript value hvalue
      simp only [scriptIf, if_true] at *
      grind
  | .variant v, h => by
    rw [script] at h ⊢
    rw [length_variantScript v h, calcSizeBinaryJumpTable, drift]
  | .diagnosticInfo d, h => by
    rw [script] at h ⊢
    simp [length_diagnosticInfoScript d h, calcSizeBinaryJumpTable, drift]
  | .structure members, h => by
    rw [script] at h ⊢
    rw [length_membersScript members h, calcSizeBinaryJumpTable, drift]

theorem length_variantScript : (v : Variant) → (variantScript v).FailFree →
    ((variantScript v).bytes.length : Int) = variantCalcSizeBinary v + variantDrift v
  | .empty, _ => rfl
  | .scalar type data, h => by
    rw [variantScript] at h ⊢
    have ih := length_script data h.2
    simp only [Script.bytes, List.length_append, length_byteScript, variantCalcSizeBinary,
      variantDrift]
    omega
  | .array type data dims, h => by
    rw [variantScript] at h ⊢
    obtain ⟨⟨-, hdata⟩, hdims⟩ := h
    have ih := length_arrayDataScript data hdata
    simp only [Script.bytes, List.length_append, length_byteScript, length_dimensionsScript hdims,
      variantCalcSizeBinary, variantDrift]
    omega
  | .wrapped type data, h => by
    rw [variantScript] at h ⊢
    obtain ⟨hnum, hfree, hlen⟩ := length_decodedObjectScript h.2
    have ih := length_script data hfree
    simp only [Script.bytes, List.length_append, length_byteScript, variantCalcSizeBinary,
      variantDrift, if_pos hnum]
    omega
  | .wrappedEmpty type dims, h => by
    rw [variantScript] at h ⊢
    simp only [Script.bytes, List.length_append, length_byteScript, length_uint32Script,
      length_dimensionsScript h.2, variantCalcSizeBinary, variantDrift]
    split
    · omega
    · omega
  | .wrappedArray type data dims, h => by
    rw [variantScript] at h ⊢
    obtain ⟨⟨-, hdata⟩, hdims⟩ := h
    by_cases hle : data.length > int32Max
    · rw [if_pos hle] at hdata
      exact hdata.elim
    · rw [if_neg hle] at hdata ⊢
      obtain ⟨hnum, hlen⟩ := length_wrappedScript type data hdata.2
      simp only [Script.bytes, List.length_append, length_byteScript, length_uint32Script,
        length_dimensionsScript hdims, variantCalcSizeBinary, variantDrift, if_pos hnum]
      push_cast
      rw [hlen]
      ring

theorem length_wrappedScript (type : TypeInfo) : (vs : Values) →
    (wrappedScript type vs).FailFree → isNumeric type.typeId = true ∧
      ((wrappedScript type vs).bytes.length : Int) =
        wrapCalcSize type * vs.length + calcSizeValues vs +
          (typeIdDrift type * vs.length + valuesDrift vs)
  | .one v, h => by
    rw [wrappedScript] at h ⊢
    obtain ⟨hnum, hfree, hlen⟩ := length_decodedObjectScript h
    have ih := length_script v hfree
    refine ⟨hnum, ?_⟩
    simp only [Script.bytes, Values.length, calcSizeValues, valuesDrift]
    rw [hlen, ih]
    ring
  | .cons v rest, h => by
    rw [wrappedScript] at h ⊢
    obtain ⟨hnum, hfree, hlen⟩ := length_decodedObjectScript h.1
    have ih := length_script v hfree
    obtain ⟨-, ihrest⟩ := length_wrappedScript type rest h.2
    refine ⟨hnum, ?_⟩
    simp only [Script.bytes, List.length_append, Values.length, calcSizeValues, valuesDrift]
    push_cast
    rw [hlen, ih, ihrest]
    ring

theorem length_arrayDataScript : (a : ArrayData) → (arrayDataScript a).FailFree →
    ((arrayDataScript a).bytes.length : Int) = arrayCalcSizeBinary a + arrayDrift a
  | .empty sentinel, _ => by
    simp [arrayDataScript, arrayCalcSizeBinary, arrayDrift]
  | .overlay block, h => by
    rw [arrayDataScript] at h ⊢
    simp [length_arrayScript h, Script.bytes, arrayCalcSizeBinary, arrayDrift, block.size_eq]
  | .elements data, h => by
    rw [arrayDataScript] at h ⊢
    have ih := length_valuesScript data (failFree_arrayScript.mp h).2
    rw [length_arrayScript h, arrayCalcSizeBinary, arrayDrift]
    omega

theorem length_valuesScript : (vs : Values) → (valuesScript vs).FailFree →
    ((valuesScript vs).bytes.length : Int) = calcSizeValues vs + valuesDrift vs
  | .one v, h => by
    rw [valuesScript] at h ⊢
    exact length_script v h
  | .cons v rest, h => by
    rw [valuesScript] at h ⊢
    have ih := length_script v h.1
    have ihrest := length_valuesScript rest h.2
    simp only [Script.bytes, List.length_append, calcSizeValues, valuesDrift]
    omega

theorem length_membersScript : (ms : Members) → (membersScript ms).FailFree →
    ((membersScript ms).bytes.length : Int) = calcSizeMembers ms + membersDrift ms
  | .nil, _ => rfl
  | .scalar v rest, h => by
    rw [membersScript] at h ⊢
    have ih := length_script v h.1
    have ihrest := length_membersScript rest h.2
    simp only [Script.bytes, List.length_append, calcSizeMembers, membersDrift]
    omega
  | .array a rest, h => by
    rw [membersScript] at h ⊢
    have ih := length_arrayDataScript a h.1
    have ihrest := length_membersScript rest h.2
    simp only [Script.bytes, List.length_append, calcSizeMembers, membersDrift]
    omega

end

/-- The size that is announced is the size that is encoded exactly when nothing drifts. -/
theorem announcedSize_iff (src : Value) (handle : H) (length : Nat) (before : List UInt8)
    (s' : EncodeState H)
    (h : encodeBinary fuel none src handle length before = .ok (StatusCode.good, s')) :
    before.length + calcSizeBinary src = s'.pos.before.length ↔ drift src = 0 := by
  obtain ⟨hfree, hbefore⟩ := encodeBinary_none_good h
  have hsize := length_membersScript src.members hfree
  rw [membersDrift_members] at hsize
  rw [hbefore, List.length_append, calcSizeBinary]
  omega

/-- A text, an ExpandedNodeId, an array of strings and a Variant with a number. -/
def mixedMembers : Value :=
  .structure (.scalar (.localizedText ⟨.null, .mem [104, 105]⟩)
    (.scalar (.expandedNodeId ⟨⟨1, .numeric 300⟩, .mem [117], 0⟩)
      (.array (.elements (.cons (.string (.mem [97])) (.one (.string .null))))
        (.scalar (.variant (.scalar .uint32 (.uint32 5))) .nil))))

theorem announcedSize_iff_mixedMembers :
    ([] : List UInt8).length + calcSizeBinary mixedMembers = 34 ↔ drift mixedMembers = 0 :=
  announcedSize_iff mixedMembers () 64 []
    ⟨0, some 64, ⟨0, [2, 2, 0, 0, 0, 104, 105, 0x81, 1, 0x2C, 1, 1, 0, 0, 0, 117,
      2, 0, 0, 0, 1, 0, 0, 0, 97, 0xFF, 0xFF, 0xFF, 0xFF, 7, 5, 0, 0, 0]⟩, ()⟩
    (show encodeBinary 8 none _ _ _ _ = _ from by decide +kernel)
/-- An ExpandedNodeId with a non-null, empty namespace URI: two bytes are announced, six encoded. -/
theorem emptyUri_announced :
    ∃ s', encodeBinary 1 none (.expandedNodeId ⟨⟨0, .numeric 7⟩, .mem [], 0⟩) () 16 [] =
        .ok (StatusCode.good, s') ∧
      s'.pos.before = [0x80, 7, 0xFF, 0xFF, 0xFF, 0xFF] ∧
      ([] : List UInt8).length + calcSizeBinary (.expandedNodeId ⟨⟨0, .numeric 7⟩, .mem [], 0⟩) ≠
        s'.pos.before.length :=
  ⟨⟨0, some 16, ⟨0, [0x80, 7, 0xFF, 0xFF, 0xFF, 0xFF]⟩, ()⟩, rfl, rfl, by decide⟩

end FactoryThing.Encoding
