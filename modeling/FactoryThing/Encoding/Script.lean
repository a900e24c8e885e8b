import FactoryThing.Encoding.Encode

/-!
# What the encoder does with the buffer

All that an encoding function does with the buffer is to write primitives, copy memory, join or
check status codes and try a part again in the next buffer. A `Script` is that behaviour alone;
`run` performs it. Every encoding function is the run of a script that depends on the value only
(`run_script`), so what holds of every script holds of the encoder.
-/

namespace FactoryThing.Encoding

/-- The buffer operations of an encoding function. -/
inductive Script where
  | done
  /-- a primitive -/
  | write (bytes : List UInt8)
  /-- the memory of overlayable elements -/
  | copy (elementMemSize : Nat) (mem : List UInt8)
  /-- an early return with an error -/
  | fail (status : StatusCode) (bad : status ≠ StatusCode.good)
  /-- an early return with an error after some work was done -/
  | failAfter (s : Script) (status : StatusCode) (bad : status ≠ StatusCode.good)
  /-- `retval = a; retval |= b` -/
  | both (a b : Script)
  /-- `retval = a; if(retval == GOOD) retval = b` -/
  | andThen (a b : Script)
  /-- one element, tried again in the next buffer -/
  | retry (s : Script)

namespace Script

variable {H : Type} (fuel : Nat) (callback : Option (ExchangeEncodeBuffer H))

/-- The encoder that a script stands for. -/
def run : Script → EncodeM H StatusCode
  | done => return StatusCode.good
  | write bytes => encodePrimitive bytes
  | copy elementMemSize mem => arrayEncodeBinaryOverlayable callback elementMemSize fuel mem
  | fail status _ => return status
  | failAfter s status _ => do
    let _ ← s.run
    return status
  | both a b => orStatus a.run b.run
  | andThen a b => do
    let retval ← a.run
    if retval = StatusCode.good then b.run else return retval
  | retry s => encodeWithExchange callback s.run fuel

/-- What a script writes when nothing goes wrong. -/
def bytes : Script → List UInt8
  | done => []
  | write bs => bs
  | copy _ mem => mem
  | fail _ _ => []
  | failAfter s _ _ => s.bytes
  | both a b => a.bytes ++ b.bytes
  | andThen a b => a.bytes ++ b.bytes
  | retry s => s.bytes

/-- No part returns an error of its own. -/
def FailFree : Script → Prop
  | done => True
  | write _ => True
  | copy _ _ => True
  | fail _ _ => False
  | failAfter _ _ _ => False
  | both a b => a.FailFree ∧ b.FailFree
  | andThen a b => a.FailFree ∧ b.FailFree
  | retry s => s.FailFree

end Script

open Script

/-! ## The script of every encoding function -/

def byteScript (src : UInt8) : Script := write [src]
def uint16Script (src : UInt16) : Script := write (LittleEndian.toBytes 2 src.toNat)
def uint32Script (src : UInt32) : Script := write (LittleEndian.toBytes 4 src.toNat)
def uint64Script (src : UInt64) : Script := write (LittleEndian.toBytes 8 src.toNat)

@[simp] theorem length_byteScript (v : UInt8) : (byteScript v).bytes.length = 1 := rfl

@[simp] theorem length_uint16Script (v : UInt16) : (uint16Script v).bytes.length = 2 := by
  simp [uint16Script, bytes]

@[simp] theorem length_uint32Script (v : UInt32) : (uint32Script v).bytes.length = 4 := by
  simp [uint32Script, bytes]

@[simp] theorem length_uint64Script (v : UInt64) : (uint64Script v).bytes.length = 8 := by
  simp [uint64Script, bytes]

/-- An array: its length, then its elements. -/
def arrayScript (length : Nat) (content : Script) : Script :=
  if length > int32Max then fail StatusCode.badInternalError (by decide)
  else andThen (uint32Script (UInt32.ofNat length)) content

/-- `String_encodeBinary`. -/
def stringScript (src : UaString) : Script :=
  if src.length > 0 then arrayScript src.length (copy 1 src.items)
  else uint32Script (if src = .sentinel then 0 else 0xFFFFFFFF)

/-- `Guid_encodeBinary`. -/
def guidScript (src : Guid) : Script :=
  both (both (both (uint32Script src.data1) (uint16Script src.data2)) (uint16Script src.data3))
    (write src.data4.toList)

/-- `NodeId_encodeBinaryWithEncodingMask`. -/
def nodeIdScript (src : NodeId) (encoding : UInt8) : Script :=
  match src.identifier with
  | .numeric n =>
    if n > 65535 ∨ src.namespaceIndex > 255 then
      both (both (byteScript (encoding ||| 2)) (uint16Script src.namespaceIndex)) (uint32Script n)
    else if n > 255 ∨ src.namespaceIndex > 0 then
      both (both (byteScript (encoding ||| 1)) (byteScript src.namespaceIndex.toUInt8))
        (uint16Script n.toUInt16)
    else
      both (byteScript (encoding ||| 0)) (byteScript n.toUInt8)
  | .string s =>
    both (both (byteScript (encoding ||| 3)) (uint16Script src.namespaceIndex)) (stringScript s)
  | .guid g =>
    both (both (byteScript (encoding ||| 4)) (uint16Script src.namespaceIndex)) (guidScript g)
  | .byteString s =>
    both (both (byteScript (encoding ||| 5)) (uint16Script src.namespaceIndex)) (stringScript s)

def scriptIf (c : Bool) (s : Script) : Script := if c then s else done

/-- A part behind a `hasX` bit. -/
def fieldScript {α : Type} (field : Option α) (s : α → Script) : Script :=
  match field with
  | some x => s x
  | none => done

/-- `ExpandedNodeId_encodeBinary`. -/
def expandedNodeIdScript (src : ExpandedNodeId) : Script :=
  both (both (nodeIdScript src.nodeId ((if isRegular src.namespaceUri then 0x80 else 0) |||
      (if src.serverIndex > 0 then 0x40 else 0)))
    (scriptIf (isRegular src.namespaceUri) (stringScript src.namespaceUri)))
    (scriptIf (src.serverIndex > 0) (uint32Script src.serverIndex))

/-- `LocalizedText_encodeBinary`. -/
def localizedTextScript (src : LocalizedText) : Script :=
  both (both (byteScript ((if hasData src.locale then 0x01 else 0) |||
      (if hasData src.text then 0x02 else 0)))
    (scriptIf (hasData src.locale) (stringScript src.locale)))
    (scriptIf (hasData src.text) (stringScript src.text))

/-- `ExtensionObject_encodeBinary` of encoded content. -/
def encodedObjectScript (typeId : NodeId) (body : EncodedBody) : Script :=
  match body with
  | .noBody => both (nodeIdScript typeId 0) (byteScript 0)
  | .byteString s => both (both (nodeIdScript typeId 0) (byteScript 1)) (stringScript s)
  | .xml s => both (both (nodeIdScript typeId 0) (byteScript 2)) (stringScript s)

/-- `DiagnosticInfo_encodeBinary`. -/
def diagnosticInfoScript : DiagnosticInfo → Script
  | .mk symbolicId namespaceUri localizedText locale additionalInfo innerStatusCode inner =>
    both (both (both (both (both (both (both
      (byteScript (maskBit symbolicId 0x01 ||| maskBit namespaceUri 0x02 |||
        maskBit localizedText 0x04 ||| maskBit locale 0x08 ||| maskBit additionalInfo 0x10 |||
        maskBit inner 0x20))
      (fieldScript symbolicId uint32Script))
      (fieldScript namespaceUri uint32Script))
      (fieldScript localizedText uint32Script))
      (fieldScript locale uint32Script))
      (fieldScript additionalInfo stringScript))
      (fieldScript innerStatusCode uint32Script))
      (match inner with
        | some d => diagnosticInfoScript d
        | none => done)

/-- The array dimensions of a Variant. -/
def dimensionsScript (dims : List UInt32) : Script :=
  if dims.length = 0 then done
  else arrayScript dims.length (copy 4 (dims.flatMap fun d => LittleEndian.toBytes 4 d.toNat))

/-- The header of a decoded ExtensionObject: its type id and the encoding byte. -/
def objectHeaderScript (type : TypeInfo) : Script :=
  both (nodeIdScript (encodingTypeId type) 0) (byteScript 1)

/-- `ExtensionObject_encodeBinary` of a decoded object. -/
def decodedObjectScript (type : TypeInfo) (len : Nat) (content : Script) : Script :=
  if isNumeric type.typeId = false then fail StatusCode.badEncodingError (by decide)
  else if len > int32Max then
    failAfter (objectHeaderScript type) StatusCode.badEncodingError (by decide)
  else both (objectHeaderScript type) (both (uint32Script (UInt32.ofNat len)) content)

mutual

/-- What the encoder of a value does. -/
def script : Value → Script
  | .byte v => byteScript v
  | .uint16 v => uint16Script v
  | .uint32 v => uint32Script v
  | .uint64 v => uint64Script v
  | .string s => stringScript s
  | .guid g => guidScript g
  | .nodeId n => nodeIdScript n 0
  | .expandedNodeId n => expandedNodeIdScript n
  | .localizedText t => localizedTextScript t
  | .encodedObject typeId body => encodedObjectScript typeId body
  | .decodedObject type data => decodedObjectScript type (calcSizeBinary data) (script data)
  | .unsetObject => fail StatusCode.badEncodingError (by decide)
  | .dataValue hasValue value f =>
    both (both (both (both (both (both
      (byteScript (dataValueMask hasValue f))
      (scriptIf hasValue (variantScript value)))
      (fieldScript f.status uint32Script))
      (fieldScript f.sourceTimestamp uint64Script))
      (fieldScript f.sourcePicoseconds uint16Script))
      (fieldScript f.serverTimestamp uint64Script))
      (fieldScript f.serverPicoseconds uint16Script)
  | .variant v => variantScript v
  | .diagnosticInfo d => diagnosticInfoScript d
  | .structure members => membersScript members

/-- `Variant_encodeBinary`. -/
def variantScript : Variant → Script
  | .empty => byteScript 0
  | .scalar type data =>
    both (byteScript (variantEncoding type.typeIndex false [])) (script data)
  | .array type data dims =>
    both (both (byteScript (variantEncoding type.typeIndex true dims)) (arrayDataScript data))
      (dimensionsScript dims)
  | .wrapped type data =>
    both (byteScript (variantEncoding extensionObjectIndex false []))
      (retry (decodedObjectScript type (calcSizeBinary data) (script data)))
  | .wrappedEmpty _ dims =>
    both (both (byteScript (variantEncoding extensionObjectIndex true dims)) (uint32Script 0))
      (dimensionsScript dims)
  | .wrappedArray type data dims =>
    both (both (byteScript (variantEncoding extensionObjectIndex true dims))
      (if data.length > int32Max then fail StatusCode.badEncodingError (by decide)
        else andThen (uint32Script (UInt32.ofNat data.length)) (wrappedScript type data)))
      (dimensionsScript dims)

/-- The elements of a Variant that are wrapped one by one. -/
def wrappedScript (type : TypeInfo) : Values → Script
  | .one v => retry (decodedObjectScript type (calcSizeBinary v) (script v))
  | .cons v rest =>
    andThen (retry (decodedObjectScript type (calcSizeBinary v) (script v)))
      (wrappedScript type rest)

/-- `Array_encodeBinary`. -/
def arrayDataScript : ArrayData → Script
  | .empty sentinel => uint32Script (if sentinel then 0 else 0xFFFFFFFF)
  | .overlay block => arrayScript block.length (copy block.memSize block.mem)
  | .elements data => arrayScript data.length (valuesScript data)

/-- The elements of an array. -/
def valuesScript : Values → Script
  | .one v => retry (script v)
  | .cons v rest => andThen (retry (script v)) (valuesScript rest)

/-- The loop over the members in `UA_encodeBinaryInternal`. -/
def membersScript : Members → Script
  | .nil => done
  | .scalar v rest => andThen (retry (script v)) (membersScript rest)
  | .array a rest => andThen (arrayDataScript a) (membersScript rest)

end

/-! ## The encoder runs the script -/

variable {H : Type} (fuel : Nat) (callback : Option (ExchangeEncodeBuffer H))

@[simp] theorem run_byteScript (v : UInt8) :
    (byteScript v).run fuel callback = byteEncodeBinary v := rfl

@[simp] theorem run_uint16Script (v : UInt16) :
    (uint16Script v).run fuel callback = uint16EncodeBinary v := rfl

@[simp] theorem run_uint32Script (v : UInt32) :
    (uint32Script v).run fuel callback = uint32EncodeBinary v := rfl

@[simp] theorem run_uint64Script (v : UInt64) :
    (uint64Script v).run fuel callback = uint64EncodeBinary v := rfl

@[simp] theorem run_scriptIf (c : Bool) (s : Script) :
    (scriptIf c s).run fuel callback = onlyIf c (s.run fuel callback) := by
  cases c with
  | false => rfl
  | true => rfl

theorem run_fieldScript {α : Type} (field : Option α) (s : α → Script)
    (encode : α → EncodeM H StatusCode) (h : ∀ x, (s x).run fuel callback = encode x) :
    (fieldScript field s).run fuel callback = encodeIf field encode := by
  cases field with
  | none => rfl
  | some x => exact h x

theorem run_arrayScript (length : Nat) (content : Script) :
    (arrayScript length content).run fuel callback = (do
      if length > int32Max then
        return StatusCode.badInternalError
      let retval ← uint32EncodeBinary (UInt32.ofNat length)
      if retval = StatusCode.good then
        content.run fuel callback
      else
        return retval) := by
  unfold arrayScript
  split
  · rfl
  · rfl

theorem run_stringScript (src : UaString) :
    (stringScript src).run fuel callback = stringEncodeBinary fuel callback src := by
  unfold stringScript stringEncodeBinary
  by_cases hpos : src.length > 0
  · rw [if_pos hpos, run_arrayScript]
    simp only [hpos, if_true, Nat.pos_iff_ne_zero.mp hpos, or_false, ne_eq, ite_not, run]
  · have hzero : src.length = 0 := by omega
    simp [hzero, int32Max]

theorem run_guidScript (src : Guid) :
    (guidScript src).run fuel callback = guidEncodeBinary src := rfl

theorem run_nodeIdScript (src : NodeId) (encoding : UInt8) :
    (nodeIdScript src encoding).run fuel callback =
      nodeIdEncodeBinaryWithEncodingMask fuel callback src encoding := by
  unfold nodeIdScript nodeIdEncodeBinaryWithEncodingMask
  cases src.identifier with
  | numeric n =>
    dsimp only
    split
    · rfl
    · split
      · rfl
      · rfl
  | string s => simp only [run, run_byteScript, run_uint16Script, run_stringScript]
  | guid g => simp only [run, run_byteScript, run_uint16Script, run_guidScript]
  | byteString s => simp only [run, run_byteScript, run_uint16Script, run_stringScript]

theorem run_expandedNodeIdScript (src : ExpandedNodeId) :
    (expandedNodeIdScript src).run fuel callback =
      expandedNodeIdEncodeBinary fuel callback src := by
  simp only [expandedNodeIdScript, expandedNodeIdEncodeBinary, run, run_scriptIf,
    run_nodeIdScript, run_stringScript, run_uint32Script]

theorem run_localizedTextScript (src : LocalizedText) :
    (localizedTextScript src).run fuel callback = localizedTextEncodeBinary fuel callback src := by
  simp only [localizedTextScript, localizedTextEncodeBinary, run, run_scriptIf, run_stringScript,
    run_byteScript]

theorem run_encodedObjectScript (typeId : NodeId) (body : EncodedBody) :
    (encodedObjectScript typeId body).run fuel callback =
      encodedObjectEncodeBinary fuel callback typeId body := by
  cases body with
  | noBody =>
    simp only [encodedObjectScript, encodedObjectEncodeBinary, nodeIdEncodeBinary, run,
      run_nodeIdScript, run_byteScript]
  | byteString s =>
    simp only [encodedObjectScript, encodedObjectEncodeBinary, nodeIdEncodeBinary, run,
      run_nodeIdScript, run_byteScript, run_stringScript]
  | xml s =>
    simp only [encodedObjectScript, encodedObjectEncodeBinary, nodeIdEncodeBinary, run,
      run_nodeIdScript, run_byteScript, run_stringScript]

theorem run_uint32Field (field : Option UInt32) :
    (fieldScript field uint32Script).run fuel callback = encodeIf field uint32EncodeBinary :=
  run_fieldScript fuel callback field _ _ fun _ => rfl

theorem run_uint64Field (field : Option UInt64) :
    (fieldScript field uint64Script).run fuel callback = encodeIf field uint64EncodeBinary :=
  run_fieldScript fuel callback field _ _ fun _ => rfl

theorem run_uint16Field (field : Option UInt16) :
    (fieldScript field uint16Script).run fuel callback = encodeIf field uint16EncodeBinary :=
  run_fieldScript fuel callback field _ _ fun _ => rfl

theorem run_stringField (field : Option UaString) :
    (fieldScript field stringScript).run fuel callback =
      encodeIf field (stringEncodeBinary fuel callback) :=
  run_fieldScript fuel callback field _ _ (run_stringScript fuel callback)

theorem run_diagnosticInfoScript : (d : DiagnosticInfo) →
    (diagnosticInfoScript d).run fuel callback = diagnosticInfoEncodeBinary fuel callback d
  | .mk symbolicId namespaceUri localizedText locale additionalInfo innerStatusCode inner => by
    cases inner with
    | none =>
      simp only [diagnosticInfoScript, diagnosticInfoEncodeBinary, run, run_byteScript,
        run_uint32Field, run_stringField]
    | some d =>
      have ih := run_diagnosticInfoScript d
      simp only [diagnosticInfoScript, diagnosticInfoEncodeBinary, run, run_byteScript,
        run_uint32Field, run_stringField, ih]

theorem run_dimensionsScript (dims : List UInt32) :
    (dimensionsScript dims).run fuel callback = dimensionsEncodeBinary fuel callback dims := by
  unfold dimensionsScript dimensionsEncodeBinary
  by_cases hzero : dims.length = 0
  · simp only [hzero, if_true, run]
  · simp only [hzero, if_false, run_arrayScript, run, ne_eq, ite_not]

theorem run_decodedObjectScript (type : TypeInfo) (len : Nat) (content : Script) :
    (decodedObjectScript type len content).run fuel callback =
      decodedObjectEncodeBinary fuel callback type len (content.run fuel callback) := by
  unfold decodedObjectScript decodedObjectEncodeBinary
  split
  · rfl
  · split
    · simp only [run, objectHeaderScript, run_nodeIdScript, run_byteScript, nodeIdEncodeBinary]
    · simp only [run, objectHeaderScript, run_nodeIdScript, run_byteScript, nodeIdEncodeBinary,
        run_uint32Script]
      rfl

mutual

theorem run_script : (v : Value) →
    (script v).run fuel callback = encodeBinaryJumpTable fuel callback v
  | .byte v => rfl
  | .uint16 v => rfl
  | .uint32 v => rfl
  | .uint64 v => rfl
  | .string s => run_stringScript fuel callback s
  | .guid g => rfl
  | .nodeId n => run_nodeIdScript fuel callback n 0
  | .expandedNodeId n => run_expandedNodeIdScript fuel callback n
  | .localizedText t => run_localizedTextScript fuel callback t
  | .encodedObject typeId body => run_encodedObjectScript fuel callback typeId body
  | .decodedObject type data => by
    rw [script, encodeBinaryJumpTable, run_decodedObjectScript, run_script data]
  | .unsetObject => rfl
  | .dataValue hasValue value f => by
    simp only [script, encodeBinaryJumpTable, run, run_byteScript, run_scriptIf, run_uint32Field,
      run_uint64Field, run_uint16Field, run_variantScript value]
  | .variant v => run_variantScript v
  | .diagnosticInfo d => run_diagnosticInfoScript fuel callback d
  | .structure members => run_membersScript members

theorem run_variantScript : (v : Variant) →
    (variantScript v).run fuel callback = variantEncodeBinary fuel callback v
  | .empty => rfl
  | .scalar type data => by
    simp only [variantScript, variantEncodeBinary, run, run_byteScript, run_script data]
  | .array type data dims => by
    simp only [variantScript, variantEncodeBinary, run, run_byteScript, run_dimensionsScript,
      run_arrayDataScript data]
  | .wrapped type data => by
    simp only [variantScript, variantEncodeBinary, run, run_byteScript, run_decodedObjectScript,
      run_script data]
  | .wrappedEmpty type dims => by
    simp only [variantScript, variantEncodeBinary, run, run_byteScript, run_uint32Script,
      run_dimensionsScript]
  | .wrappedArray type data dims => by
    simp only [variantScript, variantEncodeBinary]
    split
    · simp only [run, run_byteScript, run_dimensionsScript]
    · simp only [run, run_byteScript, run_dimensionsScript, run_uint32Script,
        run_wrappedScript type data]

theorem run_wrappedScript (type : TypeInfo) : (vs : Values) →
    (wrappedScript type vs).run fuel callback =
      variantEncodeBinaryWrapExtensionObject fuel callback type vs
  | .one v => by
    simp only [wrappedScript, variantEncodeBinaryWrapExtensionObject, run,
      run_decodedObjectScript, run_script v]
  | .cons v rest => by
    simp only [wrappedScript, variantEncodeBinaryWrapExtensionObject, run,
      run_decodedObjectScript, run_script v, run_wrappedScript type rest]

theorem run_arrayDataScript : (a : ArrayData) →
    (arrayDataScript a).run fuel callback = arrayEncodeBinary fuel callback a
  | .empty sentinel => rfl
  | .overlay block => by
    simp only [arrayDataScript, arrayEncodeBinary, run_arrayScript, run]
  | .elements data => by
    simp only [arrayDataScript, arrayEncodeBinary, run_arrayScript, run_valuesScript data]

theorem run_valuesScript : (vs : Values) →
    (valuesScript vs).run fuel callback = arrayEncodeBinaryComplex fuel callback vs
  | .one v => by
    simp only [valuesScript, arrayEncodeBinaryComplex, run, run_script v]
  | .cons v rest => by
    simp only [valuesScript, arrayEncodeBinaryComplex, run, run_script v, run_valuesScript rest]

theorem run_membersScript : (ms : Members) →
    (membersScript ms).run fuel callback = encodeBinaryInternal fuel callback ms
  | .nil => rfl
  | .scalar v rest => by
    simp only [membersScript, encodeBinaryInternal, run, run_script v, run_membersScript rest]
  | .array a rest => by
    simp only [membersScript, encodeBinaryInternal, run, run_arrayDataScript a,
      run_membersScript rest]

end

end FactoryThing.Encoding
