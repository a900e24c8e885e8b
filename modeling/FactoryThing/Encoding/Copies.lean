import FactoryThing.Encoding.AnnouncedSize
import FactoryThing.Encoding.Stored

/-!
# Copies encode alike

`UA_Array_copy` turns an ordinary pointer of an array of length zero into the sentinel, and the
encoder writes the length -1 for the first and 0 for the second. For a namespace URI the two are
even told apart by a flag of the encoding byte. So a copy is encoded as the original was exactly
when nothing that is encoded has length zero and an ordinary pointer.
-/

namespace FactoryThing.Encoding

open Script

variable (s : UaString)

/-- How the script of a copy differs from the script of the original: not at all under the condition
`c`, else by other and not by more bytes. -/
structure CopyScript (c : Prop) (sc sc' : Script) : Prop where
  same : c → sc' = sc
  length_le : sc.FailFree → sc'.FailFree → sc'.bytes.length ≤ sc.bytes.length
  tidy : sc.FailFree → sc'.FailFree → sc'.bytes = sc.bytes → c

namespace CopyScript

variable {c d : Prop} {a a' b b' : Script}

theorem refl (sc : Script) : CopyScript True sc sc :=
  ⟨fun _ => rfl, fun _ _ => Nat.le_refl _, fun _ _ _ => trivial⟩

theorem congr (h : CopyScript c a a') (hcd : c ↔ d) : CopyScript d a a' :=
  ⟨fun hd => h.same (hcd.mpr hd), h.length_le, fun hfree hfree' heq =>
    hcd.mp (h.tidy hfree hfree' heq)⟩

theorem tidy_append (ha : CopyScript c a a') (hb : CopyScript d b b')
    (hfree : a.FailFree ∧ b.FailFree) (hfree' : a'.FailFree ∧ b'.FailFree)
    (heq : a'.bytes ++ b'.bytes = a.bytes ++ b.bytes) : c ∧ d := by
  have hlea := ha.length_le hfree.1 hfree'.1
  have hleb := hb.length_le hfree.2 hfree'.2
  have hlen := congrArg List.length heq
  rw [List.length_append, List.length_append] at hlen
  obtain ⟨hsame, hsame'⟩ := List.append_inj heq (by omega)
  exact ⟨ha.tidy hfree.1 hfree'.1 hsame, hb.tidy hfree.2 hfree'.2 hsame'⟩

theorem length_append_le (ha : CopyScript c a a') (hb : CopyScript d b b')
    (hfree : a.FailFree ∧ b.FailFree) (hfree' : a'.FailFree ∧ b'.FailFree) :
    (a'.bytes ++ b'.bytes).length ≤ (a.bytes ++ b.bytes).length := by
  rw [List.length_append, List.length_append]
  exact Nat.add_le_add (ha.length_le hfree.1 hfree'.1) (hb.length_le hfree.2 hfree'.2)

theorem both (ha : CopyScript c a a') (hb : CopyScript d b b') :
    CopyScript (c ∧ d) (both a b) (both a' b') :=
  ⟨fun ⟨hc, hd⟩ => by rw [ha.same hc, hb.same hd], length_append_le ha hb, tidy_append ha hb⟩

theorem andThen (ha : CopyScript c a a') (hb : CopyScript d b b') :
    CopyScript (c ∧ d) (andThen a b) (andThen a' b') :=
  ⟨fun ⟨hc, hd⟩ => by rw [ha.same hc, hb.same hd], length_append_le ha hb, tidy_append ha hb⟩

theorem retry (ha : CopyScript c a a') : CopyScript c (retry a) (retry a') :=
  ⟨fun hc => by rw [ha.same hc], ha.length_le, ha.tidy⟩

theorem after (sc : Script) (hb : CopyScript d b b') :
    CopyScript d (Script.both sc b) (Script.both sc b') :=
  ((refl sc).both hb).congr (iff_of_eq (true_and _))

theorem before (ha : CopyScript c a a') (sc : Script) :
    CopyScript c (Script.both a sc) (Script.both a' sc) :=
  (ha.both (refl sc)).congr (iff_of_eq (and_true _))

theorem next (sc : Script) (hb : CopyScript d b b') :
    CopyScript d (Script.andThen sc b) (Script.andThen sc b') :=
  ((refl sc).andThen hb).congr (iff_of_eq (true_and _))

theorem scriptIf (x : Bool) (ha : CopyScript c a a') :
    CopyScript (x = true → c) (scriptIf x a) (scriptIf x a') := by
  cases x with
  | false => exact (refl _).congr ⟨fun _ => nofun, fun _ => trivial⟩
  | true => exact ha.congr ⟨fun hc _ => hc, fun hc => hc rfl⟩

theorem orFail (p : Prop) [Decidable p] {status : StatusCode} {bad : status ≠ StatusCode.good}
    (ha : CopyScript c a a') :
    CopyScript c (if p then fail status bad else a) (if p then fail status bad else a') := by
  split
  · exact ⟨fun _ => rfl, fun hfree => hfree.elim, fun hfree => hfree.elim⟩
  · exact ha

theorem arrayScript (length : Nat) (ha : CopyScript c a a') :
    CopyScript c (arrayScript length a) (arrayScript length a') :=
  orFail _ (next _ ha)

theorem decodedObject (type : TypeInfo) (len : Nat) (ha : CopyScript c a a') :
    CopyScript c (decodedObjectScript type len a) (decodedObjectScript type len a') := by
  apply orFail
  split
  · exact ⟨fun _ => rfl, fun hfree => hfree.elim, fun hfree => hfree.elim⟩
  · exact after _ (after _ ha)

end CopyScript

/-! ## Strings and identifiers -/

theorem stringCopy_of_ne {s : UaString} (h : s ≠ .mem []) : stringCopy s = s := by
  cases s with
  | null | sentinel => rfl
  | mem items =>
    cases items with
    | nil => exact absurd rfl h
    | cons b bs => rfl

theorem copyScript_string :
    CopyScript (s ≠ .mem []) (stringScript s) (stringScript (stringCopy s)) := by
  by_cases h : s = .mem []
  · subst h
    -- -1 is written for the original, 0 for the copy
    exact ⟨fun hne => absurd rfl hne, fun _ _ => Nat.le_refl 4, fun _ _ heq => by cases heq⟩
  · rw [stringCopy_of_ne h]
    exact (CopyScript.refl _).congr ⟨fun _ => h, fun _ => trivial⟩

theorem copyScript_nodeId (n : NodeId) (encoding : UInt8) :
    CopyScript (TidyNodeId n) (nodeIdScript n encoding) (nodeIdScript (nodeIdCopy n) encoding) := by
  obtain ⟨ns, ident⟩ := n
  cases ident with
  | numeric n => exact CopyScript.refl _
  | string s => exact CopyScript.after _ (copyScript_string s)
  | guid g => exact CopyScript.refl _
  | byteString s => exact CopyScript.after _ (copyScript_string s)

theorem hasData_stringCopy : hasData (stringCopy s) = hasData s := by
  cases s with
  | null | sentinel => rfl
  | mem items =>
    cases items with
    | nil => rfl
    | cons b bs => rfl

theorem copyScript_localizedText (t : LocalizedText) :
    CopyScript (t.locale ≠ .mem [] ∧ t.text ≠ .mem []) (localizedTextScript t)
      (localizedTextScript (localizedTextCopy t)) := by
  have hpart : ∀ s : UaString, CopyScript (s ≠ .mem []) (scriptIf (hasData s) (stringScript s))
      (scriptIf (hasData s) (stringScript (stringCopy s))) := by
    intro s
    apply ((copyScript_string s).scriptIf (hasData s)).congr
    constructor
    · rintro h rfl
      exact h rfl rfl
    · exact fun h _ => h
  unfold localizedTextScript localizedTextCopy
  rw [hasData_stringCopy, hasData_stringCopy]
  exact (CopyScript.after _ (hpart t.locale)).both (hpart t.text)

theorem copyScript_encodedObject (typeId : NodeId) (body : EncodedBody) :
    CopyScript (TidyNodeId typeId ∧ TidyBody body) (encodedObjectScript typeId body)
      (encodedObjectScript (nodeIdCopy typeId) (bodyCopy body)) := by
  have hid := copyScript_nodeId typeId 0
  cases body with
  | noBody => exact (hid.before _).congr (iff_of_eq (and_true _)).symm
  | byteString s => exact (hid.before _).both (copyScript_string s)
  | xml s => exact (hid.before _).both (copyScript_string s)

theorem length_nodeIdScript_eq {n n' : NodeId} {encoding encoding' : UInt8}
    (hfree : (nodeIdScript n encoding).FailFree) (hfree' : (nodeIdScript n' encoding').FailFree)
    (h : nodeIdCalcSizeBinary n' = nodeIdCalcSizeBinary n) :
    (nodeIdScript n' encoding').bytes.length = (nodeIdScript n encoding).bytes.length := by
  rw [length_nodeIdScript hfree, length_nodeIdScript hfree', h]

theorem length_stringCopy : (stringCopy s).length = s.length := by
  cases s with
  | null | sentinel => rfl
  | mem items =>
    cases items with
    | nil => rfl
    | cons b bs => rfl

theorem stringCalcSize_copy :
    stringCalcSizeBinary (stringCopy s) = stringCalcSizeBinary s := by
  unfold stringCalcSizeBinary
  rw [length_stringCopy]

theorem nodeIdCalcSize_copy (n : NodeId) :
    nodeIdCalcSizeBinary (nodeIdCopy n) = nodeIdCalcSizeBinary n := by
  obtain ⟨ns, ident⟩ := n
  cases ident with
  | numeric n => rfl
  | string s =>
    show 1 + (2 + stringCalcSizeBinary (stringCopy s)) = 1 + (2 + stringCalcSizeBinary s)
    rw [stringCalcSize_copy]
  | guid g => rfl
  | byteString s =>
    show 1 + (2 + stringCalcSizeBinary (stringCopy s)) = 1 + (2 + stringCalcSizeBinary s)
    rw [stringCalcSize_copy]

theorem length_bytes_expandedNodeId (nodeId : NodeId) (uri : UaString) (serverIndex : UInt32) :
    (expandedNodeIdScript ⟨nodeId, uri, serverIndex⟩).bytes.length =
      (nodeIdScript nodeId ((if isRegular uri then 0x80 else 0) |||
        (if serverIndex > 0 then 0x40 else 0))).bytes.length +
      (scriptIf (isRegular uri) (stringScript uri)).bytes.length +
      (scriptIf (serverIndex > 0) (uint32Script serverIndex)).bytes.length := by
  simp only [expandedNodeIdScript, Script.bytes, List.length_append]

theorem copyScript_expandedNodeId (n : ExpandedNodeId) :
    CopyScript (TidyNodeId n.nodeId ∧ n.namespaceUri ≠ .mem []) (expandedNodeIdScript n)
      (expandedNodeIdScript (expandedNodeIdCopy n)) := by
  obtain ⟨nodeId, uri, serverIndex⟩ := n
  by_cases h : uri = .mem []
  · subst h
    have hless : (expandedNodeIdScript ⟨nodeId, .mem [], serverIndex⟩).FailFree →
        (expandedNodeIdScript (expandedNodeIdCopy ⟨nodeId, .mem [], serverIndex⟩)).FailFree →
        (expandedNodeIdScript (expandedNodeIdCopy ⟨nodeId, .mem [], serverIndex⟩)).bytes.length <
          (expandedNodeIdScript ⟨nodeId, .mem [], serverIndex⟩).bytes.length := by
      intro hfree hfree'
      have hid := length_nodeIdScript_eq hfree.1.1 hfree'.1.1 (nodeIdCalcSize_copy nodeId)
      rw [length_bytes_expandedNodeId, length_bytes_expandedNodeId]
      apply Nat.add_lt_add_right
      exact lt_of_eq_of_lt hid (Nat.lt_add_of_pos_right (Nat.succ_pos 3))
    refine ⟨fun hne => absurd rfl hne.2, fun hfree hfree' => Nat.le_of_lt (hless hfree hfree'), ?_⟩
    intro hfree hfree' heq
    have hlt := hless hfree hfree'
    rw [heq] at hlt
    exact absurd hlt (Nat.lt_irrefl _)
  · unfold expandedNodeIdScript expandedNodeIdCopy
    rw [stringCopy_of_ne h]
    apply (((copyScript_nodeId nodeId _).before _).before _).congr
    exact ⟨fun hid => ⟨hid, h⟩, fun hid => hid.1⟩

theorem copyScript_stringField (field : Option UaString) :
    CopyScript (field ≠ some (.mem [])) (fieldScript field stringScript)
      (fieldScript (field.map stringCopy) stringScript) := by
  cases field with
  | none => exact (CopyScript.refl _).congr ⟨fun _ => nofun, fun _ => trivial⟩
  | some s =>
    apply (copyScript_string s).congr
    constructor
    · rintro h ⟨⟩
      exact h rfl
    · rintro h rfl
      exact h rfl

theorem copyScript_diagnosticInfo : (d : DiagnosticInfo) →
    CopyScript (TidyInfo d) (diagnosticInfoScript d) (diagnosticInfoScript (diagnosticInfoCopy d))
  | .mk symbolicId namespaceUri localizedText locale additionalInfo innerStatusCode inner => by
    have hmask : maskBit (additionalInfo.map stringCopy) 0x10 = maskBit additionalInfo 0x10 := by
      unfold maskBit
      rw [Option.isSome_map]
    cases inner with
    | none =>
      rw [diagnosticInfoScript, diagnosticInfoCopy, diagnosticInfoScript, hmask, TidyInfo]
      exact ((CopyScript.after _ (copyScript_stringField additionalInfo)).before _).both
        (CopyScript.refl _)
    | some d =>
      rw [diagnosticInfoScript, diagnosticInfoCopy, diagnosticInfoScript, hmask, TidyInfo]
      exact ((CopyScript.after _ (copyScript_stringField additionalInfo)).before _).both
        (copyScript_diagnosticInfo d)

theorem copyScript_leaf (l : Leaf) :
    CopyScript l.Tidy (script l.value) (script l.copy.value) := by
  cases l with
  | byte v => exact CopyScript.refl _
  | uint16 v => exact CopyScript.refl _
  | uint32 v => exact CopyScript.refl _
  | uint64 v => exact CopyScript.refl _
  | string s => exact copyScript_string s
  | guid g => exact CopyScript.refl _
  | nodeId n => exact copyScript_nodeId n 0
  | expandedNodeId n => exact copyScript_expandedNodeId n
  | localizedText t => exact copyScript_localizedText t
  | encodedObject typeId body => exact copyScript_encodedObject typeId body
  | diagnosticInfo d => exact copyScript_diagnosticInfo d

/-! ## The announced size

The size in front of a wrapped structure depends on lengths and on `NULL` pointers, which a copy
keeps. -/

theorem stringCopy_ne_null_iff : stringCopy s ≠ .null ↔ s ≠ .null := by
  have h := hasData_stringCopy s
  unfold hasData at h
  rw [decide_eq_decide] at h
  exact h

theorem infoCalcSize_copy : (d : DiagnosticInfo) →
    diagnosticInfoCalcSizeBinary (diagnosticInfoCopy d) = diagnosticInfoCalcSizeBinary d
  | .mk symbolicId namespaceUri localizedText locale additionalInfo innerStatusCode inner => by
    have hinfo : (additionalInfo.map stringCopy).elim 0 stringCalcSizeBinary =
        additionalInfo.elim 0 stringCalcSizeBinary := by
      cases additionalInfo with
      | none => rfl
      | some s => exact stringCalcSize_copy s
    cases inner with
    | none => rw [diagnosticInfoCopy, diagnosticInfoCalcSizeBinary, diagnosticInfoCalcSizeBinary,
        hinfo]
    | some d =>
      rw [diagnosticInfoCopy, diagnosticInfoCalcSizeBinary, diagnosticInfoCalcSizeBinary, hinfo,
        infoCalcSize_copy d]

theorem leafCalcSize_copy (l : Leaf) :
    calcSizeBinaryJumpTable l.copy.value = calcSizeBinaryJumpTable l.value := by
  cases l with
  | byte v => rfl
  | uint16 v => rfl
  | uint32 v => rfl
  | uint64 v => rfl
  | string s => exact stringCalcSize_copy s
  | guid g => rfl
  | nodeId n => exact nodeIdCalcSize_copy n
  | expandedNodeId n =>
    show expandedNodeIdCalcSizeBinary (expandedNodeIdCopy n) = expandedNodeIdCalcSizeBinary n
    unfold expandedNodeIdCalcSizeBinary expandedNodeIdCopy
    rw [nodeIdCalcSize_copy, length_stringCopy, stringCalcSize_copy]
  | localizedText t =>
    show localizedTextCalcSizeBinary (localizedTextCopy t) = localizedTextCalcSizeBinary t
    unfold localizedTextCalcSizeBinary localizedTextCopy
    simp only [stringCopy_ne_null_iff, stringCalcSize_copy]
  | encodedObject typeId body =>
    show encodedObjectCalcSizeBinary (nodeIdCopy typeId) (bodyCopy body) =
      encodedObjectCalcSizeBinary typeId body
    unfold encodedObjectCalcSizeBinary
    rw [nodeIdCalcSize_copy]
    cases body with
    | noBody => rfl
    | byteString s => exact congrArg _ (stringCalcSize_copy s)
    | xml s => exact congrArg _ (stringCalcSize_copy s)
  | diagnosticInfo d => exact infoCalcSize_copy d

theorem length_valuesCopy : (vs vs' : StoredValues) → vs.copy = some vs' →
    vs'.value.length = vs.value.length
  | .one v, vs', h => by
    obtain ⟨v', -, rfl⟩ := Option.map_eq_some_iff.mp h
    rfl
  | .cons v rest, vs', h => by
    obtain ⟨v', -, h⟩ := Option.bind_eq_some_iff.mp h
    obtain ⟨rest', hrest, rfl⟩ := Option.map_eq_some_iff.mp h
    exact congrArg (· + 1) (length_valuesCopy rest rest' hrest)

mutual

theorem calcSize_copy : (v v' : Stored) → v.copy = some v' →
    calcSizeBinaryJumpTable v'.value = calcSizeBinaryJumpTable v.value
  | .leaf l, v', h => by
    cases h
    exact leafCalcSize_copy l
  | .decodedObject type data, v', h => by
    obtain ⟨data', hdata, rfl⟩ := Option.map_eq_some_iff.mp h
    simp only [Stored.value, calcSizeBinaryJumpTable, calcSize_copy data data' hdata]
  | .unsetObject, v', h => by cases h
  | .dataValue hasValue value fields, v', h => by
    obtain ⟨value', hvalue, rfl⟩ := Option.map_eq_some_iff.mp h
    simp only [Stored.value, calcSizeBinaryJumpTable, variantCalcSize_copy value value' hvalue]
  | .variant v, v', h => by
    obtain ⟨v1, hv, rfl⟩ := Option.map_eq_some_iff.mp h
    exact variantCalcSize_copy v v1 hv
  | .structure members, v', h => by
    obtain ⟨members', hmembers, rfl⟩ := Option.map_eq_some_iff.mp h
    exact membersCalcSize_copy members members' hmembers

theorem variantCalcSize_copy : (v v' : StoredVariant) → v.copy = some v' →
    variantCalcSizeBinary v'.value = variantCalcSizeBinary v.value
  | .empty, v', h => by
    cases h
    rfl
  | .scalar type data, v', h => by
    obtain ⟨data', hdata, rfl⟩ := Option.map_eq_some_iff.mp h
    simp only [StoredVariant.value, variantCalcSizeBinary, calcSize_copy data data' hdata]
  | .emptyArray type sentinel dims, v', h => by
    cases h
    rfl
  | .overlayArray type block dims, v', h => by
    cases h
    rfl
  | .array type data dims, v', h => by
    obtain ⟨data', hdata, rfl⟩ := Option.map_eq_some_iff.mp h
    simp only [StoredVariant.value, variantCalcSizeBinary, arrayCalcSizeBinary,
      valuesCalcSize_copy data data' hdata]
  | .wrapped type data, v', h => by
    obtain ⟨data', hdata, rfl⟩ := Option.map_eq_some_iff.mp h
    simp only [StoredVariant.value, variantCalcSizeBinary, calcSize_copy data data' hdata]
  | .wrappedEmpty type dims, v', h => by
    cases h
    rfl
  | .wrappedArray type data dims, v', h => by
    obtain ⟨data', hdata, rfl⟩ := Option.map_eq_some_iff.mp h
    simp only [StoredVariant.value, variantCalcSizeBinary, valuesCalcSize_copy data data' hdata,
      length_valuesCopy data data' hdata]

theorem membersCalcSize_copy : (ms ms' : StoredMembers) → ms.copy = some ms' →
    calcSizeMembers ms'.value = calcSizeMembers ms.value
  | .nil, ms', h => by
    cases h
    rfl
  | .scalar v rest, ms', h => by
    obtain ⟨v', hv, h⟩ := Option.bind_eq_some_iff.mp h
    obtain ⟨rest', hrest, rfl⟩ := Option.map_eq_some_iff.mp h
    simp only [StoredMembers.value, calcSizeMembers, calcSize_copy v v' hv,
      membersCalcSize_copy rest rest' hrest]
  | .emptyArray pointer rest, ms', h => by
    obtain ⟨rest', hrest, rfl⟩ := Option.map_eq_some_iff.mp h
    simp only [StoredMembers.value, calcSizeMembers, arrayCalcSizeBinary,
      membersCalcSize_copy rest rest' hrest]
  | .overlayArray block rest, ms', h => by
    obtain ⟨rest', hrest, rfl⟩ := Option.map_eq_some_iff.mp h
    simp only [StoredMembers.value, calcSizeMembers, membersCalcSize_copy rest rest' hrest]
  | .array data rest, ms', h => by
    obtain ⟨data', hdata, h⟩ := Option.bind_eq_some_iff.mp h
    obtain ⟨rest', hrest, rfl⟩ := Option.map_eq_some_iff.mp h
    simp only [StoredMembers.value, calcSizeMembers, arrayCalcSizeBinary,
      valuesCalcSize_copy data data' hdata, membersCalcSize_copy rest rest' hrest]

theorem valuesCalcSize_copy : (vs vs' : StoredValues) → vs.copy = some vs' →
    calcSizeValues vs'.value = calcSizeValues vs.value
  | .one v, vs', h => by
    obtain ⟨v', hv, rfl⟩ := Option.map_eq_some_iff.mp h
    exact calcSize_copy v v' hv
  | .cons v rest, vs', h => by
    obtain ⟨v', hv, h⟩ := Option.bind_eq_some_iff.mp h
    obtain ⟨rest', hrest, rfl⟩ := Option.map_eq_some_iff.mp h
    simp only [StoredValues.value, calcSizeValues, calcSize_copy v v' hv,
      valuesCalcSize_copy rest rest' hrest]

end

theorem copyScript_emptyArray (pointer : EmptyPointer) :
    CopyScript (pointer ≠ .ordinary) (arrayDataScript (.empty (pointer = .sentinel)))
      (arrayDataScript (.empty (pointer.copy = .sentinel))) := by
  cases pointer with
  | null | sentinel => exact (CopyScript.refl _).congr ⟨fun _ => nofun, fun _ => trivial⟩
  | ordinary =>
    exact ⟨fun hne => absurd rfl hne, fun _ _ => Nat.le_refl 4, fun _ _ heq => by cases heq⟩

mutual

theorem copyScript_stored : (v v' : Stored) → v.copy = some v' →
    CopyScript v.Tidy (script v.value) (script v'.value)
  | .leaf l, v', h => by
    cases h
    exact copyScript_leaf l
  | .decodedObject type data, v', h => by
    obtain ⟨data', hdata, rfl⟩ := Option.map_eq_some_iff.mp h
    exact copyScript_decoded type data data' hdata
  | .unsetObject, v', h => by cases h
  | .dataValue hasValue value fields, v', h => by
    obtain ⟨value', hvalue, rfl⟩ := Option.map_eq_some_iff.mp h
    have hpart := (copyScript_variant value value' hvalue).scriptIf hasValue
    exact (((((hpart.after _).before _).before _).before _).before _).before _
  | .variant v, v', h => by
    obtain ⟨v1, hv, rfl⟩ := Option.map_eq_some_iff.mp h
    exact copyScript_variant v v1 hv
  | .structure members, v', h => by
    obtain ⟨members', hmembers, rfl⟩ := Option.map_eq_some_iff.mp h
    exact copyScript_members members members' hmembers

theorem copyScript_decoded (type : TypeInfo) : (data data' : Stored) → data.copy = some data' →
    CopyScript data.Tidy
      (decodedObjectScript type (calcSizeBinary data.value) (script data.value))
      (decodedObjectScript type (calcSizeBinary data'.value) (script data'.value))
  | data, data', h => by
    have hlen : calcSizeBinary data'.value = calcSizeBinary data.value := by
      rw [calcSizeBinary_eq, calcSizeBinary_eq, calcSize_copy data data' h]
    rw [hlen]
    exact (copyScript_stored data data' h).decodedObject type _

theorem copyScript_variant : (v v' : StoredVariant) → v.copy = some v' →
    CopyScript v.Tidy (variantScript v.value) (variantScript v'.value)
  | .empty, v', h => by
    cases h
    exact CopyScript.refl _
  | .scalar type data, v', h => by
    obtain ⟨data', hdata, rfl⟩ := Option.map_eq_some_iff.mp h
    exact (copyScript_stored data data' hdata).after _
  | .emptyArray type sentinel dims, v', h => by
    cases h
    exact CopyScript.refl _
  | .overlayArray type block dims, v', h => by
    cases h
    exact CopyScript.refl _
  | .array type data dims, v', h => by
    obtain ⟨data', hdata, rfl⟩ := Option.map_eq_some_iff.mp h
    exact ((copyScript_array data data' hdata).after _).before _
  | .wrapped type data, v', h => by
    obtain ⟨data', hdata, rfl⟩ := Option.map_eq_some_iff.mp h
    exact (copyScript_decoded type data data' hdata).retry.after _
  | .wrappedEmpty type dims, v', h => by
    cases h
    exact CopyScript.refl _
  | .wrappedArray type data dims, v', h => by
    obtain ⟨data', hdata, rfl⟩ := Option.map_eq_some_iff.mp h
    rw [StoredVariant.value, variantScript, StoredVariant.value, variantScript,
      length_valuesCopy data data' hdata]
    apply (CopyScript.after _ _).before
    exact ((copyScript_wrapped type data data' hdata).next _).orFail _

theorem copyScript_array : (vs vs' : StoredValues) → vs.copy = some vs' →
    CopyScript vs.Tidy (arrayDataScript (.elements vs.value))
      (arrayDataScript (.elements vs'.value))
  | vs, vs', h => by
    rw [arrayDataScript, arrayDataScript, length_valuesCopy vs vs' h]
    exact (copyScript_values vs vs' h).arrayScript _

theorem copyScript_wrapped (type : TypeInfo) : (vs vs' : StoredValues) → vs.copy = some vs' →
    CopyScript vs.Tidy (wrappedScript type vs.value) (wrappedScript type vs'.value)
  | .one v, vs', h => by
    obtain ⟨v', hv, rfl⟩ := Option.map_eq_some_iff.mp h
    exact (copyScript_decoded type v v' hv).retry
  | .cons v rest, vs', h => by
    obtain ⟨v', hv, h⟩ := Option.bind_eq_some_iff.mp h
    obtain ⟨rest', hrest, rfl⟩ := Option.map_eq_some_iff.mp h
    exact (copyScript_decoded type v v' hv).retry.andThen (copyScript_wrapped type rest rest' hrest)

theorem copyScript_members : (ms ms' : StoredMembers) → ms.copy = some ms' →
    CopyScript ms.Tidy (membersScript ms.value) (membersScript ms'.value)
  | .nil, ms', h => by
    cases h
    exact CopyScript.refl _
  | .scalar v rest, ms', h => by
    obtain ⟨v', hv, h⟩ := Option.bind_eq_some_iff.mp h
    obtain ⟨rest', hrest, rfl⟩ := Option.map_eq_some_iff.mp h
    exact (copyScript_stored v v' hv).retry.andThen (copyScript_members rest rest' hrest)
  | .emptyArray pointer rest, ms', h => by
    obtain ⟨rest', hrest, rfl⟩ := Option.map_eq_some_iff.mp h
    exact (copyScript_emptyArray pointer).andThen (copyScript_members rest rest' hrest)
  | .overlayArray block rest, ms', h => by
    obtain ⟨rest', hrest, rfl⟩ := Option.map_eq_some_iff.mp h
    exact (copyScript_members rest rest' hrest).next _
  | .array data rest, ms', h => by
    obtain ⟨data', hdata, h⟩ := Option.bind_eq_some_iff.mp h
    obtain ⟨rest', hrest, rfl⟩ := Option.map_eq_some_iff.mp h
    exact (copyScript_array data data' hdata).andThen (copyScript_members rest rest' hrest)

theorem copyScript_values : (vs vs' : StoredValues) → vs.copy = some vs' →
    CopyScript vs.Tidy (valuesScript vs.value) (valuesScript vs'.value)
  | .one v, vs', h => by
    obtain ⟨v', hv, rfl⟩ := Option.map_eq_some_iff.mp h
    exact (copyScript_stored v v' hv).retry
  | .cons v rest, vs', h => by
    obtain ⟨v', hv, h⟩ := Option.bind_eq_some_iff.mp h
    obtain ⟨rest', hrest, rfl⟩ := Option.map_eq_some_iff.mp h
    exact (copyScript_stored v v' hv).retry.andThen (copyScript_values rest rest' hrest)

end

theorem copyScript_byteArray :
    CopyScript (s ≠ .mem []) (arrayDataScript (byteArray s))
      (arrayDataScript (byteArray (stringCopy s))) := by
  rw [arrayDataScript_byteArray, arrayDataScript_byteArray]
  exact copyScript_string s

theorem copyScript_only {c : Prop} {v v' : Value} (h : CopyScript c (script v) (script v')) :
    CopyScript c (membersScript (.scalar v .nil)) (membersScript (.scalar v' .nil)) :=
  (h.retry.andThen (CopyScript.refl _)).congr (iff_of_eq (and_true _))

theorem copyScript_copy (v v' : Stored) (h : v.copy = some v') :
    CopyScript v.Tidy (membersScript v.value.members) (membersScript v'.value.members) := by
  have hscript := copyScript_stored v v' h
  cases v with
  | leaf l =>
    cases h
    cases l with
    | string s =>
      exact ((copyScript_byteArray s).andThen (CopyScript.refl _)).congr (iff_of_eq (and_true _))
    | _ => exact copyScript_only hscript
  | unsetObject => cases h
  | «structure» members =>
    obtain ⟨members', -, rfl⟩ := Option.map_eq_some_iff.mp h
    exact hscript
  | _ =>
    obtain ⟨_, -, rfl⟩ := Option.map_eq_some_iff.mp h
    exact copyScript_only hscript

theorem encodeBinary_copy_of_tidy {H : Type} {v v' : Stored} (h : v.copy = some v')
    (htidy : v.Tidy) (fuel : Nat) (callback : Option (ExchangeEncodeBuffer H)) (handle : H)
    (length : Nat) (before : List UInt8) :
    encodeBinary fuel callback v'.value handle length before =
      encodeBinary fuel callback v.value handle length before := by
  unfold encodeBinary
  rw [← run_membersScript, ← run_membersScript, (copyScript_copy v v' h).same htidy]

/-- Where the original is encoded, the copy is encoded to the same bytes exactly when nothing that
is encoded has length zero and an ordinary pointer. -/
theorem encodeBinary_copy_iff {H : Type} {fuel : Nat} {v v' : Stored} {handle : H} {length : Nat}
    {before : List UInt8} {s : EncodeState H} (hcopy : v.copy = some v')
    (h : encodeBinary fuel none v.value handle length before = .ok (StatusCode.good, s)) :
    (∃ s', encodeBinary fuel none v'.value handle length before = .ok (StatusCode.good, s') ∧
      s'.pos.before = s.pos.before) ↔ v.Tidy := by
  constructor
  · rintro ⟨s', h', hsame⟩
    obtain ⟨hfree, hbytes⟩ := encodeBinary_none_good h
    obtain ⟨hfree', hbytes'⟩ := encodeBinary_none_good h'
    rw [hbytes, hbytes'] at hsame
    exact (copyScript_copy v v' hcopy).tidy hfree hfree' (List.append_cancel_left hsame)
  · intro htidy
    exact ⟨s, (encodeBinary_copy_of_tidy hcopy htidy fuel none handle length before).trans h, rfl⟩

/-- A DataValue with a string and nothing else. -/
def textValue (s : UaString) : Stored :=
  .dataValue true (.scalar .string (.leaf (.string s))) ⟨none, none, none, none, none⟩

theorem encodeBinary_copy_textValue :
    ∃ v' s, (textValue (.mem [0x61])).copy = some v' ∧
      encodeBinary 1 none (textValue (.mem [0x61])).value () 7 [] = .ok (StatusCode.good, s) ∧
      ((∃ s', encodeBinary 1 none v'.value () 7 [] = .ok (StatusCode.good, s') ∧
        s'.pos.before = s.pos.before) ↔ (textValue (.mem [0x61])).Tidy) :=
  ⟨_, _, rfl, rfl, encodeBinary_copy_iff rfl rfl⟩

/-- The string of `UA_STRING("")` is encoded as a null string, its copy as an empty one. -/
theorem textValue_empty :
    ∃ v' s s', (textValue (.mem [])).copy = some v' ∧
      encodeBinary 1 none (textValue (.mem [])).value () 6 [] = .ok (StatusCode.good, s) ∧
      encodeBinary 1 none v'.value () 6 [] = .ok (StatusCode.good, s') ∧
      s.pos.before = [0x01, 0x0C, 0xFF, 0xFF, 0xFF, 0xFF] ∧
      s'.pos.before = [0x01, 0x0C, 0x00, 0x00, 0x00, 0x00] :=
  ⟨_, _, _, rfl, rfl, rfl, rfl, rfl⟩

end FactoryThing.Encoding
