import FactoryThing.Attributes.Writing
import FactoryThing.Variables.Conformance
import FactoryThing.Variables.Disclosure
import FactoryThing.Variables.IndexedWrite

/-!
# What a write may change

A write that is answered Good has changed the addressed attribute and no other, with the right bits
set in the node and in the answers of the access control plug-in, and what has been written is what
the attribute takes. The Value attribute and ArrayDimensions take more than that.
-/

namespace FactoryThing.Attributes

open AddressSpace Variables Variants Stateful

variable {α : Type}

/-- The node without the content of an attribute. -/
def erase (node : Node (NodeAttributes α)) : Nat → Node (NodeAttributes α)
  | 3 => { node with browseName := ⟨0, []⟩ }
  | 4 => { node with displayName := ⟨[], []⟩ }
  | 5 => edit node fun a => { a with description := ⟨[], []⟩ }
  | 6 => edit node fun a => { a with writeMask := 0 }
  | 8 => { node with isAbstract := false }
  | 9 => edit node fun a => { a with symmetric := false }
  | 10 => edit node fun a => { a with inverseName := ⟨[], []⟩ }
  | 11 => edit node fun a => { a with containsNoLoops := false }
  | 12 => edit node fun a => { a with eventNotifier := 0 }
  | 13 => edit node fun a => { a with value := .dataSource }
  | 14 => edit node fun a => { a with dataType := nullId }
  | 15 => edit node fun a => { a with valueRank := 0 }
  | 16 => edit node fun a => { a with arrayDimensions := [] }
  | 17 => edit node fun a => { a with accessLevel := 0 }
  | 19 => edit node fun a => { a with minimumSamplingInterval := 0 }
  | 20 => edit node fun a => { a with historizing := false }
  | 21 => edit node fun a => { a with executable := false }
  | _ => node

/-- The bit of an attribute in the write mask (`include/ua_constants.h:66-87`). -/
def writeMaskBit : Nat → Option UInt32
  | 3 => some 2
  | 4 => some 6
  | 5 => some 5
  | 6 => some 20
  | 8 => some 11
  | 9 => some 15
  | 10 => some 10
  | 11 => some 3
  | 12 => some 7
  | 13 => some 21
  | 14 => some 4
  | 15 => some 19
  | 16 => some 1
  | 17 => some 0
  | 19 => some 12
  | 20 => some 9
  | 21 => some 8
  | _ => none

/-- The type of the attributes that are scalars. -/
def attributeType : Nat → Option Builtin
  | 3 => some .qualifiedName
  | 4 | 5 | 10 => some .localizedText
  | 6 => some .uint32
  | 8 | 9 | 11 | 20 | 21 => some .boolean
  | 12 | 17 => some .byte
  | 14 => some .nodeId
  | 15 => some .int32
  | 19 => some .double
  | _ => none

/-- The right to write the attribute is given by the node and by the plug-in. -/
def Authorised (access : AccessControl) (node : Node (NodeAttributes α)) (attributeId : Nat) :
    Prop :=
  if attributeId = 13 ∧ node.nodeClass = .variable then
    node.attributes.accessLevel &&& accessLevelMaskWrite ≠ 0 ∧
      access.getUserAccessLevel node.nodeId &&& accessLevelMaskWrite ≠ 0
  else
    ∃ bit, writeMaskBit attributeId = some bit ∧ node.attributes.writeMask &&& (1 <<< bit) ≠ 0 ∧
      access.getUserRightsMask node.nodeId &&& (1 <<< bit) ≠ 0

structure IsScalarOf (type : Builtin) (v : DataValue α) : Prop where
  hasValue : v.hasValue = true
  type : v.value.type = some (builtinType type)
  scalar : v.value.data.isScalar = true

/-- A list of UInt32: an array of one dimension. -/
structure IsList (v : DataValue α) : Prop where
  hasValue : v.hasValue = true
  type : v.value.type = some (builtinType .uint32)
  array : v.value.data.isScalar = false
  dimensions : v.value.arrayDimensions.length ≤ 1

section Service

variable (w : WriteWorld α) (access : AccessControl) (sv : Server (NodeAttributes α))
  (node : Node (NodeAttributes α)) (wvalue : WriteValue α) (n : Nat)

/-- What has been written is of the type and shape of the attribute. A value is compared with the
constraints of its variable; one with an index range with the part of the stored value that it
replaces. -/
def Fitting (node' : Node (NodeAttributes α)) : Prop :=
  if wvalue.attributeId.toNat = 13 then
    if wvalue.indexRange.length = 0 then
      wvalue.value.hasValue = true ∧ ∃ stored, node'.attributes.value = .data stored ∧
        Conforms (variablesOf sv) node.attributes.dataType node.attributes.valueRank
          node.attributes.arrayDimensions stored.value
    else
      ∃ stored stored' range written n1 n2, node.attributes.value = .data stored ∧
        node'.attributes.value = .data stored' ∧
        Checked w.toOutside (variablesOf sv) (variableOf node) wvalue.value wvalue.indexRange n
          range written n1 n2 ∧
        InPlace stored stored'.value range written
  else if wvalue.attributeId.toNat = 16 then IsList wvalue.value
  else ∃ type, attributeType wvalue.attributeId.toNat = some type ∧ IsScalarOf type wvalue.value

/-- What a write makes of its node, with its status. -/
structure NodeSafe (edited : Edited α) : Prop where
  refused : edited.2 ≠ StatusCode.good → edited.1 = node
  confined : edited.2 = StatusCode.good →
    erase edited.1 wvalue.attributeId.toNat = erase node wvalue.attributeId.toNat
  authorised : edited.2 = StatusCode.good → Authorised access node wvalue.attributeId.toNat
  fitting : edited.2 = StatusCode.good → Fitting w sv node wvalue n edited.1

/-- The write of a session that is not the administrator's keeps to memory, and is answered Good
only if it has changed at most the addressed attribute of the addressed node, by right and to what
the attribute takes; otherwise the server is what it was. -/
def WriteSafe : Prop :=
  match (writeNode w sv (some access) wvalue).run n with
  | .error fault => fault = RangeFault.diverges
  | .ok ((sv', retval), _) =>
    (retval ≠ StatusCode.good → sv' = sv) ∧
      (retval = StatusCode.good → ∃ node node', sv.get wvalue.nodeId = some node ∧
        (∀ x, sv'.get x = if x = wvalue.nodeId then some node' else sv.get x) ∧
        NodeSafe w access sv node wvalue n (node', retval))

end Service

theorem mask_of_ne_zero {a b m : UInt32} (h : a &&& b &&& m ≠ 0) : a &&& m ≠ 0 ∧ b &&& m ≠ 0 := by
  constructor
  · intro hzero
    apply h
    rw [UInt32.and_assoc, UInt32.and_comm b, ← UInt32.and_assoc, hzero, UInt32.zero_and]
  · intro hzero
    apply h
    rw [UInt32.and_assoc, hzero, UInt32.and_zero]

theorem level_of_ne_zero {a b m : UInt8} (h : a &&& b &&& m ≠ 0) : a &&& m ≠ 0 ∧ b &&& m ≠ 0 := by
  constructor
  · intro hzero
    apply h
    rw [UInt8.and_assoc, UInt8.and_comm b, ← UInt8.and_assoc, hzero, UInt8.zero_and]
  · intro hzero
    apply h
    rw [UInt8.and_assoc, hzero, UInt8.and_zero]

variable {w : WriteWorld α} {access : AccessControl} {sv : Server (NodeAttributes α)}
  {node : Node (NodeAttributes α)} {wvalue : WriteValue α} {n : Nat}

theorem authorised_of_mask {attributeId : Nat} {bit : UInt32}
    (hvalue : ¬ (attributeId = 13 ∧ node.nodeClass = .variable))
    (hbit : writeMaskBit attributeId = some bit)
    (hmask : userWriteMask (some access) node &&& (1 <<< bit) ≠ 0) :
    Authorised access node attributeId := by
  unfold Authorised
  rw [if_neg hvalue]
  exact ⟨bit, hbit, mask_of_ne_zero hmask⟩

theorem isScalarOf_of_scalarOf {type : Builtin} {v : DataValue α} {x : α}
    (h : scalarOf type v = some x) : IsScalarOf type v := by
  unfold scalarOf at h
  split at h
  · rename_i hchecks
    split at h
    · rename_i y hdata
      exact ⟨hchecks.1, hchecks.2, by rw [hdata]; rfl⟩
    · cases h
  · cases h

/-- A search of the type hierarchy that does not end. -/
def Diverges (fault : RangeFault) : Prop := fault = RangeFault.diverges

theorem nodeSafe_refused {retval : StatusCode} (hbad : retval ≠ StatusCode.good) :
    NodeSafe w access sv node wvalue n (node, retval) where
  refused _ := rfl
  confined hgood := absurd hgood hbad
  authorised hgood := absurd hgood hbad
  fitting hgood := absurd hgood hbad

theorem meets_writeChecked {β : Type} {E : RangeFault → Prop} {session : Option AccessControl}
    {classes : List NodeClass} {bit : UInt32} {content : Option β} {assign : β → RangeM (Edited α)}
    {Q : Edited α → Prop} (hrefused : ∀ retval, retval ≠ StatusCode.good → Q (node, retval))
    (hassign : ∀ x, content = some x → node.nodeClass ∈ classes →
      userWriteMask session node &&& (1 <<< bit) ≠ 0 → Meets E (assign x) Q) :
    Meets E (writeChecked session node classes bit content assign) Q := by
  refine meets_ite (fun _ => meets_pure (hrefused _ (by decide))) fun hclass => ?_
  refine meets_ite (fun _ => meets_pure (hrefused _ (by decide))) fun hmask => ?_
  cases content with
  | none => exact meets_pure (hrefused _ (by decide))
  | some x => exact hassign x rfl (not_not.mp hclass) hmask

/-- An assignment that is refused or changes one attribute. -/
def Keeps (node : Node (NodeAttributes α)) (attributeId : Nat) (edited : Edited α) : Prop :=
  (edited.2 ≠ StatusCode.good → edited.1 = node) ∧
    (edited.2 = StatusCode.good → erase edited.1 attributeId = erase node attributeId)

section Assignments

variable {E : RangeFault → Prop} {attributeId : Nat}

theorem keeps_good {node' : Node (NodeAttributes α)}
    (h : erase node' attributeId = erase node attributeId) :
    Keeps node attributeId (node', StatusCode.good) :=
  ⟨fun hbad => absurd rfl hbad, fun _ => h⟩

theorem meets_assignPlain {f : NodeAttributes α → NodeAttributes α}
    (h : erase (edit node f) attributeId = erase node attributeId) :
    Meets E (assignPlain node f) (Keeps node attributeId) :=
  meets_pure (keeps_good h)

theorem meets_answer {β : Type} (answers : Nat → β) :
    Meets E (answer answers) fun x => ∃ n, x = answers n :=
  Gives.meets fun s => ⟨answers s, s + 1, rfl, s, rfl⟩

theorem meets_assignCopy {β : Type} {x init : β} {assign : β → Node (NodeAttributes α)}
    (h : ∀ y, erase (assign y) attributeId = erase node attributeId) :
    Meets E (assignCopy w x init assign) (Keeps node attributeId) := by
  have hcopied : Meets E (copied w x init) fun _ => True :=
    (meets_answer w.copyAttribute).bind fun _ _ => meets_pure trivial
  exact hcopied.bind fun y _ => meets_pure (keeps_good (h y))

theorem meets_writeIsAbstractAttribute (value : Bool) :
    Meets E (writeIsAbstractAttribute node value) (Keeps node 8) :=
  meets_ite (fun _ => meets_pure (keeps_good rfl)) fun _ =>
    meets_pure ⟨fun _ => rfl, fun hgood => absurd (show _ = StatusCode.good from hgood)
      (show StatusCode.badNodeClassInvalid ≠ StatusCode.good by decide)⟩

/-- What a writer of a variable has done: nothing, or its assignment. -/
def Written (variable' : VariableNode α) (f : VariableAttributes α → VariableAttributes α)
    (r : VariableNode α × StatusCode) : Prop :=
  (r.2 ≠ StatusCode.good → r.1 = variable') ∧
    (r.2 = StatusCode.good → r.1 = withAttributes variable' f)

theorem meets_onVariable {write : RangeM (VariableNode α × StatusCode)}
    {f : VariableAttributes α → VariableAttributes α}
    (hwrite : Meets E write (Written (variableOf node) f))
    (h : erase (withVariable node (withAttributes (variableOf node) f)) attributeId =
      erase node attributeId) :
    Meets E (onVariable node write) (Keeps node attributeId) := by
  refine hwrite.bind fun r hr => meets_pure ⟨fun hbad => ?_, fun hgood => ?_⟩
  · rw [hr.1 hbad]
    rfl
  · rw [hr.2 hgood]
    exact h

end Assignments

section Writers

variable {o : Outside α} {vs : Server (VariableAttributes α)} {vn : VariableNode α}

theorem meets_compatibleDataType (dataType constraint : NodeKey) :
    Meets Diverges (compatibleDataType o vs dataType constraint) fun _ => True :=
  ⟨fun _ _ h => compatibleDataType_error h, fun _ _ _ _ => trivial⟩

theorem meets_typeCheckValue (dataType : NodeKey) (valueRank : Int) (dims : List UInt32)
    (value : UaVariant α) (range : Option NumericRange) (editable : Bool) :
    Meets Diverges (typeCheckValue o vs dataType valueRank dims value range editable)
      fun _ => True := by
  unfold typeCheckValue
  split
  · exact meets_ite (fun _ => meets_pure trivial) fun _ => meets_pure trivial
  · refine (meets_compatibleDataType _ _).bind fun compatible _ => ?_
    refine meets_ite (fun _ => meets_pure trivial) fun _ => ?_
    refine meets_ite (fun _ => meets_pure trivial) fun _ => ?_
    split
    · exact meets_pure trivial
    · exact meets_pure trivial

theorem meets_readValueAttribute : Meets Diverges (readValueAttribute o vn) fun _ => True := by
  unfold readValueAttribute
  split
  · exact meets_pure trivial
  · refine (meets_answer o.readSource).bind fun x _ => ?_
    cases x with
    | none => exact meets_pure trivial
    | some r => exact meets_pure trivial

variable {f : VariableAttributes α → VariableAttributes α}

theorem written_refused {retval : StatusCode} (hbad : retval ≠ StatusCode.good) :
    Written vn f (vn, retval) :=
  ⟨fun _ => rfl, fun hgood => absurd hgood hbad⟩

theorem written_good : Written vn f (withAttributes vn f, StatusCode.good) :=
  ⟨fun hbad => absurd rfl hbad, fun _ => rfl⟩

theorem meets_writeDataType (dataType : NodeKey) :
    Meets Diverges (writeDataTypeAttributeWithVT o vs vn dataType)
      (Written vn fun a => { a with dataType }) := by
  unfold writeDataTypeAttributeWithVT
  split
  · exact meets_pure (written_refused (by decide))
  refine meets_ite (fun _ => meets_pure (written_refused (by decide))) fun _ => ?_
  refine (meets_compatibleDataType _ _).bind fun compatible _ => ?_
  refine meets_ite (fun _ => meets_pure (written_refused (by decide))) fun _ => ?_
  refine meets_readValueAttribute.bind fun r _ => ?_
  refine meets_ite (fun hbad => meets_pure (written_refused hbad)) fun _ => ?_
  have hcurrent : Meets Diverges (checkCurrentValue o vs vn dataType r.2) fun _ => True :=
    meets_ite (fun _ => (meets_typeCheckValue _ _ _ _ _ _).bind fun _ _ => meets_pure trivial)
      fun _ => meets_pure trivial
  refine hcurrent.bind fun retval _ => ?_
  refine meets_ite (fun hbad => meets_pure (written_refused hbad)) fun _ => ?_
  refine (meets_answer o.copyAttribute).bind fun retval _ => ?_
  exact meets_ite (fun hbad => meets_pure (written_refused hbad)) fun _ => meets_pure written_good

theorem written_applyValueRank (valueRank : Int) (arrayDims : Nat) :
    Written vn (fun a => { a with valueRank }) (applyValueRank vn valueRank arrayDims) := by
  unfold applyValueRank
  dsimp only
  split
  · rename_i hbad
    exact written_refused hbad
  · exact written_good

theorem meets_writeValueRank (valueRank : Int) :
    Meets Diverges (writeValueRankAttributeWithVT o vs vn valueRank)
      (Written vn fun a => { a with valueRank }) := by
  unfold writeValueRankAttributeWithVT
  split
  · exact meets_pure (written_refused (by decide))
  refine meets_ite (fun _ => meets_pure (written_refused (by decide))) fun _ => ?_
  refine meets_ite (fun hbad => meets_pure (written_refused hbad)) fun _ => ?_
  refine meets_ite (fun _ => ?_) fun _ => meets_pure (written_applyValueRank _ _)
  refine meets_readValueAttribute.bind fun r _ => ?_
  refine meets_ite (fun hbad => meets_pure (written_refused hbad)) fun _ => ?_
  exact meets_ite (fun _ => meets_pure written_good) fun _ =>
    meets_pure (written_applyValueRank _ _)

end Writers

theorem meets_scalar {attributeId : Nat} {classes : List NodeClass} {bit : UInt32} {type : Builtin}
    {assign : α → RangeM (Edited α)} (hid : wvalue.attributeId.toNat = attributeId)
    (hvalue : attributeId ≠ 13) (hdims : attributeId ≠ 16)
    (hbit : writeMaskBit attributeId = some bit) (htype : attributeType attributeId = some type)
    (hassign : ∀ x, Meets Diverges (assign x) (Keeps node attributeId)) :
    Meets Diverges
      (writeChecked (some access) node classes bit (scalarOf type wvalue.value) assign)
      (NodeSafe w access sv node wvalue n) := by
  refine meets_writeChecked (fun retval hbad => nodeSafe_refused hbad) fun x hx _ hmask => ?_
  refine (hassign x).mono fun edited hkeeps => ?_
  refine ⟨hkeeps.1, fun hgood => ?_, fun _ => ?_, fun _ => ?_⟩
  · rw [hid]
    exact hkeeps.2 hgood
  · rw [hid]
    exact authorised_of_mask (fun hboth => hvalue hboth.1) hbit hmask
  · unfold Fitting
    rw [hid, if_neg hvalue, if_neg hdims]
    exact ⟨type, htype, isScalarOf_of_scalarOf hx⟩

theorem meets_copyAttributeIntoNode (hvalue : wvalue.attributeId.toNat ≠ 13)
    (hdims : wvalue.attributeId.toNat ≠ 16) :
    Meets Diverges (copyAttributeIntoNode w sv (some access) node wvalue)
      (NodeSafe w access sv node wvalue n) := by
  unfold copyAttributeIntoNode
  generalize hid : wvalue.attributeId.toNat = attributeId
  rw [hid] at hvalue hdims
  split
  case h_1 | h_2 | h_3 | h_4 | h_5 | h_23 => exact meets_pure (nodeSafe_refused (by decide))
  case h_6 | h_7 | h_8 | h_12 =>
    exact meets_scalar hid hvalue hdims rfl rfl fun x => meets_assignCopy fun _ => rfl
  case h_9 | h_11 | h_13 | h_14 | h_19 | h_20 | h_21 | h_22 =>
    exact meets_scalar hid hvalue hdims rfl rfl fun x => meets_assignPlain rfl
  case h_10 =>
    exact meets_scalar hid hvalue hdims rfl rfl fun x => meets_writeIsAbstractAttribute _
  case h_15 => exact absurd rfl hvalue
  case h_16 =>
    exact meets_scalar hid hvalue hdims rfl rfl fun x =>
      meets_onVariable (meets_writeDataType _) rfl
  case h_17 =>
    exact meets_scalar hid hvalue hdims rfl rfl fun x =>
      meets_onVariable (meets_writeValueRank _) rfl
  case h_18 => exact absurd rfl hdims

section Guard

variable (w : WriteWorld α) (access : AccessControl) (sv : Server (NodeAttributes α))
  (wvalue : WriteValue α) (n : Nat)

/-- The checks in front of the writer of the value. -/
structure MayWriteValue (access : AccessControl) (node : Node (NodeAttributes α)) : Prop where
  nodeClass : node.nodeClass ∈ [.variable, .variableType]
  variable' : node.nodeClass = .variable →
    userAccessLevel (some access) node &&& accessLevelMaskWrite ≠ 0
  variableType : node.nodeClass ≠ .variable →
    userWriteMask (some access) node &&& ((1 : UInt32) <<< 21) ≠ 0

/-- A write of the value without an index range that the type check accepts has a value, of a size
that the check does not overlook. With an index range it is safe where it comes to the copy. -/
def ValueGuard (node : Node (NodeAttributes α)) : Prop :=
  if wvalue.indexRange.length = 0 then
    ∀ written n', (checkWrittenValue w.toOutside (variablesOf sv) (variableOf node) wvalue.value
        none).run n = .ok ((StatusCode.good, written), n') →
      wvalue.value.hasValue = true ∧
        Sized node.attributes.valueRank node.attributes.arrayDimensions wvalue.value.value
  else
    ∀ stored, node.attributes.value = .data stored →
      CopyGuard w.toOutside (variablesOf sv) (variableOf node) stored wvalue.value
        wvalue.indexRange n

/-- The checks in front of the assignment of the array dimensions: of the type in use, of the value
rank, of the variable type and of the value. -/
structure DimensionsFit (vs : Server (VariableAttributes α)) (vn : VariableNode α)
    (dims : List UInt32) : Prop where
  notInUse : inUse vn = false
  rank : compatibleValueRankArrayDimensions vn.attributes.valueRank dims.length = StatusCode.good
  variableType : ∃ vt, getVariableNodeType vs vn = some vt ∧
    compatibleArrayDimensions vt.attributes.arrayDimensions dims = StatusCode.good
  value : ∀ stored, vn.attributes.value = .data stored → stored.hasValue = true →
    compatibleArrayDimensions dims stored.value.arrayDimensions.items = StatusCode.good

/-- Array dimensions that fit come in an array of one dimension. -/
def DimensionsGuard (node : Node (NodeAttributes α)) : Prop :=
  ∀ xs, arrayOf .uint32 wvalue.value = some xs →
    DimensionsFit (variablesOf sv) (variableOf node) (xs.map w.contents.uint32) →
    wvalue.value.value.arrayDimensions.length ≤ 1

/-- Where the session may write the value or the array dimensions, what the checks overlook does not
matter. -/
def WriteGuard : Prop :=
  ∀ node, sv.get wvalue.nodeId = some node →
    (wvalue.attributeId.toNat = 13 → MayWriteValue access node → ValueGuard w sv wvalue n node) ∧
    (wvalue.attributeId.toNat = 16 → node.nodeClass ∈ [.variable, .variableType] →
      userWriteMask (some access) node &&& ((1 : UInt32) <<< 1) ≠ 0 →
      DimensionsGuard w sv wvalue node)

end Guard

def Outcome {β : Type} (n : Nat) (x : RangeM β) (Q : β → Prop) : Prop :=
  match x.run n with
  | .error fault => Diverges fault
  | .ok (b, _) => Q b

theorem outcome_of_meets {β : Type} {x : RangeM β} {Q : β → Prop} (h : Meets Diverges x Q)
    (n : Nat) : Outcome n x Q := by
  unfold Outcome
  split
  · rename_i fault hrun
    exact h.1 n fault hrun
  · rename_i b n' hrun
    exact h.2 n b n' hrun

theorem outcome_onVariable {write : RangeM (VariableNode α × StatusCode)} {Q : Edited α → Prop} :
    Outcome n (onVariable node write) Q ↔
      Outcome n write fun r => Q (withVariable node r.1, r.2) := by
  unfold Outcome onVariable
  cases hrun : write.run n with
  | error fault => rw [run_bind_error hrun]
  | ok p =>
    obtain ⟨r, n'⟩ := p
    rw [run_bind_of_ok hrun]
    rfl

theorem outcome_refused {retval : StatusCode} (hbad : retval ≠ StatusCode.good) :
    Outcome n (pure (node, retval) : RangeM (Edited α)) (NodeSafe w access sv node wvalue n) :=
  nodeSafe_refused hbad

theorem isList_iff {v : DataValue α} {xs : List α} (h : arrayOf .uint32 v = some xs) :
    IsList v ↔ v.value.arrayDimensions.length ≤ 1 := by
  unfold arrayOf at h
  split at h
  · rename_i hchecks
    exact ⟨fun hlist => hlist.dimensions, fun hdims => ⟨hchecks.1, hchecks.2.1, hchecks.2.2, hdims⟩⟩
  · cases h

theorem nodeSafe_dimensions_iff {xs : List α} {dims : List UInt32}
    (hid : wvalue.attributeId.toNat = 16) (hxs : arrayOf .uint32 wvalue.value = some xs)
    (hmask : userWriteMask (some access) node &&& ((1 : UInt32) <<< 1) ≠ 0) :
    NodeSafe w access sv node wvalue n
        (edit node fun a => { a with arrayDimensions := dims }, StatusCode.good) ↔
      wvalue.value.value.arrayDimensions.length ≤ 1 := by
  have hfitting : ∀ node', Fitting w sv node wvalue n node' ↔ IsList wvalue.value := by
    intro node'
    unfold Fitting
    rw [hid, if_neg (by decide), if_pos rfl]
  rw [← isList_iff hxs]
  constructor
  · exact fun hsafe => (hfitting _).mp (hsafe.fitting rfl)
  · intro hlist
    refine ⟨fun hbad => absurd rfl hbad, fun _ => ?_, fun _ => ?_, fun _ => (hfitting _).mpr hlist⟩
    · rw [hid]
      rfl
    · rw [hid]
      exact authorised_of_mask (fun hboth => absurd hboth.1 (by decide)) rfl hmask

theorem copyAttributeIntoNode_arrayDimensions (hid : wvalue.attributeId.toNat = 16) :
    copyAttributeIntoNode w sv (some access) node wvalue =
      writeChecked (some access) node [.variable, .variableType] 1 (arrayOf .uint32 wvalue.value)
        fun xs => onVariable node (writeArrayDimensionsAttribute w.toOutside (variablesOf sv)
          (variableOf node) (xs.map w.contents.uint32)) := by
  unfold copyAttributeIntoNode
  generalize wvalue.attributeId.toNat = attributeId at hid
  subst hid
  rfl

theorem copyAttributeIntoNode_value (hid : wvalue.attributeId.toNat = 13) :
    copyAttributeIntoNode w sv (some access) node wvalue =
      writeValue w sv (some access) node wvalue.value wvalue.indexRange := by
  unfold copyAttributeIntoNode
  generalize wvalue.attributeId.toNat = attributeId at hid
  subst hid
  rfl

theorem run_writeArrayDimensions {o : Outside α} {vs : Server (VariableAttributes α)}
    {vn : VariableNode α} (hcopy : ∀ n, o.copyAttribute n = StatusCode.good)
    {stored : DataValue α} (hvalue : vn.attributes.value = .data stored) (dims : List UInt32) :
    (DimensionsFit vs vn dims ∧ (writeArrayDimensionsAttribute o vs vn dims).run n =
        .ok ((withAttributes vn fun a => { a with arrayDimensions := dims }, StatusCode.good),
          n + 1)) ∨
      (¬ DimensionsFit vs vn dims ∧ ∃ retval, retval ≠ StatusCode.good ∧
        (writeArrayDimensionsAttribute o vs vn dims).run n = .ok ((vn, retval), n)) := by
  have hread : (readValueAttribute o vn).run n = .ok ((StatusCode.good, stored), n) := by
    unfold readValueAttribute
    rw [hvalue]
    rfl
  have hcopied : (answer o.copyAttribute).run n = .ok (StatusCode.good, n + 1) := by
    rw [← hcopy n]
    rfl
  unfold writeArrayDimensionsAttribute
  by_cases huse : inUse vn = true
  · rw [if_pos huse]
    refine .inr ⟨fun hfit => ?_, _, by decide, rfl⟩
    rw [hfit.notInUse] at huse
    cases huse
  rw [if_neg huse]
  dsimp only
  by_cases hrank : compatibleValueRankArrayDimensions vn.attributes.valueRank dims.length =
      StatusCode.good
  swap
  · rw [if_pos hrank]
    exact .inr ⟨fun hfit => hrank hfit.rank, _, hrank, rfl⟩
  rw [if_neg (not_not.mpr hrank)]
  cases hvt : getVariableNodeType vs vn with
  | none =>
    refine .inr ⟨fun hfit => ?_, _, by decide, rfl⟩
    obtain ⟨vt, hsome, -⟩ := hfit.variableType
    rw [hvt] at hsome
    cases hsome
  | some vt =>
    dsimp only
    by_cases htype : compatibleArrayDimensions vt.attributes.arrayDimensions dims = StatusCode.good
    swap
    · rw [if_pos htype]
      refine .inr ⟨fun hfit => ?_, _, htype, rfl⟩
      obtain ⟨vt', hsome, hcompatible⟩ := hfit.variableType
      obtain rfl := Option.some.inj (hvt.symm.trans hsome)
      exact htype hcompatible
    rw [if_neg (not_not.mpr htype), run_bind_of_ok hread]
    dsimp only
    rw [if_neg (not_not.mpr rfl)]
    by_cases hcurrent : stored.hasValue = true →
        compatibleArrayDimensions dims stored.value.arrayDimensions.items = StatusCode.good
    · have hgood : (if stored.hasValue = true then
          compatibleArrayDimensions dims stored.value.arrayDimensions.items
          else StatusCode.good) = StatusCode.good := by
        split
        · rename_i hhas
          exact hcurrent hhas
        · rfl
      rw [hgood, if_neg (not_not.mpr rfl), run_bind_of_ok hcopied]
      have huse' : inUse vn = false := Bool.eq_false_iff.mpr huse
      refine .inl ⟨⟨huse', hrank, ⟨vt, hvt, htype⟩, fun stored' hstored' => ?_⟩, rfl⟩
      obtain rfl := ValueSource.data.inj (hvalue.symm.trans hstored')
      exact hcurrent
    · obtain ⟨hhas, hbad⟩ := Classical.not_imp.mp hcurrent
      rw [if_pos hhas, if_pos hbad]
      exact .inr ⟨fun hfit => hbad (hfit.value stored hvalue hhas), _, hbad, rfl⟩

theorem outcome_arrayDimensions_iff (hcopy : ∀ n, w.copyAttribute n = StatusCode.good)
    {stored : DataValue α} (hvalue : node.attributes.value = .data stored)
    (hid : wvalue.attributeId.toNat = 16) :
    Outcome n (copyAttributeIntoNode w sv (some access) node wvalue)
        (NodeSafe w access sv node wvalue n) ↔
      (node.nodeClass ∈ [.variable, .variableType] →
        userWriteMask (some access) node &&& ((1 : UInt32) <<< 1) ≠ 0 →
        DimensionsGuard w sv wvalue node) := by
  rw [copyAttributeIntoNode_arrayDimensions hid]
  unfold writeChecked
  by_cases hclass : node.nodeClass ∈ [.variable, .variableType]
  swap
  · rw [if_pos hclass]
    exact iff_of_true (outcome_refused (by decide)) fun hno => absurd hno hclass
  rw [if_neg (not_not.mpr hclass)]
  by_cases hmask : userWriteMask (some access) node &&& ((1 : UInt32) <<< 1) = 0
  · rw [if_pos hmask]
    exact iff_of_true (outcome_refused (by decide)) fun _ hno => absurd hmask hno
  rw [if_neg hmask]
  unfold DimensionsGuard
  cases hxs : arrayOf .uint32 wvalue.value with
  | none => exact iff_of_true (outcome_refused (by decide)) fun _ _ _ hno => nomatch hno
  | some xs =>
    dsimp only
    rw [outcome_onVariable]
    unfold Outcome
    obtain ⟨hfit, hrun⟩ | ⟨hunfit, retval, hbad, hrun⟩ :=
      @run_writeArrayDimensions _ n w.toOutside (variablesOf sv) (variableOf node) hcopy stored
        hvalue (xs.map w.contents.uint32)
    · rw [hrun]
      refine (nodeSafe_dimensions_iff hid hxs hmask).trans ⟨fun hdims _ _ _ _ _ => hdims, ?_⟩
      exact fun hguard => hguard hclass hmask xs rfl hfit
    · rw [hrun]
      refine iff_of_true (nodeSafe_refused hbad) fun _ _ xs' hxs' hfit => ?_
      obtain rfl := Option.some.inj hxs'
      exact absurd hfit hunfit

theorem writeValueAttribute_frame {o : Outside α} {vs : Server (VariableAttributes α)}
    {vn vn' : VariableNode α} {v : DataValue α} {indexRange : UaString} {retval : StatusCode}
    {n' : Nat} (h : (writeValueAttribute o vs vn v indexRange).run n = .ok ((vn', retval), n')) :
    ∃ value, vn' = withAttributes vn fun a => { a with value } := by
  have hany : ∀ {β : Type} (x : RangeM β), Meets (fun _ => True) x fun _ => True :=
    fun _ => ⟨fun _ _ _ => trivial, fun _ _ _ _ => trivial⟩
  have hsame : ∀ retval : StatusCode, Meets (fun _ => True)
      (pure (vn, retval) : RangeM (VariableNode α × StatusCode))
      fun r => ∃ value, r.1 = withAttributes vn fun a => { a with value } :=
    fun _ => meets_pure ⟨vn.attributes.value, rfl⟩
  have hmeets : Meets (fun _ => True) (writeValueAttribute o vs vn v indexRange)
      fun r => ∃ value, r.1 = withAttributes vn fun a => { a with value } := by
    unfold writeValueAttribute
    refine (hany _).bind fun parsed _ => ?_
    cases parsed with
    | error retval => exact hsame retval
    | ok range =>
      refine (hany _).bind fun checked _ => ?_
      refine meets_ite (fun _ => hsame _) fun _ => ?_
      refine (hany _).bind fun now _ => ?_
      split
      · unfold writeValueAttributeWithoutRange
        refine (hany _).bind fun retval _ => ?_
        exact meets_ite (fun _ => meets_pure ⟨_, rfl⟩) fun _ => hsame _
      · unfold writeValueAttributeWithRange
        refine meets_ite (fun _ => hsame _) fun _ => ?_
        refine (hany _).bind fun r _ => ?_
        exact meets_ite (fun _ => meets_pure ⟨_, rfl⟩) fun _ => meets_pure ⟨_, rfl⟩
      · refine (hany _).bind fun answered _ => ?_
        cases answered with
        | none => exact hsame _
        | some retval => exact hsame retval
  exact hmeets.2 n _ n' h

theorem run_writeValue_whole {o : Outside α} {vs : Server (VariableAttributes α)}
    {vn : VariableNode α} {v : DataValue α} {indexRange : UaString}
    (hcopy : ∀ n, o.copyAttribute n = StatusCode.good) {stored : DataValue α}
    (hvalue : vn.attributes.value = .data stored) (hrange : indexRange.length = 0)
    {written : UaVariant α} {n1 : Nat}
    (hcheck : (checkWrittenValue o vs vn v none).run n = .ok ((StatusCode.good, written), n1)) :
    ∃ u, (writeValueAttribute o vs vn v indexRange).run n = .ok
        ((withAttributes vn fun a => { a with value := .data (copiedDataValue u) },
          StatusCode.good), n1 + 2) ∧ u.value = written := by
  refine ⟨withSourceTimestamp (o.now n1) { v with value := written }, ?_,
    value_withSourceTimestamp _ _⟩
  have hparse : (parseIndexRange o indexRange).run n = .ok (.ok none, n) := by
    unfold parseIndexRange
    rw [if_neg (by omega)]
    rfl
  unfold writeValueAttribute
  rw [run_bind_of_ok hparse]
  dsimp only
  rw [run_bind_of_ok hcheck]
  dsimp only
  rw [if_neg (not_not.mpr rfl)]
  have hnow : (answer o.now).run n1 = .ok (o.now n1, n1 + 1) := rfl
  rw [run_bind_of_ok hnow, hvalue]
  dsimp only
  unfold writeValueAttributeWithoutRange
  have hcopied : (answer o.copyAttribute).run (n1 + 1) = .ok (StatusCode.good, n1 + 2) := by
    rw [← hcopy (n1 + 1)]
    rfl
  rw [run_bind_of_ok hcopied, if_pos rfl]
  rfl

theorem outcome_unchecked {o : Outside α} {vs : Server (VariableAttributes α)}
    {vn : VariableNode α} {v : DataValue α} {indexRange : UaString}
    {Q : VariableNode α × StatusCode → Prop} (hrange : indexRange.length = 0)
    (hrefused : ∀ retval, retval ≠ StatusCode.good → Q (vn, retval))
    (h : ¬ ∃ written n', (checkWrittenValue o vs vn v none).run n =
      .ok ((StatusCode.good, written), n')) :
    Outcome n (writeValueAttribute o vs vn v indexRange) Q := by
  have hparse : (parseIndexRange o indexRange).run n = .ok (.ok none, n) := by
    unfold parseIndexRange
    rw [if_neg (by omega)]
    rfl
  unfold Outcome writeValueAttribute
  rw [run_bind_of_ok hparse]
  dsimp only
  cases hcheck : (checkWrittenValue o vs vn v none).run n with
  | error fault =>
    rw [run_bind_error hcheck]
    exact checkWrittenValue_error hcheck
  | ok p =>
    obtain ⟨⟨retval, written⟩, n1⟩ := p
    rw [run_bind_of_ok hcheck]
    dsimp only
    by_cases hgood : retval = StatusCode.good
    · subst hgood
      exact absurd ⟨written, n1, hcheck⟩ h
    · rw [if_pos hgood]
      exact hrefused retval hgood

theorem authorised_of_may (h : MayWriteValue access node) : Authorised access node 13 := by
  by_cases hclass : node.nodeClass = .variable
  · unfold Authorised
    rw [if_pos ⟨rfl, hclass⟩]
    exact level_of_ne_zero (h.variable' hclass)
  · exact authorised_of_mask (fun hboth => hclass hboth.2) rfl (h.variableType hclass)

theorem writeValue_cases (v : DataValue α) (indexRange : UaString) :
    (MayWriteValue access node ∧ writeValue w sv (some access) node v indexRange =
        onVariable node
          (writeValueAttribute w.toOutside (variablesOf sv) (variableOf node) v indexRange)) ∨
      (¬ MayWriteValue access node ∧ ∃ retval, retval ≠ StatusCode.good ∧
        writeValue w sv (some access) node v indexRange = pure (node, retval)) := by
  unfold writeValue
  by_cases hclass : node.nodeClass ∈ [.variable, .variableType]
  swap
  · rw [if_pos hclass]
    exact .inr ⟨fun hmay => hclass hmay.nodeClass, _, by decide, rfl⟩
  rw [if_neg (not_not.mpr hclass)]
  by_cases hlevel : node.nodeClass = .variable ∧
      userAccessLevel (some access) node &&& accessLevelMaskWrite = 0
  · rw [if_pos hlevel]
    exact .inr ⟨fun hmay => hmay.variable' hlevel.1 hlevel.2, _, by decide, rfl⟩
  rw [if_neg hlevel]
  by_cases hmask : node.nodeClass ≠ .variable ∧
      userWriteMask (some access) node &&& ((1 : UInt32) <<< 21) = 0
  · rw [if_pos hmask]
    exact .inr ⟨fun hmay => hmay.variableType hmask.1 hmask.2, _, by decide, rfl⟩
  rw [if_neg hmask]
  refine .inl ⟨⟨hclass, fun hvar hzero => hlevel ⟨hvar, hzero⟩, fun hvar hzero => ?_⟩, rfl⟩
  exact hmask ⟨hvar, hzero⟩

section Value

variable (hid : wvalue.attributeId.toNat = 13) (hmay : MayWriteValue access node)

include hid hmay

theorem nodeSafe_value_iff {value : ValueSource α} :
    NodeSafe w access sv node wvalue n
        (edit node fun a => { a with value := value }, StatusCode.good) ↔
      Fitting w sv node wvalue n (edit node fun a => { a with value := value }) := by
  constructor
  · exact fun hsafe => hsafe.fitting rfl
  · intro hfitting
    refine ⟨fun hbad => absurd rfl hbad, fun _ => ?_, fun _ => ?_, fun _ => hfitting⟩
    · rw [hid]
      rfl
    · rw [hid]
      exact authorised_of_may hmay

theorem outcome_whole_iff (hcopy : ∀ n, w.copyAttribute n = StatusCode.good) {stored : DataValue α}
    (hvalue : node.attributes.value = .data stored) (hrange : wvalue.indexRange.length = 0)
    (hreceived : Received w.toOutside wvalue.value.value) :
    Outcome n (writeValueAttribute w.toOutside (variablesOf sv) (variableOf node) wvalue.value
        wvalue.indexRange)
        (fun r => NodeSafe w access sv node wvalue n (withVariable node r.1, r.2)) ↔
      ValueGuard w sv wvalue n node := by
  unfold ValueGuard
  rw [if_pos hrange]
  by_cases hchecked : ∃ written n', (checkWrittenValue w.toOutside (variablesOf sv)
      (variableOf node) wvalue.value none).run n = .ok ((StatusCode.good, written), n')
  swap
  · refine iff_of_true (outcome_unchecked hrange (fun _ => nodeSafe_refused) hchecked) ?_
    exact fun written n' hrun => absurd ⟨written, n', hrun⟩ hchecked
  obtain ⟨written, n1, hcheck⟩ := hchecked
  obtain ⟨u, hrun, rfl⟩ := @run_writeValue_whole _ n w.toOutside (variablesOf sv)
    (variableOf node) wvalue.value wvalue.indexRange hcopy stored hvalue hrange written n1 hcheck
  have hfitting : Fitting w sv node wvalue n
      (edit node fun a => { a with value := .data (copiedDataValue u) }) ↔
      wvalue.value.hasValue = true ∧ Conforms (variablesOf sv) node.attributes.dataType
        node.attributes.valueRank node.attributes.arrayDimensions u.value := by
    have hcopied : Conforms (variablesOf sv) node.attributes.dataType node.attributes.valueRank
          node.attributes.arrayDimensions (copiedDataValue u).value ↔
        Conforms (variablesOf sv) node.attributes.dataType node.attributes.valueRank
          node.attributes.arrayDimensions u.value :=
      Conforms.congr rfl rfl (valueDimensions_copied u)
    unfold Fitting
    rw [if_pos hid, if_pos hrange]
    refine and_congr_right fun _ => ?_
    constructor
    · rintro ⟨stored', hstored', hconforms⟩
      obtain rfl : copiedDataValue u = stored' := ValueSource.data.inj hstored'
      exact hcopied.mp hconforms
    · exact fun hconforms => ⟨_, rfl, hcopied.mpr hconforms⟩
  have hsized : wvalue.value.hasValue = true →
      (Conforms (variablesOf sv) node.attributes.dataType node.attributes.valueRank
          node.attributes.arrayDimensions u.value ↔
        Sized node.attributes.valueRank node.attributes.arrayDimensions wvalue.value.value) := by
    intro hhas
    unfold checkWrittenValue at hcheck
    rw [if_pos hhas] at hcheck
    exact conforms_iff_sized hreceived hcheck
  unfold Outcome
  rw [hrun]
  refine (nodeSafe_value_iff hid hmay).trans (hfitting.trans ?_)
  constructor
  · rintro ⟨hhas, hconforms⟩ written' n' -
    exact ⟨hhas, (hsized hhas).mp hconforms⟩
  · intro hguard
    obtain ⟨hhas, hsize⟩ := hguard _ n1 hcheck
    exact ⟨hhas, (hsized hhas).mpr hsize⟩

theorem outcome_ranged_iff {stored : DataValue α} (hvalue : node.attributes.value = .data stored)
    (hrange : wvalue.indexRange.length ≠ 0) :
    Outcome n (writeValueAttribute w.toOutside (variablesOf sv) (variableOf node) wvalue.value
        wvalue.indexRange)
        (fun r => NodeSafe w access sv node wvalue n (withVariable node r.1, r.2)) ↔
      IndexedWriteSafe w.toOutside (variablesOf sv) (variableOf node) stored wvalue.value
        wvalue.indexRange n := by
  unfold Outcome IndexedWriteSafe
  cases hrun : (writeValueAttribute w.toOutside (variablesOf sv) (variableOf node) wvalue.value
      wvalue.indexRange).run n with
  | error fault => exact Iff.rfl
  | ok p =>
    obtain ⟨⟨vn', retval⟩, n'⟩ := p
    obtain ⟨value, rfl⟩ := writeValueAttribute_frame hrun
    dsimp only
    have hfitting : Fitting w sv node wvalue n (edit node fun a => { a with value := value }) ↔
        ∃ stored', value = .data stored' ∧ ∃ range written n1 n2,
          Checked w.toOutside (variablesOf sv) (variableOf node) wvalue.value wvalue.indexRange n
            range written n1 n2 ∧ InPlace stored stored'.value range written := by
      unfold Fitting
      rw [if_pos hid, if_neg hrange]
      constructor
      · rintro ⟨stored₁, stored', range, written, n1, n2, hstored, hstored', hplace⟩
        obtain rfl := ValueSource.data.inj (hvalue.symm.trans hstored)
        exact ⟨stored', hstored', range, written, n1, n2, hplace⟩
      · rintro ⟨stored', hstored', range, written, n1, n2, hplace⟩
        exact ⟨stored, stored', range, written, n1, n2, hvalue, hstored', hplace⟩
    by_cases hgood : retval = StatusCode.good
    · subst hgood
      refine (nodeSafe_value_iff hid hmay).trans (hfitting.trans ?_)
      constructor
      · rintro ⟨stored', hstored', hplace⟩
        exact ⟨stored', hstored', fun _ => hplace, fun hbad => absurd rfl hbad⟩
      · rintro ⟨stored', hstored', hplace, -⟩
        exact ⟨stored', hstored', hplace rfl⟩
    · constructor
      · intro hsafe
        have hsame : value = node.attributes.value :=
          congrArg (fun node => node.attributes.value) (hsafe.refused hgood)
        exact ⟨stored, hsame.trans hvalue, fun hyes => absurd hyes hgood, fun _ => rfl⟩
      · rintro ⟨stored', hstored', -, hsame⟩
        have hstays : value = node.attributes.value := by
          rw [hvalue, ← hsame hgood]
          exact hstored'
        rw [hstays]
        exact nodeSafe_refused hgood

end Value

theorem outcome_value_iff (hcopy : ∀ n, w.copyAttribute n = StatusCode.good)
    (hid : wvalue.attributeId.toNat = 13) {stored : DataValue α}
    (hvalue : node.attributes.value = .data stored)
    (hreceived : Received w.toOutside wvalue.value.value) :
    Outcome n (copyAttributeIntoNode w sv (some access) node wvalue)
        (NodeSafe w access sv node wvalue n) ↔
      (MayWriteValue access node → ValueGuard w sv wvalue n node) := by
  rw [copyAttributeIntoNode_value hid]
  obtain ⟨hmay, heq⟩ | ⟨hno, retval, hbad, heq⟩ :=
    @writeValue_cases _ w access sv node wvalue.value wvalue.indexRange
  swap
  · rw [heq]
    exact iff_of_true (outcome_refused hbad) fun hmay => absurd hmay hno
  rw [heq, outcome_onVariable]
  by_cases hrange : wvalue.indexRange.length = 0
  · rw [outcome_whole_iff hid hmay hcopy hvalue hrange hreceived]
    exact ⟨fun hguard _ => hguard, fun hguard => hguard hmay⟩
  · rw [outcome_ranged_iff hid hmay hvalue hrange]
    have hguard : ValueGuard w sv wvalue n node ↔ CopyGuard w.toOutside (variablesOf sv)
        (variableOf node) stored wvalue.value wvalue.indexRange n := by
      unfold ValueGuard
      rw [if_neg hrange]
      constructor
      · exact fun hall => hall stored hvalue
      · intro hcopyGuard stored' hstored'
        obtain rfl := ValueSource.data.inj (hvalue.symm.trans hstored')
        exact hcopyGuard
    by_cases hchecked : ∃ range written n1 n2, Checked w.toOutside (variablesOf sv)
        (variableOf node) wvalue.value wvalue.indexRange n range written n1 n2
    · obtain ⟨range, written, n1, n2, hchecked⟩ := hchecked
      rw [indexedWriteSafe_iff_of_checked hvalue hchecked, ← hguard]
      exact ⟨fun hguard _ => hguard, fun hguard => hguard hmay⟩
    · refine iff_of_true ?_ fun _ => hguard.mpr fun range written n1 n2 h =>
        absurd ⟨range, written, n1, n2, h⟩ hchecked
      obtain hdiverges | ⟨retval, n', hrun, hbad⟩ :=
        run_writeValue_unchecked (Nat.pos_of_ne_zero hrange) hchecked
      · unfold IndexedWriteSafe
        rw [hdiverges]
      · exact indexedWriteSafe_of_unchanged hvalue hrun hbad

theorem nodeId_erase (node : Node (NodeAttributes α)) (attributeId : Nat) :
    (erase node attributeId).nodeId = node.nodeId := by
  unfold erase
  split <;> rfl

theorem NodeSafe.nodeId {edited : Edited α} (h : NodeSafe w access sv node wvalue n edited) :
    edited.1.nodeId = node.nodeId := by
  by_cases hgood : edited.2 = StatusCode.good
  · have hconfined := congrArg Node.nodeId (h.confined hgood)
    rwa [nodeId_erase, nodeId_erase] at hconfined
  · rw [h.refused hgood]

theorem nodeId_copyAttributeIntoNode {edited : Edited α} {n' : Nat}
    (h : (copyAttributeIntoNode w sv (some access) node wvalue).run n = .ok (edited, n')) :
    edited.1.nodeId = node.nodeId := by
  have hvariable : ∀ write : RangeM (VariableNode α × StatusCode),
      Meets (fun _ => True) (onVariable node write)
        fun edited => edited.1.nodeId = node.nodeId := by
    intro write
    refine Meets.bind (Q := fun _ => True) ⟨fun _ _ _ => trivial, fun _ _ _ _ => trivial⟩ ?_
    exact fun _ _ => meets_pure rfl
  by_cases hvalue : wvalue.attributeId.toNat = 13
  · rw [copyAttributeIntoNode_value hvalue] at h
    obtain ⟨-, heq⟩ | ⟨-, retval, -, heq⟩ :=
      @writeValue_cases _ w access sv node wvalue.value wvalue.indexRange
    · rw [heq] at h
      exact (hvariable _).2 n edited n' h
    · rw [heq] at h
      rw [(run_pure_ok.mp h).1]
  · by_cases hdims : wvalue.attributeId.toNat = 16
    · rw [copyAttributeIntoNode_arrayDimensions hdims] at h
      have hmeets : Meets (fun _ => True) (writeChecked (some access) node
          [.variable, .variableType] 1 (arrayOf .uint32 wvalue.value) fun xs =>
            onVariable node (writeArrayDimensionsAttribute w.toOutside (variablesOf sv)
              (variableOf node) (xs.map w.contents.uint32)))
          fun edited => edited.1.nodeId = node.nodeId :=
        meets_writeChecked (fun _ _ => rfl) fun _ _ _ _ => hvariable _
      exact hmeets.2 n edited n' h
    · have hsafe : NodeSafe w access sv node wvalue n edited :=
        (meets_copyAttributeIntoNode hvalue hdims).2 n edited n' h
      exact hsafe.nodeId

theorem writeSafe_iff_outcome (hget : sv.get wvalue.nodeId = some node) :
    WriteSafe w access sv wvalue n ↔
      Outcome n (copyAttributeIntoNode w sv (some access) node wvalue)
        (NodeSafe w access sv node wvalue n) := by
  unfold WriteSafe Outcome
  cases hrun : (copyAttributeIntoNode w sv (some access) node wvalue).run n with
  | error fault =>
    have hwrite : (writeNode w sv (some access) wvalue).run n = .error fault := by
      unfold writeNode
      rw [hget]
      exact run_bind_error hrun
    rw [hwrite]
    exact Iff.rfl
  | ok p =>
    obtain ⟨⟨edited, retval⟩, n'⟩ := p
    have hwrite : (writeNode w sv (some access) wvalue).run n =
        .ok (editNode sv wvalue.nodeId fun _ => (edited, retval), n') := by
      unfold writeNode
      rw [hget]
      exact run_bind_of_ok hrun
    have hid : edited.nodeId = node.nodeId := nodeId_copyAttributeIntoNode hrun
    have hget' := @get_editNode_of_get _ sv node (fun _ => (edited, retval)) wvalue.nodeId hget hid
    have hstatus : (editNode sv wvalue.nodeId fun _ => (edited, retval)).2 = retval := by
      rw [editNode_status, hget]
    have hkept : edited = node → (editNode sv wvalue.nodeId fun _ => (edited, retval)).1 = sv := by
      rintro rfl
      unfold editNode
      rw [hget]
      dsimp only
      rw [Keyed.modify_self]
      exact fun found hfound => Option.some.inj (hget.symm.trans hfound)
    generalize editNode sv wvalue.nodeId (fun _ => (edited, retval)) = written at *
    obtain ⟨sv', status⟩ := written
    obtain rfl : status = retval := hstatus
    have hself : sv'.get wvalue.nodeId = some edited := (hget' wvalue.nodeId).trans (if_pos rfl)
    rw [hwrite]
    dsimp only
    constructor
    · rintro ⟨hrefused, hwritten⟩
      by_cases hgood : status = StatusCode.good
      · obtain ⟨node₁, node', hget₁, hall, hsafe⟩ := hwritten hgood
        obtain rfl := Option.some.inj (hget.symm.trans hget₁)
        have hsame := (hall wvalue.nodeId).trans (if_pos rfl)
        obtain rfl := Option.some.inj (hself.symm.trans hsame)
        exact hsafe
      · rw [hrefused hgood, hget] at hself
        obtain rfl := Option.some.inj hself
        exact nodeSafe_refused hgood
    · intro hsafe
      exact ⟨fun hbad => hkept (hsafe.refused hbad), fun _ => ⟨node, edited, hget, hget', hsafe⟩⟩

/-- A write of a session that is not the administrator's changes nothing but the addressed
attribute, by right and to what the attribute takes, exactly if what the checks of the value and of
the array dimensions overlook does not matter. -/
theorem writeSafe_iff (w : WriteWorld α) (access : AccessControl) (sv : Server (NodeAttributes α))
    (wvalue : WriteValue α) (n : Nat) (hcopy : ∀ n, w.copyAttribute n = StatusCode.good)
    (hsource : ∀ node, sv.get wvalue.nodeId = some node → node.attributes.value ≠ .dataSource)
    (hreceived : Received w.toOutside wvalue.value.value) :
    WriteSafe w access sv wvalue n ↔ WriteGuard w access sv wvalue n := by
  cases hget : sv.get wvalue.nodeId with
  | none =>
    refine iff_of_true ?_ fun node hnode => ?_
    · unfold WriteSafe writeNode
      rw [hget]
      exact ⟨fun _ => rfl, fun hgood => absurd (show StatusCode.badNodeIdUnknown = _ from hgood)
        (by decide)⟩
    · rw [hget] at hnode
      cases hnode
  | some node =>
    have hguard : WriteGuard w access sv wvalue n ↔
        (wvalue.attributeId.toNat = 13 → MayWriteValue access node →
          ValueGuard w sv wvalue n node) ∧
        (wvalue.attributeId.toNat = 16 → node.nodeClass ∈ [.variable, .variableType] →
          userWriteMask (some access) node &&& ((1 : UInt32) <<< 1) ≠ 0 →
          DimensionsGuard w sv wvalue node) := by
      constructor
      · exact fun hall => hall node hget
      · intro hboth node' hnode'
        obtain rfl := Option.some.inj (hget.symm.trans hnode')
        exact hboth
    rw [writeSafe_iff_outcome hget, hguard]
    cases hstored : node.attributes.value with
    | dataSource => exact absurd hstored (hsource node hget)
    | data stored =>
      by_cases hvalue : wvalue.attributeId.toNat = 13
      · rw [outcome_value_iff hcopy hvalue hstored hreceived]
        refine ⟨fun hval => ⟨fun _ => hval, fun hdims => ?_⟩, fun hboth => hboth.1 hvalue⟩
        rw [hvalue] at hdims
        exact absurd hdims (by decide)
      · by_cases hdims : wvalue.attributeId.toNat = 16
        · rw [outcome_arrayDimensions_iff hcopy hstored hdims]
          exact ⟨fun h => ⟨fun hval => absurd hval hvalue, fun _ => h⟩, fun hboth => hboth.2 hdims⟩
        · refine iff_of_true (outcome_of_meets (meets_copyAttributeIntoNode hvalue hdims) n) ?_
          exact ⟨fun hval => absurd hval hvalue, fun h => absurd h hdims⟩

/-- Every number is the content of attributes that are numbers. -/
def numberContents : Contents Nat where
  qualifiedName x := ⟨x.toUInt16, []⟩
  localizedText _ := ⟨[], []⟩
  uint32 x := x.toUInt32
  boolean x := x != 0
  byte x := x.toUInt8
  nodeId x := ⟨1, .numeric x.toUInt32⟩
  int32 x := x
  double x := x.toUInt64

def numberWrites : WriteWorld Nat where
  toOutside := quietOutside
  contents := numberContents

def openNode (attributes : VariableAttributes Nat) : Node (NodeAttributes Nat) :=
  (countersNode attributes).mapAttributes fun a =>
    { toVariableAttributes := a, description := ⟨[], []⟩, writeMask := 0xFFFFFFFF,
      accessLevel := 0xFF, minimumSamplingInterval := 0, historizing := false, symmetric := false,
      inverseName := ⟨[], []⟩, containsNoLoops := false, eventNotifier := 0, executable := false }

def openServer (attributes : VariableAttributes Nat) : Server (NodeAttributes Nat) :=
  ⟨[openNode attributes], 2, 0⟩

def anyNumbers : VariableAttributes Nat := numbers 1 [] emptyDataValue

def wholeValue (value : UaVariant Nat) : WriteValue Nat := ⟨counters, 13, .null, bareValue value⟩

/-- Two numbers are written. -/
theorem writeSafe_pair :
    WriteSafe numberWrites nodesDecide (openServer anyNumbers) (wholeValue pair) 0 := by
  refine (writeSafe_iff _ _ _ _ _ (fun _ => rfl) ?_ ?_).mpr ?_
  · rintro node ⟨⟩
    exact nofun
  · exact ⟨fun h => absurd h (by decide), nofun, by decide, nofun⟩
  · rintro node ⟨⟩
    refine ⟨fun _ _ => ?_, fun hid => absurd hid (by decide)⟩
    unfold ValueGuard
    rw [if_pos (show (wholeValue pair).indexRange.length = 0 from rfl)]
    exact fun _ _ _ => ⟨rfl, fun hne => absurd rfl hne, fun _ _ h => absurd h (by decide), nofun⟩

/-- The square is stored in the array. -/
theorem square_unsafe :
    ¬ WriteSafe numberWrites nodesDecide (openServer anyNumbers) (wholeValue square) 0 := by
  have hwrite : (writeNode numberWrites (openServer anyNumbers) (some nodesDecide)
      (wholeValue square)).run 0 =
      .ok ((openServer (numbers 1 [] (storedValue square)), StatusCode.good), 2) := by
    rfl
  unfold WriteSafe
  rw [hwrite]
  rintro ⟨-, hwritten⟩
  obtain ⟨node, node', hget, hall, hsafe⟩ := hwritten rfl
  obtain rfl := Option.some.inj hget
  obtain rfl := Option.some.inj ((hall counters).trans (if_pos rfl))
  have hfitting := hsafe.fitting rfl
  unfold Fitting at hfitting
  rw [if_pos (show (wholeValue square).attributeId.toNat = 13 from rfl),
    if_pos (show (wholeValue square).indexRange.length = 0 from rfl)] at hfitting
  obtain ⟨-, stored, hstored, hconforms⟩ := hfitting
  obtain rfl := ValueSource.data.inj hstored
  have hrank := hconforms.rank (.inl (by decide))
  unfold RankAllows at hrank
  have hlength : (valueDimensions (storedValue square).value).length = 2 := rfl
  have hnumber : (openNode anyNumbers).attributes.valueRank = 1 := rfl
  rw [hlength, hnumber] at hrank
  omega

end FactoryThing.Attributes
