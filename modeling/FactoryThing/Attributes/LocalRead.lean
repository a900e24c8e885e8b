import FactoryThing.Attributes.Writing
import FactoryThing.Variables.Disclosure
import Mathlib.Tactic.ByContra

/-!
# Reads of the server itself

`UA_Server_read` and `__UA_Server_read` (`src/server/ua_services_attribute.c:978-1038`) read an
attribute with the rights of the administrator, the one as a data value, the other as a status code
and a value. In place of the status of the data value the other one returns whether there is one.
-/

namespace FactoryThing.Attributes

open AddressSpace Variables Variants Stateful
open Subscriptions (ReadValueId attributeIdValue timestampsToReturnNeither binaryEncoding)

variable {α : Type}

variable {r : StatusCode × ReadResult α}

def attributeIdArrayDimensions : UInt32 := 16

/-- What the caller of `__UA_Server_read` finds where it wants the value: what was there, zeros, the
entire variant or its content. -/
inductive Output (α : Type) where
  | untouched
  | cleared
  | variant (x : ReadVariant α)
  | content (x : ReadVariant α)
  deriving DecidableEq

section Reads

variable (access : AccessControl) (env : ReadEnv α) (sv : Server (NodeAttributes α))

/-- The attributes other than the value (`:753-845`). Three of them are asked for on behalf of the
session. -/
def adminReadOther (node : Node (NodeAttributes α)) (attributeId : UInt32) :
    StatusCode × ReadResult α :=
  match attributeId.toNat with
  | 7 => readComputed env node everyClass (.uint32 (userWriteMask none node))
  | 18 => readComputed env node [.variable] (.byte (userAccessLevel none node))
  | 22 => readComputed env node [.method] (.boolean true)
  | _ => readOtherAttribute access env node attributeId

/-- The switch over the attributes (`:752-848`). -/
def adminReadAttribute (node : Node (NodeAttributes α)) (timestamps : UInt32) (id : ReadValueId) :
    RangeM (StatusCode × ReadResult α) :=
  if id.attributeId = attributeIdValue then
    if node.nodeClass ∈ [.variable, .variableType] then
      readValueAttributeComplete env node timestamps id.indexRange
    else return (StatusCode.badAttributeIdInvalid, .ofVariant .empty false)
  else return adminReadOther access env node id.attributeId

/-- `Service_Read_single` (`:721-878`) for the administrator. -/
def adminReadSingle (timestamps : UInt32) (id : ReadValueId) : RangeM (ReadResult α) :=
  if id.dataEncoding.name.length > 0 ∧ id.dataEncoding.name ≠ binaryEncoding then
    return .ofStatus StatusCode.badDataEncodingUnsupported
  else if id.indexRange.length > 0 ∧ id.attributeId ≠ attributeIdValue then
    return .ofStatus StatusCode.badIndexRangeNoData
  else
    match sv.get id.nodeId with
    | none => return .ofStatus StatusCode.badNodeIdUnknown
    | some node => do
      let (retval, v) ← adminReadAttribute access env node timestamps id
      if retval ≠ StatusCode.good then return v.withStatus retval
      else return withTimestamps env timestamps id.attributeId { v with hasValue := true }

/-- `UA_Server_read` (`:978-988`). -/
def serverRead (item : ReadValueId) (timestamps : UInt32) : RangeM (ReadResult α) :=
  adminReadSingle access env sv timestamps item

/-- A value that is borrowed from the node is copied, with the status of `UA_copy`
(`src/ua_types.c:904-910`), which clears its target first. Any other value is moved. -/
def handOver (copy : StatusCode) (noDelete : Bool) (output : Output α) : StatusCode × Output α :=
  if noDelete = true then
    if copy = StatusCode.good then (copy, output) else (copy, .cleared)
  else (StatusCode.good, output)

def isNull : ReadVariant α → Bool
  | .empty => true
  | _ => false

/-- What becomes of the data value (`:1003-1037`). -/
def prepareResult (copy : StatusCode) (attributeId : UInt32) (dv : ReadResult α) :
    Except RangeFault (StatusCode × Output α) :=
  let retval :=
    if dv.content.hasStatus = true then 1
    else if dv.hasValue = false then StatusCode.badUnexpectedError
    else StatusCode.good
  if retval ≠ StatusCode.good then .ok (retval, .untouched)
  else if attributeId = attributeIdValue ∨ attributeId = attributeIdArrayDimensions then
    .ok (handOver copy dv.noDelete (.variant dv.content.value))
  else if isNull dv.content.value = true then .error .nullDeref
  else .ok (handOver copy dv.noDelete (.content dv.content.value))

/-- What is read locally: an attribute as a whole. -/
def wholeAttribute (nodeId : NodeKey) (attributeId : UInt32) : ReadValueId :=
  { (default : ReadValueId) with nodeId := nodeId, attributeId := attributeId }

/-- `__UA_Server_read` (`:990-1038`). -/
def serverReadAttribute (copy : StatusCode) (nodeId : NodeKey) (attributeId : UInt32) :
    RangeM (StatusCode × Output α) := do
  let dv ← serverRead access env sv (wholeAttribute nodeId attributeId) timestampsToReturnNeither
  prepareResult copy attributeId dv

/-- The severity of a status code is Bad. -/
def isBad (status : StatusCode) : Bool := status &&& 0x80000000 != 0

def reported (v : ReadResult α) : StatusCode :=
  if v.content.hasStatus = true then v.content.status else StatusCode.good

def handed (attributeId : UInt32) (x : ReadVariant α) : Output α :=
  if attributeId = attributeIdValue ∨ attributeId = attributeIdArrayDimensions then .variant x
  else .content x

/-- The local read of what the Read service has read: a value without a bad status is returned as
Good, anything else is its status, and nothing is written. -/
def Agrees (attributeId : UInt32) (v : ReadResult α)
    (r : Except RangeFault (StatusCode × Output α)) : Prop :=
  if v.hasValue = true ∧ isBad (reported v) = false then
    r = .ok (StatusCode.good, handed attributeId v.content.value)
  else r = .ok (reported v, .untouched)

/-- The two interfaces agree on an attribute. -/
def ReadsAlike (copy : StatusCode) (nodeId : NodeKey) (attributeId : UInt32) : Prop :=
  ∃ v, (serverRead access env sv (wholeAttribute nodeId attributeId)
      timestampsToReturnNeither).run' 0 = .ok v ∧
    Agrees attributeId v ((serverReadAttribute access env sv copy nodeId attributeId).run' 0)

/-- The classes of nodes that have an attribute other than the value. -/
def attributeClasses : Nat → List NodeClass
  | 1 | 2 | 3 | 4 | 5 | 6 | 7 => everyClass
  | 8 => [.referenceType, .objectType, .variableType, .dataType]
  | 9 | 10 => [.referenceType]
  | 11 => [.view]
  | 12 => [.view, .object]
  | 14 | 15 | 16 => [.variable, .variableType]
  | 17 | 18 | 19 | 20 => [.variable]
  | 21 | 22 => [.method]
  | _ => []

def computedAttributes : List Nat := [7, 18, 22]

/-- The value is there without a status, and can be copied where it is borrowed. A data source may
also answer with the very status that is returned for every other one, without a value. -/
def PlainValue (copy : StatusCode) (node : Node (NodeAttributes α)) : Prop :=
  node.nodeClass ∈ [.variable, .variableType] ∧
    match node.attributes.value with
    | .data value => value.hasStatus = false ∧ copy = StatusCode.good
    | .dataSource => ∃ retval value noDelete,
        env.readSource node.nodeId false none = some (retval, value, noDelete) ∧
          (retval = StatusCode.good ∧ value.hasStatus = false ∧
              (noDelete = true → copy = StatusCode.good) ∨
            retval = 1 ∧ value.hasValue = false)

/-- The node has the attribute, without a status, and it can be copied. -/
def Plain (copy : StatusCode) (node : Node (NodeAttributes α)) (attributeId : UInt32) : Prop :=
  if attributeId = attributeIdValue then PlainValue env copy node
  else
    node.nodeClass ∈ attributeClasses attributeId.toNat ∧
      if attributeId.toNat ∈ computedAttributes then env.scalarCopied = true
      else copy = StatusCode.good

end Reads

structure Handed (copy : StatusCode) (attributeId : UInt32) (v : ReadResult α) : Prop where
  copied : v.noDelete = true → copy = StatusCode.good
  content : ¬ (attributeId = attributeIdValue ∨ attributeId = attributeIdArrayDimensions) →
    isNull v.content.value = false

theorem handOver_eq_iff {copy : StatusCode} {noDelete : Bool} {output : Output α} :
    handOver copy noDelete output = (StatusCode.good, output) ↔
      (noDelete = true → copy = StatusCode.good) := by
  unfold handOver
  split
  · rename_i hborrowed
    split
    · rename_i hcopied
      exact iff_of_true (by rw [hcopied]) fun _ => hcopied
    · rename_i hfailed
      exact iff_of_false (fun h => hfailed (congrArg Prod.fst h)) fun h => hfailed (h hborrowed)
  · rename_i howned
    exact iff_of_true rfl fun h => absurd h howned

variable {access : AccessControl} {env : ReadEnv α} {sv : Server (NodeAttributes α)}
  {node : Node (NodeAttributes α)} {copy : StatusCode} {nodeId : NodeKey} {attributeId : UInt32}
  {v : ReadResult α}

theorem agrees_of_status (hstatus : v.content.hasStatus = true) :
    Agrees attributeId v (prepareResult copy attributeId v) ↔
      v.content.status = 1 ∧ v.hasValue = false := by
  have hresult : prepareResult copy attributeId v = .ok (1, .untouched) := by
    unfold prepareResult
    simp only [if_pos hstatus]
    rfl
  have hreported : reported v = v.content.status := if_pos hstatus
  unfold Agrees
  rw [hresult, hreported]
  constructor
  · intro hagrees
    split at hagrees
    · cases hagrees
    · rename_i hbad
      have hone : v.content.status = 1 := by
        injection hagrees with hpair
        exact (congrArg Prod.fst hpair).symm
      rw [hone] at hbad
      exact ⟨hone, Bool.eq_false_iff.mpr fun hhas => hbad ⟨hhas, by decide⟩⟩
  · rintro ⟨hone, hempty⟩
    rw [if_neg (by simp [hempty]), hone]

theorem agrees_of_value (hstatus : v.content.hasStatus = false) (hvalue : v.hasValue = true) :
    Agrees attributeId v (prepareResult copy attributeId v) ↔ Handed copy attributeId v := by
  have hreported : reported v = StatusCode.good := by
    unfold reported
    rw [hstatus]
    rfl
  unfold Agrees
  rw [hreported, if_pos ⟨hvalue, by decide⟩]
  unfold prepareResult handed
  simp only [hstatus, hvalue, Bool.false_eq_true, if_false, ne_eq, not_true_eq_false,
    Bool.true_eq_false]
  by_cases hentire : attributeId = attributeIdValue ∨ attributeId = attributeIdArrayDimensions
  · rw [if_pos hentire, if_pos hentire, Except.ok.injEq, handOver_eq_iff]
    exact ⟨fun hcopied => ⟨hcopied, fun hno => absurd hentire hno⟩, fun h => h.copied⟩
  · rw [if_neg hentire, if_neg hentire]
    by_cases hnull : isNull v.content.value = true
    · rw [if_pos hnull]
      refine iff_of_false nofun fun h => ?_
      rw [h.content hentire] at hnull
      cases hnull
    · rw [if_neg hnull, Except.ok.injEq, handOver_eq_iff]
      exact ⟨fun hcopied => ⟨hcopied, fun _ => Bool.eq_false_iff.mpr hnull⟩, fun h => h.copied⟩

/-- An attribute other than the value is there, borrowed or computed, or it is not. -/
def IsRead (env : ReadEnv α) (node : Node (NodeAttributes α)) (k : Nat)
    (r : StatusCode × ReadResult α) : Prop :=
  (node.nodeClass ∈ attributeClasses k ∧ ∃ x, isNull x = false ∧
      r = (StatusCode.good,
        if k ∈ computedAttributes then .ofVariant (if env.scalarCopied then x else .empty) false
        else .ofVariant x true)) ∨
    (node.nodeClass ∉ attributeClasses k ∧
      r = (StatusCode.badAttributeIdInvalid, .ofVariant .empty false))

theorem isRead_borrowed {k : Nat} {classes : List NodeClass} {x : ReadVariant α}
    (hclasses : attributeClasses k = classes) (hk : k ∉ computedAttributes)
    (hx : isNull x = false) : IsRead env node k (readBorrowed node classes x) := by
  subst hclasses
  unfold readBorrowed
  by_cases hclass : node.nodeClass ∈ attributeClasses k
  · refine .inl ⟨hclass, x, hx, ?_⟩
    rw [if_pos hclass, if_neg hk]
  · exact .inr ⟨hclass, if_neg hclass⟩

theorem isRead_computed {k : Nat} {classes : List NodeClass} {x : ReadVariant α}
    (hclasses : attributeClasses k = classes) (hk : k ∈ computedAttributes)
    (hx : isNull x = false) : IsRead env node k (readComputed env node classes x) := by
  subst hclasses
  unfold readComputed
  by_cases hclass : node.nodeClass ∈ attributeClasses k
  · refine .inl ⟨hclass, x, hx, ?_⟩
    rw [if_pos hclass, if_pos hk]
  · exact .inr ⟨hclass, if_neg hclass⟩

theorem isRead_adminReadOther :
    IsRead env node attributeId.toNat (adminReadOther access env node attributeId) := by
  unfold adminReadOther readOtherAttribute
  generalize attributeId.toNat = k
  split
  case h_1 | h_2 | h_3 => exact isRead_computed rfl (by decide) rfl
  case h_4 =>
    split
    case h_7 | h_17 | h_21 => contradiction
    case h_22 =>
      refine .inr ⟨?_, rfl⟩
      unfold attributeClasses
      split <;> first | contradiction | exact List.not_mem_nil
    all_goals exact isRead_borrowed rfl (by decide) rfl

theorem withTimestamps_kept (timestamps : UInt32) :
    (withTimestamps env timestamps attributeId v).hasValue = v.hasValue ∧
      (withTimestamps env timestamps attributeId v).noDelete = v.noDelete ∧
      (withTimestamps env timestamps attributeId v).content.hasStatus = v.content.hasStatus ∧
      (withTimestamps env timestamps attributeId v).content.value = v.content.value := by
  unfold withTimestamps
  dsimp only
  split_ifs
  all_goals exact ⟨rfl, rfl, rfl, rfl⟩

/-- The result of a read of an attribute as a data value. -/
def resultOf (env : ReadEnv α) (attributeId : UInt32) (r : StatusCode × ReadResult α) :
    ReadResult α :=
  if r.1 ≠ StatusCode.good then r.2.withStatus r.1
  else withTimestamps env timestampsToReturnNeither attributeId { r.2 with hasValue := true }

theorem agrees_of_failed (hbad : r.1 ≠ StatusCode.good) :
    Agrees attributeId (resultOf env attributeId r)
        (prepareResult copy attributeId (resultOf env attributeId r)) ↔
      r.1 = 1 ∧ r.2.hasValue = false := by
  have hresult : resultOf env attributeId r = r.2.withStatus r.1 := if_pos hbad
  rw [hresult]
  exact agrees_of_status rfl

theorem agrees_of_good (hgood : r.1 = StatusCode.good) :
    Agrees attributeId (resultOf env attributeId r)
        (prepareResult copy attributeId (resultOf env attributeId r)) ↔
      r.2.content.hasStatus = false ∧ Handed copy attributeId r.2 := by
  have hresult : resultOf env attributeId r = withTimestamps env timestampsToReturnNeither
      attributeId { r.2 with hasValue := true } := if_neg (not_not.mpr hgood)
  obtain ⟨hvalue, hborrowed, hstatus, hcontent⟩ := @withTimestamps_kept _ env attributeId
    { r.2 with hasValue := true } timestampsToReturnNeither
  rw [← hresult] at hvalue hborrowed hstatus hcontent
  cases hs : r.2.content.hasStatus with
  | true =>
    rw [agrees_of_status (hstatus.trans hs)]
    refine iff_of_false (fun h => ?_) (fun h => nomatch h.1)
    rw [hvalue] at h
    cases h.2
  | false =>
    rw [agrees_of_value (hstatus.trans hs) hvalue]
    constructor
    · intro h
      refine ⟨rfl, ⟨fun hb => h.copied (hborrowed.trans hb), fun hentire => ?_⟩⟩
      exact (congrArg isNull hcontent).symm.trans (h.content hentire)
    · rintro ⟨-, h⟩
      refine ⟨fun hb => h.copied (hborrowed.symm.trans hb), fun hentire => ?_⟩
      exact (congrArg isNull hcontent).trans (h.content hentire)

theorem serverRead_whole : serverRead access env sv (wholeAttribute nodeId attributeId)
      timestampsToReturnNeither =
    match sv.get nodeId with
    | none => return .ofStatus StatusCode.badNodeIdUnknown
    | some node => do
      let r ← adminReadAttribute access env node timestampsToReturnNeither
        (wholeAttribute nodeId attributeId)
      return resultOf env attributeId r := by
  have hname : ¬ (wholeAttribute nodeId attributeId).dataEncoding.name.length > 0 :=
    Nat.lt_irrefl 0
  have hrange : ¬ (wholeAttribute nodeId attributeId).indexRange.length > 0 := Nat.lt_irrefl 0
  unfold serverRead adminReadSingle
  have hid : (wholeAttribute nodeId attributeId).nodeId = nodeId := rfl
  rw [hid]
  unfold resultOf
  cases sv.get nodeId with
  | none => rfl
  | some node =>
    refine bind_congr fun r => ?_
    obtain ⟨retval, v⟩ := r
    by_cases hgood : retval = StatusCode.good
    · subst hgood
      rfl
    · dsimp only
      rw [if_pos hgood, if_pos hgood]

theorem readsAlike_iff {dv : ReadResult α} (hserver : (serverRead access env sv
      (wholeAttribute nodeId attributeId) timestampsToReturnNeither).run 0 = .ok (dv, 0)) :
    ReadsAlike access env sv copy nodeId attributeId ↔
      Agrees attributeId dv (prepareResult copy attributeId dv) := by
  have hfirst : (serverRead access env sv (wholeAttribute nodeId attributeId)
      timestampsToReturnNeither).run' 0 = .ok dv := congrArg (Except.map Prod.fst) hserver
  have hsecond : (serverReadAttribute access env sv copy nodeId attributeId).run' 0 =
      prepareResult copy attributeId dv := by
    have hrun : (serverReadAttribute access env sv copy nodeId attributeId).run 0 =
        (prepareResult copy attributeId dv).map fun r => (r, 0) := by
      unfold serverReadAttribute
      rw [run_bind_of_ok hserver]
      cases prepareResult copy attributeId dv with
      | error fault => rfl
      | ok r => rfl
    refine (congrArg (Except.map Prod.fst) hrun).trans ?_
    cases prepareResult copy attributeId dv with
    | error fault => rfl
    | ok r => rfl
  unfold ReadsAlike
  rw [hfirst, hsecond]
  constructor
  · rintro ⟨v, hv, hagrees⟩
    obtain rfl := Except.ok.inj hv
    exact hagrees
  · exact fun hagrees => ⟨dv, rfl, hagrees⟩

theorem not_readsAlike_of_unknown (hget : sv.get nodeId = none) :
    ¬ ReadsAlike access env sv copy nodeId attributeId := by
  have hserver : (serverRead access env sv (wholeAttribute nodeId attributeId)
      timestampsToReturnNeither).run 0 = .ok (.ofStatus StatusCode.badNodeIdUnknown, 0) := by
    rw [serverRead_whole, hget]
    rfl
  rw [readsAlike_iff hserver, agrees_of_status rfl]
  exact fun h => absurd h.1 (show StatusCode.badNodeIdUnknown ≠ 1 by decide)

theorem readsAlike_of_node (hget : sv.get nodeId = some node)
    (hread : (adminReadAttribute access env node timestampsToReturnNeither
      (wholeAttribute nodeId attributeId)).run 0 = .ok (r, 0)) :
    ReadsAlike access env sv copy nodeId attributeId ↔
      (r.1 = StatusCode.good ∧ r.2.content.hasStatus = false ∧ Handed copy attributeId r.2) ∨
        (r.1 = 1 ∧ r.2.hasValue = false) := by
  have hserver : (serverRead access env sv (wholeAttribute nodeId attributeId)
      timestampsToReturnNeither).run 0 = .ok (resultOf env attributeId r, 0) := by
    rw [serverRead_whole, hget]
    dsimp only
    rw [run_bind_of_ok hread]
    rfl
  rw [readsAlike_iff hserver]
  by_cases hgood : r.1 = StatusCode.good
  · rw [agrees_of_good hgood]
    refine ⟨fun h => .inl ⟨hgood, h⟩, ?_⟩
    rintro (⟨-, h⟩ | ⟨hone, -⟩)
    · exact h
    · exact absurd (hgood.symm.trans hone) (by decide)
  · rw [agrees_of_failed hgood]
    refine ⟨.inr, ?_⟩
    rintro (⟨hyes, -⟩ | h)
    · exact absurd hyes hgood
    · exact h

theorem not_readsAlike_of_failed (hget : sv.get nodeId = some node)
    (hread : (adminReadAttribute access env node timestampsToReturnNeither
      (wholeAttribute nodeId attributeId)).run 0 = .ok (r, 0))
    (hbad : r.1 ≠ StatusCode.good) (hone : r.1 ≠ 1) :
    ¬ ReadsAlike access env sv copy nodeId attributeId := by
  rw [readsAlike_of_node hget hread]
  rintro (h | h)
  · exact hbad h.1
  · exact hone h.1

theorem adminReadAttribute_value : adminReadAttribute access env node timestampsToReturnNeither
      (wholeAttribute nodeId attributeIdValue) =
    if node.nodeClass ∈ [.variable, .variableType] then
      readValueAttributeComplete env node timestampsToReturnNeither []
    else return (StatusCode.badAttributeIdInvalid, .ofVariant .empty false) := rfl

theorem readsAlike_value_iff (hget : sv.get nodeId = some node) :
    ReadsAlike access env sv copy nodeId attributeIdValue ↔ PlainValue env copy node := by
  have hread := @adminReadAttribute_value _ access env node nodeId
  unfold PlainValue
  by_cases hclass : node.nodeClass ∈ [.variable, .variableType]
  swap
  · rw [if_neg hclass] at hread
    refine iff_of_false ?_ fun h => hclass h.1
    exact not_readsAlike_of_failed hget (congrArg (fun x => x.run 0) hread)
      (show StatusCode.badAttributeIdInvalid ≠ _ by decide)
      (show StatusCode.badAttributeIdInvalid ≠ _ by decide)
  rw [if_pos hclass] at hread
  unfold readValueAttributeComplete at hread
  cases hvalue : node.attributes.value with
  | data value =>
    rw [hvalue] at hread
    rw [readsAlike_of_node hget (congrArg (fun x => x.run 0) hread)]
    constructor
    · rintro (⟨-, hstatus, hhanded⟩ | ⟨hone, -⟩)
      · exact ⟨hclass, hstatus, hhanded.copied rfl⟩
      · exact absurd hone (show StatusCode.good ≠ 1 by decide)
    · rintro ⟨-, hstatus, hcopied⟩
      exact .inl ⟨rfl, hstatus, fun _ => hcopied, fun hentire => absurd (.inl rfl) hentire⟩
  | dataSource =>
    rw [hvalue] at hread
    rw [readsAlike_of_node hget (congrArg (fun x => x.run 0) hread)]
    dsimp only
    unfold readValueAttributeFromDataSource
    rw [show (timestampsToReturnNeither == timestampsToReturnSource ||
      timestampsToReturnNeither == timestampsToReturnBoth) = false from rfl]
    dsimp only
    cases hsource : env.readSource node.nodeId false none with
    | none =>
      refine iff_of_false ?_ ?_
      · rintro (h | h)
        · exact absurd h.1 (show StatusCode.badInternalError ≠ _ by decide)
        · exact absurd h.1 (show StatusCode.badInternalError ≠ _ by decide)
      · rintro ⟨-, _, _, _, hsome, -⟩
        cases hsome
    | some answered =>
      obtain ⟨retval, value, noDelete⟩ := answered
      dsimp only
      constructor
      · rintro (⟨hgood, hstatus, hhanded⟩ | hone)
        · exact ⟨hclass, _, _, _, rfl, .inl ⟨hgood, hstatus, hhanded.copied⟩⟩
        · exact ⟨hclass, _, _, _, rfl, .inr hone⟩
      · rintro ⟨-, _, _, _, hsome, h⟩
        cases hsome
        obtain ⟨hgood, hstatus, hcopied⟩ | hone := h
        · exact .inl ⟨hgood, hstatus, hcopied, fun hentire => absurd (.inl rfl) hentire⟩
        · exact .inr hone

theorem content_of_computed (h : attributeId.toNat ∈ computedAttributes) :
    ¬ (attributeId = attributeIdValue ∨ attributeId = attributeIdArrayDimensions) := by
  rintro (rfl | rfl)
  · exact absurd h (by decide)
  · exact absurd h (by decide)

theorem readsAlike_other_iff (hget : sv.get nodeId = some node)
    (hother : attributeId ≠ attributeIdValue) :
    ReadsAlike access env sv copy nodeId attributeId ↔
      node.nodeClass ∈ attributeClasses attributeId.toNat ∧
        if attributeId.toNat ∈ computedAttributes then env.scalarCopied = true
        else copy = StatusCode.good := by
  have hread : (adminReadAttribute access env node timestampsToReturnNeither
      (wholeAttribute nodeId attributeId)).run 0 =
      .ok (adminReadOther access env node attributeId, 0) := by
    unfold adminReadAttribute
    rw [if_neg (show (wholeAttribute nodeId attributeId).attributeId ≠ _ from hother)]
    rfl
  obtain ⟨hclass, x, hx, heq⟩ | ⟨hclass, heq⟩ :=
    @isRead_adminReadOther _ access env node attributeId
  swap
  · rw [heq] at hread
    refine iff_of_false ?_ fun h => hclass h.1
    exact not_readsAlike_of_failed hget hread
      (show StatusCode.badAttributeIdInvalid ≠ _ by decide)
      (show StatusCode.badAttributeIdInvalid ≠ _ by decide)
  rw [heq] at hread
  rw [readsAlike_of_node hget hread]
  have hgood : StatusCode.good ≠ 1 := by decide
  refine Iff.trans ?_ (and_iff_right hclass).symm
  by_cases hcomputed : attributeId.toNat ∈ computedAttributes
  · rw [if_pos hcomputed, if_pos hcomputed]
    constructor
    · rintro (⟨-, -, hhanded⟩ | ⟨hone, -⟩)
      · by_contra hno
        have hnull := hhanded.content (content_of_computed hcomputed)
        rw [if_neg hno] at hnull
        cases hnull
      · exact absurd hone hgood
    · intro hcopied
      rw [if_pos hcopied]
      exact .inl ⟨rfl, rfl, nofun, fun _ => hx⟩
  · rw [if_neg hcomputed, if_neg hcomputed]
    constructor
    · rintro (⟨-, -, hhanded⟩ | ⟨hone, -⟩)
      · exact hhanded.copied rfl
      · exact absurd hone hgood
    · exact fun hcopied => .inl ⟨rfl, rfl, fun _ => hcopied, fun _ => hx⟩

/-- A local read reports what the Read service reports exactly if there is nothing but a value to
report, which can be copied. -/
theorem readsAlike_iff_plain (access : AccessControl) (env : ReadEnv α)
    (sv : Server (NodeAttributes α)) (copy : StatusCode) (nodeId : NodeKey)
    (attributeId : UInt32) :
    ReadsAlike access env sv copy nodeId attributeId ↔
      ∃ node, sv.get nodeId = some node ∧ Plain env copy node attributeId := by
  cases hget : sv.get nodeId with
  | none =>
    refine iff_of_false (not_readsAlike_of_unknown hget) ?_
    rintro ⟨node, hnode, -⟩
    cases hnode
  | some node =>
    have hplain : (∃ node', some node = some node' ∧ Plain env copy node' attributeId) ↔
        Plain env copy node attributeId := by
      constructor
      · rintro ⟨node', hnode', hplain⟩
        obtain rfl := Option.some.inj hnode'
        exact hplain
      · exact fun hplain => ⟨node, rfl, hplain⟩
    rw [hplain]
    unfold Plain
    by_cases hvalue : attributeId = attributeIdValue
    · subst hvalue
      rw [if_pos rfl]
      exact readsAlike_value_iff hget
    · rw [if_neg hvalue]
      exact readsAlike_other_iff hget hvalue

/-- An unknown node is reported with a status code that is not Bad. -/
theorem unknown_not_reported :
    ¬ ReadsAlike nodesDecide plainEnv ⟨[], 2, 0⟩ StatusCode.good nullId 13 := by
  rintro ⟨v, hread, hagrees⟩
  obtain rfl : ReadResult.ofStatus StatusCode.badNodeIdUnknown = v := Except.ok.inj hread
  unfold Agrees at hagrees
  rw [if_neg (fun h => absurd h.1 (by decide))] at hagrees
  have hreturned : (serverReadAttribute nodesDecide plainEnv ⟨[], 2, 0⟩ StatusCode.good nullId
      13).run' 0 = .ok (1, .untouched) := rfl
  rw [hreturned] at hagrees
  injection hagrees with hpair
  exact absurd (congrArg Prod.fst hpair) (by decide)

end FactoryThing.Attributes
