import FactoryThing.Encoding.Returned

/-!
# Decoded values survive the wire

A value that the decoder returned is one the encoder accepts, and its encoding is decoded to the
same value again. Each function of the decoder reads back what its encoder writes for a regular
value (`ReadsBack`); for what is nested in an ExtensionObject or a Variant this is an assumption of
the single functions, and the induction is on the number of bytes.
-/

namespace FactoryThing.Encoding

open Stateful DecodeState

variable {α β : Type} {env : DecodeEnv}

def nullNodeId (n : NodeId) : NodeId :=
  { n with identifier :=
      match n.identifier with
      | .string s => .string (nullString s)
      | .byteString s => .byteString (nullString s)
      | i => i }

def nullBody : EncodedBody → EncodedBody
  | .noBody => .noBody
  | .byteString s => .byteString (nullString s)
  | .xml s => .xml (nullString s)

/-- The DiagnosticInfo with every empty string undefined. -/
def nullInfo : DiagnosticInfo → DiagnosticInfo
  | .mk symbolicId namespaceUri localizedText locale additionalInfo innerStatusCode inner =>
    .mk symbolicId namespaceUri localizedText locale (additionalInfo.map nullString) innerStatusCode
      (match inner with
        | some d => some (nullInfo d)
        | none => none)

mutual

/-- The value with every empty string undefined. -/
def nullValue : Value → Value
  | .string s => .string (nullString s)
  | .nodeId n => .nodeId (nullNodeId n)
  | .expandedNodeId n =>
    .expandedNodeId { n with
      nodeId := nullNodeId n.nodeId, namespaceUri := nullString n.namespaceUri }
  | .localizedText t => .localizedText ⟨nullString t.locale, nullString t.text⟩
  | .encodedObject typeId body => .encodedObject (nullNodeId typeId) (nullBody body)
  | .decodedObject type data => .decodedObject type (nullValue data)
  | .dataValue hasValue value fields => .dataValue hasValue (nullVariant value) fields
  | .variant v => .variant (nullVariant v)
  | .diagnosticInfo d => .diagnosticInfo (nullInfo d)
  | .structure members => .structure (nullMembers members)
  | v => v

def nullVariant : Variant → Variant
  | .scalar type data => .scalar type (nullValue data)
  | .array type data dims => .array type (nullArray data) dims
  | .wrapped type data => .wrapped type (nullValue data)
  | .wrappedArray type data dims => .wrappedArray type (nullValues data) dims
  | v => v

def nullArray : ArrayData → ArrayData
  | .elements data => .elements (nullValues data)
  | a => a

def nullMembers : Members → Members
  | .nil => .nil
  | .scalar v rest => .scalar (nullValue v) (nullMembers rest)
  | .array a rest => .array (nullArray a) (nullMembers rest)

def nullValues : Values → Values
  | .one v => .one (nullValue v)
  | .cons v rest => .cons (nullValue v) (nullValues rest)

end

/-- Equal values, where null and empty strings count as equal. -/
def SameValue (v v' : Value) : Prop := nullValue v = nullValue v'

/-! ## The values that are left out

A DiagnosticInfo is not read back. A wrapped structure has its size written in front of it as an
Int32, and the encoder refuses one that is larger. -/

mutual

/-- No DiagnosticInfo, and no wrapped structure of more than `UA_INT32_MAX` bytes. -/
def Plain : Value → Prop
  | .decodedObject _ data => calcSizeBinary data ≤ int32Max ∧ Plain data
  | .dataValue _ value _ => PlainVariant value
  | .variant v => PlainVariant v
  | .diagnosticInfo _ => False
  | .structure members => PlainMembers members
  | _ => True

def PlainVariant : Variant → Prop
  | .scalar _ data => Plain data
  | .array _ data _ => PlainArray data
  | .wrapped _ data => calcSizeBinary data ≤ int32Max ∧ Plain data
  | .wrappedArray _ data _ => PlainValues data
  | _ => True

def PlainArray : ArrayData → Prop
  | .elements data => PlainValues data
  | _ => True

def PlainMembers : Members → Prop
  | .nil => True
  | .scalar v rest => Plain v ∧ PlainMembers rest
  | .array a rest => PlainArray a ∧ PlainMembers rest

def PlainValues : Values → Prop
  | .one v => Plain v
  | .cons v rest => Plain v ∧ PlainValues rest

end

/-! ## The filter for bogus messages

`Array_decodeBinary` gives an array up when fewer bytes are left in the whole message than a
thirty-second of its size in memory. `filterNeed` is the number of bytes that have to come behind an
encoding for all of its arrays to pass. -/

mutual

/-- How many more bytes than its own a value needs behind it to pass the filter. -/
def filterNeed (tables : TypeTables) (type : DataType) : Value → Nat
  | .decodedObject info data =>
    match findDataTypeByBinary tables (encodingTypeId info) with
    | some type => filterNeed tables type data
    | none => 0
  | .dataValue _ value fields => variantNeed tables value - dataValueFieldsCalcSize fields
  | .variant v => variantNeed tables v
  | .structure members =>
    match type with
    | .structure _ _ _ types => membersNeed tables types members
    | _ => 0
  | _ => 0

def variantNeed (tables : TypeTables) : Variant → Nat
  | .scalar b data => filterNeed tables (.builtin b) data
  | .array b data dims => arrayNeed tables (.builtin b) data - (dimensionsScript dims).bytes.length
  | .wrapped info data =>
    match findDataTypeByBinary tables (encodingTypeId info) with
    | some type => filterNeed tables type data
    | none => 0
  | _ => 0

def arrayNeed (tables : TypeTables) (type : DataType) : ArrayData → Nat
  | .elements data =>
    max (type.memSize * data.length / 32 - (valuesScript data).bytes.length)
      (valuesNeed tables type data)
  | _ => 0

def membersNeed (tables : TypeTables) (types : MemberTypes) : Members → Nat
  | .nil => 0
  | .scalar v rest =>
    match types with
    | .scalar type types =>
      max (filterNeed tables type v - (membersScript rest).bytes.length)
        (membersNeed tables types rest)
    | _ => 0
  | .array a rest =>
    match types with
    | .array type types =>
      max (arrayNeed tables type a - (membersScript rest).bytes.length)
        (membersNeed tables types rest)
    | _ => 0

def valuesNeed (tables : TypeTables) (type : DataType) : Values → Nat
  | .one v => filterNeed tables type v
  | .cons v rest =>
    max (filterNeed tables type v - (valuesScript rest).bytes.length) (valuesNeed tables type rest)

end

/-- What `tools/generate_datatypes.py` makes sure of: the table starts with Boolean, and all data
type ids are numeric. -/
structure Generated (tables : TypeTables) : Prop where
  first_boolean : tables.types.head? = some (.builtin .boolean)
  numeric : ∀ type, type ∈ tables.types ∨ type ∈ tables.customTypes →
    isNumeric type.info.typeId = true

theorem findDataTypeByBinary_some {tables : TypeTables} {typeId : NodeId} {type : DataType}
    (h : findDataTypeByBinary tables typeId = some type) :
    encodingTypeId type.info = typeId ∧ (type ∈ tables.types ∨ type ∈ tables.customTypes) := by
  obtain ⟨ns, ident⟩ := typeId
  cases ident with
  | numeric n =>
    have hmem := List.mem_of_find?_eq_some h
    have hmatch := List.find?_some h
    rw [Bool.and_eq_true, beq_iff_eq, beq_iff_eq] at hmatch
    refine ⟨?_, ?_⟩
    · show (⟨type.info.typeId.namespaceIndex, .numeric type.info.binaryEncodingId.toUInt32⟩ :
        NodeId) = _
      rw [hmatch.1, hmatch.2]
    · split at hmem
      · exact .inr hmem
      · exact .inl hmem
  | string s => cases h
  | guid g => cases h
  | byteString s => cases h

theorem isNumeric_of_find {tables : TypeTables} (hgen : Generated tables) {typeId : NodeId}
    {type : DataType} (h : findDataTypeByBinary tables typeId = some type) :
    isNumeric type.info.typeId = true :=
  hgen.numeric type (findDataTypeByBinary_some h).2

theorem eq_boolean_of_find {tables : TypeTables} (hgen : Generated tables) {typeId : NodeId}
    {b : Builtin} (h : findDataTypeByBinary tables typeId = some (.builtin b)) : b = .boolean := by
  obtain ⟨ns, ident⟩ := typeId
  have hid := (findDataTypeByBinary_some h).1
  have hns : ns = 0 := (congrArg NodeId.namespaceIndex hid).symm
  have hzero : ident = .numeric 0 := (congrArg NodeId.identifier hid).symm
  subst hns hzero
  obtain ⟨rest, hrest⟩ : ∃ rest, tables.types = .builtin .boolean :: rest := by
    cases htypes : tables.types with
    | nil =>
      have hhead := hgen.first_boolean
      rw [htypes] at hhead
      cases hhead
    | cons type rest =>
      have hhead := hgen.first_boolean
      rw [htypes] at hhead
      exact ⟨rest, by rw [Option.some.inj hhead]⟩
  unfold findDataTypeByBinary at h
  dsimp only at h
  rw [if_neg (not_not_intro rfl), hrest, List.find?_cons_of_pos (by rfl)] at h
  exact (DataType.builtin.inj (Option.some.inj h)).symm

/-! ## Regular values

What a type description says of a value, and what the decoder makes of it. -/

/-- How many bytes a value of the type has that is a number; no other value is one. -/
def numberSize : DataType → Nat
  | .builtin .boolean | .builtin .sbyte | .builtin .byte => 1
  | .builtin .int16 | .builtin .uint16 => 2
  | .builtin .int32 | .builtin .uint32 | .builtin .float | .builtin .statusCode => 4
  | .builtin .int64 | .builtin .uint64 | .builtin .double | .builtin .dateTime => 8
  | .enumeration _ _ => 4
  | _ => 0

mutual

/-- A value of the type in the form that the decoder gives to one: a Boolean is 0 or 1, picoseconds
are below their maximum, and just the structures whose description can be looked up are decoded. -/
def Regular (tables : TypeTables) (type : DataType) : Value → Prop
  | .byte v => numberSize type = 1 ∧ (type = .builtin .boolean → v = 0 ∨ v = 1)
  | .uint16 _ => numberSize type = 2
  | .uint32 _ => numberSize type = 4
  | .uint64 _ => numberSize type = 8
  | .string _ =>
    type = .builtin .string ∨ type = .builtin .byteString ∨ type = .builtin .xmlElement
  | .guid _ => type = .builtin .guid
  | .nodeId _ => type = .builtin .nodeId
  | .expandedNodeId _ => type = .builtin .expandedNodeId
  | .localizedText _ => type = .builtin .localizedText
  | .encodedObject typeId body => type = .builtin .extensionObject ∧ KeptEncoded tables typeId body
  | .decodedObject info data =>
    type = .builtin .extensionObject ∧ ∃ t, findDataTypeByBinary tables (encodingTypeId info) =
      some t ∧ t.info = info ∧ Regular tables t data
  | .unsetObject => False
  | .dataValue hasValue value fields =>
    type = .builtin .dataValue ∧ (hasValue = false → value = .empty) ∧
      (∀ p, fields.sourcePicoseconds = some p → ¬ p > maxPicoSeconds) ∧
      (∀ p, fields.serverPicoseconds = some p → ¬ p > maxPicoSeconds) ∧ RegularVariant tables value
  | .variant v => type = .builtin .variant ∧ RegularVariant tables v
  | .diagnosticInfo _ => type = .builtin .diagnosticInfo
  | .structure members =>
    match type with
    | .builtin .qualifiedName =>
      ∃ ns name, members = .scalar (.uint16 ns) (.scalar (.string name) .nil)
    | .structure _ _ _ types => RegularMembers tables types members
    | _ => False

/-- A structure in a Variant has been unwrapped. -/
def RegularVariant (tables : TypeTables) : Variant → Prop
  | .empty => True
  | .scalar b data =>
    Regular tables (.builtin b) data ∧
      (b = .extensionObject → ∃ typeId body, data = .encodedObject typeId body)
  | .array b data _ => RegularArray tables (.builtin b) data
  | .wrapped info data =>
    ∃ t, findDataTypeByBinary tables (encodingTypeId info) = some t ∧
      scalarVariant t data = .wrapped info data ∧ Regular tables t data
  | _ => False

/-- The elements are stored the way their type says. -/
def RegularArray (tables : TypeTables) (type : DataType) : ArrayData → Prop
  | .empty _ => True
  | .overlay block => type.overlayable = true ∧ block.memSize = type.memSize
  | .elements data => type.overlayable = false ∧ RegularValues tables type data

/-- The members are of the types of the structure. -/
def RegularMembers (tables : TypeTables) (types : MemberTypes) : Members → Prop
  | .nil => types = .nil
  | .scalar v rest =>
    match types with
    | .scalar type types => Regular tables type v ∧ RegularMembers tables types rest
    | _ => False
  | .array a rest =>
    match types with
    | .array type types => RegularArray tables type a ∧ RegularMembers tables types rest
    | _ => False

def RegularValues (tables : TypeTables) (type : DataType) : Values → Prop
  | .one v => Regular tables type v
  | .cons v rest => Regular tables type v ∧ RegularValues tables type rest

end

/-- Neither of the two inner fields is set. -/
def NothingInner : DiagnosticInfo → Prop
  | .mk _ _ _ _ _ innerStatusCode inner => innerStatusCode = none ∧ inner = none

mutual

/-- Nothing that an encoding loses: no DiagnosticInfo has an inner field, and no ExpandedNodeId has
an index beside its namespace URI. -/
def Carried : Value → Prop
  | .expandedNodeId n => isRegular n.namespaceUri = true → n.nodeId.namespaceIndex = 0
  | .decodedObject _ data => Carried data
  | .dataValue _ value _ => CarriedVariant value
  | .variant v => CarriedVariant v
  | .diagnosticInfo d => NothingInner d
  | .structure members => CarriedMembers members
  | _ => True

def CarriedVariant : Variant → Prop
  | .scalar _ data => Carried data
  | .array _ data _ => CarriedArray data
  | .wrapped _ data => Carried data
  | _ => True

def CarriedArray : ArrayData → Prop
  | .elements data => CarriedValues data
  | _ => True

def CarriedMembers : Members → Prop
  | .nil => True
  | .scalar v rest => Carried v ∧ CarriedMembers rest
  | .array a rest => CarriedArray a ∧ CarriedMembers rest

def CarriedValues : Values → Prop
  | .one v => Carried v
  | .cons v rest => Carried v ∧ CarriedValues rest

end

/-- For every regular value that the encoder does not refuse, with an encoding of fewer than `m`
bytes: `d` reads the encoding back just when it loses nothing and as many bytes follow as the filter
asks for. -/
def ReadsBack (tables : TypeTables) (m : Nat) (type : DataType) (d : DecodeM (Decoded Value)) :
    Prop :=
  ∀ v, Regular tables type v → (script v).FailFree → (script v).bytes.length < m →
    Keeps (Carried v) (filterNeed tables type v) d (script v).bytes fun v' => SameValue v' v

variable {bs : List UInt8} {c : Prop}

theorem Reads.same {d : DecodeM (Decoded α)} {x : α} (f : α → Value) {v : Value}
    (h : Reads 0 d bs (Good (· = x))) (hc : c ↔ SameValue (f x) v) :
    Keeps c 0 (decodeMap f d) bs fun v' => SameValue v' v := by
  apply Keeps.map
  exact h.keeps.congr hc fun _ => Iff.rfl

theorem failFree_stringScript {s : UaString} : (stringScript s).FailFree ↔ RegularString s := by
  unfold stringScript RegularString
  split
  · rw [failFree_arrayScript]
    exact and_iff_left trivial
  · next hlen =>
    rw [Nat.eq_zero_of_not_pos hlen]
    exact iff_of_true trivial (Nat.zero_le _)

theorem failFree_nodeIdScript {n : NodeId} {encoding : UInt8} :
    (nodeIdScript n encoding).FailFree ↔ RegularNodeId n := by
  obtain ⟨ns, ident⟩ := n
  cases ident with
  | numeric i =>
    refine iff_of_true ?_ trivial
    unfold nodeIdScript
    dsimp only
    split
    · exact ⟨⟨trivial, trivial⟩, trivial⟩
    · split
      · exact ⟨⟨trivial, trivial⟩, trivial⟩
      · exact ⟨trivial, trivial⟩
  | string s => exact (and_iff_right ⟨trivial, trivial⟩).trans failFree_stringScript
  | guid g =>
    exact iff_of_true ⟨⟨trivial, trivial⟩, ⟨⟨⟨trivial, trivial⟩, trivial⟩, trivial⟩⟩ trivial
  | byteString s => exact (and_iff_right ⟨trivial, trivial⟩).trans failFree_stringScript

theorem failFree_expandedNodeIdScript {n : ExpandedNodeId} :
    (expandedNodeIdScript n).FailFree ↔ RegularNodeId n.nodeId ∧ RegularString n.namespaceUri := by
  have huri : (scriptIf (isRegular n.namespaceUri) (stringScript n.namespaceUri)).FailFree ↔
      RegularString n.namespaceUri := by
    rw [failFree_scriptIf, failFree_stringScript]
    refine ⟨fun h => ?_, fun h _ => h⟩
    cases hreg : n.namespaceUri with
    | null | sentinel => exact Nat.zero_le _
    | mem items => exact hreg ▸ h (by rw [hreg]; rfl)
  have hindex : (scriptIf (n.serverIndex > 0) (uint32Script n.serverIndex)).FailFree :=
    failFree_scriptIf.mpr fun _ => trivial
  exact (and_iff_left hindex).trans (and_congr failFree_nodeIdScript huri)

theorem failFree_localizedTextScript {t : LocalizedText} :
    (localizedTextScript t).FailFree ↔ RegularString t.locale ∧ RegularString t.text := by
  have hfield : ∀ s : UaString, (scriptIf (hasData s) (stringScript s)).FailFree ↔
      RegularString s := by
    intro s
    rw [failFree_scriptIf, failFree_stringScript]
    refine ⟨fun h => ?_, fun h _ => h⟩
    cases s with
    | null | sentinel => exact Nat.zero_le _
    | mem items => exact h rfl
  exact and_congr ((and_iff_right trivial).trans (hfield t.locale)) (hfield t.text)

theorem failFree_dimensionsScript {dims : List UInt32} (h : dims.length ≤ int32Max) :
    (dimensionsScript dims).FailFree := by
  unfold dimensionsScript
  split
  · exact trivial
  · exact failFree_arrayScript.mpr ⟨h, trivial⟩

variable {tables : TypeTables} {m fuel : Nat} {type : DataType}

theorem bytes_nodeIdScript_zero (n : NodeId) :
    (nodeIdScript n 0).bytes = nodeIdEncodingByte n :: nodeIdContent n := by
  rw [bytes_nodeIdScript, UInt8.zero_or]

theorem nullNodeId_decodedNodeId (n : NodeId) : nullNodeId (decodedNodeId n) = nullNodeId n := by
  obtain ⟨ns, ident⟩ := n
  cases ident with
  | numeric i => rfl
  | string s => exact congrArg (fun s => (⟨ns, .string s⟩ : NodeId)) (nullString_decodedString s)
  | guid g => rfl
  | byteString s =>
      exact congrArg (fun s => (⟨ns, .byteString s⟩ : NodeId)) (nullString_decodedString s)

theorem same_decodedExpandedNodeId (n : ExpandedNodeId) :
    Carried (.expandedNodeId n) ↔
      SameValue (.expandedNodeId (decodedExpandedNodeId n)) (.expandedNodeId n) := by
  have hid := nullNodeId_decodedNodeId n.nodeId
  unfold SameValue decodedExpandedNodeId Carried
  simp only [nullValue, Value.expandedNodeId.injEq, ExpandedNodeId.mk.injEq, and_true]
  cases hreg : isRegular n.namespaceUri with
  | true =>
    simp only [if_true, nullString_decodedString, and_true, true_implies]
    constructor
    · intro hindex
      rw [← hid]
      show ({ nullNodeId (decodedNodeId n.nodeId) with namespaceIndex := 0 } : NodeId) = _
      rw [← hindex]
      rfl
    · exact fun heq => (congrArg NodeId.namespaceIndex heq).symm
  | false =>
    simp [hid, nullString_of_not_isRegular hreg]
    rfl

theorem keeps_expandedNodeId (halloc : ∀ k, env.calloc k = true) {x : ExpandedNodeId}
    (h : (expandedNodeIdScript x).FailFree) :
    Keeps (Carried (.expandedNodeId x)) 0
      (decodeMap .expandedNodeId (expandedNodeIdDecodeBinary env))
      (expandedNodeIdScript x).bytes fun v => SameValue v (.expandedNodeId x) := by
  obtain ⟨hid, huri⟩ := failFree_expandedNodeIdScript.mp h
  exact (reads_expandedNodeIdDecodeBinary halloc hid huri).same _ (same_decodedExpandedNodeId x)

theorem keeps_qualifiedName (halloc : ∀ k, env.calloc k = true) (ns : UInt16) {name : UaString}
    (h : RegularString name) :
    Keeps True 0
      (decodeMap (fun (ns, name) => .structure (.scalar (.uint16 ns) (.scalar (.string name) .nil)))
        (decodeBoth uint16DecodeBinary (stringDecodeBinary env)))
      ((uint16Script ns).bytes ++ (stringScript name).bytes)
      fun v => SameValue v (.structure (.scalar (.uint16 ns) (.scalar (.string name) .nil))) := by
  apply Reads.always
  apply Reads.map
  apply ((reads_uint16DecodeBinary ns).both (Nat.zero_le _)
    (reads_stringDecodeBinary halloc h)).mono (Nat.le_refl 0)
  rintro ⟨r, ns', name'⟩ ⟨hr, rfl, rfl⟩
  refine ⟨hr, ?_⟩
  simp [SameValue, nullValue, nullMembers, nullString_decodedString]

theorem bytes_arrayScript {length : Nat} {content : Script} (h : length ≤ int32Max) :
    (arrayScript length content).bytes =
      (uint32Script (UInt32.ofNat length)).bytes ++ content.bytes := by
  unfold arrayScript
  rw [if_neg (Nat.not_lt.mpr h)]
  rfl

theorem length_values_pos (vs : Values) : 0 < vs.length := by
  cases vs with
  | one v => exact Nat.one_pos
  | cons v rest => exact Nat.succ_pos _

theorem keeps_elements {d : DecodeM (Decoded Value)} (hback : ReadsBack tables m type d) :
    (vs : Values) → RegularValues tables type vs → (valuesScript vs).FailFree →
    (valuesScript vs).bytes.length < m →
    Keeps (CarriedValues vs) (valuesNeed tables type vs)
      (arrayDecodeBinaryElements d (vs.length - 1))
      (valuesScript vs).bytes fun vs' => nullValues vs' = nullValues vs
  | .one v, hregular, hfree, hlt =>
    Keeps.map ((hback v hregular hfree hlt).congr Iff.rfl fun _ =>
      ⟨fun h => Values.one.inj h, fun h => congrArg Values.one h⟩)
  | .cons v rest, hregular, hfree, hlt => by
    have hbytes : (valuesScript (.cons v rest)).bytes =
        (script v).bytes ++ (valuesScript rest).bytes := by
      simp only [valuesScript, Script.bytes]
    have hlength : (Values.cons v rest).length - 1 = (rest.length - 1) + 1 :=
      (Nat.sub_add_cancel (length_values_pos rest)).symm
    rw [hbytes, List.length_append] at hlt
    have hhead := hback v hregular.1 hfree.1 (by omega)
    have hrest := keeps_elements hback rest hregular.2 hfree.2 (by omega)
    rw [hbytes, valuesNeed, hlength]
    apply hhead.guard
    · intro v' hsame
      apply Keeps.map
      apply hrest.congr Iff.rfl
      intro rest'
      show Values.cons (nullValue v') (nullValues rest') =
        Values.cons (nullValue v) (nullValues rest) ↔ _
      rw [show nullValue v' = nullValue v from hsame]
      exact ⟨fun h => (Values.cons.inj h).2, fun h => congrArg _ h⟩
    · intro v' vs' s s' hrun hsame
      obtain ⟨rest', -, rfl⟩ := run_decodeMap_good hrun
      exact (Values.cons.inj hsame).1

theorem keeps_array {d : DecodeM (Decoded Value)} (halloc : ∀ k, env.calloc k = true)
    (hback : ReadsBack tables m type d) (a : ArrayData) (hregular : RegularArray tables type a)
    (hfree : (arrayDataScript a).FailFree) (hlt : (arrayDataScript a).bytes.length ≤ m + 3) :
    Keeps (CarriedArray a) (arrayNeed tables type a) (arrayDecodeBinary env type d)
      (arrayDataScript a).bytes fun a' => nullArray a' = nullArray a := by
  cases a with
  | empty sentinel =>
    apply Reads.always
    apply (reads_arrayDecodeBinaryHeader_empty _ sentinel).bind_nil
    rintro header rfl
    exact reads_pure ⟨rfl, rfl⟩
  | overlay block =>
    obtain ⟨hoverlay, hsize⟩ := hregular
    obtain ⟨memSize, length, mem, memSize_pos, length_pos, size_eq⟩ := block
    subst hsize
    have hle := (failFree_arrayScript.mp hfree).1
    rw [arrayDataScript, bytes_arrayScript hle]
    apply Reads.always
    -- the block itself satisfies the filter
    apply (reads_arrayDecodeBinaryHeader halloc length_pos hle).bind (by
      show type.memSize * length / 32 ≤ mem.length + _
      omega)
    rintro header rfl
    dsimp only
    rw [if_pos hoverlay]
    apply (@reads_arrayDecodeBinaryOverlay _ mem _ size_eq).bind_nil
    rintro ⟨r, mem'⟩ ⟨hr, bytes, hmem, hbytes⟩
    subst hr hmem
    refine reads_pure ⟨rfl, ?_⟩
    simp only [hbytes]
  | elements vs =>
    obtain ⟨hoverlay, hregular⟩ := hregular
    obtain ⟨hle, hfree⟩ := failFree_arrayScript.mp hfree
    rw [arrayDataScript, bytes_arrayScript hle] at hlt ⊢
    rw [List.length_append, length_uint32Script] at hlt
    have hvalues := keeps_elements hback vs hregular hfree (by omega)
    apply Keeps.array halloc (length_values_pos vs) hle (fun status => rfl)
    dsimp only
    rw [if_neg (by rw [hoverlay]; exact Bool.false_ne_true)]
    have hsame : ∀ vs', nullArray (.elements vs') = nullArray (.elements vs) ↔
        nullValues vs' = nullValues vs := fun vs' =>
      ⟨fun h => ArrayData.elements.inj h, fun h => congrArg ArrayData.elements h⟩
    apply (hvalues.congr Iff.rfl hsame).pass
    · rintro ⟨r, vs'⟩
      dsimp only
      split
      · exact ⟨_, rfl⟩
      · exact ⟨_, rfl⟩
    · exact fun vs' => rfl

end FactoryThing.Encoding
