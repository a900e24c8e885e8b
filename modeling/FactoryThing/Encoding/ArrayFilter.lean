import FactoryThing.Encoding.Recoding

/-!
# The filter for bogus arrays

`Array_decodeBinary` refuses an array when fewer bytes are left in the message than a thirty-second
of the size that the array has in memory (`src/ua_types_encoding_binary.c:544-549`). An element of
48 bytes in memory may be encoded with a single byte, so arrays that the encoder writes are refused
as well when nothing follows them: two empty Variants are enough. `minSize` bounds the encoding of a
value from below; the filter is harmless for the types whose bound makes up for their size.
-/

namespace FactoryThing.Encoding

open Stateful DecodeState

variable {env : DecodeEnv} {tables : TypeTables} {type : DataType}

/-- The array decoder accepts what is in front of it and gives the array back (null and empty
strings count as equal). -/
def ArrayComesBack (env : DecodeEnv) (fuel : Nat) (type : DataType) (a : ArrayData)
    (s : DecodeState) : Prop :=
  ∃ a' s', (arrayDecodeBinary env type (decodeBinaryJumpTable env fuel type)).run s =
    .ok ((StatusCode.good, a'), s') ∧ nullArray a' = nullArray a

/-! ## How little a value is encoded with -/

/-- The fewest bytes of a builtin type. -/
def builtinMinSize : Builtin → Nat
  | .boolean | .sbyte | .byte => 1
  | .int16 | .uint16 => 2
  | .int32 | .uint32 | .float | .statusCode => 4
  | .int64 | .uint64 | .double | .dateTime => 8
  | .string | .byteString | .xmlElement => 4
  | .guid => 16
  | .nodeId | .expandedNodeId => 2
  | .qualifiedName => 6
  | .extensionObject => 3
  | .localizedText | .dataValue | .variant | .diagnosticInfo => 1

mutual

/-- No value of the type is encoded with fewer bytes. -/
def minSize : DataType → Nat
  | .builtin b => builtinMinSize b
  | .enumeration _ _ => 4
  | .structure _ _ _ members => membersMinSize members

def membersMinSize : MemberTypes → Nat
  | .nil => 0
  | .scalar type rest => minSize type + membersMinSize rest
  | .array _ rest => 4 + membersMinSize rest

end

theorem minSize_of_number {n : Nat} (h : numberSize type = n) (hpos : 0 < n) :
    minSize type = n := by
  subst h
  cases type with
  | builtin b => cases b <;> first | rfl | exact absurd hpos (by decide)
  | enumeration typeId encodingId => rfl
  | «structure» info overlayable memSize_pos members => exact absurd hpos (Nat.lt_irrefl 0)

theorem four_le_stringScript {s : UaString} (h : (stringScript s).FailFree) :
    4 ≤ (stringScript s).bytes.length := by
  rw [length_stringScript h]
  exact Nat.le_add_right 4 _

theorem two_le_nodeIdScript {n : NodeId} {encoding : UInt8}
    (h : (nodeIdScript n encoding).FailFree) :
    2 ≤ (nodeIdScript n encoding).bytes.length := by
  rw [length_nodeIdScript h]
  unfold nodeIdCalcSizeBinary
  split
  · split
    · omega
    · split <;> omega
  all_goals omega

theorem four_le_arrayDataScript {a : ArrayData} (h : (arrayDataScript a).FailFree) :
    4 ≤ (arrayDataScript a).bytes.length := by
  cases a with
  | empty sentinel => exact Nat.le_of_eq (length_uint32Script _).symm
  | overlay block => exact length_arrayScript h ▸ Nat.le_add_right 4 _
  | elements data => exact length_arrayScript h ▸ Nat.le_add_right 4 _

mutual

theorem minSize_le : (v : Value) → (type : DataType) → Regular tables type v → (script v).FailFree →
    minSize type ≤ (script v).bytes.length
  | .byte x, type, hregular, _ => by
    rw [minSize_of_number hregular.1 Nat.one_pos]
    exact Nat.le_refl 1
  | .uint16 x, type, hregular, _ => by
    rw [minSize_of_number hregular (by decide)]
    exact (length_uint16Script x).ge
  | .uint32 x, type, hregular, _ => by
    rw [minSize_of_number hregular (by decide)]
    exact (length_uint32Script x).ge
  | .uint64 x, type, hregular, _ => by
    rw [minSize_of_number hregular (by decide)]
    exact (length_uint64Script x).ge
  | .string s, type, hregular, hfree => by
    have hlength := four_le_stringScript hfree
    rcases hregular with rfl | rfl | rfl <;> exact hlength
  | .guid g, type, hregular, _ => by
    rw [show type = .builtin .guid from hregular]
    exact (length_guidScript g).ge
  | .nodeId n, type, hregular, hfree => by
    rw [show type = .builtin .nodeId from hregular]
    exact two_le_nodeIdScript hfree
  | .expandedNodeId n, type, hregular, hfree => by
    rw [show type = .builtin .expandedNodeId from hregular]
    have hlength := two_le_nodeIdScript hfree.1.1
    simp only [script, expandedNodeIdScript, Script.bytes, List.length_append]
    exact hlength.trans (by omega)
  | .localizedText t, type, hregular, _ => by
    rw [show type = .builtin .localizedText from hregular]
    simp only [script, localizedTextScript, Script.bytes, List.length_append, length_byteScript]
    show 1 ≤ _
    omega
  | .encodedObject typeId body, type, hregular, hfree => by
    rw [hregular.1, script, bytes_encodedObjectScript]
    have hid := two_le_nodeIdScript
      ((@failFree_nodeIdScript typeId 0).mpr (regularNodeId_of_isNumeric hregular.2.1))
    rw [List.length_append]
    show 3 ≤ _
    cases body with
    | noBody => exact Nat.add_le_add_right hid 1
    | _ =>
      simp only [List.length_append, List.length_singleton]
      omega
  | .decodedObject info data, type, hregular, hfree => by
    obtain ⟨hnum, hlen, -⟩ := failFree_decodedObjectScript.mp hfree
    rw [hregular.1, script, bytes_decodedObjectScript hnum hlen]
    simp only [List.length_append, List.length_singleton, length_uint32Script]
    show 3 ≤ _
    omega
  | .unsetObject, type, hregular, _ => hregular.elim
  | .dataValue hasValue value fields, type, hregular, _ => by
    rw [hregular.1, bytes_dataValueScript, List.length_append]
    exact Nat.le_add_right 1 _
  | .variant w, type, hregular, _ => by
    rw [hregular.1, script]
    cases w with
    | empty => exact Nat.le_refl 1
    | wrappedEmpty info dims => exact hregular.2.elim
    | wrappedArray info data dims => exact hregular.2.elim
    | _ =>
      simp only [variantScript, Script.bytes, List.length_append, length_byteScript]
      show 1 ≤ _
      omega
  | .diagnosticInfo d, type, hregular, hfree => by
    rw [show type = .builtin .diagnosticInfo from hregular, script]
    obtain ⟨tail, hbytes⟩ := head_diagnosticInfoScript d
    rw [hbytes, List.length_append]
    exact Nat.le_add_right 1 _
  | .structure members, type, hregular, hfree => by
    cases type with
    | builtin b =>
      cases b with
      | qualifiedName =>
        obtain ⟨ns, name, rfl⟩ := hregular
        have hname := four_le_stringScript hfree.2.1
        simp only [script, membersScript, Script.bytes, List.length_append, length_uint16Script]
        show 6 ≤ _
        omega
      | _ => exact hregular.elim
    | enumeration typeId encodingId => exact hregular.elim
    | «structure» info overlayable memSize_pos types =>
      exact membersMinSize_le members types hregular hfree

theorem membersMinSize_le : (ms : Members) → (types : MemberTypes) →
    RegularMembers tables types ms → (membersScript ms).FailFree →
    membersMinSize types ≤ (membersScript ms).bytes.length
  | .nil, types, hregular, _ => by
    rw [show types = .nil from hregular]
    exact Nat.zero_le _
  | .scalar v rest, types, hregular, hfree => by
    cases types with
    | scalar type types =>
      have hv := minSize_le v type hregular.1 hfree.1
      have hrest := membersMinSize_le rest types hregular.2 hfree.2
      rw [membersScript, Script.bytes, List.length_append]
      exact Nat.add_le_add hv hrest
    | _ => exact hregular.elim
  | .array a rest, types, hregular, hfree => by
    cases types with
    | array type types =>
      have ha := four_le_arrayDataScript hfree.1
      have hrest := membersMinSize_le rest types hregular.2 hfree.2
      rw [membersScript, Script.bytes, List.length_append]
      exact Nat.add_le_add ha hrest
    | _ => exact hregular.elim

end

theorem minSize_mul_le : (vs : Values) → RegularValues tables type vs → (valuesScript vs).FailFree →
    minSize type * vs.length ≤ (valuesScript vs).bytes.length
  | .one v, hregular, hfree => (Nat.mul_one _).trans_le (minSize_le v type hregular hfree)
  | .cons v rest, hregular, hfree => by
    have hv := minSize_le v type hregular.1 hfree.1
    have hrest := minSize_mul_le rest hregular.2 hfree.2
    simp only [valuesScript, Script.bytes, List.length_append, Values.length, Nat.mul_succ]
    omega

/-! ## Types that the filter does no harm to -/

/-- Only a Variant, a DataValue and a DiagnosticInfo can be too small for their size in memory. -/
theorem memSize_le_of_builtin (b : Builtin) (hvariant : b ≠ .variant) (hdataValue : b ≠ .dataValue)
    (hinfo : b ≠ .diagnosticInfo) :
    (DataType.builtin b).memSize ≤ 32 * minSize (.builtin b) := by
  cases b <;> first | decide | exact absurd rfl ‹_›

mutual

/-- The arrays in a value of the type have elements that are encoded with at least a thirty-second
of their size. -/
def Dense : DataType → Prop
  | .builtin b => b ≠ .extensionObject ∧ b ≠ .dataValue ∧ b ≠ .variant
  | .enumeration _ _ => True
  | .structure _ _ _ members => DenseMembers members

def DenseMembers : MemberTypes → Prop
  | .nil => True
  | .scalar type rest => Dense type ∧ DenseMembers rest
  | .array type rest => type.memSize ≤ 32 * minSize type ∧ Dense type ∧ DenseMembers rest

end

mutual

theorem filterNeed_of_dense : (v : Value) → (type : DataType) → Dense type → Regular tables type v →
    (script v).FailFree → filterNeed tables type v = 0
  | .byte _, _, _, _, _ | .uint16 _, _, _, _, _ | .uint32 _, _, _, _, _ | .uint64 _, _, _, _, _ |
    .string _, _, _, _, _ | .guid _, _, _, _, _ | .nodeId _, _, _, _, _ |
    .expandedNodeId _, _, _, _, _ | .localizedText _, _, _, _, _ | .encodedObject _ _, _, _, _, _ |
    .unsetObject, _, _, _, _ | .diagnosticInfo _, _, _, _, _ => rfl
  | .decodedObject info data, type, hdense, hregular, _ => by
    rw [hregular.1] at hdense
    exact absurd rfl hdense.1
  | .dataValue hasValue value fields, type, hdense, hregular, _ => by
    rw [hregular.1] at hdense
    exact absurd rfl hdense.2.1
  | .variant w, type, hdense, hregular, _ => by
    rw [hregular.1] at hdense
    exact absurd rfl hdense.2.2
  | .structure members, type, hdense, hregular, hfree => by
    cases type with
    | «structure» info overlayable memSize_pos types =>
      exact membersNeed_of_dense members types hdense hregular hfree
    | _ => rfl

theorem membersNeed_of_dense : (ms : Members) → (types : MemberTypes) → DenseMembers types →
    RegularMembers tables types ms → (membersScript ms).FailFree → membersNeed tables types ms = 0
  | .nil, _, _, _, _ => rfl
  | .scalar v rest, types, hdense, hregular, hfree => by
    cases types with
    | scalar type types =>
      rw [membersNeed, filterNeed_of_dense v type hdense.1 hregular.1 hfree.1,
        membersNeed_of_dense rest types hdense.2 hregular.2 hfree.2, Nat.zero_sub, Nat.max_self]
    | _ => rfl
  | .array a rest, types, hdense, hregular, hfree => by
    cases types with
    | array type types =>
      rw [membersNeed, arrayNeed_of_dense a type hdense.1 hdense.2.1 hregular.1 hfree.1,
        membersNeed_of_dense rest types hdense.2.2 hregular.2 hfree.2, Nat.zero_sub, Nat.max_self]
    | _ => rfl

theorem arrayNeed_of_dense : (a : ArrayData) → (type : DataType) →
    type.memSize ≤ 32 * minSize type → Dense type → RegularArray tables type a →
    (arrayDataScript a).FailFree → arrayNeed tables type a = 0
  | .empty _, _, _, _, _, _ => rfl
  | .overlay _, _, _, _, _, _ => rfl
  | .elements vs, type, hsize, hdense, hregular, hfree => by
    have hvalues := (failFree_arrayScript.mp hfree).2
    have hmin := minSize_mul_le vs hregular.2 hvalues
    have hfilter : type.memSize * vs.length / 32 ≤ minSize type * vs.length := by
      have hmul := Nat.mul_le_mul_right vs.length hsize
      rw [Nat.mul_assoc] at hmul
      omega
    rw [arrayNeed, valuesNeed_of_dense vs type hdense hregular.2 hvalues,
      Nat.sub_eq_zero_of_le (hfilter.trans hmin), Nat.max_self]

theorem valuesNeed_of_dense : (vs : Values) → (type : DataType) → Dense type →
    RegularValues tables type vs → (valuesScript vs).FailFree → valuesNeed tables type vs = 0
  | .one v, type, hdense, hregular, hfree => filterNeed_of_dense v type hdense hregular hfree
  | .cons v rest, type, hdense, hregular, hfree => by
    rw [valuesNeed, filterNeed_of_dense v type hdense hregular.1 hfree.1,
      valuesNeed_of_dense rest type hdense hregular.2 hfree.2, Nat.zero_sub, Nat.max_self]

end

/-! ## What comes back -/

section Encoded

variable {H : Type} {fuel decodeFuel : Nat} {a : ArrayData} {e e' : EncodeState H}
  {written rest : List UInt8} {s : DecodeState} (halloc : ∀ k, env.calloc k = true)
  (hencode : (arrayEncodeBinary fuel none a).run e = .ok (StatusCode.good, e'))
  (hwritten : e'.pos.before = e.pos.before ++ written)
  (hfuel : written.length < decodeFuel)

include hencode hwritten

theorem bytes_of_arrayEncodeBinary :
    (arrayDataScript a).FailFree ∧ (arrayDataScript a).bytes = written := by
  rw [← run_arrayDataScript] at hencode
  obtain ⟨hfree, rfl⟩ := run_good _ hencode
  rw [EncodeState.write_before, List.append_cancel_left_eq] at hwritten
  exact ⟨hfree, hwritten⟩

include halloc hfuel

/-- The array comes back when it is regular, its encoding loses nothing and enough bytes follow. -/
theorem comesBack_followed_iff (hgen : Generated env.toTypeTables) (hat : s.At (written ++ rest)) :
    ArrayComesBack env decodeFuel type a s ↔
      RegularArray env.toTypeTables type a ∧ CarriedArray a ∧
        arrayNeed env.toTypeTables type a ≤ rest.length := by
  obtain ⟨hfree, rfl⟩ := bytes_of_arrayEncodeBinary hencode hwritten
  have hkeeps := fun hregular => keeps_array halloc
    (readsBack_decodeBinaryJumpTable halloc decodeFuel decodeFuel (Nat.le_refl _) type) a hregular
    hfree (by omega)
  constructor
  · rintro ⟨a', s', hrun, hsame⟩
    have hregular' := (regular_array (regular_decodeBinaryJumpTable hgen decodeFuel type)
      ⟨s, s', hrun⟩).1
    rw [← regularArray_nullArray, hsame, regularArray_nullArray] at hregular'
    refine ⟨hregular', ?_⟩
    by_contra hnot
    exact (hkeeps hregular').refuses s rest hat hnot a' s' hrun hsame
  · rintro ⟨hregular, hcarried, hneed⟩
    obtain ⟨⟨r, a'⟩, s', hrun, ⟨hr, hsame⟩, -⟩ := (hkeeps hregular).reads hcarried s rest hat hneed
    dsimp only at hr hsame
    subst hr
    exact ⟨a', s', hrun, hsame⟩

/-- The filter never refuses an array of a type that makes up for its size. -/
theorem comesBack_of_dense (hgen : Generated env.toTypeTables) (hat : s.At (written ++ []))
    (hsize : type.memSize ≤ 32 * minSize type) (hdense : Dense type)
    (hregular : RegularArray env.toTypeTables type a) (hcarried : CarriedArray a) :
    ArrayComesBack env decodeFuel type a s := by
  have hfree := (bytes_of_arrayEncodeBinary hencode hwritten).1
  apply (comesBack_followed_iff halloc hencode hwritten hfuel hgen hat).mpr
  exact ⟨hregular, hcarried, (arrayNeed_of_dense a type hsize hdense hregular hfree).le⟩

end Encoded

/-- The array that the encoder wrote comes back, with nothing behind it, exactly when it has the
form that the decoder gives to an array, its encoding loses nothing, and no array in it needs more
bytes for the filter than its own message has. -/
theorem arrayComesBack_iff {H : Type} {fuel decodeFuel : Nat} {a : ArrayData}
    {e e' : EncodeState H} {written : List UInt8} {s : DecodeState}
    (halloc : ∀ k, env.calloc k = true) (hgen : Generated env.toTypeTables)
    (hencode : (arrayEncodeBinary fuel none a).run e = .ok (StatusCode.good, e'))
    (hwritten : e'.pos.before = e.pos.before ++ written) (hat : s.At written)
    (hfuel : written.length < decodeFuel) :
    ArrayComesBack env decodeFuel type a s ↔
      RegularArray env.toTypeTables type a ∧ CarriedArray a ∧
        arrayNeed env.toTypeTables type a = 0 := by
  rw [← List.append_nil written] at hat
  rw [comesBack_followed_iff halloc hencode hwritten hfuel hgen hat, List.length_nil, Nat.le_zero]

def numberAndText : Values :=
  .cons (.variant (.scalar .int32 (.uint32 7)))
    (.one (.variant (.scalar .string (.string (.mem [97])))))

/-- A number and a text in Variants come back: 96 / 32 is 3, and eleven bytes follow the length. -/
theorem arrayComesBack_numberAndText :
    ArrayComesBack discoveryEnv 16 (.builtin .variant) (.elements numberAndText)
      (decodeStart [2, 0, 0, 0, 6, 7, 0, 0, 0, 12, 1, 0, 0, 0, 97] 0) :=
  (arrayComesBack_iff (fun _ => rfl) sameTables_discoveryEnv.generated
    (show (arrayEncodeBinary 1 none (.elements numberAndText)).run
      (⟨0, some 16, ⟨0, []⟩, ()⟩ : EncodeState Unit) = .ok (StatusCode.good,
        ⟨0, some 16, ⟨0, [2, 0, 0, 0, 6, 7, 0, 0, 0, 12, 1, 0, 0, 0, 97]⟩, ()⟩) from rfl) rfl
    ⟨Nat.le_refl _, Nat.zero_le _, rfl⟩ (by decide)).mpr
      ⟨⟨rfl, ⟨rfl, rfl, nofun⟩, rfl, .inl rfl, nofun⟩, ⟨trivial, trivial⟩, rfl⟩

/-- So many empty Variants, and one more. -/
def emptyVariants : Nat → Values
  | 0 => .one (.variant .empty)
  | n + 1 => .cons (.variant .empty) (emptyVariants n)

theorem arrayNeed_emptyVariants (n : Nat) :
    arrayNeed tables (.builtin .variant) (.elements (emptyVariants n)) =
      48 * (n + 1) / 32 - (n + 1) := by
  have hlength : (emptyVariants n).length = n + 1 := by
    induction n with
    | zero => rfl
    | succ n ih => exact congrArg (· + 1) ih
  have hbytes : (valuesScript (emptyVariants n)).bytes.length = n + 1 := by
    clear hlength
    induction n with
    | zero => rfl
    | succ n ih =>
      rw [emptyVariants, valuesScript, Script.bytes, List.length_append, ih]
      exact Nat.add_comm 1 _
  have hvalues : valuesNeed tables (.builtin .variant) (emptyVariants n) = 0 := by
    clear hlength hbytes
    induction n with
    | zero => rfl
    | succ n ih =>
      rw [emptyVariants, valuesNeed, ih, Nat.max_zero]
      exact Nat.zero_sub _
  rw [arrayNeed, hlength, hbytes, hvalues, Nat.max_zero]
  rfl

/-- Two of them are refused: 96 / 32 is 3, and only two bytes follow the length. -/
theorem emptyVariants_refused :
    (arrayEncodeBinary 1 none (.elements (emptyVariants 1))).run
        (⟨0, some 16, ⟨0, []⟩, ()⟩ : EncodeState Unit) = .ok (StatusCode.good,
          ⟨0, some 16, ⟨0, [2, 0, 0, 0, 0, 0]⟩, ()⟩) ∧
      ¬ ArrayComesBack discoveryEnv 7 (.builtin .variant) (.elements (emptyVariants 1))
        (decodeStart [2, 0, 0, 0, 0, 0] 0) := by
  refine ⟨rfl, ?_⟩
  rintro ⟨a', s', h, -⟩
  cases h

end FactoryThing.Encoding
