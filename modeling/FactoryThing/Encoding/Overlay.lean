import FactoryThing.Encoding.TypeGenerator
import FactoryThing.Encoding.Script

/-!
# Copying instead of encoding

`Array_encodeBinary`, `Array_decodeBinary` and `Array_calcSizeBinary` take an array of an
overlayable type as the memory that it is, in place of going through the members of its elements
(`src/ua_types_encoding_binary.c:454-583`, `1454-1467`). The generator marks a structure as
overlayable when there is no padding between its members. That leaves out the padding behind the
last one, the pointer that stands for a structure without members, and that a Boolean is decoded to
0 or 1 whatever the byte on the wire is.
-/

namespace FactoryThing.TypeDefinition

open RecordLayout

/-- Only scalars that are overlayable themselves, each right behind the one before. -/
def Overlaid : Nat → StructMembers → Prop
  | _, .nil => True
  | pos, .cons _ memberType isArray rest =>
    isArray = false ∧ memberType.overlayable = true ∧ memberType.layout.offset pos = pos ∧
      Overlaid (pos + memberType.memSize) rest

/-- The member before ends at `pos`. -/
def EndsAt (before : Option Placed) (pos : Nat) : Prop :=
  match before with
  | none => pos = 0
  | some before => before.offset + before.size = pos

theorem offset_zero (f : Field) : f.offset 0 = 0 := by
  have hpos := f.align_pos
  have hdiv : (0 + f.align - 1) / f.align = 0 := Nat.div_eq_of_lt (by omega)
  rw [Field.offset, alignUp, hdiv, Nat.zero_mul]

theorem holds_of_reset {c : Condition} (h : (if c.SaysFalse then .never else c).holds = true) :
    c.holds = true := by
  split at h
  · cases h
  · exact h

theorem holds_of_markMember {structName : String} {before : Option Placed} {here : Placed}
    {type : Marks} {isArray : Bool} {m : Marks}
    (h : (markMember structName before here type isArray m).overlayable.holds = true) :
    m.overlayable.holds = true ∧ isArray = false ∧ type.overlayable.holds = true ∧
      ∀ p ∈ before, here.offset = p.offset + p.size := by
  have hholds := holds_of_reset h
  by_cases hscalar : isArray = true ∨ type.pointerfree = false
  · rw [if_pos hscalar] at hholds
    cases hholds
  · rw [if_neg hscalar] at hholds
    have harray : isArray = false := by
      cases isArray with
      | false => rfl
      | true => exact absurd (Or.inl rfl) hscalar
    cases before with
    | none =>
      obtain ⟨hm, htype⟩ := Bool.and_eq_true_iff.mp hholds
      exact ⟨hm, harray, htype, fun p hp => nomatch hp⟩
    | some before =>
      obtain ⟨hboth, hadjacent⟩ := Bool.and_eq_true_iff.mp hholds
      obtain ⟨hm, htype⟩ := Bool.and_eq_true_iff.mp hboth
      refine ⟨hm, harray, htype, fun p hp => ?_⟩
      obtain rfl : before = p := by simpa using hp
      exact eq_of_beq hadjacent

theorem overlaid_of_memberMarks {structName : String} :
    (ms : StructMembers) → {m : Marks} → {before : Option Placed} → {pos : Nat} →
    (m.overlayable.holds = true → EndsAt before pos) →
    (memberMarks structName m before pos ms).overlayable.holds = true →
    m.overlayable.holds = true ∧ Overlaid pos ms
  | .nil, _, _, _, _, h => ⟨h, trivial⟩
  | .cons name memberType isArray rest, m, before, pos, hends, h => by
    rw [memberMarks] at h
    -- what the condition says about this member is known from the end of the loop
    have hstep := overlaid_of_memberMarks rest (fun _ => ?_) h
    · obtain ⟨hm, rfl, htype, hadjacent⟩ := holds_of_markMember hstep.1
      have hoffset : memberType.layout.offset pos = pos := by
        cases before with
        | none =>
          rw [show pos = 0 from hends hm]
          exact offset_zero _
        | some p => exact (hadjacent p rfl).trans (hends hm)
      refine ⟨hm, rfl, htype, hoffset, ?_⟩
      have hrest := hstep.2
      simp only [Bool.false_eq_true, if_false, hoffset] at hrest
      exact hrest
    · next hholds =>
      obtain ⟨hm, rfl, -, -⟩ := holds_of_markMember hholds
      rfl

theorem overlaid_of_overlayable {name : String} {ms : StructMembers}
    (h : (TypeDefinition.structure name ms).overlayable = true) : Overlaid 0 ms := by
  have hstart : Condition.always.holds = true → EndsAt none 0 := fun _ => rfl
  exact (overlaid_of_memberMarks ms hstart h).2

theorem Overlaid.contiguous : {ms : StructMembers} → {pos : Nat} → Overlaid pos ms →
    Contiguous pos (fields ms)
  | .nil, _, _ => trivial
  | .cons _ _ _ _, _, ⟨harray, _, hoffset, hrest⟩ => by
    subst harray
    exact ⟨hoffset, hrest.contiguous⟩

mutual

/-- No byte is left over in a structure or in a structure in it: the last member ends where the
structure ends. -/
def compact : TypeDefinition → Bool
  | builtin _ => true
  | enumeration _ => true
  | opaqueType _ => true
  | .structure name members =>
    endFrom 0 (fields members) == (TypeDefinition.structure name members).memSize &&
      compactMembers members

def compactMembers : StructMembers → Bool
  | .nil => true
  | .cons _ memberType _ rest => memberType.compact && compactMembers rest

end

mutual

def booleanFree : TypeDefinition → Bool
  | builtin b => b != .boolean
  | enumeration _ => true
  | opaqueType _ => true
  | .structure _ members => booleanFreeMembers members

def booleanFreeMembers : StructMembers → Bool
  | .nil => true
  | .cons _ memberType _ rest => memberType.booleanFree && booleanFreeMembers rest

end

/-- `DiscoveryConfiguration` of the schema has no members: it is marked, and it is a pointer. -/
example : (TypeDefinition.structure "DiscoveryConfiguration" .nil).overlayable = true ∧
    (TypeDefinition.structure "DiscoveryConfiguration" .nil).compact = false := by
  decide

theorem total_le_memSize (name : String) (ms : StructMembers) :
    payload (fields ms) ≤ (TypeDefinition.structure name ms).memSize := by
  unfold memSize layout
  cases hfields : fields ms with
  | nil => exact Nat.zero_le _
  | cons f fs => exact payload_le_recordSize (f :: fs)

theorem compact_structure {name : String} {ms : StructMembers} (h : Overlaid 0 ms) :
    (TypeDefinition.structure name ms).compact = true ↔
      payload (fields ms) = (TypeDefinition.structure name ms).memSize ∧
        compactMembers ms = true := by
  rw [compact, Bool.and_eq_true, beq_iff_eq, h.contiguous.endFrom_eq, Nat.zero_add]

end FactoryThing.TypeDefinition

namespace FactoryThing.Encoding

open RecordLayout TypeDefinition

def loadGuid (mem : List UInt8) : Guid where
  data1 := .ofNat (LittleEndian.toNat (mem.take 4))
  data2 := .ofNat (LittleEndian.toNat ((mem.drop 4).take 2))
  data3 := .ofNat (LittleEndian.toNat ((mem.drop 6).take 2))
  data4 := .ofFn fun i => mem.getD (8 + i) 0

/-- The value of a builtin type in its memory; `boolean` says what becomes of the byte of a Boolean.
Other types than these have pointers in their memory. -/
def loadBuiltin (boolean : UInt8 → UInt8) (b : Builtin) (mem : List UInt8) : Option Value :=
  match b with
  | .boolean => some (.byte (boolean (mem.headD 0)))
  | .sbyte | .byte => some (.byte (mem.headD 0))
  | .int16 | .uint16 => some (.uint16 (.ofNat (LittleEndian.toNat mem)))
  | .int32 | .uint32 | .float | .statusCode => some (.uint32 (.ofNat (LittleEndian.toNat mem)))
  | .int64 | .uint64 | .double | .dateTime => some (.uint64 (.ofNat (LittleEndian.toNat mem)))
  | .guid => some (.guid (loadGuid mem))
  | _ => none

mutual

/-- The value in the memory of a type, as `UA_encodeBinaryInternal` walks over it. -/
def load (boolean : UInt8 → UInt8) : TypeDefinition → List UInt8 → Option Value
  | .builtin b, mem => loadBuiltin boolean b mem
  | .enumeration _, mem => some (.uint32 (.ofNat (LittleEndian.toNat mem)))
  | .opaqueType _, _ => none
  | .structure _ members, mem => (loadMembers boolean 0 members mem).map .structure

/-- The members behind `pos` in the memory behind it: `ptr` goes on by the padding and by the size
of each member (`ua_types_encoding_binary.c:1322-1337`). -/
def loadMembers (boolean : UInt8 → UInt8) (pos : Nat) :
    StructMembers → List UInt8 → Option Members
  | .nil, _ => some .nil
  | .cons _ memberType isArray rest, mem =>
    if isArray then none
    else do
      let padding := memberType.layout.offset pos - pos
      let v ← load boolean memberType ((mem.drop padding).take memberType.memSize)
      let ms ← loadMembers boolean (pos + padding + memberType.memSize) rest
        (mem.drop (padding + memberType.memSize))
      return .scalar v ms

end

/-- One element more than the number says. -/
def loadElements (boolean : UInt8 → UInt8) (d : TypeDefinition) : Nat → List UInt8 → Option Values
  | 0, mem => (load boolean d (mem.take d.memSize)).map .one
  | n + 1, mem => do
    let v ← load boolean d (mem.take d.memSize)
    let vs ← loadElements boolean d n (mem.drop d.memSize)
    return .cons v vs

/-- The values of an array that is kept as its memory. -/
def loadArray (d : TypeDefinition) : ArrayData → Option ArrayData
  | .overlay block => (loadElements id d (block.length - 1) block.mem).map .elements
  | a => some a

variable {mem : List UInt8}

theorem toNat_lt_of_length {k : Nat} (h : mem.length = k) : LittleEndian.toNat mem < 256 ^ k := by
  rw [← h]
  exact LittleEndian.toNat_lt mem

theorem toBytes_of_length {k : Nat} (h : mem.length = k) :
    LittleEndian.toBytes k (LittleEndian.toNat mem) = mem := by
  rw [← h]
  exact LittleEndian.toBytes_toNat mem

theorem bytes_uint16 (h : mem.length = 2) :
    (uint16Script (.ofNat (LittleEndian.toNat mem))).bytes = mem := by
  rw [uint16Script, Script.bytes, UInt16.toNat_ofNat_of_lt' (toNat_lt_of_length h)]
  exact toBytes_of_length h

theorem bytes_uint32 (h : mem.length = 4) :
    (uint32Script (.ofNat (LittleEndian.toNat mem))).bytes = mem := by
  rw [uint32Script, Script.bytes, UInt32.toNat_ofNat_of_lt' (toNat_lt_of_length h)]
  exact toBytes_of_length h

theorem bytes_uint64 (h : mem.length = 8) :
    (uint64Script (.ofNat (LittleEndian.toNat mem))).bytes = mem := by
  rw [uint64Script, Script.bytes, UInt64.toNat_ofNat_of_lt' (toNat_lt_of_length h)]
  exact toBytes_of_length h

theorem bytes_byte (h : mem.length = 1) : (byteScript (mem.headD 0)).bytes = mem := by
  obtain ⟨x, rfl⟩ := List.length_eq_one_iff.mp h
  rfl

theorem data4_loadGuid (h : mem.length = 16) : (loadGuid mem).data4.toList = mem.drop 8 := by
  apply List.ext_getElem
  · simp [loadGuid, h]
  · intro i h1 h2
    have hi : 8 + i < mem.length := by
      rw [List.length_drop] at h2
      omega
    simp [loadGuid, hi]

theorem bytes_guid (h : mem.length = 16) : (guidScript (loadGuid mem)).bytes = mem := by
  have h1 : (mem.take 4).length = 4 := by rw [List.length_take]; omega
  have h2 : ((mem.drop 4).take 2).length = 2 := by rw [List.length_take, List.length_drop]; omega
  have h3 : ((mem.drop 6).take 2).length = 2 := by rw [List.length_take, List.length_drop]; omega
  rw [guidScript, Script.bytes, Script.bytes, Script.bytes, Script.bytes, data4_loadGuid h,
    loadGuid, bytes_uint32 h1, bytes_uint16 h2, bytes_uint16 h3]
  have h4 : mem.drop 4 = (mem.drop 4).take 2 ++ mem.drop 6 := by
    conv_lhs => rw [← List.take_append_drop 2 (mem.drop 4), List.drop_drop]
  have h6 : mem.drop 6 = (mem.drop 6).take 2 ++ mem.drop 8 := by
    conv_lhs => rw [← List.take_append_drop 2 (mem.drop 6), List.drop_drop]
  rw [List.append_assoc, List.append_assoc, ← h6, ← h4, List.take_append_drop]

theorem loadBuiltin_written {b : Builtin} (h : b.overlayable = true)
    (hlen : mem.length = b.memSize.toNat) : ∃ v, loadBuiltin id b mem = some v ∧
      (script v).FailFree ∧ calcSizeBinaryJumpTable v = b.memSize.toNat ∧
        (script v).bytes = mem := by
  cases b with
  | boolean | sbyte | byte => exact ⟨_, rfl, trivial, rfl, bytes_byte hlen⟩
  | int16 | uint16 => exact ⟨_, rfl, trivial, rfl, bytes_uint16 hlen⟩
  | int32 | uint32 | float | statusCode => exact ⟨_, rfl, trivial, rfl, bytes_uint32 hlen⟩
  | int64 | uint64 | double | dateTime => exact ⟨_, rfl, trivial, rfl, bytes_uint64 hlen⟩
  | guid => exact ⟨_, rfl, ⟨⟨⟨trivial, trivial⟩, trivial⟩, trivial⟩, rfl, bytes_guid hlen⟩
  | _ => cases h

mutual

theorem load_written : (d : TypeDefinition) → d.overlayable = true → {mem : List UInt8} →
    mem.length = d.memSize → ∃ v, load id d mem = some v ∧ (script v).FailFree ∧
      calcSizeBinaryJumpTable v ≤ d.memSize ∧
      (calcSizeBinaryJumpTable v = d.memSize ↔ d.compact = true) ∧
      (d.compact = true → (script v).bytes = mem)
  | .builtin b, h, mem, hlen => by
    obtain ⟨v, hv, hfree, hsize, hbytes⟩ :=
      loadBuiltin_written (b.overlayableCondition_holds.symm.trans h) hlen
    exact ⟨v, hv, hfree, hsize.le, ⟨fun _ => rfl, fun _ => hsize⟩, fun _ => hbytes⟩
  | .enumeration name, h, mem, hlen =>
    ⟨_, rfl, trivial, Nat.le_refl 4, ⟨fun _ => rfl, fun _ => rfl⟩, fun _ => bytes_uint32 hlen⟩
  | .opaqueType name, h, mem, hlen => nomatch h
  | .structure name members, h, mem, hlen => by
    have hover := overlaid_of_overlayable h
    have hle := total_le_memSize name members
    have hroom : payload (fields members) ≤ mem.length := hlen ▸ hle
    obtain ⟨ms, hms, hfree, hsize, hiff, hbytes⟩ := loadMembers_written members hover hroom
    refine ⟨.structure ms, by rw [load, hms]; rfl, hfree, hsize.trans hle, ?_, fun hcompact => ?_⟩
    · rw [compact_structure hover, ← hiff, calcSizeBinaryJumpTable]
      omega
    · obtain ⟨hpayload, hmembers⟩ := (compact_structure hover).mp hcompact
      rw [script, hbytes hmembers, hpayload, ← hlen, List.take_length]

theorem loadMembers_written : (members : StructMembers) → {pos : Nat} → Overlaid pos members →
    {mem : List UInt8} → payload (fields members) ≤ mem.length →
    ∃ ms, loadMembers id pos members mem = some ms ∧ (membersScript ms).FailFree ∧
      calcSizeMembers ms ≤ payload (fields members) ∧
      (calcSizeMembers ms = payload (fields members) ↔ compactMembers members = true) ∧
      (compactMembers members = true →
        (membersScript ms).bytes = mem.take (payload (fields members)))
  | .nil, _, _, mem, _ =>
    ⟨.nil, rfl, trivial, Nat.le_refl 0, ⟨fun _ => rfl, fun _ => rfl⟩, fun _ => rfl⟩
  | .cons name memberType isArray rest, pos, ⟨harray, htype, hoffset, hrest⟩, mem, hlen => by
    subst harray
    have hpayload : payload (fields (.cons name memberType false rest)) =
        memberType.memSize + payload (fields rest) := payload_cons _ _
    rw [hpayload] at hlen
    have htake : (mem.take memberType.memSize).length = memberType.memSize := by
      rw [List.length_take]
      omega
    have hdrop : payload (fields rest) ≤ (mem.drop memberType.memSize).length := by
      rw [List.length_drop]
      omega
    obtain ⟨v, hv, hfree, hsize, hiff, hbytes⟩ := load_written memberType htype htake
    obtain ⟨ms, hms, hfrees, hsizes, hiffs, hbytess⟩ := loadMembers_written rest hrest hdrop
    refine ⟨.scalar v ms, ?_, ⟨hfree, hfrees⟩, ?_, ?_, fun hcompact => ?_⟩
    · simp [loadMembers, hoffset, hv, hms]
    · rw [hpayload, calcSizeMembers]
      omega
    · rw [hpayload, calcSizeMembers, compactMembers, Bool.and_eq_true, ← hiff, ← hiffs]
      omega
    · obtain ⟨hc, hcs⟩ := Bool.and_eq_true_iff.mp hcompact
      rw [hpayload, List.take_add]
      exact congrArg₂ _ (hbytes hc) (hbytess hcs)

end

theorem loadElements_written {d : TypeDefinition} (h : d.overlayable = true) (n : Nat)
    (hlen : mem.length = (n + 1) * d.memSize) :
    ∃ vs, loadElements id d n mem = some vs ∧ vs.length = n + 1 ∧ (valuesScript vs).FailFree ∧
      (calcSizeValues vs = mem.length ↔ d.compact = true) ∧ calcSizeValues vs ≤ mem.length ∧
      (d.compact = true → (valuesScript vs).bytes = mem) := by
  induction n generalizing mem with
  | zero =>
    rw [Nat.zero_add, Nat.one_mul] at hlen
    obtain ⟨v, hv, hfree, hsize, hiff, hbytes⟩ := load_written d h hlen
    refine ⟨.one v, ?_, rfl, hfree, hlen ▸ hiff, hlen ▸ hsize, hbytes⟩
    rw [loadElements, ← hlen, List.take_length, hv]
    rfl
  | succ n ih =>
    rw [Nat.succ_mul] at hlen
    have htake : (mem.take d.memSize).length = d.memSize := by
      rw [List.length_take]
      omega
    have hdrop : (mem.drop d.memSize).length = (n + 1) * d.memSize := by
      rw [List.length_drop]
      omega
    obtain ⟨v, hv, hfree, hsize, hiff, hbytes⟩ := load_written d h htake
    obtain ⟨vs, hvs, hlength, hfrees, hiffs, hsizes, hbytess⟩ := ih hdrop
    refine ⟨.cons v vs, ?_, ?_, ⟨hfree, hfrees⟩, ?_, ?_, fun hcompact => ?_⟩
    · rw [loadElements, hv, hvs]
      rfl
    · rw [Values.length, hlength]
    · rw [calcSizeValues, hlen]
      constructor
      · intro hall
        exact hiff.mp (by omega)
      · intro hcompact
        rw [hiff.mpr hcompact, hiffs.mpr hcompact, hdrop, Nat.add_comm]
    · rw [calcSizeValues]
      omega
    · rw [valuesScript, Script.bytes, Script.bytes, hbytes hcompact, hbytess hcompact,
        List.take_append_drop]

end FactoryThing.Encoding
