import FactoryThing.Types.StatusCode

/-!
# Strings, Guids and NodeIds

The identifier types of `include/ua_types.h` and the functions on them in `src/ua_types.c`
that the node store, the sessions and the binary encoding share.
-/

namespace FactoryThing

/-- An array as the code keeps it: a `size_t` length beside a pointer. A length of zero goes with
`NULL` (an undefined array, `null`), with `UA_EMPTY_ARRAY_SENTINEL` (an array of length zero,
`sentinel`) or with an ordinary pointer (`mem []`, as `UA_STRING("")` makes it); a positive length
always goes with an ordinary pointer (`include/ua_types.h:845-851`). -/
inductive CArray (α : Type) where
  | null
  | sentinel
  | mem (items : List α)
  deriving DecidableEq

namespace CArray

variable {α : Type}

def items : CArray α → List α
  | null => []
  | sentinel => []
  | mem items => items

/-- The `length` field. -/
def length (a : CArray α) : Nat := a.items.length

@[simp] theorem items_null : (null : CArray α).items = [] := rfl
@[simp] theorem items_sentinel : (sentinel : CArray α).items = [] := rfl
@[simp] theorem items_mem (xs : List α) : (mem xs).items = xs := rfl
@[simp] theorem length_null : (null : CArray α).length = 0 := rfl
@[simp] theorem length_sentinel : (sentinel : CArray α).length = 0 := rfl
@[simp] theorem length_mem (xs : List α) : (mem xs).length = xs.length := rfl

end CArray

/-- `UA_String`, and with it `UA_ByteString` and `UA_XmlElement`. -/
abbrev UaString := CArray UInt8

/-- `UA_String_equal` (`src/ua_types.c:80-87`): equal lengths and equal bytes. -/
def stringEqual (s1 s2 : UaString) : Bool := s1.items == s2.items

/-- `UA_Guid` (`include/ua_types.h`); `data4` holds eight bytes. -/
structure Guid where
  data1 : UInt32
  data2 : UInt16
  data3 : UInt16
  data4 : Vector UInt8 8
  deriving DecidableEq

/-- `UA_NodeId.identifier` together with `UA_NodeId.identifierType`. -/
inductive NodeIdentifier where
  | numeric (n : UInt32)
  | string (s : UaString)
  | guid (g : Guid)
  | byteString (s : UaString)
  deriving DecidableEq

/-- `UA_NodeId` (`include/ua_types.h:289-298`). -/
structure NodeId where
  namespaceIndex : UInt16
  identifier : NodeIdentifier
  deriving DecidableEq

/-- `UA_NodeId_isNull` (`src/ua_types.c:224-249`). -/
def nodeIdIsNull (p : NodeId) : Bool :=
  if p.namespaceIndex ≠ 0 then false
  else match p.identifier with
    | .numeric n => n == 0
    | .guid g => g.data1 == 0 && g.data2 == 0 && g.data3 == 0 && g.data4.toList.all (· == 0)
    | .string s => s.length == 0
    | .byteString s => s.length == 0

/-- `UA_NodeId_equal` (`src/ua_types.c:251-274`). -/
def nodeIdEqual (n1 n2 : NodeId) : Bool :=
  n1.namespaceIndex == n2.namespaceIndex &&
    match n1.identifier, n2.identifier with
    | .numeric a, .numeric b => a == b
    | .string a, .string b => stringEqual a b
    | .guid a, .guid b => a == b
    | .byteString a, .byteString b => stringEqual a b
    | _, _ => false

/-- `fnv32` (`src/ua_types.c:279-286`). -/
def fnv32 (fnv : UInt32) (buf : List UInt8) : UInt32 :=
  buf.foldl (fun fnv b => (fnv ^^^ b.toUInt32) * 16777619) fnv

/-- The sixteen bytes of a `UA_Guid` in memory on a little-endian machine. -/
def guidMemory (g : Guid) : List UInt8 :=
  [g.data1.toUInt8, (g.data1 >>> 8).toUInt8, (g.data1 >>> 16).toUInt8, (g.data1 >>> 24).toUInt8,
    g.data2.toUInt8, (g.data2 >>> 8).toUInt8, g.data3.toUInt8, (g.data3 >>> 8).toUInt8] ++
    g.data4.toList

/-- `UA_NodeId_hash` (`src/ua_types.c:288-301`). -/
def nodeIdHash (n : NodeId) : UInt32 :=
  match n.identifier with
  | .numeric i => n.namespaceIndex.toUInt32 + i * 2654435761
  | .string s => fnv32 n.namespaceIndex.toUInt32 s.items
  | .byteString s => fnv32 n.namespaceIndex.toUInt32 s.items
  | .guid g => fnv32 n.namespaceIndex.toUInt32 (guidMemory g)

/-! `UA_NodeId_equal` is an equivalence, coarser than equality only in not seeing which pointer
an empty string has; equal NodeIds hash alike. -/

theorem nodeIdEqual_refl (n : NodeId) : nodeIdEqual n n = true := by
  cases n with
  | mk ns ident => cases ident <;> simp [nodeIdEqual, stringEqual]

theorem nodeIdEqual_symm {n1 n2 : NodeId} (h : nodeIdEqual n1 n2 = true) :
    nodeIdEqual n2 n1 = true := by
  obtain ⟨ns1, i1⟩ := n1
  obtain ⟨ns2, i2⟩ := n2
  cases i1 <;> cases i2 <;> simp_all [nodeIdEqual, stringEqual]

theorem nodeIdEqual_trans {n1 n2 n3 : NodeId} (h12 : nodeIdEqual n1 n2 = true)
    (h23 : nodeIdEqual n2 n3 = true) : nodeIdEqual n1 n3 = true := by
  obtain ⟨ns1, i1⟩ := n1
  obtain ⟨ns2, i2⟩ := n2
  obtain ⟨ns3, i3⟩ := n3
  cases i1 <;> cases i2 <;> cases i3 <;> simp_all [nodeIdEqual, stringEqual]

theorem nodeIdHash_congr {n1 n2 : NodeId} (h : nodeIdEqual n1 n2 = true) :
    nodeIdHash n1 = nodeIdHash n2 := by
  obtain ⟨ns1, i1⟩ := n1
  obtain ⟨ns2, i2⟩ := n2
  cases i1 <;> cases i2 <;> simp_all [nodeIdEqual, stringEqual, nodeIdHash]

end FactoryThing
