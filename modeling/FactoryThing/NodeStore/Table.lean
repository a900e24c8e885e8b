import FactoryThing.Types.NodeId
import FactoryThing.Lib.Loop
import FactoryThing.Lib.OpenAddressing

/-!
# The node store

`src/server/ua_nodestore.c` (the single-threaded build): a hash map from NodeIds to nodes with
open addressing and double hashing. Table sizes are primes, removed entries leave a tombstone,
and `expand` rehashes in both directions. `UA_UInt32` arithmetic is arithmetic on `Nat` reduced by
`wrap32` wherever the code's value can leave 32 bits. The field `sizePrimeIndex` is written but
never read and is left out.
-/

namespace FactoryThing.NodeStore

/-- Reduction of a `UA_UInt32` computation. -/
def wrap32 (n : Nat) : Nat := n % 4294967296

/-- `UA_Node`: its id, and everything else the store does not look at. -/
structure Node (A : Type) where
  nodeId : NodeId
  attributes : A
  deriving DecidableEq

/-- `UA_NodeStoreEntry` (`ua_nodestore.c:13-16`). `addr` is the address the entry was allocated
at, and `orig` the address of the entry this one is a copy of (`none` for `NULL`). -/
structure Entry (A : Type) where
  addr : Nat
  orig : Option Nat
  node : Node A
  deriving DecidableEq

/-- What `ns->entries[i]` can be: `NULL`, `UA_NODESTORE_TOMBSTONE` or a pointer to an entry. -/
abbrev Slot (A : Type) := OpenAddressing.Cell (Entry A)

/-- `struct UA_NodeStore` (`ua_nodestore.c:20-25`). -/
structure Store (A : Type) where
  entries : List (Slot A)
  size : Nat
  count : Nat
  deriving DecidableEq

variable {A : Type}

/-- `ns->entries[idx]`. -/
def Store.slotAt (ns : Store A) (idx : Nat) : Slot A := ns.entries.getD idx .null

/-- `ns->entries[idx] = slot`. -/
def Store.setSlot (ns : Store A) (idx : Nat) (slot : Slot A) : Store A :=
  { ns with entries := ns.entries.set idx slot }

/-- `UA_NODESTORE_MINSIZE` (`ua_nodestore.c:11`). -/
def nodestoreMinsize : Nat := 64

/-- `primes` (`ua_nodestore.c:29-34`). -/
def primes : List Nat :=
  [7, 13, 31, 61, 127, 251,
   509, 1021, 2039, 4093, 8191, 16381,
   32749, 65521, 131071, 262139, 524287, 1048573,
   2097143, 4194301, 8388593, 16777213, 33554393, 67108859,
   134217689, 268435399, 536870909, 1073741789, 2147483647, 4294967291]

/-- `mod` (`ua_nodestore.c:36`). -/
def mod (h size : Nat) : Nat := h % size

/-- `mod2` (`ua_nodestore.c:37`). -/
def mod2 (h size : Nat) : Nat := 1 + h % (size - 2)

/-- The loop of `higher_prime_index`: binary search between `low` and `high`. -/
def higherPrimeIndexLoop (n : Nat) : Nat → Nat → Nat → Nat
  | 0, low, _ => low
  | fuel + 1, low, high =>
      if low = high then low
      else
        let mid := low + (high - low) / 2
        if n > primes.getD mid 0 then higherPrimeIndexLoop n fuel (mid + 1) high
        else higherPrimeIndexLoop n fuel low mid

/-- `higher_prime_index` (`ua_nodestore.c:39-51`). The interval shrinks in every iteration, so
its initial length bounds them. -/
def higherPrimeIndex (n : Nat) : Nat :=
  higherPrimeIndexLoop n primes.length 0 primes.length

/-- `idx += hash2; if(idx >= size) idx -= size;` -/
def advance (size hash2 idx : Nat) : Nat :=
  let idx := wrap32 (idx + hash2)
  if idx ≥ size then idx - size else idx

/-- One iteration of the loop of `findNode`. -/
def findNodeBody (ns : Store A) (nodeid : NodeId) (hash2 idx : Nat) : Option Nat ⊕ Nat :=
  match ns.slotAt idx with
  | .null => .inl none
  | .tombstone => .inr (advance ns.size hash2 idx)
  | .entry e =>
      if nodeIdEqual e.node.nodeId nodeid then .inl (some idx)
      else .inr (advance ns.size hash2 idx)

/-- One iteration of the loop of `findSlot`. -/
def findSlotBody (ns : Store A) (nodeid : NodeId) (hash2 idx : Nat) : Option Nat ⊕ Nat :=
  match ns.slotAt idx with
  | .null => .inl (some idx)
  | .tombstone => .inl (some idx)
  | .entry e =>
      if nodeIdEqual e.node.nodeId nodeid then .inl none
      else .inr (advance ns.size hash2 idx)

def startIndex (ns : Store A) (nodeid : NodeId) : Nat := mod (nodeIdHash nodeid).toNat ns.size

def stride (ns : Store A) (nodeid : NodeId) : Nat := mod2 (nodeIdHash nodeid).toNat ns.size

/-- `findNode` (`ua_nodestore.c:98-121`): the slot of the node, `none` for `NULL`. The loop index
is below `size` throughout, so a search that is still running after `size` probes never ends. -/
def findNode (ns : Store A) (nodeid : NodeId) : Except Fault (Option Nat) :=
  match Loop.whileTrue (findNodeBody ns nodeid (stride ns nodeid)) ns.size
      (startIndex ns nodeid) with
  | some r => .ok r
  | none => .error .diverges

/-- `findSlot` (`ua_nodestore.c:123-144`): a slot to put the node in, `none` if the NodeId was
met first. -/
def findSlot (ns : Store A) (nodeid : NodeId) : Except Fault (Option Nat) :=
  match Loop.whileTrue (findSlotBody ns nodeid (stride ns nodeid)) ns.size
      (startIndex ns nodeid) with
  | some r => .ok r
  | none => .error .diverges

/-- The rehashing loop of `expand` (`ua_nodestore.c:166-174`): `j` entries have been moved into
`ns` so far. A `NULL` from `findSlot` is written through. -/
def rehash (count : Nat) : Store A → List (Slot A) → Nat → Except Fault (Store A)
  | ns, [], _ => .ok ns
  | ns, slot :: rest, j =>
      if j < count then
        match slot with
        | .entry e =>
            match findSlot ns e.node.nodeId with
            | .error f => .error f
            | .ok none => .error .nullDeref
            | .ok (some idx) => rehash count (ns.setSlot idx (.entry e)) rest (j + 1)
        | _ => rehash count ns rest j
      else .ok ns

/-- `expand` (`ua_nodestore.c:147-179`); `alloc` tells whether the new table can be allocated. -/
def expand (ns : Store A) (alloc : Bool) : Except Fault (Store A × StatusCode) :=
  if wrap32 (ns.count * 2) < ns.size ∧
      (wrap32 (ns.count * 8) > ns.size ∨ ns.size ≤ nodestoreMinsize) then
    .ok (ns, StatusCode.good)
  else
    match primes[higherPrimeIndex (wrap32 (ns.count * 2))]? with
    | none => .error .outOfBounds
    | some nsize =>
        if alloc then
          match rehash ns.count ⟨List.replicate nsize .null, nsize, ns.count⟩ ns.entries 0 with
          | .error f => .error f
          | .ok ns' => .ok (ns', StatusCode.good)
        else .ok (ns, StatusCode.badOutOfMemory)

/-- `UA_NodeStore_new` (`ua_nodestore.c:185-199`), allocation succeeding. -/
def nodeStoreNew : Store A :=
  let size := primes.getD (higherPrimeIndex nodestoreMinsize) 0
  ⟨List.replicate size .null, size, 0⟩

/-- The guard in front of the insertion (`ua_nodestore.c:229-232`): make room first. -/
def makeRoom (ns : Store A) (alloc : Bool) : Except Fault (Store A × StatusCode) :=
  if wrap32 (ns.size * 3) ≤ wrap32 (ns.count * 4) then expand ns alloc
  else .ok (ns, StatusCode.good)

/-- `node->nodeId.identifier.numeric = identifier`: a write to the identifier union that leaves
the identifier type alone. Over a string it overwrites the length beside a pointer to nothing,
and the next hash reads from there. -/
def setNumericIdentifier (nodeId : NodeId) (identifier : UInt32) : Except Fault NodeId :=
  match nodeId.identifier with
  | .numeric _ => .ok { nodeId with identifier := .numeric identifier }
  | .guid g => .ok { nodeId with identifier := .guid { g with data1 := identifier } }
  | .string _ => .error .outOfBounds
  | .byteString _ => .error .outOfBounds

/-- One iteration of the loop that tries numeric identifiers (`ua_nodestore.c:245-253`). -/
def freshIdBody (ns : Store A) (nodeId : NodeId) (increase identifier : Nat) :
    Except Fault (NodeId × Nat) ⊕ Nat :=
  match setNumericIdentifier nodeId (UInt32.ofNat identifier) with
  | .error f => .inl (.error f)
  | .ok candidate =>
      match findSlot ns candidate with
      | .error f => .inl (.error f)
      | .ok (some idx) => .inl (.ok (candidate, idx))
      | .ok none => .inr (advance ns.size increase identifier)

/-- The choice of the NodeId and of the slot (`ua_nodestore.c:234-260`); `none` if the NodeId
exists. A null NodeId is replaced by an unused one. -/
def chooseSlot (ns : Store A) (nodeId : NodeId) : Except Fault (Option (NodeId × Nat)) :=
  if nodeIdIsNull { nodeId with namespaceIndex := 0 } then
    let nodeId := if nodeId.namespaceIndex = 0 then { nodeId with namespaceIndex := 1 } else nodeId
    let identifier := wrap32 (ns.count + 1)
    let increase := mod2 identifier ns.size
    match Loop.whileTrue (freshIdBody ns nodeId increase) ns.size identifier with
    | none => .error .diverges
    | some (.error f) => .error f
    | some (.ok choice) => .ok (some choice)
  else
    match findSlot ns nodeId with
    | .error f => .error f
    | .ok none => .ok none
    | .ok (some idx) => .ok (some (nodeId, idx))

/-- `UA_NodeStore_insert` (`ua_nodestore.c:227-266`). -/
def nodeStoreInsert (ns : Store A) (newEntry : Entry A) (alloc : Bool) :
    Except Fault (Store A × StatusCode) :=
  match makeRoom ns alloc with
  | .error f => .error f
  | .ok (ns, status) =>
      if status ≠ StatusCode.good then .ok (ns, StatusCode.badInternalError)
      else
        match chooseSlot ns newEntry.node.nodeId with
        | .error f => .error f
        | .ok none => .ok (ns, StatusCode.badNodeIdExists)
        | .ok (some (nodeId, idx)) =>
            let stored := { newEntry with node := { newEntry.node with nodeId := nodeId } }
            .ok ({ ns.setSlot idx (.entry stored) with count := wrap32 (ns.count + 1) },
              StatusCode.good)

/-- `UA_NodeStore_replace` (`ua_nodestore.c:268-283`). -/
def nodeStoreReplace (ns : Store A) (newEntry : Entry A) : Except Fault (Store A × StatusCode) :=
  match findNode ns newEntry.node.nodeId with
  | .error f => .error f
  | .ok none => .ok (ns, StatusCode.badNodeIdUnknown)
  | .ok (some idx) =>
      match ns.slotAt idx with
      | .entry e =>
          if some e.addr ≠ newEntry.orig then .ok (ns, StatusCode.badInternalError)
          else .ok (ns.setSlot idx (.entry newEntry), StatusCode.good)
      | _ => .error .nullDeref

/-- `UA_NodeStore_get` (`ua_nodestore.c:285-291`). -/
def nodeStoreGet (ns : Store A) (nodeid : NodeId) : Except Fault (Option (Node A)) :=
  match findNode ns nodeid with
  | .error f => .error f
  | .ok none => .ok none
  | .ok (some idx) =>
      match ns.slotAt idx with
      | .entry e => .ok (some e.node)
      | _ => .error .nullDeref

/-- `UA_NodeStore_remove` (`ua_nodestore.c:310-322`); a failing `expand` is ignored. -/
def nodeStoreRemove (ns : Store A) (nodeid : NodeId) (alloc : Bool) :
    Except Fault (Store A × StatusCode) :=
  match findNode ns nodeid with
  | .error f => .error f
  | .ok none => .ok (ns, StatusCode.badNodeIdUnknown)
  | .ok (some idx) =>
      let ns := { ns.setSlot idx .tombstone with count := wrap32 (ns.count + 4294967295) }
      if wrap32 (ns.count * 8) < ns.size ∧ ns.size > 32 then
        match expand ns alloc with
        | .error f => .error f
        | .ok (ns, _) => .ok (ns, StatusCode.good)
      else .ok (ns, StatusCode.good)

/-- A call of one of the exported functions. -/
inductive Op (A : Type) where
  | insert (e : Entry A) (alloc : Bool)
  | replace (e : Entry A)
  | remove (nodeid : NodeId) (alloc : Bool)
  | get (nodeid : NodeId)

inductive Reply (A : Type) where
  | status (s : StatusCode)
  | node (n : Option (Node A))
  deriving DecidableEq

/-- One call; an error is a call that does not return. -/
def step (ns : Store A) : Op A → Except Fault (Store A × Reply A)
  | .insert e alloc => (nodeStoreInsert ns e alloc).map fun (ns, s) => (ns, .status s)
  | .replace e => (nodeStoreReplace ns e).map fun (ns, s) => (ns, .status s)
  | .remove nodeid alloc => (nodeStoreRemove ns nodeid alloc).map fun (ns, s) => (ns, .status s)
  | .get nodeid => (nodeStoreGet ns nodeid).map fun n => (ns, .node n)

end FactoryThing.NodeStore
