import FactoryThing.Lib.Runs
import FactoryThing.Types.StatusCode
import Mathlib.Logic.Function.Basic

/-!
# Editing nodes

`UA_Server_editNode` (`src/server/ua_server_utils.c:261-292`) with `UA_NodeStore_getCopy` and
`UA_NodeStore_replace` of the concurrent node store
(`src/server/ua_nodestore_concurrent.c:147-218`), for one node and any number of threads. A thread
reaches what is shared once in each of its steps. The hash table of liburcu is the entry that a
lookup finds, which a replacement exchanges in one step if it is still there; what is given to
`call_rcu` is freed when all threads that were in a read-side critical section have left it.
-/

namespace FactoryThing.NodeStore

/-- A call of `UA_Server_editNode`: its number, and the callback with its data. -/
structure EditCall (C : Type) where
  id : Nat
  edit : C
  deriving DecidableEq

/-- `struct nodeEntry`. The last three fields are not in the source: the entries are numbered as
they are allocated, and a copy knows the number of the entry it was made from and its thread, until
it is stored. -/
structure NodeEntry (α T : Type) where
  orig : Option Nat
  node : α
  serial : Nat
  origSerial : Nat
  owner : Option T
  deriving DecidableEq

/-- Where a thread is in the loop of `UA_Server_editNode`. -/
inductive EditPc (C : Type) where
  | idle
  /-- in front of `UA_RCU_LOCK` -/
  | begun (call : EditCall C)
  /-- in `UA_NodeStore_getCopy`, in front of the lookup, and behind it -/
  | reading (call : EditCall C)
  | found (call : EditCall C) (entry : Nat)
  /-- in front of `UA_RCU_UNLOCK`, without and with a copy -/
  | noCopy (call : EditCall C)
  | copied (call : EditCall C) (copy : Nat)
  /-- outside of the critical section, in front of the callback, and behind it -/
  | editing (call : EditCall C) (copy : Nat)
  | edited (call : EditCall C) (copy : Nat)
  /-- in `UA_NodeStore_replace`, in front of the lookup, and of `cds_lfht_replace` -/
  | replacing (call : EditCall C) (copy : Nat)
  | matched (call : EditCall C) (copy oldEntry : Nat)
  /-- in front of the last `UA_RCU_UNLOCK` -/
  | failed (call : EditCall C)
  | succeeded (call : EditCall C)
  deriving DecidableEq

/-- The store with the node that is edited, and the threads. `applied` holds the calls whose copies
have been stored, in this order. -/
structure EditState (α C T : Type) where
  heap : Nat → Option (NodeEntry α T)
  stored : Option Nat
  retired : List (Nat × List T)
  threads : T → EditPc C
  readers : List T
  serials : Nat
  calls : Nat
  applied : List (EditCall C)
  returned : List (EditCall C × StatusCode)

/-- What happens: a call, the next step of a thread with the address that `UA_calloc` gives it, and
the release of an entry. -/
inductive EditAction (C T : Type) where
  | call (t : T) (edit : C)
  | next (t : T) (granted : Option Nat)
  | reclaim (n : Nat)
  deriving DecidableEq

namespace EditState

variable {α C T : Type} [DecidableEq T] (callback : C → α → StatusCode × α)

/-- One node, and all threads idle. -/
def init (address : Nat) (node : α) : EditState α C T where
  heap := Function.update (fun _ => none) address (some ⟨none, node, 0, 0, none⟩)
  stored := some address
  retired := []
  threads := fun _ => .idle
  readers := []
  serials := 1
  calls := 0
  applied := []
  returned := []

def goto (s : EditState α C T) (t : T) (pc : EditPc C) : EditState α C T :=
  { s with threads := Function.update s.threads t pc }

/-- `UA_RCU_LOCK`. -/
def lock (s : EditState α C T) (t : T) : EditState α C T := { s with readers := t :: s.readers }

/-- `UA_RCU_UNLOCK`: nobody waits for the thread any more. -/
def unlock (s : EditState α C T) (t : T) : EditState α C T :=
  { s with
    readers := s.readers.filter fun u => u ≠ t
    retired := s.retired.map fun p => (p.1, p.2.filter fun u => u ≠ t) }

def put (s : EditState α C T) (address : Nat) (entry : Option (NodeEntry α T)) : EditState α C T :=
  { s with heap := Function.update s.heap address entry }

/-- The copy of an entry in `UA_NodeStore_getCopy`. -/
def allocate (s : EditState α C T) (t : T) (copy entry : Nat) (e : NodeEntry α T) :
    EditState α C T :=
  { s.put copy (some ⟨some entry, e.node, s.serials, e.serial, some t⟩) with
    serials := s.serials + 1 }

/-- `cds_lfht_replace` and `call_rcu`: the copy takes the place of the old entry. -/
def store (s : EditState α C T) (call : EditCall C) (copy oldEntry : Nat) (e : NodeEntry α T) :
    EditState α C T :=
  { s.put copy (some { e with owner := none }) with
    stored := some copy
    retired := (oldEntry, s.readers) :: s.retired
    applied := s.applied ++ [call] }

def finish (s : EditState α C T) (t : T) (call : EditCall C) (retval : StatusCode) :
    EditState α C T :=
  { s.goto t .idle with returned := (call, retval) :: s.returned }

/-- The next step of a thread, `none` if there is none. -/
def next (s : EditState α C T) (t : T) (granted : Option Nat) : Option (EditState α C T) :=
  match s.threads t with
  | .idle => none
  | .begun call => some ((s.lock t).goto t (.reading call))
  | .reading call =>
      match s.stored with
      | none => some (s.goto t (.noCopy call))
      | some entry => some (s.goto t (.found call entry))
  | .found call entry =>
      match granted with
      | none => some (s.goto t (.noCopy call))
      | some copy =>
          match s.heap entry, s.heap copy with
          | some e, none => some ((s.allocate t copy entry e).goto t (.copied call copy))
          | _, _ => none
  | .noCopy call => some ((s.unlock t).finish t call StatusCode.badOutOfMemory)
  | .copied call copy => some ((s.unlock t).goto t (.editing call copy))
  | .editing call copy =>
      match s.heap copy with
      | none => none
      | some e =>
          let (retval, node) := callback call.edit e.node
          if retval = StatusCode.good then
            some ((s.put copy (some { e with node := node })).goto t (.edited call copy))
          else some ((s.put copy none).finish t call retval)
  | .edited call copy => some ((s.lock t).goto t (.replacing call copy))
  | .replacing call copy =>
      match s.stored, s.heap copy with
      | none, _ => some (s.goto t (.failed call))
      | some oldEntry, some e =>
          if some oldEntry ≠ e.orig then some ((s.put copy none).goto t (.failed call))
          else some (s.goto t (.matched call copy oldEntry))
      | some _, none => none
  | .matched call copy oldEntry =>
      match s.heap copy with
      | none => none
      | some e =>
          if s.stored = some oldEntry then
            some ((s.store call copy oldEntry e).goto t (.succeeded call))
          else some ((s.put copy none).goto t (.failed call))
  | .failed call => some ((s.unlock t).goto t (.begun call))
  | .succeeded call => some ((s.unlock t).finish t call StatusCode.good)

/-- A thread calls `UA_Server_editNode`. -/
def begin (s : EditState α C T) (t : T) (edit : C) : Option (EditState α C T) :=
  match s.threads t with
  | .idle => some { s.goto t (.begun ⟨s.calls, edit⟩) with calls := s.calls + 1 }
  | _ => none

/-- An entry that nobody is waited for is freed (`deleteEntry`). -/
def reclaim (s : EditState α C T) (n : Nat) : Option (EditState α C T) :=
  match s.retired[n]? with
  | some (address, []) => some { s.put address none with retired := s.retired.eraseIdx n }
  | _ => none

/-- What can happen; `.error` for what cannot. -/
def step (s : EditState α C T) (action : EditAction C T) : Except Unit (EditState α C T × Unit) :=
  let after := match action with
    | .call t edit => s.begin t edit
    | .next t granted => s.next callback t granted
    | .reclaim n => s.reclaim n
  match after with
  | none => .error ()
  | some s => .ok (s, ())

end EditState

end FactoryThing.NodeStore
