import FactoryThing.NodeStore.Probes
import FactoryThing.Lib.Probe
import FactoryThing.Lib.Primality

/-!
# The two searches

In a table of prime size below `2^31` the loop index of `findNode` and `findSlot` runs along
`Probe.index`, and the search stops at the first slot of that path that its body leaves at.
-/

namespace FactoryThing.NodeStore

variable {A : Type} {ns : Store A} {nodeid : NodeId}

theorem primes_prime : ∀ i < 29, (primes.getD i 0).Prime := by
  have h25 : Nat.Prime 268435399 :=
    Primality.prime_of_lucasCheck 3 [2, 3, 7, 11, 581029] (by norm_num)
      (by norm_num) (by norm_num) (by simp only [List.forall_mem_cons]; norm_num)
      (by decide +kernel)
  have h26 : Nat.Prime 536870909 :=
    Primality.prime_of_lucasCheck 2 [2, 2, 7, 73, 262657] (by norm_num)
      (by norm_num) (by norm_num) (by simp only [List.forall_mem_cons]; norm_num)
      (by decide +kernel)
  have h27 : Nat.Prime 1073741789 :=
    Primality.prime_of_lucasCheck 2 [2, 2, 7, 2341, 16381] (by norm_num)
      (by norm_num) (by norm_num) (by simp only [List.forall_mem_cons]; norm_num)
      (by decide +kernel)
  have h28 : Nat.Prime 2147483647 :=
    Primality.prime_of_lucasCheck 7 [2, 3, 3, 7, 11, 31, 151, 331] (by norm_num)
      (by norm_num) (by norm_num) (by simp only [List.forall_mem_cons]; norm_num)
      (by decide +kernel)
  intro i hi
  interval_cases i <;> simp only [primes, List.getD_cons_succ, List.getD_cons_zero] <;>
    first | assumption | norm_num

theorem primes_strictMono : ∀ i < 29, primes.getD i 0 < primes.getD (i + 1) 0 := by
  decide

/-- The sizes a table has: the invariant part that the searches need. -/
structure Sized (ns : Store A) : Prop where
  prime : ns.size.Prime
  seven_le : 7 ≤ ns.size
  lt : ns.size < 2147483648
  length_eq : ns.entries.length = ns.size

/-- The slots probed for a NodeId, in order. -/
def path (ns : Store A) (nodeid : NodeId) (k : Nat) : Nat :=
  Probe.index ns.size (startIndex ns nodeid) (stride ns nodeid) k

/-- Keys, key equality and probe paths of a table with `size` slots. -/
def hashing (A : Type) (size : Nat) : OpenAddressing.Hashing NodeId (Entry A) where
  key e := e.node.nodeId
  same := nodeIdEqual
  path nodeid k :=
    Probe.index size (mod (nodeIdHash nodeid).toNat size) (mod2 (nodeIdHash nodeid).toNat size) k
  same_refl := nodeIdEqual_refl
  same_symm := nodeIdEqual_symm
  same_trans := nodeIdEqual_trans
  path_congr h := by rw [nodeIdHash_congr h]

namespace Sized

theorem size_pos (hs : Sized ns) : 0 < ns.size := hs.prime.pos

theorem startIndex_lt (hs : Sized ns) (nodeid : NodeId) : startIndex ns nodeid < ns.size :=
  Nat.mod_lt _ hs.size_pos

theorem stride_pos (ns : Store A) (nodeid : NodeId) : 0 < stride ns nodeid := by
  unfold stride mod2; omega

theorem stride_lt (hs : Sized ns) (nodeid : NodeId) : stride ns nodeid < ns.size := by
  have h := hs.seven_le
  have := Nat.mod_lt (nodeIdHash nodeid).toNat (show 0 < ns.size - 2 by omega)
  unfold stride mod2
  omega

theorem path_lt (hs : Sized ns) (nodeid : NodeId) (k : Nat) : path ns nodeid k < ns.size :=
  Probe.index_lt hs.size_pos

theorem path_zero (hs : Sized ns) (nodeid : NodeId) :
    path ns nodeid 0 = startIndex ns nodeid :=
  Probe.index_zero (hs.startIndex_lt nodeid)

theorem advance_index (hs : Sized ns) {start hash2 : Nat} (hstride : hash2 < ns.size) (k : Nat) :
    advance ns.size hash2 (Probe.index ns.size start hash2 k) =
      Probe.index ns.size start hash2 (k + 1) := by
  have hlt : Probe.index ns.size start hash2 k < ns.size := Probe.index_lt hs.size_pos
  have hsize := hs.lt
  have hwrap : wrap32 (Probe.index ns.size start hash2 k + hash2) =
      Probe.index ns.size start hash2 k + hash2 := Nat.mod_eq_of_lt (by omega)
  rw [Probe.index_succ hs.size_pos hstride]
  simp only [advance, hwrap]

theorem advance_path (hs : Sized ns) (nodeid : NodeId) (k : Nat) :
    advance ns.size (stride ns nodeid) (path ns nodeid k) = path ns nodeid (k + 1) :=
  hs.advance_index (hs.stride_lt nodeid) k

theorem path_surj (hs : Sized ns) (nodeid : NodeId) {i : Nat} (hi : i < ns.size) :
    ∃ k < ns.size, path ns nodeid k = i :=
  Probe.index_surj hs.prime (stride_pos ns nodeid) (hs.stride_lt nodeid) hi

end Sized

namespace Sized

theorem shaped (hs : Sized ns) : Shaped ns := ⟨hs.seven_le, hs.length_eq⟩

theorem path_eq_probed (hs : Sized ns) (nodeid : NodeId) (k : Nat) :
    path ns nodeid k = probed ns nodeid k := by
  induction k with
  | zero => exact hs.path_zero nodeid
  | succ k ih => rw [← hs.advance_path nodeid k, ih, probed_succ]

theorem exists_firstProbe (hs : Sized ns) (nodeid : NodeId) {stops : Slot A → Bool} {i : Nat}
    (hi : i < ns.size) (hstop : stops (ns.slotAt i) = true) :
    ∃ k < ns.size, FirstProbe ns nodeid stops k := by
  obtain ⟨k₀, hk₀, rfl⟩ := hs.path_surj nodeid hi
  rw [hs.path_eq_probed] at hstop
  obtain ⟨k, hle, hfirst⟩ := NodeStore.exists_firstProbe hstop
  exact ⟨k, Nat.lt_of_le_of_lt hle hk₀, hfirst⟩

end Sized

theorem findNode_first (nodeid : NodeId) (hs : Sized ns) {i : Nat} (hi : i < ns.size)
    (hstop : (ns.slotAt i).stopsNode nodeid = true) :
    ∃ k < ns.size, (ns.slotAt (path ns nodeid k)).stopsNode nodeid = true ∧
      (∀ m < k, (ns.slotAt (path ns nodeid m)).stopsNode nodeid = false) ∧
      findNode ns nodeid =
        .ok ((ns.slotAt (path ns nodeid k)).nodeResult (path ns nodeid k)) := by
  obtain ⟨k, hk, hfirst⟩ := hs.exists_firstProbe nodeid hi hstop
  simp only [hs.path_eq_probed]
  exact ⟨k, hk, hfirst.at_step, hfirst.passes, findNode_eq hs.shaped hfirst⟩

/-- `k` is the step at which the path of a NodeId first meets a slot `findSlot` stops at: an unused
slot, a tombstone or the NodeId itself. -/
structure FirstStop (ns : Store A) (nodeid : NodeId) (k : Nat) : Prop where
  stops : (ns.slotAt (path ns nodeid k)).stopsSlot nodeid = true
  passes : ∀ m < k, (ns.slotAt (path ns nodeid m)).stopsSlot nodeid = false

theorem firstStop_of_firstProbe (hs : Sized ns) {k : Nat}
    (h : FirstProbe ns nodeid (Slot.stopsSlot nodeid) k) : FirstStop ns nodeid k := by
  refine ⟨?_, fun m hm => ?_⟩
  · rw [hs.path_eq_probed]
    exact h.at_step
  · rw [hs.path_eq_probed]
    exact h.passes m hm

theorem findSlot_first (nodeid : NodeId) (hs : Sized ns) {i : Nat} (hi : i < ns.size)
    (hstop : (ns.slotAt i).stopsSlot nodeid = true) :
    ∃ k < ns.size, FirstStop ns nodeid k ∧
      findSlot ns nodeid =
        .ok ((ns.slotAt (path ns nodeid k)).slotResult (path ns nodeid k)) := by
  obtain ⟨k, hk, hfirst⟩ := hs.exists_firstProbe nodeid hi hstop
  refine ⟨k, hk, firstStop_of_firstProbe hs hfirst, ?_⟩
  rw [hs.path_eq_probed]
  exact findSlot_eq hs.shaped hfirst

theorem findSlot_stopped (nodeid : NodeId) (hs : Sized ns) {found : Option Nat}
    (h : findSlot ns nodeid = .ok found) :
    ∃ k, FirstStop ns nodeid k ∧
      found = (ns.slotAt (path ns nodeid k)).slotResult (path ns nodeid k) := by
  obtain ⟨k, hfirst, hfound⟩ := firstProbe_of_findSlot h
  refine ⟨k, firstStop_of_firstProbe hs hfirst, ?_⟩
  rw [hs.path_eq_probed]
  exact hfound

end FactoryThing.NodeStore
