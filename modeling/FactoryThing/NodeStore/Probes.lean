import FactoryThing.NodeStore.Table
import FactoryThing.Lib.Orbit

/-!
# Probes in a table of any size

The slots that `findNode` and `findSlot` look at are the orbit of the start index under `idx +=
hash2` with its correction. The searches return at the first slot of the orbit that their body
leaves at, and never if there is none. In the largest table, of `4294967291` slots, the sum can
leave 32 bits, so nothing is said here of which slots an orbit visits.
-/

namespace FactoryThing.NodeStore

variable {A : Type} {ns : Store A} {nodeid : NodeId} {idx k : Nat}

/-- What every table has in common. -/
structure Shaped (ns : Store A) : Prop where
  seven_le : 7 ≤ ns.size
  length_eq : ns.entries.length = ns.size

/-- The slots that a search for a NodeId looks at, one after the other. -/
def probed (ns : Store A) (nodeid : NodeId) (k : Nat) : Nat :=
  (advance ns.size (stride ns nodeid))^[k] (startIndex ns nodeid)

theorem advance_lt {size hash2 idx : Nat} (hhash : hash2 < size) (hidx : idx < size) :
    advance size hash2 idx < size := by
  unfold advance wrap32
  dsimp only
  split
  · omega
  · omega

theorem mod2_lt {size : Nat} (hsize : 7 ≤ size) (h : Nat) : mod2 h size < size := by
  have hmod := Nat.mod_lt h (show 0 < size - 2 by omega)
  unfold mod2
  omega

theorem Shaped.startIndex_lt (hs : Shaped ns) (nodeid : NodeId) : startIndex ns nodeid < ns.size :=
  Nat.mod_lt _ (Nat.lt_of_lt_of_le (by decide) hs.seven_le)

theorem Shaped.advance_lt (hs : Shaped ns) (nodeid : NodeId) :
    ∀ idx < ns.size, advance ns.size (stride ns nodeid) idx < ns.size :=
  fun _ => NodeStore.advance_lt (mod2_lt hs.seven_le _)

theorem Shaped.probed_lt (hs : Shaped ns) (nodeid : NodeId) (k : Nat) : probed ns nodeid k <
    ns.size :=
  Orbit.iterate_lt (hs.advance_lt nodeid) (hs.startIndex_lt nodeid) k

theorem probed_succ (ns : Store A) (nodeid : NodeId) (k : Nat) :
    probed ns nodeid (k + 1) = advance ns.size (stride ns nodeid) (probed ns nodeid k) :=
  Function.iterate_succ_apply' _ _ _

/-- A slot `findNode` stops at. -/
def Slot.stopsNode (nodeid : NodeId) : Slot A → Bool
  | .null => true
  | .tombstone => false
  | .entry e => nodeIdEqual e.node.nodeId nodeid

/-- A slot `findSlot` stops at. -/
def Slot.stopsSlot (nodeid : NodeId) : Slot A → Bool
  | .null => true
  | .tombstone => true
  | .entry e => nodeIdEqual e.node.nodeId nodeid

/-- What `findNode` returns at the slot it stops at. -/
def Slot.nodeResult (idx : Nat) : Slot A → Option Nat
  | .entry _ => some idx
  | _ => none

/-- What `findSlot` returns at the slot it stops at. -/
def Slot.slotResult (idx : Nat) : Slot A → Option Nat
  | .entry _ => none
  | _ => some idx

theorem findNodeBody_eq (ns : Store A) (nodeid : NodeId) (hash2 idx : Nat) :
    findNodeBody ns nodeid hash2 idx =
      if (ns.slotAt idx).stopsNode nodeid then .inl ((ns.slotAt idx).nodeResult idx)
      else .inr (advance ns.size hash2 idx) := by
  unfold findNodeBody
  cases ns.slotAt idx <;> rfl

theorem findSlotBody_eq (ns : Store A) (nodeid : NodeId) (hash2 idx : Nat) :
    findSlotBody ns nodeid hash2 idx =
      if (ns.slotAt idx).stopsSlot nodeid then .inl ((ns.slotAt idx).slotResult idx)
      else .inr (advance ns.size hash2 idx) := by
  unfold findSlotBody
  cases ns.slotAt idx <;> rfl

/-- `k` is the first step at which a search that stops at the slots `stops` accepts does so. -/
structure FirstProbe (ns : Store A) (nodeid : NodeId) (stops : Slot A → Bool) (k : Nat) : Prop where
  at_step : stops (ns.slotAt (probed ns nodeid k)) = true
  passes : ∀ m < k, stops (ns.slotAt (probed ns nodeid m)) = false

theorem FirstProbe.unique {stops : Slot A → Bool} {j : Nat} (hj : FirstProbe ns nodeid stops j)
    (hk : FirstProbe ns nodeid stops k) : j = k := by
  rcases Nat.lt_trichotomy j k with hlt | heq | hlt
  · have hpassed := hk.passes j hlt
    rw [hj.at_step] at hpassed
    cases hpassed
  · exact heq
  · have hpassed := hj.passes k hlt
    rw [hk.at_step] at hpassed
    cases hpassed

theorem exists_firstProbe {stops : Slot A → Bool}
    (h : stops (ns.slotAt (probed ns nodeid k)) = true) : ∃ j ≤ k,
    FirstProbe ns nodeid stops j := by
  classical
  have hex : ∃ j, stops (ns.slotAt (probed ns nodeid j)) = true := ⟨k, h⟩
  refine ⟨Nat.find hex, Nat.find_min' hex h, Nat.find_spec hex, fun m hm => ?_⟩
  exact Bool.eq_false_iff.mpr (Nat.find_min hex hm)

section Loops

variable {stops : Slot A → Bool} (result : Nat → Slot A → Option Nat)

theorem whileTrue_of_firstProbe (hs : Shaped ns) (h : FirstProbe ns nodeid stops k) :
    Loop.whileTrue (fun idx =>
        if stops (ns.slotAt idx) then .inl (result idx (ns.slotAt idx))
        else .inr (advance ns.size (stride ns nodeid) idx)) ns.size (startIndex ns nodeid) =
      some (result (probed ns nodeid k) (ns.slotAt (probed ns nodeid k))) := by
  refine @Loop.whileTrue_exit _ _ _ (probed ns nodeid) k _ _ (fun m hm => ?_) ?_ ?_
  · rw [h.passes m hm, probed_succ]
    rfl
  · rw [h.at_step]
    rfl
  · refine Orbit.first_lt (P := fun idx => stops (ns.slotAt idx) = true) (hs.advance_lt nodeid)
      (hs.startIndex_lt nodeid) h.at_step fun m hm => ?_
    exact Bool.eq_false_iff.mp (h.passes m hm)

theorem firstProbe_of_whileTrue {fuel : Nat} {found : Option Nat}
    (h : Loop.whileTrue (fun idx =>
          if stops (ns.slotAt idx) then .inl (result idx (ns.slotAt idx))
          else .inr (advance ns.size (stride ns nodeid) idx)) fuel (startIndex ns nodeid) =
        some found) :
    ∃ k, FirstProbe ns nodeid stops k ∧
      found = result (probed ns nodeid k) (ns.slotAt (probed ns nodeid k)) := by
  obtain ⟨k, -, hexit, hpass⟩ := Loop.exit_of_whileTrue (probed ns nodeid) (fun k s' hb => by
    split at hb
    · cases hb
    · rw [probed_succ]
      exact (Sum.inr.inj hb).symm) 0 h
  simp only [Nat.zero_add] at hexit hpass
  split at hexit
  · rename_i hstop
    refine ⟨k, ⟨hstop, fun m hm => ?_⟩, (Sum.inl.inj hexit).symm⟩
    have hpassed := hpass m hm
    split at hpassed
    · cases hpassed
    · rename_i hnot
      exact Bool.eq_false_iff.mpr hnot
  · cases hexit

end Loops

theorem findNode_eq (hs : Shaped ns) (h : FirstProbe ns nodeid (Slot.stopsNode nodeid) k) :
    findNode ns nodeid =
      .ok ((ns.slotAt (probed ns nodeid k)).nodeResult (probed ns nodeid k)) := by
  unfold findNode
  rw [show findNodeBody ns nodeid (stride ns nodeid) = _ from funext fun idx =>
    findNodeBody_eq ns nodeid (stride ns nodeid) idx,
    whileTrue_of_firstProbe (fun idx slot => Slot.nodeResult idx slot) hs h]

theorem findSlot_eq (hs : Shaped ns) (h : FirstProbe ns nodeid (Slot.stopsSlot nodeid) k) :
    findSlot ns nodeid =
      .ok ((ns.slotAt (probed ns nodeid k)).slotResult (probed ns nodeid k)) := by
  unfold findSlot
  rw [show findSlotBody ns nodeid (stride ns nodeid) = _ from funext fun idx =>
    findSlotBody_eq ns nodeid (stride ns nodeid) idx,
    whileTrue_of_firstProbe (fun idx slot => Slot.slotResult idx slot) hs h]

theorem firstProbe_of_findSlot {found : Option Nat} (h : findSlot ns nodeid = .ok found) :
    ∃ k, FirstProbe ns nodeid (Slot.stopsSlot nodeid) k ∧
      found = (ns.slotAt (probed ns nodeid k)).slotResult (probed ns nodeid k) := by
  unfold findSlot at h
  rw [show findSlotBody ns nodeid (stride ns nodeid) = _ from funext fun idx =>
    findSlotBody_eq ns nodeid (stride ns nodeid) idx] at h
  split at h
  · rename_i r hloop
    obtain rfl := Except.ok.inj h
    exact firstProbe_of_whileTrue (fun idx slot => Slot.slotResult idx slot) hloop
  · cases h

theorem findNode_live (nodeid : NodeId) (hs : Shaped ns) (h : findNode ns nodeid = .ok (some idx)) :
    idx < ns.entries.length ∧ ∃ e, ns.slotAt idx = .entry e ∧
      nodeIdEqual e.node.nodeId nodeid = true := by
  unfold findNode at h
  rw [show findNodeBody ns nodeid (stride ns nodeid) = _ from funext fun idx =>
    findNodeBody_eq ns nodeid (stride ns nodeid) idx] at h
  split at h
  · rename_i r hloop
    obtain rfl := Except.ok.inj h
    obtain ⟨k, hfirst, hr⟩ :=
      firstProbe_of_whileTrue (fun idx slot => Slot.nodeResult idx slot) hloop
    have hlt := hs.probed_lt nodeid k
    have hat := hfirst.at_step
    cases hslot : ns.slotAt (probed ns nodeid k) with
    | entry e =>
      rw [hslot] at hr hat
      obtain rfl : idx = probed ns nodeid k := by simpa [Slot.nodeResult] using hr
      exact ⟨hs.length_eq ▸ hlt, e, hslot, hat⟩
    | _ => rw [hslot] at hr; simp [Slot.nodeResult] at hr
  · cases h

/-- The probes for a NodeId come to a slot that can take an entry before they meet the NodeId. -/
def FreeAt (ns : Store A) (nodeid : NodeId) (idx : Nat) : Prop :=
  ∃ k, FirstProbe ns nodeid (Slot.stopsSlot nodeid) k ∧ probed ns nodeid k = idx ∧
    ∀ e, ns.slotAt idx ≠ .entry e

/-- They meet the NodeId before any such slot. -/
def Found (ns : Store A) (nodeid : NodeId) : Prop :=
  ∃ k e, FirstProbe ns nodeid (Slot.stopsSlot nodeid) k ∧ ns.slotAt (probed ns nodeid k) = .entry e

theorem findSlot_some_iff (hs : Shaped ns) :
    findSlot ns nodeid = .ok (some idx) ↔ FreeAt ns nodeid idx := by
  constructor
  · intro h
    obtain ⟨k, hfirst, hfound⟩ := firstProbe_of_findSlot h
    cases hslot : ns.slotAt (probed ns nodeid k) with
    | entry e =>
      rw [hslot] at hfound
      cases hfound
    | _ =>
      rw [hslot] at hfound
      obtain rfl := Option.some.inj hfound
      exact ⟨k, hfirst, rfl, fun e he => by rw [hslot] at he; cases he⟩
  · rintro ⟨k, hfirst, rfl, hfree⟩
    rw [findSlot_eq hs hfirst]
    cases hslot : ns.slotAt (probed ns nodeid k) with
    | entry e => exact absurd hslot (hfree e)
    | _ => rfl

theorem findSlot_none_iff (hs : Shaped ns) : findSlot ns nodeid = .ok none ↔ Found ns nodeid := by
  constructor
  · intro h
    obtain ⟨k, hfirst, hfound⟩ := firstProbe_of_findSlot h
    cases hslot : ns.slotAt (probed ns nodeid k) with
    | entry e => exact ⟨k, e, hfirst, hslot⟩
    | _ =>
      rw [hslot] at hfound
      cases hfound
  · rintro ⟨k, e, hfirst, hslot⟩
    rw [findSlot_eq hs hfirst, hslot]
    rfl

end FactoryThing.NodeStore
