import FactoryThing.NodeStore.MakingRoom

/-!
# Generated NodeIds

`UA_NodeStore_insert` generates a NodeId for a node without one (`ua_nodestore.c:239-254`): it tries
numeric identifiers, from the count on and in steps that depend on it, until `findSlot` does not
meet the NodeId. It writes the identifier whatever its type is, zero is one of those it tries, and a
tombstone on the path hides that a NodeId is in use.
-/

namespace FactoryThing.NodeStore

variable {A : Type} {ns ns' : Store A} {nodeid : NodeId}

/-- The NodeIds tried for a node with a numeric NodeId. -/
def candidate (ns : Store A) (nodeid : NodeId) (k : Nat) : NodeId :=
  ⟨if nodeid.namespaceIndex = 0 then 1 else nodeid.namespaceIndex,
    .numeric (UInt32.ofNat (freshIdentifier ns k))⟩

theorem freshNodeId_eq (k : Nat) :
    freshNodeId ns nodeid k =
      setNumericIdentifier ⟨if nodeid.namespaceIndex = 0 then 1 else nodeid.namespaceIndex,
        nodeid.identifier⟩ (UInt32.ofNat (freshIdentifier ns k)) := by
  unfold freshNodeId
  congr 1
  split <;> rfl

theorem freshNodeId_of_numeric {n : UInt32} (h : nodeid.identifier = .numeric n) (k : Nat) :
    freshNodeId ns nodeid k = .ok (candidate ns nodeid k) := by
  rw [freshNodeId_eq, h]
  rfl

theorem numeric_of_freshNodeId {nodeid' : NodeId} {k : Nat} {n : UInt32}
    (h : freshNodeId ns nodeid k = .ok nodeid') (hn : nodeid'.identifier = .numeric n) :
    ∃ n, nodeid.identifier = .numeric n := by
  rw [freshNodeId_eq] at h
  cases hid : nodeid.identifier with
  | numeric n => exact ⟨n, rfl⟩
  | guid g =>
    rw [hid] at h
    cases h
    cases hn
  | string s =>
    rw [hid] at h
    cases h
  | byteString s =>
    rw [hid] at h
    cases h

theorem candidate_namespace (k : Nat) : (candidate ns nodeid k).namespaceIndex ≠ 0 := by
  unfold candidate
  dsimp only
  split
  · decide
  · assumption

theorem freshIdentifier_eq (hs : Sized ns) (hroom : Roomy ns) (k : Nat) :
    freshIdentifier ns k = Probe.index ns.size (ns.count + 1) (mod2 (ns.count + 1) ns.size) k := by
  have hlt := hs.lt
  unfold Roomy at hroom
  unfold freshIdentifier
  rw [show wrap32 (ns.count + 1) = ns.count + 1 from Nat.mod_eq_of_lt (by omega)]
  induction k with
  | zero => exact (Probe.index_zero hroom).symm
  | succ k ih =>
    rw [Function.iterate_succ_apply', ih]
    exact hs.advance_index (mod2_lt hs.seven_le _) k

theorem candidate_injOn (hs : Sized ns) (hroom : Roomy ns) {j k : Nat} (hj : j < ns.size)
    (hk : k < ns.size)
    (h : nodeIdEqual (candidate ns nodeid j) (candidate ns nodeid k) = true) : j = k := by
  have hlt := hs.lt
  have hsame : UInt32.ofNat (freshIdentifier ns j) = UInt32.ofNat (freshIdentifier ns k) := by
    simpa [candidate, nodeIdEqual] using h
  rw [freshIdentifier_eq hs hroom, freshIdentifier_eq hs hroom] at hsame
  have hbound : ∀ i, Probe.index ns.size (ns.count + 1) (mod2 (ns.count + 1) ns.size) i <
      4294967296 := fun i => (Probe.index_lt hs.size_pos).trans (by omega)
  have hnat := congrArg UInt32.toNat hsame
  rw [UInt32.toNat_ofNat_of_lt' (hbound j), UInt32.toNat_ofNat_of_lt' (hbound k)] at hnat
  refine Probe.index_injOn hs.prime ?_ (mod2_lt hs.seven_le _) hj hk hnat
  unfold mod2
  omega

/-- Of the identifiers tried in a table of prime size, one is not in use: there are as many of them
as slots. -/
theorem exists_not_stored (hs : Sized ns) (hroom : Roomy ns) (hlive : ns.liveCount < ns.size)
    (nodeid : NodeId) : ∃ k, ¬ Stored ns (candidate ns nodeid k) := by
  by_contra hall
  push Not at hall
  choose slot e hslot hsame using fun k : Fin ns.size => hall k.1
  have hlt : ∀ k, slot k < ns.size := fun k =>
    hs.length_eq ▸ lt_of_slotAt_entry (hslot k)
  have hinj : Function.Injective fun k => (⟨slot k, hlt k⟩ : Fin ns.size) := by
    intro j k hjk
    have hentry := hslot j
    rw [Fin.mk.inj_iff.mp hjk, hslot k] at hentry
    have hk := hsame k
    rw [show e k = e j by simpa using hentry] at hk
    exact Fin.ext (candidate_injOn hs hroom j.2 k.2
      (nodeIdEqual_trans (nodeIdEqual_symm (hsame j)) hk))
  obtain ⟨i, hi, hfree⟩ := exists_free hs.shaped hlive
  obtain ⟨k, hk⟩ := Finite.injective_iff_surjective.mp hinj ⟨i, hi⟩
  exact hfree (e k) (Fin.mk.inj_iff.mp hk ▸ hslot k)

/-- The first identifier that is not in use comes within as many steps as there are slots, in a
table of any size. -/
theorem first_not_stored_lt (hs : Shaped ns) (hroom : Roomy ns) (hlt : ns.count < 2147483648)
    {k : Nat} (hk : ¬ Stored ns (candidate ns nodeid k))
    (hbefore : ∀ m < k, Stored ns (candidate ns nodeid m)) : k < ns.size := by
  have hwrap : wrap32 (ns.count + 1) = ns.count + 1 := Nat.mod_eq_of_lt (by omega)
  refine Orbit.first_lt (f := advance ns.size (mod2 (wrap32 (ns.count + 1)) ns.size))
    (x := wrap32 (ns.count + 1)) (P := fun i => ¬ Stored ns
      ⟨if nodeid.namespaceIndex = 0 then 1 else nodeid.namespaceIndex, .numeric (UInt32.ofNat i)⟩)
    (fun i hi => advance_lt (mod2_lt hs.seven_le _) hi) (by rw [hwrap]; exact hroom) hk
    fun m hm => ?_
  exact not_not_intro (hbefore m hm)

theorem chooseSlot_of_candidates {n : UInt32} (hn : nodeid.identifier = .numeric n)
    (hnull : nodeIdIsNull { nodeid with namespaceIndex := 0 } = true) {k idx : Nat}
    (hk : k < ns.size) (hmet : ∀ m < k, findSlot ns (candidate ns nodeid m) = .ok none)
    (hfound : findSlot ns (candidate ns nodeid k) = .ok (some idx)) :
    chooseSlot ns nodeid = .ok (some (candidate ns nodeid k, idx)) := by
  have hid : ∀ m, setNumericIdentifier (if nodeid.namespaceIndex = 0 then
      { nodeid with namespaceIndex := 1 } else nodeid) (UInt32.ofNat (freshIdentifier ns m)) =
      .ok (candidate ns nodeid m) := freshNodeId_of_numeric hn
  have hpass : Loop.Passes (freshIdBody ns (if nodeid.namespaceIndex = 0 then
      { nodeid with namespaceIndex := 1 } else nodeid) (mod2 (wrap32 (ns.count + 1)) ns.size))
      (freshIdentifier ns) k := by
    intro m hm
    unfold freshIdBody
    rw [hid m]
    dsimp only
    rw [hmet m hm]
    rw [freshIdentifier, freshIdentifier, Function.iterate_succ_apply']
  have hexit : freshIdBody ns (if nodeid.namespaceIndex = 0 then
      { nodeid with namespaceIndex := 1 } else nodeid) (mod2 (wrap32 (ns.count + 1)) ns.size)
      (freshIdentifier ns k) = .inl (.ok (candidate ns nodeid k, idx)) := by
    unfold freshIdBody
    rw [hid k]
    dsimp only
    rw [hfound]
  have hloop := Loop.whileTrue_exit hpass hexit hk
  unfold chooseSlot
  rw [if_pos hnull]
  dsimp only
  rw [show wrap32 (ns.count + 1) = freshIdentifier ns 0 from rfl] at hloop ⊢
  rw [hloop]

theorem get_of_freeAt (hs : Shaped ns) {idx : Nat} (h : FreeAt ns nodeid idx) {e : Entry A}
    (he : e.node.nodeId = nodeid) (count : Nat) :
    nodeStoreGet { ns.setSlot idx (.entry e) with count := count } nodeid = .ok (some e.node) := by
  have hidx := h.lt_length hs
  obtain ⟨k, hfirst, rfl, hfree⟩ := h
  have hslots :
    ({ ns.setSlot (probed ns nodeid k) (.entry e) with count := count } : Store A).slotAt =
      Function.update ns.slotAt (probed ns nodeid k) (.entry e) := slotAt_setSlot hidx _
  generalize hns' : ({ ns.setSlot (probed ns nodeid k) (.entry e) with count := count } : Store A) =
    ns' at hslots ⊢
  have hs' : Shaped ns' := hns' ▸ ⟨hs.seven_le, by simpa using hs.length_eq⟩
  have hprobed : probed ns' nodeid = probed ns nodeid := hns' ▸ rfl
  have hself : ns'.slotAt (probed ns nodeid k) = .entry e := by rw [hslots, Function.update_self]
  have hfirst' : FirstProbe ns' nodeid (Slot.stopsNode nodeid) k := by
    rw [← hprobed] at hself
    refine ⟨?_, fun m hm => ?_⟩
    · rw [hself]
      exact he ▸ nodeIdEqual_refl _
    · have hpassed := hfirst.passes m hm
      rw [hprobed]
      cases hslot : ns.slotAt (probed ns nodeid m) with
      | entry e' =>
        have hne : probed ns nodeid m ≠ probed ns nodeid k := fun heq => hfree e' (heq ▸ hslot)
        rw [hslots, Function.update_of_ne hne, hslot]
        rw [hslot] at hpassed
        exact hpassed
      | _ => rw [hslot] at hpassed; cases hpassed
  unfold nodeStoreGet
  rw [findNode_eq hs' hfirst', hprobed, hself]
  dsimp only [Slot.nodeResult]
  rw [hself]

/-- The NodeIds tried for a node, in the table there then is. -/
def generated (ns : Store A) (nodeid : NodeId) (k : Nat) : NodeId :=
  candidate { ns with size := ns.roomSize } nodeid k

/-- The entry is stored under a numeric NodeId that is not zero and was not in use, and is found
under it. -/
def StoredFresh (ns : Store A) (e : Entry A) (alloc : Bool) : Prop :=
  ∃ ns' nodeid n, nodeStoreInsert ns e alloc = .ok (ns', StatusCode.good) ∧
    nodeid.identifier = .numeric n ∧ n ≠ 0 ∧ nodeid.namespaceIndex ≠ 0 ∧ ¬ Stored ns nodeid ∧
    nodeStoreGet ns' nodeid = .ok (some { e.node with nodeId := nodeid })

/-- The NodeId is numeric; a table that is to be rebuilt can be; each NodeId that is tried and in
use is met before a slot that could take it; the first one that is not in use is not zero; and in
the largest table, where `idx += hash2` leaves 32 bits, there is such a NodeId and its probes come
to a slot without an entry. -/
structure FindsFresh (ns : Store A) (nodeid : NodeId) (alloc : Bool) : Prop where
  numeric : ∃ n, nodeid.identifier = .numeric n
  room : RebuildsFirst ns → alloc = true ∧ ns.count * 2 ≤ 4294967291 ∧ DistinctIds ns
  met : ¬ RebuildsFirst ns → ∀ k, (∀ m ≤ k, Stored ns (generated ns nodeid m)) →
    Found ns (generated ns nodeid k)
  nonzero : ∀ k, (∀ m < k, Stored ns (generated ns nodeid m)) →
    ¬ Stored ns (generated ns nodeid k) → (generated ns nodeid k).identifier ≠ .numeric 0
  reached : ns.roomSize = 4294967291 → ∃ ns₁ k, Roomed ns alloc ns₁ ∧
    (∀ m < k, Stored ns (generated ns nodeid m)) ∧ ¬ Stored ns (generated ns nodeid k) ∧
    ∃ j, ∀ e, ns₁.slotAt (probed ns₁ (generated ns nodeid k) j) ≠ .entry e

theorem HasRoom.candidate_eq {ns₁ : Store A} (h : HasRoom ns ns₁) (nodeid : NodeId) :
    candidate ns₁ nodeid = generated ns nodeid := by
  funext k
  unfold generated candidate freshIdentifier
  rw [h.count_eq, h.size_eq]

theorem eq_of_get_stored {idx count : Nat} {stored : Entry A} {node : Node A}
    (hs : Shaped ns) (hidx : idx < ns.entries.length)
    (hget : nodeStoreGet { ns.setSlot idx (.entry stored) with count := count } nodeid =
      .ok (some node)) (hnot : ¬ Stored ns nodeid) : node = stored.node := by
  have hslots : ({ ns.setSlot idx (.entry stored) with count := count } : Store A).slotAt =
      Function.update ns.slotAt idx (.entry stored) := slotAt_setSlot hidx _
  have hs' : Shaped ({ ns.setSlot idx (.entry stored) with count := count } : Store A) :=
    ⟨hs.seven_le, by simpa using hs.length_eq⟩
  generalize ({ ns.setSlot idx (.entry stored) with count := count } : Store A) = ns' at *
  unfold nodeStoreGet at hget
  split at hget
  · cases hget
  · cases hget
  · rename_i i hfind
    obtain ⟨-, e, hslot, hsame⟩ := findNode_live nodeid hs' hfind
    rw [hslot] at hget
    obtain rfl : e.node = node := by simpa using hget
    rw [hslots] at hslot
    by_cases hi : i = idx
    · subst hi
      rw [Function.update_self] at hslot
      obtain rfl : stored = e := by simpa using hslot
      rfl
    · rw [Function.update_of_ne hi] at hslot
      exact absurd ⟨i, e, hslot, hsame⟩ hnot

theorem findsFresh_of_storedFresh (hw : Whole ns) {e : Entry A} {alloc : Bool}
    (hnull : nodeIdIsNull { e.node.nodeId with namespaceIndex := 0 } = true)
    (h : StoredFresh ns e alloc) : FindsFresh ns e.node.nodeId alloc := by
  obtain ⟨ns', nodeid, n, hinsert, hnumeric, hnonzero, -, hnot, hget⟩ := h
  obtain ⟨ns₁, status₁, hmake, ⟨-, hbad⟩ | ⟨nodeid', idx, rfl, hchoose, rfl⟩⟩ :=
    nodeStoreInsert_cases hinsert
  · exact absurd rfl hbad
  have hroomed := (makeRoom_iff hw).mp hmake
  have hroom := hroomed.hasRoom hw
  have hs := hroom.whole.shaped
  obtain ⟨hfound, hchosen⟩ := chooseSlot_found hchoose
  have hfree := (findSlot_some_iff hs).mp hfound
  have hsame : nodeid' = nodeid := by
    have heq := eq_of_get_stored hs (hfree.lt_length hs) hget
      fun hstored => hnot ((hroom.stored_iff nodeid).mp hstored)
    exact (congrArg Node.nodeId heq).symm
  subst hsame
  rw [if_pos hnull] at hchosen
  obtain ⟨k, hk, hbefore⟩ := hchosen
  obtain ⟨n₀, hn₀⟩ := numeric_of_freshNodeId hk hnumeric
  rw [freshNodeId_of_numeric hn₀, Except.ok.injEq, hroom.candidate_eq] at hk
  have hmet : ∀ m < k, Found ns₁ (generated ns e.node.nodeId m) := by
    intro m hm
    obtain ⟨id, hid, hmeets⟩ := hbefore m hm
    rw [freshNodeId_of_numeric hn₀, Except.ok.injEq, hroom.candidate_eq] at hid
    exact (findSlot_none_iff hs).mp (hid ▸ hmeets)
  have hstored : ∀ m < k, Stored ns (generated ns e.node.nodeId m) := fun m hm =>
    (hroom.stored_iff _).mp (hmet m hm).stored
  refine ⟨⟨n₀, hn₀⟩, hroomed.rebuilds hw, fun hnotFirst j hall => ?_, fun j hall hnew => ?_,
    fun _ => ?_⟩
  · have hjk : j < k := by
      by_contra hle
      exact hnot (hk ▸ hall k (by omega))
    exact hroom.unchanged hnotFirst ▸ hmet j hjk
  · obtain rfl : j = k := by
      rcases Nat.lt_trichotomy j k with hlt | heq | hgt
      · exact absurd (hstored j hlt) hnew
      · exact heq
      · exact absurd (hk ▸ hall k hgt) hnot
    rw [hk, hnumeric]
    exact fun hzero => hnonzero (NodeIdentifier.numeric.inj hzero)
  · obtain ⟨j, -, hj, hat⟩ := hfree
    refine ⟨ns₁, k, hroomed, hstored, hk ▸ hnot, j, ?_⟩
    rw [hk, hj]
    exact hat

/-- The table the node goes into, the first NodeId that is not in use, and its slot. -/
theorem FindsFresh.exists_slot (hw : Whole ns) {alloc : Bool} (h : FindsFresh ns nodeid alloc) :
    ∃ ns₁ k idx, Roomed ns alloc ns₁ ∧ (∀ m < k, Stored ns (generated ns nodeid m)) ∧
      ¬ Stored ns (generated ns nodeid k) ∧ FreeAt ns₁ (generated ns nodeid k) idx := by
  by_cases hlargest : ns.roomSize = 4294967291
  · obtain ⟨ns₁, k, hroomed, hused, hnot, j, hfree⟩ := h.reached hlargest
    have hnot₁ : ¬ Stored ns₁ (generated ns nodeid k) := fun hstored =>
      hnot (((hroomed.hasRoom hw).stored_iff _).mp hstored)
    obtain ⟨idx, hidx⟩ := freeAt_of_not_stored hfree hnot₁
    exact ⟨ns₁, k, idx, hroomed, hused, hnot, hidx⟩
  · obtain ⟨ns₁, hroomed⟩ := exists_roomed hw hlargest h.room
    have hroom := hroomed.hasRoom hw
    have hsized := hroom.whole.sized (hroom.size_eq ▸ hlargest)
    have hlive : ns₁.liveCount < ns₁.size := by
      have hroomy := hroom.roomy
      unfold Roomy at hroomy
      rw [← hroom.whole.count_eq]
      omega
    classical
    have hex : ∃ k, ¬ Stored ns₁ (generated ns nodeid k) := by
      rw [← hroom.candidate_eq]
      exact exists_not_stored hsized hroom.roomy hlive nodeid
    have hnot := Nat.find_spec hex
    obtain ⟨idx, hidx⟩ := hsized.exists_freeAt hlive hnot
    refine ⟨ns₁, Nat.find hex, idx, hroomed, fun m hm => ?_, ?_, hidx⟩
    · exact (hroom.stored_iff _).mp (not_not.mp (Nat.find_min hex hm))
    · exact fun hstored => hnot ((hroom.stored_iff _).mpr hstored)

theorem storedFresh_of_findsFresh (hw : Whole ns) {e : Entry A} {alloc : Bool}
    (hnull : nodeIdIsNull { e.node.nodeId with namespaceIndex := 0 } = true)
    (h : FindsFresh ns e.node.nodeId alloc) : StoredFresh ns e alloc := by
  obtain ⟨ns₁, k, idx, hroomed, hused, hnot, hfree⟩ := h.exists_slot hw
  have hroom := hroomed.hasRoom hw
  have hs := hroom.whole.shaped
  have hmet : ∀ m < k, Found ns₁ (generated ns e.node.nodeId m) := by
    intro m hm
    by_cases hfirst : RebuildsFirst ns
    · exact (hroom.rebuilt hfirst).found ((hroom.stored_iff _).mpr (hused m hm))
    · have hsame := hroom.unchanged hfirst
      subst hsame
      exact h.met hfirst m fun j hj => hused j (by omega)
  have hnonzero := h.nonzero k hused hnot
  obtain ⟨n, hn⟩ := h.numeric
  have hstored₁ := hroom.stored_iff
  rw [← hroom.candidate_eq] at hnot hfree hmet hused hnonzero
  have hk : k < ns₁.size := by
    refine first_not_stored_lt hs hroom.roomy hroom.whole.count_lt
      (fun hstored => hnot ((hstored₁ _).mp hstored)) fun m hm => (hstored₁ _).mpr (hused m hm)
  have hchoose := chooseSlot_of_candidates hn hnull hk
    (fun m hm => (findSlot_none_iff hs).mpr (hmet m hm)) ((findSlot_some_iff hs).mpr hfree)
  let stored : Entry A :=
    { e with node := { e.node with nodeId := candidate ns₁ e.node.nodeId k } }
  have hget := get_of_freeAt hs hfree (show stored.node.nodeId = _ from rfl)
    (wrap32 (ns₁.count + 1))
  refine ⟨_, candidate ns₁ e.node.nodeId k, _, ?_, rfl, ?_, candidate_namespace k, hnot, hget⟩
  · unfold nodeStoreInsert
    rw [(makeRoom_iff hw).mpr hroomed]
    dsimp only
    rw [if_neg (not_not_intro rfl), hchoose]
  · exact fun hzero => hnonzero (congrArg NodeIdentifier.numeric hzero)

/-- After every run in which the store stays below `2^31` nodes, a node without a NodeId is stored
under a fresh one exactly if the condition holds. -/
theorem insert_fresh_iff (ops : List (Op A))
    (hlimit : Runs.Guarded step BelowLimit nodeStoreNew ops)
    (rs : List (Reply A)) (hrun : Runs.run step nodeStoreNew ops = .ok (ns, rs)) (e : Entry A)
    (hnull : nodeIdIsNull { e.node.nodeId with namespaceIndex := 0 } = true) (alloc : Bool) :
    StoredFresh ns e alloc ↔ FindsFresh ns e.node.nodeId alloc := by
  have hw : Whole ns :=
    Runs.invariant_of_guarded step_whole ops nodeStoreNew ns rs whole_new hlimit hrun
  exact ⟨findsFresh_of_storedFresh hw hnull, storedFresh_of_findsFresh hw hnull⟩

def nullEntry (identifier : NodeIdentifier) : Entry Unit := ⟨0, none, ⟨⟨0, identifier⟩, ()⟩⟩

/-- A removal that leaves a table of seven slots, and six nodes in it. -/
def freshRun : List (Op Unit) :=
  [.insert (numericEntry 5) true, .remove (numericId 5) true] ++
    [1, 3, 4, 5, 6, 7].map fun i => .insert (numericEntry i) true

/-- The store after `freshRun`. -/
def sixNodes : Store Unit :=
  ⟨[.entry (numericEntry 5), .entry (numericEntry 6), .null, .entry (numericEntry 4),
    .entry (numericEntry 7), .entry (numericEntry 3), .entry (numericEntry 1)], 7, 6⟩

/-- The table is rebuilt for the next node, 7 is tried first and is in use, and 2 is free. -/
theorem insert_fresh_seventh : RebuildsFirst sixNodes ∧
    StoredFresh sixNodes (nullEntry (.numeric 0)) true := by
  have hlimit : Runs.Guarded step BelowLimit nodeStoreNew freshRun := by decide +kernel
  have hrun : Runs.run step nodeStoreNew freshRun =
      .ok (sixNodes, List.replicate 8 (.status StatusCode.good)) := by decide +kernel
  have hfirst : RebuildsFirst sixNodes := by decide +kernel
  have hdistinct : DistinctIds sixNodes := by
    refine distinct_of_pairwise ?_
    simp [sixNodes, numericEntry, numericId, nodeIdEqual]
  have hfree : ¬ Stored sixNodes (generated sixNodes ⟨0, .numeric 0⟩ 1) := by
    rw [show generated sixNodes ⟨0, .numeric 0⟩ 1 = numericId 2 by decide +kernel,
      stored_entries_iff]
    simp [sixNodes, numericEntry, numericId, nodeIdEqual]
  refine ⟨hfirst, (insert_fresh_iff freshRun hlimit _ hrun (nullEntry (.numeric 0)) (by decide)
    true).mpr ⟨⟨0, rfl⟩, fun _ => ⟨rfl, by decide, hdistinct⟩, fun hnot => absurd hfirst hnot, ?_,
      fun hlargest => absurd hlargest (by decide +kernel)⟩⟩
  intro k hused _
  rcases k with _ | _ | k
  · decide +kernel
  · decide +kernel
  · exact absurd (hused 1 (by omega)) hfree

/-- The NodeId generated for a node with a null Guid is a Guid. -/
theorem nullGuid_stays_guid :
    ¬ ∀ (ops : List (Op Unit)) (ns : Store Unit) (rs : List (Reply Unit)),
      Runs.run step nodeStoreNew ops = .ok (ns, rs) → ∀ e : Entry Unit,
        nodeIdIsNull { e.node.nodeId with namespaceIndex := 0 } = true → StoredFresh ns e true := by
  intro h
  have hfresh := h [] nodeStoreNew [] rfl (nullEntry (.guid ⟨0, 0, 0, Vector.replicate 8 0⟩))
    (by decide)
  obtain ⟨n, hn⟩ := (findsFresh_of_storedFresh whole_new (by decide) hfresh).numeric
  cases hn

end FactoryThing.NodeStore
