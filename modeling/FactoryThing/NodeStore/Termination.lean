import FactoryThing.NodeStore.Resize
import FactoryThing.Lib.Runs

/-!
# The searches end while a never-used slot is left

Termination of `findNode` rests on one never-used slot somewhere in the table. `expand` gives a
fresh table more than enough of them and a removal takes none away, but an insertion can use the
last one up: the load that triggers `expand` counts the live entries only and not the tombstones.
-/

namespace FactoryThing.NodeStore

variable {A : Type} {ns ns' : Store A}

/-- What the searches rely on, with the count the resize policy works with. -/
structure Inv (ns : Store A) : Prop where
  sized : Sized ns
  count_eq : ns.count = ns.liveCount
  count_lt : ns.count < 1073741824
  null_pos : 0 < ns.nullCount

/-- The part of it that does not wear out. -/
structure Sound (ns : Store A) : Prop where
  sized : Sized ns
  count_eq : ns.count = ns.liveCount
  count_lt : ns.count < 1073741824

theorem Inv.sound (h : Inv ns) : Sound ns := ⟨h.sized, h.count_eq, h.count_lt⟩

theorem inv_new : Inv (nodeStoreNew : Store A) where
  sized := sized_replicate (i := 4) (by omega) 0
  count_eq := by
    change 0 = List.countP _ (List.replicate 127 _)
    simp [Slot.isEntry]
  count_lt := by change 0 < _; omega
  null_pos := by
    change 0 < List.countP _ (List.replicate 127 _)
    simp [Slot.isNull]

/-- The shape of a table that `expand` has rebuilt from `ns`. -/
structure Rebuilt (ns ns' : Store A) : Prop where
  sized : Sized ns'
  clean : Clean ns'
  live_eq : ns'.liveCount = ns.count
  count_eq : ns'.count = ns.count
  half_full : ns.count * 2 ≤ ns'.size

theorem Rebuilt.inv (h : Rebuilt ns ns') (hlt : ns.count < 1073741824) : Inv ns' where
  sized := h.sized
  count_eq := h.count_eq.trans h.live_eq.symm
  count_lt := h.count_eq ▸ hlt
  null_pos := by
    have h7 := h.sized.seven_le
    have hclean := h.clean
    have hlive := h.live_eq
    have hhalf := h.half_full
    unfold Clean at hclean
    omega

/-- The test of `expand` for leaving the table as it is. -/
def KeepsSize (ns : Store A) : Prop :=
  wrap32 (ns.count * 2) < ns.size ∧
    (wrap32 (ns.count * 8) > ns.size ∨ ns.size ≤ nodestoreMinsize)

variable {alloc : Bool} {status : StatusCode} {idx : Nat} {nodeid nodeid' : NodeId} {e : Entry A}

theorem expand_cases (hcount : ns.count = ns.liveCount) (hlt : ns.count < 1073741824)
    (h : expand ns alloc = .ok (ns', status)) :
    (ns' = ns ∧ (KeepsSize ns ∨ status = StatusCode.badOutOfMemory)) ∨ Rebuilt ns ns' := by
  unfold expand at h
  split at h
  · rename_i hkeeps
    simp only [Except.ok.injEq, Prod.mk.injEq] at h
    exact .inl ⟨h.1.symm, .inl hkeeps⟩
  · have hwrap : wrap32 (ns.count * 2) = ns.count * 2 := Nat.mod_eq_of_lt (by omega)
    obtain ⟨hidx, hfit⟩ := higherPrimeIndex_spec (n := ns.count * 2) (by omega)
    rw [hwrap] at h
    have hget : primes[higherPrimeIndex (ns.count * 2)]? =
        some (primes.getD (higherPrimeIndex (ns.count * 2)) 0) := by
      rw [List.getD_eq_getElem?_getD, List.getElem?_eq_getElem (by simp [primes]; omega)]
      rfl
    rw [hget] at h
    cases alloc with
    | false =>
      simp only [Bool.false_eq_true, if_false, Except.ok.injEq, Prod.mk.injEq] at h
      exact .inl ⟨h.1.symm, .inr h.2.symm⟩
    | true =>
      simp only [if_true] at h
      split at h
      · cases h
      · rename_i ns₁ hre
        simp only [Except.ok.injEq, Prod.mk.injEq] at h
        obtain ⟨rfl, -⟩ := h
        have hfresh := sized_replicate (A := A) hidx ns.count
        have h7 := hfresh.seven_le
        simp only [] at h7
        obtain ⟨h1, h2, h3, h4, h5⟩ := rehash_counts ns.entries _ ns₁ 0 hfresh
          (by simp [Clean, Store.liveCount, Store.nullCount, List.countP_replicate, Slot.isEntry,
            Slot.isNull])
          (by simp [Store.liveCount, List.countP_replicate, Slot.isEntry])
          (by rw [hcount]; simp [Store.liveCount]) (by simp only []; omega) hre
        exact .inr ⟨h1, h2, h3, h5, by rw [h4]; exact hfit⟩

theorem Sound.expand (hs : Sound ns) (h : expand ns alloc = .ok (ns', status)) :
    Sound ns' ∧ ns'.count = ns.count := by
  rcases expand_cases hs.count_eq hs.count_lt h with ⟨rfl, -⟩ | hre
  · exact ⟨hs, rfl⟩
  · exact ⟨(hre.inv hs.count_lt).sound, hre.count_eq⟩

theorem expand_inv (hinv : Inv ns) (h : expand ns alloc = .ok (ns', status)) : Inv ns' := by
  rcases expand_cases hinv.count_eq hinv.count_lt h with ⟨rfl, -⟩ | hre
  · exact hinv
  · exact hre.inv hinv.count_lt

/-- An insertion rebuilds the table first. -/
def RebuildsFirst (ns : Store A) : Prop :=
  wrap32 (ns.size * 3) ≤ wrap32 (ns.count * 4) ∧ ¬ KeepsSize ns

theorem Sound.makeRoom_cases (hs : Sound ns) (h : makeRoom ns alloc = .ok (ns', StatusCode.good)) :
    (ns' = ns ∧ ¬ RebuildsFirst ns) ∨ Rebuilt ns ns' := by
  unfold makeRoom at h
  split at h
  · rcases expand_cases hs.count_eq hs.count_lt h with ⟨rfl, hkeeps | hmem⟩ | hre
    · exact .inl ⟨rfl, fun hfirst => hfirst.2 hkeeps⟩
    · exact absurd hmem (by decide)
    · exact .inr hre
  · rename_i hload
    simp only [Except.ok.injEq, Prod.mk.injEq] at h
    exact .inl ⟨h.1.symm, fun hfirst => hload hfirst.1⟩

theorem makeRoom_cases (hinv : Inv ns) (h : makeRoom ns alloc = .ok (ns', StatusCode.good)) :
    (ns' = ns ∧ ¬ RebuildsFirst ns) ∨ Rebuilt ns ns' :=
  hinv.sound.makeRoom_cases h

theorem Sound.makeRoom (hs : Sound ns) (h : makeRoom ns alloc = .ok (ns', status)) :
    Sound ns' ∧ ns'.count = ns.count := by
  unfold NodeStore.makeRoom at h
  split at h
  · exact hs.expand h
  · simp only [Except.ok.injEq, Prod.mk.injEq] at h
    exact h.1 ▸ ⟨hs, rfl⟩

theorem makeRoom_inv (hinv : Inv ns) (h : makeRoom ns alloc = .ok (ns', status)) :
    Inv ns' ∧ ns'.count = ns.count := by
  refine ⟨?_, (hinv.sound.makeRoom h).2⟩
  unfold makeRoom at h
  split at h
  · exact expand_inv hinv h
  · simp only [Except.ok.injEq, Prod.mk.injEq] at h
    exact h.1 ▸ hinv

/-- The first slot on the path of the NodeId that is not in use by another one is `idx`, and `idx`
is unused or a tombstone. -/
def Takes (ns : Store A) (nodeid : NodeId) (idx : Nat) : Prop :=
  ∃ k, FirstStop ns nodeid k ∧ path ns nodeid k = idx ∧ ∀ e, ns.slotAt idx ≠ .entry e

/-- The NodeId is met on its path before any slot that could take an entry. -/
def Meets (ns : Store A) (nodeid : NodeId) : Prop :=
  ∃ k e, FirstStop ns nodeid k ∧ ns.slotAt (path ns nodeid k) = .entry e

theorem findSlot_takes (hs : Sized ns) (h : findSlot ns nodeid = .ok (some idx)) :
    Takes ns nodeid idx := by
  obtain ⟨k, hfirst, hfound⟩ := findSlot_stopped nodeid hs h
  cases hslot : ns.slotAt (path ns nodeid k) with
  | entry e => rw [hslot] at hfound; cases hfound
  | _ =>
    rw [hslot] at hfound
    obtain rfl : path ns nodeid k = idx := by simpa [Slot.slotResult] using hfound.symm
    exact ⟨k, hfirst, rfl, by simp [hslot]⟩

theorem findSlot_meets (hs : Sized ns) (h : findSlot ns nodeid = .ok none) : Meets ns nodeid := by
  obtain ⟨k, hfirst, hfound⟩ := findSlot_stopped nodeid hs h
  cases hslot : ns.slotAt (path ns nodeid k) with
  | entry e => exact ⟨k, e, hfirst, hslot⟩
  | _ => rw [hslot] at hfound; cases hfound

/-- The identifiers tried for a node without a NodeId. -/
def freshIdentifier (ns : Store A) (k : Nat) : Nat :=
  (advance ns.size (mod2 (wrap32 (ns.count + 1)) ns.size))^[k] (wrap32 (ns.count + 1))

/-- The NodeIds tried for a node without one. -/
def freshNodeId (ns : Store A) (nodeid : NodeId) (k : Nat) : Except Fault NodeId :=
  setNumericIdentifier
    (if nodeid.namespaceIndex = 0 then { nodeid with namespaceIndex := 1 } else nodeid)
    (UInt32.ofNat (freshIdentifier ns k))

/-- An insertion under `nodeid` puts its entry under `nodeid'` into slot `idx`: for a null NodeId
`nodeid'` is the first of the generated ones that is not met. -/
def Stores (ns : Store A) (nodeid nodeid' : NodeId) (idx : Nat) : Prop :=
  Takes ns nodeid' idx ∧
    if nodeIdIsNull { nodeid with namespaceIndex := 0 } then
      ∃ k, freshNodeId ns nodeid k = .ok nodeid' ∧
        ∀ m < k, ∃ id, freshNodeId ns nodeid m = .ok id ∧ Meets ns id
    else nodeid' = nodeid

/-- The slot is one that `findSlot` returns, and so are the searches that came before. -/
theorem chooseSlot_found (h : chooseSlot ns nodeid = .ok (some (nodeid', idx))) :
    findSlot ns nodeid' = .ok (some idx) ∧
      if nodeIdIsNull { nodeid with namespaceIndex := 0 } then
        ∃ k, freshNodeId ns nodeid k = .ok nodeid' ∧
          ∀ m < k, ∃ id, freshNodeId ns nodeid m = .ok id ∧ findSlot ns id = .ok none
      else nodeid' = nodeid := by
  unfold chooseSlot at h
  split at h
  · rename_i hnull
    rw [if_pos hnull]
    simp only [] at h
    split at h
    · cases h
    · cases h
    · rename_i choice hloop
      simp only [Except.ok.injEq, Option.some.injEq] at h
      subst h
      have hmove : ∀ k identifier, freshIdBody ns (if nodeid.namespaceIndex = 0 then
          { nodeid with namespaceIndex := 1 } else nodeid) (mod2 (wrap32 (ns.count + 1)) ns.size)
          (freshIdentifier ns k) = .inr identifier →
          identifier = freshIdentifier ns (k + 1) ∧
            ∃ id, freshNodeId ns nodeid k = .ok id ∧ findSlot ns id = .ok none := by
        intro k identifier hb
        unfold freshIdBody at hb
        split at hb
        · cases hb
        · rename_i id hid
          split at hb
          · cases hb
          · cases hb
          · rename_i hmet
            simp only [Sum.inr.injEq] at hb
            exact ⟨by rw [← hb, freshIdentifier, freshIdentifier, Function.iterate_succ_apply'],
              id, hid, hmet⟩
      obtain ⟨k, -, hexit, hpass⟩ := Loop.exit_of_whileTrue (freshIdentifier ns)
        (fun k s' hb => (hmove k s' hb).1) 0 hloop
      rw [Nat.zero_add] at hexit
      unfold freshIdBody at hexit
      split at hexit
      · cases hexit
      · rename_i id hid
        split at hexit
        · cases hexit
        · rename_i found hfound
          obtain ⟨rfl, rfl⟩ := hexit
          refine ⟨hfound, k, hid, ?_⟩
          intro m hm
          have hm' := hpass m hm
          rw [Nat.zero_add] at hm'
          exact (hmove m _ hm').2
        · cases hexit
  · rename_i hnull
    rw [if_neg hnull]
    split at h
    · cases h
    · cases h
    · rename_i found hfound
      obtain ⟨rfl, rfl⟩ := h
      exact ⟨hfound, rfl⟩

theorem chooseSlot_stores (hs : Sized ns) (h : chooseSlot ns nodeid = .ok (some (nodeid', idx))) :
    Stores ns nodeid nodeid' idx := by
  obtain ⟨hfound, hchosen⟩ := chooseSlot_found h
  refine ⟨findSlot_takes hs hfound, ?_⟩
  split at hchosen
  · rename_i hnull
    obtain ⟨k, hk, hbefore⟩ := hchosen
    rw [if_pos hnull]
    refine ⟨k, hk, fun m hm => ?_⟩
    obtain ⟨id, hid, hmet⟩ := hbefore m hm
    exact ⟨id, hid, findSlot_meets hs hmet⟩
  · rename_i hnull
    rw [if_neg hnull]
    exact hchosen

/-! ## The condition on a run -/

/-- An insertion leaves a never-used slot behind: there are two of them, or the slot it takes is a
tombstone. -/
def LeavesNull (ns : Store A) (nodeid : NodeId) : Prop :=
  2 ≤ ns.nullCount ∨ ∀ nodeid' idx, Stores ns nodeid nodeid' idx → ns.slotAt idx = .tombstone

/-- The condition on a call: an insertion rebuilds the table first or leaves a never-used slot
behind, and the table does not get to `2^30` nodes, where its next size is `4294967291` and
`idx += hash2` leaves 32 bits. -/
def KeepsNull (ns : Store A) : Op A → Prop
  | .insert e _ =>
      ns.count + 1 < 1073741824 ∧ (RebuildsFirst ns ∨ LeavesNull ns e.node.nodeId)
  | _ => True

theorem Rebuilt.two_le_nullCount (h : Rebuilt ns ns') : 2 ≤ ns'.nullCount := by
  have h7 := h.sized.seven_le
  have hclean := h.clean
  have hlive := h.live_eq
  have hhalf := h.half_full
  unfold Clean at hclean
  omega

theorem liveCount_store (hidx : idx < ns.entries.length) (hfree : ∀ e, ns.slotAt idx ≠ .entry e)
    (e : Entry A) : (ns.setSlot idx (.entry e)).liveCount = ns.liveCount + 1 := by
  have hlive := countP_setSlot Slot.isEntry hidx (.entry e)
  unfold Store.liveCount
  cases hslot : ns.slotAt idx with
  | entry e' => exact absurd hslot (hfree e')
  | _ =>
    simp only [hslot, Slot.isEntry, Bool.false_eq_true, if_false, if_true] at hlive
    omega

theorem liveCount_overwrite {old : Entry A} (hidx : idx < ns.entries.length)
    (hslot : ns.slotAt idx = .entry old) (e : Entry A) :
    (ns.setSlot idx (.entry e)).liveCount = ns.liveCount := by
  have hlive := countP_setSlot Slot.isEntry hidx (.entry e)
  rw [hslot] at hlive
  unfold Store.liveCount
  simp only [Slot.isEntry, if_true] at hlive
  omega

theorem liveCount_tombstone (hidx : idx < ns.entries.length) (hslot : ns.slotAt idx = .entry e) :
    (ns.setSlot idx .tombstone).liveCount + 1 = ns.liveCount := by
  have hlive := countP_setSlot Slot.isEntry hidx .tombstone
  simp only [hslot, Slot.isEntry, Bool.false_eq_true, if_false, if_true] at hlive
  unfold Store.liveCount
  omega

theorem Sound.store (hs : Sound ns) (hlt : ns.count + 1 < 1073741824)
    (hidx : idx < ns.entries.length) (hfree : ∀ e, ns.slotAt idx ≠ .entry e) (e : Entry A) :
    Sound { ns.setSlot idx (.entry e) with count := wrap32 (ns.count + 1) } := by
  have hwrap : wrap32 (ns.count + 1) = ns.count + 1 := Nat.mod_eq_of_lt (by omega)
  rw [hwrap]
  refine ⟨⟨hs.sized.prime, hs.sized.seven_le, hs.sized.lt, by simpa using hs.sized.length_eq⟩, ?_,
    hlt⟩
  show ns.count + 1 = (ns.setSlot idx (.entry e)).liveCount
  rw [liveCount_store hidx hfree, hs.count_eq]

theorem Sound.overwrite {old : Entry A} (hs : Sound ns) (hidx : idx < ns.entries.length)
    (hslot : ns.slotAt idx = .entry old) (e : Entry A) : Sound (ns.setSlot idx (.entry e)) :=
  ⟨hs.sized.setSlot _ _, by rw [liveCount_overwrite hidx hslot, setSlot_count, hs.count_eq],
    hs.count_lt⟩

/-- What a removal leaves before it thinks about downsizing. -/
def Store.tombstone (ns : Store A) (idx : Nat) : Store A :=
  { ns.setSlot idx .tombstone with count := wrap32 (ns.count + 4294967295) }

theorem Sound.tombstone (hs : Sound ns) (hidx : idx < ns.entries.length)
    (hslot : ns.slotAt idx = .entry e) : Sound (ns.tombstone idx) := by
  have hlive := liveCount_tombstone hidx hslot
  have hold := hs.count_eq
  have hlt := hs.count_lt
  have hwrap : wrap32 (ns.count + 4294967295) = ns.count - 1 := by unfold wrap32; omega
  unfold Store.tombstone
  rw [hwrap]
  refine ⟨⟨hs.sized.prime, hs.sized.seven_le, hs.sized.lt, by simpa using hs.sized.length_eq⟩, ?_,
    by dsimp only; omega⟩
  show ns.count - 1 = (ns.setSlot idx .tombstone).liveCount
  omega

theorem Stores.lt_length (hs : Sized ns) (h : Stores ns nodeid nodeid' idx) :
    idx < ns.entries.length := by
  obtain ⟨k, -, rfl, -⟩ := h.1
  exact hs.length_eq ▸ hs.path_lt nodeid' k

theorem store_inv (hinv : Inv ns) (hlt : ns.count + 1 < 1073741824) (hleaves : LeavesNull ns nodeid)
    (hstores : Stores ns nodeid nodeid' idx) (e : Entry A) :
    Inv { ns.setSlot idx (.entry e) with count := wrap32 (ns.count + 1) } := by
  obtain ⟨k, -, -, hfree⟩ := hstores.1
  have hidx := hstores.lt_length hinv.sized
  have hsound := hinv.sound.store hlt hidx hfree e
  have hnull := countP_setSlot Slot.isNull hidx (.entry e)
  have hpos := hinv.null_pos
  refine ⟨hsound.sized, hsound.count_eq, hsound.count_lt, ?_⟩
  unfold Store.nullCount at *
  simp only []
  cases hslot : ns.slotAt idx with
  | entry e' => exact absurd hslot (hfree e')
  | null =>
    have htwo : 2 ≤ ns.entries.countP Slot.isNull := by
      rcases hleaves with h2 | ht
      · exact h2
      · rw [ht nodeid' idx hstores] at hslot; cases hslot
    simp only [hslot, Slot.isNull, Bool.false_eq_true, if_false, if_true] at hnull
    omega
  | tombstone =>
    simp only [hslot, Slot.isNull, Bool.false_eq_true, if_false] at hnull
    omega

theorem nodeStoreInsert_cases (h : nodeStoreInsert ns e alloc = .ok (ns', status)) :
    ∃ ns₁ status₁, makeRoom ns alloc = .ok (ns₁, status₁) ∧
      ((ns' = ns₁ ∧ status ≠ StatusCode.good) ∨
        ∃ nodeid' idx, status₁ = StatusCode.good ∧
          chooseSlot ns₁ e.node.nodeId = .ok (some (nodeid', idx)) ∧
          ns' = { ns₁.setSlot idx (.entry { e with node := { e.node with nodeId := nodeid' } }) with
            count := wrap32 (ns₁.count + 1) }) := by
  unfold nodeStoreInsert at h
  cases hmake : makeRoom ns alloc with
  | error f => rw [hmake] at h; cases h
  | ok p =>
    obtain ⟨ns₁, status₁⟩ := p
    refine ⟨ns₁, status₁, rfl, ?_⟩
    simp only [hmake] at h
    split at h
    · obtain ⟨rfl, rfl⟩ := h
      exact .inl ⟨rfl, by decide⟩
    · rename_i hgood
      split at h
      · cases h
      · obtain ⟨rfl, rfl⟩ := h
        exact .inl ⟨rfl, by decide⟩
      · rename_i nodeid' idx hchoose
        simp only [Except.ok.injEq, Prod.mk.injEq] at h
        exact .inr ⟨nodeid', idx, not_not.mp hgood, hchoose, h.1.symm⟩

theorem nodeStoreReplace_cases (hs : Shaped ns) (h : nodeStoreReplace ns e = .ok (ns', status)) :
    ns' = ns ∨ ∃ idx old, idx < ns.entries.length ∧ ns.slotAt idx = .entry old ∧
      ns' = ns.setSlot idx (.entry e) := by
  unfold nodeStoreReplace at h
  split at h
  · cases h
  · simp only [Except.ok.injEq, Prod.mk.injEq] at h
    exact .inl h.1.symm
  · rename_i idx hfind
    obtain ⟨hidx, old, hslot, -⟩ := findNode_live _ hs hfind
    rw [hslot] at h
    simp only [] at h
    split at h
    · simp only [Except.ok.injEq, Prod.mk.injEq] at h
      exact .inl h.1.symm
    · simp only [Except.ok.injEq, Prod.mk.injEq] at h
      exact .inr ⟨idx, old, hidx, hslot, h.1.symm⟩

theorem nodeStoreRemove_cases (hs : Shaped ns)
    (h : nodeStoreRemove ns nodeid alloc = .ok (ns', status)) :
    ns' = ns ∨ ∃ idx old, idx < ns.entries.length ∧ ns.slotAt idx = .entry old ∧
      (ns' = ns.tombstone idx ∨ ∃ status, expand (ns.tombstone idx) alloc = .ok (ns', status)) := by
  unfold nodeStoreRemove at h
  split at h
  · cases h
  · simp only [Except.ok.injEq, Prod.mk.injEq] at h
    exact .inl h.1.symm
  · rename_i idx hfind
    obtain ⟨hidx, old, hslot, -⟩ := findNode_live _ hs hfind
    refine .inr ⟨idx, old, hidx, hslot, ?_⟩
    unfold Store.tombstone
    dsimp only at h
    generalize wrap32 (ns.count + 4294967295) = count at h ⊢
    split at h
    · split at h
      · cases h
      · rename_i ns₂ status₂ hexp
        obtain ⟨rfl, -⟩ := h
        exact .inr ⟨status₂, hexp⟩
    · simp only [Except.ok.injEq, Prod.mk.injEq] at h
      exact .inl h.1.symm

theorem step_cases {op : Op A} {r : Reply A} (h : step ns op = .ok (ns', r)) :
    (∃ e alloc status, op = .insert e alloc ∧ nodeStoreInsert ns e alloc = .ok (ns', status)) ∨
      (∃ e status, op = .replace e ∧ nodeStoreReplace ns e = .ok (ns', status)) ∨
      (∃ nodeid alloc status, op = .remove nodeid alloc ∧
        nodeStoreRemove ns nodeid alloc = .ok (ns', status)) ∨ ns' = ns := by
  cases op with
  | insert e alloc =>
    simp only [step] at h
    cases hins : nodeStoreInsert ns e alloc with
    | error f => rw [hins] at h; cases h
    | ok p =>
      rw [hins] at h
      simp only [Except.map, Except.ok.injEq, Prod.mk.injEq] at h
      exact .inl ⟨e, alloc, p.2, rfl, by rw [hins, ← h.1]⟩
  | replace e =>
    simp only [step] at h
    cases hrep : nodeStoreReplace ns e with
    | error f => rw [hrep] at h; cases h
    | ok p =>
      rw [hrep] at h
      simp only [Except.map, Except.ok.injEq, Prod.mk.injEq] at h
      exact .inr (.inl ⟨e, p.2, rfl, by rw [hrep, ← h.1]⟩)
  | remove nodeid alloc =>
    simp only [step] at h
    cases hrem : nodeStoreRemove ns nodeid alloc with
    | error f => rw [hrem] at h; cases h
    | ok p =>
      rw [hrem] at h
      simp only [Except.map, Except.ok.injEq, Prod.mk.injEq] at h
      exact .inr (.inr (.inl ⟨nodeid, alloc, p.2, rfl, by rw [hrem, ← h.1]⟩))
  | get nodeid =>
    simp only [step] at h
    cases hget : nodeStoreGet ns nodeid with
    | error f => rw [hget] at h; cases h
    | ok n =>
      rw [hget] at h
      simp only [Except.map, Except.ok.injEq, Prod.mk.injEq] at h
      exact .inr (.inr (.inr h.1.symm))

theorem insert_inv (hinv : Inv ns) (hkeep : KeepsNull ns (.insert e alloc))
    (h : nodeStoreInsert ns e alloc = .ok (ns', status)) : Inv ns' := by
  obtain ⟨hlt, hroom⟩ := hkeep
  obtain ⟨ns₁, status₁, hmake, ⟨rfl, -⟩ | ⟨nodeid', idx, rfl, hchoose, rfl⟩⟩ :=
    nodeStoreInsert_cases h
  · exact (makeRoom_inv hinv hmake).1
  · obtain ⟨hinv₁, hcount₁⟩ := makeRoom_inv hinv hmake
    have hleaves : LeavesNull ns₁ e.node.nodeId := by
      rcases makeRoom_cases hinv hmake with ⟨rfl, hnot⟩ | hre
      · exact hroom.resolve_left hnot
      · exact .inl hre.two_le_nullCount
    exact store_inv hinv₁ (hcount₁ ▸ hlt) hleaves (chooseSlot_stores hinv₁.sized hchoose) _

theorem replace_inv (hinv : Inv ns) (h : nodeStoreReplace ns e = .ok (ns', status)) : Inv ns' := by
  obtain rfl | ⟨idx, old, hidx, hslot, rfl⟩ := nodeStoreReplace_cases hinv.sized.shaped h
  · exact hinv
  · have hsound := hinv.sound.overwrite hidx hslot e
    have hnull := countP_setSlot Slot.isNull hidx (.entry e)
    have hpos := hinv.null_pos
    rw [hslot] at hnull
    unfold Store.nullCount at hpos
    simp only [Slot.isNull, Bool.false_eq_true, if_false] at hnull
    exact ⟨hsound.sized, hsound.count_eq, hsound.count_lt, by simp only [Store.nullCount]; omega⟩

theorem inv_tombstone (hinv : Inv ns) (hidx : idx < ns.entries.length)
    (hslot : ns.slotAt idx = .entry e) :
    Inv { ns.setSlot idx .tombstone with count := wrap32 (ns.count + 4294967295) } := by
  have hsound := hinv.sound.tombstone hidx hslot
  have hnull := countP_setSlot Slot.isNull hidx .tombstone
  simp only [hslot, Slot.isNull, Bool.false_eq_true, if_false] at hnull
  have hpos := hinv.null_pos
  unfold Store.nullCount at hpos
  exact ⟨hsound.sized, hsound.count_eq, hsound.count_lt, by
    simp only [Store.nullCount]
    omega⟩

theorem remove_inv (hinv : Inv ns) (h : nodeStoreRemove ns nodeid alloc = .ok (ns', status)) :
    Inv ns' := by
  obtain rfl | ⟨idx, old, hidx, hslot, hcase⟩ := nodeStoreRemove_cases hinv.sized.shaped h
  · exact hinv
  · have hinv₁ := inv_tombstone hinv hidx hslot
    obtain rfl | ⟨status₂, hexp⟩ := hcase
    · exact hinv₁
    · exact expand_inv hinv₁ hexp

theorem step_inv (s : Store A) (op : Op A) (s' : Store A) (r : Reply A) (hinv : Inv s)
    (hkeep : KeepsNull s op) (h : step s op = .ok (s', r)) : Inv s' := by
  obtain ⟨e, alloc, status, rfl, hins⟩ | ⟨e, status, rfl, hrep⟩ |
    ⟨nodeid, alloc, status, rfl, hrem⟩ | rfl := step_cases h
  · exact insert_inv hinv hkeep hins
  · exact replace_inv hinv hrep
  · exact remove_inv hinv hrem
  · exact hinv

theorem Inv.searches_end (hinv : Inv ns) (nodeid : NodeId) :
    Loop.Ends (findNodeBody ns nodeid (stride ns nodeid)) (startIndex ns nodeid) ∧
      Loop.Ends (findSlotBody ns nodeid (stride ns nodeid)) (startIndex ns nodeid) := by
  obtain ⟨i, hi, hnull⟩ := exists_null_of_nullCount hinv.null_pos
  rw [hinv.sized.length_eq] at hi
  constructor
  · obtain ⟨k, -, -, -, heq⟩ := findNode_first nodeid hinv.sized hi (by rw [hnull]; rfl)
    refine ⟨ns.size, ?_⟩
    unfold findNode at heq
    split at heq
    · rename_i r hr; rw [hr]; rfl
    · cases heq
  · obtain ⟨k, -, -, heq⟩ := findSlot_first nodeid hinv.sized hi (by rw [hnull]; rfl)
    refine ⟨ns.size, ?_⟩
    unfold findSlot at heq
    split at heq
    · rename_i r hr; rw [hr]; rfl
    · cases heq

/-- After every run whose insertions keep a never-used slot, every lookup ends. -/
theorem lookups_end (ops : List (Op A)) (hkeep : Runs.Guarded step KeepsNull nodeStoreNew ops)
    (rs : List (Reply A)) (hrun : Runs.run step nodeStoreNew ops = .ok (ns, rs))
    (nodeid : NodeId) :
    Loop.Ends (findNodeBody ns nodeid (stride ns nodeid)) (startIndex ns nodeid) ∧
      Loop.Ends (findSlotBody ns nodeid (stride ns nodeid)) (startIndex ns nodeid) :=
  (Runs.invariant_of_guarded step_inv ops nodeStoreNew ns rs inv_new hkeep hrun).searches_end
    nodeid

/-- A numeric NodeId of namespace 1, and a node under it. -/
def numericId (identifier : UInt32) : NodeId := ⟨1, .numeric identifier⟩
def numericEntry (identifier : UInt32) : Entry Unit := ⟨0, none, ⟨numericId identifier, ()⟩⟩

/-- A call that surely keeps a never-used slot: an insertion finds two of them. -/
def Ample (ns : Store A) : Op A → Prop
  | .insert _ _ => ns.count + 1 < 1073741824 ∧ 2 ≤ ns.nullCount
  | _ => True

instance (ns : Store A) (op : Op A) : Decidable (Ample ns op) :=
  match op with
  | .insert _ _ => inferInstanceAs (Decidable (ns.count + 1 < 1073741824 ∧ 2 ≤ ns.nullCount))
  | .replace _ | .remove _ _ | .get _ => isTrue trivial

theorem Ample.keepsNull (ns : Store A) (op : Op A) (h : Ample ns op) : KeepsNull ns op := by
  cases op with
  | insert e alloc => exact ⟨h.1, .inr (.inl h.2)⟩
  | _ => trivial

/-- The first removal shrinks the table, the second leaves a tombstone, and the last insertion takes
its slot again. -/
def reuseRun : List (Op Unit) :=
  [.insert (numericEntry 5) true, .insert (numericEntry 6) true, .insert (numericEntry 7) true,
    .remove (numericId 6) true, .remove (numericId 7) true, .insert (numericEntry 8) true,
    .insert (numericEntry 7) true]

/-- The store after `reuseRun`. -/
def reusedStore : Store Unit :=
  ⟨[.entry (numericEntry 5), .null, .null, .null, .entry (numericEntry 8), .null,
    .entry (numericEntry 7)], 7, 3⟩

theorem reuseRun_run : Runs.run step nodeStoreNew reuseRun =
    .ok (reusedStore, List.replicate 7 (.status StatusCode.good)) := by decide +kernel

theorem lookups_end_after_reuse :
    Loop.Ends (findNodeBody reusedStore (numericId 6) (stride reusedStore (numericId 6)))
        (startIndex reusedStore (numericId 6)) ∧
      Loop.Ends (findSlotBody reusedStore (numericId 6) (stride reusedStore (numericId 6)))
        (startIndex reusedStore (numericId 6)) := by
  have hample : Runs.Guarded step Ample nodeStoreNew reuseRun := by decide +kernel
  exact lookups_end reuseRun (Runs.guarded_imp Ample.keepsNull hample) _ reuseRun_run (numericId 6)

/-- Nodes inserted and removed one at a time: the first removal shrinks the table to seven slots,
and the next seven leave a tombstone in each of them. -/
def tombstoneRun : List (Op Unit) :=
  [5, 29, 1, 2, 3, 8, 16, 21].flatMap fun i =>
    [.insert (numericEntry i) true, .remove (numericId i) true]

/-- After `tombstoneRun` a lookup of any other node never ends. -/
theorem lookup_after_tombstoneRun :
    ¬ ∀ (ops : List (Op Unit)) (ns : Store Unit) (rs : List (Reply Unit)),
      Runs.run step nodeStoreNew ops = .ok (ns, rs) → ∀ nodeid,
        Loop.Ends (findNodeBody ns nodeid (stride ns nodeid)) (startIndex ns nodeid) ∧
          Loop.Ends (findSlotBody ns nodeid (stride ns nodeid)) (startIndex ns nodeid) := by
  intro h
  have hrun : Runs.run step nodeStoreNew tombstoneRun =
      .ok (⟨List.replicate 7 .tombstone, 7, 0⟩,
        List.replicate 16 (.status StatusCode.good)) := by decide +kernel
  refine Loop.not_ends_of_invariant (P := fun idx => idx < 7) ?_ (by decide +kernel)
    (h _ _ _ hrun (numericId 5)).1
  intro idx hidx
  interval_cases idx <;> exact ⟨_, rfl, by decide +kernel⟩

end FactoryThing.NodeStore
