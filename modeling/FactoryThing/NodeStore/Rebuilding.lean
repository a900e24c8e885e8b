import FactoryThing.NodeStore.Termination

/-!
# Rebuilding any table

`expand` moves the entries of whatever table a run has come to, each to the first free slot among
its probes. A table of fewer than `4294967291` slots can be rebuilt just if no NodeId is in use
twice; in the largest one the probes must also come to a free slot.
-/

namespace FactoryThing.NodeStore

variable {A : Type} {ns ns' ns₁ : Store A} {nodeid x : NodeId} {idx : Nat} {e : Entry A}
  {alloc : Bool}

/-- An entry under the NodeId is somewhere in the table. -/
def Stored (ns : Store A) (nodeid : NodeId) : Prop :=
  ∃ i e, ns.slotAt i = .entry e ∧ nodeIdEqual e.node.nodeId nodeid = true

theorem Found.stored (h : Found ns nodeid) : Stored ns nodeid := by
  obtain ⟨k, e, hfirst, hslot⟩ := h
  have hstops := hfirst.at_step
  rw [hslot] at hstops
  exact ⟨_, e, hslot, hstops⟩

theorem FreeAt.not_found (h : FreeAt ns nodeid idx) : ¬ Found ns nodeid := by
  obtain ⟨k, hfirst, rfl, hfree⟩ := h
  rintro ⟨j, e, hfirst', hslot⟩
  obtain rfl := hfirst.unique hfirst'
  exact hfree e hslot

theorem FreeAt.lt_length (hs : Shaped ns) (h : FreeAt ns nodeid idx) : idx < ns.entries.length := by
  obtain ⟨k, -, rfl, -⟩ := h
  exact hs.length_eq ▸ hs.probed_lt nodeid k

theorem FreeAt.free (h : FreeAt ns nodeid idx) : ∀ e, ns.slotAt idx ≠ .entry e := by
  obtain ⟨k, -, -, hfree⟩ := h
  exact hfree

/-- Probes that come to a free slot at all come to one that is free for the NodeId, or meet it. -/
theorem freeAt_of_not_stored {k : Nat} (hfree : ∀ e, ns.slotAt (probed ns nodeid k) ≠ .entry e)
    (h : ¬ Stored ns nodeid) : ∃ idx, FreeAt ns nodeid idx := by
  have hstop : (ns.slotAt (probed ns nodeid k)).stopsSlot nodeid = true := by
    cases hslot : ns.slotAt (probed ns nodeid k) with
    | entry e => exact absurd hslot (hfree e)
    | _ => rfl
  obtain ⟨j, -, hfirst⟩ := exists_firstProbe hstop
  refine ⟨probed ns nodeid j, j, hfirst, rfl, fun e hslot => ?_⟩
  exact h (Found.stored ⟨j, e, hfirst, hslot⟩)

theorem Shaped.setSlot (hs : Shaped ns) (idx : Nat) (c : Slot A) : Shaped (ns.setSlot idx c) :=
  ⟨hs.seven_le, by simpa using hs.length_eq⟩

theorem stored_setSlot (hidx : idx < ns.entries.length) (hfree : ∀ e, ns.slotAt idx ≠ .entry e) :
    Stored (ns.setSlot idx (.entry e)) x ↔ Stored ns x ∨ nodeIdEqual e.node.nodeId x = true := by
  unfold Stored
  rw [slotAt_setSlot hidx]
  constructor
  · rintro ⟨i, e', hi, hsame⟩
    by_cases heq : i = idx
    · subst heq
      rw [Function.update_self] at hi
      cases hi
      exact .inr hsame
    · rw [Function.update_of_ne heq] at hi
      exact .inl ⟨i, e', hi, hsame⟩
  · rintro (⟨i, e', hi, hsame⟩ | hsame)
    · have hne : i ≠ idx := by
        rintro rfl
        exact hfree e' hi
      exact ⟨i, e', by rwa [Function.update_of_ne hne], hsame⟩
    · exact ⟨idx, e, Function.update_self .., hsame⟩

/-! ## Tables without tombstones -/

/-- Key equality and probes of a table with `size` slots. -/
def probing (A : Type) (size : Nat) : OpenAddressing.Hashing NodeId (Entry A) where
  key e := e.node.nodeId
  same := nodeIdEqual
  path nodeid k :=
    (advance size (mod2 (nodeIdHash nodeid).toNat size))^[k] (mod (nodeIdHash nodeid).toNat size)
  same_refl := nodeIdEqual_refl
  same_symm := nodeIdEqual_symm
  same_trans := nodeIdEqual_trans
  path_congr h := by rw [nodeIdHash_congr h]

theorem probed_congr (ns : Store A) (h : nodeIdEqual nodeid x = true) :
    probed ns nodeid = probed ns x :=
  (probing A ns.size).path_congr h

/-- A table that has only seen insertions: no tombstone, and no entry behind a never-used slot. -/
structure Packed (ns : Store A) : Prop where
  shaped : Shaped ns
  no_tombstone : ∀ i, ns.slotAt i ≠ .tombstone
  linked : OpenAddressing.Linked (probing A ns.size) ns.slotAt

namespace Packed

/-- A NodeId that is in use is met. -/
theorem found (hp : Packed ns) (h : Stored ns nodeid) : Found ns nodeid := by
  obtain ⟨i, e, hi, hsame⟩ := h
  obtain ⟨k, hk, hbefore⟩ := hp.linked i e hi
  change probed ns e.node.nodeId k = i at hk
  change ∀ m < k, ns.slotAt (probed ns e.node.nodeId m) ≠ .null at hbefore
  rw [probed_congr ns hsame] at hk hbefore
  have hstop : (ns.slotAt (probed ns nodeid k)).stopsSlot nodeid = true := by
    rw [hk, hi]
    exact hsame
  obtain ⟨j, hle, hfirst⟩ := exists_firstProbe hstop
  cases hslot : ns.slotAt (probed ns nodeid j) with
  | entry e' => exact ⟨j, e', hfirst, hslot⟩
  | tombstone => exact absurd hslot (hp.no_tombstone _)
  | null =>
    rcases Nat.lt_or_eq_of_le hle with hlt | rfl
    · exact absurd hslot (hbefore j hlt)
    · rw [hk, hi] at hslot
      cases hslot

theorem not_stored (hp : Packed ns) (h : FreeAt ns nodeid idx) : ¬ Stored ns nodeid :=
  fun hstored => h.not_found (hp.found hstored)

theorem setSlot (hp : Packed ns) (h : FreeAt ns e.node.nodeId idx) :
    Packed (ns.setSlot idx (.entry e)) := by
  have hidx := h.lt_length hp.shaped
  refine ⟨hp.shaped.setSlot idx _, fun i => ?_, ?_⟩
  · rw [slotAt_setSlot hidx]
    by_cases heq : i = idx
    · subst heq
      rw [Function.update_self]
      exact fun h => by cases h
    · rw [Function.update_of_ne heq]
      exact hp.no_tombstone i
  · rw [slotAt_setSlot hidx]
    refine OpenAddressing.linked_update hp.linked (fun h => by cases h) ?_
    rintro e' ⟨⟩
    obtain ⟨k, hfirst, hk, -⟩ := h
    refine ⟨k, hk, fun m hm hnull => ?_⟩
    have hpassed := hfirst.passes m hm
    change ns.slotAt (probed ns e.node.nodeId m) = .null at hnull
    rw [hnull] at hpassed
    cases hpassed

end Packed

/-- No two live slots hold the same NodeId. -/
def DistinctIds (ns : Store A) : Prop :=
  ∀ i j e e', ns.slotAt i = .entry e → ns.slotAt j = .entry e' →
    nodeIdEqual e.node.nodeId e'.node.nodeId = true → i = j

/-! ## Moving the entries -/

/-- `ns'` is `ns` with the entries among `old` put in, each into the slot that is free for it. -/
inductive Refilled : Store A → List (Slot A) → Store A → Prop
  | done (ns : Store A) : Refilled ns [] ns
  | skip {ns ns' : Store A} {slot : Slot A} {rest : List (Slot A)} (hslot : ∀ e, slot ≠ .entry e)
      (hrest : Refilled ns rest ns') : Refilled ns (slot :: rest) ns'
  | move {ns ns' : Store A} {e : Entry A} {idx : Nat} {rest : List (Slot A)}
      (hfree : FreeAt ns e.node.nodeId idx)
        (hrest : Refilled (ns.setSlot idx (.entry e)) rest ns') :
      Refilled ns (.entry e :: rest) ns'

namespace Refilled

variable {old : List (Slot A)}

theorem size_eq (h : Refilled ns old ns') : ns'.size = ns.size := by
  induction h with
  | done => rfl
  | skip _ _ ih => exact ih
  | move _ _ ih => exact ih

theorem count_eq (h : Refilled ns old ns') : ns'.count = ns.count := by
  induction h with
  | done => rfl
  | skip _ _ ih => exact ih
  | move _ _ ih => exact ih

theorem packed (h : Refilled ns old ns') (hp : Packed ns) : Packed ns' := by
  induction h with
  | done => exact hp
  | skip _ _ ih => exact ih hp
  | move hfree _ ih => exact ih (hp.setSlot hfree)

theorem liveCount_eq (h : Refilled ns old ns') (hs : Shaped ns) :
    ns'.liveCount = ns.liveCount + old.countP Slot.isEntry := by
  induction h with
  | done => simp
  | @skip ns ns' slot rest hslot _ ih =>
    rw [ih hs, List.countP_cons_of_neg]
    cases slot with
    | entry e => exact absurd rfl (hslot e)
    | _ => exact fun h => by cases h
  | @move ns ns' e idx rest hfree _ ih =>
    rw [ih (hs.setSlot _ _), liveCount_store (hfree.lt_length hs) hfree.free,
      List.countP_cons_of_pos rfl]
    omega

theorem stored_iff (h : Refilled ns old ns') (hs : Shaped ns) :
    Stored ns' x ↔ Stored ns x ∨ ∃ e, .entry e ∈ old ∧ nodeIdEqual e.node.nodeId x = true := by
  induction h with
  | done => simp
  | @skip ns ns' slot rest hslot _ ih =>
    rw [ih hs]
    simp [Ne.symm (hslot _)]
  | @move ns ns' e idx rest hfree _ ih =>
    rw [ih (hs.setSlot _ _), stored_setSlot (hfree.lt_length hs) hfree.free]
    simp [or_assoc]

/-- What is moved was not in the table, and no two of the entries have the same NodeId. -/
theorem distinct (h : Refilled ns old ns') (hp : Packed ns) :
    (∀ e, .entry e ∈ old → ¬ Stored ns e.node.nodeId) ∧
      old.Pairwise fun c c' => ∀ e e', c = .entry e → c' = .entry e' →
        nodeIdEqual e.node.nodeId e'.node.nodeId = false := by
  induction h with
  | done => simp
  | @skip ns ns' slot rest hslot _ ih =>
    obtain ⟨hnew, hrest⟩ := ih hp
    refine ⟨fun e he => ?_, List.pairwise_cons.mpr ⟨fun c _ e e' he => ?_, hrest⟩⟩
    · rcases List.mem_cons.mp he with heq | he
      · exact absurd heq.symm (hslot e)
      · exact hnew e he
    · exact absurd he (hslot e)
  | @move ns ns' e idx rest hfree _ ih =>
    obtain ⟨hnew, hrest⟩ := ih (hp.setSlot hfree)
    have hother : ∀ e', .entry e' ∈ rest →
        ¬ (Stored ns e'.node.nodeId ∨ nodeIdEqual e.node.nodeId e'.node.nodeId = true) := by
      intro e' he'
      rw [← stored_setSlot (hfree.lt_length hp.shaped) hfree.free]
      exact hnew e' he'
    refine ⟨fun e' he' => ?_, List.pairwise_cons.mpr ⟨?_, hrest⟩⟩
    · rcases List.mem_cons.mp he' with heq | he'
      · cases heq
        exact hp.not_stored hfree
      · exact fun hstored => hother e' he' (.inl hstored)
    · rintro c hc e₁ e₂ ⟨⟩ rfl
      exact Bool.eq_false_iff.mpr fun hsame => hother e₂ hc (.inr hsame)

end Refilled

theorem refilled_of_no_entries : ∀ {old : List (Slot A)}, old.countP Slot.isEntry = 0 →
    Refilled ns old ns
  | [], _ => .done ns
  | .null :: _, h => .skip (fun _ h => by cases h) (refilled_of_no_entries h)
  | .tombstone :: _, h => .skip (fun _ h => by cases h) (refilled_of_no_entries h)
  | .entry _ :: _, h => by simp [Slot.isEntry] at h

theorem eq_of_no_entries {old : List (Slot A)} (h : Refilled ns old ns')
    (hnone : old.countP Slot.isEntry = 0) : ns' = ns := by
  induction h with
  | done => rfl
  | skip _ _ ih => exact ih (by simp only [List.countP_cons] at hnone; omega)
  | move => simp [Slot.isEntry] at hnone

theorem rehash_iff {count : Nat} : ∀ {old : List (Slot A)} {ns : Store A} {j : Nat}, Shaped ns →
    j + old.countP Slot.isEntry = count →
    (rehash count ns old j = .ok ns' ↔ Refilled ns old ns') := by
  intro old
  induction old with
  | nil =>
    intro ns j _ _
    rw [rehash, Except.ok.injEq]
    constructor
    · rintro rfl
      exact .done ns
    · intro h
      exact (eq_of_no_entries h rfl).symm
  | cons slot rest ih =>
    intro ns j hs hj
    simp only [rehash]
    split
    · have hskip : (∀ e, slot ≠ .entry e) →
        (Refilled ns (slot :: rest) ns' ↔ Refilled ns rest ns') :=
        fun hslot => ⟨fun h => by
          cases h with
          | skip _ hrest => exact hrest
          | move => exact absurd rfl (hslot _), .skip hslot⟩
      cases slot with
      | null | tombstone =>
        rw [hskip fun _ h => by cases h]
        exact ih hs (by simpa [Slot.isEntry] using hj)
      | entry e =>
        rw [List.countP_cons_of_pos rfl] at hj
        dsimp only
        constructor
        · intro h
          split at h
          · cases h
          · cases h
          · rename_i idx hfound
            refine .move ((findSlot_some_iff hs).mp hfound) ?_
            exact (ih (hs.setSlot _ _) (by omega)).mp h
        · intro h
          cases h with
          | skip hslot _ => exact absurd rfl (hslot e)
          | move hfree hrest =>
            rw [(findSlot_some_iff hs).mpr hfree]
            exact (ih (hs.setSlot _ _) (by omega)).mpr hrest
    · -- nothing is left to move
      have hnone : (slot :: rest).countP Slot.isEntry = 0 := by omega
      rw [Except.ok.injEq]
      constructor
      · rintro rfl
        exact refilled_of_no_entries hnone
      · intro h
        exact (eq_of_no_entries h hnone).symm

theorem exists_free (hs : Shaped ns) (hroom : ns.liveCount < ns.size) :
    ∃ i < ns.size, ∀ e, ns.slotAt i ≠ .entry e := by
  by_contra hall
  push Not at hall
  have hfull : ns.entries.countP Slot.isEntry = ns.entries.length := by
    refine List.countP_eq_length.mpr fun c hc => ?_
    obtain ⟨i, hi, rfl⟩ := List.getElem_of_mem hc
    obtain ⟨e, he⟩ := hall i (hs.length_eq ▸ hi)
    rw [← slotAt_eq_getElem hi, he]
    rfl
  have hlength := hs.length_eq
  unfold Store.liveCount at hroom
  omega

/-- The probes of a table of prime size go through all of its slots. -/
theorem Sized.exists_freeAt (hs : Sized ns) (hroom : ns.liveCount < ns.size)
    (h : ¬ Stored ns nodeid) : ∃ idx, FreeAt ns nodeid idx := by
  obtain ⟨i, hi, hfree⟩ := exists_free hs.shaped hroom
  obtain ⟨k, -, rfl⟩ := hs.path_surj nodeid hi
  rw [hs.path_eq_probed] at hfree
  exact freeAt_of_not_stored hfree h

theorem exists_refilled : ∀ {old : List (Slot A)} {ns : Store A}, Sized ns →
    ns.liveCount + old.countP Slot.isEntry < ns.size →
    (∀ e, .entry e ∈ old → ¬ Stored ns e.node.nodeId) →
    (old.Pairwise fun c c' => ∀ e e', c = .entry e → c' = .entry e' →
      nodeIdEqual e.node.nodeId e'.node.nodeId = false) → ∃ ns', Refilled ns old ns' := by
  intro old
  induction old with
  | nil => exact fun {ns} _ _ _ _ => ⟨ns, .done ns⟩
  | cons slot rest ih =>
    intro ns hs hroom hnew hdistinct
    obtain ⟨hfirst, hrest⟩ := List.pairwise_cons.mp hdistinct
    have hskip : (∀ e, slot ≠ .entry e) → ∃ ns', Refilled ns (slot :: rest) ns' := by
      intro hslot
      obtain ⟨ns', h⟩ := ih hs (by rw [List.countP_cons] at hroom; omega)
        (fun e he => hnew e (List.mem_cons_of_mem _ he)) hrest
      exact ⟨ns', .skip hslot h⟩
    cases slot with
    | null | tombstone => exact hskip fun _ h => by cases h
    | entry e =>
      rw [List.countP_cons_of_pos rfl] at hroom
      obtain ⟨idx, hfree⟩ := hs.exists_freeAt (by omega) (hnew e List.mem_cons_self)
      have hidx := hfree.lt_length hs.shaped
      obtain ⟨ns', h⟩ := ih (hs.setSlot idx (.entry e))
        (by rw [liveCount_store hidx hfree.free, setSlot_size]; omega)
        (fun e' he' => by
          rw [stored_setSlot hidx hfree.free, not_or]
          refine ⟨hnew e' (List.mem_cons_of_mem _ he'), ?_⟩
          exact Bool.eq_false_iff.mp (hfirst _ he' e e' rfl rfl)) hrest
      exact ⟨ns', .move hfree h⟩

theorem pairwise_of_distinct (h : DistinctIds ns) :
    ns.entries.Pairwise fun c c' => ∀ e e', c = .entry e → c' = .entry e' →
      nodeIdEqual e.node.nodeId e'.node.nodeId = false := by
  rw [List.pairwise_iff_getElem]
  intro i j hi hj hij e e' he he'
  rw [← slotAt_eq_getElem hi] at he
  rw [← slotAt_eq_getElem hj] at he'
  refine Bool.eq_false_iff.mpr fun hsame => ?_
  have heq := h i j e e' he he' hsame
  omega

theorem distinct_of_pairwise (h : ns.entries.Pairwise fun c c' => ∀ e e', c = .entry e →
    c' = .entry e' → nodeIdEqual e.node.nodeId e'.node.nodeId = false) : DistinctIds ns := by
  rw [List.pairwise_iff_getElem] at h
  have hlt : ∀ i j e e', ns.slotAt i = .entry e → ns.slotAt j = .entry e' →
      nodeIdEqual e.node.nodeId e'.node.nodeId = true → ¬ i < j := by
    intro i j e e' he he' hsame hij
    have hi := lt_of_slotAt_entry he
    have hj := lt_of_slotAt_entry he'
    rw [slotAt_eq_getElem hi] at he
    rw [slotAt_eq_getElem hj] at he'
    rw [h i j hi hj hij e e' he he'] at hsame
    cases hsame
  intro i j e e' he he' hsame
  have h₁ := hlt i j e e' he he' hsame
  have h₂ := hlt j i e' e he' he (nodeIdEqual_symm hsame)
  omega

end FactoryThing.NodeStore
