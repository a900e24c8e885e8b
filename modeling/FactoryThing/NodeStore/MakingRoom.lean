import FactoryThing.NodeStore.Rebuilding

/-!
# Making room in any table

What a run keeps while the store has fewer than `2^31` nodes, whatever the size of its table, and
what an insertion does before it looks for a slot. `count * 4`, `count * 8` and `size * 3` leave 32
bits in the two largest tables, but there is always room where the table is not rebuilt.
-/

namespace FactoryThing.NodeStore

variable {A : Type} {ns ns' ns₁ : Store A} {nodeid x : NodeId} {idx : Nat} {e : Entry A}
  {alloc : Bool}
variable {status : StatusCode}

/-- What every run keeps. -/
structure Whole (ns : Store A) : Prop where
  size_mem : ∃ i < 30, ns.size = primes.getD i 0
  length_eq : ns.entries.length = ns.size
  count_eq : ns.count = ns.liveCount
  count_lt : ns.count < 2147483648

theorem primes_le {i : Nat} (hi : i < 30) : primes.getD i 0 ≤ 4294967291 :=
  primes_mono (j := 29) (by omega) (by omega)

theorem seven_le_primes {i : Nat} (hi : i < 30) : 7 ≤ primes.getD i 0 :=
  primes_mono (i := 0) (by omega) hi

theorem primes_cases {i : Nat} (hi : i < 30) :
    primes.getD i 0 ≤ 1073741789 ∨ primes.getD i 0 = 2147483647 ∨ primes.getD i 0 = 4294967291 := by
  rcases Nat.lt_or_ge i 28 with hlt | hge
  · exact .inl (primes_mono (j := 27) (by omega) (by omega))
  · obtain rfl | rfl : i = 28 ∨ i = 29 := by omega
    · exact .inr (.inl rfl)
    · exact .inr (.inr rfl)

namespace Whole

theorem shaped (hw : Whole ns) : Shaped ns := by
  obtain ⟨i, hi, hsize⟩ := hw.size_mem
  exact ⟨hsize ▸ seven_le_primes hi, hw.length_eq⟩

theorem size_cases (hw : Whole ns) :
    ns.size ≤ 1073741789 ∨ ns.size = 2147483647 ∨ ns.size = 4294967291 := by
  obtain ⟨i, hi, hsize⟩ := hw.size_mem
  exact hsize ▸ primes_cases hi

/-- All tables but the largest have a prime size whose double stays in 32 bits. -/
theorem sized (hw : Whole ns) (h : ns.size ≠ 4294967291) : Sized ns := by
  obtain ⟨i, hi, hsize⟩ := hw.size_mem
  have hne : i ≠ 29 := by
    rintro rfl
    exact h hsize
  have hlt : ns.size < 2147483648 := by
    have hcases := hw.size_cases
    omega
  exact ⟨hsize ▸ primes_prime i (by omega), hw.shaped.seven_le, hlt, hw.length_eq⟩

theorem count_le (hw : Whole ns) : ns.count ≤ ns.size := by
  rw [hw.count_eq, ← hw.length_eq]
  exact List.countP_le_length

theorem double (hw : Whole ns) : wrap32 (ns.count * 2) = ns.count * 2 := by
  have hlt := hw.count_lt
  exact Nat.mod_eq_of_lt (by omega)

end Whole

theorem whole_new : Whole (nodeStoreNew : Store A) where
  size_mem := ⟨4, by omega, rfl⟩
  length_eq := inv_new.sized.length_eq
  count_eq := inv_new.count_eq
  count_lt := by change 0 < _; omega

/-- There is a slot left for the entry, and the identifier that is tried first is below the size. -/
def Roomy (ns : Store A) : Prop := ns.count + 1 < ns.size

theorem roomy_of_not_rebuilds (hw : Whole ns) (h : ¬ RebuildsFirst ns) : Roomy ns := by
  have hsize := hw.size_cases
  have hcount := hw.count_le
  have hlt := hw.count_lt
  have hdouble := hw.double
  have h7 := hw.shaped.seven_le
  unfold Roomy
  by_cases hkeeps : KeepsSize ns
  · have hhalf := hkeeps.1
    omega
  · have hload : ¬ wrap32 (ns.size * 3) ≤ wrap32 (ns.count * 4) := fun hload => h ⟨hload, hkeeps⟩
    rcases hsize with hle | heq | heq
    · rw [show wrap32 (ns.size * 3) = ns.size * 3 from Nat.mod_eq_of_lt (by omega),
        show wrap32 (ns.count * 4) = ns.count * 4 from Nat.mod_eq_of_lt (by omega)] at hload
      omega
    · -- three times the size is `2147483645` in 32 bits
      rw [heq] at hload
      unfold wrap32 at hload
      omega
    · omega

/-! ## The size of a rebuilt table -/

/-- The size `expand` chooses. -/
def Store.newSize (ns : Store A) : Nat := primes.getD (higherPrimeIndex (wrap32 (ns.count * 2))) 0

/-- The table `expand` allocates. -/
def Store.emptied (ns : Store A) : Store A :=
  ⟨List.replicate ns.newSize .null, ns.newSize, ns.count⟩

theorem higherPrimeIndex_cases (n : Nat) :
    (n ≤ 4294967291 ∧ higherPrimeIndex n < 30 ∧ n ≤ primes.getD (higherPrimeIndex n) 0) ∨
      (4294967291 < n ∧ primes[higherPrimeIndex n]? = none) := by
  obtain ⟨hle, hbelow, habove⟩ := higherPrimeIndexLoop_spec n 30 0 30 (by omega) (by omega)
    le_rfl (by omega) (by omega)
  change higherPrimeIndex n ≤ 30 at hle
  change ∀ j < higherPrimeIndex n, primes.getD j 0 < n at hbelow
  change higherPrimeIndex n < 30 → n ≤ primes.getD (higherPrimeIndex n) 0 at habove
  rcases Nat.lt_or_eq_of_le hle with hlt | heq
  · exact .inl ⟨(habove hlt).trans (primes_le hlt), hlt, habove hlt⟩
  · refine .inr ⟨hbelow 29 (by omega), ?_⟩
    rw [heq]
    rfl

theorem newSize_spec (hw : Whole ns) (hfit : ns.count * 2 ≤ 4294967291) :
    ∃ i < 30, primes[higherPrimeIndex (wrap32 (ns.count * 2))]? = some ns.newSize ∧
      ns.newSize = primes.getD i 0 ∧ ns.count * 2 ≤ ns.newSize := by
  unfold Store.newSize
  rw [hw.double]
  rcases higherPrimeIndex_cases (ns.count * 2) with ⟨-, hlt, hle⟩ | ⟨hgt, -⟩
  · refine ⟨_, hlt, ?_, rfl, hle⟩
    rw [List.getD_eq_getElem?_getD, List.getElem?_eq_getElem (by simpa [primes] using hlt)]
    rfl
  · omega

theorem packed_emptied (h7 : 7 ≤ ns.newSize) : Packed ns.emptied := by
  have hslots : ns.emptied.slotAt = fun _ => .null := by
    funext i
    simp only [Store.emptied, Store.slotAt, List.getD_eq_getElem?_getD, List.getElem?_replicate]
    split <;> rfl
  refine ⟨⟨h7, by simp [Store.emptied]⟩, fun i h => ?_, ?_⟩
  · rw [hslots] at h
    cases h
  · rw [hslots]
    exact OpenAddressing.represents_empty.linked

theorem not_stored_emptied (ns : Store A) (nodeid : NodeId) : ¬ Stored ns.emptied nodeid := by
  rintro ⟨i, e, hi, -⟩
  simp only [Store.emptied, Store.slotAt, List.getD_eq_getElem?_getD, List.getElem?_replicate] at hi
  split at hi <;> cases hi

theorem liveCount_emptied (ns : Store A) : ns.emptied.liveCount = 0 := by
  simp [Store.emptied, Store.liveCount, List.countP_replicate, Slot.isEntry]

theorem stored_entries_iff : Stored ns x ↔
    ∃ e, .entry e ∈ ns.entries ∧ nodeIdEqual e.node.nodeId x = true := by
  constructor
  · rintro ⟨i, e, hi, hsame⟩
    have hlt := lt_of_slotAt_entry hi
    rw [slotAt_eq_getElem hlt] at hi
    exact ⟨e, hi ▸ List.getElem_mem hlt, hsame⟩
  · rintro ⟨e, he, hsame⟩
    obtain ⟨i, hi, hslot⟩ := List.getElem_of_mem he
    exact ⟨i, e, by rw [slotAt_eq_getElem hi, hslot], hsame⟩

/-- What a table is that `expand` has rebuilt from `ns`. -/
structure RebuiltFrom (ns ns' : Store A) : Prop where
  whole : Whole ns'
  roomy : Roomy ns'
  size_eq : ns'.size = ns.newSize
  count_eq : ns'.count = ns.count
  packed : Packed ns'
  stored_iff : ∀ x, Stored ns' x ↔ Stored ns x
  distinct : DistinctIds ns

theorem rebuiltFrom (hw : Whole ns) (hfit : ns.count * 2 ≤ 4294967291)
    (h : Refilled ns.emptied ns.entries ns') : RebuiltFrom ns ns' := by
  obtain ⟨i, hi, -, hsize, hle⟩ := newSize_spec hw hfit
  have h7 : 7 ≤ ns.newSize := hsize ▸ seven_le_primes hi
  have hempty := packed_emptied h7
  have hsize' : ns'.size = ns.newSize := h.size_eq
  have hcount' : ns'.count = ns.count := h.count_eq
  refine ⟨⟨⟨i, hi, hsize'.trans hsize⟩, (h.packed hempty).shaped.length_eq, ?_,
    hcount' ▸ hw.count_lt⟩, ?_, hsize', hcount', h.packed hempty, fun x => ?_, ?_⟩
  · rw [h.liveCount_eq hempty.shaped, liveCount_emptied, hcount', hw.count_eq, Store.liveCount]
    omega
  · unfold Roomy
    omega
  · rw [h.stored_iff hempty.shaped, @stored_entries_iff _ ns]
    exact or_iff_right (not_stored_emptied ns x)
  · exact distinct_of_pairwise (h.distinct hempty).2

/-! ## `expand` and the guard in front of an insertion -/

theorem expand_iff (hw : Whole ns) (hkeep : ¬ KeepsSize ns) :
    expand ns alloc = .ok (ns', StatusCode.good) ↔
      alloc = true ∧ ns.count * 2 ≤ 4294967291 ∧ Refilled ns.emptied ns.entries ns' := by
  unfold KeepsSize at hkeep
  unfold expand
  rw [if_neg hkeep]
  rcases higherPrimeIndex_cases (ns.count * 2) with ⟨hfit, -⟩ | ⟨hgt, hnone⟩
  · obtain ⟨i, hi, hget, hsize, -⟩ := newSize_spec hw hfit
    have hempty := packed_emptied (hsize ▸ seven_le_primes hi : 7 ≤ ns.newSize)
    have hrehash : rehash ns.count ns.emptied ns.entries 0 = .ok ns' ↔
        Refilled ns.emptied ns.entries ns' :=
      rehash_iff hempty.shaped (by rw [hw.count_eq, Store.liveCount, Nat.zero_add])
    rw [hget, ← hrehash]
    cases alloc with
    | false => simp [StatusCode.good, StatusCode.badOutOfMemory]
    | true =>
      dsimp only
      rw [if_pos rfl, show (⟨List.replicate ns.newSize .null, ns.newSize, ns.count⟩ : Store A) =
        ns.emptied from rfl]
      cases rehash ns.count ns.emptied ns.entries 0 with
      | error f => simp
      | ok ns₁ => simp [hfit]
  · rw [hw.double, hnone]
    constructor
    · intro h
      cases h
    · rintro ⟨-, hfit, -⟩
      omega

theorem expand_unchanged (h : expand ns alloc = .ok (ns', status))
    (hbad : status ≠ StatusCode.good) :
    ns' = ns := by
  unfold expand at h
  split at h
  · cases h
    exact absurd rfl hbad
  · split at h
    · cases h
    · split at h
      · split at h
        · cases h
        · cases h
          exact absurd rfl hbad
      · cases h
        rfl

theorem expand_of_keeps (h : KeepsSize ns) : expand ns alloc = .ok (ns, StatusCode.good) := by
  unfold KeepsSize at h
  unfold expand
  rw [if_pos h]

theorem Whole.expand (hw : Whole ns) (h : expand ns alloc = .ok (ns', status)) :
    Whole ns' ∧ ns'.count = ns.count := by
  by_cases hkeeps : KeepsSize ns
  · rw [expand_of_keeps hkeeps] at h
    cases h
    exact ⟨hw, rfl⟩
  by_cases hgood : status = StatusCode.good
  · rw [hgood] at h
    obtain ⟨-, hfit, hre⟩ := (expand_iff hw hkeeps).mp h
    have hrebuilt := rebuiltFrom hw hfit hre
    exact ⟨hrebuilt.whole, hrebuilt.count_eq⟩
  · rw [expand_unchanged h hgood]
    exact ⟨hw, rfl⟩

instance : Decidable (RebuildsFirst ns) :=
  inferInstanceAs (Decidable (wrap32 (ns.size * 3) ≤ wrap32 (ns.count * 4) ∧
    ¬ (wrap32 (ns.count * 2) < ns.size ∧
      (wrap32 (ns.count * 8) > ns.size ∨ ns.size ≤ nodestoreMinsize))))

/-- The table an insertion goes into. -/
def Roomed (ns : Store A) (alloc : Bool) (ns₁ : Store A) : Prop :=
  if RebuildsFirst ns then
    alloc = true ∧ ns.count * 2 ≤ 4294967291 ∧ Refilled ns.emptied ns.entries ns₁
  else ns₁ = ns

theorem makeRoom_iff (hw : Whole ns) :
    makeRoom ns alloc = .ok (ns₁, StatusCode.good) ↔ Roomed ns alloc ns₁ := by
  unfold makeRoom Roomed
  by_cases hload : wrap32 (ns.size * 3) ≤ wrap32 (ns.count * 4)
  · rw [if_pos hload]
    by_cases hkeeps : KeepsSize ns
    · rw [if_neg (fun h : RebuildsFirst ns => h.2 hkeeps), expand_of_keeps hkeeps]
      simp [eq_comm]
    · rw [if_pos (show RebuildsFirst ns from ⟨hload, hkeeps⟩)]
      exact expand_iff hw hkeeps
  · rw [if_neg hload, if_neg (fun h : RebuildsFirst ns => hload h.1)]
    simp [eq_comm]

theorem Whole.makeRoom (hw : Whole ns) (h : makeRoom ns alloc = .ok (ns', status)) :
    Whole ns' ∧ ns'.count = ns.count := by
  unfold NodeStore.makeRoom at h
  split at h
  · exact hw.expand h
  · cases h
    exact ⟨hw, rfl⟩

/-- The size of the table once there is room. -/
def Store.roomSize (ns : Store A) : Nat := if RebuildsFirst ns then ns.newSize else ns.size

structure HasRoom (ns ns₁ : Store A) : Prop where
  whole : Whole ns₁
  roomy : Roomy ns₁
  count_eq : ns₁.count = ns.count
  size_eq : ns₁.size = ns.roomSize
  stored_iff : ∀ x, Stored ns₁ x ↔ Stored ns x
  unchanged : ¬ RebuildsFirst ns → ns₁ = ns
  rebuilt : RebuildsFirst ns → Packed ns₁

theorem Roomed.hasRoom (hw : Whole ns) (h : Roomed ns alloc ns₁) : HasRoom ns ns₁ := by
  unfold Roomed at h
  split at h
  · rename_i hfirst
    have hre := rebuiltFrom hw h.2.1 h.2.2
    exact ⟨hre.whole, hre.roomy, hre.count_eq, hre.size_eq.trans (if_pos hfirst).symm,
      hre.stored_iff, fun hnot => absurd hfirst hnot, fun _ => hre.packed⟩
  · rename_i hfirst
    subst h
    exact ⟨hw, roomy_of_not_rebuilds hw hfirst, rfl, (if_neg hfirst).symm, fun _ => Iff.rfl,
      fun _ => rfl, fun h => absurd h hfirst⟩

theorem Roomed.rebuilds (hw : Whole ns) (h : Roomed ns alloc ns₁) (hfirst : RebuildsFirst ns) :
    alloc = true ∧ ns.count * 2 ≤ 4294967291 ∧ DistinctIds ns := by
  rw [Roomed, if_pos hfirst] at h
  exact ⟨h.1, h.2.1, (rebuiltFrom hw h.2.1 h.2.2).distinct⟩

/-- A table other than the largest can be rebuilt if no NodeId is in use twice. -/
theorem exists_roomed (hw : Whole ns) (hsize : ns.roomSize ≠ 4294967291)
    (h : RebuildsFirst ns → alloc = true ∧ ns.count * 2 ≤ 4294967291 ∧ DistinctIds ns) :
    ∃ ns₁, Roomed ns alloc ns₁ := by
  unfold Roomed
  unfold Store.roomSize at hsize
  split
  · rename_i hfirst
    rw [if_pos hfirst] at hsize
    obtain ⟨halloc, hfit, hdistinct⟩ := h hfirst
    obtain ⟨i, hi, -, hprime, hle⟩ := newSize_spec hw hfit
    have h7 : 7 ≤ ns.newSize := hprime ▸ seven_le_primes hi
    have hsized : Sized ns.emptied := by
      have hne : i ≠ 29 := by
        rintro rfl
        exact hsize hprime
      rw [Store.emptied, hprime]
      exact sized_replicate (by omega) ns.count
    obtain ⟨ns₁, hre⟩ := exists_refilled hsized
      (by
        rw [liveCount_emptied, Nat.zero_add, ← Store.liveCount, ← hw.count_eq]
        change ns.count < ns.newSize
        omega)
      (fun e _ => not_stored_emptied ns e.node.nodeId) (pairwise_of_distinct hdistinct)
    exact ⟨ns₁, halloc, hfit, hre⟩
  · exact ⟨ns, rfl⟩

/-! ## Runs -/

/-- The condition on the calls before: the store does not get to `2^31` nodes. -/
def BelowLimit (ns : Store A) : Op A → Prop
  | .insert _ _ => ns.count + 1 < 2147483648
  | _ => True

instance (ns : Store A) (op : Op A) : Decidable (BelowLimit ns op) :=
  match op with
  | .insert _ _ => inferInstanceAs (Decidable (ns.count + 1 < 2147483648))
  | .replace _ | .remove _ _ | .get _ => isTrue trivial

theorem Whole.store (hw : Whole ns) (hlt : ns.count + 1 < 2147483648)
    (hidx : idx < ns.entries.length)
    (hfree : ∀ e, ns.slotAt idx ≠ .entry e) (e : Entry A) :
    Whole { ns.setSlot idx (.entry e) with count := wrap32 (ns.count + 1) } := by
  rw [show wrap32 (ns.count + 1) = ns.count + 1 from Nat.mod_eq_of_lt (by omega)]
  refine ⟨hw.size_mem, by simpa using hw.length_eq, ?_, hlt⟩
  show ns.count + 1 = (ns.setSlot idx (.entry e)).liveCount
  rw [liveCount_store hidx hfree, hw.count_eq]

theorem Whole.tombstone (hw : Whole ns) (hidx : idx < ns.entries.length)
    (hslot : ns.slotAt idx = .entry e) : Whole (ns.tombstone idx) := by
  have hlive := liveCount_tombstone hidx hslot
  have hold := hw.count_eq
  have hlt := hw.count_lt
  unfold Store.tombstone
  rw [show wrap32 (ns.count + 4294967295) = ns.count - 1 by unfold wrap32; omega]
  refine ⟨hw.size_mem, by simpa using hw.length_eq, ?_, by dsimp only; omega⟩
  show ns.count - 1 = (ns.setSlot idx .tombstone).liveCount
  omega

theorem Whole.insert (hw : Whole ns) (hlt : ns.count + 1 < 2147483648)
    (h : nodeStoreInsert ns e alloc = .ok (ns', status)) : Whole ns' := by
  obtain ⟨ns₁, status₁, hmake, ⟨rfl, -⟩ | ⟨nodeid', idx, rfl, hchoose, rfl⟩⟩ :=
    nodeStoreInsert_cases h
  · exact (hw.makeRoom hmake).1
  · obtain ⟨hw₁, hcount₁⟩ := hw.makeRoom hmake
    have hfree := (findSlot_some_iff hw₁.shaped).mp (chooseSlot_found hchoose).1
    exact hw₁.store (hcount₁ ▸ hlt) (hfree.lt_length hw₁.shaped) hfree.free _

theorem step_whole (s : Store A) (op : Op A) (s' : Store A) (r : Reply A) (hw : Whole s)
    (hlt : BelowLimit s op) (h : step s op = .ok (s', r)) : Whole s' := by
  obtain ⟨e, alloc, status, rfl, hins⟩ | ⟨e, status, rfl, hrep⟩ |
    ⟨nodeid, alloc, status, rfl, hrem⟩ | rfl := step_cases h
  · exact hw.insert hlt hins
  · obtain rfl | ⟨idx, old, hidx, hslot, rfl⟩ := nodeStoreReplace_cases hw.shaped hrep
    · exact hw
    · exact ⟨hw.size_mem, by simpa using hw.length_eq,
        by rw [liveCount_overwrite hidx hslot, setSlot_count, hw.count_eq], hw.count_lt⟩
  · obtain rfl | ⟨idx, old, hidx, hslot, hcase⟩ := nodeStoreRemove_cases hw.shaped hrem
    · exact hw
    · have hw₁ := hw.tombstone hidx hslot
      obtain rfl | ⟨status₂, hexp⟩ := hcase
      · exact hw₁
      · exact (hw₁.expand hexp).1
  · exact hw

end FactoryThing.NodeStore
