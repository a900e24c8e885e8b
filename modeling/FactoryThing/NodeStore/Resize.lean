import FactoryThing.NodeStore.Search

/-!
# Counting slots and resizing

How writes change the number of live and never-used slots, and what `expand` does: it either
leaves the table alone or moves every live entry into a fresh table without tombstones that is at
most half full.
-/

namespace FactoryThing.NodeStore

variable {A : Type} {ns : Store A}

def Slot.isEntry : Slot A → Bool
  | .entry _ => true
  | _ => false

def Slot.isNull : Slot A → Bool
  | .null => true
  | _ => false

def Store.liveCount (ns : Store A) : Nat := ns.entries.countP Slot.isEntry

def Store.nullCount (ns : Store A) : Nat := ns.entries.countP Slot.isNull

@[simp] theorem setSlot_size (idx : Nat) (c : Slot A) : (ns.setSlot idx c).size = ns.size := rfl
@[simp] theorem setSlot_count (idx : Nat) (c : Slot A) : (ns.setSlot idx c).count = ns.count := rfl
@[simp] theorem setSlot_length (idx : Nat) (c : Slot A) :
    (ns.setSlot idx c).entries.length = ns.entries.length := by
  simp [Store.setSlot]

theorem slotAt_setSlot {idx : Nat} (h : idx < ns.entries.length) (c : Slot A) :
    (ns.setSlot idx c).slotAt = Function.update ns.slotAt idx c := by
  funext j
  by_cases hj : j = idx
  · subst hj
    simp [Store.setSlot, Store.slotAt, List.getD_eq_getElem?_getD, List.getElem?_set_self h]
  · simp [Store.setSlot, Store.slotAt, List.getD_eq_getElem?_getD, hj,
      List.getElem?_set_ne (Ne.symm hj)]

theorem slotAt_eq_getElem {idx : Nat} (h : idx < ns.entries.length) :
    ns.slotAt idx = ns.entries[idx] := by
  simp [Store.slotAt, List.getD_eq_getElem?_getD, List.getElem?_eq_getElem h]

theorem lt_of_slotAt_entry {idx : Nat} {e : Entry A} (h : ns.slotAt idx = .entry e) :
    idx < ns.entries.length := by
  by_contra hge
  simp [Store.slotAt, List.getD_eq_getElem?_getD,
    List.getElem?_eq_none_iff.mpr (Nat.le_of_not_lt hge)] at h

theorem countP_setSlot (p : Slot A → Bool) {idx : Nat} (h : idx < ns.entries.length)
    (c : Slot A) :
    (ns.setSlot idx c).entries.countP p + (if p (ns.slotAt idx) then 1 else 0) =
      ns.entries.countP p + (if p c then 1 else 0) := by
  have hset := List.countP_set (p := p) (a := c) h
  have hpos : p ns.entries[idx] = true → 0 < ns.entries.countP p := fun hp =>
    List.countP_pos_iff.mpr ⟨_, List.getElem_mem h, hp⟩
  rw [slotAt_eq_getElem h]
  simp only [Store.setSlot, hset]
  split
  · have := hpos (by assumption); omega
  · omega

theorem exists_null_of_nullCount (h : 0 < ns.nullCount) :
    ∃ i < ns.entries.length, ns.slotAt i = .null := by
  obtain ⟨c, hc, hnull⟩ := List.countP_pos_iff.mp h
  obtain ⟨i, hi, rfl⟩ := List.getElem_of_mem hc
  refine ⟨i, hi, ?_⟩
  rw [slotAt_eq_getElem hi]
  cases hci : ns.entries[i] with
  | null => rfl
  | tombstone => rw [hci] at hnull; cases hnull
  | entry e => rw [hci] at hnull; cases hnull

theorem liveCount_add_nullCount_le (ns : Store A) : ns.liveCount + ns.nullCount ≤
    ns.entries.length := by
  unfold Store.liveCount Store.nullCount
  induction ns.entries with
  | nil => simp
  | cons c cs ih =>
    cases c <;> simp only [List.countP_cons, List.length_cons, Slot.isEntry, Slot.isNull,
      Bool.false_eq_true, if_false, if_true] <;> omega

theorem primes_mono {i j : Nat} (hij : i ≤ j) (hj : j < 30) :
    primes.getD i 0 ≤ primes.getD j 0 := by
  induction j with
  | zero => obtain rfl : i = 0 := by omega
            exact le_rfl
  | succ j ih =>
    rcases Nat.lt_or_eq_of_le hij with hlt | rfl
    · exact (ih (by omega) (by omega)).trans (primes_strictMono j (by omega)).le
    · exact le_rfl

theorem higherPrimeIndexLoop_spec (n : Nat) :
    ∀ (fuel low high : Nat), high - low ≤ fuel → low ≤ high → high ≤ 30 →
      (∀ j < low, primes.getD j 0 < n) → (high < 30 → n ≤ primes.getD high 0) →
      let r := higherPrimeIndexLoop n fuel low high
      r ≤ high ∧ (∀ j < r, primes.getD j 0 < n) ∧ (r < 30 → n ≤ primes.getD r 0) := by
  intro fuel
  induction fuel with
  | zero =>
    intro low high hfuel hle _ hbelow habove
    obtain rfl : low = high := by omega
    exact ⟨le_rfl, hbelow, habove⟩
  | succ fuel ih =>
    intro low high hfuel hle hhigh hbelow habove
    simp only [higherPrimeIndexLoop]
    split
    · rename_i heq
      subst heq
      exact ⟨le_rfl, hbelow, habove⟩
    · split
      · rename_i hgt
        refine ih _ _ (by omega) (by omega) hhigh ?_ habove
        intro j hj
        exact lt_of_le_of_lt (primes_mono (by omega) (by omega)) hgt
      · rename_i hngt
        obtain ⟨h1, h2, h3⟩ := ih low (low + (high - low) / 2) (by omega) (by omega) (by omega)
          hbelow (fun _ => Nat.le_of_not_lt hngt)
        exact ⟨by omega, h2, h3⟩

theorem higherPrimeIndex_spec {n : Nat} (hn : n ≤ 2147483647) :
    higherPrimeIndex n < 29 ∧ n ≤ primes.getD (higherPrimeIndex n) 0 := by
  obtain ⟨hle, hbelow, habove⟩ := higherPrimeIndexLoop_spec n 30 0 30 (by omega) (by omega)
    le_rfl (by omega) (by omega)
  change ∀ j < higherPrimeIndex n, _ at hbelow
  change higherPrimeIndex n < 30 → n ≤ primes.getD (higherPrimeIndex n) 0 at habove
  have hlt : higherPrimeIndex n < 29 := by
    by_contra hge
    have hlast : primes.getD 28 0 < n := hbelow 28 (by omega)
    have hval : primes.getD 28 0 = 2147483647 := rfl
    omega
  exact ⟨hlt, habove (by omega)⟩

/-- What a table holds besides its entries does not matter to a search in a fresh table: `Clean`
tables have no tombstones. -/
def Clean (ns : Store A) : Prop := ns.liveCount + ns.nullCount = ns.size

theorem sized_replicate {i : Nat} (hi : i < 29) (count : Nat) :
    Sized (⟨List.replicate (primes.getD i 0) .null, primes.getD i 0, count⟩ : Store A) where
  prime := primes_prime i hi
  seven_le := primes_mono (i := 0) (by omega) (by omega)
  lt := by
    have h := primes_mono (i := i) (j := 28) (by omega) (by omega)
    have hval : primes.getD 28 0 = 2147483647 := rfl
    simp only []
    omega
  length_eq := by simp

theorem Sized.setSlot (hs : Sized ns) (idx : Nat) (c : Slot A) : Sized (ns.setSlot idx c) :=
  ⟨hs.prime, hs.seven_le, hs.lt, by simpa using hs.length_eq⟩

theorem not_tombstone_of_clean (hs : Sized ns) (hclean : Clean ns) {idx : Nat}
    (hidx : idx < ns.entries.length) : ns.slotAt idx ≠ .tombstone := by
  intro hslot
  have hcount := countP_setSlot Slot.isEntry hidx .null
  have hcount' := countP_setSlot Slot.isNull hidx .null
  have hle := liveCount_add_nullCount_le (ns.setSlot idx .null)
  simp only [hslot, Slot.isEntry, Slot.isNull, Store.liveCount, Store.nullCount, setSlot_length,
    hs.length_eq, Clean, Bool.false_eq_true, if_false, if_true] at *
  omega

/-- In a clean table with room, `findSlot` returns either a never-used slot on the path behind
entries with other NodeIds, or meets the NodeId. -/
theorem findSlot_clean (nodeid : NodeId) (hs : Sized ns) (hclean : Clean ns)
    (hroom : 0 < ns.nullCount) :
    (∃ k, path ns nodeid k < ns.entries.length ∧ ns.slotAt (path ns nodeid k) = .null ∧
        (∀ m < k, ns.slotAt (path ns nodeid m) ≠ .null) ∧
        findSlot ns nodeid = .ok (some (path ns nodeid k))) ∨
      (∃ k e, ns.slotAt (path ns nodeid k) = .entry e ∧
        nodeIdEqual e.node.nodeId nodeid = true ∧ findSlot ns nodeid = .ok none) := by
  obtain ⟨i, hi, hnull⟩ := exists_null_of_nullCount hroom
  obtain ⟨k, hk, ⟨hat, hbefore⟩, heq⟩ := findSlot_first nodeid hs (hs.length_eq ▸ hi)
    (by rw [hnull]; rfl)
  have hlt : path ns nodeid k < ns.entries.length := hs.length_eq ▸ hs.path_lt nodeid k
  have hnot : ∀ m < k, ns.slotAt (path ns nodeid m) ≠ .null := by
    intro m hm hm'
    have := hbefore m hm
    rw [hm'] at this
    cases this
  cases hslot : ns.slotAt (path ns nodeid k) with
  | null => exact .inl ⟨k, hlt, hslot, hnot, by rw [heq, hslot]; rfl⟩
  | entry e =>
    rw [hslot] at hat
    exact .inr ⟨k, e, hslot, hat, by rw [heq, hslot]; rfl⟩
  | tombstone => exact absurd hslot (not_tombstone_of_clean hs hclean hlt)

theorem clean_setSlot {idx : Nat} (hclean : Clean ns) (hidx : idx < ns.entries.length)
    (hslot : ns.slotAt idx = .null) (e : Entry A) :
    Clean (ns.setSlot idx (.entry e)) ∧
      (ns.setSlot idx (.entry e)).liveCount = ns.liveCount + 1 := by
  have hentry := countP_setSlot Slot.isEntry hidx (.entry e)
  have hnull := countP_setSlot Slot.isNull hidx (.entry e)
  rw [hslot] at hentry hnull
  simp only [Slot.isEntry, Slot.isNull, Bool.false_eq_true, if_false, if_true] at hentry hnull
  unfold Clean Store.liveCount Store.nullCount at *
  rw [setSlot_size]
  omega

theorem rehash_counts {count : Nat} :
    ∀ (old : List (Slot A)) (ns ns' : Store A) (j : Nat), Sized ns → Clean ns →
      ns.liveCount = j → j + old.countP Slot.isEntry = count → count < ns.size →
      rehash count ns old j = .ok ns' →
      Sized ns' ∧ Clean ns' ∧ ns'.liveCount = count ∧ ns'.size = ns.size ∧
        ns'.count = ns.count := by
  intro old
  induction old with
  | nil =>
    intro ns ns' j hs hclean hlive hj _ h
    simp only [rehash, Except.ok.injEq] at h
    subst h
    exact ⟨hs, hclean, by simpa [hlive] using hj, rfl, rfl⟩
  | cons slot rest ih =>
    intro ns ns' j hs hclean hlive hj hroom h
    simp only [rehash] at h
    split at h
    · cases slot with
      | null => exact ih ns ns' j hs hclean hlive (by simpa [Slot.isEntry] using hj) hroom h
      | tombstone => exact ih ns ns' j hs hclean hlive (by simpa [Slot.isEntry] using hj) hroom h
      | entry e =>
        simp only [] at h
        have hnull : 0 < ns.nullCount := by unfold Clean at hclean; omega
        rcases findSlot_clean e.node.nodeId hs hclean hnull with
          ⟨k, hk, hslot, -, heq⟩ | ⟨_, _, -, -, heq⟩
        · rw [heq] at h
          have hmoved := clean_setSlot hclean hk hslot e
          simp only [List.countP_cons, Slot.isEntry, if_true] at hj
          exact ih (ns.setSlot (path ns e.node.nodeId k) (.entry e)) ns' (j + 1)
            (hs.setSlot _ _) hmoved.1 (by rw [hmoved.2, hlive]) (by omega) hroom h
        · rw [heq] at h
          cases h
    · simp only [Except.ok.injEq] at h
      subst h
      exact ⟨hs, hclean, by omega, rfl, rfl⟩

end FactoryThing.NodeStore
