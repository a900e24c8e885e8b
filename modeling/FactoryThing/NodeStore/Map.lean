import FactoryThing.NodeStore.Termination

/-!
# The node store as a finite map

What the store is for: a partial map from NodeIds to entries. The table represents that map
(`OpenAddressing.Represents`), and each call does to the map what its name says, as long as an
insertion does not stop at a tombstone in front of the NodeId it is looking for.
-/

namespace FactoryThing.NodeStore

abbrev NodeMap (A : Type) := NodeId → Option (Entry A)

variable {A : Type} {ns ns' : Store A} {m : NodeMap A}

/-- The map with the entry stored under its NodeId. -/
def NodeMap.put (m : NodeMap A) (e : Entry A) : NodeMap A :=
  fun x => if nodeIdEqual e.node.nodeId x then some e else m x

def NodeMap.erase (m : NodeMap A) (nodeid : NodeId) : NodeMap A :=
  fun x => if nodeIdEqual nodeid x then none else m x

/-- What the operations do to a map from NodeIds to nodes. -/
def mapStep (m : NodeMap A) : Op A → NodeMap A × Reply A
  | .insert e _ =>
      match m e.node.nodeId with
      | some _ => (m, .status StatusCode.badNodeIdExists)
      | none => (m.put e, .status StatusCode.good)
  | .replace e =>
      match m e.node.nodeId with
      | none => (m, .status StatusCode.badNodeIdUnknown)
      | some old =>
          if some old.addr ≠ e.orig then (m, .status StatusCode.badInternalError)
          else (m.put e, .status StatusCode.good)
  | .remove nodeid _ =>
      match m nodeid with
      | none => (m, .status StatusCode.badNodeIdUnknown)
      | some _ => (m.erase nodeid, .status StatusCode.good)
  | .get nodeid => (m, .node ((m nodeid).map Entry.node))

/-- The table of the store represents the map. -/
abbrev Represents (ns : Store A) (m : NodeMap A) : Prop :=
  OpenAddressing.Represents (hashing A ns.size) ns.slotAt m

theorem Represents.withCount (h : Represents ns m) (count : Nat) :
    Represents { ns with count := count } m := h

/-- A store in working order that stands for `m`. -/
structure StandsFor (ns : Store A) (m : NodeMap A) : Prop where
  inv : Inv ns
  represents : Represents ns m

theorem slotAt_replicate (n size count : Nat) :
    (⟨List.replicate n .null, size, count⟩ : Store A).slotAt = fun _ => .null := by
  funext i
  simp only [Store.slotAt, List.getD_eq_getElem?_getD, List.getElem?_replicate]
  split <;> rfl

theorem standsFor_new : StandsFor (nodeStoreNew : Store A) (fun _ => none) where
  inv := inv_new
  represents := by
    rw [Represents, nodeStoreNew, slotAt_replicate]
    exact OpenAddressing.represents_empty

theorem findNode_spec (h : StandsFor ns m) (nodeid : NodeId) :
    (m nodeid = none ∧ findNode ns nodeid = .ok none) ∨
      ∃ idx e, idx < ns.entries.length ∧ ns.slotAt idx = .entry e ∧ m nodeid = some e ∧
        nodeIdEqual e.node.nodeId nodeid = true ∧ findNode ns nodeid = .ok (some idx) := by
  obtain ⟨i, hi, hnull⟩ := exists_null_of_nullCount h.inv.null_pos
  obtain ⟨k, -, hat, hbefore, heq⟩ := findNode_first nodeid h.inv.sized
    (h.inv.sized.length_eq ▸ hi) (by rw [hnull]; rfl)
  cases hslot : ns.slotAt (path ns nodeid k) with
  | null =>
    refine .inl ⟨h.represents.eq_none_iff.2 ?_, by rw [heq, hslot]; rfl⟩
    refine OpenAddressing.not_holds_of_null h.represents.linked hslot ?_
    rintro j hj ⟨e, he, hsame⟩
    have hpassed := hbefore j hj
    rw [show ns.slotAt (path ns nodeid j) = .entry e from he] at hpassed
    exact absurd hsame (by simpa [Slot.stopsNode, hashing] using hpassed)
  | tombstone => rw [hslot] at hat; cases hat
  | entry e =>
    rw [hslot] at hat
    exact .inr ⟨_, e, lt_of_slotAt_entry hslot, hslot, h.represents.eq_some hslot hat, hat,
      by rw [heq, hslot]; rfl⟩

/-- On the path of a NodeId that the map has, no tombstone comes before the entry. -/
def NotShadowed (ns : Store A) (nodeid : NodeId) : Prop :=
  ∀ k, FirstStop ns nodeid k → ns.slotAt (path ns nodeid k) = .tombstone →
    ∀ i e, ns.slotAt i = .entry e → nodeIdEqual e.node.nodeId nodeid = false

theorem findSlot_spec (h : StandsFor ns m) {nodeid : NodeId} (hshadow : NotShadowed ns nodeid) :
    ((m nodeid).isSome ∧ findSlot ns nodeid = .ok none) ∨
      ∃ k, m nodeid = none ∧ path ns nodeid k < ns.entries.length ∧
        (∀ e, ns.slotAt (path ns nodeid k) ≠ .entry e) ∧
        (∀ j < k, ns.slotAt (path ns nodeid j) ≠ .null) ∧
        findSlot ns nodeid = .ok (some (path ns nodeid k)) := by
  obtain ⟨i, hi, hnull⟩ := exists_null_of_nullCount h.inv.null_pos
  obtain ⟨k, -, hfirst, heq⟩ := findSlot_first nodeid h.inv.sized
    (h.inv.sized.length_eq ▸ hi) (by rw [hnull]; rfl)
  have hlt : path ns nodeid k < ns.entries.length :=
    h.inv.sized.length_eq ▸ h.inv.sized.path_lt nodeid k
  have hnotNull : ∀ j < k, ns.slotAt (path ns nodeid j) ≠ .null := by
    intro j hj hj'
    have hpassed := hfirst.passes j hj
    rw [hj'] at hpassed
    cases hpassed
  cases hslot : ns.slotAt (path ns nodeid k) with
  | null =>
    refine .inr ⟨k, h.represents.eq_none_iff.2 ?_, hlt, by simp [hslot], hnotNull,
      by rw [heq, hslot]; rfl⟩
    refine OpenAddressing.not_holds_of_null h.represents.linked hslot ?_
    rintro j hj ⟨e, he, hsame⟩
    have hpassed := hfirst.passes j hj
    rw [show ns.slotAt (path ns nodeid j) = .entry e from he] at hpassed
    exact absurd hsame (by simpa [Slot.stopsSlot, hashing] using hpassed)
  | tombstone =>
    refine .inr ⟨k, h.represents.eq_none_iff.2 ?_, hlt, by simp [hslot], hnotNull,
      by rw [heq, hslot]; rfl⟩
    rintro i ⟨e, he, hsame⟩
    have habsent := hshadow k hfirst hslot i e he
    rw [show nodeIdEqual e.node.nodeId nodeid = true from hsame] at habsent
    cases habsent
  | entry e =>
    have hstops := hfirst.stops
    rw [hslot] at hstops
    have hsome : m nodeid = some e := h.represents.eq_some hslot hstops
    exact .inl ⟨by simp [hsome], by rw [heq, hslot]; rfl⟩

/-- The entries still to be moved: what `m` has beyond `moved`, each under a NodeId of its own. -/
structure Pending (old : List (Slot A)) (moved m : NodeMap A) : Prop where
  mem_iff : ∀ x e, m x = some e ↔
    moved x = some e ∨ (.entry e ∈ old ∧ nodeIdEqual e.node.nodeId x = true)
  absent : ∀ e x, .entry e ∈ old → nodeIdEqual e.node.nodeId x = true → moved x = none
  distinct : old.Pairwise fun c c' => ∀ e e', c = .entry e → c' = .entry e' →
    nodeIdEqual e.node.nodeId e'.node.nodeId = false

theorem Pending.of_entries
    (hmem : ∀ x e, m x = some e ↔ ∃ i, ns.slotAt i = .entry e ∧ nodeIdEqual e.node.nodeId x = true)
    (hunique : ∀ i j e e', ns.slotAt i = .entry e → ns.slotAt j = .entry e' →
      nodeIdEqual e.node.nodeId e'.node.nodeId = true → i = j) :
    Pending ns.entries (fun _ => none) m where
  mem_iff := by
    intro x e
    rw [hmem]
    constructor
    · rintro ⟨i, hi, hsame⟩
      have hlt := lt_of_slotAt_entry hi
      rw [slotAt_eq_getElem hlt] at hi
      exact .inr ⟨hi ▸ List.getElem_mem hlt, hsame⟩
    · rintro (hnone | ⟨hmem, hsame⟩)
      · cases hnone
      · obtain ⟨i, hi, hslot⟩ := List.getElem_of_mem hmem
        exact ⟨i, by rw [slotAt_eq_getElem hi, hslot], hsame⟩
  absent _ _ _ _ := rfl
  distinct := by
    rw [List.pairwise_iff_getElem]
    intro i j hi hj hij e e' he he'
    by_contra hsame
    rw [← slotAt_eq_getElem hi] at he
    rw [← slotAt_eq_getElem hj] at he'
    have : i = j := hunique i j e e' he he' (by simpa using hsame)
    omega

theorem Pending.of_represents (h : Represents ns m) :
    Pending ns.entries (fun _ => none) m :=
  .of_entries h.mem_iff fun _ _ _ _ => h.index_unique

theorem Pending.skip {c : Slot A} {rest : List (Slot A)} {moved : NodeMap A}
    (h : Pending (c :: rest) moved m) (hc : ∀ e, c ≠ .entry e) : Pending rest moved m where
  mem_iff x e := by
    rw [h.mem_iff]
    simp [Ne.symm (hc e)]
  absent e x he := h.absent e x (List.mem_cons_of_mem _ he)
  distinct := (List.pairwise_cons.1 h.distinct).2

theorem Pending.move {e : Entry A} {rest : List (Slot A)} {moved : NodeMap A}
    (h : Pending (.entry e :: rest) moved m) : Pending rest (moved.put e) m := by
  have hother : ∀ e', .entry e' ∈ rest → nodeIdEqual e.node.nodeId e'.node.nodeId = false :=
    fun e' he' => (List.pairwise_cons.1 h.distinct).1 _ he' e e' rfl rfl
  refine ⟨?_, ?_, (List.pairwise_cons.1 h.distinct).2⟩
  · intro x e'
    rw [h.mem_iff, List.mem_cons]
    unfold NodeMap.put
    split
    · rename_i hsame
      rw [h.absent e x List.mem_cons_self hsame]
      constructor
      · rintro (hmoved | ⟨hmem | hmem, hsame'⟩)
        · cases hmoved
        · cases hmem; exact .inl rfl
        · exact .inr ⟨hmem, hsame'⟩
      · rintro (hmoved | ⟨hmem, hsame'⟩)
        · cases hmoved; exact .inr ⟨.inl rfl, hsame⟩
        · exact .inr ⟨.inr hmem, hsame'⟩
    · rename_i hsame
      constructor
      · rintro (hmoved | ⟨hmem | hmem, hsame'⟩)
        · exact .inl hmoved
        · cases hmem; exact absurd hsame' hsame
        · exact .inr ⟨hmem, hsame'⟩
      · rintro (hmoved | ⟨hmem, hsame'⟩)
        · exact .inl hmoved
        · exact .inr ⟨.inr hmem, hsame'⟩
  · intro e' x he' hsame'
    unfold NodeMap.put
    rw [h.absent e' x (List.mem_cons_of_mem _ he') hsame']
    split
    · rename_i hsame
      have hclash := nodeIdEqual_trans hsame (nodeIdEqual_symm hsame')
      rw [hother e' he'] at hclash
      cases hclash
    · rfl

theorem Pending.done {old : List (Slot A)} {moved : NodeMap A} (h : Pending old moved m)
    (hnone : old.countP Slot.isEntry = 0) : moved = m := by
  have habsent : ∀ e, .entry e ∉ old := by
    intro e he
    exact absurd (List.countP_eq_zero.1 hnone _ he) (by simp [Slot.isEntry])
  funext x
  apply Option.ext
  intro e
  rw [h.mem_iff]
  simp [habsent e]

theorem rehash_represents (count : Nat) :
    ∀ (old : List (Slot A)) (ns : Store A) (moved : NodeMap A) (j : Nat), Sized ns → Clean ns →
      ns.liveCount = j → j + old.countP Slot.isEntry = count → count < ns.size →
      Represents ns moved → Pending old moved m →
      ∃ ns', rehash count ns old j = .ok ns' ∧ Represents ns' m := by
  intro old
  induction old with
  | nil =>
    intro ns moved j _ _ _ _ _ hrep hpending
    exact ⟨ns, rfl, hpending.done rfl ▸ hrep⟩
  | cons slot rest ih =>
    intro ns moved j hs hclean hlive hj hroom hrep hpending
    simp only [rehash]
    split
    · rename_i hlt
      cases slot with
      | null | tombstone =>
        exact ih ns moved j hs hclean hlive (by simpa [Slot.isEntry] using hj) hroom hrep
          (hpending.skip (by simp))
      | entry e =>
        have hnull : 0 < ns.nullCount := by unfold Clean at hclean; omega
        have habsent := hpending.absent e e.node.nodeId List.mem_cons_self (nodeIdEqual_refl _)
        rw [hrep.eq_none_iff] at habsent
        rcases findSlot_clean e.node.nodeId hs hclean hnull with
          ⟨k, hk, hslot, hbefore, heq⟩ | ⟨k, e', hslot, hsame, -⟩
        · simp only [heq]
          have hmoved := clean_setSlot hclean hk hslot e
          have hrep' : Represents (ns.setSlot (path ns e.node.nodeId k) (.entry e))
              (moved.put e) := by
            rw [Represents, slotAt_setSlot hk]
            exact OpenAddressing.represents_put hrep habsent (by simp [hslot]) rfl hbefore
          simp only [List.countP_cons, Slot.isEntry, if_true] at hj
          exact ih (ns.setSlot (path ns e.node.nodeId k) (.entry e)) (moved.put e) (j + 1)
            (hs.setSlot _ _) hmoved.1 (by rw [hmoved.2, hlive]) (by omega) hroom hrep'
            hpending.move
        · exact absurd ⟨e', hslot, hsame⟩ (habsent _)
    · rename_i hge
      exact ⟨ns, rfl, hpending.done (by omega) ▸ hrep⟩

theorem expand_spec (h : StandsFor ns m) (alloc : Bool) :
    ∃ ns' status, expand ns alloc = .ok (ns', status) ∧ StandsFor ns' m ∧
      (alloc = true → status = StatusCode.good) := by
  suffices hex : ∃ ns' status, expand ns alloc = .ok (ns', status) ∧ Represents ns' m ∧
      (alloc = true → status = StatusCode.good) by
    obtain ⟨ns', status, heq, hrep, hgood⟩ := hex
    exact ⟨ns', status, heq, ⟨expand_inv h.inv heq, hrep⟩, hgood⟩
  have hlt := h.inv.count_lt
  unfold expand
  split
  · exact ⟨ns, _, rfl, h.represents, fun _ => rfl⟩
  · have hwrap : wrap32 (ns.count * 2) = ns.count * 2 := Nat.mod_eq_of_lt (by omega)
    obtain ⟨hidx, hfit⟩ := higherPrimeIndex_spec (n := ns.count * 2) (by omega)
    have hget : primes[higherPrimeIndex (ns.count * 2)]? =
        some (primes.getD (higherPrimeIndex (ns.count * 2)) 0) := by
      rw [List.getD_eq_getElem?_getD, List.getElem?_eq_getElem (by simp [primes]; omega)]
      rfl
    simp only [hwrap, hget]
    cases alloc with
    | false => exact ⟨ns, _, rfl, h.represents, by simp⟩
    | true =>
      have hfresh := sized_replicate (A := A) hidx ns.count
      have h7 := hfresh.seven_le
      simp only [] at h7
      have hempty : Represents (⟨List.replicate (primes.getD (higherPrimeIndex (ns.count * 2)) 0)
          .null, primes.getD (higherPrimeIndex (ns.count * 2)) 0, ns.count⟩ : Store A)
          (fun _ => none) := by
        rw [Represents, slotAt_replicate]
        exact OpenAddressing.represents_empty
      obtain ⟨ns', heq, hrep⟩ := rehash_represents ns.count ns.entries _
        (fun _ => none) 0 hfresh
        (by simp [Clean, Store.liveCount, Store.nullCount, List.countP_replicate, Slot.isEntry,
          Slot.isNull])
        (by simp [Store.liveCount, List.countP_replicate, Slot.isEntry])
        (by rw [h.inv.count_eq]; simp [Store.liveCount]) (by simp only []; omega) hempty
        (Pending.of_represents h.represents)
      exact ⟨ns', StatusCode.good, by simp only [if_true, heq], hrep, fun _ => rfl⟩

theorem makeRoom_spec (h : StandsFor ns m) :
    ∃ ns', makeRoom ns true = .ok (ns', StatusCode.good) ∧ StandsFor ns' m := by
  unfold makeRoom
  split
  · obtain ⟨ns', status, heq, hfor, hgood⟩ := expand_spec h true
    exact ⟨ns', by rw [heq, hgood rfl], hfor⟩
  · exact ⟨ns, rfl, h⟩

/-- The condition on a call: allocation succeeds, inserted nodes have a NodeId, and the table is
rebuilt first or has a never-used slot to spare and no tombstone in front of the NodeId. -/
def Faithful (ns : Store A) : Op A → Prop
  | .insert e alloc =>
      alloc = true ∧ nodeIdIsNull { e.node.nodeId with namespaceIndex := 0 } = false ∧
        ns.count + 1 < 1073741824 ∧
        (RebuildsFirst ns ∨ (LeavesNull ns e.node.nodeId ∧ NotShadowed ns e.node.nodeId))
  | _ => True

theorem Faithful.keepsNull {op : Op A} (h : Faithful ns op) : KeepsNull ns op := by
  cases op with
  | insert e alloc =>
    obtain ⟨-, -, hlt, hroom⟩ := h
    exact ⟨hlt, hroom.imp_right And.left⟩
  | _ => trivial

theorem notShadowed_of_clean (hs : Sized ns) (hclean : Clean ns) (nodeid : NodeId) :
    NotShadowed ns nodeid := by
  intro k _ hslot
  have hlt : path ns nodeid k < ns.entries.length := hs.length_eq ▸ hs.path_lt nodeid k
  exact absurd hslot (not_tombstone_of_clean hs hclean hlt)

theorem insert_spec {e : Entry A} {alloc : Bool} (h : StandsFor ns m)
    (hok : Faithful ns (.insert e alloc)) :
    ∃ ns', step ns (.insert e alloc) = .ok (ns', (mapStep m (.insert e alloc)).2) ∧
      Represents ns' (mapStep m (.insert e alloc)).1 := by
  obtain ⟨rfl, hid, hlt, hroom⟩ := hok
  obtain ⟨ns₁, hmake, h₁⟩ := makeRoom_spec h
  have hshadow : NotShadowed ns₁ e.node.nodeId := by
    rcases makeRoom_cases h.inv hmake with ⟨rfl, hnot⟩ | hre
    · exact (hroom.resolve_left hnot).2
    · exact notShadowed_of_clean hre.sized hre.clean _
  simp only [step, nodeStoreInsert, hmake, ne_eq, not_true_eq_false, if_false, chooseSlot, hid,
    Bool.false_eq_true, mapStep]
  rcases findSlot_spec h₁ hshadow with ⟨hsome, heq⟩ | ⟨k, hnone, hk, hfree, hbefore, heq⟩
  · obtain ⟨old, hold⟩ := Option.isSome_iff_exists.1 hsome
    simp only [heq, hold, Except.map]
    exact ⟨ns₁, rfl, h₁.represents⟩
  · simp only [heq, hnone, Except.map]
    refine ⟨_, rfl, ?_⟩
    have habsent := h₁.represents.eq_none_iff.1 hnone
    have hput := OpenAddressing.represents_put h₁.represents habsent hfree rfl hbefore
    rw [← slotAt_setSlot hk] at hput
    have hrep : Represents (ns₁.setSlot _ (.entry e)) (m.put e) := hput
    exact hrep.withCount _

theorem replace_spec (h : StandsFor ns m) (e : Entry A) :
    ∃ ns', step ns (.replace e) = .ok (ns', (mapStep m (.replace e)).2) ∧
      Represents ns' (mapStep m (.replace e)).1 := by
  simp only [step, nodeStoreReplace, mapStep]
  rcases findNode_spec h e.node.nodeId with ⟨hnone, heq⟩ | ⟨idx, old, hidx, hslot, hsome, hsame,
    heq⟩
  · simp only [heq, hnone, Except.map]
    exact ⟨ns, rfl, h.represents⟩
  · simp only [heq, hsome, hslot]
    split
    · exact ⟨ns, rfl, h.represents⟩
    · refine ⟨_, rfl, ?_⟩
      have hput := OpenAddressing.represents_replace h.represents hslot (nodeIdEqual_symm hsame)
      rw [← slotAt_setSlot hidx] at hput
      exact hput

theorem nodeStoreRemove_spec (h : StandsFor ns m) {nodeid : NodeId} {idx : Nat} {old : Entry A}
    (hidx : idx < ns.entries.length) (hslot : ns.slotAt idx = .entry old)
    (hsame : nodeIdEqual old.node.nodeId nodeid = true)
    (heq : findNode ns nodeid = .ok (some idx)) (alloc : Bool) :
    ∃ ns', nodeStoreRemove ns nodeid alloc = .ok (ns', StatusCode.good) ∧
      Represents ns' (m.erase nodeid) := by
  have hinv₁ := inv_tombstone h.inv hidx hslot
  have herase := OpenAddressing.represents_erase h.represents hslot hsame
  rw [← slotAt_setSlot hidx] at herase
  have hrep : Represents (ns.setSlot idx .tombstone) (m.erase nodeid) := herase
  unfold nodeStoreRemove
  rw [heq]
  dsimp only
  generalize wrap32 (ns.count + 4294967295) = count at hinv₁ ⊢
  split
  · obtain ⟨ns', status, hexp, hfor, -⟩ := expand_spec ⟨hinv₁, hrep.withCount count⟩ alloc
    exact ⟨ns', by rw [hexp], hfor.represents⟩
  · exact ⟨_, rfl, hrep.withCount count⟩

theorem remove_spec (h : StandsFor ns m) (nodeid : NodeId) (alloc : Bool) :
    ∃ ns', step ns (.remove nodeid alloc) = .ok (ns', (mapStep m (.remove nodeid alloc)).2) ∧
      Represents ns' (mapStep m (.remove nodeid alloc)).1 := by
  rcases findNode_spec h nodeid with ⟨hnone, heq⟩ | ⟨idx, old, hidx, hslot, hsome, hsame, heq⟩
  · have hreply : nodeStoreRemove ns nodeid alloc = .ok (ns, StatusCode.badNodeIdUnknown) := by
      unfold nodeStoreRemove
      rw [heq]
    simp only [step, mapStep, hreply, hnone, Except.map]
    exact ⟨ns, rfl, h.represents⟩
  · obtain ⟨ns', hreply, hrep⟩ := nodeStoreRemove_spec h hidx hslot hsame heq alloc
    simp only [step, mapStep, hreply, hsome, Except.map]
    exact ⟨ns', rfl, hrep⟩

theorem get_spec (h : StandsFor ns m) (nodeid : NodeId) :
    nodeStoreGet ns nodeid = .ok ((m nodeid).map Entry.node) := by
  unfold nodeStoreGet
  rcases findNode_spec h nodeid with ⟨hnone, heq⟩ | ⟨idx, old, -, hslot, hsome, -, heq⟩
  · simp [heq, hnone]
  · simp [heq, hslot, hsome]

theorem step_spec (ns : Store A) (m : NodeMap A) (op : Op A) (h : StandsFor ns m)
    (hok : Faithful ns op) :
    ∃ ns', step ns op = .ok (ns', (mapStep m op).2) ∧ StandsFor ns' (mapStep m op).1 := by
  suffices hex : ∃ ns', step ns op = .ok (ns', (mapStep m op).2) ∧
      Represents ns' (mapStep m op).1 by
    obtain ⟨ns', heq, hrep⟩ := hex
    exact ⟨ns', heq, step_inv ns op ns' _ h.inv hok.keepsNull heq, hrep⟩
  cases op with
  | insert e alloc => exact insert_spec h hok
  | replace e => exact replace_spec h e
  | remove nodeid alloc => exact remove_spec h nodeid alloc
  | get nodeid =>
    refine ⟨ns, ?_, h.represents⟩
    simp only [step, get_spec h nodeid, Except.map, mapStep]

/-- Runs of the store are runs of the map: same answers, the same nodes to be got at the end, one
live slot at most for each NodeId, and `count` live slots. -/
theorem run_refines_map (ops : List (Op A)) (hok : Runs.Guarded step Faithful nodeStoreNew ops) :
    ∃ ns : Store A,
      Runs.run step nodeStoreNew ops = .ok (ns, (Runs.specRun mapStep (fun _ => none) ops).2) ∧
      (∀ nodeid, nodeStoreGet ns nodeid =
        .ok (((Runs.specRun mapStep (fun _ => none) ops).1 nodeid).map Entry.node)) ∧
      (∀ i j e e', ns.slotAt i = .entry e → ns.slotAt j = .entry e' →
        nodeIdEqual e.node.nodeId e'.node.nodeId = true → i = j) ∧
      ns.count = ns.liveCount := by
  obtain ⟨ns, hrun, hfor⟩ := Runs.simulates_of_guarded step_spec ops nodeStoreNew _
    standsFor_new hok
  exact ⟨ns, hrun, get_spec hfor,
    fun i j e e' hi hj hsame => hfor.represents.index_unique hi hj hsame, hfor.inv.count_eq⟩

/-- A call that is surely faithful: an insertion of a new NodeId that finds two never-used slots. -/
def Plain (ns : Store A) : Op A → Prop
  | .insert e alloc =>
      alloc = true ∧ nodeIdIsNull { e.node.nodeId with namespaceIndex := 0 } = false ∧
        ns.count + 1 < 1073741824 ∧ 2 ≤ ns.nullCount ∧
        ns.entries.all (fun c => !(c.isEntry && c.stopsNode e.node.nodeId)) = true
  | _ => True

instance (ns : Store A) (op : Op A) : Decidable (Plain ns op) :=
  match op with
  | .insert e alloc => inferInstanceAs (Decidable (alloc = true ∧
      nodeIdIsNull { e.node.nodeId with namespaceIndex := 0 } = false ∧
        ns.count + 1 < 1073741824 ∧ 2 ≤ ns.nullCount ∧
        ns.entries.all (fun c => !(c.isEntry && c.stopsNode e.node.nodeId)) = true))
  | .replace _ | .remove _ _ | .get _ => isTrue trivial

theorem Plain.faithful (ns : Store A) (op : Op A) (h : Plain ns op) : Faithful ns op := by
  cases op with
  | insert e alloc =>
    obtain ⟨halloc, hid, hlt, htwo, hnew⟩ := h
    refine ⟨halloc, hid, hlt, .inr ⟨.inl htwo, fun _ _ _ i e' hslot => ?_⟩⟩
    have hidx := lt_of_slotAt_entry hslot
    rw [slotAt_eq_getElem hidx] at hslot
    have habsent := List.all_eq_true.mp hnew _ (List.getElem_mem hidx)
    rw [hslot] at habsent
    simpa [Slot.isEntry, Slot.stopsNode] using habsent
  | _ => trivial

theorem run_refines_map_reuse :
    (∀ nodeid, nodeStoreGet reusedStore nodeid =
      .ok (((Runs.specRun mapStep (fun _ => none) reuseRun).1 nodeid).map Entry.node)) ∧
      reusedStore.count = reusedStore.liveCount := by
  have hplain : Runs.Guarded step Plain nodeStoreNew reuseRun := by decide +kernel
  obtain ⟨ns, hrun, hget, -, hcount⟩ :=
    run_refines_map reuseRun (Runs.guarded_imp Plain.faithful hplain)
  rw [reuseRun_run] at hrun
  obtain rfl : reusedStore = ns := by simpa using (congrArg Prod.fst (Except.ok.inj hrun))
  exact ⟨hget, hcount⟩

/-- Two nodes whose paths begin in one slot of the table of seven slots that the first removal
leaves: once the first of them is removed, the second can be inserted again. -/
def shadowRun : List (Op Unit) :=
  [.insert (numericEntry 1) true, .remove (numericId 1) true, .insert (numericEntry 2) true,
    .insert (numericEntry 5) true, .remove (numericId 2) true, .insert (numericEntry 5) true]

/-- The last call of `shadowRun` is answered `Good`, and two live slots hold its NodeId. -/
theorem shadowRun_not_map :
    ¬ ∀ ops : List (Op Unit),
      (∀ e alloc, .insert e alloc ∈ ops → alloc = true ∧
        nodeIdIsNull { e.node.nodeId with namespaceIndex := 0 } = false) →
      (∀ nodeid alloc, .remove nodeid alloc ∈ ops → alloc = true) →
      ∃ ns : Store Unit,
        Runs.run step nodeStoreNew ops = .ok (ns, (Runs.specRun mapStep (fun _ => none) ops).2) ∧
        (∀ i j e e', ns.slotAt i = .entry e → ns.slotAt j = .entry e' →
          nodeIdEqual e.node.nodeId e'.node.nodeId = true → i = j) := by
  intro h
  obtain ⟨ns, hrun, -⟩ := h shadowRun (by simp [shadowRun]; decide) (by simp [shadowRun])
  have hreplies : (Runs.run step nodeStoreNew shadowRun).map Prod.snd =
      .ok (List.replicate 6 (.status StatusCode.good)) := by decide +kernel
  simp only [hrun, Except.map, Except.ok.injEq] at hreplies
  revert hreplies
  decide +kernel

end FactoryThing.NodeStore
