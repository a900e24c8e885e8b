import FactoryThing.AddressSpace.Ends

/-!
# Deleting a node

`removeReferences` walks through the references of the node and deletes their far ends. Where the
node refers to itself it shortens the array it walks through; the last entry then moves to the place
of the removed one. It never moves to a place that has been passed, as long as the references are
symmetric.
-/

namespace FactoryThing.AddressSpace

variable {A : Type} {sv : Server A} {n : NodeKey}

/-- How often the entries of `n` from the index `i` on have the end. -/
def Server.pending (sv : Server A) (n : NodeKey) (i : Nat) (e : RefEnd) : Nat :=
  (((sv.references n).drop i).map (·.endAt n)).count e

/-- Where `removeReferences` stands at the entry `i`: what the other nodes still have of references
to `n` are the far ends of the entries to come. The entries of references of `n` to itself that are
to come pair up. -/
structure Clearing (sv₀ sv : Server A) (n : NodeKey) (i : Nat) : Prop where
  distinct : sv.Distinct
  same : SameButReferences sv₀ sv
  others : ∀ x ≠ n, ((sv.references x).filter fun ref => ref.targetId.nodeId ≠ n).Perm
    ((sv₀.references x).filter fun ref => ref.targetId.nodeId ≠ n)
  far : ∀ e : RefEnd, e.node ≠ n → e.target = n → sv.count e = sv.pending n i e.other
  self : ∀ e : RefEnd, e.node = n → e.target = n → sv.pending n i e.other = sv.pending n i e

theorem Clearing.start (h : Linked sv) (n : NodeKey) : Clearing sv sv n 0 where
  distinct := h.distinct
  same := .refl sv
  others := fun _ _ => .refl _
  far := by
    rintro e - rfl
    exact (h.symmetric e).symm
  self := by
    rintro ⟨a, t, inverse, b⟩ hnode htarget
    obtain rfl : a = n := hnode
    obtain rfl : b = a := htarget
    exact h.symmetric ⟨b, t, inverse, b⟩

theorem pending_cons {sv : Server A} {n : NodeKey} {i : Nat} {ref : ReferenceNode}
    (href : (sv.references n)[i]? = some ref) (e : RefEnd) :
    sv.pending n i e = sv.pending n (i + 1) e + if e = ref.endAt n then 1 else 0 := by
  obtain ⟨hlt, rfl⟩ := List.getElem?_eq_some_iff.mp href
  rw [Server.pending, List.drop_eq_getElem_cons hlt, List.map_cons, count_cons_end]
  rfl

theorem filter_of_removed {item : DeleteReferencesItem} {refs refs' : List ReferenceNode}
    (hremove : SwapRemove.removeLast item.names refs = some refs')
    (htarget : item.targetNodeId.nodeId = n) :
    (refs'.filter fun ref => ref.targetId.nodeId ≠ n).Perm
      (refs.filter fun ref => ref.targetId.nodeId ≠ n) := by
  obtain ⟨ref, hnames, hperm⟩ := SwapRemove.removeLast_perm hremove
  have hend : ref.targetId.nodeId = n := by
    rw [← htarget]
    exact congrArg RefEnd.target (names_iff.mp hnames)
  have hfilter := hperm.filter fun ref => ref.targetId.nodeId ≠ n
  rw [List.filter_cons_of_neg (by simpa using hend)] at hfilter
  exact hfilter.symm

/-- What `removeReferences` asks for at an entry of the node. -/
def farItem (n : NodeKey) (ref : ReferenceNode) : DeleteReferencesItem :=
  ⟨ref.targetId.nodeId, ref.referenceTypeId, ref.isInverse, .here n, false⟩

theorem deleteReference_farItem (sv : Server A) (n : NodeKey) (ref : ReferenceNode) :
    (deleteReference sv (farItem n ref)).1 =
      (editNode sv ref.targetId.nodeId (deleteOneWayReference (farItem n ref))).1 := by
  unfold deleteReference
  dsimp only
  split
  · rfl
  · rfl

theorem sourceEnd_farItem (n : NodeKey) (ref : ReferenceNode) :
    (farItem n ref).sourceEnd = (ref.endAt n).other := rfl

section Step

variable {sv₀ : Server A} {i : Nat} {ref : ReferenceNode}

theorem Clearing.pending_pos (href : (sv.references n)[i]? = some ref) :
    0 < sv.pending n i (ref.endAt n) := by
  rw [pending_cons href, if_pos rfl]
  exact Nat.zero_lt_succ _

theorem Clearing.step_other (h : Clearing sv₀ sv n i) (href : (sv.references n)[i]? = some ref)
    (hne : ref.targetId.nodeId ≠ n) :
    let sv' := (deleteReference sv (farItem n ref)).1
    Clearing sv₀ sv' n (i + 1) ∧ (sv'.references n).length ≤ (sv.references n).length := by
  intro sv'
  have hdistinct : sv'.Distinct := by
    rw [show sv' = _ from deleteReference_farItem sv n ref]
    exact h.distinct.edited _ (deleteOneWayReference_nodeId _)
  have hpos := Clearing.pending_pos href
  have hfar := h.far (ref.endAt n).other hne rfl
  rw [other_other] at hfar
  obtain ⟨-, -, hzero⟩ | ⟨-, hsame, refs, hremove, hrefs⟩ := deleteOneWay_count sv (farItem n ref)
  · rw [sourceEnd_farItem] at hzero
    omega
  have hcount := count_of_removed hremove hrefs
  rw [sourceEnd_farItem] at hcount
  change SameButReferences sv (editNode sv ref.targetId.nodeId _).1 at hsame
  change ∀ x, (editNode sv ref.targetId.nodeId _).1.references x =
    if x = ref.targetId.nodeId then refs else sv.references x at hrefs
  change ∀ e, sv.count e = (editNode sv ref.targetId.nodeId _).1.count e + _ at hcount
  rw [← deleteReference_farItem sv n ref] at hsame hrefs hcount
  have hn : sv'.references n = sv.references n := (hrefs n).trans (if_neg hne.symm)
  have hpending : ∀ e, sv.pending n i e = sv'.pending n (i + 1) e +
      if e = ref.endAt n then 1 else 0 := by
    intro e
    rw [pending_cons href, Server.pending, Server.pending, hn]
  refine ⟨⟨hdistinct, h.same.trans hsame, ?_, ?_, ?_⟩, Nat.le_of_eq (congrArg List.length hn)⟩
  · intro x hx
    refine List.Perm.trans ?_ (h.others x hx)
    rw [show sv'.references x = _ from hrefs x]
    split
    · rename_i hsource
      rw [hsource]
      exact filter_of_removed hremove rfl
    · exact .refl _
  · intro e hnode htarget
    have hbefore := h.far e hnode htarget
    have hnear := hcount e
    have hentry := hpending e.other
    simp only [other_eq_iff] at hentry
    change sv.count e = sv'.count e + _ at hnear
    omega
  · intro e hnode htarget
    have hself := h.self e hnode htarget
    have hentry := hpending e
    have hentry' := hpending e.other
    rw [if_neg fun heq => hne (by rw [← htarget, heq]; rfl)] at hentry
    rw [if_neg fun heq => hne (by rw [← hnode]; exact (congrArg RefEnd.target heq).symm)] at hentry'
    omega

/-- An entry for a reference of the node to itself. The entries of those that are to come pair up,
so the other end is among them, and no entry moves to a place that has been passed. -/
theorem Clearing.step_self (h : Clearing sv₀ sv n i) (href : (sv.references n)[i]? = some ref)
    (hself : ref.targetId.nodeId = n) :
    let sv' := (deleteReference sv (farItem n ref)).1
    Clearing sv₀ sv' n (i + 1) ∧ (sv'.references n).length ≤ (sv.references n).length := by
  intro sv'
  have hdistinct : sv'.Distinct := by
    rw [show sv' = _ from deleteReference_farItem sv n ref]
    exact h.distinct.edited _ (deleteOneWayReference_nodeId _)
  have hpos := Clearing.pending_pos href
  have hother : (ref.endAt n).other ≠ ref.endAt n := other_ne _
  have hlater : 0 < sv.pending n (i + 1) (ref.endAt n).other := by
    have hpair := h.self (ref.endAt n) rfl hself
    have hsplit := pending_cons href (ref.endAt n).other
    rw [if_neg hother] at hsplit
    omega
  have hsource : sv.references (farItem n ref).sourceNodeId = sv.references n := congrArg _ hself
  have hnames : ∀ ref', (farItem n ref).names ref' = true ↔ ref'.endAt n = (ref.endAt n).other := by
    intro ref'
    rw [names_iff, ← sourceEnd_farItem]
    change ref'.endAt ref.targetId.nodeId = _ ↔ _
    rw [hself]
  have hany : ∃ ref' ∈ (sv.references n).drop (i + 1), (farItem n ref).names ref' = true := by
    obtain ⟨ref', href', hend'⟩ := List.mem_map.mp (List.count_pos_iff.mp hlater)
    exact ⟨ref', href', (hnames ref').mpr hend'⟩
  obtain ⟨refs, removed, hremove, hremoved, hperm, -⟩ := SwapRemove.removeLast_behind hany
  obtain ⟨-, -, hzero⟩ | ⟨-, hsame, refs', hremove', hrefs⟩ := deleteOneWay_count sv (farItem n ref)
  · obtain ⟨ref', href', hnames'⟩ := hany
    have hpos' := count_pos_of_mem (List.mem_of_mem_drop href')
    rw [(hnames ref').mp hnames', ← sourceEnd_farItem] at hpos'
    omega
  rw [hsource] at hremove'
  obtain rfl : refs = refs' := Option.some.inj (hremove.symm.trans hremove')
  change SameButReferences sv (editNode sv ref.targetId.nodeId _).1 at hsame
  change ∀ x, (editNode sv ref.targetId.nodeId _).1.references x =
    if x = ref.targetId.nodeId then refs else sv.references x at hrefs
  rw [← deleteReference_farItem sv n ref] at hsame hrefs
  have hn : sv'.references n = refs := (hrefs n).trans (if_pos hself.symm)
  have hne : ∀ x ≠ n, sv'.references x = sv.references x := fun x hx =>
    (hrefs x).trans (if_neg fun heq => hx (heq.trans hself))
  have hpending : ∀ e, sv.pending n i e = sv'.pending n (i + 1) e +
      (if e = (ref.endAt n).other then 1 else 0) + if e = ref.endAt n then 1 else 0 := by
    intro e
    have hmap := (hperm.map (·.endAt n)).count_eq e
    rw [List.map_cons, count_cons_end, (hnames removed).mp hremoved] at hmap
    rw [pending_cons href]
    refine congrArg (· + _) ?_
    rw [Server.pending, hmap, Server.pending, hn]
  have hlength : refs.length ≤ (sv.references n).length := by
    obtain ⟨removed', -, hperm'⟩ := SwapRemove.removeLast_perm hremove
    rw [hperm'.length_eq]
    exact Nat.le_succ _
  refine ⟨⟨hdistinct, h.same.trans hsame, ?_, ?_, ?_⟩, hn ▸ hlength⟩
  · intro x hx
    rw [hne x hx]
    exact h.others x hx
  · intro e hnode htarget
    have hbefore := h.far e hnode htarget
    have hentry := hpending e.other
    rw [if_neg fun heq => hnode ?_, if_neg fun heq => hnode ?_] at hentry
    · have hkept : sv'.count e = sv.count e := by
        rw [Server.count, Server.count, hne e.node hnode]
      omega
    · exact (congrArg RefEnd.target heq).trans hself
    · exact congrArg RefEnd.target heq
  · intro e hnode htarget
    have hbefore := h.self e hnode htarget
    have hentry := hpending e
    have hentry' := hpending e.other
    simp only [other_eq_iff, other_other] at hentry'
    omega

end Step

theorem Clearing.run {sv₀ : Server A} (fuel : Nat) : ∀ {sv : Server A} {i : Nat},
    Clearing sv₀ sv n i → (sv.references n).length ≤ i + fuel →
      ∃ j, Clearing sv₀ (removeReferencesFrom n fuel i sv) n j ∧
        ((removeReferencesFrom n fuel i sv).references n).length ≤ j := by
  induction fuel with
  | zero => exact fun h hlength => ⟨_, h, hlength⟩
  | succ fuel ih =>
    intro sv i h hlength
    unfold removeReferencesFrom
    split
    · rename_i hnone
      exact ⟨i, h, List.getElem?_eq_none_iff.mp hnone⟩
    · rename_i ref href
      have hstep : Clearing sv₀ (deleteReference sv (farItem n ref)).1 n (i + 1) ∧
          ((deleteReference sv (farItem n ref)).1.references n).length ≤
            (sv.references n).length := by
        by_cases hself : ref.targetId.nodeId = n
        · exact h.step_self href hself
        · exact h.step_other href hself
      exact ih hstep.1 (Nat.le_trans hstep.2 (by omega))

theorem removeReferences_spec (h : Linked sv) (n : NodeKey) :
    (removeReferences sv n).Distinct ∧ SameButReferences sv (removeReferences sv n) ∧
      ∀ x ≠ n, ((removeReferences sv n).references x).Perm
        ((sv.references x).filter fun ref => ref.targetId.nodeId ≠ n) := by
  obtain ⟨j, hclear, hend⟩ := (Clearing.start h n).run (sv.references n).length
    (Nat.le_of_eq (Nat.zero_add _).symm)
  change Clearing sv (removeReferences sv n) n j at hclear
  change ((removeReferences sv n).references n).length ≤ j at hend
  refine ⟨hclear.distinct, hclear.same, fun x hx => ?_⟩
  have hall : ∀ ref ∈ (removeReferences sv n).references x, ref.targetId.nodeId ≠ n := by
    intro ref href htarget
    have hpos := count_pos_of_mem href
    rw [hclear.far (ref.endAt x) hx htarget, Server.pending, List.drop_of_length_le hend] at hpos
    exact absurd hpos (Nat.lt_irrefl 0)
  have hfilter := hclear.others x hx
  rwa [List.filter_eq_self.mpr fun ref href => by simpa using hall ref href] at hfilter

theorem deleteNode_spec (h : Linked sv) {node : Node A} (hnode : sv.get n = some node) :
    (deleteNode sv n true).2 = StatusCode.good ∧ (deleteNode sv n true).1.Distinct ∧
      (deleteNode sv n true).1.get n = none ∧
      ∀ x ≠ n, ((deleteNode sv n true).1.references x).Perm
          ((sv.references x).filter fun ref => ref.targetId.nodeId ≠ n) ∧
        (deleteNode sv n true).1.get x = (sv.get x).map fun node =>
          { node with references := (deleteNode sv n true).1.references x } := by
  obtain ⟨hdistinct, hsame, hperm⟩ := removeReferences_spec h n
  have heq : deleteNode sv n true = nodeStoreRemove (removeReferences sv n) n := by
    unfold deleteNode
    rw [hnode]
    rfl
  have hget := get_nodeStoreRemove hdistinct n
  have hrefs : ∀ x ≠ n, (nodeStoreRemove (removeReferences sv n) n).1.references x =
      (removeReferences sv n).references x :=
    fun x hx => references_congr ((hget x).trans (if_neg hx))
  rw [heq]
  refine ⟨?_, hdistinct.removed n, (hget n).trans (if_pos rfl), fun x hx => ?_⟩
  · unfold nodeStoreRemove
    have hsome := hsame.isSome n
    rw [hnode] at hsome
    split
    · rename_i hnone
      rw [hnone] at hsome
      cases hsome
    · rfl
  · rw [hrefs x hx, hget x, if_neg hx]
    exact ⟨hperm x hx, hsame x⟩

theorem count_of_filter {sv' : Server A} {e : RefEnd} (htarget : e.target ≠ n)
    (h : (sv'.references e.node).Perm
      ((sv.references e.node).filter fun ref => ref.targetId.nodeId ≠ n)) :
    sv'.count e = sv.count e := by
  rw [Server.count, (h.map _).count_eq, Server.count]
  induction sv.references e.node with
  | nil => rfl
  | cons ref refs ih =>
    by_cases href : ref.targetId.nodeId = n
    · have hne : e ≠ ref.endAt e.node := by
        intro heq
        exact htarget ((congrArg RefEnd.target heq).trans href)
      rw [List.filter_cons_of_neg (by simpa using href), ih, List.map_cons, count_cons_end,
        if_neg hne, Nat.add_zero]
    · rw [List.filter_cons_of_pos (by simpa using href), List.map_cons, List.map_cons,
        count_cons_end, count_cons_end, ih]

theorem count_deleteNode_target (h : Linked sv) {node : Node A} (hnode : sv.get n = some node)
    {e : RefEnd} (he : e.node = n ∨ e.target = n) : (deleteNode sv n true).1.count e = 0 := by
  obtain ⟨-, -, hnone, hothers⟩ := deleteNode_spec h hnode
  by_cases hn : e.node = n
  · rw [Server.count, hn, references_of_get_none hnone]
    rfl
  · have htarget := he.resolve_left hn
    refine Nat.eq_zero_of_not_pos fun hpos => ?_
    obtain ⟨ref, href, hend⟩ := count_pos_iff.mp hpos
    have hfilter := (hothers e.node hn).1.mem_iff.mp href
    rw [List.mem_filter] at hfilter
    have hto : ref.targetId.nodeId = n := (congrArg RefEnd.target hend).trans htarget
    simp [hto] at hfilter

theorem Linked.nodeDeleted (h : Linked sv) (n : NodeKey) : Linked (deleteNode sv n true).1 := by
  cases hnode : sv.get n with
  | none =>
    unfold deleteNode
    rw [hnode]
    exact h
  | some node =>
    obtain ⟨-, hdistinct, -, hothers⟩ := deleteNode_spec h hnode
    refine ⟨hdistinct, fun e => ?_⟩
    by_cases he : e.node = n ∨ e.target = n
    · rw [count_deleteNode_target h hnode he, count_deleteNode_target h hnode he.symm]
    · rw [not_or] at he
      rw [count_of_filter he.1 (hothers e.other.node he.2).1,
        count_of_filter he.2 (hothers e.node he.1).1, h.symmetric e]

end FactoryThing.AddressSpace
