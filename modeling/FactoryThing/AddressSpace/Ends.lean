import FactoryThing.AddressSpace.References

/-!
# The two ends of a reference

A reference of one node has its other end at its target. Adding a reference adds both ends or
neither, and deleting one takes both away: as many references lead from one node to another as are
known there to come from the first one.
-/

namespace FactoryThing.AddressSpace

variable {A : Type}

/-- One end of a reference, at the node that keeps it. -/
structure RefEnd where
  node : NodeKey
  referenceTypeId : NodeKey
  isInverse : Bool
  target : NodeKey
  deriving DecidableEq

def RefEnd.other (e : RefEnd) : RefEnd := ⟨e.target, e.referenceTypeId, !e.isInverse, e.node⟩

@[simp] theorem other_other (e : RefEnd) : e.other.other = e := by
  simp [RefEnd.other]

theorem other_eq_iff {e e₁ : RefEnd} : e.other = e₁ ↔ e = e₁.other :=
  ⟨fun heq => by rw [← heq, other_other], fun heq => by rw [heq, other_other]⟩

theorem other_ne (e : RefEnd) : e.other ≠ e := by
  intro h
  have hinverse := congrArg RefEnd.isInverse h
  simp [RefEnd.other] at hinverse

def ReferenceNode.endAt (ref : ReferenceNode) (x : NodeKey) : RefEnd :=
  ⟨x, ref.referenceTypeId, ref.isInverse, ref.targetId.nodeId⟩

/-- How often the node of the end keeps it. -/
def Server.count (sv : Server A) (e : RefEnd) : Nat :=
  ((sv.references e.node).map (·.endAt e.node)).count e

/-- From any node to any other there are as many forward references of a type as there are inverse
ones the other way. -/
def Symmetric (sv : Server A) : Prop :=
  ∀ a b referenceTypeId,
    sv.count ⟨a, referenceTypeId, false, b⟩ = sv.count ⟨b, referenceTypeId, true, a⟩

theorem symmetric_iff {sv : Server A} : Symmetric sv ↔
    ∀ e : RefEnd, sv.count e.other = sv.count e := by
  constructor
  · intro h e
    obtain ⟨a, t, i, b⟩ := e
    cases i with
    | false => exact (h a b t).symm
    | true => exact h b a t
  · intro h a b t
    exact (h ⟨a, t, false, b⟩).symm

/-- An address space in which each NodeId is that of one node and the references are symmetric. -/
structure Linked (sv : Server A) : Prop where
  distinct : sv.Distinct
  symmetric : ∀ e : RefEnd, sv.count e.other = sv.count e

section Counts

variable {sv sv' : Server A}

theorem count_congr (h : ∀ x, sv'.references x = sv.references x) (e : RefEnd) :
    sv'.count e = sv.count e := by
  rw [Server.count, Server.count, h]

theorem count_pos_iff {e : RefEnd} :
    0 < sv.count e ↔ ∃ ref ∈ sv.references e.node, ref.endAt e.node = e := by
  rw [Server.count, List.count_pos_iff, List.mem_map]

theorem count_pos_of_mem {x : NodeKey} {ref : ReferenceNode} (h : ref ∈ sv.references x) :
    0 < sv.count (ref.endAt x) :=
  count_pos_iff.mpr ⟨ref, h, rfl⟩

theorem count_cons_end (e e₁ : RefEnd) (ends : List RefEnd) :
    (e₁ :: ends).count e = ends.count e + if e = e₁ then 1 else 0 := by
  rw [List.count_cons]
  by_cases he : e = e₁
  · simp [he]
  · rw [if_neg he, if_neg (by simpa using Ne.symm he)]

theorem count_of_perm_cons {e e₁ : RefEnd} {ref : ReferenceNode}
    (href : ref.endAt e₁.node = e₁)
    (h : (sv'.references e.node).Perm
      (if e.node = e₁.node then ref :: sv.references e.node else sv.references e.node)) :
    sv'.count e = sv.count e + if e = e₁ then 1 else 0 := by
  rw [Server.count, (h.map _).count_eq, Server.count]
  by_cases hnode : e.node = e₁.node
  · rw [if_pos hnode, List.map_cons, count_cons_end, hnode, href]
  · rw [if_neg hnode, if_neg fun he => hnode (congrArg RefEnd.node he)]
    rfl

end Counts

section AddReference

variable {w : World A} {sv : Server A}

/-- The end a new reference has at its source. -/
def AddReferencesItem.sourceEnd (item : AddReferencesItem) : RefEnd :=
  ⟨item.sourceNodeId, item.referenceTypeId, !item.isForward, item.targetNodeId.nodeId⟩

theorem references_of_added {sv' : Server A} {item : AddReferencesItem}
    (hsource : (sv.get item.sourceNodeId).isSome)
    (htarget : (sv.get item.targetNodeId.nodeId).isSome)
    (h : ∀ x, sv'.get x = (sv.get x).map (·.plus (item.endsAt x))) (x : NodeKey) :
    sv'.references x = sv.references x ++ item.endsAt x := by
  cases hx : sv.get x with
  | some node =>
    rw [references_of_get hx]
    refine @references_of_get _ _ (node.plus _) _ ?_
    rw [h, hx]
    rfl
  | none =>
    have hne : x ≠ item.sourceNodeId ∧ x ≠ item.targetNodeId.nodeId := by
      constructor <;> rintro rfl
      · rw [hx] at hsource
        cases hsource
      · rw [hx] at htarget
        cases htarget
    rw [references_of_get_none hx, references_of_get_none (by rw [h, hx]; rfl)]
    simp [AddReferencesItem.endsAt, hne.1, hne.2]

theorem count_of_added {sv' : Server A} {item : AddReferencesItem}
    (h : ∀ x, sv'.references x = sv.references x ++ item.endsAt x) (e : RefEnd) :
    sv'.count e = sv.count e + (if e = item.sourceEnd then 1 else 0) +
      if e = item.sourceEnd.other then 1 else 0 := by
  have hfirst : ∀ x, (if x = item.sourceNodeId then [item.first] else []).map (·.endAt x) =
      if x = item.sourceNodeId then [item.sourceEnd] else [] := by
    intro x
    split
    · rename_i hx
      rw [hx]
      rfl
    · rfl
  have hsecond : ∀ x, (if x = item.targetNodeId.nodeId then [item.second] else []).map (·.endAt x) =
      if x = item.targetNodeId.nodeId then [item.sourceEnd.other] else [] := by
    intro x
    split
    · rename_i hx
      rw [hx]
      simp [ReferenceNode.endAt, AddReferencesItem.second, RefEnd.other,
        AddReferencesItem.sourceEnd]
    · rfl
  have hone : ∀ (x : NodeKey) (e₁ : RefEnd), e₁.node = x →
      (if e.node = x then [e₁] else []).count e = if e = e₁ then 1 else 0 := by
    rintro x e₁ rfl
    by_cases he : e = e₁
    · simp [he]
    · split
      · exact List.count_eq_zero.mpr (by simpa using he)
      · rfl
  rw [Server.count, h, AddReferencesItem.endsAt, List.map_append, List.map_append,
    List.count_append,
    List.count_append, hfirst, hsecond, hone item.sourceNodeId item.sourceEnd rfl,
    hone item.targetNodeId.nodeId item.sourceEnd.other rfl, Server.count, Nat.add_assoc]

theorem Server.Distinct.added (h : sv.Distinct) (item : AddReferencesItem) :
    (addReference w sv item).1.Distinct := by
  have hasked : (sv.asked 2).Distinct := h
  unfold addReference
  split
  · exact h
  dsimp only
  have hfirst := hasked.edited item.sourceNodeId (addOneWayReference_nodeId (w.alloc sv.clock) item)
  generalize editNode (sv.asked 2) item.sourceNodeId
    (addOneWayReference (w.alloc sv.clock) item) = first at hfirst ⊢
  split
  · exact hfirst
  have hsecond := hfirst.edited item.targetNodeId.nodeId
    (addOneWayReference_nodeId (w.alloc (sv.clock + 1)) ⟨item.targetNodeId.nodeId,
      item.referenceTypeId, !item.isForward, [], .here item.sourceNodeId⟩)
  split
  · exact hsecond.edited _ (deleteOneWayReference_nodeId _)
  · exact hsecond

theorem Linked.added (h : Linked sv) (item : AddReferencesItem) :
    Linked (addReference w sv item).1 := by
  refine ⟨h.distinct.added item, fun e => ?_⟩
  obtain ⟨-, hsame⟩ | ⟨-, hsource, htarget, hget⟩ := addReference_cases w sv item
  · rw [count_congr fun x => references_congr (hsame x), count_congr fun x =>
      references_congr (hsame x), h.symmetric e]
  · have hrefs := references_of_added hsource htarget hget
    rw [count_of_added hrefs, count_of_added hrefs, h.symmetric e]
    simp only [other_eq_iff, other_other]
    omega

end AddReference

section DeleteReference

variable {sv : Server A}

def DeleteReferencesItem.sourceEnd (item : DeleteReferencesItem) : RefEnd :=
  ⟨item.sourceNodeId, item.referenceTypeId, !item.isForward, item.targetNodeId.nodeId⟩

theorem names_iff {item : DeleteReferencesItem} {ref : ReferenceNode} :
    item.names ref = true ↔ ref.endAt item.sourceNodeId = item.sourceEnd := by
  have hflip : ∀ a b : Bool, (a != b) = true ↔ b = !a := by decide
  simp only [DeleteReferencesItem.names, ReferenceNode.endAt, DeleteReferencesItem.sourceEnd,
    Bool.and_eq_true, beq_iff_eq, hflip, RefEnd.mk.injEq, true_and]
  constructor
  · rintro ⟨⟨htarget, htype⟩, hinverse⟩
    exact ⟨htype.symm, hinverse, htarget.symm⟩
  · rintro ⟨htype, hinverse, htarget⟩
    exact ⟨⟨htarget.symm, htype.symm⟩, hinverse⟩

/-- A server whose nodes differ from those of another in their references at most. -/
def SameButReferences (sv sv' : Server A) : Prop :=
  ∀ x, sv'.get x = (sv.get x).map fun node => { node with references := sv'.references x }

theorem SameButReferences.refl (sv : Server A) : SameButReferences sv sv := by
  intro x
  cases hx : sv.get x with
  | none => rfl
  | some node =>
    rw [references_of_get hx]
    rfl

theorem SameButReferences.isSome {sv' : Server A} (h : SameButReferences sv sv') (x : NodeKey) :
    (sv'.get x).isSome = (sv.get x).isSome := by
  rw [h x, Option.isSome_map]

theorem SameButReferences.trans {sv₁ sv₂ : Server A} (h : SameButReferences sv sv₁)
    (h₁ : SameButReferences sv₁ sv₂) : SameButReferences sv sv₂ := by
  intro x
  rw [h₁ x, h x, Option.map_map]
  rfl

theorem deleteOneWay_count (sv : Server A) (item : DeleteReferencesItem) :
    let result := editNode sv item.sourceNodeId (deleteOneWayReference item)
    (result.2 ≠ StatusCode.good ∧ (∀ x, result.1.get x = sv.get x) ∧ sv.count item.sourceEnd = 0) ∨
      (result.2 = StatusCode.good ∧ SameButReferences sv result.1 ∧
        ∃ refs, SwapRemove.removeLast item.names (sv.references item.sourceNodeId) = some refs ∧
          ∀ x, result.1.references x =
            if x = item.sourceNodeId then refs else sv.references x) := by
  intro result
  obtain ⟨hstatus, hsame, hnone⟩ | ⟨hstatus, refs, hremove, hget⟩ := deleteOneWay_cases sv item
  · refine Or.inl ⟨hstatus, hsame, Nat.eq_zero_of_not_pos fun hpos => ?_⟩
    obtain ⟨ref, href, hend⟩ := count_pos_iff.mp hpos
    have hnot := hnone ref href
    rw [names_iff.mpr hend] at hnot
    cases hnot
  · have hrefs : ∀ x, result.1.references x =
        if x = item.sourceNodeId then refs else sv.references x := by
      intro x
      cases hx : sv.get x with
      | some node =>
        refine (references_of_get ((hget x).trans (by rw [hx]; rfl))).trans ?_
        split
        · rfl
        · exact (references_of_get hx).symm
      | none =>
        rw [references_of_get_none ((hget x).trans (by rw [hx]; rfl)), references_of_get_none hx]
        split
        · rename_i hsource
          rw [← hsource, references_of_get_none hx] at hremove
          cases hremove
        · rfl
    refine Or.inr ⟨hstatus, fun x => ?_, refs, hremove, hrefs⟩
    rw [hget x, hrefs x]
    refine Option.map_congr fun node hnode => ?_
    split
    · rfl
    · rw [references_of_get hnode]

theorem count_of_removed {sv' : Server A} {item : DeleteReferencesItem} {refs : List ReferenceNode}
    (hremove : SwapRemove.removeLast item.names (sv.references item.sourceNodeId) = some refs)
    (hrefs : ∀ x, sv'.references x = if x = item.sourceNodeId then refs else sv.references x)
    (e : RefEnd) : sv.count e = sv'.count e + if e = item.sourceEnd then 1 else 0 := by
  obtain ⟨ref, hnames, hperm⟩ := SwapRemove.removeLast_perm hremove
  refine count_of_perm_cons (names_iff.mp hnames) ?_
  change List.Perm _ (if e.node = item.sourceNodeId then _ else _)
  rw [hrefs]
  split
  · rename_i hnode
    rw [hnode]
    exact hperm
  · exact List.Perm.refl _

theorem Linked.deleted (h : Linked sv) {item : DeleteReferencesItem}
    (hboth : item.deleteBidirectional = true) (hhere : item.targetNodeId.serverIndex = 0) :
    Linked (deleteReference sv item).1 := by
  have hfirstDistinct := h.distinct.edited item.sourceNodeId (deleteOneWayReference_nodeId item)
  unfold deleteReference
  obtain ⟨hfirst, hsame, -⟩ | ⟨hfirst, -, refs, hremove, hrefs⟩ := deleteOneWay_count sv item
  · rw [if_pos hfirst]
    refine ⟨hfirstDistinct, fun e => ?_⟩
    rw [count_congr fun x => references_congr (hsame x), count_congr fun x =>
      references_congr (hsame x), h.symmetric e]
  have hcount := count_of_removed hremove hrefs
  rw [if_neg (not_not.mpr hfirst), if_neg (by simp [hboth, hhere])]
  generalize editNode sv item.sourceNodeId (deleteOneWayReference item) = first
    at hfirstDistinct hcount ⊢
  have hother : item.sourceEnd.other ≠ item.sourceEnd := other_ne _
  have hpos : 0 < first.1.count item.sourceEnd.other := by
    have hfar := hcount item.sourceEnd.other
    have hnear := hcount item.sourceEnd
    rw [if_neg hother, h.symmetric] at hfar
    rw [if_pos rfl] at hnear
    omega
  let secondItem : DeleteReferencesItem := ⟨item.targetNodeId.nodeId, item.referenceTypeId,
    !item.isForward, .here item.sourceNodeId, false⟩
  have hend : secondItem.sourceEnd = item.sourceEnd.other := rfl
  obtain ⟨-, -, hzero⟩ | ⟨-, -, refs', hremove', hrefs'⟩ := deleteOneWay_count first.1 secondItem
  · rw [hend] at hzero
    omega
  · refine ⟨hfirstDistinct.edited _ (deleteOneWayReference_nodeId _), fun e => ?_⟩
    have hcount' := count_of_removed hremove' hrefs'
    have hfar := hcount e.other
    have hnear := hcount e
    have hfar' := hcount' e.other
    have hnear' := hcount' e
    rw [h.symmetric] at hfar
    simp only [hend, other_eq_iff, other_other] at hfar hfar' hnear'
    have hsymmetric :
        (editNode first.1 secondItem.sourceNodeId
          (deleteOneWayReference secondItem)).1.count e.other =
        (editNode first.1 secondItem.sourceNodeId
          (deleteOneWayReference secondItem)).1.count e := by omega
    exact hsymmetric

end DeleteReference

end FactoryThing.AddressSpace
