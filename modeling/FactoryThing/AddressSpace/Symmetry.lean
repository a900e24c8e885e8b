import FactoryThing.AddressSpace.Deletion
import FactoryThing.AddressSpace.Growth
import FactoryThing.Lib.Runs

/-!
# References are symmetric

Whatever is done to the address space is composed of a few edits: nodes without references come,
nodes go with all their references, references come and go at both ends. AddNodes, with all the
nodes it adds and deletes again, is no exception. Hence the references stay symmetric in every run.
-/

namespace FactoryThing.AddressSpace

variable {A : Type}

/-- The edits that an address space is changed by. -/
inductive Edits (w : World A) : Server A → Server A → Prop
  | refl (sv : Server A) : Edits w sv sv
  | trans {sv sv₁ sv₂ : Server A} : Edits w sv sv₁ → Edits w sv₁ sv₂ → Edits w sv sv₂
  | asked (sv : Server A) (n : Nat) : Edits w sv (sv.asked n)
  | attributes (sv : Server A) (nodeId : NodeKey) {callback : Node A → Node A × StatusCode} :
      (∀ node, ∃ attributes, (callback node).1 = { node with attributes := attributes }) →
      Edits w sv (editNode sv nodeId callback).1
  | inserted (sv : Server A) {node : Node A} :
      sv.get node.nodeId = none → node.references = [] →
      Edits w sv { sv.asked 1 with nodes := node :: sv.nodes }
  | added (sv : Server A) (item : AddReferencesItem) : Edits w sv (addReference w sv item).1
  | deleted (sv : Server A) (nodeId : NodeKey) : Edits w sv (deleteNode sv nodeId true).1

theorem references_of_attributes {sv : Server A} {nodeId : NodeKey}
    {callback : Node A → Node A × StatusCode}
    (hattributes : ∀ node, ∃ attributes, (callback node).1 = { node with attributes := attributes })
    (x : NodeKey) : (editNode sv nodeId callback).1.references x = sv.references x := by
  have hid : ∀ node, (callback node).1.nodeId = node.nodeId := by
    intro node
    obtain ⟨attributes, heq⟩ := hattributes node
    rw [heq]
  have hget := @get_editNode _ sv _ nodeId hid x
  cases hx : sv.get x with
  | none =>
    rw [references_of_get_none hx]
    refine references_of_get_none (hget.trans ?_)
    rw [hx]
    split <;> rfl
  | some node =>
    rw [references_of_get hx]
    rw [hx] at hget
    split at hget
    · rw [references_of_get hget]
      obtain ⟨attributes, heq⟩ := hattributes node
      dsimp only
      rw [heq]
    · exact references_of_get hget

theorem references_inserted {sv : Server A} {node : Node A} (hnone : sv.get node.nodeId = none)
    (hrefs : node.references = []) (x : NodeKey) :
    ({ sv.asked 1 with nodes := node :: sv.nodes } : Server A).references x = sv.references x := by
  have hget := @get_inserted _ sv node 1 x
  split at hget
  · rename_i hx
    rw [references_of_get hget, hrefs, hx, references_of_get_none hnone]
  · exact references_congr hget

theorem Linked.edits {w : World A} {sv sv' : Server A} (h : Linked sv) (hedits : Edits w sv sv') :
    Linked sv' := by
  induction hedits with
  | refl => exact h
  | trans _ _ ih ih' => exact ih' (ih h)
  | asked => exact ⟨h.distinct, h.symmetric⟩
  | attributes sv nodeId hattributes =>
    have hrefs := @references_of_attributes _ sv nodeId _ hattributes
    refine ⟨h.distinct.edited nodeId fun node => ?_, fun e => ?_⟩
    · obtain ⟨attributes, heq⟩ := hattributes node
      rw [heq]
    · rw [count_congr hrefs, count_congr hrefs, h.symmetric e]
  | inserted sv hnone hrefs =>
    refine ⟨h.distinct.inserted 1 hnone, fun e => ?_⟩
    rw [count_congr (references_inserted hnone hrefs),
      count_congr (references_inserted hnone hrefs), h.symmetric e]
  | added sv item => exact h.added item
  | deleted sv nodeId => exact h.nodeDeleted nodeId

theorem Growth.edits {w : World A} {P : NodeKey → Prop} {sv sv' : Server A}
    (h : Growth w P sv sv') : Edits w sv sv' := by
  induction h with
  | refl sv => exact .refl sv
  | trans _ _ ih ih' => exact ih.trans ih'
  | asked sv n => exact .asked sv n
  | attributes sv nodeId hattributes _ => exact .attributes sv nodeId hattributes
  | inserted sv hnone hrefs _ => exact .inserted sv hnone hrefs
  | added sv item => exact .added sv item
  | deleted sv nodeId _ => exact .deleted sv nodeId

theorem addNodesSingle_edits {w : World A} {fuel : Nat} {sv sv' : Server A} {item : AddNodesItem A}
    {retval : StatusCode} {effects : List Effect}
    (h : addNodesSingle w fuel sv item = some (sv', retval, effects)) : Edits w sv sv' :=
  -- no node needs to be spared
  have hguards : Guards (fun _ => False) sv := fun _ => False.elim
  (addNodesSingle_growth fuel hguards item _ _ _ h).edits

/-- What is done to the address space; the fuel says how deep an AddNodes may go. -/
inductive Event (A : Type) where
  | addReference (item : AddReferencesItem)
  | deleteReference (item : DeleteReferencesItem)
  | addNodes (item : AddNodesItem A) (fuel : Nat)
  | deleteNode (nodeId : NodeKey) (deleteReferences : Bool)

/-- One service call on the address space. -/
def step (w : World A) (sv : Server A) : Event A → Except Fault (Server A × StatusCode)
  | .addReference item => .ok (AddressSpace.addReference w sv item)
  | .deleteReference item => .ok (AddressSpace.deleteReference sv item)
  | .addNodes item fuel =>
      match addNodesSingle w fuel sv item with
      | none => .error .diverges
      | some (sv, retval, _) => .ok (sv, retval)
  | .deleteNode nodeId deleteReferences => .ok (AddressSpace.deleteNode sv nodeId deleteReferences)

/-- Events that are to keep the references symmetric. -/
def Event.Bidirectional : Event A → Prop
  | .deleteReference item =>
      item.deleteBidirectional = true ∧ item.targetNodeId.serverIndex = 0
  | .deleteNode _ deleteReferences => deleteReferences = true
  | _ => True

theorem Linked.of_ok {sv' : Server A} {retval : StatusCode} {result : Server A × StatusCode}
    (h : Linked result.1) (heq : (.ok result : Except Fault _) = .ok (sv', retval)) :
    Linked sv' := by
  cases heq
  exact h

theorem step_linked {w : World A} {sv sv' : Server A} {retval : StatusCode} {e : Event A}
    (h : Linked sv) (he : e.Bidirectional) (hstep : step w sv e = .ok (sv', retval)) :
    Linked sv' := by
  cases e with
  | addReference item => exact (h.added item).of_ok hstep
  | deleteReference item => exact (h.deleted he.1 he.2).of_ok hstep
  | addNodes item fuel =>
    simp only [step] at hstep
    split at hstep
    · cases hstep
    · rename_i sv₁ retval₁ effects hadd
      cases hstep
      exact h.edits (addNodesSingle_edits hadd)
  | deleteNode nodeId deleteReferences =>
    obtain rfl : deleteReferences = true := he
    exact (h.nodeDeleted nodeId).of_ok hstep

/-- In every run the references stay symmetric. A deleted node is nowhere referred to, and a failed
`addReference` leaves all references as they were. -/
theorem references_symmetric (w : World A) (sv : Server A) (hdistinct : sv.Distinct)
    (hsymmetric : Symmetric sv) (es : List (Event A)) (hes : ∀ e ∈ es, e.Bidirectional)
    {sv' : Server A} {replies : List StatusCode}
    (hrun : Runs.run (step w) sv es = .ok (sv', replies)) :
    Symmetric sv' ∧
      (∀ n, (sv'.get n).isSome → (deleteNode sv' n true).1.get n = none ∧
        ∀ x, ∀ ref ∈ (deleteNode sv' n true).1.references x, ref.targetId.nodeId ≠ n) ∧
      ∀ item, (addReference w sv' item).2 ≠ StatusCode.good →
        ∀ x, (addReference w sv' item).1.references x = sv'.references x := by
  have hlinked : Linked sv' := by
    have hguarded : ∀ (es : List (Event A)) (sv : Server A), (∀ e ∈ es, e.Bidirectional) →
        Runs.Guarded (step w) (fun _ e => e.Bidirectional) sv es := by
      intro es
      induction es with
      | nil => exact fun _ _ => trivial
      | cons e es ih =>
        intro sv hall
        refine ⟨hall e List.mem_cons_self, ?_⟩
        split
        · exact trivial
        · exact ih _ fun e he => hall e (List.mem_cons_of_mem _ he)
    exact Runs.invariant_of_guarded (fun _ _ _ _ => step_linked) es sv sv' replies
      ⟨hdistinct, symmetric_iff.mp hsymmetric⟩ (hguarded es sv hes) hrun
  refine ⟨symmetric_iff.mpr hlinked.symmetric, fun n hn => ?_, fun item hfailed x => ?_⟩
  · obtain ⟨node, hnode⟩ := Option.isSome_iff_exists.mp hn
    refine ⟨(deleteNode_spec hlinked hnode).2.2.1, fun x ref href htarget => ?_⟩
    have hpos := count_pos_of_mem href
    rw [count_deleteNode_target hlinked hnode (Or.inr htarget)] at hpos
    exact absurd hpos (Nat.lt_irrefl 0)
  · obtain ⟨-, hsame⟩ | ⟨hgood, -⟩ := addReference_cases w sv' item
    · exact references_congr (hsame x)
    · exact absurd hgood hfailed

section Witnesses

/-- Everything succeeds, and free numeric identifiers are found from 1000 on. -/
def plainWorld : World Unit where
  alloc _ := true
  identifier n := 1000 + UInt32.ofNat n
  typeCheck _ _ _ := (StatusCode.good, ())
  construct _ _ _ := ()

/-- A node of namespace 0 with its number for its name. -/
def plainNode (n : UInt32) (nodeClass : NodeClass) : Node Unit where
  nodeId := ns0 n
  nodeClass := nodeClass
  browseName := ⟨0, [n.toUInt8]⟩
  displayName := ⟨[], []⟩
  isAbstract := false
  attributes := ()
  references := []

/-- A forward reference between two nodes of namespace 0. -/
def plainReference (source referenceTypeId target : UInt32) : AddReferencesItem :=
  ⟨ns0 source, ns0 referenceTypeId, true, [], .here (ns0 target)⟩

def twoObjects : Server Unit := ⟨[plainNode 100 .object, plainNode 101 .object], 2, 0⟩

theorem symmetric_twoObjects : Symmetric twoObjects := by
  have hrefs : ∀ x, twoObjects.references x = [] := by
    intro x
    unfold Server.references
    split
    · rfl
    · rename_i node hnode
      have hmem := Keyed.mem_of_find hnode
      simp only [twoObjects, List.mem_cons, List.not_mem_nil, or_false] at hmem
      obtain rfl | rfl := hmem <;> rfl
  intro a b referenceTypeId
  simp only [Server.count, hrefs, List.map_nil, List.count_nil]

/-- A run that links two objects, one of them to itself too, and deletes that one. -/
theorem references_symmetric_twoObjects :
    ∃ sv' replies, Runs.run (step plainWorld) twoObjects
        [.addReference (plainReference 100 47 101), .addReference (plainReference 100 47 100),
          .deleteNode (ns0 100) true] = .ok (sv', replies) ∧
      replies = [StatusCode.good, StatusCode.good, StatusCode.good] ∧ Symmetric sv' := by
  have hreaches : Runs.Reaches (step plainWorld) twoObjects
      [.addReference (plainReference 100 47 101), .addReference (plainReference 100 47 100),
        .deleteNode (ns0 100) true]
      fun _ replies => replies = [StatusCode.good, StatusCode.good, StatusCode.good] := by
    decide +kernel
  obtain ⟨sv', replies, hrun, hgood⟩ := hreaches
  exact ⟨sv', replies, hrun, hgood, (references_symmetric plainWorld twoObjects
    (by unfold Server.Distinct; decide) symmetric_twoObjects _ (by simp [Event.Bidirectional])
    hrun).1⟩

/-- A deletion in both directions that names the target as one of another server takes away only
the near end. -/
theorem references_not_symmetric :
    ¬ ∀ (es : List (Event Unit)),
      (∀ e ∈ es, match e with
        | .deleteReference item => item.deleteBidirectional = true
        | .addReference item => item.targetNodeId.serverIndex = 0
        | .deleteNode _ deleteReferences => deleteReferences = true
        | _ => True) →
      ∀ sv' replies, Runs.run (step plainWorld) twoObjects es = .ok (sv', replies) →
        Symmetric sv' := by
  intro h
  have hreaches : Runs.Reaches (step plainWorld) twoObjects
      [.addReference (plainReference 100 47 101),
        .deleteReference ⟨ns0 100, ns0 47, true, ⟨ns0 101, [], 1⟩, true⟩]
      fun sv' _ => sv'.count ⟨ns0 100, ns0 47, false, ns0 101⟩ ≠
        sv'.count ⟨ns0 101, ns0 47, true, ns0 100⟩ := by
    decide +kernel
  obtain ⟨sv', replies, hrun, hne⟩ := hreaches
  refine hne (h _ ?_ sv' replies hrun (ns0 100) (ns0 101) (ns0 47))
  simp [plainReference]

end Witnesses

end FactoryThing.AddressSpace
