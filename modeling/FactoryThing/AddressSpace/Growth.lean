import FactoryThing.AddressSpace.AddNodes
import FactoryThing.AddressSpace.Ends

/-!
# Growth

What AddNodes does to the nodes that are there already: it gives them more references, and nothing
else. It only edits and deletes the nodes that it has added itself.
-/

namespace FactoryThing.AddressSpace

variable {A : Type}

/-- The edits that spare the nodes of `P`: their attributes stay, and they are not deleted. -/
inductive Growth (w : World A) (P : NodeKey → Prop) : Server A → Server A → Prop
  | refl (sv : Server A) : Growth w P sv sv
  | trans {sv sv₁ sv₂ : Server A} : Growth w P sv sv₁ → Growth w P sv₁ sv₂ → Growth w P sv sv₂
  | asked (sv : Server A) (n : Nat) : Growth w P sv (sv.asked n)
  | attributes (sv : Server A) (nodeId : NodeKey) {callback : Node A → Node A × StatusCode} :
      (∀ node, ∃ attributes, (callback node).1 = { node with attributes := attributes }) →
      ¬ P nodeId → Growth w P sv (editNode sv nodeId callback).1
  | inserted (sv : Server A) {node : Node A} :
      sv.get node.nodeId = none → node.references = [] → node.nodeId.isNull = false →
      Growth w P sv { sv.asked 1 with nodes := node :: sv.nodes }
  | added (sv : Server A) (item : AddReferencesItem) : Growth w P sv (addReference w sv item).1
  | deleted (sv : Server A) (nodeId : NodeKey) :
      ¬ P nodeId → Growth w P sv (deleteNode sv nodeId true).1

section Deletion

variable {sv : Server A}

theorem deleteReference_same (sv : Server A) {item : DeleteReferencesItem}
    (hone : item.deleteBidirectional = false) :
    SameButReferences sv (deleteReference sv item).1 := by
  have hfirst : SameButReferences sv
      (editNode sv item.sourceNodeId (deleteOneWayReference item)).1 := by
    obtain ⟨-, hsame, -⟩ | ⟨-, hsame, -⟩ := deleteOneWay_count sv item
    · intro x
      rw [hsame x, references_congr (hsame x)]
      exact SameButReferences.refl sv x
    · exact hsame
  unfold deleteReference
  dsimp only
  split
  · exact hfirst
  · rw [if_pos (Or.inl (by simp [hone]))]
    exact hfirst

theorem removeReferencesFrom_same (n : NodeKey) (fuel : Nat) :
    ∀ (i : Nat) (sv : Server A), SameButReferences sv (removeReferencesFrom n fuel i sv) := by
  induction fuel with
  | zero => exact fun _ sv => .refl sv
  | succ fuel ih =>
    intro i sv
    unfold removeReferencesFrom
    split
    · exact .refl sv
    · exact (deleteReference_same sv rfl).trans (ih _ _)

theorem get_deleteNode_of_ne {nodeId x : NodeKey} (deleteReferences : Bool) (hx : x ≠ nodeId) :
    (deleteNode sv nodeId deleteReferences).1.get x = (sv.get x).map fun node =>
      { node with references := (deleteNode sv nodeId deleteReferences).1.references x } := by
  have hremove : ∀ sv' : Server A, (nodeStoreRemove sv' nodeId).1.get x = sv'.get x := by
    intro sv'
    unfold nodeStoreRemove
    split
    · rfl
    · exact Keyed.find_remove_ne hx
  unfold deleteNode
  split
  · exact SameButReferences.refl sv x
  split
  · rw [references_congr (hremove _), hremove]
    exact removeReferencesFrom_same nodeId _ 0 sv x
  · rw [references_congr (hremove _), hremove]
    exact SameButReferences.refl sv x

end Deletion

section Kept

variable {w : World A} {P : NodeKey → Prop} {sv sv' : Server A}

theorem get_editNode_of_attributes {nodeId : NodeKey} {callback : Node A → Node A × StatusCode}
    (hattributes : ∀ node, ∃ attributes, (callback node).1 = { node with attributes := attributes })
    (x : NodeKey) : (editNode sv nodeId callback).1.get x =
      if x = nodeId then (sv.get x).map fun node => (callback node).1 else sv.get x := by
  refine get_editNode (fun node => ?_) x
  obtain ⟨attributes, heq⟩ := hattributes node
  rw [heq]

theorem Growth.get (h : Growth w P sv sv') {x : NodeKey} (hx : P x) :
    ∀ {node : Node A}, sv.get x = some node →
      ∃ refs, sv'.get x = some { node with references := refs } := by
  induction h with
  | refl => exact fun {node} hget => ⟨node.references, hget⟩
  | trans _ _ ih ih' =>
    intro node hget
    obtain ⟨refs, hget₁⟩ := ih hget
    obtain ⟨refs', hget₂⟩ := ih' hget₁
    exact ⟨refs', hget₂⟩
  | asked => exact fun {node} hget => ⟨node.references, hget⟩
  | attributes sv nodeId hattributes hspared =>
    intro node hget
    rw [get_editNode_of_attributes hattributes, if_neg (by rintro rfl; exact hspared hx)]
    exact ⟨node.references, hget⟩
  | @inserted sv inserted hnone _ _ =>
    intro node hget
    have hne : x ≠ inserted.nodeId := by
      rintro rfl
      rw [hnone] at hget
      cases hget
    rw [get_inserted, if_neg hne]
    exact ⟨node.references, hget⟩
  | added sv item =>
    intro node hget
    obtain ⟨-, hsame⟩ | ⟨-, -, -, hadded⟩ := addReference_cases w sv item
    · exact ⟨node.references, (hsame x).trans hget⟩
    · rw [hadded x, hget]
      exact ⟨_, rfl⟩
  | deleted sv nodeId hspared =>
    intro node hget
    rw [get_deleteNode_of_ne true (show x ≠ nodeId by rintro rfl; exact hspared hx), hget]
    exact ⟨_, rfl⟩

/-- The nodes of `P` exist. -/
def Guards (P : NodeKey → Prop) (sv : Server A) : Prop := ∀ x, P x → (sv.get x).isSome

theorem Guards.growth (hguards : Guards P sv) (h : Growth w P sv sv') : Guards P sv' := by
  intro x hx
  obtain ⟨node, hget⟩ := Option.isSome_iff_exists.mp (hguards x hx)
  obtain ⟨refs, hget'⟩ := h.get hx hget
  rw [hget']
  rfl

end Kept

section AddNodes

variable {w : World A} {P : NodeKey → Prop} {recur : Call → Server A → Outcome A}

/-- What an outcome leaves behind has come about by growth. -/
def Grows (w : World A) (P : NodeKey → Prop) (sv : Server A) (outcome : Outcome A) : Prop :=
  ∀ sv' retval effects, outcome = some (sv', retval, effects) → Growth w P sv sv'

variable {sv : Server A} {node : Node A}

theorem Grows.some {sv' : Server A} {retval : StatusCode} {effects : List Effect}
    (h : Growth w P sv sv') : Grows w P sv (some (sv', retval, effects)) := by
  intro _ _ _ heq
  cases heq
  exact h

theorem Grows.none : Grows w P sv none := nofun

theorem Grows.after {sv₁ : Server A} {outcome : Outcome A} (h : Growth w P sv sv₁)
    (h₁ : Grows w P sv₁ outcome) : Grows w P sv outcome :=
  fun sv' retval effects heq => h.trans (h₁ sv' retval effects heq)

/-- The call does not finish a node of `P`. -/
def Call.Spares (P : NodeKey → Prop) : Call → Prop
  | .copyChildNodes _ _ => True
  | .finish nodeId _ _ _ => ¬ P nodeId

/-- The recursive calls grow an address space with the nodes of `P`. -/
def Growing (w : World A) (P : NodeKey → Prop) (recur : Call → Server A → Outcome A) : Prop :=
  ∀ call sv, Guards P sv → call.Spares P → Grows w P sv (recur call sv)

theorem typeCheckVariableNode_growth (sv : Server A) {node : Node A} (typeDef : NodeKey)
    (hspared : ¬ P node.nodeId) : Growth w P sv (typeCheckVariableNode w sv node typeDef).1 := by
  unfold typeCheckVariableNode
  split
  · exact .refl sv
  split
  · exact .refl sv
  split
  · exact .refl sv
  split
  · exact .refl sv
  · exact (Growth.asked sv 1).trans (.attributes _ _ (fun _ => ⟨_, rfl⟩) hspared)

theorem nodeStoreInsert_growth (sv : Server A) (hrefs : node.references = []) :
    Growth w P sv (nodeStoreInsert sv w node).1 := by
  obtain ⟨-, heq⟩ | ⟨-, -, heq⟩ | ⟨-, hnone, heq⟩ := nodeStoreInsert_cases w sv node
  · rw [heq]
    exact .asked sv 1
  · rw [heq]
    exact .asked sv 1
  · rw [heq]
    exact .inserted sv hnone hrefs (isNull_storedNodeId w _ _)

theorem copyChildNode_growth (hrecur : Growing w P recur) (hguards : Guards P sv)
    (destinationNodeId : NodeKey) (rd : ReferenceDescription) :
    Grows w P sv (copyChildNode w recur sv destinationNodeId rd) := by
  have hasked : Growth w P sv (sv.asked 1) := .asked sv 1
  unfold copyChildNode
  split
  · exact .some hasked
  dsimp only
  split
  · split
    · exact .after hasked (hrecur _ _ hguards trivial)
    · exact .some hasked
  split
  · exact .some hasked
  split
  · exact .some (hasked.trans (.added _ _))
  split
  · split
    · exact .some (hasked.trans (.asked _ 1))
    · rename_i node _
      -- the new node is none of those that were there
      have hbefore : Growth w P sv ((sv.asked 1).asked 1) := hasked.trans (.asked _ 1)
      have hinsert : Growth w P sv
          (nodeStoreInsert ((sv.asked 1).asked 1) w (copyOfDeclaration node destinationNodeId)).1 :=
        hbefore.trans (nodeStoreInsert_growth _ rfl)
      obtain ⟨-, heq⟩ | ⟨-, -, heq⟩ | ⟨-, hnone, heq⟩ := nodeStoreInsert_cases w
        ((sv.asked 1).asked 1) (copyOfDeclaration node destinationNodeId)
      · rw [heq] at hinsert ⊢
        exact .some hinsert
      · rw [heq] at hinsert ⊢
        exact .some hinsert
      · rw [heq] at hinsert ⊢
        dsimp only at hinsert ⊢
        split
        · exact .none
        · rename_i sv₂ retval effects hfinish
          refine .some (hinsert.trans (hrecur _ _ (hguards.growth hinsert) ?_ _ _ _ hfinish))
          intro hspared
          have hsome := hguards _ hspared
          change (((sv.asked 1).asked 1).get _).isSome at hsome
          rw [hnone] at hsome
          cases hsome
  · exact .some hasked

theorem copyChildLoop_growth (hrecur : Growing w P recur) (destinationNodeId : NodeKey)
    (rds : List ReferenceDescription) : ∀ {sv : Server A}, Guards P sv →
      ∀ retval, Grows w P sv (copyChildLoop w recur destinationNodeId rds sv retval) := by
  induction rds with
  | nil => exact fun {sv} _ retval => .some (.refl sv)
  | cons rd rds ih =>
    intro sv hguards retval
    unfold copyChildLoop
    split
    · exact .none
    · rename_i sv₁ status effects hchild
      have hchild := copyChildNode_growth hrecur hguards destinationNodeId rd _ _ _ hchild
      split
      · exact .none
      · rename_i sv₂ retval₂ effects₂ hrest
        exact .some (hchild.trans (ih (hguards.growth hchild) _ _ _ _ hrest))

theorem copyChildNodes_growth (hrecur : Growing w P recur) (hguards : Guards P sv)
    (sourceNodeId destinationNodeId : NodeKey) :
    Grows w P sv (copyChildNodes w recur sv sourceNodeId destinationNodeId) := by
  unfold copyChildNodes
  dsimp only
  split
  · exact .some (.asked sv 1)
  · have hasked : Guards P (sv.asked 1) := hguards
    exact .after (.asked sv 1) (copyChildLoop_growth hrecur _ _ hasked _)

theorem copyHierarchy_growth (hrecur : Growing w P recur) (nodeId : NodeKey)
    (hierarchy : List NodeKey) : ∀ {sv : Server A}, Guards P sv →
      ∀ retval, Grows w P sv (copyHierarchy w recur nodeId hierarchy sv retval) := by
  induction hierarchy with
  | nil => exact fun {sv} _ retval => .some (.refl sv)
  | cons typeId hierarchy ih =>
    intro sv hguards retval
    unfold copyHierarchy
    split
    · exact .none
    · rename_i sv₁ status effects hchildren
      have hchildren := copyChildNodes_growth hrecur hguards typeId nodeId _ _ _ hchildren
      split
      · exact .none
      · rename_i sv₂ retval₂ effects₂ hrest
        exact .some (hchildren.trans (ih (hguards.growth hchildren) _ _ _ _ hrest))

theorem instantiateNode_growth (hrecur : Growing w P recur) (hguards : Guards P sv)
    {nodeId : NodeKey} {nodeClass : NodeClass} (typeId : NodeKey)
    (hspared : nodeClass = .object → ¬ P nodeId) :
    Grows w P sv (instantiateNode w recur sv nodeId nodeClass typeId) := by
  unfold instantiateNode
  split
  · exact .some (.refl sv)
  rename_i hclass
  split
  · exact .some (.refl sv)
  rename_i typenode _
  split
  · exact .some (.refl sv)
  rename_i husable
  split
  · exact .some (.asked sv 1)
  split
  · exact .none
  rename_i sv₁ retval effects hhierarchy
  have hasked : Guards P (sv.asked 1) := hguards
  have hcopied : Growth w P sv sv₁ := (Growth.asked sv 1).trans
    (copyHierarchy_growth hrecur nodeId _ hasked _ _ _ _ hhierarchy)
  split
  · exact .some hcopied
  dsimp only
  refine .some ((hcopied.trans ?_).trans (.added _ _))
  split
  · rename_i htype
    have hobject : nodeClass = .object := by
      by_contra hne
      have hvariable : nodeClass = .variable := by
        by_contra hne'
        exact hclass ⟨hne', hne⟩
      rw [hvariable] at husable
      simp [usableType, htype] at husable
    refine (Growth.asked _ 1).trans (.attributes _ _ (fun node => ?_) (hspared hobject))
    unfold setObjectInstanceHandle
    split
    · exact ⟨node.attributes, rfl⟩
    · exact ⟨_, rfl⟩
  · exact .refl _

theorem addParentReference_growth (parentNodeId referenceTypeId typeDefinition : NodeKey)
    (hspared : ¬ P node.nodeId) :
    Growth w P sv
      (addParentReference w sv node parentNodeId referenceTypeId typeDefinition).1 := by
  have hstored : ((sv.get node.nodeId).getD node).nodeId = node.nodeId := by
    cases hget : sv.get node.nodeId with
    | none => rfl
    | some stored => exact nodeId_of_get hget
  have hchecked : Growth w P sv (if node.nodeClass = .variable ∨ node.nodeClass = .variableType then
      typeCheckVariableNode w sv ((sv.get node.nodeId).getD node) typeDefinition
    else (sv, StatusCode.good)).1 := by
    split
    · exact typeCheckVariableNode_growth _ _ (by rwa [hstored])
    · exact .refl sv
  unfold addParentReference
  dsimp only
  generalize (if node.nodeClass = .variable ∨ node.nodeClass = .variableType then
    typeCheckVariableNode w sv ((sv.get node.nodeId).getD node) typeDefinition
    else (sv, StatusCode.good)) = checked at hchecked ⊢
  split
  · exact hchecked.trans (.deleted _ _ hspared)
  split
  · exact hchecked
  split
  · exact (hchecked.trans (.added _ _)).trans (.deleted _ _ hspared)
  · exact hchecked.trans (.added _ _)

theorem addNodeFinish_growth (hrecur : Growing w P recur) (fuel : Nat) (hguards : Guards P sv)
    {nodeId : NodeKey} (hspared : ¬ P nodeId)
    (parentNodeId referenceTypeId typeDefinition : NodeKey) :
    Grows w P sv
      (addNodeFinish w recur fuel sv nodeId parentNodeId referenceTypeId typeDefinition) := by
  unfold addNodeFinish
  split
  · exact .some (.refl sv)
  rename_i node hnode
  have hid : node.nodeId = nodeId := nodeId_of_get hnode
  dsimp only
  split
  · exact .none
  split
  · exact .some (.deleted _ _ hspared)
  split
  · exact .none
  rename_i sv₁ retval effects hinstantiate
  have hbefore :=
    instantiateNode_growth hrecur hguards _ (fun _ => hspared) _ _ _ hinstantiate
  split
  · exact .some (hbefore.trans (.deleted _ _ hspared))
  · exact .some (hbefore.trans (addParentReference_growth _ _ _ (hid ▸ hspared)))

theorem perform_growth (fuel : Nat) : Growing w P (perform w fuel) := by
  induction fuel with
  | zero => exact fun _ _ _ _ => .none
  | succ fuel ih =>
    intro call sv hguards hspares
    cases call with
    | copyChildNodes source destination => exact copyChildNodes_growth ih hguards source destination
    | finish nodeId parentNodeId referenceTypeId typeDefinition =>
      exact addNodeFinish_growth ih fuel hguards hspares parentNodeId referenceTypeId typeDefinition

theorem references_createNodeFromAttributes {alloc : Bool} {item : AddNodesItem A}
    (h : createNodeFromAttributes alloc item = .ok node) : node.references = [] := by
  unfold createNodeFromAttributes at h
  repeat' split at h
  all_goals cases h
  rfl

theorem addNodeBegin_growth (hguards : Guards P sv) (item : AddNodesItem A) :
    Growth w P sv (addNodeBegin w sv item).1 ∧
      ∀ nodeId, (addNodeBegin w sv item).2 = .ok nodeId → ¬ P nodeId := by
  unfold addNodeBegin
  split
  · exact ⟨.refl sv, nofun⟩
  split
  · exact ⟨.asked sv 1, nofun⟩
  rename_i node hcreate
  have hinsert : Growth w P sv (nodeStoreInsert (sv.asked 1) w node).1 :=
    (Growth.asked sv 1).trans
      (nodeStoreInsert_growth _ (references_createNodeFromAttributes hcreate))
  obtain ⟨-, heq⟩ | ⟨-, -, heq⟩ | ⟨-, hnone, heq⟩ := nodeStoreInsert_cases w
    (sv.asked 1) node
  · rw [heq] at hinsert ⊢
    exact ⟨hinsert, nofun⟩
  · rw [heq] at hinsert ⊢
    exact ⟨hinsert, nofun⟩
  · have hspared : ¬ P (storedNodeId w (sv.asked 1).clock node.nodeId) := by
      intro hspared
      have hsome := hguards _ hspared
      change ((sv.asked 1).get _).isSome at hsome
      rw [hnone] at hsome
      cases hsome
    rw [heq] at hinsert ⊢
    dsimp only at hinsert ⊢
    split
    · refine ⟨hinsert.trans (.asked _ 1), fun nodeId hok => ?_⟩
      cases hok
      exact hspared
    · exact ⟨(hinsert.trans (.asked _ 1)).trans (.deleted _ _ hspared), nofun⟩

theorem addNodesSingle_growth (fuel : Nat) (hguards : Guards P sv) (item : AddNodesItem A) :
    Grows w P sv (addNodesSingle w fuel sv item) := by
  obtain ⟨hbegin, hspared⟩ := addNodeBegin_growth (w := w) hguards item
  unfold addNodesSingle
  generalize addNodeBegin w sv item = begun at hbegin hspared ⊢
  obtain ⟨sv₁, result⟩ := begun
  cases result with
  | error retval => exact .some hbegin
  | ok nodeId =>
    exact .after hbegin (perform_growth fuel _ _ (hguards.growth hbegin) (hspared nodeId rfl))

end AddNodes

end FactoryThing.AddressSpace
