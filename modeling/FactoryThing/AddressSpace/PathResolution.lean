import FactoryThing.AddressSpace.BrowsePaths
import FactoryThing.Lib.Worklist

/-!
# What a browse path denotes

A path leads from its starting node along references that match its elements one after the other,
and it leaves the server where such a reference goes to another one. The walk of the program comes
to exactly the nodes the path leads to; what it finds in other servers it does not count.
-/

namespace FactoryThing.AddressSpace

open Relation

variable {A : Type} {sv : Server A}

variable {elem : RelativePathElement}

/-- `type` is a subtype of the reference type `super`, one step below it. -/
def SubtypeOf (sv : Server A) (super type : NodeKey) : Prop :=
  ∃ node, sv.get super = some node ∧ node.nodeClass = .referenceType ∧
    ∃ ref ∈ node.references, ref.isInverse = false ∧ ref.referenceTypeId = hasSubtype ∧
      ref.targetId.nodeId = type

/-- The type of a reference is one of those of a path element: any for the null NodeId, otherwise
the type of the element or, with subtypes, one of the tree below a reference type. -/
def TypeMatches (sv : Server A) (elem : RelativePathElement) (type : NodeKey) : Prop :=
  elem.referenceTypeId.isNull ∨
    (elem.includeSubtypes = false ∧ type = elem.referenceTypeId) ∨
    (elem.includeSubtypes = true ∧
      (∃ node, sv.get elem.referenceTypeId = some node ∧ node.nodeClass = .referenceType) ∧
      ReflTransGen (SubtypeOf sv) elem.referenceTypeId type)

/-- The reference goes in the direction and has one of the types of the path element. -/
def ElementMatches (sv : Server A) (elem : RelativePathElement) (ref : ReferenceNode) : Prop :=
  ref.isInverse = elem.isInverse ∧ TypeMatches sv elem ref.referenceTypeId

/-- The node exists, and it has the name if one is asked for. -/
def Named (sv : Server A) (targetName : Option QualifiedName) (x : NodeKey) : Prop :=
  ∃ node, sv.get x = some node ∧ isNamed targetName node

/-- A chain of references along the elements leads from one node to another. -/
def LeadsTo (sv : Server A) : NodeKey → List RelativePathElement → NodeKey → Prop
  | x, [], y => x = y
  | x, elem :: elements, y =>
      ∃ ref ∈ sv.references x, ElementMatches sv elem ref ∧ ref.targetId.serverIndex = 0 ∧
        Named sv (some elem.targetName) ref.targetId.nodeId ∧
          LeadsTo sv ref.targetId.nodeId elements y

/-- A chain of references along the elements leaves the server for a target, at the element with the
index `j` if the first one has the index `i`. -/
def LeavesFor (sv : Server A) :
    NodeKey → List RelativePathElement → Nat → ExpandedNodeId → Nat → Prop
  | _, [], _, _, _ => False
  | x, elem :: elements, i, target, j =>
      ∃ ref ∈ sv.references x, ElementMatches sv elem ref ∧
        ((ref.targetId.serverIndex ≠ 0 ∧ ref.targetId = target ∧ i = j) ∨
          ref.targetId.serverIndex = 0 ∧ Named sv (some elem.targetName) ref.targetId.nodeId ∧
            LeavesFor sv ref.targetId.nodeId elements (i + 1) target j)

/-- The result is what the path denotes, and its array has as many targets as are counted. -/
structure Resolves (sv : Server A) (path : BrowsePath) (result : BrowsePathResult) : Prop where
  locals : ∀ x, ⟨.here x, 0xFFFFFFFF⟩ ∈ result.reported ↔
    LeadsTo sv path.startingNode path.elements x
  externals : ∀ target index, ⟨target, index⟩ ∈ result.reported ∧ target.serverIndex ≠ 0 ↔
    ∃ j, LeavesFor sv path.startingNode path.elements 0 target j ∧ index = UInt32.ofNat j
  complete : ∀ target ∈ result.reported, target.targetId.serverIndex ≠ 0 ∨
    ∃ x, target = ⟨.here x, 0xFFFFFFFF⟩
  noMatch : result.statusCode = StatusCode.badNoMatch ↔
    (∀ x, ¬ LeadsTo sv path.startingNode path.elements x) ∧
      ∀ target j, ¬ LeavesFor sv path.startingNode path.elements 0 target j
  counted : (result.targets.filter Option.isSome).length = result.targetsSize

/-- The subtypes a reference type has references to. -/
def subtypeTargets (inverse : Bool) (references : List ReferenceNode) : List NodeKey :=
  (references.filter fun ref => ref.isInverse == inverse && ref.referenceTypeId == hasSubtype).map
    fun ref => ref.targetId.nodeId

theorem collectSubtypes_eq (inverse : Bool) (references : List ReferenceNode)
    (results : List NodeKey) :
    collectSubtypes inverse references results =
      Worklist.addNew (subtypeTargets inverse references) results := by
  induction references generalizing results with
  | nil => rfl
  | cons ref references ih =>
    by_cases hmatch : ref.isInverse = inverse ∧ ref.referenceTypeId = hasSubtype
    · have hcons : subtypeTargets inverse (ref :: references) =
          ref.targetId.nodeId :: subtypeTargets inverse references := by
        simp [subtypeTargets, hmatch]
      rw [hcons, collectSubtypes, if_neg (by simp [hmatch]), Worklist.addNew]
      split
      · exact ih results
      · exact ih _
    · have hcons : subtypeTargets inverse (ref :: references) =
          subtypeTargets inverse references := by
        rw [subtypeTargets, List.filter_cons_of_neg (by simpa using hmatch), subtypeTargets]
      rw [hcons, collectSubtypes, if_pos (by simpa [not_and_or] using not_and_or.mp hmatch)]
      exact ih results

/-- What a NodeId adds to the type hierarchy. -/
def subtypesOf (sv : Server A) (nodeClass : NodeClass) (inverse : Bool) (x : NodeKey) :
    List NodeKey :=
  match sv.get x with
  | none => []
  | some node =>
      if node.nodeClass ≠ nodeClass then [] else subtypeTargets inverse node.references

theorem typeHierarchyFrom_eq (nodeClass : NodeClass) (inverse : Bool) (fuel : Nat) :
    ∀ (idx : Nat) (results : List NodeKey),
      typeHierarchyFrom sv nodeClass inverse fuel idx results =
        Worklist.closeFrom (subtypesOf sv nodeClass inverse) fuel idx results := by
  induction fuel with
  | zero => exact fun _ _ => rfl
  | succ fuel ih =>
    intro idx results
    unfold typeHierarchyFrom Worklist.closeFrom
    cases hidx : results[idx]? with
    | none => rfl
    | some x =>
      dsimp only
      rw [ih, collectSubtypes_eq]
      congr 2
      unfold subtypesOf
      cases sv.get x with
      | none => rfl
      | some node =>
        dsimp only
        split <;> rfl

def allTargets (sv : Server A) : List NodeKey :=
  sv.nodes.flatMap fun node => node.references.map fun ref => ref.targetId.nodeId

theorem length_allTargets (sv : Server A) : (allTargets sv).length = sv.referencesCount := by
  unfold allTargets Server.referencesCount
  induction sv.nodes with
  | nil => rfl
  | cons node nodes ih => simp [List.flatMap_cons, ih]

theorem subtypeTargets_subset {x : NodeKey} {node : Node A} (hget : sv.get x = some node)
    (inverse : Bool) : subtypeTargets inverse node.references ⊆ allTargets sv := by
  intro y hy
  obtain ⟨ref, href, rfl⟩ := List.mem_map.mp hy
  exact List.mem_flatMap.mpr ⟨node, Keyed.mem_of_find hget,
    List.mem_map.mpr ⟨ref, (List.mem_filter.mp href).1, rfl⟩⟩

theorem mem_getTypeHierarchy {root : Node A} (hget : sv.get root.nodeId = some root)
    (inverse : Bool) {x : NodeKey} :
    x ∈ getTypeHierarchy sv root inverse ↔
      ReflTransGen (fun x y => y ∈ subtypesOf sv root.nodeClass inverse x) root.nodeId x := by
  have hroot : subtypesOf sv root.nodeClass inverse root.nodeId =
      subtypeTargets inverse root.references := by
    unfold subtypesOf
    rw [hget]
    exact if_neg (not_not_intro rfl)
  have hfirst : Worklist.Closing (subtypesOf sv root.nodeClass inverse) [root.nodeId] 1
      (Worklist.addNew (subtypeTargets inverse root.references) [root.nodeId]) := by
    have hzero : Worklist.Closing (subtypesOf sv root.nodeClass inverse) [root.nodeId] 0
        [root.nodeId] :=
      ⟨List.nodup_singleton _, fun _ hx => hx, fun x hx => ⟨x, hx, .refl⟩,
        fun i hi => absurd hi (Nat.not_lt_zero i)⟩
    have hstep := @Worklist.Closing.step _ _ _ _ _ root.nodeId _ hzero rfl
    rwa [hroot] at hstep
  have hnext : ∀ y, subtypesOf sv root.nodeClass inverse y ⊆ root.nodeId :: allTargets sv := by
    intro y z hz
    unfold subtypesOf at hz
    split at hz
    · cases hz
    · rename_i node hnode
      split at hz
      · cases hz
      · exact List.mem_cons_of_mem _ (subtypeTargets_subset hnode inverse hz)
  have hsub : Worklist.addNew (subtypeTargets inverse root.references) [root.nodeId] ⊆
      root.nodeId :: allTargets sv := by
    intro y hy
    obtain hy | hy := Worklist.mem_addNew.mp hy
    · exact List.mem_cons.mpr (Or.inl (List.mem_singleton.mp hy))
    · exact List.mem_cons_of_mem _ (subtypeTargets_subset hget inverse hy)
  unfold getTypeHierarchy
  rw [typeHierarchyFrom_eq, collectSubtypes_eq, Worklist.mem_closeFrom hnext hfirst hsub
    (by rw [List.length_cons, length_allTargets]; omega)]
  simp [Worklist.Reached]

theorem mem_subtypesOf {x y : NodeKey} :
    y ∈ subtypesOf sv .referenceType false x ↔ SubtypeOf sv x y := by
  unfold subtypesOf SubtypeOf subtypeTargets
  cases sv.get x with
  | none => simp
  | some node =>
    by_cases hclass : node.nodeClass = .referenceType
    · simp [hclass, and_assoc]
    · simp [hclass]

def isTaken (inverse : Bool) (reftypes : Option (List NodeKey)) (ref : ReferenceNode) : Bool :=
  ref.isInverse == inverse &&
    (reftypes.map fun types => decide (ref.referenceTypeId ∈ types)) != some false

theorem typeMatches_iff {reftypes : Option (List NodeKey)}
    (h : elementTypes sv elem = some reftypes) (type : NodeKey) :
    (reftypes.map fun types => decide (type ∈ types)) ≠ some false ↔ TypeMatches sv elem type := by
  unfold elementTypes at h
  split at h
  · rename_i hnull
    cases h
    simp [TypeMatches, hnull]
  · rename_i hnull
    split at h
    · rename_i hsubtypes
      cases h
      simp [TypeMatches, hnull, Bool.eq_false_iff.mpr hsubtypes]
    · rename_i hsubtypes
      split at h
      · cases h
      · rename_i root hroot
        split at h
        · cases h
        · rename_i hclass
          cases h
          have hkey : root.nodeId = elem.referenceTypeId := Keyed.key_of_find hroot
          have hreach := @mem_getTypeHierarchy _ sv root (hkey ▸ hroot) false type
          rw [not_not.mp hclass, hkey] at hreach
          simp only [mem_subtypesOf] at hreach
          simp [TypeMatches, hnull, not_not.mp hsubtypes, hroot, not_not.mp hclass, hreach]

theorem isTaken_iff {reftypes : Option (List NodeKey)}
    (h : elementTypes sv elem = some reftypes) (ref : ReferenceNode) :
    isTaken elem.isInverse reftypes ref ↔ ElementMatches sv elem ref := by
  rw [isTaken, Bool.and_eq_true, beq_iff_eq, bne_iff_ne, typeMatches_iff h, ElementMatches]

theorem not_typeMatches (h : elementTypes sv elem = none)
    (type : NodeKey) : ¬ TypeMatches sv elem type := by
  unfold elementTypes at h
  rintro (hnull | ⟨hsubtypes, -⟩ | ⟨hsubtypes, ⟨node, hnode, hclass⟩, -⟩)
  · simp [hnull] at h
  · split at h
    · cases h
    · simp [hsubtypes] at h
  · split at h
    · cases h
    · simp [hnode, hclass] at h

/-! ## The walk along one element -/

/-- The walk goes on: nothing is counted yet and the arrays have the memory that is noted. -/
structure Walk.Sound (w : Walk) : Prop where
  good : w.result.statusCode = StatusCode.good
  uncounted : w.result.targetsSize = 0
  memory : w.result.targets.length = w.targetsSize
  room : 0 < w.targetsSize
  next : w.next.ids.length ≤ w.next.size
  nextRoom : 0 < w.next.size

/-- NodeIds have been added to `next`. With `quiet` nothing else has changed. -/
structure Walk.Extends (w : Walk) (ids : List NodeKey) (quiet : Prop) (w' : Walk) : Prop where
  sound : w'.Sound
  ids : w'.next.ids = w.next.ids ++ ids
  unwritten : quiet → w'.result = w.result ∧ w'.targetsSize = w.targetsSize

theorem Walk.Extends.trans {w w' w'' : Walk} {ids ids' : List NodeKey} {quiet quiet' : Prop}
    (h : w.Extends ids quiet w') (h' : w'.Extends ids' quiet' w'') :
    w.Extends (ids ++ ids') (quiet ∧ quiet') w'' where
  sound := h'.sound
  ids := by rw [h'.ids, h.ids, List.append_assoc]
  unwritten hquiet := by
    obtain ⟨hresult, hsize⟩ := h.unwritten hquiet.1
    obtain ⟨hresult', hsize'⟩ := h'.unwritten hquiet.2
    exact ⟨hresult'.trans hresult, hsize'.trans hsize⟩

theorem Walk.Extends.refl {w : Walk} (h : w.Sound) (quiet : Prop) : w.Extends [] quiet w :=
  ⟨h, (List.append_nil _).symm, fun _ => ⟨rfl, rfl⟩⟩

theorem Walk.Extends.weaken {w w' : Walk} {ids : List NodeKey} {quiet quiet' : Prop}
    (h : w.Extends ids quiet w') (hquiet : quiet' → quiet) : w.Extends ids quiet' w' :=
  ⟨h.sound, h.ids, fun hq => h.unwritten (hquiet hq)⟩

/-- The nodes of this server a reference that is walked along adds. -/
def localTargets (inverse : Bool) (reftypes : Option (List NodeKey))
    (references : List ReferenceNode) : List NodeKey :=
  (references.filter fun ref => isTaken inverse reftypes ref && ref.targetId.serverIndex == 0).map
    fun ref => ref.targetId.nodeId

/-- No reference that is walked along leaves the server. -/
def StaysHere (inverse : Bool) (reftypes : Option (List NodeKey))
    (references : List ReferenceNode) : Prop :=
  ∀ ref ∈ references, isTaken inverse reftypes ref → ref.targetId.serverIndex = 0

theorem push_eq {next : NodeIdArray} (hlength : next.ids.length ≤ next.size)
    (hroom : 0 < next.size) (nodeId : NodeKey) :
    ∃ size, next.push nodeId = .ok ⟨size, next.ids ++ [nodeId]⟩ ∧
      next.ids.length + 1 ≤ size := by
  unfold NodeIdArray.push
  split
  · exact ⟨next.size * 2, if_pos (by omega), by omega⟩
  · exact ⟨next.size, if_pos (by omega), by omega⟩

theorem length_realloc (result : BrowsePathResult) (n : Nat) :
    (result.realloc n).targets.length = n := by
  simp [BrowsePathResult.realloc, List.length_take]
  omega

theorem walkBrowsePathElementNodeReference_extends {w : Walk} (h : w.Sound) (elemDepth : Nat)
    (inverse : Bool) (reftypes : Option (List NodeKey)) (ref : ReferenceNode) :
    ∃ w', walkBrowsePathElementNodeReference elemDepth inverse reftypes ref w = .ok w' ∧
      w.Extends (localTargets inverse reftypes [ref]) (StaysHere inverse reftypes [ref]) w' := by
  unfold walkBrowsePathElementNodeReference
  split
  · rename_i hdirection
    refine ⟨w, rfl, ?_⟩
    have hnone : localTargets inverse reftypes [ref] = [] := by
      simp [localTargets, isTaken, hdirection]
    rw [hnone]
    exact .refl h _
  · rename_i hdirection
    split
    · rename_i htype
      refine ⟨w, rfl, ?_⟩
      have hnone : localTargets inverse reftypes [ref] = [] := by
        simp [localTargets, isTaken, htype]
      rw [hnone]
      exact .refl h _
    · rename_i htype
      have htaken : isTaken inverse reftypes ref = true := by
        rw [isTaken, Bool.and_eq_true, beq_iff_eq, bne_iff_ne]
        exact ⟨not_not.mp hdirection, htype⟩
      split
      · rename_i hexternal
        have hroom := h.room
        have hmemory := length_realloc w.result (w.targetsSize * 2)
        have huncounted : (w.result.realloc (w.targetsSize * 2)).targetsSize = 0 := h.uncounted
        dsimp only
        rw [BrowsePathResult.write, if_pos (by omega)]
        refine ⟨_, rfl, ⟨rfl, huncounted, ?_, by dsimp only; omega, h.next, h.nextRoom⟩, ?_, ?_⟩
        · exact List.length_set.trans hmemory
        · simp [localTargets, htaken, hexternal]
        · exact fun hstays => absurd (hstays ref (List.mem_singleton_self ref) htaken) hexternal
      · rename_i hlocal
        obtain ⟨size, hpush, hsize⟩ := push_eq h.next h.nextRoom ref.targetId.nodeId
        rw [hpush]
        refine ⟨_, rfl, ⟨rfl, h.uncounted, h.memory, h.room, ?_, by dsimp only; omega⟩, ?_, ?_⟩
        · simpa using hsize
        · simp [localTargets, htaken, not_not.mp hlocal]
        · exact fun _ => ⟨by rw [← h.good], rfl⟩

theorem localTargets_cons (inverse : Bool) (reftypes : Option (List NodeKey))
    (ref : ReferenceNode) (references : List ReferenceNode) :
    localTargets inverse reftypes (ref :: references) =
      localTargets inverse reftypes [ref] ++ localTargets inverse reftypes references := by
  unfold localTargets
  rw [← List.map_append, ← List.filter_append, List.singleton_append]

theorem walkReferences_extends (elemDepth : Nat) (inverse : Bool)
    (reftypes : Option (List NodeKey)) (references : List ReferenceNode) :
    ∀ {w : Walk}, w.Sound →
      ∃ w', walkReferences elemDepth inverse reftypes references w = .ok w' ∧
        w.Extends (localTargets inverse reftypes references)
          (StaysHere inverse reftypes references) w' := by
  induction references with
  | nil => exact fun {w} h => ⟨w, rfl, .refl h _⟩
  | cons ref references ih =>
    intro w h
    obtain ⟨w₁, hfirst, hextends⟩ :=
      walkBrowsePathElementNodeReference_extends h elemDepth inverse reftypes ref
    obtain ⟨w₂, hrest, hextends'⟩ := ih hextends.sound
    refine ⟨w₂, ?_, ?_⟩
    · rw [walkReferences, if_neg (not_not_intro h.good), hfirst]
      exact hrest
    · rw [localTargets_cons]
      refine (hextends.trans hextends').weaken fun hstays => ⟨?_, ?_⟩
      · exact fun r hr => hstays r (List.mem_singleton.mp hr ▸ List.mem_cons_self)
      · exact fun r hr => hstays r (List.mem_cons_of_mem _ hr)

/-- What a node adds to the walk along an element. -/
def nodeTargets (sv : Server A) (inverse : Bool) (reftypes : Option (List NodeKey))
    (targetName : Option QualifiedName) (x : NodeKey) : List NodeKey :=
  match sv.get x with
  | none => []
  | some node =>
      if ¬ isNamed targetName node then [] else localTargets inverse reftypes node.references

theorem walkNodes_extends (elemDepth : Nat) (inverse : Bool) (reftypes : Option (List NodeKey))
    (targetName : Option QualifiedName) (current : List NodeKey) :
    ∀ {w : Walk}, w.Sound → (elemDepth = 0 → ∀ x ∈ current, (sv.get x).isSome) →
      ∃ w', walkNodes sv elemDepth inverse reftypes targetName current w = .ok w' ∧
        w.Extends (current.flatMap (nodeTargets sv inverse reftypes targetName))
          (∀ x ∈ current, Named sv targetName x →
            StaysHere inverse reftypes (sv.references x)) w' := by
  induction current with
  | nil => exact fun {w} h _ => ⟨w, rfl, .refl h _⟩
  | cons x current ih =>
    intro w h hstart
    have hrest : elemDepth = 0 → ∀ y ∈ current, (sv.get y).isSome :=
      fun hzero y hy => hstart hzero y (List.mem_cons_of_mem _ hy)
    unfold walkNodes
    rw [List.flatMap_cons]
    cases hget : sv.get x with
    | none =>
      have hzero : elemDepth ≠ 0 := by
        intro hzero
        have := hstart hzero x List.mem_cons_self
        simp [hget] at this
      obtain ⟨w', hwalk, hextends⟩ := ih h hrest
      have hnone : nodeTargets sv inverse reftypes targetName x = [] := by
        simp [nodeTargets, hget]
      rw [hnone, List.nil_append]
      refine ⟨w', by simpa [hzero] using hwalk, hextends.weaken fun hquiet y hy => ?_⟩
      exact hquiet y (List.mem_cons_of_mem _ hy)
    | some node =>
      dsimp only
      by_cases hnamed : isNamed targetName node
      · have htargets : nodeTargets sv inverse reftypes targetName x =
            localTargets inverse reftypes node.references := by
          simp [nodeTargets, hget, hnamed]
        have hreferences : sv.references x = node.references := by
          simp [Server.references, hget]
        obtain ⟨w₁, hnode, hextends⟩ :=
          walkReferences_extends elemDepth inverse reftypes node.references h
        obtain ⟨w₂, hwalk, hextends'⟩ := ih hextends.sound hrest
        rw [if_neg (not_not_intro hnamed), hnode, htargets]
        refine ⟨w₂, hwalk, (hextends.trans hextends').weaken fun hquiet => ⟨?_, ?_⟩⟩
        · exact hreferences ▸ hquiet x List.mem_cons_self ⟨node, hget, hnamed⟩
        · exact fun y hy => hquiet y (List.mem_cons_of_mem _ hy)
      · have hnone : nodeTargets sv inverse reftypes targetName x = [] := by
          simp [nodeTargets, hget, hnamed]
        obtain ⟨w', hwalk, hextends⟩ := ih h hrest
        rw [if_pos hnamed, hnone, List.nil_append]
        exact ⟨w', hwalk, hextends.weaken fun hquiet y hy => hquiet y (List.mem_cons_of_mem _ hy)⟩

/-- A reference of a node leads along the element to a node of this server. -/
def StepsTo (sv : Server A) (elem : RelativePathElement) (x y : NodeKey) : Prop :=
  ∃ ref ∈ sv.references x, ElementMatches sv elem ref ∧ ref.targetId.serverIndex = 0 ∧
    ref.targetId.nodeId = y

theorem mem_nodeTargets {reftypes : Option (List NodeKey)}
    (h : elementTypes sv elem = some reftypes) (targetName : Option QualifiedName)
    (x y : NodeKey) :
    y ∈ nodeTargets sv elem.isInverse reftypes targetName x ↔
      Named sv targetName x ∧ StepsTo sv elem x y := by
  unfold nodeTargets Named StepsTo Server.references
  cases sv.get x with
  | none => simp
  | some node =>
    by_cases hnamed : isNamed targetName node
    · simp [hnamed, localTargets, isTaken_iff h, and_assoc]
    · simp [hnamed]

theorem walkBrowsePathElement_extends (elem : RelativePathElement) (elemDepth : Nat)
    (targetName : Option QualifiedName) (current : List NodeKey) {w : Walk} (h : w.Sound)
    (hstart : elemDepth = 0 → ∀ x ∈ current, (sv.get x).isSome) :
    ∃ w' ids, walkBrowsePathElement sv elem elemDepth targetName current w = .ok w' ∧
      w.Extends ids
        (∀ x ∈ current, Named sv targetName x → ∀ ref ∈ sv.references x,
          ElementMatches sv elem ref → ref.targetId.serverIndex = 0) w' ∧
      ∀ y, y ∈ ids ↔ ∃ x ∈ current, Named sv targetName x ∧ StepsTo sv elem x y := by
  unfold walkBrowsePathElement
  cases htypes : elementTypes sv elem with
  | none =>
    refine ⟨w, [], rfl, .refl h _, fun y => ⟨fun hy => absurd hy List.not_mem_nil, ?_⟩⟩
    rintro ⟨x, -, -, ref, -, hmatches, -⟩
    exact absurd hmatches.2 (not_typeMatches htypes _)
  | some reftypes =>
    obtain ⟨w', hwalk, hextends⟩ :=
      walkNodes_extends elemDepth elem.isInverse reftypes targetName current h hstart
    refine ⟨w', _, hwalk, hextends.weaken ?_, fun y => ?_⟩
    · intro hquiet x hx hnamed ref href htaken
      exact hquiet x hx hnamed ref href ((isTaken_iff htypes ref).mp htaken)
    · rw [List.mem_flatMap]
      exact exists_congr fun x => and_congr_right fun _ => mem_nodeTargets htypes targetName x y

def namedNodes (sv : Server A) (targetName : QualifiedName) (current : List NodeKey) :
    List NodeKey :=
  current.filter fun x =>
    match sv.get x with
    | none => false
    | some node => isNamed (some targetName) node

theorem mem_namedNodes {targetName : QualifiedName} {current : List NodeKey} {x : NodeKey} :
    x ∈ namedNodes sv targetName current ↔ x ∈ current ∧ Named sv (some targetName) x := by
  unfold namedNodes Named
  rw [List.mem_filter]
  cases sv.get x <;> simp

/-- A node of this server as the target of a path. -/
abbrev BrowsePathTarget.here (x : NodeKey) : BrowsePathTarget := ⟨.here x, 0xFFFFFFFF⟩

/-- The result with some targets counted; the memory behind them can hold anything. -/
def counted (statusCode : StatusCode) (targets : List BrowsePathTarget)
    (rest : List (Option BrowsePathTarget)) : BrowsePathResult :=
  ⟨statusCode, targets.map some ++ rest, targets.length⟩

theorem write_counted (statusCode : StatusCode) (targets : List BrowsePathTarget)
    (cell : Option BrowsePathTarget) (rest : List (Option BrowsePathTarget))
    (target : BrowsePathTarget) :
    ∃ result, (counted statusCode targets (cell :: rest)).write target = .ok result ∧
      { result with targetsSize := result.targetsSize + 1 } =
        counted statusCode (targets ++ [target]) rest := by
  refine ⟨_, if_pos ?_, ?_⟩
  · simp [counted]
  · simp [counted]

theorem addBrowsePathTargets_eq (targetName : QualifiedName) (statusCode : StatusCode)
    (current : List NodeKey) :
    ∀ (targets : List BrowsePathTarget) (rest : List (Option BrowsePathTarget)),
      current.length ≤ rest.length →
        addBrowsePathTargets sv targetName current (counted statusCode targets rest) =
          .ok (counted statusCode
            (targets ++ (namedNodes sv targetName current).map BrowsePathTarget.here)
            (rest.drop (namedNodes sv targetName current).length)) := by
  induction current with
  | nil => simp [addBrowsePathTargets, namedNodes]
  | cons x current ih =>
    intro targets rest hroom
    rw [List.length_cons] at hroom
    unfold addBrowsePathTargets
    cases hget : sv.get x with
    | none =>
      have hcons : namedNodes sv targetName (x :: current) = namedNodes sv targetName current := by
        simp [namedNodes, hget]
      rw [hcons]
      exact ih targets rest (by omega)
    | some node =>
      dsimp only
      by_cases hnamed : isNamed (some targetName) node
      · have hcons : namedNodes sv targetName (x :: current) =
            x :: namedNodes sv targetName current := by
          simp [namedNodes, hget, hnamed]
        obtain _ | ⟨cell, rest⟩ := rest
        · simp at hroom
        obtain ⟨result, hwrite, hresult⟩ :=
          write_counted statusCode targets cell rest (.here x)
        rw [if_neg (not_not_intro hnamed), hwrite, hcons]
        dsimp only
        rw [hresult, ih _ rest (by simpa using hroom), List.append_assoc]
        rfl
      · have hcons : namedNodes sv targetName (x :: current) =
            namedNodes sv targetName current := by
          simp [namedNodes, hget, hnamed]
        rw [if_pos hnamed, hcons]
        exact ih targets rest (by omega)

theorem reported_counted (statusCode : StatusCode) (targets : List BrowsePathTarget)
    (rest : List (Option BrowsePathTarget)) :
    (counted statusCode targets rest).reported = targets := by
  unfold BrowsePathResult.reported counted
  simp [List.filterMap_map]

/-- The targets are the nodes the rest of the path leads to from one of the current nodes, and the
memory behind them is as it was if no chain leaves the server. -/
def Arrives (sv : Server A) (elements : List RelativePathElement)
    (targetName : Option QualifiedName) (current : List NodeKey) (quiet : Prop)
    (result : BrowsePathResult) : Prop :=
  ∃ targets rest, result = counted StatusCode.good targets rest ∧
    (∀ target, target ∈ targets ↔ ∃ y, target = .here y ∧
      ∃ x ∈ current, Named sv targetName x ∧ LeadsTo sv x elements y) ∧
    (quiet → (∀ x ∈ current, Named sv targetName x →
      ∀ i target j, ¬ LeavesFor sv x elements i target j) → ∀ cell ∈ rest, cell = none)

theorem leadsTo_cons {elements : List RelativePathElement}
    {x y : NodeKey} :
    LeadsTo sv x (elem :: elements) y ↔
      ∃ z, StepsTo sv elem x z ∧ Named sv (some elem.targetName) z ∧ LeadsTo sv z elements y := by
  constructor
  · rintro ⟨ref, href, hmatches, hlocal, hnamed, hleads⟩
    exact ⟨_, ⟨ref, href, hmatches, hlocal, rfl⟩, hnamed, hleads⟩
  · rintro ⟨z, ⟨ref, href, hmatches, hlocal, rfl⟩, hnamed, hleads⟩
    exact ⟨ref, href, hmatches, hlocal, hnamed, hleads⟩

theorem leavesFor_of_step {elements : List RelativePathElement}
    {x z : NodeKey} {i : Nat} {target : ExpandedNodeId} {j : Nat} (hstep : StepsTo sv elem x z)
    (hnamed : Named sv (some elem.targetName) z)
    (hleaves : LeavesFor sv z elements (i + 1) target j) :
    LeavesFor sv x (elem :: elements) i target j := by
  obtain ⟨ref, href, hmatches, hlocal, rfl⟩ := hstep
  exact ⟨ref, href, hmatches, Or.inr ⟨hlocal, hnamed, hleaves⟩⟩

theorem leavesFor_shift {elements : List RelativePathElement} :
    ∀ {x : NodeKey} {i k : Nat} {target : ExpandedNodeId} {j : Nat},
      LeavesFor sv x elements i target j → ∃ j, LeavesFor sv x elements k target j := by
  induction elements with
  | nil => exact fun h => h.elim
  | cons elem elements ih =>
    rintro x i k target j ⟨ref, href, hmatches, hleaves⟩
    obtain ⟨hexternal, htarget, -⟩ | ⟨hlocal, hnamed, hleaves⟩ := hleaves
    · exact ⟨k, ref, href, hmatches, Or.inl ⟨hexternal, htarget, rfl⟩⟩
    · obtain ⟨j', hleaves'⟩ := @ih _ _ (k + 1) _ _ hleaves
      exact ⟨j', ref, href, hmatches, Or.inr ⟨hlocal, hnamed, hleaves'⟩⟩

theorem Walk.Sound.result_eq {w : Walk} (h : w.Sound) :
    w.result = counted StatusCode.good [] w.result.targets := by
  unfold counted
  rw [← h.good, List.map_nil, List.nil_append, List.length_nil, ← h.uncounted]

theorem walkBrowsePath_cons (i : Nat) (targetName : Option QualifiedName)
    (elem : RelativePathElement) (elements : List RelativePathElement) (current : NodeIdArray)
    {w w' : Walk} (h : walkBrowsePathElement sv elem i targetName current.ids w = .ok w') :
    walkBrowsePath sv i targetName (elem :: elements) current w =
      if w'.next.ids.length = 0 ∨ w'.result.statusCode ≠ StatusCode.good then .ok w'.result
      else walkBrowsePath sv (i + 1) (some elem.targetName) elements w'.next
        { w' with next := ⟨current.size, []⟩ } := by
  cases targetName <;> simp only [walkBrowsePath, h]

theorem walkBrowsePath_arrives (elements : List RelativePathElement) :
    ∀ (i : Nat) (targetName : Option QualifiedName) (current : NodeIdArray) {w : Walk},
      w.Sound → w.next.ids = [] → 0 < current.size →
      (i = 0 → ∀ x ∈ current.ids, (sv.get x).isSome) → (targetName = none → elements ≠ []) →
        ∃ result, walkBrowsePath sv i targetName elements current w = .ok result ∧
          Arrives sv elements targetName current.ids (∀ cell ∈ w.result.targets, cell = none)
            result := by
  induction elements with
  | nil =>
    intro i targetName current w h hnext hsize _ hname
    obtain _ | targetName := targetName
    · exact absurd rfl (hname rfl)
    unfold walkBrowsePath
    dsimp only
    rw [h.uncounted, Nat.zero_add, h.result_eq]
    -- memory for all of the current nodes
    obtain ⟨rest, hrest, hroom, hquiet⟩ : ∃ rest,
        (if w.targetsSize < current.ids.length then
          (counted StatusCode.good [] w.result.targets).realloc current.ids.length
        else counted StatusCode.good [] w.result.targets) = counted StatusCode.good [] rest ∧
        current.ids.length ≤ rest.length ∧
        ((∀ cell ∈ w.result.targets, cell = none) → ∀ cell ∈ rest, cell = none) := by
      have hmemory := h.memory
      split
      · refine ⟨_, rfl, ?_, ?_⟩
        · simp [counted]
          omega
        · intro hquiet cell hcell
          obtain hcell | hcell := List.mem_append.mp hcell
          · exact hquiet cell (List.mem_of_mem_take (by simpa [counted] using hcell))
          · exact (List.mem_replicate.mp hcell).2
      · exact ⟨_, rfl, by omega, id⟩
    rw [hrest, addBrowsePathTargets_eq targetName _ _ _ _ hroom]
    refine ⟨_, rfl, ⟨_, _, rfl, fun target => ?_, fun hnone _ cell hcell => ?_⟩⟩
    · rw [List.nil_append, List.mem_map]
      constructor
      · rintro ⟨y, hy, rfl⟩
        obtain ⟨hcurrent, hnamed⟩ := mem_namedNodes.mp hy
        exact ⟨y, rfl, y, hcurrent, hnamed, rfl⟩
      · rintro ⟨y, rfl, x, hcurrent, hnamed, rfl⟩
        exact ⟨x, mem_namedNodes.mpr ⟨hcurrent, hnamed⟩, rfl⟩
    · exact hquiet hnone cell (List.mem_of_mem_drop hcell)
  | cons elem elements ih =>
    intro i targetName current w h hnext hsize hstart _
    obtain ⟨w', ids, helem, hextends, hids⟩ :=
      walkBrowsePathElement_extends elem i targetName current.ids h hstart
    have hfrontier : w'.next.ids = ids := by rw [hextends.ids, hnext, List.nil_append]
    have hstays : (∀ x ∈ current.ids, Named sv targetName x →
        ∀ i target j, ¬ LeavesFor sv x (elem :: elements) i target j) →
          w'.result = w.result := by
      refine fun hnever => (hextends.unwritten fun x hx hnamed ref href hmatches => ?_).1
      by_contra hexternal
      exact hnever x hx hnamed 0 ref.targetId 0
        ⟨ref, href, hmatches, Or.inl ⟨hexternal, rfl, rfl⟩⟩
    rw [walkBrowsePath_cons i targetName elem elements current helem]
    by_cases hempty : w'.next.ids.length = 0
    · rw [if_pos (Or.inl hempty), hextends.sound.result_eq]
      have hnil : ids = [] := hfrontier ▸ List.length_eq_zero_iff.mp hempty
      refine ⟨_, rfl, ⟨_, _, rfl, fun target => ⟨fun hin => absurd hin List.not_mem_nil, ?_⟩, ?_⟩⟩
      · rintro ⟨y, -, x, hx, hnamed, hleads⟩
        obtain ⟨z, hstep, -⟩ := leadsTo_cons.mp hleads
        exact absurd ((hids z).mpr ⟨x, hx, hnamed, hstep⟩) (hnil ▸ List.not_mem_nil)
      · intro hnone hnever
        rw [hstays hnever]
        exact hnone
    · rw [if_neg (by simp [hempty, hextends.sound.good])]
      obtain ⟨result, hwalk, targets, rest, hresult, htargets, hquiet⟩ :=
        @ih (i + 1) (some elem.targetName) w'.next
          { w' with next := ⟨current.size, []⟩ }
          ⟨hextends.sound.good, hextends.sound.uncounted, hextends.sound.memory,
            hextends.sound.room, Nat.zero_le _, hsize⟩
          rfl hextends.sound.nextRoom (fun hzero => absurd hzero (Nat.succ_ne_zero i))
          (fun hname => nomatch hname)
      refine ⟨result, hwalk, targets, rest, hresult, fun target => ?_, ?_⟩
      · rw [htargets, hfrontier]
        refine exists_congr fun y => and_congr_right fun _ => ?_
        constructor
        · rintro ⟨z, hz, hnamed', hleads⟩
          obtain ⟨x, hx, hnamed, hstep⟩ := (hids z).mp hz
          exact ⟨x, hx, hnamed, leadsTo_cons.mpr ⟨z, hstep, hnamed', hleads⟩⟩
        · rintro ⟨x, hx, hnamed, hleads⟩
          obtain ⟨z, hstep, hnamed', hleads⟩ := leadsTo_cons.mp hleads
          exact ⟨z, (hids z).mpr ⟨x, hx, hnamed, hstep⟩, hnamed', hleads⟩
      · intro hnone hnever
        refine hquiet ?_ fun z hz hnamed' k target j hleaves => ?_
        · rw [show _ = w.result from hstays hnever]
          exact hnone
        · obtain ⟨x, hx, hnamed, hstep⟩ := (hids z).mp (hfrontier ▸ hz)
          obtain ⟨j', hleaves'⟩ := @leavesFor_shift _ _ _ _ _ (0 + 1) _ _ hleaves
          exact hnever x hx hnamed 0 target j' (leavesFor_of_step hstep hnamed' hleaves')

theorem translateBrowsePathToNodeIds_spec {path : BrowsePath}
    (hstart : (sv.get path.startingNode).isSome) (hempty : path.elements ≠ [])
    (hnames : ∀ elem ∈ path.elements, ¬ elem.targetName.isNull) :
    ∃ targets rest, translateBrowsePathToNodeIds sv path =
        .ok (finishResult (counted StatusCode.good targets rest)) ∧
      (∀ target, target ∈ targets ↔
        ∃ y, target = .here y ∧ LeadsTo sv path.startingNode path.elements y) ∧
      ((∀ target j, ¬ LeavesFor sv path.startingNode path.elements 0 target j) →
        ∀ cell ∈ rest, cell = none) := by
  have hnamed : Named sv none path.startingNode := by
    obtain ⟨node, hnode⟩ := Option.isSome_iff_exists.mp hstart
    exact ⟨node, hnode, rfl⟩
  obtain ⟨result, hwalk, targets, rest, rfl, htargets, hquiet⟩ :=
    @walkBrowsePath_arrives A sv path.elements 0 none ⟨10, [path.startingNode]⟩
      ⟨⟨StatusCode.good, List.replicate 10 none, 0⟩, 10, ⟨10, []⟩⟩
      ⟨rfl, rfl, List.length_replicate, by decide, by decide, by decide⟩ rfl
      (show 0 < 10 by decide)
      (fun _ x hx => List.mem_singleton.mp hx ▸ hstart) (fun _ => hempty)
  refine ⟨targets, rest, ?_, fun target => ?_, fun hnever => ?_⟩
  · unfold translateBrowsePathToNodeIds
    rw [if_neg (by simpa using hempty), if_neg (by simpa using hnames)]
    dsimp only
    rw [hwalk]
    rfl
  · rw [htargets]
    refine exists_congr fun y => and_congr_right fun _ => ?_
    constructor
    · rintro ⟨x, hx, -, hleads⟩
      exact List.mem_singleton.mp hx ▸ hleads
    · exact fun hleads => ⟨_, List.mem_singleton_self _, hnamed, hleads⟩
  · refine hquiet (fun cell hcell => (List.mem_replicate.mp hcell).2) ?_
    intro x hx _ i target j hleaves
    obtain ⟨j', hleaves'⟩ := @leavesFor_shift _ _ _ _ _ 0 _ _ hleaves
    exact hnever target j' (List.mem_singleton.mp hx ▸ hleaves')

theorem finishResult_counted (targets : List BrowsePathTarget)
    (rest : List (Option BrowsePathTarget)) :
    finishResult (counted StatusCode.good targets rest) =
      if targets = [] then ⟨StatusCode.badNoMatch, [], 0⟩
      else counted StatusCode.good targets rest := by
  unfold finishResult counted
  by_cases htargets : targets = []
  · simp [htargets, StatusCode.badNoMatch, StatusCode.good]
  · simp [htargets]

theorem reported_finishResult (targets : List BrowsePathTarget)
    (rest : List (Option BrowsePathTarget)) :
    (finishResult (counted StatusCode.good targets rest)).reported = targets := by
  rw [finishResult_counted]
  split
  · rename_i htargets
    rw [htargets]
    rfl
  · exact reported_counted _ _ _

theorem not_resolves_of_refused {path : BrowsePath} {result : BrowsePathResult}
    (hreported : result.reported = []) (hstatus : result.statusCode ≠ StatusCode.badNoMatch) :
    ¬ Resolves sv path result := by
  intro h
  refine hstatus (h.noMatch.mpr ⟨fun x hleads => ?_, fun target j hleaves => ?_⟩)
  · have := (h.locals x).mpr hleads
    simp [hreported] at this
  · have := ((h.externals target (UInt32.ofNat j)).mpr ⟨j, hleaves, rfl⟩).1
    simp [hreported] at this

/-- The result is what the path denotes if and only if the path has elements, each with a target
name, and no chain along them leaves the server. -/
theorem browsePath_resolves_iff (sv : Server A) (path : BrowsePath)
    (hstart : (sv.get path.startingNode).isSome) :
    (∃ result, translateBrowsePathToNodeIds sv path = .ok result ∧ Resolves sv path result) ↔
      path.elements ≠ [] ∧ (∀ elem ∈ path.elements, ¬ elem.targetName.isNull) ∧
        ∀ target j, ¬ LeavesFor sv path.startingNode path.elements 0 target j := by
  constructor
  · rintro ⟨result, hresult, hresolves⟩
    by_cases hempty : path.elements = []
    · rw [translateBrowsePathToNodeIds, if_pos (by simp [hempty])] at hresult
      cases hresult
      exact absurd hresolves (not_resolves_of_refused rfl (by decide))
    by_cases hnames : ∀ elem ∈ path.elements, ¬ elem.targetName.isNull
    · refine ⟨hempty, hnames, fun target j hleaves => ?_⟩
      obtain ⟨targets, rest, htranslate, htargets, -⟩ :=
        translateBrowsePathToNodeIds_spec hstart hempty hnames
      cases htranslate.symm.trans hresult
      obtain ⟨hin, hexternal⟩ :=
        (hresolves.externals target (UInt32.ofNat j)).mpr ⟨j, hleaves, rfl⟩
      rw [reported_finishResult, htargets] at hin
      obtain ⟨y, heq, -⟩ := hin
      -- a target that is reported is a node of this server
      exact hexternal (congrArg (fun t => t.targetId.serverIndex) heq)
    · rw [translateBrowsePathToNodeIds, if_neg (by simpa using hempty),
        if_pos (by simpa using hnames)] at hresult
      cases hresult
      exact absurd hresolves (not_resolves_of_refused rfl (by decide))
  · rintro ⟨hempty, hnames, hnever⟩
    obtain ⟨targets, rest, htranslate, htargets, hrest⟩ :=
      translateBrowsePathToNodeIds_spec hstart hempty hnames
    have hunwritten := hrest hnever
    refine ⟨_, htranslate, ⟨fun x => ?_, fun target index => ?_, ?_, ?_, ?_⟩⟩
    · rw [reported_finishResult, htargets]
      constructor
      · rintro ⟨y, heq, hleads⟩
        cases heq
        exact hleads
      · exact fun hleads => ⟨x, rfl, hleads⟩
    · rw [reported_finishResult, htargets]
      constructor
      · rintro ⟨⟨y, heq, -⟩, hexternal⟩
        cases heq
        exact absurd rfl hexternal
      · rintro ⟨j, hleaves, -⟩
        exact absurd hleaves (hnever target j)
    · intro target hin
      rw [reported_finishResult, htargets] at hin
      obtain ⟨y, rfl, -⟩ := hin
      exact Or.inr ⟨y, rfl⟩
    · have hnil : targets = [] ↔ ∀ x, ¬ LeadsTo sv path.startingNode path.elements x := by
        rw [List.eq_nil_iff_forall_not_mem]
        constructor
        · exact fun hnot x hleads => hnot (.here x) ((htargets _).mpr ⟨x, rfl, hleads⟩)
        · rintro hnot target hin
          obtain ⟨y, -, hleads⟩ := (htargets target).mp hin
          exact hnot y hleads
      rw [finishResult_counted, ← hnil, and_iff_left hnever]
      by_cases hno : targets = []
      · rw [if_pos hno]
        exact iff_of_true rfl hno
      · rw [if_neg hno]
        exact iff_of_false (show StatusCode.good ≠ StatusCode.badNoMatch by decide) hno
    · rw [finishResult_counted]
      split
      · rfl
      · have hnone : rest.filter Option.isSome = [] :=
          List.filter_eq_nil_iff.mpr fun cell hcell => by simp [hunwritten cell hcell]
        simp [counted, hnone, List.filter_map]

/-- A node with a reference to a node with the same name, or to one of another server. -/
def oneReference (serverIndex : UInt32) : Server Unit :=
  ⟨[⟨ns0 100, .object, ⟨1, [97]⟩, ⟨[], []⟩, false, (),
    [⟨ns0 35, false, ⟨ns0 101, [], serverIndex⟩⟩]⟩,
    ⟨ns0 101, .object, ⟨1, [98]⟩, ⟨[], []⟩, false, (), []⟩], 2, 0⟩

/-- Along any reference to a node with the name `b`. -/
def pathToB : BrowsePath := ⟨ns0 100, [⟨nullId, false, false, ⟨1, [98]⟩⟩]⟩

theorem browsePath_resolves_plain :
    (oneReference 0).get pathToB.startingNode ≠ none ∧
      ∃ result, translateBrowsePathToNodeIds (oneReference 0) pathToB = .ok result ∧
        Resolves (oneReference 0) pathToB result := by
  refine ⟨by decide, (browsePath_resolves_iff (oneReference 0) pathToB (by decide)).mpr
    ⟨by decide, by decide, ?_⟩⟩
  rintro target j ⟨ref, href, -, ⟨hexternal, -⟩ | ⟨-, -, hleaves⟩⟩
  · cases List.mem_singleton.mp href
    exact hexternal rfl
  · exact hleaves.elim

/-- The node in the other server is written to the targets and lost: the answer is `BadNoMatch`. -/
theorem external_target_lost :
    ((oneReference 1).get pathToB.startingNode).isSome ∧
      translateBrowsePathToNodeIds (oneReference 1) pathToB =
        .ok ⟨StatusCode.badNoMatch, [], 0⟩ ∧
      ¬ ∃ result, translateBrowsePathToNodeIds (oneReference 1) pathToB = .ok result ∧
        Resolves (oneReference 1) pathToB result := by
  have htranslate : translateBrowsePathToNodeIds (oneReference 1) pathToB =
      .ok ⟨StatusCode.badNoMatch, [], 0⟩ := by decide
  refine ⟨by decide, htranslate, ?_⟩
  rintro ⟨result, hresult, hresolves⟩
  cases htranslate.symm.trans hresult
  refine (hresolves.noMatch.mp rfl).2 ⟨ns0 101, [], 1⟩ 0
    ⟨_, List.mem_singleton_self _, ⟨rfl, Or.inl rfl⟩, Or.inl ⟨by decide, rfl, rfl⟩⟩

end FactoryThing.AddressSpace
