import FactoryThing.Nodesets.NodeIdText
import Mathlib

/-!
# The namespace of the nodeset compiler

The nodes of `opcua_namespace` (ua_namespace.py) once their references are linked, and
`getSubTypesOf` (ua_namespace.py:457-477). A node is its position in the list of nodes. Node ids
compare equal whatever they are, and the method that the recursion calls does not exist.
-/

namespace FactoryThing.Nodesets

open Relation

/-- `opcua_referencePointer_t`, when it is linked. -/
structure Reference (n : Nat) where
  target : Fin n
  referenceType : Fin n
  isForward : Bool
deriving DecidableEq

/-- The nodes of `opcua_namespace`, all of whose references are linked. -/
structure Namespace (n : Nat) where
  id : Fin n → OpcuaNodeId
  browseName : Fin n → Str
  references : Fin n → List (Reference n)

/-- How a method ends when it does not return. -/
inductive PyError where
  | attributeError
deriving DecidableEq

namespace Namespace

variable {n : Nat} (ns : Namespace n)

/-- `getNodeByBrowseName` (ua_namespace.py:139-151). -/
def getNodeByBrowseName (idstring : Str) : Option (Fin n) :=
  (List.finRange n).find? fun i => ns.browseName i = idstring

/-- The node with the browse name `HasTypeDefinition`. -/
def hasTypeDefinition : Option (Fin n) := ns.getNodeByBrowseName "HasTypeDefinition".toList

/-- The node with the browse name `HasSubtype`. -/
def hasSubtype : Option (Fin n) := ns.getNodeByBrowseName "HasSubtype".toList

/-- The loop of `getSubTypesOf`. Behind the first reference that it follows it calls
`self.getTypeDefinitionNodes`, which no class has. -/
def subTypesLoop (hasSubtypeRefNode : Fin n) (tdNodes : List (Option (Fin n))) :
    List (Reference n) → Except PyError (List (Option (Fin n)))
  | [] => .ok tdNodes
  | ref :: refs =>
    if ref.isForward ∧ (ns.id ref.referenceType).eq (ns.id hasSubtypeRefNode) then
      .error .attributeError
    else subTypesLoop hasSubtypeRefNode tdNodes refs

/-- `getSubTypesOf` (ua_namespace.py:457-477). -/
def getSubTypesOf (tdNodes : Option (List (Option (Fin n))))
    (currentNode hasSubtypeRefNode : Option (Fin n)) :
    Except PyError (List (Option (Fin n))) :=
  let tdNodes := tdNodes.getD []
  let (currentNode, tdNodes) :=
    match currentNode with
    | some currentNode => (some currentNode, tdNodes)
    | none =>
      let currentNode := ns.hasTypeDefinition
      (currentNode, tdNodes ++ [currentNode])
  match hasSubtypeRefNode.or ns.hasSubtype with
  | none => .ok tdNodes
  | some hasSubtypeRefNode =>
    match currentNode with
    | none => .error .attributeError
    | some currentNode =>
      ns.subTypesLoop hasSubtypeRefNode tdNodes (ns.references currentNode)

/-- A forward reference of the type `HasSubtype`. -/
def HasSubtype (hasSubtypeRefNode : Fin n) (i j : Fin n) : Prop :=
  ∃ ref ∈ ns.references i, ref.isForward = true ∧ ref.referenceType = hasSubtypeRefNode ∧
    ref.target = j

/-- The nodes that are reached by one or more of them. -/
def IsSubtype (hasSubtypeRefNode : Option (Fin n)) (i j : Fin n) : Prop :=
  ∃ h, hasSubtypeRefNode = some h ∧ TransGen (ns.HasSubtype h) i j

def NoForward (i : Fin n) : Prop := ∀ ref ∈ ns.references i, ref.isForward = false

instance (i : Fin n) : Decidable (ns.NoForward i) :=
  inferInstanceAs (Decidable (∀ ref ∈ ns.references i, ref.isForward = false))

/-- `getSubTypesOf` returns, behind what it was given, these nodes and no others. -/
def SubTypesExact (tdNodes : List (Option (Fin n))) (start : Fin n) : Prop :=
  ∃ subTypes, ns.getSubTypesOf (some tdNodes) (some start) none = .ok (tdNodes ++ subTypes) ∧
    ∀ j, j ∈ subTypes ↔ ∃ k, j = some k ∧ ns.IsSubtype ns.hasSubtype start k

variable {ns}

theorem subTypesLoop_eq (h : Fin n) (tdNodes : List (Option (Fin n))) (refs : List (Reference n)) :
    ns.subTypesLoop h tdNodes refs =
      if ∀ ref ∈ refs, ref.isForward = false then .ok tdNodes else .error .attributeError := by
  induction refs with
  | nil => simp [subTypesLoop]
  | cons ref refs ih =>
    simp only [subTypesLoop, OpcuaNodeId.eq_eq_true, and_true, ih]
    cases href : ref.isForward <;> simp [href]

theorem getSubTypesOf_eq (tdNodes : Option (List (Option (Fin n)))) (start : Fin n) :
    ns.getSubTypesOf tdNodes (some start) none =
      if ns.hasSubtype = none ∨ ns.NoForward start then
        .ok (tdNodes.getD [])
      else .error .attributeError := by
  cases hnode : ns.hasSubtype with
  | none => simp [getSubTypesOf, hnode]
  | some h => simp [getSubTypesOf, hnode, subTypesLoop_eq, NoForward]

theorem not_isSubtype {start k : Fin n} {h : Option (Fin n)}
    (hnone : h = none ∨ ns.NoForward start) :
    ¬ ns.IsSubtype h start k := by
  intro hsub
  rcases hsub with ⟨node, rfl, hreach⟩
  rcases hnone with hnone | hnone
  · cases hnone
  · rcases TransGen.head'_iff.mp hreach with ⟨j, ⟨ref, href, hforward, -⟩, -⟩
    simp [hnone ref href] at hforward

theorem subTypesExact_iff {tdNodes : List (Option (Fin n))} {start : Fin n} :
    ns.SubTypesExact tdNodes start ↔
      ns.hasSubtype = none ∨ ns.NoForward start := by
  rw [SubTypesExact, getSubTypesOf_eq]
  constructor
  · intro h
    rcases h with ⟨subTypes, hok, -⟩
    by_contra hnot
    rw [if_neg hnot] at hok
    cases hok
  · intro h
    refine ⟨[], by simp [if_pos h], fun j => ?_⟩
    simp [not_isSubtype h]

end Namespace

/-- What a node id names inside of its namespace. -/
inductive Identifier where
  | numeric (i : Int)
  | guid (g : List Nat)
  | bytestring (b : Str)
  | string (s : Str)
  | none
deriving DecidableEq

/-- The namespace and the identifier, in the order of preference of the class. -/
def OpcuaNodeId.denotes (id : OpcuaNodeId) : Int × Identifier :=
  (id.ns,
    match id.i, id.g, id.b, id.s with
    | some i, _, _, _ => .numeric i
    | none, some g, _, _ => .guid g
    | none, none, some b, _ => .bytestring b
    | none, none, none, some s => .string s
    | none, none, none, none => .none)

/-- The ids of two texts are equal exactly when they denote the same. -/
def EqualityExact (idstring idstring' : Str) : Prop :=
  ∀ id ∈ OpcuaNodeId.read idstring, ∀ id' ∈ OpcuaNodeId.read idstring',
    (id.eq id' = true ↔ id.denotes = id'.denotes)

def DenoteSame (idstring idstring' : Str) : Prop :=
  ∀ id ∈ OpcuaNodeId.read idstring, ∀ id' ∈ OpcuaNodeId.read idstring', id.denotes = id'.denotes

theorem equalityExact_iff {idstring idstring' : Str} :
    EqualityExact idstring idstring' ↔ DenoteSame idstring idstring' := by
  simp [EqualityExact, DenoteSame]

/-- The equality is right for ids that are the same, and the subtypes for nodes that have none. -/
theorem equality_subTypes_iff (idstring idstring' : Str) {n : Nat} (ns : Namespace n)
    (tdNodes : List (Option (Fin n))) (start : Fin n) :
    (EqualityExact idstring idstring' ↔ DenoteSame idstring idstring') ∧
    (ns.SubTypesExact tdNodes start ↔ ns.hasSubtype = none ∨ ns.NoForward start) :=
  ⟨equalityExact_iff, Namespace.subTypesExact_iff⟩

/-- Two nodes: a type, and the reference type of its subtypes with a reference to it. -/
def hasSubtypeNamespace : Namespace 2 where
  id i := ⟨some i, none, none, none, 0⟩
  browseName i := if i = 0 then "BaseDataType".toList else "HasSubtype".toList
  references i := if i = 0 then [] else [⟨0, 1, true⟩]

/-- Ids of different nodes are equal, and the reference is not followed. -/
theorem equality_subTypes_wrong :
    (¬ ∀ idstring idstring', EqualityExact idstring idstring') ∧
      ¬ ∀ (n : Nat) (ns : Namespace n) tdNodes start, ns.SubTypesExact tdNodes start := by
  constructor
  · intro h
    have hsame := equalityExact_iff.mp (h "i=1".toList "ns=1;i=2".toList)
      ⟨some 1, none, none, none, 0⟩ (by decide) ⟨some 2, none, none, none, 1⟩ (by decide)
    revert hsame
    decide
  · intro h
    have hnone := Namespace.subTypesExact_iff.mp (h 2 hasSubtypeNamespace [] 1)
    revert hnone
    decide

end FactoryThing.Nodesets
