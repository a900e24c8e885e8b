import FactoryThing.Lib.Runs
import FactoryThing.Types.StatusCode
import Mathlib

/-!
# The namespaces of the server

`addNamespace` (`src/server/ua_server.c:25-47`) and the write to the NamespaceArray
(`src/server/ua_server_ns0.c:78-112`). The search counts in 16 bits, so for a name that is not there
it does not end in a table of 65536 names or more.
-/

namespace FactoryThing.AddressSpace

open List

variable {S : Type} [DecidableEq S]

inductive NamespaceFault where
  | endless
deriving DecidableEq

/-- The table and the index. With `allocated` both the array and the copy of the name are. -/
def addNamespace (namespaces : List S) (name : S) (allocated : Bool) :
    Except NamespaceFault (List S × UInt16) :=
  if name ∈ namespaces.take 65536 then .ok (namespaces, UInt16.ofNat (namespaces.idxOf name))
  else if 65536 ≤ namespaces.length then .error .endless
  else if allocated then .ok (namespaces ++ [name], UInt16.ofNat namespaces.length)
  else .ok (namespaces, 0)

/-- The variant that is written, and the allocations for the names that are added. -/
structure NamespacesWrite (S : Type) where
  isString : Bool
  hasData : Bool
  range : Bool
  newNamespaces : List S
  allocated : Nat → Bool

/-- The last loop of `writeNamespaces`. -/
def addNamespaces (allocated : Nat → Bool) : Nat → List S → List S → Except NamespaceFault (List S)
  | _, namespaces, [] => .ok namespaces
  | i, namespaces, name :: names =>
    match addNamespace namespaces name (allocated i) with
    | .error fault => .error fault
    | .ok (namespaces', _) => addNamespaces allocated (i + 1) namespaces' names

/-- `writeNamespaces`: an array that is longer than the old one, with the old one in front. -/
def writeNamespaces (namespaces : List S) (w : NamespacesWrite S) :
    Except NamespaceFault (List S × StatusCode) :=
  if w.isString = false then .ok (namespaces, .badTypeMismatch)
  else if w.hasData = false then .ok (namespaces, .badTypeMismatch)
  else if w.range then .ok (namespaces, .badInternalError)
  else if w.newNamespaces.length ≤ namespaces.length then .ok (namespaces, .badTypeMismatch)
  else if w.newNamespaces.take namespaces.length ≠ namespaces then
    .ok (namespaces, .badInternalError)
  else (addNamespaces w.allocated 0 namespaces (w.newNamespaces.drop namespaces.length)).map
    fun namespaces' => (namespaces', .good)

inductive NamespaceRequest (S : Type) where
  | add (name : S) (allocated : Bool)
  | write (w : NamespacesWrite S)

inductive NamespaceReply where
  | index (i : UInt16)
  | status (s : StatusCode)

/-- A call of `UA_Server_addNamespace` or a write. -/
def namespaceStep (namespaces : List S) :
    NamespaceRequest S → Except NamespaceFault (List S × NamespaceReply)
  | .add name allocated =>
    (addNamespace namespaces name allocated).map fun (namespaces', i) => (namespaces', .index i)
  | .write w => (writeNamespaces namespaces w).map fun (namespaces', s) => (namespaces', .status s)

/-- What a reply says about the table: an index denotes the name, but for a failed allocation. -/
def ReplyDenotes (namespaces : List S) : NamespaceRequest S → NamespaceReply → Prop
  | .add name allocated, .index i =>
    namespaces[i.toNat]? = some name ∨ allocated = false ∧ i = 0
  | .write _, .status _ => True
  | _, _ => False

variable {namespaces namespaces' : List S} {name : S} {i : UInt16} {allocated : Bool}

theorem addNamespace_cases (h : addNamespace namespaces name allocated = .ok (namespaces', i)) :
    (namespaces' = namespaces ∧ namespaces[i.toNat]? = some name) ∨
      (namespaces' = namespaces ++ [name] ∧ name ∉ namespaces ∧ allocated = true ∧
        i.toNat = namespaces.length) ∨
      (namespaces' = namespaces ∧ allocated = false ∧ i = 0) := by
  rw [addNamespace] at h
  split at h
  · rename_i hmem
    cases h
    have hfound : namespaces.idxOf name < namespaces.length :=
      idxOf_lt_length_iff.mpr (mem_of_mem_take hmem)
    have hplace : namespaces.idxOf name < 65536 := by
      rw [← take_append_drop 65536 namespaces, idxOf_append_of_mem hmem]
      exact (idxOf_lt_length_iff.mpr hmem).trans_le (length_take_le _ _)
    refine .inl ⟨rfl, ?_⟩
    rw [UInt16.toNat_ofNat_of_lt' hplace, getElem?_eq_getElem hfound, getElem_idxOf]
  · rename_i hmem
    split at h
    · cases h
    · rename_i hshort
      rw [take_of_length_le (by omega)] at hmem
      split at h
      · rename_i hallocated
        cases h
        exact .inr (.inl ⟨rfl, hmem, hallocated,
          UInt16.toNat_ofNat_of_lt' (show namespaces.length < 65536 by omega)⟩)
      · rename_i hfailed
        cases h
        exact .inr (.inr ⟨rfl, by simpa using hfailed, rfl⟩)

/-- The table keeps its entries at their places and names nothing twice. -/
theorem extends_addNamespace (hnodup : namespaces.Nodup)
    (h : addNamespace namespaces name allocated = .ok (namespaces', i)) :
    namespaces'.Nodup ∧ namespaces <+: namespaces' := by
  rcases addNamespace_cases h with ⟨rfl, -⟩ | ⟨rfl, hnew, -⟩ | ⟨rfl, -⟩
  · exact ⟨hnodup, prefix_rfl⟩
  · exact ⟨by simpa using nodup_concat _ _ |>.mpr ⟨hnew, hnodup⟩, prefix_append _ _⟩
  · exact ⟨hnodup, prefix_rfl⟩

theorem extends_addNamespaces {allocated : Nat → Bool} {names : List S} {k : Nat}
    (hnodup : namespaces.Nodup) (h : addNamespaces allocated k namespaces names = .ok namespaces') :
    namespaces'.Nodup ∧ namespaces <+: namespaces' := by
  induction names generalizing k namespaces with
  | nil =>
    cases h
    exact ⟨hnodup, prefix_rfl⟩
  | cons name names ih =>
    rw [addNamespaces] at h
    split at h
    · cases h
    · rename_i hadd
      rcases extends_addNamespace hnodup hadd with ⟨hnodup', hgrows⟩
      rcases ih hnodup' h with ⟨hlast, hgrows'⟩
      exact ⟨hlast, hgrows.trans hgrows'⟩

theorem extends_writeNamespaces {w : NamespacesWrite S} {s : StatusCode} (hnodup : namespaces.Nodup)
    (h : writeNamespaces namespaces w = .ok (namespaces', s)) :
    namespaces'.Nodup ∧ namespaces <+: namespaces' := by
  unfold writeNamespaces at h
  split_ifs at h
  iterate 5
    · cases h
      exact ⟨hnodup, prefix_rfl⟩
  · cases hadd : addNamespaces w.allocated 0 namespaces
        (w.newNamespaces.drop namespaces.length) with
    | error fault =>
      rw [hadd] at h
      cases h
    | ok last =>
      rw [hadd] at h
      cases h
      exact extends_addNamespaces hnodup hadd

omit [DecidableEq S] in
theorem ReplyDenotes.of_extends {r : NamespaceRequest S} {reply : NamespaceReply}
    (h : ReplyDenotes namespaces r reply) (hgrows : namespaces <+: namespaces') :
    ReplyDenotes namespaces' r reply := by
  rcases hgrows with ⟨behind, rfl⟩
  cases r with
  | write w =>
    cases reply with
    | index i => exact h
    | status s => trivial
  | add name allocated =>
    cases reply with
    | status s => exact h
    | index i =>
      rcases h with h | h
      · rcases List.getElem?_eq_some_iff.mp h with ⟨hlt, -⟩
        exact .inl (by rw [getElem?_append_left hlt, h])
      · exact .inr h

theorem namespaceStep_spec {r : NamespaceRequest S} {reply : NamespaceReply}
    (hnodup : namespaces.Nodup) (h : namespaceStep namespaces r = .ok (namespaces', reply)) :
    namespaces'.Nodup ∧ namespaces <+: namespaces' ∧ ReplyDenotes namespaces' r reply := by
  cases r with
  | add name allocated =>
    cases hadd : addNamespace namespaces name allocated with
    | error fault =>
      rw [namespaceStep, hadd] at h
      cases h
    | ok result =>
      rcases result with ⟨last, i⟩
      rw [namespaceStep, hadd] at h
      cases h
      rcases extends_addNamespace hnodup hadd with ⟨hlast, hgrows⟩
      refine ⟨hlast, hgrows, ?_⟩
      rcases addNamespace_cases hadd with ⟨rfl, hfound⟩ | ⟨rfl, -, -, hplace⟩ | ⟨rfl, hfailed⟩
      · exact .inl hfound
      · exact .inl (by simp [hplace])
      · exact .inr hfailed
  | write w =>
    cases hwrite : writeNamespaces namespaces w with
    | error fault =>
      rw [namespaceStep, hwrite] at h
      cases h
    | ok result =>
      rcases result with ⟨last, s⟩
      rw [namespaceStep, hwrite] at h
      cases h
      rcases extends_writeNamespaces hnodup hwrite with ⟨hlast, hgrows⟩
      exact ⟨hlast, hgrows, trivial⟩

/-- Over every run of requests the table only grows and names nothing twice, and each index that was
given denotes its name at the end. -/
theorem namespaces_denote_forever {requests : List (NamespaceRequest S)}
    {replies : List NamespaceReply} (hnodup : namespaces.Nodup)
    (hrun : Runs.run namespaceStep namespaces requests = .ok (namespaces', replies)) :
    namespaces'.Nodup ∧ namespaces <+: namespaces' ∧
      Forall₂ (ReplyDenotes namespaces') requests replies := by
  induction requests generalizing namespaces replies with
  | nil =>
    rcases Runs.run_nil_ok hrun with ⟨rfl, rfl⟩
    exact ⟨hnodup, prefix_rfl, .nil⟩
  | cons r requests ih =>
    rcases Runs.run_cons_ok hrun with ⟨next, reply, rest, hstep, hrest, rfl⟩
    rcases namespaceStep_spec hnodup hstep with ⟨hnext, hgrows, hreply⟩
    rcases ih hnext hrest with ⟨hlast, hgrows', hreplies⟩
    exact ⟨hlast, hgrows.trans hgrows', .cons (hreply.of_extends hgrows') hreplies⟩

theorem namespaces_denote_forever_sample : ∃ replies,
    Runs.run namespaceStep [0, 1] [.add 7 true,
      .write ⟨true, true, false, [0, 1, 7, 8], fun _ => true⟩, .add 9 false] =
      .ok ([0, 1, 7, 8], replies) ∧ [0, 1] <+: [0, 1, 7, 8] := by
  have hrun : Runs.run namespaceStep [0, 1] [.add 7 true,
      .write ⟨true, true, false, [0, 1, 7, 8], fun _ => true⟩, .add 9 false] =
      .ok ([0, 1, 7, 8], [.index 2, .status 0, .index 0]) := rfl
  exact ⟨_, hrun, (namespaces_denote_forever (by decide) hrun).2.1⟩

end FactoryThing.AddressSpace
